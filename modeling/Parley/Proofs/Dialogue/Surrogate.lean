import Parley.Script.Execute
import Parley.Proofs.Framing
import Parley.Proofs.Dialogue.Keeping
/-
  This file shows that a surrogate that carries out a script of
  lines and raw bytes keeps to the plan of that script. It may
  take in bytes ahead of the action at hand; they stay in its
  buffer, in order, and later actions read them from there,
  whether they ask for a line or for raw bytes.

  Key definitions include:
    * `Action.turn`
    * `Action.Talks`
    * `Script.turns`
    * `Dialogue.Abreast`

  Key theorems include:
    * `Dialogue.keeps_readLine`
    * `Dialogue.keeps_readExact`
    * `Dialogue.keeps_flush`
    * `Dialogue.keeps_perform`
    * `Dialogue.keeps_execute`
-/

namespace Parley

variable {κ : Codec} {θ : Tls.Provider}

------------------------------------------------------------
-- The plan of a script
------------------------------------------------------------

/-
  The turn in which an action is carried out: who speaks, and
  which bytes. A control is no part of the conversation.
-/
def Action.turn
    (terminator : Bytes) : Action κ θ → Option Dialogue.Turn
  | .sendLine line =>
    some ⟨.surrogate, Bytes.ofString line ++ terminator⟩
  | .sendRaw bytes => some ⟨.surrogate, bytes⟩
  | .recvLine line =>
    some ⟨.client, Bytes.ofString line ++ terminator⟩
  | .recvRaw bytes => some ⟨.client, bytes⟩
  | .control _ => none

/-
  An action that only talks, and that awaits no line which
  would seem to end before it does.
-/
def Action.Talks
    (terminator : Bytes) : Action κ θ → Prop
  | .recvLine line =>
    Bytes.Framed terminator (Bytes.ofString line)
  | .control _ => False
  | _ => True

/- The turns of a script, in order. -/
def Script.turns
    (terminator : Bytes)
    (script : Script κ θ) : List Dialogue.Turn :=
  script.actions.filterMap (Action.turn terminator)

/- A surrogate over a plain endpoint, with bytes taken in. -/
def Surrogate.holding
    (terminator unread : Bytes) : Surrogate κ θ :=
  { Surrogate.new terminator with unread := unread }

namespace Dialogue

variable {plan past : List Turn} {turn : Turn}
variable {terminator unread got gave : Bytes}

------------------------------------------------------------
-- Abreast of the plan
------------------------------------------------------------

/-
  The surrogate is done with these turns and with no more. What
  it got beyond them is in its buffer.
-/
structure Abreast
    (plan past : List Turn)
    (unread got gave : Bytes) : Prop where
  got_eq : got = said past .client ++ unread
  heard : got <+: said plan .client
  gave_eq : gave = said past .surrogate

namespace Abreast

theorem past_spec
    (hAbreast : Abreast plan past unread got gave) :
    Past past .surrogate got gave := by
  rcases hAbreast with ⟨rfl, -, rfl⟩
  refine ⟨Nat.le_refl _, ?_⟩
  rw [List.length_append]
  exact Nat.le_add_right _ _

/- More that is taken in goes to the end of the buffer. -/
theorem more
    {bytes : Bytes}
    (hAbreast : Abreast plan past unread got gave)
    (hMore : got ++ bytes <+: said plan .client) :
    Abreast plan past (unread ++ bytes) (got ++ bytes) gave := by
  refine ⟨?_, hMore, hAbreast.gave_eq⟩
  rw [hAbreast.got_eq, List.append_assoc]

/- What is in the buffer begins with the turn at hand. -/
theorem unread_isPrefix
    (hAbreast : Abreast plan past unread got gave)
    (hPlan : past ++ [turn] <+: plan)
    (hSpeaker : turn.speaker = .client) :
    ∃ later, unread <+: turn.bytes ++ later := by
  rcases hAbreast with ⟨rfl, hHeard, -⟩
  rcases hPlan with ⟨later, rfl⟩
  refine ⟨said later .client, ?_⟩
  rw [said_append, said_append, said_singleton, if_pos hSpeaker,
    List.append_assoc, List.prefix_append_right_inj] at hHeard
  exact hHeard

/- A turn of the client that is not all there is listened to. -/
theorem listening
    (hAbreast : Abreast plan past unread got gave)
    (hPlan : past ++ [turn] <+: plan)
    (hSpeaker : turn.speaker = .client)
    (hShort : unread.length < turn.bytes.length) :
    Listening plan .surrogate got gave := by
  refine ⟨past, turn, hPlan, hSpeaker, hAbreast.past_spec, ?_⟩
  rw [hAbreast.got_eq, Role.other, said_append, said_singleton,
    if_pos hSpeaker, List.length_append, List.length_append]
  omega

/- A turn of the client that was read from the buffer is past. -/
theorem hear
    (hAbreast :
      Abreast plan past (turn.bytes ++ unread) got gave)
    (hSpeaker : turn.speaker = .client) :
    Abreast plan (past ++ [turn]) unread got gave := by
  rcases hAbreast with ⟨rfl, hHeard, rfl⟩
  refine ⟨?_, hHeard, ?_⟩
  · rw [said_append, said_singleton, if_pos hSpeaker,
      List.append_assoc]
  · simp [hSpeaker]

/- A turn of the surrogate is its own to speak. -/
theorem speaking
    (hAbreast : Abreast plan past unread got gave)
    (hPlan : past ++ [turn] <+: plan)
    (hSpeaker : turn.speaker = .surrogate) :
    Speaking plan .surrogate turn.bytes got gave := by
  refine ⟨past, turn, hPlan, hSpeaker, hAbreast.past_spec, [],
    ?_⟩
  rw [List.append_nil, hAbreast.gave_eq, said_append,
    said_singleton, if_pos hSpeaker]

/- A turn of the surrogate that was spoken is past. -/
theorem speak
    (hAbreast : Abreast plan past unread got gave)
    (hSpeaker : turn.speaker = .surrogate) :
    Abreast plan (past ++ [turn]) unread got
      (gave ++ turn.bytes) := by
  rcases hAbreast with ⟨rfl, hHeard, rfl⟩
  refine ⟨?_, hHeard, ?_⟩
  · simp [hSpeaker]
  · simp [hSpeaker]

/- At the end of the plan nothing is left in the buffer. -/
theorem unread_eq_nil
    (hAbreast : Abreast plan plan unread got gave) :
    unread = [] := by
  have hLength := hAbreast.heard.length_le
  rw [hAbreast.got_eq, List.length_append] at hLength
  apply List.eq_nil_of_length_eq_zero
  omega

end Abreast

------------------------------------------------------------
-- Reading and writing through plain layers
------------------------------------------------------------

/- A read through plain layers is a read of the endpoint. -/
theorem keeps_read_plain
    {room : Nat}
    {post :
      Except IoError Bytes × Layer κ θ → Bytes → Bytes → Prop}
    (hRoom : 0 < room)
    (hListening : Listening plan .surrogate got gave)
    (hMore : ∀ more : Bytes,
      more ≠ [] → more.length ≤ room →
      got ++ more <+: said plan .client →
      post (.ok more, .raw .plain) (got ++ more) gave) :
    Keeps plan .surrogate
      ((Layer.raw Link.plain : Layer κ θ).read room)
      post got gave :=
  ⟨hRoom, hListening, hMore⟩

/- A write through plain layers is a send at the endpoint. -/
theorem keeps_write_plain
    {src : Bytes}
    {post : Except IoError Nat × Layer κ θ → Bytes → Bytes → Prop}
    (hSpeaking : Speaking plan .surrogate src got gave)
    (hSent :
      post (.ok src.length, .raw .plain) got (gave ++ src)) :
    Keeps plan .surrogate
      ((Layer.raw Link.plain : Layer κ θ).write src)
      post got gave :=
  ⟨hSpeaking, hSent⟩

------------------------------------------------------------
-- Reading
------------------------------------------------------------

/-
  A round of reading a line finds what a search of the whole
  buffer would find.
-/
theorem lineRound_of_searched
    {s : Surrogate κ θ}
    {scanned : Nat}
    (hSearched : Bytes.Searched s.terminator s.unread scanned) :
    s.lineRound scanned =
      match s.terminator.find? s.unread with
      | some n =>
        .done (.inr (.ok (s.unread.take n),
          { s with
            unread := s.unread.drop (n + s.terminator.length) }))
      | none =>
        (s.layer.read Surrogate.chunkSize).bind fun
          | (.error e, layer) =>
            .done (.inr
              (.error (.io e), { s with layer := layer }))
          | (.ok [], layer) =>
            .done (.inr
              (.error (.unexpectedEof s.unread),
                { s with layer := layer, unread := [] }))
          | (.ok more, layer) =>
            .done (.inl
              ({ s with
                layer := layer
                unread := s.unread ++ more },
              s.unread.length - (s.terminator.length - 1))) := by
  rw [Surrogate.lineRound, hSearched.find?_eq]
  cases s.terminator.find? (s.unread.drop scanned) with
  | none => rfl
  | some n => rfl

/-
  A line of the client is read whole, from the buffer and from
  as many further reads as it takes, and what came in behind it
  stays in the buffer.
-/
theorem keeps_readLine
    {line : Bytes}
    (hTerminator : terminator ≠ [])
    (hFramed : Bytes.Framed terminator line)
    (hTurn : turn = ⟨.client, line ++ terminator⟩)
    (hPlan : past ++ [turn] <+: plan)
    (hAbreast : Abreast plan past unread got gave) :
    Keeps plan .surrogate
      (Surrogate.holding (κ := κ) (θ := θ) terminator unread).readLine
      (fun r got gave =>
        ∃ unread,
          r = (.ok line,
            Surrogate.holding terminator unread) ∧
          Abreast plan (past ++ [turn]) unread got gave)
      got gave := by
  have hSpeaker : turn.speaker = .client := by
    rw [hTurn]
  have hBytes : turn.bytes = line ++ terminator := by
    rw [hTurn]
  -- The loop is entered again with more in the buffer only.
  refine ⟨fun u got gave =>
    ∃ unread, u.1 = Surrogate.holding terminator unread ∧
      Bytes.Searched terminator unread u.2 ∧
      Abreast plan past unread got gave,
    ⟨unread, rfl, Bytes.searched_zero _ _, hAbreast⟩, ?_⟩
  rintro ⟨_, scanned⟩ got gave
    ⟨unread, rfl, hSearched, hAbreast⟩
  rcases hAbreast.unread_isPrefix hPlan hSpeaker with
    ⟨later, hUnread⟩
  rw [hBytes] at hUnread
  have hFound := Bytes.find?_of_framed hFramed hTerminator hUnread
  simp only
  rw [lineRound_of_searched
    (s := Surrogate.holding terminator unread) hSearched]
  by_cases hAll : line.length + terminator.length ≤ unread.length
  · rw [if_pos hAll] at hFound
    have hThere : line ++ terminator <+: unread := by
      apply List.prefix_of_prefix_length_le
        (List.prefix_append _ later) hUnread
      rw [List.length_append]
      exact hAll
    rcases hThere with ⟨behind, rfl⟩
    simp only [Surrogate.holding, Surrogate.new, hFound]
    refine ⟨behind, ?_, ?_⟩
    · rw [← List.length_append, List.drop_left, List.append_assoc,
        List.take_left]
    · rw [← hBytes] at hAbreast
      exact hAbreast.hear hSpeaker
  · rw [if_neg hAll] at hFound
    simp only [Surrogate.holding, Surrogate.new, hFound]
    rw [keeps_bind]
    apply keeps_read_plain
    · decide
    · apply hAbreast.listening hPlan hSpeaker
      rw [hBytes, List.length_append]
      exact Nat.lt_of_not_le hAll
    · intro more hSome _ hMore
      cases more with
      | nil => exact absurd rfl hSome
      | cons b more =>
          exact ⟨unread ++ b :: more, rfl,
            Bytes.searched_append hTerminator hFound _,
            hAbreast.more hMore⟩

/-
  A read of a part of a turn, of which some was gathered by
  earlier reads, takes the next piece from the buffer if there
  is something in it, and else what comes in.
-/
theorem keeps_read
    {room : Nat}
    {gathered : Bytes}
    {post :
      Except IoError Bytes × Surrogate κ θ →
        Bytes → Bytes → Prop}
    (hRoom : 0 < room)
    (hPlan : past ++ [turn] <+: plan)
    (hSpeaker : turn.speaker = .client)
    (hShort : gathered.length < turn.bytes.length)
    (hAbreast : Abreast plan past (gathered ++ unread) got gave)
    (hNext : ∀ piece left got,
      piece ≠ [] → piece.length ≤ room →
      Abreast plan past (gathered ++ piece ++ left) got gave →
      post (.ok piece, Surrogate.holding terminator left)
        got gave) :
    Keeps plan .surrogate
      ((Surrogate.holding terminator unread).read room)
      post got gave := by
  cases unread with
  | nil =>
      rw [List.append_nil] at hAbreast
      refine ⟨hRoom, hAbreast.listening hPlan hSpeaker hShort,
        ?_⟩
      intro more hSome hFits hMore
      apply hNext more [] _ hSome hFits
      rw [List.append_nil]
      exact hAbreast.more hMore
  | cons b unread =>
      apply hNext ((b :: unread).take room)
        ((b :: unread).drop room) got
      · rw [ne_eq, List.take_eq_nil_iff, not_or]
        exact ⟨Nat.ne_of_gt hRoom, List.cons_ne_nil b unread⟩
      · exact List.length_take_le room _
      · rw [List.append_assoc, List.take_append_drop]
        exact hAbreast

/-
  The bytes of a turn of the client are read whole, first from
  the buffer and then by as many reads as it takes. No read
  asks for more than what is missing.
-/
theorem keeps_readExact
    (hPlan : past ++ [turn] <+: plan)
    (hSpeaker : turn.speaker = .client)
    (hAbreast : Abreast plan past unread got gave) :
    Keeps plan .surrogate
      (ByteStream.readExact
        (Surrogate.holding (κ := κ) (θ := θ) terminator unread)
        turn.bytes.length)
      (fun r got gave =>
        ∃ unread,
          r = (.ok turn.bytes,
            Surrogate.holding terminator unread) ∧
          Abreast plan (past ++ [turn]) unread got gave)
      got gave := by
  -- What was gathered, last byte first, counts as in the buffer.
  refine ⟨fun (s, missing, gathered) got gave =>
    ∃ unread, s = Surrogate.holding terminator unread ∧
      gathered.length + missing = turn.bytes.length ∧
      Abreast plan past (gathered.reverse ++ unread) got gave,
    ⟨unread, rfl, Nat.zero_add _, hAbreast⟩, ?_⟩
  rintro ⟨_, missing, gathered⟩ got gave
    ⟨unread, rfl, hMissing, hAbreast⟩
  rcases hAbreast.unread_isPrefix hPlan hSpeaker with
    ⟨later, hUnread⟩
  by_cases hDone : missing = 0
  · subst hDone
    simp only [if_true]
    have hAll : turn.bytes = gathered.reverse := by
      have hTurn : turn.bytes <+: gathered.reverse ++ unread := by
        apply List.prefix_of_prefix_length_le
          (List.prefix_append _ later) hUnread
        rw [List.length_append, List.length_reverse]
        omega
      have hGathered := List.prefix_append gathered.reverse unread
      apply (List.prefix_of_prefix_length_le hTurn hGathered
        ?_).eq_of_length
      · rw [List.length_reverse]
        omega
      · rw [List.length_reverse]
        omega
    refine ⟨unread, ?_, ?_⟩
    · rw [hAll]
    · rw [← hAll] at hAbreast
      exact hAbreast.hear hSpeaker
  · simp only [if_neg hDone]
    rw [keeps_bind]
    apply keeps_read (Nat.pos_of_ne_zero hDone) hPlan hSpeaker ?_
      hAbreast
    · intro piece left got hSome hFits hAbreast
      cases piece with
      | nil => exact absurd rfl hSome
      | cons b piece =>
          refine ⟨left, rfl, ?_, ?_⟩
          · simp only [List.length_append, List.length_reverse]
            omega
          · rw [List.reverse_append, List.reverse_reverse]
            exact hAbreast
    · rw [List.length_reverse]
      omega

------------------------------------------------------------
-- Writing
------------------------------------------------------------

/- All bytes are written through plain layers, in one send. -/
theorem keeps_writeAll_plain
    {src : Bytes}
    (hSpeaking : Speaking plan .surrogate src got gave) :
    Keeps plan .surrogate
      (ByteStream.writeAll (Layer.raw Link.plain : Layer κ θ) src)
      (fun r got' gave' =>
        r = (.ok (), .raw .plain) ∧
          got' = got ∧ gave' = gave ++ src)
      got gave := by
  -- Before the send all is left, after it nothing is.
  refine ⟨fun (layer, rest) got' gave' =>
    layer = .raw .plain ∧ got' = got ∧
      (rest = src ∧ gave' = gave ∨
        rest = [] ∧ gave' = gave ++ src),
    ⟨rfl, rfl, .inl ⟨rfl, rfl⟩⟩, ?_⟩
  rintro ⟨_, rest⟩ _ gave' ⟨rfl, rfl, hRest⟩
  by_cases hDone : rest = []
  · subst hDone
    refine ⟨rfl, rfl, ?_⟩
    rcases hRest with ⟨rfl, rfl⟩ | ⟨-, rfl⟩
    · exact (List.append_nil gave').symm
    · rfl
  · rcases hRest with ⟨rfl, rfl⟩ | ⟨rfl, -⟩
    · simp only [if_neg hDone]
      rw [keeps_bind]
      apply keeps_write_plain hSpeaking
      cases rest with
      | nil => exact absurd rfl hDone
      | cons b rest =>
          exact ⟨rfl, rfl, .inr ⟨List.drop_length, rfl⟩⟩
    · exact absurd rfl hDone

/- A flush sends the turn that was written, and no more. -/
theorem keeps_flush
    (hPlan : past ++ [turn] <+: plan)
    (hSpeaker : turn.speaker = .surrogate)
    (hAbreast : Abreast plan past unread got gave) :
    Keeps plan .surrogate
      (Surrogate.flush
        { Surrogate.holding (κ := κ) (θ := θ) terminator unread with
          unsent := turn.bytes })
      (fun r got gave =>
        r = (.ok (), Surrogate.holding terminator unread) ∧
          Abreast plan (past ++ [turn]) unread got gave)
      got gave := by
  have hSpoken := hAbreast.speak hSpeaker
  by_cases hNothing : turn.bytes = []
  · rw [hNothing, List.append_nil] at hSpoken
    simp only [Surrogate.flush, hNothing, if_true]
    exact ⟨rfl, hSpoken⟩
  · simp only [Surrogate.flush, Surrogate.holding, Surrogate.new,
      Bool.false_eq_true, if_false, if_neg hNothing,
      Routine.ifOk, Surrogate.onLayer, keeps_bind]
    apply (keeps_writeAll_plain
      (hAbreast.speaking hPlan hSpeaker)).mono
    rintro _ _ _ ⟨rfl, rfl, rfl⟩
    exact ⟨rfl, hSpoken⟩

------------------------------------------------------------
-- Actions
------------------------------------------------------------

/- Writing bytes only adds them to what is not sent yet. -/
theorem keeps_writeAll_holding
    {src : Bytes}
    {post :
      Except IoError Unit × Surrogate κ θ →
        Bytes → Bytes → Prop}
    (hWritten :
      post
        (.ok (),
          { Surrogate.holding terminator unread with
            unsent := src })
        got gave) :
    Keeps plan .surrogate
      (ByteStream.writeAll
        (Surrogate.holding (κ := κ) (θ := θ) terminator unread) src)
      post got gave := by
  refine ⟨fun (s, rest) got' gave' =>
    got' = got ∧ gave' = gave ∧
      ∃ unsent,
        s = { Surrogate.holding terminator unread with
          unsent := unsent } ∧
        unsent ++ rest = src,
    ⟨rfl, rfl, [], rfl, rfl⟩, ?_⟩
  rintro ⟨_, rest⟩ _ _ ⟨rfl, rfl, unsent, rfl, rfl⟩
  by_cases hDone : rest = []
  · subst hDone
    rw [List.append_nil] at hWritten
    exact hWritten
  · simp only [if_neg hDone]
    cases rest with
    | nil => exact absurd rfl hDone
    | cons b rest =>
        refine ⟨rfl, rfl, unsent ++ b :: rest, rfl, ?_⟩
        simp only [List.drop_length, List.append_nil]

/-
  Carrying out an action that only talks succeeds and brings
  the surrogate past that action's turn.
-/
theorem keeps_perform
    {a : Action κ θ}
    (index : Nat)
    (hTerminator : terminator ≠ [])
    (hTalks : a.Talks terminator)
    (hTurn : a.turn terminator = some turn)
    (hPlan : past ++ [turn] <+: plan)
    (hAbreast : Abreast plan past unread got gave) :
    Keeps plan .surrogate
      (a.perform index (Surrogate.holding terminator unread))
      (fun r got gave =>
        ∃ unread,
          r = (.ok (), Surrogate.holding terminator unread) ∧
          Abreast plan (past ++ [turn]) unread got gave)
      got gave := by
  cases a with
  | sendLine line =>
      cases hTurn
      simp only [Action.perform, Surrogate.sendLine,
        Surrogate.writeLine, Routine.ifOk, keeps_bind]
      apply (keeps_flush hPlan rfl hAbreast).mono
      rintro _ _ _ ⟨rfl, hPast⟩
      exact ⟨unread, rfl, hPast⟩
  | sendRaw bytes =>
      cases hTurn
      simp only [Action.perform, Surrogate.sendRaw, Routine.ifOk,
        keeps_bind]
      apply keeps_writeAll_holding
      apply (keeps_flush hPlan rfl hAbreast).mono
      rintro _ _ _ ⟨rfl, hPast⟩
      exact ⟨unread, rfl, hPast⟩
  | recvLine line =>
      cases hTurn
      simp only [Action.perform, keeps_bind]
      apply (keeps_readLine hTerminator hTalks rfl hPlan
        hAbreast).mono
      rintro _ _ _ ⟨unread, rfl, hPast⟩
      simp only [if_true]
      exact ⟨unread, rfl, hPast⟩
  | recvRaw bytes =>
      cases hTurn
      simp only [Action.perform, keeps_bind]
      apply (keeps_readExact hPlan rfl hAbreast).mono
      rintro _ _ _ ⟨unread, rfl, hPast⟩
      simp only [if_true]
      exact ⟨unread, rfl, hPast⟩
  | control c => exact hTalks.elim

------------------------------------------------------------
-- Scripts
------------------------------------------------------------

/- What is left of a script brings the surrogate to its end. -/
theorem keeps_executeFrom
    (index : Nat)
    (actions : List (Action κ θ))
    (hTerminator : terminator ≠ [])
    (hTalks : ∀ a ∈ actions, a.Talks terminator)
    (hPlan :
      past ++ actions.filterMap (Action.turn terminator) = plan)
    (hAbreast : Abreast plan past unread got gave) :
    Keeps plan .surrogate
      (Script.executeFrom index actions
        (Surrogate.holding terminator unread))
      (fun r got gave =>
        r = (.ok (), Surrogate.new terminator) ∧
          Abreast plan plan [] got gave)
      got gave := by
  induction actions generalizing index past unread got gave with
  | nil =>
      rw [List.filterMap_nil, List.append_nil] at hPlan
      subst hPlan
      have hNothing := hAbreast.unread_eq_nil
      subst hNothing
      exact ⟨rfl, hAbreast⟩
  | cons a actions ih =>
      have hTalksNow := hTalks a List.mem_cons_self
      have hTalksLater : ∀ a ∈ actions, a.Talks terminator :=
        fun a hMember => hTalks a (List.mem_cons_of_mem _ hMember)
      cases hTurn : a.turn terminator with
      | none =>
          cases a with
          | control c => exact hTalksNow.elim
          | _ => cases hTurn
      | some turn =>
          rw [List.filterMap_cons_some hTurn,
            List.append_cons] at hPlan
          have hNext : past ++ [turn] <+: plan := ⟨_, hPlan⟩
          simp only [Script.executeFrom, Routine.ifOk, keeps_bind]
          apply (keeps_perform index hTerminator hTalksNow hTurn
            hNext hAbreast).mono
          rintro _ got gave ⟨unread, rfl, hPast⟩
          exact ih (index + 1) hTalksLater hPlan hPast

/-
  A surrogate that carries out a script keeps to the script's
  plan, succeeds, and is left with nothing unread or unsent.
-/
theorem keeps_execute
    {script : Script κ θ}
    (hTerminator : terminator ≠ [])
    (hTalks : ∀ a ∈ script.actions, a.Talks terminator) :
    Keeps (script.turns terminator) .surrogate
      (script.execute (Surrogate.new terminator))
      (fun r got gave =>
        r = (.ok (), Surrogate.new terminator) ∧
          Abreast (script.turns terminator)
            (script.turns terminator) [] got gave)
      [] [] := by
  have hBegin : Abreast (script.turns terminator) [] [] [] [] :=
    ⟨rfl, List.nil_prefix, rfl⟩
  exact keeps_executeFrom 1 script.actions hTerminator hTalks
    (List.nil_append _) hBegin

end Dialogue

end Parley
