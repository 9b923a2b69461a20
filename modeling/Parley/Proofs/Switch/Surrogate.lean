import Parley.Script.Execute
import Parley.Proofs.Switch.Script
/-
  This file follows a surrogate through a script in the middle
  of which it begins to compress. It honours the pact and never
  fails: when it comes to the control it has read all that the
  client may have said by the time it last read, so nothing is
  unread.

  Key definitions include:
    * `Switch.Midway`

  Key theorems include:
    * `Switch.Midway.yields_flush`
    * `Switch.Midway.yields_recvLine`
    * `Switch.yields_executeFrom`
    * `Switch.SwitchScript.yields_execute`
-/

universe v

namespace Parley

namespace Switch

open Routine Dialogue

variable {κ : Codec} {θ : Tls.Provider}

------------------------------------------------------------
-- Lines, whatever the layers
------------------------------------------------------------

/-
  A surrogate in the middle of a script: it wrote `said` to its
  layers, and what it is still to read is `left`, of which it
  may have taken some in.
-/
structure Midway
    {W : Type v}
    (stands : Layer κ θ → Bytes → Bytes → W → Prop)
    (terminator said left : Bytes)
    (s : Surrogate κ θ)
    (w : W) : Prop where
  terminator_eq : s.terminator = terminator
  closed_eq : s.closed = false
  unsent_eq : s.unsent = []
  stands :
    ∃ coming,
      s.unread ++ coming = left ∧ stands s.layer said coming w

section

variable {W : Type v} {env : Environment endpointInterface W}
variable {stands : Layer κ θ → Bytes → Bytes → W → Prop}
variable {quiet : Bytes → Nat → Bytes → Prop}
variable {terminator whole said left : Bytes}
variable {s : Surrogate κ θ} {w : W}

/- What is flushed is said, and nothing else changes. -/
theorem Midway.yields_flush
    {src : Bytes}
    (hSpeaks : Speaks env stands whole)
    (hMidway : Midway stands terminator said left s w)
    (hWhole : said ++ src <+: whole) :
    Yields env
      (fun (r, s) w =>
        r = .ok () ∧
          Midway stands terminator (said ++ src) left s w)
      (Surrogate.flush { s with unsent := src }) w := by
  rcases hMidway with ⟨hTerminator, hOpen, -, coming, hLeft, hStands⟩
  have hRest : ∀ layer w,
      stands layer (said ++ src) coming w →
      Yields env
        (fun next w =>
          next.1 = .ok () ∧
            Midway stands terminator (said ++ src) left next.2 w)
        (Surrogate.onLayer
          { s with unsent := [], layer := layer } layer.flush) w := by
    intro layer w hStands
    apply (hSpeaks.flush hStands hWhole).bind
    rintro ⟨r, layer⟩ w ⟨rfl, hNext⟩
    exact .done ⟨rfl, hTerminator, hOpen, rfl, coming, hLeft, hNext⟩
  rw [Surrogate.flush, if_neg (ne_true_of_eq_false hOpen)]
  simp only
  by_cases hNone : src = []
  · rw [if_pos hNone]
    apply hRest s.layer w
    rw [hNone, List.append_nil]
    exact hStands
  · rw [if_neg hNone]
    simp only [Surrogate.onLayer, Routine.ifOk, bind_assoc]
    apply (hSpeaks.yields_writeAll hStands hWhole).bind
    rintro ⟨r, layer⟩ w ⟨rfl, hNext⟩
    exact hRest layer w hNext

/- A line is sent with what ends it. -/
theorem Midway.yields_sendLine
    (line : Bytes)
    (hSpeaks : Speaks env stands whole)
    (hMidway : Midway stands terminator said left s w)
    (hWhole : said ++ (line ++ terminator) <+: whole) :
    Yields env
      (fun (r, s) w =>
        r = .ok () ∧
          Midway stands terminator (said ++ (line ++ terminator))
            left s w)
      (s.sendLine line) w := by
  have hOpen := hMidway.closed_eq
  obtain rfl := hMidway.terminator_eq
  rw [Surrogate.sendLine, Surrogate.writeLine,
    if_neg (ne_true_of_eq_false hOpen), hMidway.unsent_eq,
    List.nil_append]
  exact hMidway.yields_flush hSpeaks hWhole

/- Where nothing ends a line, an empty one is always there. -/
theorem yields_readLine_nil
    (hTerminator : s.terminator = [])
    (hOpen : s.closed = false) :
    Yields env (fun (r, s') w' => r = .ok [] ∧ s' = s ∧ w' = w)
      s.readLine w := by
  rcases s with ⟨layer, terminator, unread, unsent, closed⟩
  obtain rfl : terminator = [] := hTerminator
  have hFound : Bytes.find? [] (unread.drop 0) = some 0 :=
    Bytes.find?_of_isPrefix List.nil_prefix
  rw [Surrogate.readLine, if_neg (ne_true_of_eq_false hOpen)]
  refine .loop ?_
  simp only [unroll, Surrogate.lineRound, hFound]
  exact .done ⟨rfl, rfl, rfl⟩

/- A line that is framed and comes next is the one that is read. -/
theorem Midway.yields_readLine
    (line : Bytes)
    (hHears : Hears env stands quiet)
    (hQuiet :
      terminator ≠ [] →
        ∀ coming, quiet said Surrogate.chunkSize coming)
    (hFramed : Bytes.Framed terminator line)
    (hMidway :
      Midway stands terminator said (line ++ terminator ++ left)
        s w) :
    Yields env
      (fun (r, s) w =>
        r = .ok line ∧ Midway stands terminator said left s w)
      s.readLine w := by
  rcases hMidway with ⟨rfl, hOpen, hUnsent, coming, hLeft, hStands⟩
  by_cases hNone : s.terminator = []
  · apply (yields_readLine_nil hNone hOpen).mono
    rintro ⟨_, _⟩ _ ⟨rfl, rfl, rfl⟩
    rw [hNone] at hFramed hLeft
    have hEmpty := hFramed.eq_nil
    rw [hEmpty] at hLeft
    exact ⟨by rw [hEmpty], rfl, hOpen, hUnsent, coming, hLeft,
      hStands⟩
  · have hDelivers := hHears.delivers (by decide) (hQuiet hNone)
    have hRead := hDelivers.yields_readLine hNone hOpen []
      hStands (.inr (by rw [hLeft]; exact ⟨line, left, rfl⟩))
    apply hRead.mono
    rintro ⟨r, _⟩ w ⟨layer, unread, rest, rfl, hLine, hNext⟩
    rw [hLeft] at hLine
    have hFound := Bytes.find?_of_framed hFramed hNone
      (List.prefix_refl (line ++ s.terminator ++ left))
    generalize hStream : line ++ s.terminator ++ left = stream
      at hLine hFound
    generalize hRest : unread ++ rest = behind at hLine
    cases hLine with
    | ended hNowhere => exact absurd ⟨line, left, hStream⟩ hNowhere
    | failed hFails => exact hFails.elim
    | @line first _ hCut =>
        have hWithin : line.length + s.terminator.length ≤
            stream.length := by
          rw [← hStream, List.length_append, List.length_append]
          omega
        rw [if_pos hWithin, hCut.find?_eq, Option.some.injEq]
          at hFound
        have hBoth := hStream.trans hCut.whole
        rw [List.append_assoc, List.append_assoc] at hBoth
        rcases List.append_inj hBoth hFound.symm with ⟨rfl, hSame⟩
        rw [List.append_cancel_left hSame]
        exact ⟨rfl, rfl, hOpen, hUnsent, rest, hRest, hNext⟩

------------------------------------------------------------
-- Actions
------------------------------------------------------------

/- To send a line is carried out. -/
theorem Midway.yields_perform_send
    (index : Nat)
    (line : String)
    (hSpeaks : Speaks env stands whole)
    (hMidway : Midway stands terminator said left s w)
    (hWhole :
      said ++ (Bytes.ofString line ++ terminator) <+: whole) :
    Yields env
      (fun (r, s) w =>
        r = .ok () ∧
          Midway stands terminator
            (said ++ (Bytes.ofString line ++ terminator)) left s w)
      ((Action.sendLine line).perform index s) w := by
  apply (hMidway.yields_sendLine _ hSpeaks hWhole).bind
  rintro ⟨r, s⟩ w ⟨rfl, hNext⟩
  exact .done ⟨rfl, hNext⟩

/- To expect a line is carried out if it comes next. -/
theorem Midway.yields_perform_recv
    (index : Nat)
    (line : String)
    (hHears : Hears env stands quiet)
    (hQuiet :
      terminator ≠ [] →
        ∀ coming, quiet said Surrogate.chunkSize coming)
    (hFramed : Bytes.Framed terminator (Bytes.ofString line))
    (hMidway :
      Midway stands terminator said
        (Bytes.ofString line ++ terminator ++ left) s w) :
    Yields env
      (fun (r, s) w =>
        r = .ok () ∧ Midway stands terminator said left s w)
      ((Action.recvLine line).perform index s) w := by
  apply (hMidway.yields_readLine _ hHears hQuiet hFramed).bind
  rintro ⟨r, s⟩ w ⟨rfl, hNext⟩
  simp only [if_true]
  exact .done ⟨rfl, hNext⟩

/- Actions with lines are carried out one after the other. -/
theorem yields_executeFrom
    (index : Nat)
    (actions : List LineAction)
    (hHears : Hears env stands quiet)
    (hSpeaks : Speaks env stands whole)
    (hQuiet :
      terminator ≠ [] → ∀ said',
        said' <+: said ++ spoken terminator actions .surrogate →
          ∀ coming, quiet said' Surrogate.chunkSize coming)
    (hFramed :
      ∀ line, .recv line ∈ actions →
        Bytes.Framed terminator (Bytes.ofString line))
    (hMidway :
      Midway stands terminator said
        (spoken terminator actions .client ++ left) s w)
    (hWhole :
      said ++ spoken terminator actions .surrogate <+: whole) :
    Yields env
      (fun (r, s) w =>
        r = .ok () ∧
          Midway stands terminator
            (said ++ spoken terminator actions .surrogate)
            left s w)
      (Script.executeFrom index (actions.map LineAction.action) s)
      w := by
  induction actions generalizing index said s w with
  | nil =>
      rw [spoken_nil, List.append_nil]
      exact .done ⟨rfl, hMidway⟩
  | cons action actions ih =>
      have hLater : ∀ line, .recv line ∈ actions →
          Bytes.Framed terminator (Bytes.ofString line) :=
        fun line hMember => hFramed line (List.mem_cons_of_mem _ hMember)
      cases action with
      | send line =>
          rw [spoken_send_surrogate, ← List.append_assoc]
            at hQuiet hWhole ⊢
          have hNow := (List.prefix_append _ _).trans hWhole
          apply (hMidway.yields_perform_send index line hSpeaks
            hNow).ifOk_of_ok
          intro s w hNext
          exact ih (index + 1) hQuiet hLater hNext hWhole
      | recv line =>
          rw [spoken_recv_client, List.append_assoc] at hMidway
          have hNow : terminator ≠ [] →
              ∀ coming, quiet said Surrogate.chunkSize coming :=
            fun hSome => hQuiet hSome said (List.prefix_append _ _)
          apply (hMidway.yields_perform_recv index line hHears hNow
            (hFramed line List.mem_cons_self)).ifOk_of_ok
          intro s w hNext
          exact ih (index + 1) hQuiet hLater hNext hWhole

end

------------------------------------------------------------
-- The whole script
------------------------------------------------------------

/- A surrogate that has read all plain lines is as good as new. -/
theorem Midway.eq_new
    {pact : Pact κ}
    {terminator said : Bytes}
    {s : Surrogate κ θ}
    {w : Bytes × Bytes}
    (hMidway :
      Midway (pact.Uncoded .surrogate) terminator said [] s w) :
    s = Surrogate.new terminator ∧
      w.1 = (pact.speech .client).plain ∧ w.2 = said := by
  rcases s with ⟨layer, _, unread, unsent, closed⟩
  rcases hMidway with ⟨rfl, rfl, rfl, coming, hLeft, rfl, hGave, hGot⟩
  rcases List.append_eq_nil_iff.mp hLeft with ⟨rfl, rfl⟩
  rw [List.append_nil] at hGot
  exact ⟨rfl, hGot, hGave⟩

/- A surrogate with nothing unread begins to compress. -/
theorem perform_deflate
    (level index : Nat)
    (terminator : Bytes) :
    (Action.control (Control.deflate level) : Action κ θ).perform
        index (Surrogate.new terminator) =
      .done (.ok (),
        { (Surrogate.new terminator : Surrogate κ θ) with
          layer := Layer.compress .plain level }) :=
  rfl

namespace SwitchScript

variable {terminator : Bytes} {level : Nat}
variable {text text' : Bytes → Bytes} {bound bound' : Nat → Nat}

/- A line that is expected somewhere would not seem to end early. -/
def Framed
    (s : SwitchScript)
    (terminator : Bytes) : Prop :=
  ∀ line, .recv line ∈ s.lines →
    Bytes.Framed terminator (Bytes.ofString line)

/-
  Up to the switch: as long as the surrogate expects plain lines
  the client is not ready, so all that it takes in is plain.
-/
theorem yields_opening
    {s : SwitchScript}
    {limit : Nat}
    (hSurrogate :
      κ.Lawful (min s.level Layer.highestLevel) text bound)
    (hClient :
      κ.Lawful (min level Layer.highestLevel) text' bound')
    (hFramed : s.Framed terminator) :
    Yields
      ((s.pact terminator hSurrogate hClient).terms.honouring
        limit .surrogate)
      (fun (r, u) w =>
        r = .ok () ∧ u = Surrogate.new terminator ∧
          w.1 = spoken terminator s.opening .client ∧
          w.2 = spoken terminator s.opening .surrogate)
      (Script.executeFrom 1 (s.opening.map LineAction.action)
        (Surrogate.new terminator : Surrogate κ θ))
      ([], []) := by
  let pact := s.pact terminator hSurrogate hClient
  have hOpening : spoken terminator s.opening .surrogate =
      spoken terminator s.before .surrogate ++
        (Bytes.ofString s.last ++ terminator) := by
    rw [opening, spoken_append, spoken_send_surrogate, spoken_nil,
      List.append_nil]
  have hBegin :
      Midway (pact.Uncoded (θ := θ) .surrogate) terminator []
        (spoken terminator s.before .client ++ [])
        (Surrogate.new terminator) ([], []) := by
    refine ⟨rfl, rfl, rfl, _, rfl, rfl, rfl, ?_⟩
    exact (spoken_append s.before [.send s.last] .client).symm
  have hBefore := yields_executeFrom 1 s.before
    (pact.hears_uncoded limit .surrogate)
    (pact.speaks_uncoded limit .surrogate)
    (fun hSome said hSaid _ => .inl (not_ready_client hSome hSaid))
    (fun line hMember => hFramed line (by
      simp [lines, opening, hMember]))
    hBegin
    ⟨_, hOpening.symm⟩
  rw [opening, List.map_append, Script.executeFrom_append]
  apply hBefore.ifOk_of_ok
  intro u w hMidway
  have hWhole :
      [] ++ spoken terminator s.before .surrogate ++
          (Bytes.ofString s.last ++ terminator) <+:
        (pact.speech .surrogate).plain :=
    ⟨[], by rw [List.append_nil]; exact hOpening.symm⟩
  apply (hMidway.yields_perform_send _ s.last
    (pact.speaks_uncoded limit .surrogate) hWhole).ifOk_of_ok
  intro u w hOpened
  rcases hOpened.eq_new with ⟨rfl, hGot, hGave⟩
  exact .done ⟨rfl, rfl, hGot, hGave.trans hOpening.symm⟩

/-
  From the switch on: when the surrogate has read its first line
  it is ready, and no call of it fails.
-/
theorem yields_closing
    {s : SwitchScript}
    {limit : Nat}
    {w : Bytes × Bytes}
    (index : Nat)
    (hSurrogate :
      κ.Lawful (min s.level Layer.highestLevel) text bound)
    (hClient :
      κ.Lawful (min level Layer.highestLevel) text' bound')
    (hFramed : s.Framed terminator)
    (hGot : w.1 = spoken terminator s.opening .client)
    (hGave : w.2 = spoken terminator s.opening .surrogate) :
    Yields
      ((s.pact terminator hSurrogate hClient).terms.honouring
        limit .surrogate)
      (fun (r : Except ScriptError Unit × Surrogate κ θ) _ =>
        r.1 = .ok () ∧ r.2.isCompressed = true)
      (Script.executeFrom index (s.closing.map LineAction.action)
        { (Surrogate.new terminator : Surrogate κ θ) with
          layer := Layer.compress .plain s.level })
      w := by
  let pact := s.pact terminator hSurrogate hClient
  have hSwitched :
      Midway (pact.Coded (θ := θ) .surrogate fun _ => True)
        terminator []
        (Bytes.ofString s.next ++ terminator ++
          spoken terminator s.after .client)
        { (Surrogate.new terminator : Surrogate κ θ) with
          layer := Layer.compress .plain s.level } w :=
    ⟨rfl, rfl, rfl, _, rfl,
      pact.coded_new (fun _ => True) trivial rfl hGot hGave⟩
  have hNext := hSwitched.yields_perform_recv index s.next
    (pact.hears_coded limit .surrogate fun _ _ => trivial)
    (fun _ _ => trivial)
    (hFramed s.next (by simp [lines, closing]))
  apply hNext.ifOk_of_ok
  intro u w hMidway
  rcases hMidway with ⟨hSame, hOpen, hUnsent, coming, hLeft, hCoded⟩
  have hReady : s.Ready terminator .surrogate w.1 := by
    by_cases hNone : terminator = []
    · exact .inl hNone
    · right
      apply hCoded.length_lt
      have hSome := List.length_pos_iff.mpr hNone
      have hLength := congrArg List.length hLeft
      show coming.length <
        (spoken terminator s.closing .client).length
      simp only [closing, spoken_recv_client, List.length_append]
        at hLength ⊢
      omega
  have hMidway :
      Midway (pact.Coded .surrogate (s.Ready terminator .surrogate))
        terminator [] (spoken terminator s.after .client ++ []) u
        w := by
    rw [List.append_nil]
    exact ⟨hSame, hOpen, hUnsent, coming, hLeft, hCoded.hold hReady⟩
  have hAfter := yields_executeFrom (index + 1) s.after
    (pact.hears_coded limit .surrogate pact.ready_of_heard)
    (pact.speaks_coded limit .surrogate fun _ hReady => hReady)
    (fun _ _ _ _ => trivial)
    (fun line hMember => hFramed line (by
      simp [lines, closing, hMember]))
    hMidway List.prefix_rfl
  apply hAfter.mono
  rintro ⟨r, u⟩ w ⟨hEnd, -, -, -, _, -, -, d, hLayer, -⟩
  refine ⟨hEnd, ?_⟩
  rw [Surrogate.isCompressed, hLayer, Layer.isCompressed]

/-
  The surrogate carries such a script out to its end, and traffic
  is compressed then.
-/
theorem honours_execute
    {s : SwitchScript}
    (hSurrogate :
      κ.Lawful (min s.level Layer.highestLevel) text bound)
    (hClient :
      κ.Lawful (min level Layer.highestLevel) text' bound')
    (hFramed : s.Framed terminator) :
    Honours (s.pact terminator hSurrogate hClient).terms .surrogate
      (fun (r : Except ScriptError Unit × Surrogate κ θ) _ _ =>
        r.1 = .ok () ∧ r.2.isCompressed = true)
      (s.script.execute (Surrogate.new terminator)) [] [] := by
  intro limit _
  rw [Script.execute, script, Script.executeFrom_append]
  apply (yields_opening hSurrogate hClient hFramed).ifOk
  · rintro e u w ⟨hFailed, -⟩
    cases hFailed
  · rintro ⟨⟩ u w ⟨-, rfl, hGot, hGave⟩
    rw [Script.executeFrom, perform_deflate]
    simp only [Routine.ifOk, done_bind]
    exact yields_closing _ hSurrogate hClient hFramed hGot hGave

end SwitchScript

end Switch

end Parley
