import Mathlib.Data.List.Infix
import Parley.Deflate.Codec
import Parley.Tls.Stream
import Parley.Proofs.Transcript.Link
/-
  This file says what a script makes of a stream of bytes, as a
  walk along the stream that knows nothing of buffers and of
  parts in which the stream comes in: how the script ends, and
  what it has sent by then. Carrying out the script over layers
  that deliver the stream ends like that, and has flushed just
  that, one batch for each action that sends. So it is behind
  each of its actions, before the next one starts.

  Key definitions include:
    * `Action.MovesBytes`
    * `Action.pass`
    * `Action.batches`
    * `Transcript.walk`
    * `Transcript.Walked`

  Key theorems include:
    * `Transcript.walk_eq_ok_iff`
    * `Transcript.walk_sends_of_ok`
    * `Transcript.Serves.yields_perform`
    * `Transcript.Serves.yields_execute`
-/

universe v

namespace Parley

variable {κ : Codec} {θ : Tls.Provider}

------------------------------------------------------------
-- What an action makes of a stream
------------------------------------------------------------

namespace Action

/- An action that sends or awaits bytes. -/
def MovesBytes : Action κ θ → Prop
  | .control _ => False
  | _ => True

/-
  What an action at `index` leaves of a stream, or how the
  stream deviates from it. A line ends before the first place
  where the terminator stands.
-/
def pass
    (terminator : Bytes)
    (index : Nat)
    (s : Bytes) : Action κ θ → Except ScriptError Bytes
  | .recvLine line =>
    match terminator.find? s with
    | none => .error (.read index line (.unexpectedEof s))
    | some n =>
      if s.take n = Bytes.ofString line then
        .ok (s.drop (n + terminator.length))
      else
        .error (.mismatch index line (Text.ofBytes (s.take n)))
  | .recvRaw bytes =>
    if s.length < bytes.length then
      .error (.read index (Text.ofBytes bytes) (.io .shortInput))
    else if s.take bytes.length = bytes then
      .ok (s.drop bytes.length)
    else
      .error (.mismatch index (Text.ofBytes bytes)
        (Text.ofBytes (s.take bytes.length)))
  | _ => .ok s

/- What an action sends, as a batch of its own. -/
def batches
    (terminator : Bytes) : Action κ θ → List Bytes
  | .sendLine line => [Bytes.ofString line ++ terminator]
  | .sendRaw bytes => [bytes]
  | _ => []

/- What an action awaits. -/
def awaited
    (terminator : Bytes) : Action κ θ → Bytes
  | .recvLine line => Bytes.ofString line ++ terminator
  | .recvRaw bytes => bytes
  | _ => []

end Action

namespace Transcript

open Routine

variable {W : Type v}
variable {env : Environment endpointInterface W}

------------------------------------------------------------
-- The walk
------------------------------------------------------------

/-
  How actions from number `index` on end over a stream, and the
  batches that those before the first deviation send.
-/
def walk
    (terminator : Bytes) :
    Nat → List (Action κ θ) → Bytes →
    Except ScriptError Unit × List Bytes
  | _, [], _ => (.ok (), [])
  | index, a :: rest, s =>
    match a.pass terminator index s with
    | .error e => (.error e, [])
    | .ok left =>
      let (r, sent) := walk terminator (index + 1) rest left
      (r, a.batches terminator ++ sent)

section

variable {terminator line s : Bytes}

/-
  A search finds the end of a given line exactly if the line
  stands there, with its end, and would not seem to end before.
-/
theorem find?_take_iff
    (line s : Bytes)
    (hTerminator : terminator ≠ []) :
    (∃ n, terminator.find? s = some n ∧ s.take n = line) ↔
      Bytes.Framed terminator line ∧ line ++ terminator <+: s := by
  constructor
  · rintro ⟨n, hFound, rfl⟩
    have hWithin := Bytes.find?_le hFound
    rw [Bytes.find?_eq_some_iff] at hFound
    have hWhole : s.take n ++ terminator <+: s := by
      have hSplit : s.take n ++ s.drop n = s :=
        List.take_append_drop n s
      conv => rhs; rw [← hSplit]
      exact (List.prefix_append_right_inj _).mpr hFound.1
    refine ⟨fun i hBefore hThere => ?_, hWhole⟩
    rw [List.length_take] at hBefore
    apply hFound.2 i (by omega)
    exact hThere.trans (List.IsPrefix.drop hWhole i)
  · rintro ⟨hFramed, rest, rfl⟩
    refine ⟨line.length, ?_, ?_⟩
    · rw [Bytes.find?_of_framed hFramed hTerminator
        (List.prefix_refl _)]
      exact if_pos (by simp)
    · rw [List.append_assoc, List.take_left]

/-
  An action passes exactly the streams that begin with what it
  awaits.
-/
theorem pass_eq_ok_iff
    (hTerminator : terminator ≠ [])
    {a : Action κ θ}
    (hMoves : a.MovesBytes)
    (index : Nat)
    (left : Bytes) :
    a.pass terminator index s = .ok left ↔
      a.Talks terminator ∧ s = a.awaited terminator ++ left := by
  cases a with
  | control c => exact hMoves.elim
  | sendLine line =>
      simp [Action.pass, Action.Talks, Action.awaited]
  | sendRaw bytes =>
      simp [Action.pass, Action.Talks, Action.awaited]
  | recvRaw bytes =>
      simp only [Action.pass, Action.Talks, Action.awaited,
        true_and]
      constructor
      · intro hPass
        split at hPass
        · cases hPass
        · split at hPass
          · next hSame =>
              cases hPass
              conv => rhs; lhs; rw [← hSame]
              exact (List.take_append_drop _ s).symm
          · cases hPass
      · rintro rfl
        rw [if_neg (by simp), List.take_left, if_pos rfl,
          List.drop_left]
  | recvLine line =>
      have hFind :=
        find?_take_iff (Bytes.ofString line) s hTerminator
      simp only [Action.pass, Action.Talks, Action.awaited]
      constructor
      · intro hPass
        cases hFound : terminator.find? s with
        | none =>
            rw [hFound] at hPass
            cases hPass
        | some n =>
            simp only [hFound] at hPass
            split at hPass
            · next hSame =>
                cases hPass
                rcases hFind.mp ⟨n, hFound, hSame⟩ with
                  ⟨hFramed, rest, rfl⟩
                have hLength : n = (Bytes.ofString line).length := by
                  have hWithin := Bytes.find?_le hFound
                  rw [← hSame, List.length_take]
                  omega
                refine ⟨hFramed, ?_⟩
                rw [hLength, ← List.length_append, List.drop_left]
            · cases hPass
      · rintro ⟨hFramed, rfl⟩
        rcases hFind.mpr ⟨hFramed, List.prefix_append _ _⟩ with
          ⟨n, hFound, hSame⟩
        have hLength : n = (Bytes.ofString line).length := by
          have hWithin := Bytes.find?_le hFound
          rw [← hSame, List.length_take]
          omega
        simp only [hFound, if_pos hSame]
        rw [hLength, ← List.length_append, List.drop_left]

/-
  A script comes to its end exactly over the streams that begin
  with what it awaits, in order, where no line that it awaits
  would seem to end before it does.
-/
theorem walk_eq_ok_iff
    (hTerminator : terminator ≠ [])
    {actions : List (Action κ θ)}
    (hMoves : ∀ a ∈ actions, a.MovesBytes)
    {index : Nat} :
    (walk terminator index actions s).1 = .ok () ↔
      (∀ a ∈ actions, a.Talks terminator) ∧
        actions.flatMap (Action.awaited terminator) <+: s := by
  induction actions generalizing index s with
  | nil => simp [walk]
  | cons a actions ih =>
      have hThis := hMoves a List.mem_cons_self
      have hRest := fun b hMember =>
        hMoves b (List.mem_cons_of_mem a hMember)
      have hPass := pass_eq_ok_iff (s := s) hTerminator hThis index
      rw [List.flatMap_cons, List.forall_mem_cons, walk]
      cases hHere : a.pass terminator index s with
      | error e =>
          constructor
          · intro hEnd
            cases hEnd
          · rintro ⟨⟨hTalks, -⟩, hPrefix⟩
            rcases (List.prefix_append _ _).trans hPrefix with
              ⟨left, hLeft⟩
            rw [(hPass left).mpr ⟨hTalks, hLeft.symm⟩] at hHere
            cases hHere
      | ok left =>
          rcases (hPass left).mp hHere with ⟨hTalks, rfl⟩
          simp only [ih hRest, List.prefix_append_right_inj]
          constructor
          · rintro ⟨hOthers, hPrefix⟩
            exact ⟨⟨hTalks, hOthers⟩, hPrefix⟩
          · rintro ⟨⟨-, hOthers⟩, hPrefix⟩
            exact ⟨hOthers, hPrefix⟩

/- A script that comes to its end has sent all that it sends. -/
theorem walk_sends_of_ok
    {actions : List (Action κ θ)}
    {index : Nat}
    (hEnd : (walk terminator index actions s).1 = .ok ()) :
    (walk terminator index actions s).2 =
      actions.flatMap (Action.batches terminator) := by
  induction actions generalizing index s with
  | nil => rfl
  | cons a actions ih =>
      rw [walk] at hEnd ⊢
      cases hHere : a.pass terminator index s with
      | error e =>
          rw [hHere] at hEnd
          cases hEnd
      | ok left =>
          simp only [hHere] at hEnd ⊢
          rw [ih hEnd, List.flatMap_cons]

end

------------------------------------------------------------
-- Carrying a script out
------------------------------------------------------------

/-
  Actions from number `index` on were carried out on a surrogate
  from which `left` was to be read, and have ended as the walk
  does. Its batches are flushed, and nothing else was written:
  the surrogate holds nothing back. If they came to their end,
  just what they await was read.
-/
def Walked
    (holds : Layer κ θ → Passage → W → Prop)
    (terminator : Bytes)
    (index : Nat)
    (actions : List (Action κ θ))
    (left : Bytes)
    (flushed : List Bytes)
    (r : Except ScriptError Unit)
    (s : Surrogate κ θ)
    (w : W) : Prop :=
  r = (walk terminator index actions left).1 ∧
    ∃ rest,
      (r = .ok () →
        left = actions.flatMap (Action.awaited terminator) ++ rest) ∧
      Standing holds terminator rest []
        (flushed ++ (walk terminator index actions left).2) s w

section

variable {holds : Layer κ θ → Passage → W → Prop}
variable {terminator left next : Bytes} {flushed : List Bytes}
variable {a : Action κ θ} {actions : List (Action κ θ)} {index : Nat}
variable {r : Except ScriptError Unit} {s : Surrogate κ θ} {w : W}

/- Without an action nothing was carried out. -/
theorem walked_nil
    (index : Nat)
    (hStanding : Standing holds terminator left [] flushed s w) :
    Walked holds terminator index [] left flushed (.ok ()) s w := by
  refine ⟨rfl, left, fun _ => rfl, ?_⟩
  rw [walk, List.append_nil]
  exact hStanding

/- After an action that fails nothing more is carried out. -/
theorem walked_of_error
    {e : ScriptError}
    (hPass : a.pass terminator index left = .error e)
    (hStanding : Standing holds terminator next [] flushed s w) :
    Walked holds terminator index (a :: actions) left flushed
      (.error e) s w := by
  rw [Walked, walk, hPass]
  refine ⟨rfl, next, nofun, ?_⟩
  rw [List.append_nil]
  exact hStanding

/- After one that succeeds the others are carried out. -/
theorem Walked.cons
    (hTerminator : terminator ≠ [])
    (hMoves : a.MovesBytes)
    (hPass : a.pass terminator index left = .ok next)
    (hWalked :
      Walked holds terminator (index + 1) actions next
        (flushed ++ a.batches terminator) r s w) :
    Walked holds terminator index (a :: actions) left flushed
      r s w := by
  rcases hWalked with ⟨hResult, rest, hTaken, hStanding⟩
  rw [Walked, walk, hPass]
  rw [List.append_assoc] at hStanding
  refine ⟨hResult, rest, fun hOk => ?_, hStanding⟩
  rcases (pass_eq_ok_iff hTerminator hMoves index next).mp hPass with
    ⟨-, hLeft⟩
  rw [hLeft, hTaken hOk, List.flatMap_cons, List.append_assoc]

end

namespace Serves

variable {holds : Layer κ θ → Passage → W → Prop}
variable {terminator left : Bytes} {flushed : List Bytes}
variable {s : Surrogate κ θ} {w : W}

/- An action does with the stream what it does on the walk. -/
theorem yields_perform
    (hServes : Serves env holds)
    (hTerminator : terminator ≠ [])
    (a : Action κ θ)
    (hMoves : a.MovesBytes)
    (index : Nat)
    (hStanding : Standing holds terminator left [] flushed s w) :
    Yields env
      (fun (r, s) w =>
        match a.pass terminator index left with
        | .error e =>
          r = .error e ∧
            ∃ left, Standing holds terminator left [] flushed s w
        | .ok left =>
          r = .ok () ∧
            Standing holds terminator left []
              (flushed ++ a.batches terminator) s w)
      (a.perform index s) w := by
  cases a with
  | control c => exact hMoves.elim
  | sendLine line =>
      apply (hServes.yields_sendLine (Bytes.ofString line)
        hStanding).bind
      rintro ⟨r, s⟩ w ⟨rfl, hSent⟩
      exact .done ⟨rfl, hSent⟩
  | sendRaw bytes =>
      apply (hServes.yields_sendRaw bytes hStanding).bind
      rintro ⟨r, s⟩ w ⟨rfl, hSent⟩
      exact .done ⟨rfl, hSent⟩
  | recvLine line =>
      apply (hServes.yields_readLine hTerminator hStanding).bind
      rintro ⟨r, s⟩ w hRead
      simp only [Action.pass, Action.batches, List.append_nil]
      cases hFound : terminator.find? left with
      | none =>
          rw [hFound] at hRead
          rcases hRead with ⟨rfl, hEnd⟩
          exact .done ⟨rfl, _, hEnd⟩
      | some n =>
          rw [hFound] at hRead
          rcases hRead with ⟨rfl, hNext⟩
          simp only
          by_cases hSame : left.take n = Bytes.ofString line
          · simp only [if_pos hSame]
            exact .done ⟨rfl, hNext⟩
          · simp only [if_neg hSame]
            exact .done ⟨rfl, _, hNext⟩
  | recvRaw bytes =>
      apply (hServes.yields_readExact bytes.length hStanding).bind
      rintro ⟨r, s⟩ w hRead
      simp only [Action.pass, Action.batches, List.append_nil]
      by_cases hShort : left.length < bytes.length
      · simp only [if_pos hShort] at hRead ⊢
        rcases hRead with ⟨rfl, hEnd⟩
        exact .done ⟨rfl, _, hEnd⟩
      · simp only [if_neg hShort] at hRead ⊢
        rcases hRead with ⟨rfl, hNext⟩
        by_cases hSame : left.take bytes.length = bytes
        · simp only [if_pos hSame]
          exact .done ⟨rfl, hNext⟩
        · simp only [if_neg hSame]
          exact .done ⟨rfl, _, hNext⟩

/- Actions in a row do what they do on the walk. -/
theorem yields_executeFrom
    (hServes : Serves env holds)
    (hTerminator : terminator ≠ [])
    (actions : List (Action κ θ))
    (hMoves : ∀ a ∈ actions, a.MovesBytes)
    (index : Nat)
    (hStanding : Standing holds terminator left [] flushed s w) :
    Yields env
      (fun (r, s) w =>
        Walked holds terminator index actions left flushed r s w)
      (Script.executeFrom index actions s) w := by
  induction actions generalizing index left flushed s w with
  | nil => exact .done (walked_nil index hStanding)
  | cons a actions ih =>
      have hMovesBytes := hMoves a List.mem_cons_self
      have hHere := hServes.yields_perform hTerminator a hMovesBytes
        index hStanding
      cases hPass : a.pass terminator index left with
      | error e =>
          simp only [hPass] at hHere
          apply hHere.ifOk
          · rintro e' s w ⟨hFailed, rest, hRest⟩
            cases hFailed
            exact walked_of_error hPass hRest
          · rintro ⟨⟩ s w ⟨hDone, -⟩
            cases hDone
      | ok next =>
          simp only [hPass] at hHere
          apply hHere.ifOk
          · rintro e s w ⟨hFailed, -⟩
            cases hFailed
          · rintro ⟨⟩ s w ⟨-, hNext⟩
            apply (ih (fun b hMember =>
              hMoves b (List.mem_cons_of_mem a hMember))
              (index + 1) hNext).mono
            rintro ⟨r, s⟩ w hWalked
            exact hWalked.cons hTerminator hMovesBytes hPass

/-
  Over layers that deliver a stream in any non-empty parts and
  then end, and that take all that is written, every script that
  only sends and awaits bytes comes to an end, as the walk along
  that stream does. By then just the batches of the walk were
  flushed, and nothing else was written.

  Wherever a script is cut in two, it first carries out the one
  part and then, if that succeeds, starts on the other. At that
  point all that the first part sends is flushed, one batch for
  each action that sends, before anything of the second is done.
-/
theorem yields_execute
    (hServes : Serves env holds)
    {script : Script κ θ}
    {coming : Bytes}
    (hTerminator : s.terminator ≠ [])
    (hMoves : ∀ a ∈ script.actions, a.MovesBytes)
    (hOpen : s.closed = false)
    (hUnsent : s.unsent = [])
    (hHolds : holds s.layer ⟨coming, flushed, []⟩ w) :
    Yields env
        (fun (r, s') w =>
          Walked holds s.terminator 1 script.actions
            (s.unread ++ coming) flushed r s' w)
        (script.execute s) w ∧
      ∀ first second,
        script.actions = first ++ second →
          script.execute s =
              (Script.executeFrom 1 first s).ifOk (fun () s =>
                Script.executeFrom (1 + first.length) second s) ∧
            Yields env
              (fun (r, s') w =>
                Walked holds s.terminator 1 first
                    (s.unread ++ coming) flushed r s' w ∧
                  (r = .ok () → ∃ rest,
                    Standing holds s.terminator rest []
                      (flushed ++
                        first.flatMap
                          (Action.batches s.terminator))
                      s' w))
              (Script.executeFrom 1 first s) w := by
  have hStanding :
      Standing holds s.terminator (s.unread ++ coming) [] flushed
        s w :=
    ⟨hOpen, rfl, hUnsent, coming, rfl, hHolds⟩
  refine ⟨hServes.yields_executeFrom hTerminator script.actions
    hMoves 1 hStanding, fun first second hParts => ⟨?_, ?_⟩⟩
  · rw [Script.execute, hParts, Script.executeFrom_append]
  · apply (hServes.yields_executeFrom hTerminator first
      (fun a hMember => hMoves a (by
        rw [hParts]
        exact List.mem_append_left second hMember))
      1 hStanding).mono
    rintro ⟨r, s'⟩ w hWalked
    refine ⟨hWalked, fun hOk => ?_⟩
    rcases hWalked with ⟨hSame, rest, -, hRest⟩
    rw [walk_sends_of_ok (hSame.symm.trans hOk)] at hRest
    exact ⟨rest, hRest⟩

end Serves

/-
  A greeting, an answer that is right and one that is not: what
  was to be sent after it is not sent.
-/
def answeringScript : Script rawDeflate Tls.transparent where
  actions :=
    [.sendLine "hi", .recvLine "yo", .recvRaw [120, 121],
      .sendRaw [1]]

/-
  The greeting is out when the answer is first awaited, of which
  nothing was read by then. In the end it is all that was sent.
-/
theorem yields_execute_of_answering :
    ∃ greeted between s w,
      Ends Wire.serving
          (Script.executeFrom 1 (answeringScript.actions.take 1)
            (Surrogate.new [10]))
          ⟨[121, 111, 10, 97, 98, 99], []⟩ (.ok (), greeted)
          between ∧
        greeted.unsent = [] ∧
        between.sent = [104, 105, 10] ∧
        greeted.unread ++ between.coming =
          [121, 111, 10, 97, 98, 99] ∧
        Ends Wire.serving
          (Script.executeFrom 2 (answeringScript.actions.drop 1)
            greeted)
          between
          (.error (.mismatch 3 (Text.ofBytes [120, 121])
            (Text.ofBytes [97, 98])), s) w ∧
        Ends Wire.serving
          (answeringScript.execute (Surrogate.new [10]))
          ⟨[121, 111, 10, 97, 98, 99], []⟩
          (.error (.mismatch 3 (Text.ofBytes [120, 121])
            (Text.ofBytes [97, 98])), s) w ∧
        s.unsent = [] ∧
        w.sent = [104, 105, 10] := by
  have hMoves : ∀ a ∈ answeringScript.actions, a.MovesBytes := by
    simp only [answeringScript, List.mem_cons, List.not_mem_nil,
      or_false]
    rintro a (rfl | rfl | rfl | rfl) <;> trivial
  have hHolds :
      Wire.Holds (Layer.raw .plain : Layer rawDeflate Tls.transparent)
        ⟨[121, 111, 10, 97, 98, 99], [], []⟩
        ⟨[121, 111, 10, 97, 98, 99], []⟩ :=
    ⟨rfl, rfl, rfl⟩
  rcases serves_plain.yields_execute (s := Surrogate.new [10])
    (List.cons_ne_nil _ _) hMoves rfl rfl hHolds with
    ⟨hWhole, hParts⟩
  rcases hParts (answeringScript.actions.take 1)
    (answeringScript.actions.drop 1) rfl with ⟨hCut, hFirst⟩
  rcases hWhole.exists_ends Wire.exists_answers with
    ⟨⟨r, s⟩, w, hEnds⟩
  rcases hWhole.of_ends hEnds with ⟨rfl, _, -, hEnd⟩
  rcases hEnd.stream with ⟨_, -, -, -, hSent⟩
  have hBoth := hEnds
  rw [hCut] at hBoth
  rcases ends_bind_iff.mp hBoth with
    ⟨⟨greeting, greeted⟩, between, hGreets, hRest⟩
  rcases hFirst.of_ends hGreets with ⟨⟨rfl, _, hRead, hGreeted⟩, -⟩
  rcases hGreeted.stream with ⟨_, hLeft, -, hComing, hGreeting⟩
  refine ⟨greeted, between, s, w, hGreets, hGreeted.unsent_eq,
    hGreeting, ?_, hRest, hEnds, hEnd.unsent_eq, hSent⟩
  rw [hComing, ← hLeft]
  exact (hRead rfl).symm

end Transcript

end Parley
