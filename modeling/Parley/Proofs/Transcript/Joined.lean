import Parley.Proofs.Transcript.Reading
/-
  This file says which lines are read off a stream that lines
  were written to. As many as were written can always be read,
  but they need not be the same: what ends a line may seem to
  end it earlier, and the rest of it then begins the next line.

  Key definitions include:
    * `Transcript.joined`
    * `Transcript.Supplies`
    * `Transcript.readLines`

  Key theorems include:
    * `Transcript.lines_joined_iff`
    * `Transcript.Supplies.of_firstCut`
    * `Transcript.Delivers.yields_readLines`
-/

universe v

namespace Parley

namespace Transcript

open Routine

variable {κ : Codec} {θ : Tls.Provider}
variable {terminator left line rest : Bytes}

------------------------------------------------------------
-- Streams of lines
------------------------------------------------------------

/- Lines one after the other, each with what ends it. -/
def joined
    (terminator : Bytes)
    (ls : List Bytes) : Bytes :=
  ls.flatMap (· ++ terminator)

@[simp] theorem joined_nil :
    joined terminator [] = [] :=
  rfl

@[simp] theorem joined_cons
    (line : Bytes)
    (ls : List Bytes) :
    joined terminator (line :: ls) =
      line ++ terminator ++ joined terminator ls :=
  rfl

/- Lines written in two parts are written one after the other. -/
theorem joined_append
    (first second : List Bytes) :
    joined terminator (first ++ second) =
      joined terminator first ++ joined terminator second :=
  List.flatMap_append

/- So are lines that are written in batches. -/
theorem flatten_map_joined
    (batches : List (List Bytes)) :
    (batches.map (joined terminator)).flatten =
      joined terminator batches.flatten := by
  induction batches with
  | nil => rfl
  | cons batch batches ih =>
      rw [List.map_cons, List.flatten_cons, List.flatten_cons,
        joined_append, ih]

/-
  The lines that are read off a stream of lines are those lines
  exactly if each is framed.
-/
theorem lines_joined_iff
    (hTerminator : terminator ≠ [])
    (ls : List Bytes) :
    lines terminator ls.length (joined terminator ls) =
        ls.map .ok ↔
      ∀ line ∈ ls, Bytes.Framed terminator line := by
  induction ls with
  | nil => simp [lines]
  | cons line ls ih =>
      have hFramed :
          terminator.find?
              (line ++ terminator ++ joined terminator ls) =
                some line.length ↔
            Bytes.Framed terminator line :=
        Bytes.find?_eq_length_iff_framed hTerminator
      rw [List.forall_mem_cons, ← ih, ← hFramed]
      simp only [List.length_cons, lines, joined_cons,
        List.map_cons]
      constructor
      · intro hLines
        cases hFound :
          terminator.find?
            (line ++ terminator ++ joined terminator ls) with
        | none =>
            rw [hFound] at hLines
            cases (List.cons.inj hLines).1
        | some k =>
            rw [hFound] at hLines
            rcases List.cons.inj hLines with ⟨hFirst, hOthers⟩
            have hCut := Bytes.firstCut_of_find? hFound
            have hWithin := Bytes.find?_le hFound
            have hLength := congrArg List.length
              (Except.ok.inj hFirst)
            rw [List.length_take, Nat.min_eq_left (by omega)]
              at hLength
            rw [hLength, ← List.length_append, List.drop_left]
              at hOthers
            exact ⟨congrArg some hLength, hOthers⟩
      · rintro ⟨hFound, hOthers⟩
        rw [hFound]
        simp only
        rw [← List.length_append, List.drop_left, hOthers,
          List.append_assoc, List.take_left]

------------------------------------------------------------
-- Streams with enough lines
------------------------------------------------------------

/- A stream that begins with so many lines, of whatever kind. -/
def Supplies
    (terminator : Bytes)
    (n : Nat)
    (left : Bytes) : Prop :=
  ∃ ls tail,
    ls.length = n ∧ left = joined terminator ls ++ tail

/- A stream of lines has as many lines. -/
theorem supplies_joined
    (ls : List Bytes) :
    Supplies terminator ls.length (joined terminator ls) :=
  ⟨ls, [], rfl, (List.append_nil _).symm⟩

/- As long as there are lines there is an end of a line. -/
theorem Supplies.isInfix
    {n : Nat}
    (hSupplies : Supplies terminator (n + 1) left) :
    terminator <:+: left := by
  rcases hSupplies with ⟨ls, tail, hCount, rfl⟩
  cases ls with
  | nil => cases hCount
  | cons line ls =>
      refine ⟨line, joined terminator ls ++ tail, ?_⟩
      rw [joined_cons]
      simp only [List.append_assoc]

/-
  Taking a line takes no more than one of them. The first cut
  is within the first line; what is left of that line becomes a
  part of the next.
-/
theorem Supplies.of_firstCut
    {n : Nat}
    (hSupplies : Supplies terminator (n + 1) left)
    (hCut : Bytes.FirstCut terminator left line rest) :
    Supplies terminator n rest := by
  rcases hSupplies with ⟨ls, tail, hCount, rfl⟩
  cases ls with
  | nil => cases hCount
  | cons first ls =>
      have hWhole :
          joined terminator (first :: ls) ++ tail =
            first ++ terminator ++ (joined terminator ls ++ tail) :=
        List.append_assoc _ _ _
      have hShorter := hCut.shortest _ _ hWhole
      have hBoth := hWhole.symm.trans hCut.whole
      have hWithin : line ++ terminator <+: first ++ terminator := by
        apply List.prefix_of_prefix_length_le
          (List.prefix_append _ rest)
        · rw [← hBoth]
          exact List.prefix_append _ _
        · rw [List.length_append, List.length_append]
          omega
      rcases hWithin with ⟨beyond, hBeyond⟩
      rw [← hBeyond, List.append_assoc, List.append_cancel_left_eq]
        at hBoth
      cases ls with
      | nil =>
          have hNone : n = 0 := by simpa using hCount.symm
          exact ⟨[], rest, hNone.symm, rfl⟩
      | cons second ls =>
          refine ⟨(beyond ++ second) :: ls, tail, by simpa using hCount,
            ?_⟩
          rw [← hBoth]
          simp only [joined_cons, List.append_assoc]

------------------------------------------------------------
-- Reading lines
------------------------------------------------------------

/- Read so many lines. -/
def readLines
    (s : Surrogate κ θ)
    (n : Nat) :
    Routine endpointInterface
      (List (Except SurrogateError Bytes) × Surrogate κ θ) :=
  forEach (fun s () => s.readLine) s (List.replicate n ())

/-
  Layers that deliver enough lines and never fail are not read
  beyond their end. The lines that are read are those of the
  stream, and no more of it is taken than they make up.
-/
theorem Delivers.yields_readLines
    {W : Type v}
    {env : Environment endpointInterface W}
    {holds : Layer κ θ → Bytes → W → Prop}
    {ends : Prop}
    {coming : Bytes}
    {s : Surrogate κ θ}
    {w : W}
    {n : Nat}
    (hDelivers :
      Delivers env (fun layer coming _ w => holds layer coming w)
        (fun _ => False) ends Surrogate.chunkSize)
    (hTerminator : s.terminator ≠ [])
    (hOpen : s.closed = false)
    (hHolds : holds s.layer coming w)
    (hSupplies : Supplies s.terminator n (s.unread ++ coming)) :
    Yields env
      (fun (results, s') w => ∃ read layer unread rest,
        results = lines s.terminator n (s.unread ++ coming) ∧
          results = read.map .ok ∧
          s.unread ++ coming =
            joined s.terminator read ++ (unread ++ rest) ∧
          s' = { s with layer := layer, unread := unread } ∧
          holds layer rest w)
      (readLines s n) w := by
  induction n generalizing s coming w with
  | zero =>
      exact .done
        ⟨[], s.layer, s.unread, coming, rfl, rfl, rfl, rfl, hHolds⟩
  | succ n ih =>
      have hInfix := hSupplies.isInfix
      apply (hDelivers.yields_readLine hTerminator hOpen []
        hHolds (.inr hInfix)).bind
      rintro ⟨r, s₁⟩ w ⟨layer, unread, rest, rfl, hLine, hNext⟩
      generalize hLeft : s.unread ++ coming = left at *
      generalize hAfter : unread ++ rest = after at *
      cases hLine with
      | ended hNowhere => exact absurd hInfix hNowhere
      | failed hFails => exact hFails.elim
      | @line line _ hCut =>
          subst hAfter
          apply (ih (s := { s with layer := layer, unread := unread })
            hTerminator hOpen hNext
            (hSupplies.of_firstCut hCut)).bind
          rintro ⟨results, s₂⟩ w
            ⟨read, layer, unread', rest', rfl, hRead, hTaken, rfl, hEnd⟩
          refine .done ⟨line :: read, layer, unread', rest', ?_, ?_, ?_,
            rfl, hEnd⟩
          · rw [lines, hCut.find?_eq, hCut.whole]
            simp only
            rw [← List.length_append, List.drop_left,
              List.append_assoc, List.take_left]
          · rw [hRead, List.map_cons]
          · rw [joined_cons, List.append_assoc]
            exact hCut.whole.trans (congrArg _ hTaken)

end Transcript

end Parley
