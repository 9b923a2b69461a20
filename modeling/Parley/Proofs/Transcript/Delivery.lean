import Parley.Proofs.Environment
import Parley.Proofs.Dialogue.Surrogate
/-
  This file says what it is for the layers under a surrogate to
  deliver a stream of bytes: in whatever parts they like, with
  failures in between that take nothing, until there is no more.
  Whoever reads is told of each failure, and of no other.

  The surrogate may have taken in more than was read from it.
  What it holds and what its layers are still to deliver are
  one stream, and a call that reads is a step on that stream:
  where it is cut into parts makes no difference.

  Key definitions include:
    * `Transcript.Part`
    * `Transcript.LineOff`
    * `Transcript.Delivers`

  Key theorems include:
    * `Transcript.Delivers.yields_readLine`
    * `Transcript.Delivers.yields_read`
-/

universe v

namespace Parley

/-
  What is found in the first bytes of a stream is what is found
  in the stream.
-/
theorem Bytes.find?_append
    {pat s : Bytes}
    {n : Nat}
    (hFound : find? pat s = some n)
    (more : Bytes) :
    find? pat (s ++ more) = some n := by
  have hWithin := find?_le hFound
  rw [find?_eq_some_iff] at hFound ⊢
  have hDrop : ∀ i ≤ n, (s ++ more).drop i = s.drop i ++ more := by
    intro i hBefore
    exact List.drop_append_of_le_length (by omega)
  constructor
  · rw [hDrop n (Nat.le_refl n)]
    exact hFound.1.trans (List.prefix_append _ _)
  · intro i hBefore hThere
    apply hFound.2 i hBefore
    rw [hDrop i (Nat.le_of_lt hBefore)] at hThere
    apply List.prefix_of_prefix_length_le hThere
      (List.prefix_append _ more)
    rw [List.length_drop]
    omega

namespace Transcript

open Routine

variable {κ : Codec} {θ : Tls.Provider} {W : Type v}
variable {env : Environment endpointInterface W}

------------------------------------------------------------
-- Steps on a stream
------------------------------------------------------------

/-
  A read of `room` bytes takes a first part of the stream, which
  is empty only if there is no room or no more of the stream; or
  it fails and takes nothing.
-/
inductive Part
    (fails : IoError → Prop)
    (room : Nat) :
    Bytes → Except IoError Bytes → Bytes → Prop where
  | given
      {chunk rest : Bytes}
      (hFits : chunk.length ≤ room)
      (hNone : chunk = [] → room = 0 ∨ rest = []) :
      Part fails room (chunk ++ rest) (.ok chunk) rest
  | failed
      {left : Bytes}
      {e : IoError}
      (hFails : fails e) :
      Part fails room left (.error e) left

/-
  Reading a line takes the stream up to the first place where
  what ends a line stands, and that too. If it stands nowhere,
  all of the stream is taken and is the part of a line that is
  reported; or it fails and takes nothing.
-/
inductive LineOff
    (fails : IoError → Prop)
    (terminator : Bytes) :
    Bytes → Except SurrogateError Bytes → Bytes → Prop where
  | line
      {left line rest : Bytes}
      (hCut : Bytes.FirstCut terminator left line rest) :
      LineOff fails terminator left (.ok line) rest
  | ended
      {left : Bytes}
      (hNowhere : ¬ terminator <:+: left) :
      LineOff fails terminator left
        (.error (.unexpectedEof left)) []
  | failed
      {left : Bytes}
      {e : IoError}
      (hFails : fails e) :
      LineOff fails terminator left (.error (.io e)) left

------------------------------------------------------------
-- Layers that deliver
------------------------------------------------------------

/- The failure that a read reports, if it fails. -/
def readFailures : Except IoError Bytes → List IoError
  | .ok _ => []
  | .error e => [e]

/-
  The failure of the layers that reading a line reports. That
  they came to their end is none.
-/
def lineFailures : Except SurrogateError Bytes → List IoError
  | .error (.io e) => [e]
  | _ => []

/-
  Layers of which `holds` says what they are still to deliver,
  and with what they have failed so far: a read of `room` bytes
  is a step on the former, and reports just what it adds to the
  latter. Behind the end it may be made only if `ends`.
-/
def Delivers
    (env : Environment endpointInterface W)
    (holds : Layer κ θ → Bytes → List IoError → W → Prop)
    (fails : IoError → Prop)
    (ends : Prop)
    (room : Nat) : Prop :=
  ∀ layer coming failed w,
    holds layer coming failed w →
    (coming = [] → ends) →
    Yields env
      (fun (r, layer) w => ∃ rest,
        Part fails room coming r rest ∧
          holds layer rest (failed ++ readFailures r) w)
      (layer.read room) w

namespace Delivers

variable {holds : Layer κ θ → Bytes → List IoError → W → Prop}
variable {fails : IoError → Prop} {ends : Prop}
variable {coming : Bytes} {s : Surrogate κ θ} {w : W}

/-
  A line is read off the stream of what the surrogate holds and
  what is still to come, and nothing else changes. It fails just
  if the layers do.
-/
theorem yields_readLine
    (hDelivers :
      Delivers env holds fails ends Surrogate.chunkSize)
    (hTerminator : s.terminator ≠ [])
    (hOpen : s.closed = false)
    (failed : List IoError)
    (hHolds : holds s.layer coming failed w)
    (hEnds : ends ∨ s.terminator <:+: s.unread ++ coming) :
    Yields env
      (fun (r, s') w => ∃ layer unread rest,
        s' = { s with layer := layer, unread := unread } ∧
          LineOff fails s.terminator (s.unread ++ coming) r
            (unread ++ rest) ∧
          holds layer rest (failed ++ lineFailures r) w)
      s.readLine w := by
  rw [Surrogate.readLine, if_neg (ne_true_of_eq_false hOpen)]
  -- Of the stream at hand, more has been taken in before every
  -- round, nothing was found in the part that was searched, and
  -- no read has failed: the first one that does is the last.
  apply yields_loop
    (fun rank (u : Surrogate κ θ × Nat) w => ∃ layer unread rest,
      u.1 = { s with layer := layer, unread := unread } ∧
      Bytes.Searched s.terminator unread u.2 ∧
      rank = rest.length ∧
      s.unread ++ coming = unread ++ rest ∧
      holds layer rest failed w)
    coming.length
  · exact ⟨s.layer, s.unread, coming, rfl,
      Bytes.searched_zero _ _, rfl, rfl, hHolds⟩
  intro rank u w hInv
  rcases u with ⟨u, scanned⟩
  rcases hInv with
    ⟨layer, unread, rest, rfl, hSearched, rfl, hStream, hThere⟩
  rw [hStream]
  simp only [Dialogue.lineRound_of_searched
    (s := { s with layer := layer, unread := unread }) hSearched]
  cases hFound : s.terminator.find? unread with
  | some n =>
      have hWithin := Bytes.find?_le hFound
      have hCut := Bytes.firstCut_of_find?
        (Bytes.find?_append hFound rest)
      rw [List.take_append_of_le_length (by omega),
        List.drop_append_of_le_length hWithin] at hCut
      refine .done (.done ⟨layer, _, rest, rfl, .line hCut, ?_⟩)
      exact (List.append_nil failed).symm ▸ hThere
  | none =>
      have hNowhere := Bytes.find?_eq_none_iff_not_isInfix.mp hFound
      have hMayEnd : rest = [] → ends := by
        rintro rfl
        rw [hStream, List.append_nil] at hEnds
        exact hEnds.resolve_right hNowhere
      apply (hDelivers layer rest failed w hThere hMayEnd).bind
      intro a w hRead
      rcases a with ⟨r, layer⟩
      rcases hRead with ⟨later, hPart, hNext⟩
      cases hPart with
      | failed hFails =>
          exact .done (.done
            ⟨layer, unread, rest, rfl, .failed hFails, hNext⟩)
      | @given chunk _ hFits hNone =>
          cases chunk with
          | nil =>
              have hNoMore : later = [] := by
                rcases hNone rfl with hNoRoom | hNoMore
                · cases hNoRoom
                · exact hNoMore
              rw [hNoMore, List.nil_append, List.append_nil]
              rw [hNoMore] at hNext
              exact .done (.done
                ⟨layer, [], [], rfl, .ended hNowhere, hNext⟩)
          | cons b chunk =>
              rw [readFailures, List.append_nil] at hNext
              refine .done ⟨later.length, ?_, layer,
                unread ++ b :: chunk, later, rfl,
                Bytes.searched_append hTerminator hFound _, rfl, ?_,
                hNext⟩
              · rw [List.length_append, List.length_cons]
                omega
              · rw [List.append_assoc]

/-
  A read takes a first part of the same stream: of what was
  taken in as long as there is some of it.
-/
theorem yields_read
    {room : Nat}
    (hDelivers : Delivers env holds fails ends room)
    (hOpen : s.closed = false)
    (failed : List IoError)
    (hHolds : holds s.layer coming failed w)
    (hEnds : s.unread ++ coming = [] → ends) :
    Yields env
      (fun (r, s') w => ∃ layer unread rest,
        s' = { s with layer := layer, unread := unread } ∧
          Part fails room (s.unread ++ coming) r
            (unread ++ rest) ∧
          holds layer rest (failed ++ readFailures r) w)
      (s.read room) w := by
  rw [Surrogate.read, if_neg (ne_true_of_eq_false hOpen)]
  split
  · next hNone =>
      rw [hNone, List.nil_append] at hEnds
      apply (hDelivers s.layer coming failed w hHolds hEnds).bind
      intro a w hRead
      rcases a with ⟨r, layer⟩
      rcases hRead with ⟨rest, hPart, hNext⟩
      refine .done ⟨layer, s.unread, rest, rfl, ?_, hNext⟩
      rw [hNone]
      exact hPart
  · next hSome =>
      refine .done ⟨s.layer, s.unread.drop room, coming, rfl, ?_,
        (List.append_nil failed).symm ▸ hHolds⟩
      have hWhole : s.unread ++ coming =
          s.unread.take room ++ (s.unread.drop room ++ coming) := by
        rw [← List.append_assoc, List.take_append_drop]
      rw [hWhole]
      refine .given (List.length_take_le _ _) ?_
      intro hTake
      rcases List.take_eq_nil_iff.mp hTake with hZero | hNone
      · exact .inl hZero
      · exact absurd hNone hSome

end Delivers

end Transcript

end Parley
