import Parley.Bytes
/-
  This file says what a search finds, and that it can be gone on
  with when more bytes have come in: of the bytes that were
  searched in vain only the last few need to be searched again.

  It also says when a line can be told from what follows it:
  what ends the line must not begin before the line is over.
  Of any part of the traffic that has come in by then, a search
  finds the end of the line, or nothing as long as that end is
  not in yet.

  Key definitions include:
    * `Bytes.FirstCut`
    * `Bytes.Searched`
    * `Bytes.Framed`
    * `Bytes.BorderFree`

  Key theorems include:
    * `Bytes.find?_eq_some_iff`
    * `Bytes.find?_eq_none_iff`
    * `Bytes.firstCut_of_find?`
    * `Bytes.Searched.find?_eq`
    * `Bytes.searched_append`
    * `Bytes.find?_eq_none_of_length_lt`
    * `Bytes.find?_of_framed`
    * `Bytes.find?_eq_length_iff_framed`
    * `Bytes.framed_iff_of_borderFree`
-/

namespace Parley

namespace Bytes

variable {pat line rest s : Bytes}

------------------------------------------------------------
-- What a search finds
------------------------------------------------------------

/- The first place is found at which the pattern stands. -/
theorem find?_eq_some_iff
    {n : Nat} :
    find? pat s = some n ↔
      pat <+: s.drop n ∧ ∀ i < n, ¬ pat <+: s.drop i := by
  induction s generalizing n with
  | nil =>
      simp only [find?, List.isEmpty_iff, List.drop_nil,
        List.prefix_nil]
      by_cases hPat : pat = []
      · simp only [hPat, if_true, Option.some.injEq, true_and,
          not_true_eq_false, imp_false, Nat.not_lt]
        exact ⟨fun h i => h ▸ Nat.zero_le i,
          fun h => (Nat.le_zero.mp (h 0)).symm⟩
      · simp [hPat]
  | cons b s ih =>
      rw [find?]
      by_cases hHere : pat <+: b :: s
      · rw [if_pos (List.isPrefixOf_iff_prefix.mpr hHere),
          Option.some.injEq]
        constructor
        · rintro rfl
          exact ⟨hHere, fun i hLess =>
            absurd hLess (Nat.not_lt_zero i)⟩
        · rintro ⟨-, hFirst⟩
          rcases Nat.eq_zero_or_pos n with hZero | hLater
          · exact hZero.symm
          · exact absurd hHere (hFirst 0 hLater)
      · rw [if_neg (mt List.isPrefixOf_iff_prefix.mp hHere)]
        cases n with
        | zero => simp [hHere]
        | succ n =>
            simp only [Option.map_eq_some_iff,
              Nat.add_right_cancel_iff, exists_eq_right, ih,
              List.drop_succ_cons]
            refine and_congr_right fun _ => ?_
            constructor
            · rintro hFirst (_ | i) hLess
              · exact hHere
              · exact hFirst i (Nat.lt_of_succ_lt_succ hLess)
            · intro hFirst i hLess
              exact hFirst (i + 1) (Nat.succ_lt_succ hLess)

/- Nothing is found if the pattern stands nowhere. -/
theorem find?_eq_none_iff :
    find? pat s = none ↔ ∀ i, ¬ pat <+: s.drop i := by
  constructor
  · intro hNone i hThere
    induction i using Nat.strongRecOn with
    | ind i ih =>
        have hFound : find? pat s = some i :=
          find?_eq_some_iff.mpr ⟨hThere, ih⟩
        rw [hNone] at hFound
        cases hFound
  · intro hNowhere
    cases hFound : find? pat s with
    | none => rfl
    | some n =>
        exact absurd (find?_eq_some_iff.mp hFound).1 (hNowhere n)

/- Nothing is found exactly if the pattern is no part. -/
theorem find?_eq_none_iff_not_isInfix :
    find? pat s = none ↔ ¬ pat <:+: s := by
  rw [find?_eq_none_iff]
  constructor
  · rintro hNowhere ⟨l, r, rfl⟩
    apply hNowhere l.length
    rw [List.append_assoc, List.drop_left]
    exact List.prefix_append pat r
  · intro hNot i hThere
    exact hNot (hThere.isInfix.trans (List.drop_suffix i s).isInfix)

/-
  The bytes are cut at the first place where the pattern stands:
  of all lines that it can end, this one is the shortest.
-/
structure FirstCut
    (pat s line rest : Bytes) : Prop where
  whole : s = line ++ pat ++ rest
  shortest :
    ∀ l r, s = l ++ pat ++ r → line.length ≤ l.length

/- The place of the first cut is what is found. -/
theorem FirstCut.find?_eq
    (hCut : FirstCut pat s line rest) :
    find? pat s = some line.length := by
  rw [find?_eq_some_iff]
  constructor
  · rw [hCut.whole, List.append_assoc, List.drop_left]
    exact List.prefix_append pat rest
  · intro i hLess hThere
    rcases hThere with ⟨r, hThere⟩
    have hShortest := hCut.shortest (s.take i) r (by
      rw [List.append_assoc, hThere, List.take_append_drop])
    have hTake := List.length_take_le i s
    omega

/- At the place that is found the first cut can be made. -/
theorem firstCut_of_find?
    {n : Nat}
    (hFound : find? pat s = some n) :
    FirstCut pat s (s.take n) (s.drop (n + pat.length)) := by
  rcases find?_eq_some_iff.mp hFound with ⟨⟨r, hThere⟩, hFirst⟩
  constructor
  · have hRest : s.drop (n + pat.length) = r := by
      rw [← List.drop_drop, ← hThere, List.drop_left]
    rw [hRest, List.append_assoc, hThere, List.take_append_drop]
  · intro l r hWhole
    apply Nat.le_of_not_lt
    intro hShorter
    have hTake := List.length_take_le n s
    apply hFirst l.length (by omega)
    rw [hWhole, List.append_assoc, List.drop_left]
    exact List.prefix_append pat r

------------------------------------------------------------
-- Going on with a search
------------------------------------------------------------

/- No occurrence of `pat` begins in the first `k` bytes. -/
def Searched
    (pat s : Bytes)
    (k : Nat) : Prop :=
  ∀ i < k, ¬ pat <+: s.drop i

theorem searched_zero
    (pat s : Bytes) :
    Searched pat s 0 :=
  nofun

/- What was searched in vain can be left out of a search. -/
theorem Searched.find?_eq
    {k : Nat}
    (hSearched : Searched pat s k) :
    find? pat s = (find? pat (s.drop k)).map (k + ·) := by
  cases hFound : find? pat (s.drop k) with
  | none =>
      rw [find?_eq_none_iff] at hFound
      rw [Option.map_none, find?_eq_none_iff]
      intro i hThere
      rcases Nat.lt_or_ge i k with hLess | hMore
      · exact hSearched i hLess hThere
      · apply hFound (i - k)
        rw [List.drop_drop, Nat.add_sub_cancel' hMore]
        exact hThere
  | some n =>
      rw [find?_eq_some_iff] at hFound
      rw [Option.map_some, find?_eq_some_iff, ← List.drop_drop]
      refine ⟨hFound.1, fun i hLess hThere => ?_⟩
      rcases Nat.lt_or_ge i k with hBefore | hMore
      · exact hSearched i hBefore hThere
      · apply hFound.2 (i - k) (by omega)
        rw [List.drop_drop, Nat.add_sub_cancel' hMore]
        exact hThere

/-
  After a search in vain, an occurrence that more bytes bring
  begins among the last bytes, fewer than the pattern has.
-/
theorem searched_append
    (hPat : pat ≠ [])
    (hNone : find? pat s = none)
    (more : Bytes) :
    Searched pat (s ++ more) (s.length - (pat.length - 1)) := by
  intro i hLess hThere
  have hLength := List.length_pos_iff.mpr hPat
  apply find?_eq_none_iff.mp hNone i
  rw [List.drop_append_of_le_length (by omega)] at hThere
  apply List.prefix_of_prefix_length_le hThere
    (List.prefix_append _ more)
  rw [List.length_drop]
  omega

------------------------------------------------------------
-- Lines that can be told from what follows
------------------------------------------------------------

/- No occurrence of `pat` in `line ++ pat` begins in the line. -/
def Framed
    (pat line : Bytes) : Prop :=
  ∀ i < line.length, ¬ pat <+: (line ++ pat).drop i

instance
    (pat line : Bytes) :
    Decidable (Framed pat line) := by
  unfold Framed
  infer_instance

/- What is framed is framed without its first byte. -/
theorem Framed.tail
    {b : UInt8}
    (hFramed : Framed pat (b :: line)) :
    Framed pat line := by
  intro i hi
  have hNext := hFramed (i + 1) (Nat.succ_lt_succ hi)
  rw [List.cons_append, List.drop_succ_cons] at hNext
  exact hNext

/- Where nothing ends a line, only an empty one is framed. -/
theorem Framed.eq_nil
    (hFramed : Framed [] line) :
    line = [] := by
  apply List.eq_nil_of_length_eq_zero
  apply Nat.eq_zero_of_not_pos
  intro hSome
  exact hFramed 0 hSome List.nil_prefix

/- Too few bytes hold no occurrence. -/
theorem find?_eq_none_of_length_lt
    (hShort : s.length < pat.length) :
    find? pat s = none := by
  cases hFound : find? pat s with
  | none => rfl
  | some n =>
      have hWithin := find?_le hFound
      omega

/- What the bytes begin with is found at their start. -/
theorem find?_of_isPrefix
    (hPrefix : pat <+: s) :
    find? pat s = some 0 := by
  cases s with
  | nil =>
      rw [List.prefix_nil] at hPrefix
      subst hPrefix
      rfl
  | cons b s =>
      rw [find?, if_pos (List.isPrefixOf_iff_prefix.mpr hPrefix)]

/-
  A search in a part of the traffic finds the end of the line
  that the traffic begins with as soon as all of it is there.
-/
theorem find?_of_framed
    (hFramed : Framed pat line)
    (hPat : pat ≠ [])
    (hTraffic : s <+: line ++ pat ++ rest) :
    find? pat s =
      if line.length + pat.length ≤ s.length
        then some line.length else none := by
  induction line generalizing s with
  | nil =>
      rw [List.nil_append] at hTraffic
      rw [List.length_nil, Nat.zero_add]
      split
      · next hAll =>
          apply find?_of_isPrefix
          exact List.prefix_of_prefix_length_le
            (List.prefix_append pat rest) hTraffic hAll
      · next hShort =>
          exact find?_eq_none_of_length_lt (Nat.lt_of_not_le hShort)
  | cons b line ih =>
      cases s with
      | nil =>
          have hShort : ¬ (b :: line).length + pat.length ≤ 0 := by
            simp
          have hNone : find? pat [] = none := by
            apply find?_eq_none_of_length_lt
            exact List.length_pos_iff.mpr hPat
          rw [hNone]
          exact (if_neg hShort).symm
      | cons c s =>
          rw [List.cons_append, List.cons_append,
            List.cons_prefix_cons] at hTraffic
          rcases hTraffic with ⟨rfl, hTraffic⟩
          -- An occurrence at once would begin in the line.
          have hNot : ¬ pat <+: c :: s := by
            intro hPrefix
            have hWhole : pat <+: c :: (line ++ pat ++ rest) :=
              hPrefix.trans
                (List.cons_prefix_cons.mpr ⟨rfl, hTraffic⟩)
            have hLine : c :: (line ++ pat) <+:
                c :: (line ++ pat ++ rest) :=
              List.cons_prefix_cons.mpr
                ⟨rfl, List.prefix_append _ _⟩
            apply hFramed 0 (Nat.succ_pos _)
            apply List.prefix_of_prefix_length_le hWhole hLine
            simp only [List.length_cons, List.length_append]
            omega
          rw [find?,
            if_neg (mt List.isPrefixOf_iff_prefix.mp hNot),
            ih hFramed.tail hTraffic]
          simp only [List.length_cons]
          split
          · next hAll => rw [if_pos (by omega)]; rfl
          · next hShort => rw [if_neg (by omega)]; rfl

/-
  A search of a stream that begins with a line and what ends it
  finds that end exactly if the line is framed.
-/
theorem find?_eq_length_iff_framed
    (hPat : pat ≠ []) :
    find? pat (line ++ pat ++ rest) = some line.length ↔
      Framed pat line := by
  constructor
  · intro hFound i hLess hThere
    rw [find?_eq_some_iff] at hFound
    apply hFound.2 i hLess
    rw [List.drop_append_of_le_length
      (by rw [List.length_append]; omega)]
    exact hThere.trans (List.prefix_append _ rest)
  · intro hFramed
    rw [find?_of_framed hFramed hPat List.prefix_rfl, if_pos]
    rw [List.length_append, List.length_append]
    exact Nat.le_add_right _ _

/- No part of the pattern both begins and ends it. -/
def BorderFree
    (pat : Bytes) : Prop :=
  ∀ border,
    border ≠ [] → border <+: pat → border <:+ pat → border = pat

/-
  What ends a line and has no border cannot begin in a line and
  end behind it, so only lines that it is a part of are not
  framed.
-/
theorem framed_iff_of_borderFree
    (hPat : pat ≠ [])
    (hBorderFree : BorderFree pat) :
    Framed pat line ↔ ¬ pat <:+: line := by
  constructor
  · rintro hFramed ⟨l, r, rfl⟩
    have hLength := List.length_pos_iff.mpr hPat
    apply hFramed l.length
    · simp only [List.length_append]
      omega
    · rw [List.append_assoc, List.append_assoc, List.drop_left]
      exact List.prefix_append pat _
  · intro hNot i hLess hThere
    rw [List.drop_append_of_le_length (Nat.le_of_lt hLess)] at hThere
    have hLine := List.prefix_append (line.drop i) pat
    by_cases hFits : pat.length ≤ (line.drop i).length
    · -- The pattern ends within the line.
      have hPart := List.prefix_of_prefix_length_le hThere hLine hFits
      exact hNot
        (hPart.isInfix.trans (List.drop_suffix i line).isInfix)
    · -- What reaches behind the line is a border.
      rw [Nat.not_le] at hFits
      have hEnd := List.prefix_of_prefix_length_le hLine hThere
        (Nat.le_of_lt hFits)
      rcases hEnd with ⟨border, hWhole⟩
      have hBorder : border <+: pat := by
        rw [← hWhole, List.prefix_append_right_inj, hWhole] at hThere
        exact hThere
      have hLength := congrArg List.length hWhole
      rw [List.length_append] at hLength
      have hSome : border ≠ [] := by
        rintro rfl
        rw [List.length_nil] at hLength
        omega
      have hSame := hBorderFree border hSome hBorder ⟨_, hWhole⟩
      rw [hSame, List.length_drop] at hLength
      omega

end Bytes

end Parley
