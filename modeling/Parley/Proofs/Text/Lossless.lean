import Parley.Text.Lossy
/-
  This file says how much is lost when bytes are read as text.
  Nothing is lost of the bytes of a text, and nothing of any
  bytes that are read without a replacement character: those are
  the bytes of the text that is read. So bytes that read the
  same are the same, unless some of them are no text and the
  replacement character stands in what is read.

  Key definitions include:
    * `Text.Spells`
    * `Bytes.IsText`

  Key theorems include:
    * `Text.spells_utf8EncodeChar`
    * `Text.Spells.utf8EncodeChar_eq`
    * `Text.Spells.scalarAt_eq`
    * `Text.spells_of_scalarAt`
    * `Text.ofBytes_ofString`
    * `Text.ofString_ofBytes`
    * `Text.replacement_mem_of_ofBytes_eq`
-/

namespace Parley

namespace Text

------------------------------------------------------------
-- The bytes of a character
------------------------------------------------------------

/-
  How many bytes follow a leading byte, and the bounds of the
  first of them. They keep out longer spellings, surrogates and
  values beyond the last code point.
-/
inductive Leads
    (a b : UInt8) : Nat → Prop where
  | one
      (hLead : 194 ≤ a.toNat ∧ a.toNat ≤ 223)
      (hNext : 128 ≤ b.toNat ∧ b.toNat ≤ 191) :
      Leads a b 1
  | two
      (hLead : 224 ≤ a.toNat ∧ a.toNat ≤ 239)
      (hNext : 128 ≤ b.toNat ∧ b.toNat ≤ 191)
      (hLong : a.toNat = 224 → 160 ≤ b.toNat)
      (hSurrogate : a.toNat = 237 → b.toNat ≤ 159) :
      Leads a b 2
  | three
      (hLead : 240 ≤ a.toNat ∧ a.toNat ≤ 244)
      (hNext : 128 ≤ b.toNat ∧ b.toNat ≤ 191)
      (hLong : a.toNat = 240 → 144 ≤ b.toNat)
      (hBeyond : a.toNat = 244 → b.toNat ≤ 143) :
      Leads a b 3

/-
  Bytes that spell a code point: one byte, or a leading byte and
  the one to three that follow it.
-/
inductive Spells : Bytes → Nat → Prop where
  | one
      {a : UInt8}
      {v : Nat}
      (hSingle : a.toNat ≤ 127)
      (hValue : v = a.toNat) :
      Spells [a] v
  | two
      {a b : UInt8}
      {v : Nat}
      (hLeads : Leads a b 1)
      (hValue : v = a.toNat % 32 * 64 + b.toNat % 64) :
      Spells [a, b] v
  | three
      {a b c : UInt8}
      {v : Nat}
      (hLeads : Leads a b 2)
      (hLast : 128 ≤ c.toNat ∧ c.toNat ≤ 191)
      (hValue : v = (a.toNat % 16 * 64 + b.toNat % 64) * 64 +
        c.toNat % 64) :
      Spells [a, b, c] v
  | four
      {a b c d : UInt8}
      {v : Nat}
      (hLeads : Leads a b 3)
      (hThird : 128 ≤ c.toNat ∧ c.toNat ≤ 191)
      (hLast : 128 ≤ d.toNat ∧ d.toNat ≤ 191)
      (hValue : v = ((a.toNat % 8 * 64 + b.toNat % 64) * 64 +
        c.toNat % 64) * 64 + d.toNat % 64) :
      Spells [a, b, c, d] v

/- A byte of which the number is known. -/
theorem toNat_ofNat_of_lt
    {n : Nat}
    (hLess : n < 256) :
    (UInt8.ofNat n).toNat = n :=
  UInt8.toNat_ofNat_of_lt' hLess

/- The bytes of a character, by the number of its code point. -/
theorem utf8EncodeChar_eq
    (c : Char) :
    String.utf8EncodeChar c =
      if c.toNat ≤ 127 then [UInt8.ofNat c.toNat]
      else if c.toNat ≤ 2047 then
        [UInt8.ofNat (c.toNat / 64 % 32 + 192),
          UInt8.ofNat (c.toNat % 64 + 128)]
      else if c.toNat ≤ 65535 then
        [UInt8.ofNat (c.toNat / 4096 % 16 + 224),
          UInt8.ofNat (c.toNat / 64 % 64 + 128),
          UInt8.ofNat (c.toNat % 64 + 128)]
      else
        [UInt8.ofNat (c.toNat / 262144 % 8 + 240),
          UInt8.ofNat (c.toNat / 4096 % 64 + 128),
          UInt8.ofNat (c.toNat / 64 % 64 + 128),
          UInt8.ofNat (c.toNat % 64 + 128)] :=
  rfl

/- The bytes of a character spell it. -/
theorem spells_utf8EncodeChar
    (c : Char) :
    Spells (String.utf8EncodeChar c) c.toNat := by
  have hValid : c.toNat < 55296 ∨
      57343 < c.toNat ∧ c.toNat < 1114112 :=
    c.valid
  rw [utf8EncodeChar_eq]
  generalize c.toNat = v at hValid
  have hLast : (UInt8.ofNat (v % 64 + 128)).toNat =
      v % 64 + 128 :=
    toNat_ofNat_of_lt (by omega)
  have hMiddle : (UInt8.ofNat (v / 64 % 64 + 128)).toNat =
      v / 64 % 64 + 128 :=
    toNat_ofNat_of_lt (by omega)
  split
  · have hLead : (UInt8.ofNat v).toNat = v :=
      toNat_ofNat_of_lt (by omega)
    exact .one (by omega) hLead.symm
  · split
    · have hLead : (UInt8.ofNat (v / 64 % 32 + 192)).toNat =
          v / 64 % 32 + 192 :=
        toNat_ofNat_of_lt (by omega)
      refine .two (.one ?_ ?_) ?_ <;> omega
    · split
      · have hLead : (UInt8.ofNat (v / 4096 % 16 + 224)).toNat =
            v / 4096 % 16 + 224 :=
          toNat_ofNat_of_lt (by omega)
        refine .three (.two ?_ ?_ ?_ ?_) ?_ ?_ <;> omega
      · have hLead : (UInt8.ofNat (v / 262144 % 8 + 240)).toNat =
            v / 262144 % 8 + 240 :=
          toNat_ofNat_of_lt (by omega)
        have hNext : (UInt8.ofNat (v / 4096 % 64 + 128)).toNat =
            v / 4096 % 64 + 128 :=
          toNat_ofNat_of_lt (by omega)
        refine .four (.three ?_ ?_ ?_ ?_) ?_ ?_ ?_ <;> omega

/- Only a code point is spelled. -/
theorem Spells.isValidChar
    {s : Bytes}
    {v : Nat}
    (hSpells : Spells s v) :
    v.isValidChar := by
  unfold Nat.isValidChar
  cases hSpells with
  | one hSingle hValue => omega
  | two hLeads hValue =>
      cases hLeads
      omega
  | three hLeads hLast hValue =>
      cases hLeads
      omega
  | four hLeads hThird hLast hValue =>
      cases hLeads
      omega

/- What spells a character are its bytes. -/
theorem Spells.utf8EncodeChar_eq
    {s : Bytes}
    {v : Nat}
    (hSpells : Spells s v) :
    String.utf8EncodeChar (Char.ofNat v) = s := by
  have hNumber : (Char.ofNat v).toNat = v := by
    unfold Char.ofNat
    rw [dif_pos hSpells.isValidChar]
    rfl
  rw [Text.utf8EncodeChar_eq, hNumber]
  have hByte : ∀ (a : UInt8) {n : Nat}, n = a.toNat →
      UInt8.ofNat n = a := by
    rintro a n rfl
    exact UInt8.ofNat_toNat
  cases hSpells with
  | @one a _ hSingle hValue =>
      rw [if_pos (by omega), hByte a hValue]
  | @two a b _ hLeads hValue =>
      cases hLeads
      rw [if_neg (by omega), if_pos (by omega),
        hByte a (by omega), hByte b (by omega)]
  | @three a b c _ hLeads hLast hValue =>
      cases hLeads
      rw [if_neg (by omega), if_neg (by omega), if_pos (by omega),
        hByte a (by omega), hByte b (by omega),
        hByte c (by omega)]
  | @four a b c d _ hLeads hThird hLast hValue =>
      cases hLeads
      rw [if_neg (by omega), if_neg (by omega), if_neg (by omega),
        hByte a (by omega), hByte b (by omega),
        hByte c (by omega), hByte d (by omega)]

------------------------------------------------------------
-- Reading one character
------------------------------------------------------------

/- A byte that follows is read if it is in its bounds. -/
theorem continueScalar_of_le
    {low high b : UInt8}
    (value used left : Nat)
    (rest : Bytes)
    (hBounds : low.toNat ≤ b.toNat ∧ b.toNat ≤ high.toNat) :
    continueScalar low high value used (left + 1) (b :: rest) =
      continueScalar 0x80 0xBF (value * 64 + b.toNat % 64)
        (used + 1) left rest := by
  have hBits : continuation? low high b = some (b.toNat % 64) := by
    rw [continuation?, if_pos]
    exact ⟨UInt8.le_iff_toNat_le.mpr hBounds.1,
      UInt8.le_iff_toNat_le.mpr hBounds.2⟩
  rw [continueScalar, hBits]

/- The bounds of all but the first are the same. -/
theorem continueScalar_tail
    {b : UInt8}
    (value used left : Nat)
    (rest : Bytes)
    (hTail : 128 ≤ b.toNat ∧ b.toNat ≤ 191) :
    continueScalar 0x80 0xBF value used (left + 1) (b :: rest) =
      continueScalar 0x80 0xBF (value * 64 + b.toNat % 64)
        (used + 1) left rest :=
  continueScalar_of_le value used left rest hTail

/-
  Nothing is read of one that is missing or out of its bounds.
-/
theorem continueScalar_cases
    (low high : UInt8)
    (value used left : Nat)
    (rest : Bytes) :
    (continueScalar low high value used (left + 1) rest).1 =
        replacement ∨
      ∃ b more, rest = b :: more ∧
        (low.toNat ≤ b.toNat ∧ b.toNat ≤ high.toNat) := by
  cases rest with
  | nil => exact .inl rfl
  | cons b more =>
      rw [continueScalar]
      unfold continuation?
      split
      · exact .inl rfl
      · next bits hBits =>
          right
          split at hBits
          · next hBounds =>
              exact ⟨b, more, rfl,
                UInt8.le_iff_toNat_le.mp hBounds.1,
                UInt8.le_iff_toNat_le.mp hBounds.2⟩
          · cases hBits

/- The bounds behind a leading byte, by its number. -/
theorem lead?_eq
    (a : UInt8) :
    lead? a =
      if 194 ≤ a.toNat ∧ a.toNat ≤ 223 then some (0x80, 0xBF, 1)
      else if a.toNat = 224 then some (0xA0, 0xBF, 2)
      else if a.toNat = 237 then some (0x80, 0x9F, 2)
      else if 225 ≤ a.toNat ∧ a.toNat ≤ 239 then
        some (0x80, 0xBF, 2)
      else if a.toNat = 240 then some (0x90, 0xBF, 3)
      else if 241 ≤ a.toNat ∧ a.toNat ≤ 243 then
        some (0x80, 0xBF, 3)
      else if a.toNat = 244 then some (0x80, 0x8F, 3)
      else none := by
  unfold lead?
  simp only [UInt8.le_iff_toNat_le, ← UInt8.toNat_inj]
  rfl

/- The bounds are those of the leading byte. -/
theorem lead?_iff
    {a b : UInt8}
    {n : Nat} :
    (∃ low high, lead? a = some (low, high, n) ∧
        (low.toNat ≤ b.toNat ∧ b.toNat ≤ high.toNat)) ↔
      Leads a b n := by
  rw [lead?_eq]
  constructor
  · rintro ⟨low, high, hLead, hBounds⟩
    repeat' split at hLead
    all_goals cases hLead
    · exact .one ‹_› hBounds
    · change 160 ≤ b.toNat ∧ b.toNat ≤ 191 at hBounds
      apply Leads.two <;> omega
    · change 128 ≤ b.toNat ∧ b.toNat ≤ 159 at hBounds
      apply Leads.two <;> omega
    · change 128 ≤ b.toNat ∧ b.toNat ≤ 191 at hBounds
      apply Leads.two <;> omega
    · change 144 ≤ b.toNat ∧ b.toNat ≤ 191 at hBounds
      apply Leads.three <;> omega
    · change 128 ≤ b.toNat ∧ b.toNat ≤ 191 at hBounds
      apply Leads.three <;> omega
    · change 128 ≤ b.toNat ∧ b.toNat ≤ 143 at hBounds
      apply Leads.three <;> omega
  · intro hLeads
    cases hLeads with
    | one hLead hNext =>
        rw [if_pos hLead]
        exact ⟨0x80, 0xBF, rfl, hNext⟩
    | two hLead hNext hLong hSurrogate =>
        rw [if_neg (by omega)]
        split
        · next hFirst =>
            exact ⟨0xA0, 0xBF, rfl, hLong hFirst, hNext.2⟩
        · split
          · next hFirst =>
              exact ⟨0x80, 0x9F, rfl, hNext.1, hSurrogate hFirst⟩
          · rw [if_pos (by omega)]
            exact ⟨0x80, 0xBF, rfl, hNext⟩
    | three hLead hNext hLong hBeyond =>
        rw [if_neg (by omega), if_neg (by omega),
          if_neg (by omega), if_neg (by omega)]
        split
        · next hFirst =>
            exact ⟨0x90, 0xBF, rfl, hLong hFirst, hNext.2⟩
        · split
          · exact ⟨0x80, 0xBF, rfl, hNext⟩
          · rw [if_pos (by omega)]
            exact ⟨0x80, 0x8F, rfl, hNext.1, hBeyond (by omega)⟩

/- Some byte follows a leading byte. -/
theorem lead?_ne_zero
    (a low high : UInt8) :
    lead? a ≠ some (low, high, 0) := by
  unfold lead?
  repeat' split
  all_goals exact nofun

/- How many values the payload of a leading byte has. -/
def kept
    (n : Nat) : Nat :=
  if n = 1 then 32 else if n = 2 then 16 else 8

/- What is read behind a leading byte. -/
theorem scalarAt_of_leads
    {a b : UInt8}
    {n : Nat}
    (rest : Bytes)
    (hLeads : Leads a b (n + 1)) :
    scalarAt a (b :: rest) =
      continueScalar 0x80 0xBF
        (a.toNat % kept (n + 1) * 64 + b.toNat % 64) 1 n rest := by
  have hLarge : ¬ a < 0x80 := by
    intro hSmall
    have hNumber : a.toNat < 128 := UInt8.lt_iff_toNat_lt.mp hSmall
    cases hLeads <;> omega
  rcases lead?_iff.mpr hLeads with ⟨low, high, hLead, hBounds⟩
  unfold scalarAt
  rw [if_neg hLarge, hLead]
  exact continueScalar_of_le _ 0 n rest hBounds

/- Bytes that spell a character are read as that character. -/
theorem Spells.scalarAt_eq
    {a : UInt8}
    {s : Bytes}
    {v : Nat}
    (hSpells : Spells (a :: s) v)
    (rest : Bytes) :
    scalarAt a (s ++ rest) = (Char.ofNat v, s.length) := by
  cases hSpells with
  | one hSingle hValue =>
      have hSmall : a < 0x80 :=
        UInt8.lt_iff_toNat_lt.mpr (Nat.lt_succ_of_le hSingle)
      unfold scalarAt
      rw [if_pos hSmall, hValue]
      rfl
  | two hLeads hValue =>
      rw [List.cons_append, scalarAt_of_leads _ hLeads, hValue]
      rfl
  | three hLeads hLast hValue =>
      rw [List.cons_append, scalarAt_of_leads _ hLeads,
        List.cons_append, continueScalar_tail _ _ _ _ hLast,
        hValue]
      rfl
  | four hLeads hThird hLast hValue =>
      rw [List.cons_append, scalarAt_of_leads _ hLeads,
        List.cons_append, continueScalar_tail _ _ _ _ hThird,
        List.cons_append, continueScalar_tail _ _ _ _ hLast,
        hValue]
      rfl

/- The same for what is read behind a leading byte. -/
theorem spells_of_leads
    {a b : UInt8}
    {n : Nat}
    (rest : Bytes)
    (hLeads : Leads a b (n + 1)) :
    (scalarAt a (b :: rest)).1 = replacement ∨
      ∃ v,
        Spells (a :: (b :: rest).take (scalarAt a (b :: rest)).2)
          v ∧
        (scalarAt a (b :: rest)).1 = Char.ofNat v := by
  rw [scalarAt_of_leads rest hLeads]
  rcases n with _ | _ | _ | n
  · exact .inr ⟨_, .two hLeads rfl, rfl⟩
  · rcases continueScalar_cases 0x80 0xBF
        (a.toNat % kept 2 * 64 + b.toNat % 64) 1 0 rest with
      hNothing | ⟨c, more, rfl, hLast⟩
    · exact .inl hNothing
    · rw [continueScalar_tail _ _ _ _ hLast]
      exact .inr ⟨_, .three hLeads hLast rfl, rfl⟩
  · rcases continueScalar_cases 0x80 0xBF
        (a.toNat % kept 3 * 64 + b.toNat % 64) 1 1 rest with
      hNothing | ⟨c, more, rfl, hThird⟩
    · exact .inl hNothing
    · rw [continueScalar_tail _ _ _ _ hThird]
      rcases continueScalar_cases 0x80 0xBF
          ((a.toNat % kept 3 * 64 + b.toNat % 64) * 64 +
            c.toNat % 64) 2 0 more with
        hNothing | ⟨d, more, rfl, hLast⟩
      · exact .inl hNothing
      · rw [continueScalar_tail _ _ _ _ hLast]
        exact .inr ⟨_, .four hLeads hThird hLast rfl, rfl⟩
  · cases hLeads

/-
  What is read is spelled by the bytes that are read, or it is
  the replacement character.
-/
theorem spells_of_scalarAt
    (a : UInt8)
    (rest : Bytes) :
    (scalarAt a rest).1 = replacement ∨
      ∃ v, Spells (a :: rest.take (scalarAt a rest).2) v ∧
        (scalarAt a rest).1 = Char.ofNat v := by
  by_cases hSmall : a < 0x80
  · right
    have hSingle : a.toNat < 128 := UInt8.lt_iff_toNat_lt.mp hSmall
    refine ⟨a.toNat, ?_, ?_⟩
    · unfold scalarAt
      rw [if_pos hSmall]
      exact .one (by omega) rfl
    · unfold scalarAt
      rw [if_pos hSmall]
  · cases hLead : lead? a with
    | none =>
        left
        unfold scalarAt
        rw [if_neg hSmall, hLead]
    | some bounds =>
        rcases bounds with ⟨low, high, _ | n⟩
        · exact absurd hLead (lead?_ne_zero a low high)
        · have hRead : scalarAt a rest =
              continueScalar low high (a.toNat % kept (n + 1))
                0 (n + 1) rest := by
            unfold scalarAt
            rw [if_neg hSmall, hLead]
            rfl
          rcases continueScalar_cases low high
              (a.toNat % kept (n + 1)) 0 n rest with
            hNothing | ⟨b, more, rfl, hBounds⟩
          · rw [hRead]
            exact .inl hNothing
          · exact spells_of_leads more
              (lead?_iff.mp ⟨low, high, hLead, hBounds⟩)

------------------------------------------------------------
-- Whole texts
------------------------------------------------------------

/- The bytes of characters are theirs in order. -/
theorem lossyChars_flatMap
    (l : List Char) :
    lossyChars (l.flatMap String.utf8EncodeChar) = l := by
  induction l with
  | nil =>
      rw [List.flatMap_nil, lossyChars]
  | cons c l ih =>
      have hSpells := spells_utf8EncodeChar c
      rw [List.flatMap_cons]
      cases hBytes : String.utf8EncodeChar c with
      | nil =>
          rw [hBytes] at hSpells
          cases hSpells
      | cons a s =>
          rw [hBytes] at hSpells
          have hRead := hSpells.scalarAt_eq
            (l.flatMap String.utf8EncodeChar)
          rw [Char.ofNat_toNat] at hRead
          rw [List.cons_append, lossyChars, hRead]
          simp only [List.drop_left, ih]

/-
  Bytes that are read without a replacement character are those
  of the characters that are read.
-/
theorem flatMap_lossyChars
    (s : Bytes)
    (hWhole : replacement ∉ lossyChars s) :
    (lossyChars s).flatMap String.utf8EncodeChar = s := by
  induction s using lossyChars.induct with
  | case1 =>
      rw [lossyChars, List.flatMap_nil]
  | case2 a rest c n hRead ih =>
      rw [lossyChars, hRead] at hWhole ⊢
      rw [List.mem_cons, not_or] at hWhole
      rcases hWhole with ⟨hFirst, hRest⟩
      have hSpells := spells_of_scalarAt a rest
      rw [hRead] at hSpells
      rcases hSpells with hNothing | ⟨v, hSpells, rfl⟩
      · exact absurd hNothing.symm hFirst
      · rw [List.flatMap_cons, hSpells.utf8EncodeChar_eq,
          ih hRest, List.cons_append, List.take_append_drop]

end Text

/- The bytes of a text are those of its characters. -/
theorem Bytes.ofString_eq
    (t : String) :
    Bytes.ofString t = t.toList.flatMap String.utf8EncodeChar := by
  have hBytes : t.toUTF8 =
      (t.toList.flatMap String.utf8EncodeChar).toByteArray := by
    have hEncoded : (String.ofList t.toList).toByteArray =
        (t.toList.flatMap String.utf8EncodeChar).toByteArray :=
      String.toByteArray_ofList
    rw [String.toUTF8_eq_toByteArray, ← hEncoded,
      String.ofList_toList]
  rw [Bytes.ofString, hBytes, List.toList_data_toByteArray]

/- Bytes that are those of some text. -/
def Bytes.IsText
    (s : Bytes) : Prop :=
  ∃ t, s = Bytes.ofString t

namespace Text

/- The bytes of a text are read as that text. -/
theorem ofBytes_ofString
    (t : String) :
    ofBytes (Bytes.ofString t) = t := by
  rw [ofBytes, Bytes.ofString_eq, lossyChars_flatMap,
    String.ofList_toList]

/-
  Bytes that are read without a replacement character are those
  of the text that is read.
-/
theorem ofString_ofBytes
    (s : Bytes)
    (hWhole : replacement ∉ (ofBytes s).toList) :
    Bytes.ofString (ofBytes s) = s := by
  rw [ofBytes, String.toList_ofList] at hWhole
  rw [Bytes.ofString_eq, ofBytes, String.toList_ofList]
  exact flatMap_lossyChars s hWhole

/-
  Different bytes that read the same are read with a replacement
  character, and not both of them are a text.
-/
theorem replacement_mem_of_ofBytes_eq
    {s s' : Bytes}
    (hRead : ofBytes s = ofBytes s')
    (hDifferent : s ≠ s') :
    replacement ∈ (ofBytes s).toList ∧
      ¬ (s.IsText ∧ s'.IsText) := by
  constructor
  · apply Decidable.byContradiction
    intro hWhole
    have hLeft : Bytes.ofString (ofBytes s) = s :=
      ofString_ofBytes s hWhole
    have hRight : Bytes.ofString (ofBytes s') = s' :=
      ofString_ofBytes s' (hRead ▸ hWhole)
    exact hDifferent (hLeft.symm.trans (hRead ▸ hRight))
  · rintro ⟨⟨t, rfl⟩, t', rfl⟩
    rw [ofBytes_ofString, ofBytes_ofString] at hRead
    exact hDifferent (congrArg Bytes.ofString hRead)

end Text

end Parley
