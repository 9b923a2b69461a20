import Parley.Proofs.Compression.Laws
/-
  This file gives a codec that keeps all bytes as they are, in
  stored blocks that say how many follow, and shows that it
  keeps the laws of a codec at every level.

  Key definitions include:
    * `Stored.Scanner`
    * `Stored.text`
    * `Stored.block`
    * `Stored.Packer`
    * `storedCodec`

  Key theorems include:
    * `Stored.Scanner.run_append`
    * `Stored.run_block`
    * `Stored.Packed.pack`
    * `lawful_storedCodec`
-/

namespace Parley

namespace Stored

------------------------------------------------------------
-- Reading blocks
------------------------------------------------------------

/-
  Where a reader of blocks is: what it has seen of a header, and
  how many bytes of the block are still to come.
-/
structure Scanner where
  header : Bytes
  left : Nat
deriving DecidableEq

/- How many bytes a header stands before. -/
def lengthOf : Bytes → Nat
  | _ :: low :: high :: _ => low.toNat + 256 * high.toNat
  | _ => 0

/- How long a header is. -/
def headerSize : Nat :=
  5

namespace Scanner

/- Between two blocks. -/
def start : Scanner where
  header := []
  left := 0

/- Read one byte; a byte of a block is given. -/
def step
    (r : Scanner)
    (b : UInt8) : Scanner × Bytes :=
  if r.left = 0 then
    let header := r.header ++ [b]
    if header.length < headerSize then (⟨header, 0⟩, [])
    else (⟨[], lengthOf header⟩, [])
  else (⟨[], r.left - 1⟩, [b])

/- Read bytes, and gather what is given. -/
def run : Scanner → Bytes → Scanner × Bytes
  | r, [] => (r, [])
  | r, b :: s =>
    let (next, out) := r.step b
    let (last, more) := next.run s
    (last, out ++ more)

/- Bytes can be read in two parts. -/
theorem run_append
    (r : Scanner)
    (s more : Bytes) :
    r.run (s ++ more) =
      (((r.run s).1.run more).1,
        (r.run s).2 ++ ((r.run s).1.run more).2) := by
  induction s generalizing r with
  | nil => rfl
  | cons b s ih =>
      simp only [List.cons_append, run, ih, List.append_assoc]

/- A header is read as the length that it says. -/
theorem run_header
    (kind low high low' high' : UInt8) :
    start.run [kind, low, high, low', high'] =
      (⟨[], low.toNat + 256 * high.toNat⟩, []) := by
  simp [run, step, start, headerSize, lengthOf]

/- In a block, bytes are given as they come. -/
theorem run_of_length
    (s : Bytes) :
    run ⟨[], s.length⟩ s = (start, s) := by
  induction s with
  | nil => rfl
  | cons b s ih => simp [run, step, ih]

end Scanner

/- The text that stands in the blocks of encoded bytes. -/
def text
    (encoded : Bytes) : Bytes :=
  (Scanner.start.run encoded).2

/- More encoded bytes have more text. -/
theorem text_isPrefix
    {encoded more : Bytes}
    (hPrefix : encoded <+: more) :
    text encoded <+: text more := by
  rcases hPrefix with ⟨rest, rfl⟩
  rw [text, text, Scanner.run_append]
  exact List.prefix_append _ _

------------------------------------------------------------
-- Writing blocks
------------------------------------------------------------

/- How many bytes a block has at most. -/
def largest : Nat :=
  65535

/- A block: its kind, its length in two ways, its bytes. -/
def block
    (s : Bytes) : Bytes :=
  let low := s.length % 256
  let high := s.length / 256
  [0, UInt8.ofNat low, UInt8.ofNat high,
    UInt8.ofNat (255 - low), UInt8.ofNat (255 - high)] ++ s

theorem length_block
    (s : Bytes) :
    (block s).length = headerSize + s.length := by
  rw [block, List.length_append]
  rfl

/- A block is read as what is in it. -/
theorem run_block
    {s : Bytes}
    (hFits : s.length ≤ largest) :
    Scanner.start.run (block s) = (Scanner.start, s) := by
  have hLength : (UInt8.ofNat (s.length % 256)).toNat +
      256 * (UInt8.ofNat (s.length / 256)).toNat = s.length := by
    rw [largest] at hFits
    simp only [UInt8.toNat_ofNat']
    omega
  rw [block, Scanner.run_append, Scanner.run_header]
  simp only [hLength, Scanner.run_of_length, List.nil_append]

------------------------------------------------------------
-- The compressor
------------------------------------------------------------

/-
  A compressor: the bytes that it has taken in and not yet put
  in a block, and those of blocks that it has not yet given.
-/
structure Packer where
  held : Bytes
  ready : Bytes

namespace Packer

/-
  Take bytes in, up to what a block has at most. A full block
  that is followed by more is made ready, and so is for a flush
  what is there, with an empty block as a mark.
-/
def fill
    (p : Packer)
    (src : Bytes)
    (flush : Flush) : Nat × Packer :=
  let n := min src.length (largest - p.held.length)
  let held := p.held ++ src.take n
  if n < src.length then (n, ⟨[], block held⟩)
  else
    match flush with
    | .none => (n, ⟨held, []⟩)
    | .sync =>
      (n, ⟨[], (if held = [] then [] else block held) ++ block []⟩)

/- One call: nothing is taken in before all blocks are given. -/
def pack
    (p : Packer)
    (src : Bytes)
    (flush : Flush)
    (room : Nat) : Encoding Packer :=
  let (n, q) := if p.ready = [] then p.fill src flush else (0, p)
  { encoder := ⟨q.held, q.ready.drop room⟩
    consumed := n
    produced := q.ready.take room
    stuck := decide (n = 0 ∧ q.ready = []) }

end Packer

/-
  A compressor that has taken in `taken` and gave `given`: what
  it holds back is the end of what it took, and the rest is in
  the blocks that it gave or has ready.
-/
structure Packed
    (p : Packer)
    (taken given : Bytes)
    (marks : Nat) : Prop where
  blocks :
    ∃ packed,
      taken = packed ++ p.held ∧
        Scanner.start.run (given ++ p.ready) =
          (Scanner.start, packed) ∧
        (given ++ p.ready).length ≤
          6 * packed.length + Codec.markSize * marks
  fits : p.held.length ≤ largest
  apart : p.ready ≠ [] → p.held = []

namespace Packed

variable {p : Packer} {taken given : Bytes} {marks : Nat}

/- Blocks that are ready can be given in parts. -/
theorem give
    (hPacked : Packed p taken given marks)
    (room : Nat) :
    Packed ⟨p.held, p.ready.drop room⟩ taken
      (given ++ p.ready.take room) marks := by
  refine ⟨?_, hPacked.fits, ?_⟩
  · rw [List.append_assoc, List.take_append_drop]
    exact hPacked.blocks
  · intro hReady
    apply hPacked.apart
    rintro hNone
    apply hReady
    rw [hNone]
    exact List.drop_nil

/- A call may be asked for marks and give none. -/
theorem of_le
    {more : Nat}
    (hPacked : Packed p taken given marks)
    (hMarks : marks ≤ more) :
    Packed p taken given more := by
  rcases hPacked.blocks with ⟨packed, hTaken, hRun, hLength⟩
  refine ⟨⟨packed, hTaken, hRun, ?_⟩, hPacked.fits, hPacked.apart⟩
  exact Nat.le_trans hLength
    (Nat.add_le_add_left (Nat.mul_le_mul_left _ hMarks) _)

/- What is held back can be put in a block. -/
theorem close
    {held : Bytes}
    (hPacked : Packed ⟨held, []⟩ taken given marks)
    (hHeld : held ≠ []) :
    Packed ⟨[], block held⟩ taken given marks := by
  rcases hPacked.blocks with ⟨packed, hTaken, hRun, hLength⟩
  rw [List.append_nil] at hRun hLength
  refine ⟨⟨taken, (List.append_nil taken).symm, ?_, ?_⟩,
    Nat.zero_le _, fun _ => rfl⟩
  · rw [Scanner.run_append, hRun, run_block hPacked.fits, hTaken]
  · have hSome := List.length_pos_iff.mpr hHeld
    rw [List.length_append, length_block, hTaken,
      List.length_append, headerSize]
    simp only
    omega

/- A mark can be put behind what is ready. -/
theorem mark
    {ready : Bytes}
    (hPacked : Packed ⟨[], ready⟩ taken given marks) :
    Packed ⟨[], ready ++ block []⟩ taken given (marks + 1) := by
  rcases hPacked.blocks with ⟨packed, hTaken, hRun, hLength⟩
  refine ⟨⟨packed, hTaken, ?_, ?_⟩, Nat.zero_le _, fun _ => rfl⟩
  · rw [← List.append_assoc, Scanner.run_append, hRun,
      run_block (Nat.zero_le _), List.append_nil]
  · rw [← List.append_assoc, List.length_append, length_block,
      headerSize]
    rw [Codec.markSize] at hLength ⊢
    simp only [List.length_nil] at hLength ⊢
    omega

/- Bytes can be taken in as long as they fit in a block. -/
theorem take
    {held : Bytes}
    (hPacked : Packed ⟨held, []⟩ taken given marks)
    {more : Bytes}
    (hFits : (held ++ more).length ≤ largest) :
    Packed ⟨held ++ more, []⟩ (taken ++ more) given marks := by
  rcases hPacked.blocks with ⟨packed, rfl, hRun, hLength⟩
  exact ⟨⟨packed, List.append_assoc _ _ _, hRun, hLength⟩, hFits,
    fun hReady => absurd rfl hReady⟩

/- Filling keeps everything where it belongs. -/
theorem fill
    {held : Bytes}
    (hPacked : Packed ⟨held, []⟩ taken given marks)
    (src : Bytes)
    (flush : Flush) :
    Packed ((Packer.mk held []).fill src flush).2
      (taken ++ src.take ((Packer.mk held []).fill src flush).1)
      given (marks + flush.marks) := by
  have hHeld : held.length ≤ largest := hPacked.fits
  generalize hCount : min src.length (largest - held.length) = n
  have hTake : Packed ⟨held ++ src.take n, []⟩ (taken ++ src.take n)
      given marks := by
    apply hPacked.take
    rw [List.length_append, List.length_take]
    omega
  simp only [Packer.fill, hCount]
  split
  · next hFull =>
      apply (hTake.close ?_).of_le (Nat.le_add_right _ _)
      apply List.ne_nil_of_length_pos
      rw [List.length_append, List.length_take]
      rw [largest] at hCount
      omega
  · cases flush with
    | none => exact hTake
    | sync =>
        by_cases hNone : held ++ src.take n = []
        · simp only [if_pos hNone]
          rw [hNone] at hTake
          exact hTake.mark
        · simp only [if_neg hNone]
          exact (hTake.close hNone).mark

/- So does every call. -/
theorem pack
    (hPacked : Packed p taken given marks)
    (src : Bytes)
    (flush : Flush)
    (room : Nat) :
    Packed (p.pack src flush room).encoder
      (taken ++ src.take (p.pack src flush room).consumed)
      (given ++ (p.pack src flush room).produced)
      (marks + flush.marks) := by
  rcases p with ⟨held, ready⟩
  by_cases hReady : ready = []
  · subst hReady
    simp only [Packer.pack, if_true]
    exact (hPacked.fill src flush).give room
  · simp only [Packer.pack, if_neg hReady, List.take_zero,
      List.append_nil]
    exact (hPacked.give room).of_le (Nat.le_add_right _ _)

end Packed

------------------------------------------------------------
-- The codec
------------------------------------------------------------

/-
  A decoder: where it is in the blocks, and the bytes that it
  has not yet given for want of room.
-/
structure Unpacker where
  scanner : Scanner
  ready : Bytes

/- One call: all bytes are used. -/
def Unpacker.unpack
    (d : Unpacker)
    (src : Bytes)
    (room : Nat) : Decoding Unpacker :=
  let (scanner, out) := d.scanner.run src
  { decoder := ⟨scanner, (d.ready ++ out).drop room⟩
    consumed := src.length
    produced := (d.ready ++ out).take room
    status := .more }

end Stored

open Stored

/- The codec that stores all bytes, whatever the level. -/
def storedCodec : Codec where
  Compressor := Packer
  Decoder := Unpacker
  compressor _ := ⟨[], []⟩
  decoder := ⟨Scanner.start, []⟩
  compress := Packer.pack
  decode := Unpacker.unpack

namespace Stored

variable {level : Nat}

/- Everything taken in is held back, ready or given. -/
theorem packed_of_compresses
    {p : storedCodec.Compressor}
    {taken given : Bytes}
    {marks : Nat}
    (hCompresses :
      storedCodec.Compresses level p taken given marks) :
    Packed p taken given marks := by
  induction hCompresses with
  | new => exact ⟨⟨[], rfl, rfl, Nat.zero_le _⟩, Nat.zero_le _, nofun⟩
  | call _ src flush hRoom ih => exact ih.pack src flush _

/- The text of what was used is ready or given. -/
theorem run_of_decodes
    {d : storedCodec.Decoder}
    {used gave : Bytes}
    (hDecodes : storedCodec.Decodes d used gave) :
    Scanner.start.run used =
      (Unpacker.scanner d, gave ++ Unpacker.ready d) := by
  induction hDecodes with
  | new => rfl
  | @call d used gave _ src room _ ih =>
      simp only [storedCodec, Unpacker.unpack] at ih ⊢
      rw [Scanner.run_append, ih, List.take_length]
      simp only [List.append_assoc, List.take_append_drop]

/- A call takes in no more than there is. -/
theorem fill_le
    (p : Packer)
    (src : Bytes)
    (flush : Flush) :
    (p.fill src flush).1 ≤ src.length := by
  unfold Packer.fill
  generalize hCount : min src.length (largest - p.held.length) = n
  simp only
  split
  · simp only
    omega
  · cases flush <;> (simp only; omega)

/- With something to take in, something is taken or ready. -/
theorem fill_advances
    (p : Packer)
    {src : Bytes}
    (hSome : src ≠ [])
    (flush : Flush) :
    0 < (p.fill src flush).1 ∨ (p.fill src flush).2.ready ≠ [] := by
  have hLength := List.length_pos_iff.mpr hSome
  unfold Packer.fill
  generalize hCount : min src.length (largest - p.held.length) = n
  simp only
  split
  · right
    rw [block, List.cons_append]
    exact List.cons_ne_nil _ _
  · next hAll =>
      left
      cases flush <;> (simp only; omega)

/- A flush holds nothing back. -/
theorem held_fill_sync
    (p : Packer)
    (src : Bytes) :
    (p.fill src .sync).2.held = [] := by
  unfold Packer.fill
  simp only
  split
  · rfl
  · rfl

/-
  A call fills up what is ready if nothing is, and gives of that
  what there is room for.
-/
theorem exists_pack_eq
    {p : Packer}
    (src : Bytes)
    (flush : Flush)
    (room : Nat)
    (hApart : p.ready ≠ [] → p.held = []) :
    ∃ (n : Nat) (q : Packer),
      p.pack src flush room =
          ⟨⟨q.held, q.ready.drop room⟩, n, q.ready.take room,
            decide (n = 0 ∧ q.ready = [])⟩ ∧
        n ≤ src.length ∧
        (src ≠ [] → 0 < n ∨ q.ready ≠ []) ∧
        (flush = .sync → q.held = []) := by
  by_cases hReady : p.ready = []
  · refine ⟨(p.fill src flush).1, (p.fill src flush).2, ?_,
      fill_le p src flush, fun hSome => fill_advances p hSome flush,
      ?_⟩
    · rw [Packer.pack, if_pos hReady]
    · rintro rfl
      exact held_fill_sync p src
  · refine ⟨0, p, ?_, Nat.zero_le _, fun _ => .inr hReady,
      fun _ => hApart hReady⟩
    rw [Packer.pack, if_neg hReady]

end Stored

/- Storing all bytes keeps the laws of a codec. -/
theorem lawful_storedCodec
    (level : Nat) :
    storedCodec.Lawful level Stored.text (6 * ·) where
  text_nil := rfl
  text_mono _ hPrefix := text_isPrefix hPrefix
  bound_mono hLe := Nat.mul_le_mul_left 6 hLe
  length_given := by
    intro c taken given marks hCompresses
    rcases (packed_of_compresses hCompresses).blocks with
      ⟨packed, rfl, -, hLength⟩
    rw [List.length_append] at hLength ⊢
    omega
  compress_within := by
    intro c taken given marks src flush room hCompresses _
    rcases exists_pack_eq src flush room
      (packed_of_compresses hCompresses).apart with
      ⟨n, q, hPack, hFits, -⟩
    simp only [storedCodec, hPack]
    exact ⟨hFits, List.length_take_le _ _⟩
  compress_advances := by
    intro c taken given marks src flush room hCompresses hRoom hSome
    rcases exists_pack_eq src flush room
      (packed_of_compresses hCompresses).apart with
      ⟨n, q, hPack, -, hAdvances, -⟩
    simp only [storedCodec, hPack, decide_eq_false_iff_not]
    rcases hAdvances hSome with hTaken | hReady
    · exact ⟨fun hStuck => absurd hStuck.1 (Nat.ne_of_gt hTaken),
        .inl hTaken⟩
    · refine ⟨fun hStuck => hReady hStuck.2, .inr fun hNone => ?_⟩
      rcases List.take_eq_nil_iff.mp hNone with hZero | hReady'
      · exact absurd hZero (Nat.ne_of_gt hRoom)
      · exact hReady hReady'
  compress_stuck := by
    intro c taken given marks src flush room hCompresses _ hStuck
    rcases exists_pack_eq src flush room
      (packed_of_compresses hCompresses).apart with
      ⟨n, q, hPack, -⟩
    simp only [storedCodec, hPack, decide_eq_true_eq] at hStuck ⊢
    rw [hStuck.2, List.take_nil]
  compress_complete := by
    intro c taken given marks src room hCompresses hRoom hAll hShort
    have hNext := packed_of_compresses
      (hCompresses.call src .sync hRoom)
    rcases exists_pack_eq src .sync room
      (packed_of_compresses hCompresses).apart with
      ⟨n, q, hPack, -, -, hHeld⟩
    simp only [storedCodec, hPack] at hNext hAll hShort ⊢
    rcases hNext.blocks with ⟨packed, hTaken, hRun, -⟩
    have hGiven : q.ready.drop room = [] := by
      rw [List.length_take] at hShort
      rw [List.drop_eq_nil_iff]
      omega
    simp only [hAll, List.take_length, hHeld rfl, List.append_nil]
      at hTaken
    simp only [hGiven, List.append_nil] at hRun
    rw [Stored.text, hRun, hTaken]
  decode_within := by
    intro d used gave src room _ _ _
    exact ⟨rfl, Nat.le_refl _, List.length_take_le _ _⟩
  decode_sound := by
    intro d used gave src room hDecodes _ hRoom
    have hRun := run_of_decodes (hDecodes.call src hRoom)
    rw [Stored.text, hRun]
    exact List.prefix_append _ _
  decode_advances := by
    intro d used gave src room _ _ _ hSome
    exact .inl (List.length_pos_iff.mpr hSome)
  decode_complete := by
    intro d used gave src room hDecodes _ hRoom hShort
    have hRun := run_of_decodes (hDecodes.call src hRoom)
    simp only [storedCodec, Unpacker.unpack] at hRun hShort ⊢
    rw [Stored.text, hRun]
    have hGiven :
        (Unpacker.ready d ++ ((Unpacker.scanner d).run src).2).drop
          room = [] := by
      rw [List.length_take] at hShort
      rw [List.drop_eq_nil_iff]
      omega
    simp only [hGiven, List.append_nil]
    exact List.prefix_refl _

end Parley
