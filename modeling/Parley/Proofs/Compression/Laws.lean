import Parley.Codec
/-
  This file says what is asked of a codec for compressed
  transport to be right. Nothing is said about the format; a
  function gives the text that can be decoded from encoded
  bytes, and the laws tie both directions of the codec to it.

  Key definitions include:
    * `Codec.Compresses`
    * `Codec.Emits`
    * `Codec.Decodes`
    * `Codec.Lawful`
-/

namespace Parley

/- How many marks a call puts behind what it gives. -/
def Flush.marks : Flush → Nat
  | .none => 0
  | .sync => 1

namespace Codec

variable {κ : Codec} {level : Nat}

------------------------------------------------------------
-- What a codec has been used for
------------------------------------------------------------

/-
  A compressor of a level after some calls with room: the bytes
  that it has taken in, those that it gave, and how many marks
  it was asked for.
-/
inductive Compresses
    (κ : Codec)
    (level : Nat) : κ.Compressor → Bytes → Bytes → Nat → Prop where
  | new : Compresses κ level (κ.compressor level) [] [] 0
  | call
      {c : κ.Compressor}
      {taken given : Bytes}
      {marks : Nat}
      (hCompresses : Compresses κ level c taken given marks)
      (src : Bytes)
      (flush : Flush)
      {room : Nat}
      (hRoom : 0 < room) :
      Compresses κ level
        (κ.compress c src flush room).encoder
        (taken ++
          src.take (κ.compress c src flush room).consumed)
        (given ++ (κ.compress c src flush room).produced)
        (marks + flush.marks)

/- Bytes with which some compressor of a level may begin. -/
def Emits
    (κ : Codec)
    (level : Nat)
    (encoded : Bytes) : Prop :=
  ∃ c taken given marks,
    κ.Compresses level c taken given marks ∧ encoded <+: given

/-
  A decoder after some calls with room: the bytes that it has
  used, and those that it gave.
-/
inductive Decodes
    (κ : Codec) : κ.Decoder → Bytes → Bytes → Prop where
  | new : Decodes κ κ.decoder [] []
  | call
      {d : κ.Decoder}
      {used gave : Bytes}
      (hDecodes : Decodes κ d used gave)
      (src : Bytes)
      {room : Nat}
      (hRoom : 0 < room) :
      Decodes κ
        (κ.decode d src room).decoder
        (used ++ src.take (κ.decode d src room).consumed)
        (gave ++ (κ.decode d src room).produced)

/- A first part of what may be emitted may be emitted. -/
theorem Emits.of_isPrefix
    {encoded more : Bytes}
    (hEmits : κ.Emits level more)
    (hPrefix : encoded <+: more) :
    κ.Emits level encoded := by
  rcases hEmits with ⟨c, taken, given, marks, hCompresses, hMore⟩
  exact ⟨c, taken, given, marks, hCompresses, hPrefix.trans hMore⟩

------------------------------------------------------------
-- The laws
------------------------------------------------------------

/- The room that a mark needs at most. -/
def markSize : Nat :=
  6

/-
  What a codec promises of a level, where `text` is what can be
  decoded from encoded bytes and `bound` how many bytes so many
  are compressed to at most, not counting marks.

  A compressor with room does something as long as there are
  bytes to take in. If it took in everything for a flush and
  leaves some of its room, everything can be decoded from what
  it gave.

  What a decoder gives depends on nothing but the bytes that it
  has used. It goes on as long as there are bytes to use, and if
  it leaves some of its room it gave all that can be decoded.
-/
structure Lawful
    (κ : Codec)
    (level : Nat)
    (text : Bytes → Bytes)
    (bound : Nat → Nat) : Prop where
  text_nil : text [] = []
  text_mono :
    ∀ {encoded more},
      κ.Emits level more → encoded <+: more →
      text encoded <+: text more
  bound_mono :
    ∀ {m n}, m ≤ n → bound m ≤ bound n
  length_given :
    ∀ {c taken given marks},
      κ.Compresses level c taken given marks →
      given.length ≤ bound taken.length + markSize * marks
  compress_within :
    ∀ {c taken given marks} (src flush) {room},
      κ.Compresses level c taken given marks → 0 < room →
      (κ.compress c src flush room).consumed ≤ src.length ∧
        (κ.compress c src flush room).produced.length ≤ room
  compress_advances :
    ∀ {c taken given marks} (src flush) {room},
      κ.Compresses level c taken given marks → 0 < room →
      src ≠ [] →
      (κ.compress c src flush room).stuck = false ∧
        (0 < (κ.compress c src flush room).consumed ∨
          (κ.compress c src flush room).produced ≠ [])
  compress_stuck :
    ∀ {c taken given marks} (src flush) {room},
      κ.Compresses level c taken given marks → 0 < room →
      (κ.compress c src flush room).stuck = true →
      (κ.compress c src flush room).produced = []
  compress_complete :
    ∀ {c taken given marks} (src) {room},
      κ.Compresses level c taken given marks → 0 < room →
      (κ.compress c src .sync room).consumed = src.length →
      (κ.compress c src .sync room).produced.length < room →
      text (given ++ (κ.compress c src .sync room).produced) =
        taken ++ src
  decode_within :
    ∀ {d used gave src room},
      κ.Decodes d used gave → κ.Emits level (used ++ src) →
      0 < room →
      (κ.decode d src room).status = .more ∧
        (κ.decode d src room).consumed ≤ src.length ∧
        (κ.decode d src room).produced.length ≤ room
  decode_sound :
    ∀ {d used gave src room},
      κ.Decodes d used gave → κ.Emits level (used ++ src) →
      0 < room →
      gave ++ (κ.decode d src room).produced <+:
        text (used ++
          src.take (κ.decode d src room).consumed)
  decode_advances :
    ∀ {d used gave src room},
      κ.Decodes d used gave → κ.Emits level (used ++ src) →
      0 < room → src ≠ [] →
      0 < (κ.decode d src room).consumed ∨
        (κ.decode d src room).produced ≠ []
  decode_complete :
    ∀ {d used gave src room},
      κ.Decodes d used gave → κ.Emits level (used ++ src) →
      0 < room →
      (κ.decode d src room).produced.length < room →
      text (used ++
          src.take (κ.decode d src room).consumed) <+:
        gave ++ (κ.decode d src room).produced

end Codec

end Parley
