import Parley.Proofs.Compression.Laws
/-
  This file says what is asked of a decoder for a stream that is
  read to be decoded rightly, wherever the stream is cut and
  whatever stands behind its end. Nothing is said about the
  format: one function gives the text that can be decoded from
  the first bytes of a stream, one property says which bytes are
  a whole stream.

  Key definitions include:
    * `Codec.Inflates`

  Key theorems include:
    * `Codec.Inflates.text_isPrefix`
    * `Codec.Inflates.text_eq`
-/

namespace Parley.Codec

variable {κ : Codec}

------------------------------------------------------------
-- The laws
------------------------------------------------------------

/-
  What a decoder promises that is given the first bytes of
  `whole ++ trailing`, where `whole` is a whole stream.

  What it gives depends on nothing but the bytes that it has
  used: it is a first part of their text, and all of it when a
  call gives nothing more. As long as the stream has not ended, a
  call with bytes to use either uses or gives some. It says that
  the stream has ended only when it has, and what stands behind
  its end adds nothing to the text.
-/
structure Inflates
    (κ : Codec)
    (text : Bytes → Bytes)
    (IsStream : Bytes → Prop) : Prop where
  text_mono :
    ∀ {whole encoded more},
      IsStream whole → more <+: whole → encoded <+: more →
      text encoded <+: text more
  text_trailing :
    ∀ {whole} (trailing),
      IsStream whole → text (whole ++ trailing) = text whole
  decode_within :
    ∀ {whole trailing d used gave src room},
      IsStream whole → used ++ src <+: whole ++ trailing →
      κ.Decodes d used gave → 0 < room →
      (κ.decode d src room).status ≠ .corrupt ∧
        (κ.decode d src room).consumed ≤ src.length ∧
        (κ.decode d src room).produced.length ≤ room
  decode_sound :
    ∀ {whole trailing d used gave src room},
      IsStream whole → used ++ src <+: whole ++ trailing →
      κ.Decodes d used gave → 0 < room →
      gave ++ (κ.decode d src room).produced <+:
        text (used ++
          src.take (κ.decode d src room).consumed)
  decode_complete :
    ∀ {whole trailing d used gave src room},
      IsStream whole → used ++ src <+: whole ++ trailing →
      κ.Decodes d used gave → 0 < room →
      (κ.decode d src room).produced = [] →
      text (used ++
          src.take (κ.decode d src room).consumed) <+:
        gave
  decode_advances :
    ∀ {whole trailing d used gave src room},
      IsStream whole → used ++ src <+: whole ++ trailing →
      κ.Decodes d used gave → 0 < room → src ≠ [] →
      (κ.decode d src room).status = .finished ∨
        0 < (κ.decode d src room).consumed ∨
        (κ.decode d src room).produced ≠ []
  decode_finished :
    ∀ {whole trailing d used gave src room},
      IsStream whole → used ++ src <+: whole ++ trailing →
      κ.Decodes d used gave → 0 < room →
      (κ.decode d src room).status = .finished →
      whole <+:
        used ++ src.take (κ.decode d src room).consumed

namespace Inflates

variable {text : Bytes → Bytes} {IsStream : Bytes → Prop}
variable {whole trailing encoded more : Bytes}

/- Behind its end, a stream has the text of the whole. -/
theorem text_eq
    (hInflates : κ.Inflates text IsStream)
    (hStream : IsStream whole)
    (hWhole : whole <+: more) :
    text more = text whole := by
  rcases hWhole with ⟨rest, rfl⟩
  exact hInflates.text_trailing rest hStream

/- More bytes have more text, also behind the end. -/
theorem text_isPrefix
    (hInflates : κ.Inflates text IsStream)
    (hStream : IsStream whole)
    (hMore : more <+: whole ++ trailing)
    (hEncoded : encoded <+: more) :
    text encoded <+: text more := by
  rcases List.prefix_or_prefix_of_prefix
    hMore (List.prefix_append whole trailing) with hInside | hWhole
  · exact hInflates.text_mono hStream hInside hEncoded
  · rw [hInflates.text_eq hStream hWhole]
    rcases List.prefix_or_prefix_of_prefix hEncoded hWhole with
      hInside | hBehind
    · exact hInflates.text_mono hStream (List.prefix_refl _) hInside
    · exact hInflates.text_eq hStream hBehind ▸ List.prefix_rfl

end Inflates

end Parley.Codec
