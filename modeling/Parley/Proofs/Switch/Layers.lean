import Parley.Proofs.Compression.Streams
import Parley.Proofs.Dialogue.Terms
import Parley.Proofs.Transcript.Delivery
/-
  This file gives the terms on which two parties begin to
  compress in the middle of a conversation. What each of them
  says are plain bytes first, and then a text that it encodes,
  once it has heard enough of the other.

  It then follows the layers of one of them, before and after,
  through a read, a write and a flush. A party that reads before
  it compresses must not come upon encoded bytes: either the
  other party cannot have begun, or the party asks for no more
  than plain bytes are still to come.

  Key definitions include:
    * `Switch.Hears`
    * `Switch.Speaks`
    * `Switch.Speech`
    * `Switch.Pact`
    * `Switch.Pact.terms`
    * `Switch.Pact.Uncoded`
    * `Switch.Pact.Coded`

  Key theorems include:
    * `Switch.Speaks.yields_writeAll`
    * `Switch.Pact.hears_uncoded`
    * `Switch.Pact.speaks_uncoded`
    * `Switch.Pact.hears_coded`
    * `Switch.Pact.speaks_coded`
-/

universe v

namespace Parley

namespace Switch

open Routine Dialogue Compression

variable {κ : Codec} {θ : Tls.Provider}

------------------------------------------------------------
-- Layers to hear and to speak through
------------------------------------------------------------

section

variable {W : Type v} {env : Environment endpointInterface W}
variable {stands : Layer κ θ → Bytes → Bytes → W → Prop}

/-
  Layers of which `stands` says which bytes were written to them
  and which they are still to deliver: a read gives some of the
  latter, as long as it is `quiet` for so much room.
-/
def Hears
    (env : Environment endpointInterface W)
    (stands : Layer κ θ → Bytes → Bytes → W → Prop)
    (quiet : Bytes → Nat → Bytes → Prop) : Prop :=
  ∀ layer said coming w room,
    stands layer said coming w →
    0 < room →
    quiet said room coming →
    Yields env
      (fun (r, layer) w => ∃ chunk rest,
        r = .ok chunk ∧ chunk ≠ [] ∧ chunk.length ≤ room ∧
          coming = chunk ++ rest ∧ stands layer said rest w)
      (layer.read room) w

/-
  Such layers take whatever is written to them, and send it when
  they are flushed, as long as it is a first part of `whole`.
-/
structure Speaks
    (env : Environment endpointInterface W)
    (stands : Layer κ θ → Bytes → Bytes → W → Prop)
    (whole : Bytes) : Prop where
  write :
    ∀ {layer said coming w src},
      stands layer said coming w →
      said ++ src <+: whole →
      src ≠ [] →
      Yields env
        (fun (r, layer) w =>
          r = .ok src.length ∧
            stands layer (said ++ src) coming w)
        (layer.write src) w
  flush :
    ∀ {layer said coming w},
      stands layer said coming w →
      said <+: whole →
      Yields env
        (fun (r, layer) w =>
          r = .ok () ∧ stands layer said coming w)
        layer.flush w

/-
  Layers that hear however much room there is deliver, and are
  not read behind the end of what they deliver.
-/
theorem Hears.delivers
    {quiet : Bytes → Nat → Bytes → Prop}
    {said : Bytes}
    {room : Nat}
    (hHears : Hears env stands quiet)
    (hRoom : 0 < room)
    (hQuiet : ∀ coming, quiet said room coming) :
    Transcript.Delivers env
      (fun layer coming _ w => stands layer said coming w)
      (fun _ => False) False room := by
  intro layer coming _ w hStands _
  apply (hHears layer said coming w room hStands hRoom
    (hQuiet coming)).mono
  rintro ⟨r, layer⟩ w
    ⟨chunk, rest, rfl, hSome, hFits, rfl, hNext⟩
  exact ⟨rest, .given hFits fun hNone => absurd hNone hSome, hNext⟩

/- All bytes are written in one go. -/
theorem Speaks.yields_writeAll
    {whole said coming src : Bytes}
    {layer : Layer κ θ}
    {w : W}
    (hSpeaks : Speaks env stands whole)
    (hStands : stands layer said coming w)
    (hWhole : said ++ src <+: whole) :
    Yields env
      (fun (r, layer) w =>
        r = .ok () ∧ stands layer (said ++ src) coming w)
      (ByteStream.writeAll layer src) w := by
  have hWrite : ∀ layer before w rest,
      stands layer (said ++ before) coming w →
      before ++ rest = src →
      rest ≠ [] →
      Yields env
        (fun next w => ∃ n,
          next.1 = .ok n ∧ 0 < n ∧ n ≤ rest.length ∧
            stands next.2 (said ++ (before ++ rest.take n))
              coming w)
        (ByteStream.write layer rest) w := by
    rintro layer before w rest hStands rfl hSome
    rw [← List.append_assoc] at hWhole
    apply (hSpeaks.write hStands hWhole hSome).mono
    rintro ⟨r, layer⟩ w ⟨rfl, hNext⟩
    refine ⟨rest.length, rfl, List.length_pos_iff.mpr hSome,
      Nat.le_refl _, ?_⟩
    rw [List.take_length, ← List.append_assoc]
    exact hNext
  apply ByteStream.yields_writeAll
    (fun layer before w => stands layer (said ++ before) coming w)
    hWrite _ (List.nil_append src)
  rw [List.append_nil]
  exact hStands

end

------------------------------------------------------------
-- Terms to begin compressing
------------------------------------------------------------

/-
  What one party says in all: plain bytes, and then a text that
  it encodes with a codec that keeps its laws.
-/
structure Speech (κ : Codec) where
  plain : Bytes
  coded : Bytes
  level : Nat
  text : Bytes → Bytes
  bound : Nat → Nat
  lawful : κ.Lawful level text bound

/- Encoded bytes of which no more than the text can be decoded. -/
structure Speech.Encodes
    (speech : Speech κ)
    (encoded : Bytes) : Prop where
  emits : κ.Emits speech.level encoded
  text_isPrefix : speech.text encoded <+: speech.coded

namespace Speech

theorem encodes_nil
    (speech : Speech κ) :
    speech.Encodes [] := by
  refine ⟨⟨_, _, _, _, .new, List.prefix_rfl⟩, ?_⟩
  rw [speech.lawful.text_nil]
  exact List.nil_prefix

/- A first part of such bytes is such a first part as well. -/
theorem Encodes.of_isPrefix
    {speech : Speech κ}
    {encoded more : Bytes}
    (hEncodes : speech.Encodes more)
    (hPrefix : encoded <+: more) :
    speech.Encodes encoded :=
  ⟨hEncodes.emits.of_isPrefix hPrefix,
    (speech.lawful.text_mono hEncodes.emits hPrefix).trans
      hEncodes.text_isPrefix⟩

end Speech

/-
  What two parties agree on: their speeches, and what each must
  have heard of the other before it may begin to encode.
-/
structure Pact (κ : Codec) where
  speech : Role → Speech κ
  ready : Role → Bytes → Prop
  ready_of_heard :
    ∀ {r heard more},
      heard <+: more → ready r heard → ready r more

namespace Pact

variable {pact : Pact κ} {r : Role}

/- A party has said plain bytes only, or it was ready for more. -/
def May
    (pact : Pact κ)
    (r : Role)
    (heard said : Bytes) : Prop :=
  said <+: (pact.speech r).plain ∨
    pact.ready r heard ∧
      ∃ encoded,
        said = (pact.speech r).plain ++ encoded ∧
          (pact.speech r).Encodes encoded

/- The terms that such a pact comes to. -/
def terms
    (pact : Pact κ) : Terms where
  may := pact.May
  may_nil _ := .inl List.nil_prefix
  may_of_heard := by
    rintro r heard more said hHeard (hPlain | ⟨hReady, hCoded⟩)
    · exact .inl hPlain
    · exact .inr ⟨pact.ready_of_heard hHeard hReady, hCoded⟩
  may_of_said := by
    rintro r heard said more hSaid
      (hPlain | ⟨hReady, encoded, rfl, hEncodes⟩)
    · exact .inl (hSaid.trans hPlain)
    · rcases List.prefix_or_prefix_of_prefix hSaid
        (List.prefix_append _ encoded) with hPlain | ⟨first, rfl⟩
      · exact .inl hPlain
      · rw [List.prefix_append_right_inj] at hSaid
        exact .inr
          ⟨hReady, first, rfl, hEncodes.of_isPrefix hSaid⟩

/-
  A party that is not ready has said plain bytes only, and so
  has one that has said no more bytes than that.
-/
theorem May.plain
    {heard said : Bytes}
    (hMay : pact.May r heard said)
    (hNot :
      ¬ pact.ready r heard ∨
        said.length ≤ (pact.speech r).plain.length) :
    said <+: (pact.speech r).plain := by
  rcases hMay with hPlain | ⟨hReady, encoded, rfl, -⟩
  · exact hPlain
  · have hNone : encoded = [] := by
      rcases hNot with hNot | hShort
      · exact absurd hReady hNot
      · rw [List.length_append] at hShort
        exact List.eq_nil_of_length_eq_zero (by omega)
    simp only [hNone, List.append_nil, List.prefix_rfl]

/- What a party says behind its plain bytes is encoded. -/
theorem May.encodes
    {heard encoded : Bytes}
    (hMay :
      pact.May r heard ((pact.speech r).plain ++ encoded)) :
    (pact.speech r).Encodes encoded := by
  rcases hMay with hPlain | ⟨-, other, hSame, hEncodes⟩
  · have hNone : encoded = [] := by
      have hLength := hPlain.length_le
      rw [List.length_append] at hLength
      exact List.eq_nil_of_length_eq_zero (by omega)
    rw [hNone]
    exact (pact.speech r).encodes_nil
  · rw [List.append_cancel_left hSame]
    exact hEncodes

------------------------------------------------------------
-- Before it compresses
------------------------------------------------------------

/-
  The layers of a party before it compresses: it said `said`,
  and `coming` is the rest of the other's plain bytes.
-/
structure Uncoded
    (pact : Pact κ)
    (r : Role)
    (layer : Layer κ θ)
    (said coming : Bytes)
    (w : Bytes × Bytes) : Prop where
  layer_eq : layer = .raw .plain
  gave_eq : w.2 = said
  got_append : w.1 ++ coming = (pact.speech r.other).plain

/-
  It is quiet if what the party said does not make the other
  ready, or if there is no room for more than plain bytes.
-/
theorem hears_uncoded
    (pact : Pact κ)
    (limit : Nat)
    (r : Role) :
    Hears (pact.terms.honouring limit r)
      (pact.Uncoded (θ := θ) r)
      fun said room coming =>
        ¬ pact.ready r.other said ∨ room ≤ coming.length := by
  rintro _ _ coming ⟨got, said⟩ room ⟨rfl, rfl, hGot⟩ hRoom hQuiet
  change got ++ coming = (pact.speech r.other).plain at hGot
  refine .ask hRoom ?_
  rintro _ _ ⟨more, rfl, hSome, hFits, hMay, -, rfl⟩
  have hPlain : got ++ more <+: (pact.speech r.other).plain := by
    apply May.plain hMay
    refine hQuiet.imp_right fun hRoom => ?_
    have hLength := congrArg List.length hGot
    rw [List.length_append] at hLength
    show (got ++ more).length ≤ _
    rw [List.length_append]
    omega
  rw [← hGot, List.prefix_append_right_inj] at hPlain
  rcases hPlain with ⟨rest, rfl⟩
  refine .done ⟨more, rest, rfl, hSome, hFits, rfl, rfl, rfl, ?_⟩
  rw [← hGot, List.append_assoc]

/- What is written goes out at once. -/
theorem speaks_uncoded
    (pact : Pact κ)
    (limit : Nat)
    (r : Role) :
    Speaks (pact.terms.honouring limit r)
      (pact.Uncoded (θ := θ) r)
      (pact.speech r).plain where
  write := by
    rintro _ _ coming ⟨got, said⟩ src ⟨rfl, rfl, hGot⟩ hWhole -
    refine .ask (.inl hWhole) ?_
    rintro _ _ ⟨rfl, rfl⟩
    exact .done ⟨rfl, rfl, rfl, hGot⟩
  flush := by
    rintro _ said coming w ⟨rfl, hGave, hGot⟩ -
    exact .done ⟨rfl, rfl, hGave, hGot⟩

------------------------------------------------------------
-- Once it compresses
------------------------------------------------------------

/-
  The stream of a party that compresses: `said` was written to
  it, and it is still to deliver `coming`, which is the rest of
  the other's text.
-/
structure Streams
    (pact : Pact κ)
    (r : Role)
    (d : DeflateStream κ (Link θ))
    (said coming : Bytes)
    (w : Bytes × Bytes) : Prop where
  inner_eq : d.inner = .plain
  sending :
    ∃ sent,
      w.2 = (pact.speech r).plain ++ sent ∧
        Sending (pact.speech r).level d said sent
  receiving :
    ∃ received gave,
      w.1 = (pact.speech r.other).plain ++ received ∧
        (pact.speech r.other).Encodes received ∧
        gave <+: (pact.speech r.other).text received ∧
        Receiving d received gave ∧
        gave ++ coming = (pact.speech r.other).coded

/-
  The layers of a party that compresses, where `held` says what
  it is known to have heard.
-/
def Coded
    (pact : Pact κ)
    (r : Role)
    (held : Bytes → Prop)
    (layer : Layer κ θ)
    (said coming : Bytes)
    (w : Bytes × Bytes) : Prop :=
  held w.1 ∧
    ∃ d, layer = .deflate d ∧ pact.Streams r d said coming w

theorem plain_link :
    Plain (Link.plain : Link θ) :=
  ⟨fun _ => rfl, fun _ => rfl, rfl⟩

/- Right after the switch nothing was written or delivered. -/
theorem coded_new
    {level : Nat}
    {w : Bytes × Bytes}
    (held : Bytes → Prop)
    (hHeld : held w.1)
    (hLevel : (pact.speech r).level = min level Layer.highestLevel)
    (hGot : w.1 = (pact.speech r.other).plain)
    (hGave : w.2 = (pact.speech r).plain) :
    pact.Coded (θ := θ) r held (Layer.compress .plain level) []
      (pact.speech r.other).coded w := by
  refine ⟨hHeld, _, rfl, rfl, ⟨[], ?_, rfl, 0, ?_⟩,
    [], [], ?_, (pact.speech r.other).encodes_nil, List.nil_prefix,
    ⟨[], .new, rfl⟩, rfl⟩
  · rw [hGave, List.append_nil]
  · rw [hLevel]
    exact .new
  · rw [hGot, List.append_nil]

/- If some of the text was given, some of it was heard. -/
theorem Coded.length_lt
    {held : Bytes → Prop}
    {layer : Layer κ θ}
    {said coming : Bytes}
    {w : Bytes × Bytes}
    (hCoded : pact.Coded r held layer said coming w)
    (hShort :
      coming.length < (pact.speech r.other).coded.length) :
    (pact.speech r.other).plain.length < w.1.length := by
  rcases hCoded with ⟨-, d, -, -, -, received, gave, hGot, -, hSound,
    -, hText⟩
  have hSome : received ≠ [] := by
    rintro rfl
    rw [(pact.speech r.other).lawful.text_nil, List.prefix_nil]
      at hSound
    rw [hSound, List.nil_append] at hText
    rw [hText] at hShort
    exact Nat.lt_irrefl _ hShort
  rw [← List.length_pos_iff] at hSome
  rw [hGot, List.length_append]
  omega

/- What is known to have been heard may be put to account. -/
theorem Coded.hold
    {held held' : Bytes → Prop}
    {layer : Layer κ θ}
    {said coming : Bytes}
    {w : Bytes × Bytes}
    (hCoded : pact.Coded r held layer said coming w)
    (hHeld : held' w.1) :
    pact.Coded r held' layer said coming w :=
  ⟨hHeld, hCoded.2⟩

/- A read gives some of the text that is still to come. -/
theorem hears_coded
    {held : Bytes → Prop}
    (pact : Pact κ)
    (limit : Nat)
    (r : Role)
    (hMore : ∀ {heard more}, heard <+: more → held heard → held more) :
    Hears (pact.terms.honouring limit r)
      (pact.Coded (θ := θ) r held)
      fun _ _ _ => True := by
  rintro _ said coming w room ⟨hHeld, d, rfl, hStreams⟩ hRoom -
  rcases hStreams with
    ⟨hInner, ⟨sent, hGave, hSending⟩, received, gave, hGot,
      hEncodes, -, hReceiving, hText⟩
  have hPlain : Plain d.inner := by
    rw [hInner]
    exact plain_link
  have hRead := (pact.speech r.other).lawful.yields_read_over
    hPlain hReceiving hEncodes.emits hRoom
    (Nat.le_max_right limit received.length)
  have hAlong := hRead.along (pact.terms.honouring limit r)
    (fun now received =>
      now = ((pact.speech r.other).plain ++ received, w.2) ∧
        (pact.speech r.other).Encodes received ∧ held now.1)
    ?_ ?_ ⟨Prod.ext hGot rfl, hEncodes, hHeld⟩
  · apply hAlong.bind
    rintro ⟨_, d'⟩ now ⟨received', ⟨rfl, hEncodes, hHeld⟩, chunk, rfl,
      hSome, hFits, hChunk, hReceiving, hSame⟩
    have hComing : gave ++ chunk <+: gave ++ coming := by
      rw [hText]
      exact hChunk.trans hEncodes.text_isPrefix
    rw [List.prefix_append_right_inj] at hComing
    rcases hComing with ⟨rest, rfl⟩
    refine .done ⟨chunk, rest, rfl, hSome, hFits, rfl, hHeld, d', rfl,
      ?_, ⟨sent, hGave, ?_⟩, received', gave ++ chunk, rfl, hEncodes,
      hChunk, hReceiving, ?_⟩
    · rw [hSame]
      exact hInner
    · rw [hSame]
      exact ⟨hSending.waiting_eq, hSending.compresses⟩
    · rw [← hText, List.append_assoc]
  · rintro _ received call - hAsked
    cases call with
    | recv room => exact hAsked.1
    | _ => exact hAsked.elim
  · rintro _ received call answer _ ⟨rfl, -, hHeld⟩ hAsked hAnswer
    cases call with
    | recv room =>
        rcases hAnswer with
          ⟨more, rfl, hSome, hFits, hMay, hLimit, rfl⟩
        rw [List.append_assoc] at hMay hLimit
        have hEncodes := May.encodes hMay
        rw [List.length_append] at hLimit
        refine ⟨received ++ more,
          ⟨more, rfl, hSome, hFits, rfl, hEncodes.emits, ?_⟩, ?_,
          hEncodes, hMore (List.prefix_append _ _) hHeld⟩
        · omega
        · rw [List.append_assoc]
    | _ => exact hAsked.elim

/-
  What is written is taken in and encoded, and a flush sends it,
  if the party is ready.
-/
theorem speaks_coded
    {held : Bytes → Prop}
    (pact : Pact κ)
    (limit : Nat)
    (r : Role)
    (hReady : ∀ heard, held heard → pact.ready r heard) :
    Speaks (pact.terms.honouring limit r)
      (pact.Coded (θ := θ) r held)
      (pact.speech r).coded where
  write := by
    rintro _ said coming w src ⟨hHeld, d, rfl, hStreams⟩ hWhole -
    rcases hStreams with
      ⟨hInner, ⟨sent, hGave, hSending⟩, received, gave, hGot,
        hEncodes, hSound, hReceiving, hText⟩
    apply ((pact.speech r).lawful.yields_write_over hSending
      src).bind
    rintro ⟨_, d'⟩ _ ⟨rfl, rfl, hSending, hSame⟩
    refine .done ⟨rfl, hHeld, d', rfl, ?_, ⟨sent, hGave, hSending⟩,
      received, gave, hGot, hEncodes, hSound, ?_, hText⟩
    · rw [hSame]
      exact hInner
    · rw [hSame]
      exact ⟨hReceiving.decodes⟩
  flush := by
    rintro _ said coming ⟨heard, _⟩ ⟨hHeld, d, rfl, hStreams⟩ hWhole
    rcases hStreams with
      ⟨hInner, ⟨sent, rfl, hSending⟩, received, gave, hGot,
        hEncodes, hSound, hReceiving, hText⟩
    have hPlain : Plain d.inner := by
      rw [hInner]
      exact plain_link
    have hFlush := (pact.speech r).lawful.yields_flush_over
      hPlain hSending
    have hAlong := hFlush.along (pact.terms.honouring limit r)
      (fun now sent =>
        now = (heard, (pact.speech r).plain ++ sent))
      ?_ ?_ rfl
    · apply hAlong.bind
      rintro ⟨_, d'⟩ now
        ⟨sent', rfl, rfl, hSending, -, hSame⟩
      refine .done ⟨rfl, hHeld, d', rfl, ?_, ⟨sent', rfl, hSending⟩,
        received, gave, hGot, hEncodes, hSound, ?_, hText⟩
      · rw [hSame]
        exact hInner
      · rw [hSame]
        exact ⟨hReceiving.decodes⟩
    · rintro _ sent call rfl hAsked
      cases call with
      | send src =>
          rcases hAsked with
            ⟨-, c, given, marks, hCompresses, hAll, hDue⟩
          have hGiven : (pact.speech r).Encodes given := by
            refine ⟨⟨c, _, given, marks, hCompresses,
              List.prefix_rfl⟩, ?_⟩
            rw [hAll]
            exact hWhole
          refine .inr ⟨hReady _ hHeld, sent ++ src, ?_,
            hGiven.of_isPrefix hDue⟩
          exact List.append_assoc _ _ _
      | _ => exact hAsked.elim
    · rintro _ sent call answer _ rfl hAsked hAnswer
      cases call with
      | send src =>
          rcases hAnswer with ⟨rfl, rfl⟩
          refine ⟨sent ++ src, ⟨src.length,
            ⟨List.length_pos_iff.mpr hAsked.1, Nat.le_refl _,
              .inl ⟨rfl, rfl⟩⟩, ?_⟩, ?_⟩
          · rw [List.take_length]
          · rw [List.append_assoc]
      | _ => exact hAsked.elim

end Pact

end Switch

end Parley
