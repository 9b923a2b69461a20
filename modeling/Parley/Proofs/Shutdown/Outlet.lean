import Parley.Proofs.Compression.Streams
import Parley.Proofs.Outflow.Surrogate
import Parley.Proofs.Upgrade.Refusal
/-
  This file shows what a flush of a surrogate on a plain link
  comes to, with and without compression, if any of its sends
  may be cut short. It always comes to an end. Either everything
  that was written has gone out, or the stream has failed on the
  way; nothing is left in the surrogate itself in both cases.

  What a routine does in an environment that takes any part of
  every send carries over to every run in which others use the
  pipe as well.

  Key definitions include:
    * `Outflow.outlet`

  Key theorems include:
    * `Outflow.offers_of_yields`
    * `Outflow.yields_writeAll_outlet`
    * `Surrogate.yields_flush_parts`
    * `Surrogate.yields_flush_plain`
    * `Surrogate.yields_flush_coded`
-/

universe v

namespace Parley

namespace Outflow

open Routine Compression

variable {α β : Type} {gave : Bytes}

------------------------------------------------------------
-- An environment that takes what it likes
------------------------------------------------------------

/-
  A far side that keeps what it was given. It takes any first
  part of a send and fails behind that, or takes it whole; every
  other call it answers as it likes.
-/
def outlet : Environment endpointInterface Bytes where
  admits _ _ := True
  answers gave call :=
    match call with
    | .send src => fun r gave' =>
      r = .ok src.length ∧ gave' = gave ++ src ∨
        ∃ n ≤ src.length, ∃ e,
          r = .error ⟨n, e⟩ ∧ gave' = gave ++ src.take n
    | _ => fun _ gave' => gave' = gave

/- The first part of a routine that ends there as it should. -/
theorem offers_of_yields_bind
    {p : Routine endpointInterface α}
    {f : α → Routine endpointInterface β}
    {post : β → Bytes → Prop}
    (hYields : Yields outlet post (p.bind f) gave) :
    Offers (fun _ => True) p
      (fun a out => Yields outlet post (f a) out) gave := by
  induction p generalizing gave with
  | done a => exact hYields
  | ask call k ih =>
      have hGoesOn := hYields.of_ask.2
      cases call with
      | send src =>
          refine ⟨fun _ _ => trivial, ?_, ?_⟩
          · exact ih _ (hGoesOn _ _ (.inl ⟨rfl, rfl⟩))
          · intro n hFits e
            exact ih _
              (hGoesOn _ _ (.inr ⟨n, hFits, e, rfl, rfl⟩))
      | _ => exact fun a => ih a (hGoesOn a gave rfl)
  | loop body s k ihBody ih =>
      refine ⟨fun s out =>
        Yields outlet post
          (.loop body s fun b => (k b).bind f) out,
        hYields, fun s out hLoop => ?_⟩
      apply (ihBody s hLoop.unroll).mono
      rintro (s | b) out hNext
      · exact hNext
      · exact ih b hNext

/- What a routine gives there it gives in every run. -/
theorem offers_of_yields
    {p : Routine endpointInterface α}
    {post : α → Bytes → Prop}
    (hYields : Yields outlet post p gave) :
    Offers (fun _ => True) p post gave := by
  rw [← p.bind_done] at hYields
  apply (offers_of_yields_bind hYields).mono
  intro a out hEnd
  exact hEnd.post_of_done

/-
  Writing everything to a stream that passes it on ends, and if
  it succeeds, all of it has gone out.
-/
theorem yields_writeAll_outlet
    {τ : Type}
    [ByteStream endpointInterface τ]
    {t : τ}
    (hPlain : Plain t)
    (src gave : Bytes) :
    Yields outlet
      (fun (r, u) out =>
        u = t ∧
          (r = .ok () ∧ out = gave ++ src ∨ ∃ e, r = .error e))
      (ByteStream.writeAll t src) gave := by
  -- In every round the bytes that are left follow those given.
  apply yields_loop
    (fun rank (u : τ × Bytes) out =>
      u.1 = t ∧ rank = u.2.length ∧ out ++ u.2 = gave ++ src)
    src.length ⟨rfl, rfl, rfl⟩
  rintro rank ⟨u, rest⟩ out ⟨rfl, rfl, hWhole⟩
  simp only at hWhole ⊢
  split
  · next hNone =>
      rw [hNone, List.append_nil] at hWhole
      exact .done (.done ⟨rfl, .inl ⟨rfl, hWhole⟩⟩)
  · next hSome =>
      rw [hPlain.write]
      refine .ask trivial ?_
      -- What a write reports as taken is less than is left.
      have hTaken : ∀ n, 0 < n → n ≤ rest.length →
          (out ++ rest.take n) ++ rest.drop n = gave ++ src ∧
            (rest.drop n).length < rest.length := by
        intro n hMoved hFits
        rw [List.append_assoc, List.take_append_drop,
          List.length_drop]
        exact ⟨hWhole, by omega⟩
      rintro r out' (⟨rfl, rfl⟩ | ⟨n, hFits, e, rfl, rfl⟩)
      · have hMoved := List.length_pos_iff.mpr hSome
        have hNext := hTaken _ hMoved (Nat.le_refl _)
        rw [List.take_length] at hNext
        generalize rest.length = n at hMoved hNext ⊢
        cases n with
        | zero => cases hMoved
        | succ n => exact .done ⟨_, hNext.2, rfl, rfl, hNext.1⟩
      · show Yields _ _
          (Routine.bind (Routine.bind (if 0 < n then _ else _) _) _)
          _
        cases n with
        | zero => exact .done (.done ⟨rfl, .inr ⟨_, rfl⟩⟩)
        | succ n =>
            have hNext := hTaken _ n.succ_pos hFits
            exact .done ⟨_, hNext.2, rfl, rfl, hNext.1⟩

end Outflow

------------------------------------------------------------
-- Flushing a surrogate
------------------------------------------------------------

namespace Surrogate

open Routine Compression Outflow

variable {κ : Codec} {θ : Tls.Provider} {s : Surrogate κ θ}

/-
  A flush hands what was written to the layers and flushes them;
  a failure of either is the failure of the flush.
-/
theorem yields_flush_parts
    {W : Type v}
    {env : Environment endpointInterface W}
    (mid : Layer κ θ → W → Prop)
    {post : Except SurrogateError Unit × Surrogate κ θ → W → Prop}
    {w : W}
    (hOpen : s.closed = false)
    (hHanded :
      Yields env
        (fun (r, layer) w =>
          r = .ok () ∧ mid layer w ∨
            ∃ e, r = .error e ∧
              post
                (.error (.io e),
                  { s with layer := layer, unsent := [] }) w)
        (ByteStream.writeAll s.layer s.unsent) w)
    (hFlushed : ∀ layer w,
      mid layer w →
      Yields env
        (fun (r, layer) w =>
          post
            (r.mapError .io,
              { s with layer := layer, unsent := [] }) w)
        layer.flush w) :
    Yields env post s.flush w := by
  have hRest : ∀ layer w, mid layer w →
      Yields env post
        (onLayer { s with layer := layer, unsent := [] }
          layer.flush) w := by
    intro layer w hMid
    apply (hFlushed layer w hMid).bind
    rintro ⟨r, layer⟩ w hPost
    exact .done hPost
  rw [flush, if_neg (ne_true_of_eq_false hOpen)]
  simp only
  split
  · next hNone =>
      rw [hNone] at hHanded
      rcases hHanded.unroll.post_of_done with ⟨-, hMid⟩ | ⟨e, hFailed, -⟩
      · exact hRest s.layer w hMid
      · cases hFailed
  · rw [onLayer, ifOk, Routine.bind_assoc]
    apply hHanded.bind
    rintro ⟨r, layer⟩ w (⟨rfl, hMid⟩ | ⟨e, rfl, hPost⟩)
    · exact hRest layer w hMid
    · exact .done hPost

/- The link under plain layers passes every call on. -/
theorem plain_link :
    Plain (Link.plain : Link θ) :=
  ⟨fun _ => rfl, fun _ => rfl, rfl⟩

/- So do plain layers themselves. -/
theorem plain_layer :
    Plain (Layer.raw Link.plain : Layer κ θ) := by
  refine ⟨fun room => ?_, write_plain, rfl⟩
  change Routine.bind (Link.plain.read room) _ = _
  rw [Link.read, Routine.bind_assoc]
  rfl

/-
  A flush of a surrogate on a plain link without compression.
-/
theorem yields_flush_plain
    (hOpen : s.closed = false)
    (hLayer : s.layer = .raw .plain)
    (gave : Bytes) :
    Yields outlet
      (fun (r, s') out =>
        s' = { s with unsent := [] } ∧
          (r = .ok () ∧ out = gave ++ s.unsent ∨
            ∃ e, r = .error (.io e)))
      s.flush gave := by
  apply yields_flush_parts
    (fun layer out => layer = .raw .plain ∧ out = gave ++ s.unsent)
    hOpen
  · rw [hLayer]
    apply (yields_writeAll_outlet plain_layer s.unsent gave).mono
    rintro ⟨r, layer⟩ out ⟨rfl, ⟨rfl, rfl⟩ | ⟨e, rfl⟩⟩
    · exact .inl ⟨rfl, rfl, rfl⟩
    · exact .inr ⟨e, rfl, rfl, .inr ⟨e, rfl⟩⟩
  · rintro _ out ⟨rfl, rfl⟩
    refine .done ⟨?_, .inl ⟨rfl, rfl⟩⟩
    rw [← hLayer]

section

variable {level : Nat} {text : Bytes → Bytes} {bound : Nat → Nat}
variable {d : DeflateStream κ (Link θ)} {before sent : Bytes}

/- What is written to a compressed stream is all taken in. -/
theorem yields_writeAll_coded
    (hLawful : κ.Lawful level text bound)
    (hInner : d.inner = .plain)
    (hSending : Sending level d before sent)
    (src gave : Bytes) :
    Yields outlet
      (fun (r, layer) out => ∃ d',
        r = .ok () ∧ layer = .deflate d' ∧ d'.inner = .plain ∧
          Sending level d' (before ++ src) sent ∧ out = gave)
      (ByteStream.writeAll (Layer.deflate d) src) gave := by
  have hWrite : ∀ (layer : Layer κ θ) part out rest,
      (∃ d', layer = .deflate d' ∧ d'.inner = .plain ∧
        Sending level d' (before ++ part) sent ∧ out = gave) →
      part ++ rest = src → rest ≠ [] →
      Yields outlet
        (fun next out => ∃ n,
          next.1 = .ok n ∧ 0 < n ∧ n ≤ rest.length ∧
            ∃ d', next.2 = .deflate d' ∧ d'.inner = .plain ∧
              Sending level d' (before ++ (part ++ rest.take n))
                sent ∧
              out = gave)
        (ByteStream.write layer rest) out := by
    rintro _ part _ rest ⟨d, rfl, hInner, hSending, rfl⟩ - hSome
    apply (hLawful.yields_write_over hSending rest).bind
    rintro ⟨r, d'⟩ out ⟨rfl, rfl, hNext, hSame⟩
    refine .done ⟨rest.length, rfl, List.length_pos_iff.mpr hSome,
      Nat.le_refl _, d', rfl, ?_, ?_, rfl⟩
    · rw [hSame]
      exact hInner
    · rw [List.take_length, ← List.append_assoc]
      exact hNext
  apply (ByteStream.yields_writeAll
    (fun (layer : Layer κ θ) part out => ∃ d',
      layer = .deflate d' ∧ d'.inner = .plain ∧
        Sending level d' (before ++ part) sent ∧ out = gave)
    hWrite ⟨d, rfl, hInner, (List.append_nil before).symm ▸ hSending, rfl⟩
    (List.nil_append src)).mono
  rintro ⟨r, layer⟩ out ⟨rfl, d', hEnd⟩
  exact ⟨d', rfl, hEnd⟩

/-
  A flush of a compressed stream makes everything written to it
  decodable; if it fails, what it was to send is kept.
-/
theorem yields_flush_stream
    (hLawful : κ.Lawful level text bound)
    (hInner : d.inner = .plain)
    (hSending : Sending level d before sent)
    (gave : Bytes) :
    Yields outlet
      (fun (r, d') out =>
        d'.inner = .plain ∧
          ((∃ more,
            r = .ok () ∧ out = gave ++ more ∧
              Sending level d' before (sent ++ more) ∧
              text (sent ++ more) = before) ∨
          (∃ e, r = .error e) ∧ Sending level d' before sent))
      d.flush gave := by
  have hProduce := hLawful.yields_produce outlet .sync gave
    (by rw [hSending.waiting_eq, List.append_nil])
    hSending.compresses fun _ => hSending.waiting_eq
  apply hProduce.bind
  rintro d' out ⟨rfl, hNext, hText, hSame⟩
  replace hText := hText rfl
  have hInner' : d'.inner = .plain := by
    rw [hSame]
    exact hInner
  have hSent : ∀ link : Link θ, Sending level
      { d' with inner := link, output := [] } before
      (sent ++ d'.output) := by
    refine fun link => ⟨hNext.waiting_eq, ?_⟩
    rw [List.append_nil]
    exact hNext.compresses
  split
  · next hNone =>
      simp only [hInner', done_bind]
      rw [hNone, List.append_nil] at hText
      refine .done ⟨rfl, .inl ⟨[], rfl, ?_, ?_, ?_⟩⟩
      · exact (List.append_nil out).symm
      · rw [hNone] at hSent
        exact hSent _
      · rw [List.append_nil]
        exact hText
  · rw [hInner']
    apply (yields_writeAll_outlet plain_link d'.output out).bind
    rintro ⟨r, link⟩ out' ⟨rfl, ⟨rfl, rfl⟩ | ⟨e, rfl⟩⟩
    · exact .done ⟨rfl, .inl ⟨d'.output, rfl, rfl, hSent _, hText⟩⟩
    · exact .done ⟨rfl, .inr ⟨⟨e, rfl⟩, hNext.waiting_eq,
        hNext.compresses⟩⟩

/-
  A flush of a surrogate that compresses on a plain link.
-/
theorem yields_flush_coded
    (hOpen : s.closed = false)
    (hLayer : s.layer = .deflate d)
    (hLawful : κ.Lawful level text bound)
    (hInner : d.inner = .plain)
    (hSending : Sending level d before sent)
    (gave : Bytes) :
    Yields outlet
      (fun (r, s') out => ∃ d',
        s' = { s with layer := .deflate d', unsent := [] } ∧
          d'.inner = .plain ∧
          ((∃ more,
            r = .ok () ∧ out = gave ++ more ∧
              Sending level d' (before ++ s.unsent)
                (sent ++ more) ∧
              text (sent ++ more) = before ++ s.unsent) ∨
          (∃ e, r = .error (.io e)) ∧
            Sending level d' (before ++ s.unsent) sent))
      s.flush gave := by
  apply yields_flush_parts
    (fun layer out => ∃ d',
      layer = .deflate d' ∧ d'.inner = .plain ∧
        Sending level d' (before ++ s.unsent) sent ∧ out = gave)
    hOpen
  · rw [hLayer]
    apply (yields_writeAll_coded hLawful hInner hSending s.unsent
      gave).mono
    rintro ⟨r, layer⟩ out ⟨d', rfl, hHanded⟩
    exact .inl ⟨rfl, d', hHanded⟩
  · rintro _ out ⟨d', rfl, hInner', hHanded, hSame⟩
    subst hSame
    apply (yields_flush_stream hLawful hInner' hHanded out).bind
    rintro ⟨r, last⟩ out
      ⟨hLast, ⟨more, rfl, rfl, hNext, hText⟩ | ⟨⟨e, rfl⟩, hNext⟩⟩
    · exact .done ⟨last, rfl, hLast,
        .inl ⟨more, rfl, rfl, hNext, hText⟩⟩
    · exact .done ⟨last, rfl, hLast, .inr ⟨⟨e, rfl⟩, hNext⟩⟩

end

end Surrogate

end Parley
