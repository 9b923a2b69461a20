import Parley.Proofs.Traffic.Parts
/-
  This file follows what a routine gives to a pipe when any of
  its sends may be cut short. A send may stop after any number
  of its bytes, for whatever reason, and every other call may
  be answered in any way; the routine must then still keep
  what it gave to a given property, and end as it should.

  The property is a weakest precondition by recursion on the
  routine. It is true of a routine by itself; a run lemma
  carries it to every order in which the routine and any number
  of clients at the far end use a pipe.

  Key definitions include:
    * `Outflow.Adds`
    * `Outflow.Offers`
    * `Outflow.UnderWay`
    * `Outflow.seat`
    * `Outflow.routines`

  Key theorems include:
    * `Outflow.offers_bind`
    * `Outflow.Offers.unroll`
    * `Outflow.offers_write`
    * `Outflow.offers_read`
    * `Outflow.offers_writeAll`
    * `Outflow.UnderWay.visit`
    * `Outflow.offers_of_run_from`
    * `Outflow.given_of_run_from`
-/

namespace Parley

namespace Outflow

open Traffic

------------------------------------------------------------
-- Calls that may be cut short
------------------------------------------------------------

/-
  A call by one that gave `gave` so far. However much of a send
  is accepted, what was given then is as it should `always` be,
  and the routine is prepared for being told so. The answer to
  another call may be any.
-/
def Adds
    (always : Bytes → Prop)
    (call : Call)
    (gave : Bytes)
    (next : call.Answer → Bytes → Prop) : Prop :=
  match call with
  | .send src =>
    (∀ n ≤ src.length, always (gave ++ src.take n)) ∧
    next (.ok src.length) (gave ++ src) ∧
    ∀ n ≤ src.length, ∀ e,
      next (.error ⟨n, e⟩) (gave ++ src.take n)
  | _ => ∀ a, next a gave

/- What is given does not depend on how it is gone on. -/
theorem Adds.mono
    {always : Bytes → Prop}
    {call : Call}
    {gave : Bytes}
    {next next' : call.Answer → Bytes → Prop}
    (hNext : ∀ a gave, next a gave → next' a gave)
    (hAdds : Adds always call gave next) :
    Adds always call gave next' := by
  cases call with
  | send src =>
      rcases hAdds with ⟨hAlways, hSent, hShort⟩
      refine ⟨hAlways, hNext _ _ hSent, ?_⟩
      intro n hFits e
      exact hNext _ _ (hShort n hFits e)
  | _ =>
      intro a
      exact hNext a _ (hAdds a)

------------------------------------------------------------
-- Routines that may be cut short
------------------------------------------------------------

/- Give bytes as they should be, and end as `post` says. -/
def Offers
    (always : Bytes → Prop) :
    {α : Type} →
    (p : Routine endpointInterface α) →
    (post : α → Bytes → Prop) →
    (gave : Bytes) → Prop
  | _, .done a, post, gave => post a gave
  | _, .ask call k, post, gave =>
    Adds always call gave fun a => Offers always (k a) post
  | _, .loop (σ := σ) body s k, post, gave =>
    ∃ inv : σ → Bytes → Prop,
      inv s gave ∧
      ∀ s gave, inv s gave →
        Offers always (body s)
          (fun
            | .inl s => inv s
            | .inr b => Offers always (k b) post)
          gave

section

variable {always : Bytes → Prop} {α β : Type}

/- It does no harm to promise less of the end. -/
theorem Offers.mono
    {p : Routine endpointInterface α}
    {post post' : α → Bytes → Prop}
    {gave : Bytes}
    (hPost : ∀ a gave, post a gave → post' a gave)
    (hOffers : Offers always p post gave) :
    Offers always p post' gave := by
  induction p generalizing gave with
  | done a => exact hPost a gave hOffers
  | ask call k ih =>
      exact Adds.mono (fun a _ => ih a hPost) hOffers
  | loop body s k ihBody ih =>
      rcases hOffers with ⟨inv, hInv, hBody⟩
      refine ⟨inv, hInv, fun s gave hInv => ?_⟩
      apply ihBody s _ (hBody s gave hInv)
      rintro (s | b) gave hRound
      · exact hRound
      · exact ih b hPost hRound

/- What a sequence gives is what its two parts give in turn. -/
theorem offers_bind
    (p : Routine endpointInterface α)
    (f : α → Routine endpointInterface β)
    (post : β → Bytes → Prop) :
    Offers always (p.bind f) post =
      Offers always p fun a => Offers always (f a) post := by
  induction p with
  | done a => rfl
  | ask call k ih =>
      funext gave
      simp only [Routine.bind, Offers]
      exact congrArg (Adds always call gave)
        (funext fun a => ih a f)
  | loop body s k _ ih =>
      funext gave
      simp only [Routine.bind, Offers, ih]

/- A loop gives what its first round and the rest of it give. -/
theorem Offers.unroll
    {σ : Type}
    {body : σ → Routine endpointInterface (σ ⊕ β)}
    {s : σ}
    {k : β → Routine endpointInterface α}
    {post : α → Bytes → Prop}
    {gave : Bytes}
    (hOffers : Offers always (.loop body s k) post gave) :
    Offers always (Routine.unroll body s k) post gave := by
  rcases hOffers with ⟨inv, hInv, hBody⟩
  rw [Routine.unroll, offers_bind]
  apply (hBody s gave hInv).mono
  rintro (s | b) gave hRound
  · exact ⟨inv, hRound, hBody⟩
  · exact hRound

------------------------------------------------------------
-- Reading from and writing to an endpoint
------------------------------------------------------------

/-
  A write to an endpoint gives some first part of its bytes and
  says how much that was, or fails and gives none. Only of no
  bytes at all does it take none.
-/
theorem offers_write
    {src gave : Bytes}
    (hAlways : ∀ n ≤ src.length, always (gave ++ src.take n)) :
    Offers always (Endpoint.write src)
      (fun r out =>
        (∃ n ≤ src.length,
          r = .ok n ∧ (src ≠ [] → 0 < n) ∧
            out = gave ++ src.take n) ∨
        ((∃ e, r = .error (.pipe e)) ∧ out = gave))
      gave := by
  unfold Endpoint.write Endpoint.put
  rw [offers_bind]
  refine ⟨hAlways, ?_, ?_⟩
  · left
    refine ⟨src.length, Nat.le_refl _, rfl,
      List.length_pos_iff.mpr, ?_⟩
    rw [List.take_length]
  · intro n hFits e
    show Offers always (if 0 < n then _ else _) _ _
    split
    · next hSome =>
        exact .inl ⟨n, hFits, rfl, fun _ => hSome, rfl⟩
    · next hNone =>
        have hZero : n = 0 := Nat.eq_zero_of_not_pos hNone
        subst hZero
        exact .inr ⟨⟨_, rfl⟩, List.append_nil gave⟩

/- Reading from an endpoint gives nothing. -/
theorem offers_read
    {gave : Bytes}
    (room : Nat) :
    Offers always (Endpoint.read room)
      (fun _ out => out = gave) gave := by
  intro got
  rcases got with (_ | _) | got <;> rfl

/-
  Writing all to a stream that hands its bytes to an endpoint
  gives some first part of them, and all of them just when it
  succeeds. A write that was cut short after some bytes goes on
  with the others, so that no write ever takes none.
-/
theorem offers_writeAll
    {τ : Type}
    [ByteStream endpointInterface τ]
    {t : τ}
    {src gave : Bytes}
    (hWrite : ∀ src : Bytes,
      ByteStream.write t src =
        (Endpoint.write src).bind fun r => .done (r, t))
    (hAlways : ∀ n ≤ src.length, always (gave ++ src.take n)) :
    Offers always (ByteStream.writeAll t src)
      (fun (r, u) out =>
        u = t ∧ r ≠ .error .shortOutput ∧
        ∃ n ≤ src.length,
          out = gave ++ src.take n ∧
          (r = .ok () ↔ n = src.length))
      gave := by
  -- In every round the bytes that are left follow those given.
  refine ⟨fun u out =>
    u.1 = t ∧
    ∃ n ≤ src.length,
      u.2 = src.drop n ∧ out = gave ++ src.take n, ?_, ?_⟩
  · exact ⟨rfl, 0, Nat.zero_le _, rfl, by simp⟩
  · rintro ⟨u, rest⟩ out ⟨rfl, n, hCount, rfl, rfl⟩
    have hMore : ∀ m,
        gave ++ src.take n ++ (src.drop n).take m =
          gave ++ src.take (n + m) := by
      intro m
      rw [List.append_assoc, ← List.take_add]
    simp only
    split
    · next hAll =>
        rw [List.drop_eq_nil_iff] at hAll
        exact ⟨rfl, by simp, n, hCount, rfl,
          fun _ => Nat.le_antisymm hCount hAll, fun _ => rfl⟩
    · next hLeft =>
        rw [hWrite, Routine.bind_assoc, offers_bind]
        have hRest : ∀ m ≤ (src.drop n).length,
            always
              (gave ++ src.take n ++ (src.drop n).take m) := by
          intro m hFits
          rw [List.length_drop] at hFits
          rw [hMore]
          exact hAlways (n + m) (by omega)
        apply (offers_write hRest).mono
        rintro r out (⟨m, hFits, rfl, hSome, rfl⟩ | ⟨⟨e, rfl⟩, rfl⟩)
        · rw [hMore]
          rw [List.length_drop] at hFits
          cases m with
          | zero => exact absurd (hSome hLeft) (Nat.lt_irrefl 0)
          | succ m =>
              exact ⟨rfl, n + (m + 1), by omega,
                List.drop_drop, rfl⟩
        · refine ⟨rfl, by simp, n, hCount, rfl, by simp, ?_⟩
          rintro rfl
          exact absurd List.drop_length hLeft

------------------------------------------------------------
-- Calls under way
------------------------------------------------------------

/-
  A call that has come so far: of a send, the bytes it moved are
  given and the others are left.
-/
def UnderWay
    (always : Bytes → Prop)
    (call : Call)
    (stage : Call.Stage)
    (next : call.Answer → Bytes → Prop)
    (gave : Bytes) : Prop :=
  match call with
  | .send src =>
    stage.sending.written ≤ src.length ∧
    stage.sending.rest = src.drop stage.sending.written ∧
    ∃ earlier,
      gave = earlier ++ src.take stage.sending.written ∧
      Adds always (.send src) earlier next
  | _ => ∀ a, next a gave

/- A call that begins has moved nothing yet. -/
theorem UnderWay.begins
    {call : Call}
    {next : call.Answer → Bytes → Prop}
    {gave : Bytes}
    (hAdds : Adds always call gave next)
    (p : Pipe)
    (s : Side)
    (began : Instant) :
    UnderWay always call (call.begin p s began) next gave := by
  cases call with
  | send src =>
      exact ⟨Nat.zero_le _, rfl, gave, by simp [Call.begin], hAdds⟩
  | _ => exact hAdds

/-
  What comes of a call by one hold of the lock: what was given
  by then is as it should be, and the call is answered in a way
  that its routine is prepared for, or is under way as before.
-/
def GoesOn
    {ι : Type}
    (always : Bytes → Prop)
    (v : Visit ι)
    (next : v.call.Answer → Bytes → Prop)
    (gave : Bytes) : Prop :=
  always gave ∧
    match v.outcome.1 with
    | .answer a => next a gave
    | .wait stage => UnderWay always v.call stage next gave

/-
  What one hold of the lock makes of a send that has moved so
  many of its bytes: it moves some more, and is cut short, over,
  or waits with the others.
-/
theorem look_send_cases
    {src : Bytes}
    {stage : Call.Stage}
    {pipe : Pipe}
    {side : Side}
    {now : Instant}
    {look : Call.Look (Except ShortWrite Nat)}
    (hLook : ((Call.send src).look stage pipe side now).1 = look)
    (hSound : pipe.Sound)
    (hWritten : stage.sending.written ≤ src.length)
    (hRest :
      stage.sending.rest = src.drop stage.sending.written) :
    ∃ count,
      stage.sending.written + count ≤ src.length ∧
      (Call.send src).moved stage look =
        (src.drop stage.sending.written).take count ∧
      ((∃ e,
          look = .answer (.error ⟨stage.sending.written, e⟩) ∧
          count = 0) ∨
        (look = .answer (.ok src.length) ∧
          stage.sending.written + count = src.length) ∨
        look = .wait { stage with
          sending :=
            ⟨stage.sending.written + count,
              src.drop (stage.sending.written + count)⟩ }) := by
  rcases stage with ⟨timer, written, rest⟩
  simp only at hWritten hRest
  subst hRest
  have hFound := hSound.sent_send side timer now
    ⟨written, src.drop written⟩
  generalize hSend :
    pipe.send side timer now ⟨written, src.drop written⟩ = sent
    at hFound
  cases hFound with
  | ended =>
      rw [Call.look_send_of_inl _ src hSend] at hLook
      subst hLook
      exact ⟨0, hWritten, by simp [Call.moved],
        .inl ⟨_, rfl, rfl⟩⟩
  | late =>
      rw [Call.look_send_of_inl _ src hSend] at hLook
      subst hLook
      exact ⟨0, hWritten, by simp [Call.moved],
        .inl ⟨_, rfl, rfl⟩⟩
  | nothing _ _ hNone =>
      rw [Call.look_send_of_inl _ src hSend] at hLook
      subst hLook
      rw [List.drop_eq_nil_iff] at hNone
      have hAll := Nat.le_antisymm hWritten hNone
      subst hAll
      exact ⟨0, hWritten, by simp [Call.moved],
        .inr (.inl ⟨rfl, rfl⟩)⟩
  | full =>
      rw [Call.look_send_of_inr _ src hSend] at hLook
      subst hLook
      exact ⟨0, hWritten, by simp [Call.moved],
        .inr (.inr rfl)⟩
  | finished =>
      rw [Call.look_send_of_inl _ src hSend] at hLook
      subst hLook
      have hAll :
          written + (src.drop written).length = src.length := by
        rw [List.length_drop]
        omega
      refine ⟨(src.drop written).length, Nat.le_of_eq hAll, ?_,
        .inr (.inl ⟨?_, hAll⟩)⟩
      · simp only [Call.moved, Nat.add_sub_cancel_left]
      · simp only [hAll]
  | partly _ _ _ hShort =>
      rw [Call.look_send_of_inr _ src hSend] at hLook
      subst hLook
      rw [List.length_drop] at hShort
      refine ⟨(pipe.queues.get side.other).room, ?_, ?_,
        .inr (.inr ?_)⟩
      · simp only
        omega
      · simp only [Call.moved, Nat.add_sub_cancel_left]
      · simp only [List.drop_drop]

section

variable {ι : Type} {gave : Bytes}

/-
  One hold of the lock by a call under way has it go on, and
  leaves what was given as it should be.
-/
theorem UnderWay.visit
    {v : Visit ι}
    {next : v.call.Answer → Bytes → Prop}
    (hUnderWay : UnderWay always v.call v.stage next gave)
    (hAlways : always gave)
    (hSound : v.before.Sound) :
    GoesOn always v next (gave ++ v.accepted v.side.other) := by
  rcases v with ⟨party, side, call, stage, now, pipe⟩
  simp only [GoesOn, Visit.accepted, Visit.outcome, if_true]
  generalize hLook : (call.look stage pipe side now).1 = look
  cases call with
  | send src =>
      rcases hUnderWay with ⟨hWritten, hRest, earlier, rfl, hAdds⟩
      rcases look_send_cases hLook hSound hWritten hRest with
        ⟨count, hFits, hMoved, hOutcome⟩
      have hGiven :
          earlier ++ src.take stage.sending.written ++
              (Call.send src).moved stage look =
            earlier ++ src.take (stage.sending.written + count) := by
        rw [hMoved, List.append_assoc, ← List.take_add]
      rw [hGiven]
      refine ⟨hAdds.1 _ hFits, ?_⟩
      rcases hOutcome with
        ⟨e, rfl, rfl⟩ | ⟨rfl, hAll⟩ | rfl
      · exact hAdds.2.2 _ hWritten e
      · rw [hAll, List.take_length]
        exact hAdds.2.1
      · exact ⟨hFits, rfl, earlier, rfl, hAdds⟩
  | _ =>
      simp only [Call.moved, List.append_nil]
      refine ⟨hAlways, ?_⟩
      cases look with
      | answer a => exact hUnderWay a
      | wait => exact hUnderWay

end

------------------------------------------------------------
-- One party by itself
------------------------------------------------------------

/- What a party gives from where it is. -/
def PartyOffers
    (always : Bytes → Prop)
    (post : α → Bytes → Prop)
    (gave : Bytes) :
    (party : Party α) → Prop
  | .ready p => Offers always p post gave
  | .held call stage _ k =>
    UnderWay always call stage
      (fun a => Offers always (k a) post) gave

section

variable {ι : Type} [DecidableEq ι]
variable {post : α → Bytes → Prop} {gave : Bytes}

/- A hold of the lock leaves its party giving what it should. -/
theorem UnderWay.conclude
    {v : Visit ι}
    {k : v.call.Answer → Routine endpointInterface α}
    (hUnderWay :
      UnderWay always v.call v.stage
        (fun a => Offers always (k a) post) gave)
    (hAlways : always gave)
    (hSound : v.before.Sound) :
    always (gave ++ given v.party [v]) ∧
      PartyOffers always post (gave ++ given v.party [v])
        (Party.conclude v k) := by
  rw [given_singleton rfl]
  rcases hUnderWay.visit hAlways hSound with ⟨hGave, hOutcome⟩
  refine ⟨hGave, ?_⟩
  unfold Party.conclude
  cases hLook : v.outcome.1 with
  | answer a =>
      rw [hLook] at hOutcome
      exact hOutcome
  | wait stage =>
      rw [hLook] at hOutcome
      exact hOutcome

/- So does every step of a party. -/
theorem PartyOffers.advance
    {party : Party α}
    (hParty : PartyOffers always post gave party)
    (hAlways : always gave)
    {p : Pipe}
    (hSound : p.Sound)
    (i : ι)
    (s : Side)
    (began now : Instant) :
    always (gave ++ given i (party.advance i s p began now).1) ∧
      PartyOffers always post
        (gave ++ given i (party.advance i s p began now).1)
        (party.advance i s p began now).2 := by
  cases party with
  | ready q =>
      cases q with
      | done a =>
          simp only [Party.advance, given_nil, List.append_nil]
          exact ⟨hAlways, hParty⟩
      | ask call k =>
          have hUnderWay := UnderWay.begins hParty p s began
          exact hUnderWay.conclude (v := ⟨i, s, call, _, now, p⟩)
            hAlways hSound
      | loop body x k =>
          simp only [Party.advance, given_nil, List.append_nil]
          exact ⟨hAlways, Offers.unroll hParty⟩
  | held call stage seen k =>
      exact UnderWay.conclude (v := ⟨i, s, call, stage, now, p⟩)
        hParty hAlways hSound

end

------------------------------------------------------------
-- One party among others
------------------------------------------------------------

section

variable {ι : Type} [DecidableEq ι] {R : ι → Type}
variable {seat : ι → Side} {i : ι} {t₀ t : Traffic R}
variable {log : List (Visit ι)}

/-
  A routine gives what it should in every run, whatever the
  others do, and whatever has been done before.
-/
theorem offers_of_run_from
    {post : R i → Bytes → Prop}
    {p : Routine endpointInterface (R i)}
    (hRun : Run seat t₀ log t)
    (hSound : t₀.pipe.Sound)
    (hHere : t₀.parties i = .ready p)
    (hAlways : always [])
    (hOffers : Offers always p post []) :
    always (given i log) ∧
      PartyOffers always post (given i log) (t.parties i) := by
  induction hRun with
  | refl =>
      rw [hHere]
      exact ⟨hAlways, hOffers⟩
  | @advance log t j began now _ _ hRun ih =>
      rw [given_append]
      by_cases hSame : j = i
      · subst hSame
        have hStep := t.advance_self seat j began now
        rw [hStep.1, hStep.2]
        exact ih.2.advance ih.1 (hRun.sound_from hSound) j _ _ _
      · rw [given_advance_of_ne hSame, List.append_nil,
          advance_parties_of_ne (Ne.symm hSame)]
        exact ih

/- So does each part of a routine, whatever comes after it. -/
theorem offers_of_carries
    {post : α → Bytes → Prop}
    {p : Routine endpointInterface α}
    {f : α → Routine endpointInterface (R i)}
    {began : Instant}
    {part : Party α}
    (hCarries : Carries seat t₀ i p f began log part t)
    (hSound : t₀.pipe.Sound)
    (hAlways : always [])
    (hOffers : Offers always p post []) :
    always (given i log) ∧
      PartyOffers always post (given i log) part := by
  induction hCarries with
  | begins now =>
      have hReady : PartyOffers always post [] (.ready p) :=
        hOffers
      exact hReady.advance hAlways hSound i (seat i) began now
  | goesOn next now hUndone _ _ hCarries ih =>
      rw [given_append]
      exact ih.2.advance ih.1 (hCarries.run.sound_from hSound) i
        _ _ _
  | beside j next now hOther _ _ _ ih =>
      rw [given_append, given_advance_of_ne hOther,
        List.append_nil]
      exact ih

/- A party that is alone at its end gives all that comes there. -/
theorem given_eq_accepted
    (hRun : Run seat t₀ log t)
    (hAlone : ∀ j, j ≠ i → seat j = (seat i).other) :
    given i log = accepted (seat i).other log := by
  induction hRun with
  | refl => rfl
  | @advance log t j began now _ _ _ ih =>
      rcases t.advance_cases seat j began now with
        ⟨hLog, -⟩ | ⟨v, hLog, hParty, hSide, -⟩
      · rw [hLog, List.append_nil]
        exact ih
      · by_cases hSame : j = i
        · subst hSame
          rw [hLog, given_append, ih, accepted_concat,
            given_singleton hParty, ← hSide]
        · rw [given_append, given_advance_of_ne hSame, hLog,
            List.append_nil, ih, ← hAlone j hSame, ← hSide,
            accepted_concat_side]

end

end

------------------------------------------------------------
-- One routine against any number of clients
------------------------------------------------------------

variable {ι : Type} {α : Type} {R : ι → Type}

/- The result of each party: of the one at home, or of a client. -/
def Result
    (α : Type)
    (R : ι → Type) : Option ι → Type
  | none => α
  | some i => R i

/- One party sits at `home`, all the clients at the far end. -/
def seat
    (home : Side) : Option ι → Side
  | none => home
  | some _ => home.other

/- The routines of the party at home and of the clients. -/
def routines
    (p : Routine endpointInterface α)
    (clients : (i : ι) → Routine endpointInterface (R i)) :
    (i : Option ι) → Routine endpointInterface (Result α R i)
  | none => p
  | some i => clients i

/-
  In every run against any clients, a routine that is about to
  begin gives what it should from then on; when it is done, it
  has ended as it should.
-/
theorem given_of_run_from
    [DecidableEq ι]
    {always : Bytes → Prop}
    {post : α → Bytes → Prop}
    {p : Routine endpointInterface α}
    {home : Side}
    {log : List (Visit (Option ι))}
    {t₀ t : Traffic (Result α R)}
    (hRun : Run (seat home) t₀ log t)
    (hSound : t₀.pipe.Sound)
    (hHere : t₀.parties none = .ready p)
    (hAlways : always [])
    (hOffers : Offers always p post []) :
    always (accepted home.other log) ∧
      ∀ a : α, t.parties none = .ready (.done a) →
        post a (accepted home.other log) := by
  have hAlone :
      ∀ j : Option ι, j ≠ none → seat home j = home.other := by
    rintro (_ | i) hParty
    · exact absurd rfl hParty
    · rfl
  have hGiven := given_eq_accepted (i := none) hRun hAlone
  have hOffer := offers_of_run_from (i := none) hRun hSound hHere
    hAlways hOffers
  rw [hGiven] at hOffer
  refine ⟨hOffer.1, ?_⟩
  intro a hDone
  have hEnd := hOffer.2
  rw [hDone] at hEnd
  exact hEnd

/-
  In every run against any clients, a routine has given what it
  should; when it is done, it has ended as it should.
-/
theorem given_of_run
    [DecidableEq ι]
    {always : Bytes → Prop}
    {post : α → Bytes → Prop}
    {p : Routine endpointInterface α}
    {clients : (i : ι) → Routine endpointInterface (R i)}
    {home : Side}
    {nameA nameB : String}
    {capacity : Nat}
    {log : List (Visit (Option ι))}
    {t : Traffic (Result α R)}
    (hRun :
      Run (seat home)
        (new (.pair nameA nameB capacity) (routines p clients))
        log t)
    (hAlways : always [])
    (hOffers : Offers always p post []) :
    always (accepted home.other log) ∧
      ∀ a : α, t.parties none = .ready (.done a) →
        post a (accepted home.other log) :=
  given_of_run_from hRun (.pair nameA nameB capacity) rfl hAlways
    hOffers

end Outflow

end Parley
