import Parley.Conversation.Endpoint
import Parley.Proofs.Outflow.Offering
/-
  This file gives the history of a party's flushes: what each
  offered to the pipe, and how much of that was accepted. It
  also gives what the conversations of flushing parties have in
  common: which flushes are confirmed by a reply, and the steps
  that only limit the time of others.

  Key definitions include:
    * `Outflow.Flushing`
    * `Outflow.taken`
    * `Outflow.confirmations`
    * `EndpointStep.isLimit`

  Key theorems include:
    * `Outflow.taken_isPrefix`
    * `Outflow.offers_flushing`
    * `Outflow.offers_take_of_isLimit`
-/

namespace Parley

/- Whether a reply reports a success without a value. -/
def Reply.isOk : Reply → Bool
  | .ok => true
  | _ => false

/- Whether a step only sets a time limit. -/
def EndpointStep.isLimit : EndpointStep → Bool
  | .setTimeout _ => true
  | .setDeadline _ _ => true
  | _ => false

namespace Outflow

------------------------------------------------------------
-- Flushes
------------------------------------------------------------

/-
  What became of a flush: the bytes that it offered, how many of
  them were accepted, and whether it came to a good end. It does
  so only when all were accepted.
-/
structure Flushing where
  offered : Bytes
  count : Nat
  finished : Bool
  count_le : count ≤ offered.length
  count_eq : finished = true → count = offered.length

namespace Flushing

/- The bytes that were accepted. -/
def taken
    (f : Flushing) : Bytes :=
  f.offered.take f.count

/- A flush that was cut short, or has come so far. -/
def cut
    (offered : Bytes)
    (count : Nat)
    (hCount : count ≤ offered.length) : Flushing where
  offered := offered
  count := count
  finished := false
  count_le := hCount
  count_eq := nofun

theorem taken_of_finished
    {f : Flushing}
    (hFinished : f.finished = true) :
    f.taken = f.offered := by
  rw [taken, f.count_eq hFinished, List.take_length]

end Flushing

/- What was accepted over a history of flushes. -/
def taken
    (history : List Flushing) : Bytes :=
  history.flatMap Flushing.taken

@[simp] theorem taken_concat
    (history : List Flushing)
    (f : Flushing) :
    taken (history ++ [f]) = taken history ++ f.taken := by
  simp [taken]

/- Flushes that came to a good end were accepted whole. -/
theorem taken_of_finished
    {history : List Flushing}
    (hFinished : ∀ f ∈ history, f.finished = true) :
    taken history = (history.map Flushing.offered).flatten := by
  induction history with
  | nil => rfl
  | cons f history ih =>
      rw [List.forall_mem_cons] at hFinished
      rcases hFinished with ⟨hFirst, hRest⟩
      rw [List.map_cons, List.flatten_cons, ← ih hRest,
        ← Flushing.taken_of_finished hFirst]
      rfl

/-
  If all flushes but the last came to a good end, what was
  accepted is a first part of what was offered.
-/
theorem taken_isPrefix
    {history : List Flushing}
    (hFinished : ∀ f ∈ history.dropLast, f.finished = true) :
    taken history <+: (history.map Flushing.offered).flatten := by
  rcases history.eq_nil_or_concat with rfl | ⟨earlier, f, rfl⟩
  · exact List.nil_prefix
  · rw [List.concat_eq_append] at hFinished ⊢
    rw [List.dropLast_concat] at hFinished
    rw [taken_concat, taken_of_finished hFinished,
      List.map_append, List.flatten_append,
      List.prefix_append_right_inj]
    simp only [List.map_singleton, List.flatten_singleton]
    exact List.take_prefix _ _

------------------------------------------------------------
-- Flushing to an endpoint
------------------------------------------------------------

/-
  To write all of `src` after a history of flushes is to add one
  flush to the history, which offers `src`. How far it has come
  is part of the history at every moment.
-/
theorem offers_flushing
    {always : Bytes → Prop}
    {τ : Type}
    [ByteStream endpointInterface τ]
    {t : τ}
    {src : Bytes}
    {history : List Flushing}
    (hWrite : ∀ src : Bytes,
      ByteStream.write t src =
        (Endpoint.write src).bind fun r => .done (r, t))
    (hAlways : ∀ f : Flushing,
      f.offered = src → always (taken (history ++ [f]))) :
    Offers always (ByteStream.writeAll t src)
      (fun (r, u) out =>
        u = t ∧
        ∃ f : Flushing,
          f.offered = src ∧
          f.finished = r.isOk ∧
          out = taken (history ++ [f]))
      (taken history) := by
  have hCut : ∀ n ≤ src.length,
      always (taken history ++ src.take n) := by
    intro n hFits
    have hFlush := hAlways (.cut src n hFits) rfl
    rw [taken_concat] at hFlush
    exact hFlush
  apply (offers_writeAll hWrite hCut).mono
  rintro ⟨r, u⟩ out ⟨hSame, -, n, hFits, rfl, hAll⟩
  refine ⟨hSame, ⟨src, n, r.isOk, hFits, ?_⟩, rfl, rfl, ?_⟩
  · intro hFinished
    cases r with
    | ok => exact hAll.mp rfl
    | error e => exact Bool.noConfusion hFinished
  · rw [taken_concat]
    rfl

------------------------------------------------------------
-- Conversations with flushes
------------------------------------------------------------

/-
  Which flushes among some steps are reported as successes, in
  their order.
-/
def confirmations
    {θ : Type}
    (isFlush : θ → Bool)
    (steps : List θ)
    (replies : List Reply) : List Bool :=
  (steps.zip replies).filterMap fun (step, reply) =>
    if isFlush step then some reply.isOk else none

/- A first step is confirmed before the others. -/
theorem confirmations_cons
    {θ : Type}
    (isFlush : θ → Bool)
    (step : θ)
    (steps : List θ)
    (reply : Reply)
    (replies : List Reply) :
    confirmations isFlush (step :: steps) (reply :: replies) =
      confirmations isFlush [step] [reply] ++
        confirmations isFlush steps replies := by
  unfold confirmations
  cases hFlush : isFlush step <;> simp [hFlush]

/- A step that sets a time limit gives nothing. -/
theorem offers_take_of_isLimit
    {always : Bytes → Prop}
    {step : EndpointStep}
    {gave : Bytes}
    (hLimit : step.isLimit = true) :
    Offers always step.take (fun _ out => out = gave) gave := by
  cases step with
  | setTimeout d =>
      intro _
      rfl
  | setDeadline direction offset =>
      cases offset with
      | none =>
          rcases direction with _ | _ | _ <;>
            exact fun _ => rfl
      | some offset =>
          intro now
          rcases direction with _ | _ | _ <;>
            exact fun _ => rfl
  | _ => exact Bool.noConfusion hLimit

end Outflow

end Parley
