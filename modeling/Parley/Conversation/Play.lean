import Parley.Conversation.Endpoint
/-
  This file plays conversations: turns are taken in order, and
  after each of them it is noted what it answered and what is
  seen then.

  Key definitions include:
    * `Entry`
    * `World.playTurns`
-/

universe u

namespace Parley

/-
  What a turn answers: a reply, or those of two sides that went
  on beside each other.
-/
inductive Entry where
  | single (reply : Reply)
  | both (first second : List Reply)

/-
  Play a conversation over a pipe from the state `s`. The result
  lists for each turn its entry and what `view` shows after it.
-/
def World.playTurns
    {θ : Type u}
    {σ V ω : Type}
    (pipe : Pipe)
    (take : σ → θ → MainRoutine V (Entry × σ))
    (view : σ → MainRoutine V ω)
    (s : σ)
    (turns : List θ) : Option (List (Entry × ω)) :=
  let turn (s : σ) (t : θ) : MainRoutine V ((Entry × ω) × σ) :=
    (take s t).bind fun (entry, s) => (view s).bind fun seen => .done ((entry, seen), s)
  (World.play pipe (Routine.forEach turn s turns)).map (·.1)

end Parley
