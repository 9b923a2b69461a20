import Parley.Deflate.Codec
import Parley.Tls.Stream
import Parley.Script.Execute
import Parley.Proofs.Engine.Results
import Parley.Proofs.Text.Lossless
/-
  This file says what a script reports when something else
  arrives than it expects. Bytes are compared, and those that
  arrived are never those that were expected; what is reported
  is both as texts. The texts differ as well, unless some of the
  bytes are no text and both are read with the replacement
  character in place of what is no text.

  Key definitions include:
    * `Action.expected?`
    * `Action.Receives`

  Key theorems include:
    * `Transcript.gives_error_of_executeFrom`
    * `Transcript.mismatch_of_gives_perform`
    * `Transcript.mismatch_spec`
    * `Transcript.mismatch_of_equal_texts`
-/

namespace Parley

variable {κ : Codec} {θ : Tls.Provider}

------------------------------------------------------------
-- Actions that expect bytes
------------------------------------------------------------

namespace Action

/- The bytes that an action expects. -/
def expected? : Action κ θ → Option Bytes
  | .recvLine line => some (Bytes.ofString line)
  | .recvRaw bytes => some bytes
  | _ => none

/- What an action that expects bytes can be given instead. -/
def Receives
    (a : Action κ θ)
    (s : Surrogate κ θ)
    (got : Bytes)
    (s' : Surrogate κ θ) : Prop :=
  match a with
  | .recvLine _ => s.readLine.Gives (.ok got, s')
  | .recvRaw bytes =>
    (ByteStream.readExact s bytes.length).Gives (.ok got, s')
  | _ => False

end Action

namespace Transcript

open Routine

------------------------------------------------------------
-- The action that fails
------------------------------------------------------------

/-
  Actions that fail come to one that does, and all before it are
  carried out.
-/
theorem gives_error_of_executeFrom
    {index : Nat}
    {actions : List (Action κ θ)}
    {s s' : Surrogate κ θ}
    {e : ScriptError}
    (hGives :
      (Script.executeFrom index actions s).Gives (.error e, s')) :
    ∃ before a after s₁,
      actions = before ++ a :: after ∧
        (Script.executeFrom index before s).Gives (.ok (), s₁) ∧
        (a.perform (index + before.length) s₁).Gives
          (.error e, s') := by
  induction actions generalizing index s with
  | nil => cases hGives
  | cons a rest ih =>
      rcases gives_ifOk hGives with
        ⟨e', hError, hHere⟩ | ⟨_, s₁, hHere, hRest⟩
      · cases hError
        exact ⟨[], a, rest, s, rfl, .done _, hHere⟩
      · rcases ih hRest with
          ⟨before, b, after, s₂, rfl, hBefore, hFails⟩
        refine ⟨a :: before, b, after, s₂, rfl, ?_, ?_⟩
        · exact hHere.bind hBefore
        · rw [List.length_cons, ← Nat.add_assoc,
            Nat.add_right_comm]
          exact hFails

/-
  Only an action that expects bytes fails as a mismatch, if it
  is given others, and it reports the texts of both.
-/
theorem mismatch_of_gives_perform
    {a : Action κ θ}
    {index i : Nat}
    {s s' : Surrogate κ θ}
    {expected actual : String}
    (hGives : (a.perform index s).Gives
      (.error (.mismatch i expected actual), s')) :
    i = index ∧
      ∃ want got,
        a.expected? = some want ∧
          a.Receives s got s' ∧
          want ≠ got ∧
          expected = Text.ofBytes want ∧
          actual = Text.ofBytes got := by
  cases a with
  | sendLine line =>
      rcases gives_bind hGives with ⟨⟨e | ⟨⟩, s₁⟩, -, hEnd⟩ <;>
        cases hEnd
  | sendRaw bytes =>
      rcases gives_bind hGives with ⟨⟨e | ⟨⟩, s₁⟩, -, hEnd⟩ <;>
        cases hEnd
  | control c =>
      rcases gives_bind hGives with ⟨⟨end_, s₁⟩, -, hEnd⟩
      cases end_ <;> cases hEnd
  | recvLine line =>
      rcases gives_bind hGives with ⟨⟨e | got, s₁⟩, hPart, hEnd⟩
      · cases hEnd
      · simp only at hEnd
        split at hEnd
        · cases hEnd
        · next hOther =>
            cases hEnd
            exact ⟨rfl, _, got, rfl, hPart, Ne.symm hOther,
              (Text.ofBytes_ofString _).symm, rfl⟩
  | recvRaw bytes =>
      rcases gives_bind hGives with ⟨⟨e | got, s₁⟩, hPart, hEnd⟩
      · cases hEnd
      · simp only at hEnd
        split at hEnd
        · cases hEnd
        · next hOther =>
            cases hEnd
            exact ⟨rfl, bytes, got, rfl, hPart, Ne.symm hOther,
              rfl, rfl⟩

------------------------------------------------------------
-- What is reported
------------------------------------------------------------

/-
  A script that ends in a mismatch has carried out all before
  the action that it names, and that one was given other bytes
  than it expects. Their texts are reported. They differ, unless
  a replacement character stands in them and some of the bytes
  are no text.
-/
theorem mismatch_spec
    {script : Script κ θ}
    {s s' : Surrogate κ θ}
    {index : Nat}
    {expected actual : String}
    (hGives : (script.execute s).Gives
      (.error (.mismatch index expected actual), s')) :
    ∃ before a after s₁ want got,
      script.actions = before ++ a :: after ∧
        index = before.length + 1 ∧
        (Script.executeFrom 1 before s).Gives (.ok (), s₁) ∧
        a.expected? = some want ∧
        a.Receives s₁ got s' ∧
        want ≠ got ∧
        expected = Text.ofBytes want ∧
        actual = Text.ofBytes got ∧
        (expected = actual →
          Text.replacement ∈ expected.toList ∧
            ¬ (want.IsText ∧ got.IsText)) := by
  rcases gives_error_of_executeFrom hGives with
    ⟨before, a, after, s₁, hActions, hBefore, hFails⟩
  rcases mismatch_of_gives_perform hFails with
    ⟨hIndex, want, got, hWant, hGot, hOther, rfl, rfl⟩
  refine ⟨before, a, after, s₁, want, got, hActions,
    hIndex.trans (Nat.add_comm _ _), hBefore, hWant, hGot, hOther,
    rfl, rfl, fun hSame => ?_⟩
  exact Text.replacement_mem_of_ofBytes_eq hSame hOther

/- A script that expects one line. -/
def lineScript
    (line : String) : Script rawDeflate Tls.transparent where
  actions := [.recvLine line]

/- A script that expects one byte that is no text. -/
def byteScript : Script rawDeflate Tls.transparent where
  actions := [.recvRaw [0xFF]]

theorem mismatch_spec_of_lineScript :
    ∃ actual s',
      ((lineScript "A").execute (Surrogate.new [13, 10])).Gives
          (.error (.mismatch 1 "A" actual), s') ∧
        "A" ≠ actual := by
  have hGives :
      ((lineScript "A").execute (Surrogate.new [13, 10])).Gives
        (.error (.mismatch 1 "A" (Text.ofBytes [66])),
          Surrogate.new [13, 10]) :=
    .loop (.ask (.ok [66, 13, 10]) (.loop (.done _)))
  rcases mismatch_spec hGives with
    ⟨_, _, _, _, _, _, -, -, -, -, -, -, -, -, hTexts⟩
  refine ⟨_, _, hGives, fun hSame => ?_⟩
  exact absurd (hTexts hSame).1 (by decide)

/- Bytes that begin no character are read as its stand-in. -/
theorem ofBytes_of_no_lead
    {b : UInt8}
    (hLarge : ¬ b < 0x80)
    (hNone : Text.lead? b = none) :
    Text.ofBytes [b] = "\uFFFD" := by
  have hRead : Text.scalarAt b [] = (Text.replacement, 0) := by
    unfold Text.scalarAt
    rw [if_neg hLarge, hNone]
  rw [Text.ofBytes, Text.lossyChars, hRead]
  simp only [List.drop_nil, Text.lossyChars]
  rfl

/-
  A byte that is no text is expected and another one arrives, or
  the stand-in itself is expected and a byte arrives that is
  read as it: what is reported shows the same text twice.
-/
theorem mismatch_of_equal_texts :
    (byteScript.execute (Surrogate.new [13, 10])).Gives
        (.error (.mismatch 1 "\uFFFD" "\uFFFD"),
          Surrogate.new [13, 10]) ∧
      ((lineScript "\uFFFD").execute
          (Surrogate.new [13, 10])).Gives
        (.error (.mismatch 1 "\uFFFD" "\uFFFD"),
          Surrogate.new [13, 10]) := by
  have hExpected : Text.ofBytes [0xFF] = "\uFFFD" :=
    ofBytes_of_no_lead (by decide) rfl
  have hActual : Text.ofBytes [0xFE] = "\uFFFD" :=
    ofBytes_of_no_lead (by decide) rfl
  constructor
  · have hGives :
        (byteScript.execute (Surrogate.new [13, 10])).Gives
          (.error (.mismatch 1 (Text.ofBytes [0xFF])
            (Text.ofBytes [0xFE])), Surrogate.new [13, 10]) :=
      .loop (.ask (.ok [0xFE]) (.loop (.done _)))
    rw [hExpected, hActual] at hGives
    exact hGives
  · have hGives :
        ((lineScript "\uFFFD").execute
            (Surrogate.new [13, 10])).Gives
          (.error (.mismatch 1 "\uFFFD" (Text.ofBytes [0xFF])),
            Surrogate.new [13, 10]) :=
      .loop (.ask (.ok [0xFF, 13, 10]) (.loop (.done _)))
    rw [hExpected] at hGives
    exact hGives

end Transcript

end Parley
