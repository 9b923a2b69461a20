import Parley.Script.Literal
/-
  This file says which written scripts make sense and what they
  mean. A text has to be marked, and bytes need a text before
  them; a literal means an action by itself and by the nearest
  text before it, whatever stands between the two. The first
  literal that breaks this is the one that is reported.

  A script that is written down is read back as it was if and
  only if its raw bytes go the way of the nearest line before
  them, since the way of bytes is not written down.

  Key definitions include:
    * `Way.mark`
    * `Literal.Heading`
    * `Literal.Fits`
    * `Literal.Means`
    * `Literal.Breaks`
    * `Script.Reads`
    * `Script.Grammar`
    * `Action.literal`
    * `Script.literals`
    * `Script.Directed`

  Key theorems include:
    * `Literal.marked?_eq_some_iff`
    * `Script.parseFrom_cons_cases`
    * `Script.parseFrom_cases`
    * `Script.parse_eq_ok_iff`
    * `Script.parse_eq_error_iff`
    * `Script.parse_literals_eq_ok_iff`
    * `Script.parse_grammar`
-/

namespace Parley

variable {κ : Codec} {θ : Tls.Provider}

------------------------------------------------------------
-- Ways
------------------------------------------------------------

namespace Way

/- The mark of a line that goes this way. -/
def mark : Way → String
  | send => sendMark
  | recv => recvMark

/- The action for a line that goes this way. -/
def line
    (text : String) : Way → Action κ θ
  | send => .sendLine text
  | recv => .recvLine text

/- The action for raw bytes that go this way. -/
def raw
    (bytes : Bytes) : Way → Action κ θ
  | send => .sendRaw bytes
  | recv => .recvRaw bytes

/- A marked text tells its way and its line. -/
theorem eq_of_mark_append
    {w v : Way}
    {l m : String}
    (hTexts : w.mark ++ l = v.mark ++ m) :
    w = v ∧ l = m := by
  have hChars := congrArg String.toList hTexts
  simp only [String.toList_append] at hChars
  cases w <;> cases v <;>
    simp_all [mark, sendMark, recvMark]

/- Raw bytes tell their way. -/
theorem eq_of_raw
    {w v : Way}
    {b c : Bytes}
    (hActions : (w.raw b : Action κ θ) = v.raw c) :
    w = v ∧ b = c := by
  cases w <;> cases v <;> cases hActions <;> exact ⟨rfl, rfl⟩

end Way

------------------------------------------------------------
-- Literals
------------------------------------------------------------

namespace Literal

/- A text is taken for a line if it begins with a mark. -/
theorem marked?_eq_some_iff
    {text line : String}
    {w : Way} :
    marked? text = some (w, line) ↔ text = w.mark ++ line := by
  constructor
  · intro hMarked
    apply String.toList_injective
    rw [String.toList_append]
    unfold marked? at hMarked
    split at hMarked
    · next rest hText =>
        cases hMarked
        simp [hText, Way.mark, sendMark]
    · next rest hText =>
        cases hMarked
        simp [hText, Way.mark, recvMark]
    · cases hMarked
  · rintro rfl
    unfold marked?
    cases w <;> simp [Way.mark, sendMark, recvMark]

/- A text that begins with no mark is no line. -/
theorem marked?_eq_none_iff
    {text : String} :
    marked? text = none ↔
      ∀ (w : Way) line, text ≠ w.mark ++ line := by
  constructor
  · intro hNone w line hText
    rw [marked?_eq_some_iff.mpr hText] at hNone
    cases hNone
  · intro hNever
    cases hMarked : marked? text with
    | none => rfl
    | some marked =>
        exact absurd (marked?_eq_some_iff.mp hMarked)
          (hNever marked.1 marked.2)

/-
  The nearest text before a literal goes this way. Bytes and
  ready actions after that text do not count.
-/
def Heading
    (earlier : List (Literal κ θ))
    (w : Way) : Prop :=
  ∃ first line rest,
    earlier = first ++ .text (w.mark ++ line) :: rest ∧
      ∀ t, .text t ∉ rest

/-
  Whether a literal makes sense after others: a text has a mark,
  and bytes have a text before them.
-/
def Fits
    (earlier : List (Literal κ θ)) : Literal κ θ → Prop
  | .text t => ∃ (w : Way) (line : String), t = w.mark ++ line
  | .bytes _ => ∃ t, .text t ∈ earlier
  | .action _ => True

/- The action that a literal means after others. -/
inductive Means
    (earlier : List (Literal κ θ)) :
    Literal κ θ → Action κ θ → Prop where
  | line
      (w : Way)
      (line : String) :
      Means earlier (.text (w.mark ++ line)) (w.line line)
  | raw
      {w : Way}
      (bytes : Bytes)
      (hHeading : Heading earlier w) :
      Means earlier (.bytes bytes) (w.raw bytes)
  | action
      (a : Action κ θ) :
      Means earlier (.action a) a

/- What is wrong with a literal after others. -/
inductive Breaks
    (earlier : List (Literal κ θ)) :
    Literal κ θ → Flaw → Prop where
  | unmarked
      {t : String}
      (hUnmarked : ∀ (w : Way) line, t ≠ w.mark ++ line) :
      Breaks earlier (.text t) (.unmarked t)
  | orphan
      (bytes : Bytes)
      (hAlone : ∀ t, .text t ∉ earlier) :
      Breaks earlier (.bytes bytes) .orphan

variable {earlier : List (Literal κ θ)} {literal : Literal κ θ}
variable {a : Action κ θ} {flaw : Flaw} {w v : Way}

/- A literal with a meaning makes sense. -/
theorem Means.fits
    (hMeans : literal.Means earlier a) :
    literal.Fits earlier := by
  cases hMeans with
  | line w line => exact ⟨w, line, rfl⟩
  | raw bytes hHeading =>
      rcases hHeading with ⟨first, line, rest, rfl, -⟩
      exact ⟨_, List.mem_append_right _ List.mem_cons_self⟩
  | action a => exact trivial

/- One that is wrong does not. -/
theorem Breaks.not_fits
    (hBreaks : literal.Breaks earlier flaw) :
    ¬ literal.Fits earlier := by
  cases hBreaks with
  | unmarked hUnmarked =>
      rintro ⟨w, line, rfl⟩
      exact hUnmarked w line rfl
  | orphan bytes hAlone =>
      rintro ⟨t, hText⟩
      exact hAlone t hText

/- Bytes mean raw bytes that go the way of the nearest text. -/
theorem means_bytes_iff
    {bytes : Bytes} :
    (Literal.bytes bytes).Means earlier a ↔
      ∃ w : Way, a = w.raw bytes ∧ Heading earlier w := by
  constructor
  · intro hMeans
    cases hMeans with
    | raw bytes hHeading => exact ⟨_, rfl, hHeading⟩
  · rintro ⟨w, rfl, hHeading⟩
    exact .raw bytes hHeading

/- There is one thing wrong with a literal. -/
theorem Breaks.unique
    {other : Flaw}
    (hBreaks : literal.Breaks earlier flaw)
    (hOther : literal.Breaks earlier other) :
    flaw = other := by
  cases hBreaks <;> cases hOther <;> rfl

/- There is one nearest text. -/
theorem Heading.unique
    (hHeading : Heading earlier w)
    (hOther : Heading earlier v) :
    w = v := by
  rcases hHeading with ⟨first, line, rest, hSplit, hRest⟩
  rcases hOther with ⟨first', line', rest', hSplit', hRest'⟩
  rw [hSplit] at hSplit'
  rcases List.append_eq_append_iff.mp hSplit' with
    ⟨more, -, hTail⟩ | ⟨more, -, hTail⟩
  · rcases List.cons_eq_append_iff.mp hTail with
      ⟨-, hTail⟩ | ⟨more', -, hTail⟩
    · simp only [List.cons.injEq, Literal.text.injEq] at hTail
      exact (Way.eq_of_mark_append hTail.1).1.symm
    · refine absurd ?_ (hRest (v.mark ++ line'))
      simp [hTail]
  · rcases List.cons_eq_append_iff.mp hTail with
      ⟨-, hTail⟩ | ⟨more', -, hTail⟩
    · simp only [List.cons.injEq, Literal.text.injEq] at hTail
      exact (Way.eq_of_mark_append hTail.1).1
    · refine absurd ?_ (hRest' (w.mark ++ line))
      simp [hTail]

/- A literal has one meaning. -/
theorem Means.unique
    {other : Action κ θ}
    (hMeans : literal.Means earlier a)
    (hOther : literal.Means earlier other) :
    a = other := by
  generalize hLiteral : literal = same at hOther
  cases hMeans with
  | line w line =>
      cases hOther with
      | line v line' =>
          simp only [Literal.text.injEq] at hLiteral
          rcases Way.eq_of_mark_append hLiteral with ⟨rfl, rfl⟩
          rfl
      | raw bytes hHeading => cases hLiteral
      | action a => cases hLiteral
  | raw bytes hHeading =>
      cases hOther with
      | line v line' => cases hLiteral
      | raw bytes' hOther =>
          cases hLiteral
          rw [hHeading.unique hOther]
      | action a => cases hLiteral
  | action a =>
      cases hOther with
      | line v line' => cases hLiteral
      | raw bytes hHeading => cases hLiteral
      | action a =>
          cases hLiteral
          rfl

end Literal

namespace Script

------------------------------------------------------------
-- Reading literal by literal
------------------------------------------------------------

variable {earlier literals : List (Literal κ θ)}
variable {actions : List (Action κ θ)} {way : Option Way}
variable {error : ScriptError}

/- What the reader remembers of the literals before. -/
def Carries
    (earlier : List (Literal κ θ)) : Option Way → Prop
  | none => ∀ t, .text t ∉ earlier
  | some w => Literal.Heading earlier w

/- A marked text is remembered. -/
theorem carries_line
    (earlier : List (Literal κ θ))
    (w : Way)
    (line : String) :
    Carries (earlier ++ [.text (w.mark ++ line)]) (some w) :=
  ⟨earlier, line, [], rfl, fun _ => List.not_mem_nil⟩

/- What is no text changes nothing. -/
theorem Carries.concat
    {literal : Literal κ θ}
    (hCarries : Carries earlier way)
    (hOther : ∀ t, literal ≠ .text t) :
    Carries (earlier ++ [literal]) way := by
  cases way with
  | none =>
      intro t hText
      rcases List.mem_append.mp hText with hText | hText
      · exact hCarries t hText
      · exact hOther t (List.mem_singleton.mp hText).symm
  | some w =>
      rcases hCarries with ⟨first, line, rest, rfl, hRest⟩
      refine ⟨first, line, rest ++ [literal], by simp, ?_⟩
      intro t hText
      rcases List.mem_append.mp hText with hText | hText
      · exact hRest t hText
      · exact hOther t (List.mem_singleton.mp hText).symm

/-
  What becomes of the first of some literals. It means an
  action, and the others are read with what is remembered then;
  or it is wrong, and the others do not matter.
-/
theorem parseFrom_cons_cases
    (literal : Literal κ θ)
    (hCarries : Carries earlier way) :
    (∃ a way',
        literal.Means earlier a ∧
          Carries (earlier ++ [literal]) way' ∧
          ∀ index rest,
            parseFrom index way (literal :: rest) =
              (parseFrom (index + 1) way' rest).map (a :: ·)) ∨
      ∃ flaw,
        literal.Breaks earlier flaw ∧
          ∀ index rest,
            parseFrom index way (literal :: rest) =
              .error (.malformed index flaw) := by
  cases literal with
  | text t =>
      cases hMarked : Literal.marked? t with
      | none =>
          refine .inr ⟨.unmarked t,
            .unmarked (Literal.marked?_eq_none_iff.mp hMarked), ?_⟩
          intro index rest
          rw [parseFrom, hMarked]
      | some marked =>
          rcases marked with ⟨w, line⟩
          obtain rfl := Literal.marked?_eq_some_iff.mp hMarked
          refine .inl ⟨w.line line, some w, .line w line,
            carries_line earlier w line, ?_⟩
          intro index rest
          cases w <;> rw [parseFrom, hMarked] <;> rfl
  | bytes b =>
      cases way with
      | none =>
          exact .inr ⟨.orphan, .orphan b hCarries, fun _ _ => rfl⟩
      | some w =>
          refine .inl ⟨w.raw b, some w, .raw b hCarries,
            hCarries.concat nofun, ?_⟩
          cases w <;> exact fun _ _ => rfl
  | action a =>
      exact .inl ⟨a, way, .action a, hCarries.concat nofun,
        fun _ _ => rfl⟩

/-
  Literals that mean these actions in turn, after others.
-/
inductive Reads :
    List (Literal κ θ) → List (Literal κ θ) →
      List (Action κ θ) → Prop where
  | nil
      (earlier : List (Literal κ θ)) :
      Reads earlier [] []
  | cons
      {earlier literals : List (Literal κ θ)}
      {literal : Literal κ θ}
      {a : Action κ θ}
      {actions : List (Action κ θ)}
      (hMeans : literal.Means earlier a)
      (hReads : Reads (earlier ++ [literal]) literals actions) :
      Reads earlier (literal :: literals) (a :: actions)

/- There are as many actions as literals. -/
theorem Reads.length_eq
    (hReads : Reads earlier literals actions) :
    actions.length = literals.length := by
  induction hReads with
  | nil earlier => rfl
  | cons hMeans hReads ih => simp [ih]

/- Each literal means the action at its place. -/
theorem Reads.means
    {i : Nat}
    {literal : Literal κ θ}
    (hReads : Reads earlier literals actions)
    (hLiteral : literals[i]? = some literal) :
    ∃ a, actions[i]? = some a ∧
      literal.Means (earlier ++ literals.take i) a := by
  induction hReads generalizing i with
  | nil earlier => cases hLiteral
  | @cons earlier literals first a actions hMeans hReads ih =>
      cases i with
      | zero =>
          cases hLiteral
          exact ⟨a, rfl, by simpa using hMeans⟩
      | succ i =>
          rcases ih hLiteral with ⟨a', hAction, hMeans'⟩
          exact ⟨a', hAction, by simpa using hMeans'⟩

/- Literals of which each means the action at its place. -/
theorem reads_of_means
    (hLength : actions.length = literals.length)
    (hMeans : ∀ (i : Nat) literal a,
      literals[i]? = some literal → actions[i]? = some a →
        literal.Means (earlier ++ literals.take i) a) :
    Reads earlier literals actions := by
  induction literals generalizing earlier actions with
  | nil =>
      cases List.length_eq_zero_iff.mp hLength
      exact .nil earlier
  | cons literal literals ih =>
      cases actions with
      | nil => cases hLength
      | cons a actions =>
          refine .cons ?_ (ih (Nat.succ.inj hLength) ?_)
          · simpa using hMeans 0 literal a rfl rfl
          · intro i literal' a' hLiteral hAction
            simpa using hMeans (i + 1) literal' a' hLiteral hAction

/- Literals mean one list of actions. -/
theorem Reads.unique
    {others : List (Action κ θ)}
    (hReads : Reads earlier literals actions)
    (hOthers : Reads earlier literals others) :
    actions = others := by
  induction hReads generalizing others with
  | nil earlier =>
      cases hOthers
      rfl
  | cons hMeans hReads ih =>
      cases hOthers with
      | cons hMeans' hReads' =>
          rw [hMeans.unique hMeans', ih hReads']

------------------------------------------------------------
-- Reading whole scripts
------------------------------------------------------------

/-
  Reading gives the actions that the literals mean, or stops at
  the first literal that is wrong.
-/
theorem parseFrom_cases
    (index : Nat)
    (literals : List (Literal κ θ))
    (hCarries : Carries earlier way) :
    (∃ actions,
        parseFrom index way literals = .ok actions ∧
          Reads earlier literals actions) ∨
      ∃ first literal later actions flaw,
        literals = first ++ literal :: later ∧
          parseFrom index way literals =
            .error (.malformed (index + first.length) flaw) ∧
          Reads earlier first actions ∧
          literal.Breaks (earlier ++ first) flaw := by
  induction literals generalizing index earlier way with
  | nil => exact .inl ⟨[], rfl, .nil earlier⟩
  | cons literal literals ih =>
      rcases parseFrom_cons_cases literal hCarries with
        ⟨a, way', hMeans, hNext, hParse⟩ |
          ⟨flaw, hBreaks, hParse⟩
      · rcases ih (index + 1) hNext with
          ⟨actions, hRest, hReads⟩ |
            ⟨first, other, later, actions, flaw, rfl, hRest,
              hReads, hBreaks⟩
        · refine .inl ⟨a :: actions, ?_, .cons hMeans hReads⟩
          rw [hParse, hRest]
          rfl
        · refine .inr ⟨literal :: first, other, later,
            a :: actions, flaw, rfl, ?_, .cons hMeans hReads, ?_⟩
          · rw [hParse, hRest, List.length_cons,
              Nat.add_right_comm]
            rfl
          · simpa using hBreaks
      · refine .inr ⟨[], literal, literals, [], flaw, rfl, ?_,
          .nil earlier, ?_⟩
        · exact hParse index literals
        · simpa using hBreaks

/- The same for all the literals of a script. -/
theorem parse_cases
    (literals : List (Literal κ θ)) :
    (∃ actions,
        parse literals = .ok ⟨actions⟩ ∧
          Reads [] literals actions) ∨
      ∃ first literal later actions flaw,
        literals = first ++ literal :: later ∧
          parse literals =
            .error (.malformed (first.length + 1) flaw) ∧
          Reads [] first actions ∧
          literal.Breaks first flaw := by
  have hStart : Carries ([] : List (Literal κ θ)) none :=
    fun _ => List.not_mem_nil
  rcases parseFrom_cases 1 literals hStart with
    ⟨actions, hParse, hReads⟩ |
      ⟨first, literal, later, actions, flaw, hSplit, hParse,
        hReads, hBreaks⟩
  · refine .inl ⟨actions, ?_, hReads⟩
    rw [parse, hParse]
    rfl
  · refine .inr ⟨first, literal, later, actions, flaw, hSplit,
      ?_, hReads, hBreaks⟩
    rw [parse, hParse, Nat.add_comm 1]
    rfl

/- A script is read if and only if the literals mean it. -/
theorem parse_eq_ok_iff
    {script : Script κ θ} :
    parse literals = .ok script ↔
      Reads [] literals script.actions := by
  rcases parse_cases literals with
    ⟨actions, hParse, hReads⟩ |
      ⟨first, literal, later, actions, flaw, rfl, hParse, hReads,
        hBreaks⟩
  · rw [hParse]
    constructor
    · rintro ⟨⟩
      exact hReads
    · intro hScript
      rw [hReads.unique hScript]
  · rw [hParse]
    constructor
    · exact nofun
    · intro hScript
      have hPlace : (first ++ literal :: later)[first.length]? =
          some literal := by
        simp
      rcases hScript.means hPlace with ⟨a, -, hMeans⟩
      exact absurd hMeans.fits (by simpa using hBreaks.not_fits)

/-
  It is not read if and only if a literal is wrong after others
  that make sense, and the first such literal is reported.
-/
theorem parse_eq_error_iff :
    parse literals = .error error ↔
      ∃ (i : Nat) (literal : Literal κ θ) (flaw : Flaw),
        literals[i]? = some literal ∧
          error = .malformed (i + 1) flaw ∧
          literal.Breaks (literals.take i) flaw ∧
          ∀ (j : Nat) other, j < i → literals[j]? = some other →
            other.Fits (literals.take j) := by
  rcases parse_cases literals with
    ⟨actions, hParse, hReads⟩ |
      ⟨first, literal, later, actions, flaw, rfl, hParse, hReads,
        hBreaks⟩
  · rw [hParse]
    constructor
    · exact nofun
    · rintro ⟨i, literal, flaw, hLiteral, -, hBreaks, -⟩
      rcases hReads.means hLiteral with ⟨a, -, hMeans⟩
      exact absurd hMeans.fits hBreaks.not_fits
  · rw [hParse]
    -- before the wrong literal all make sense
    have hFits : ∀ (j : Nat) other, j < first.length →
        (first ++ literal :: later)[j]? = some other →
          other.Fits ((first ++ literal :: later).take j) := by
      intro j other hLess hOther
      rw [List.getElem?_append_left hLess] at hOther
      rw [List.take_append_of_le_length (Nat.le_of_lt hLess)]
      rcases hReads.means hOther with ⟨a, -, hMeans⟩
      exact hMeans.fits
    constructor
    · rintro ⟨⟩
      exact ⟨first.length, literal, flaw, by simp, rfl,
        by simpa using hBreaks, hFits⟩
    · rintro ⟨i, other, flaw', hOther, rfl, hOtherBreaks, hBefore⟩
      rcases Nat.lt_trichotomy i first.length with
        hLess | rfl | hGreater
      · exact absurd (hFits i other hLess hOther)
          hOtherBreaks.not_fits
      · obtain rfl : literal = other := by simpa using hOther
        rw [hBreaks.unique (by simpa using hOtherBreaks)]
      · refine absurd (hBefore _ literal hGreater ?_) ?_
        · simp
        · simpa using hBreaks.not_fits

------------------------------------------------------------
-- Scripts that are written down
------------------------------------------------------------

end Script

/- How an action is written down. -/
def Action.literal : Action κ θ → Literal κ θ
  | sendLine line => .text (sendMark ++ line)
  | recvLine line => .text (recvMark ++ line)
  | sendRaw bytes => .bytes bytes
  | recvRaw bytes => .bytes bytes
  | control c => .action (.control c)

/- What is written down as a marked text is that line. -/
theorem Action.literal_eq_text_iff
    {a : Action κ θ}
    {w : Way}
    {line : String} :
    a.literal = .text (w.mark ++ line) ↔ a = w.line line := by
  constructor
  · intro hLiteral
    cases a with
    | sendLine l =>
        simp only [literal, Literal.text.injEq] at hLiteral
        rcases Way.eq_of_mark_append (w := .send) hLiteral with
          ⟨rfl, rfl⟩
        rfl
    | recvLine l =>
        simp only [literal, Literal.text.injEq] at hLiteral
        rcases Way.eq_of_mark_append (w := .recv) hLiteral with
          ⟨rfl, rfl⟩
        rfl
    | sendRaw bytes => cases hLiteral
    | recvRaw bytes => cases hLiteral
    | control c => cases hLiteral
  · rintro rfl
    cases w <;> rfl

namespace Script

/- A script as it is written down. -/
def literals
    (script : Script κ θ) : List (Literal κ θ) :=
  script.actions.map Action.literal

/-
  Whether the nearest line before all raw bytes goes the way
  that they go.
-/
def Directed
    (script : Script κ θ) : Prop :=
  ∀ (i : Nat) (w : Way) bytes,
    script.actions[i]? = some (w.raw bytes) →
      ∃ first line rest,
        script.actions.take i = first ++ w.line line :: rest ∧
          ∀ (v : Way) other, v.line other ∉ rest

/- The nearest text is the nearest line. -/
theorem heading_map_literal_iff
    {earlier : List (Action κ θ)}
    {w : Way} :
    Literal.Heading (earlier.map Action.literal) w ↔
      ∃ first line rest,
        earlier = first ++ w.line line :: rest ∧
          ∀ (v : Way) other, v.line other ∉ rest := by
  constructor
  · rintro ⟨first, line, rest, hSplit, hRest⟩
    rcases List.map_eq_append_iff.mp hSplit with
      ⟨firsts, others, rfl, rfl, hOthers⟩
    rcases List.map_eq_cons_iff.mp hOthers with
      ⟨a, rests, rfl, hLine, rfl⟩
    obtain rfl := Action.literal_eq_text_iff.mp hLine
    refine ⟨firsts, line, rests, rfl, ?_⟩
    intro v other hMember
    apply hRest (v.mark ++ other)
    rw [← Action.literal_eq_text_iff.mpr rfl]
    exact List.mem_map_of_mem hMember
  · rintro ⟨first, line, rest, rfl, hRest⟩
    refine ⟨first.map Action.literal, line,
      rest.map Action.literal, ?_, ?_⟩
    · rw [List.map_append, List.map_cons,
        Action.literal_eq_text_iff.mpr rfl]
    · intro t hText
      rcases List.mem_map.mp hText with ⟨a, hMember, hLiteral⟩
      cases a with
      | sendLine l => exact hRest .send l hMember
      | recvLine l => exact hRest .recv l hMember
      | sendRaw bytes => cases hLiteral
      | recvRaw bytes => cases hLiteral
      | control c => cases hLiteral

/-
  What is written down for an action means that action, but for
  raw bytes only if the nearest text goes their way.
-/
theorem means_literal_iff
    {earlier : List (Literal κ θ)}
    {a : Action κ θ} :
    a.literal.Means earlier a ↔
      ∀ (w : Way) bytes, a = w.raw bytes →
        Literal.Heading earlier w := by
  have hRaw : ∀ (v : Way) bytes,
      (Literal.bytes bytes).Means earlier (v.raw bytes) ↔
        ∀ (w : Way) other,
          (v.raw bytes : Action κ θ) = w.raw other →
            Literal.Heading earlier w := by
    intro v bytes
    rw [Literal.means_bytes_iff]
    constructor
    · rintro ⟨u, hSame, hHeading⟩ w other hOther
      rw [← (Way.eq_of_raw (hSame.symm.trans hOther)).1]
      exact hHeading
    · intro hHeading
      exact ⟨v, rfl, hHeading v bytes rfl⟩
  cases a with
  | sendLine line =>
      exact iff_of_true (.line .send line)
        fun w _ hLine => by cases w <;> cases hLine
  | recvLine line =>
      exact iff_of_true (.line .recv line)
        fun w _ hLine => by cases w <;> cases hLine
  | sendRaw bytes => exact hRaw .send bytes
  | recvRaw bytes => exact hRaw .recv bytes
  | control c =>
      exact iff_of_true (.action (.control c))
        fun w _ hControl => by cases w <;> cases hControl

/- A script is read back if and only if its bytes have their way. -/
theorem parse_literals_eq_ok_iff
    (script : Script κ θ) :
    parse script.literals = .ok script ↔ script.Directed := by
  rw [parse_eq_ok_iff]
  -- the literals before a place are those of the actions there
  have hTake : ∀ i,
      [] ++ script.literals.take i =
        (script.actions.take i).map Action.literal := by
    intro i
    rw [List.nil_append, literals, List.map_take]
  constructor
  · intro hReads i w bytes hRaw
    have hLiteral : script.literals[i]? =
        some (w.raw bytes : Action κ θ).literal := by
      rw [literals, List.getElem?_map, hRaw]
      rfl
    rcases hReads.means hLiteral with ⟨a, hAction, hMeans⟩
    cases hAction.symm.trans hRaw
    rw [hTake] at hMeans
    exact heading_map_literal_iff.mp
      (means_literal_iff.mp hMeans w bytes rfl)
  · intro hDirected
    apply reads_of_means
    · exact (List.length_map _).symm
    · intro i literal a hLiteral hAction
      rw [literals, List.getElem?_map, hAction] at hLiteral
      cases hLiteral
      rw [hTake]
      apply means_literal_iff.mpr
      rintro w bytes rfl
      exact heading_map_literal_iff.mpr
        (hDirected i w bytes hAction)

------------------------------------------------------------
-- The grammar
------------------------------------------------------------

/-
  What becomes of some literals: they are read if each of them
  makes sense after those before it; then each means the action
  at its place; and otherwise the first that is wrong is
  reported by its number, counting from 1.
-/
structure Grammar
    (literals : List (Literal κ θ)) : Prop where
  accepts :
    (∃ script, parse literals = .ok script) ↔
      ∀ (i : Nat) literal, literals[i]? = some literal →
        literal.Fits (literals.take i)
  means : ∀ script, parse literals = .ok script →
    script.length = literals.length ∧
      ∀ (i : Nat) literal, literals[i]? = some literal →
        ∃ a, script.actions[i]? = some a ∧
          literal.Means (literals.take i) a
  rejects : ∀ error,
    parse literals = .error error ↔
      ∃ (i : Nat) (literal : Literal κ θ) (flaw : Flaw),
        literals[i]? = some literal ∧
          error = .malformed (i + 1) flaw ∧
          literal.Breaks (literals.take i) flaw ∧
          ∀ (j : Nat) other, j < i → literals[j]? = some other →
            other.Fits (literals.take j)

/-
  Reading keeps to the grammar for all literals, and gives back
  exactly the scripts of which all raw bytes go the way of the
  nearest line before them.
-/
theorem parse_grammar :
    (∀ literals : List (Literal κ θ), Grammar literals) ∧
      ∀ script : Script κ θ,
        parse script.literals = .ok script ↔ script.Directed := by
  refine ⟨fun literals => ?_, parse_literals_eq_ok_iff⟩
  constructor
  · constructor
    · rintro ⟨script, hParse⟩ i literal hLiteral
      rcases (parse_eq_ok_iff.mp hParse).means hLiteral with
        ⟨a, -, hMeans⟩
      exact hMeans.fits
    · intro hFits
      cases hParse : parse literals with
      | ok script => exact ⟨script, rfl⟩
      | error error =>
          rcases parse_eq_error_iff.mp hParse with
            ⟨i, literal, flaw, hLiteral, -, hBreaks, -⟩
          exact absurd (hFits i literal hLiteral)
            hBreaks.not_fits
  · intro script hParse
    have hReads := parse_eq_ok_iff.mp hParse
    exact ⟨hReads.length_eq, fun i literal => hReads.means⟩
  · intro error
    exact parse_eq_error_iff

end Script

end Parley
