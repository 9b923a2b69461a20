import Parley.Client
import Parley.Proofs.Switch.Script
/-
  This file gives the clients at the other end of a script in
  the middle of which the surrogate begins to compress. Such a
  client reads the lines that the surrogate sends and sends
  those that it expects; it begins to compress right after it
  has read the last plain line. It stops if it reads another
  line than the script has, or if it holds bytes that it has not
  read when it is to begin.

  How it tells where a line ends and for how many bytes it has
  room is its own affair. It honours the pact and never stops.

  Key definitions include:
    * `Switch.Habit`
    * `Switch.Habit.hear`
    * `Switch.Habit.followAll`
    * `Switch.begin`
    * `Switch.Habit.converse`
    * `Switch.Attending`

  Key theorems include:
    * `Switch.Habit.hear_usual`
    * `Switch.Attending.yields_hear`
    * `Switch.yields_followAll`
    * `Switch.Habit.honours_converse`
-/

universe v

namespace Parley

namespace Switch

open Routine Dialogue

variable {κ : Codec} {θ : Tls.Provider}

------------------------------------------------------------
-- Clients
------------------------------------------------------------

/-
  How a client goes about reading lines: whether it searches for
  what ends them or counts on their length, and for how many
  bytes it has room, in view of those that it has taken in and
  of how many are missing.
-/
structure Habit where
  searches : Bool
  room : Bytes → Nat → Nat
  room_pos :
    ∀ pending missing, 0 < missing → 0 < room pending missing

/- Why a client stops before the end. -/
inductive Upset where
  | failed (error : IoError)
  | ended (pending : Bytes)
  | misread (line : Bytes)
  | unread (pending : Bytes)
  | compressing
deriving DecidableEq, Repr

namespace Habit

/- It never takes in more than is missing. -/
def Exact
    (h : Habit) : Prop :=
  ∀ pending missing, h.room pending missing ≤ missing

/- Where a line ends, and how many bytes are used up with it. -/
def cut
    (h : Habit)
    (terminator line pending : Bytes) : Option (Nat × Nat) :=
  if h.searches then
    (terminator.find? pending).map fun n =>
      (n, n + terminator.length)
  else if line.length + terminator.length ≤ pending.length then
    some (line.length, line.length + terminator.length)
  else none

/- Read a line. -/
def hear
    (h : Habit)
    (c : Client κ θ)
    (line : Bytes) : Client.Run κ θ Found :=
  c.readUntil
    (fun pending =>
      h.room pending
        (line.length + c.terminator.length - pending.length))
    (h.cut c.terminator line)

/- What is done at the other end of an action. -/
def follow
    (h : Habit)
    (c : Client κ θ) :
    LineAction →
    Routine endpointInterface (Except Upset Unit × Client κ θ)
  | .send line =>
    (h.hear c (Bytes.ofString line)).bind fun
      | (.ok (.bytes got), c) =>
        if got = Bytes.ofString line then .done (.ok (), c)
        else .done (.error (.misread got), c)
      | (.ok (.eof pending), c) =>
        .done (.error (.ended pending), c)
      | (.error e, c) => .done (.error (.failed e), c)
  | .recv line =>
    (c.sendLine (Bytes.ofString line)).bind fun (r, c) =>
      .done (r.mapError .failed, c)

/- What is done at the other end of actions in a row. -/
def followAll
    (h : Habit) :
    Client κ θ →
    List LineAction →
    Routine endpointInterface (Except Upset Unit × Client κ θ)
  | c, [] => .done (.ok (), c)
  | c, a :: rest =>
    (h.follow c a).ifOk fun () c => h.followAll c rest

end Habit

/- Begin to compress, with nothing left unread. -/
def begin
    (level : Nat)
    (c : Client κ θ) : Except Upset Unit × Client κ θ :=
  if c.pending = [] then
    match c.enableDeflate level with
    | (.ok true, c) => (.ok (), c)
    | (.ok false, c) => (.error .compressing, c)
    | (.error e, c) => (.error (.failed e), c)
  else (.error (.unread c.pending), c)

/- Go through a script at its other end. -/
def Habit.converse
    (h : Habit)
    (level : Nat)
    (s : SwitchScript)
    (terminator : Bytes) :
    Routine endpointInterface (Except Upset Unit × Client κ θ) :=
  (h.followAll (Client.new terminator) s.opening).ifOk fun () c =>
    (Routine.done (begin level c)).ifOk fun () c =>
      h.followAll c s.closing

/- The habit of searching, with room for a chunk. -/
def Habit.usual : Habit where
  searches := true
  room _ _ := Client.chunkSize
  room_pos _ _ _ := by decide

/- It is the one with which a client reads lines by itself. -/
theorem Habit.hear_usual
    (c : Client κ θ)
    (line : Bytes) :
    usual.hear c line = c.readLine :=
  rfl

------------------------------------------------------------
-- Lines, whatever the layers
------------------------------------------------------------

/-
  A search and a count find the end of a line at the same place
  and at the same time, if the line is framed.
-/
theorem Habit.cut_eq
    {h : Habit}
    {terminator line rest pending : Bytes}
    (hFramed : h.searches = true → Bytes.Framed terminator line)
    (hPending : pending <+: line ++ terminator ++ rest) :
    h.cut terminator line pending =
      if line.length + terminator.length ≤ pending.length then
        some (line.length, line.length + terminator.length)
      else none := by
  unfold cut
  by_cases hSearches : h.searches = true
  · rw [if_pos hSearches]
    replace hFramed := hFramed hSearches
    by_cases hNone : terminator = []
    · subst hNone
      obtain rfl := hFramed.eq_nil
      rw [Bytes.find?_of_isPrefix List.nil_prefix]
      simp
    · rw [Bytes.find?_of_framed hFramed hNone hPending]
      split
      · rfl
      · rfl
  · rw [if_neg hSearches]

/-
  A client in the middle of a script: it wrote `said` to its
  layers, and what it is still to read is `left`, of which it
  may have taken some in.
-/
structure Attending
    {W : Type v}
    (stands : Layer κ θ → Bytes → Bytes → W → Prop)
    (terminator said left : Bytes)
    (c : Client κ θ)
    (w : W) : Prop where
  terminator_eq : c.terminator = terminator
  stands :
    ∃ layer coming,
      c.layer = some layer ∧ c.pending ++ coming = left ∧
        stands layer said coming w

section

variable {W : Type v} {env : Environment endpointInterface W}
variable {stands : Layer κ θ → Bytes → Bytes → W → Prop}
variable {quiet : Bytes → Nat → Bytes → Prop}
variable {terminator whole said left : Bytes}
variable {c : Client κ θ} {w : W} {h : Habit}

/- A line that comes next is the one that is read. -/
theorem Attending.yields_hear
    (line : Bytes)
    (hHears : Hears env stands quiet)
    (hQuiet :
      ∀ pending missing coming,
        missing ≤ coming.length →
          quiet said (h.room pending missing) coming)
    (hFramed : h.searches = true → Bytes.Framed terminator line)
    (hAttending :
      Attending stands terminator said
        (line ++ terminator ++ left) c w) :
    Yields env
      (fun (r, c) w =>
        r = .ok (.bytes line) ∧
          Attending stands terminator said left c w)
      (h.hear c line) w := by
  rcases c with ⟨_, terminator, pending⟩
  rcases hAttending with ⟨rfl, layer, coming, rfl, hLeft, hStands⟩
  -- More of the same stream has been taken in before every round.
  apply yields_loop
    (fun rank (c : Client κ θ) w => ∃ layer pending coming,
      c = ⟨some layer, terminator, pending⟩ ∧
        pending ++ coming = line ++ terminator ++ left ∧
        rank = coming.length ∧ stands layer said coming w)
    coming.length ⟨layer, pending, coming, rfl, hLeft, rfl, hStands⟩
  rintro rank _ w ⟨layer, pending, coming, rfl, hLeft, rfl, hStands⟩
  have hPending : pending <+: line ++ terminator ++ left :=
    ⟨coming, hLeft⟩
  have hLength := congrArg List.length hLeft
  simp only [List.length_append] at hLength
  simp only [h.cut_eq hFramed hPending]
  by_cases hThere :
    line.length + terminator.length ≤ pending.length
  · rw [if_pos hThere]
    have hTake : pending.take line.length = line := by
      have hBoth := congrArg (List.take line.length) hLeft
      rw [List.take_append_of_le_length (by omega),
        List.append_assoc, List.take_left] at hBoth
      exact hBoth
    have hDrop :
        pending.drop (line.length + terminator.length) ++ coming =
          left := by
      have hBoth := congrArg
        (List.drop (line.length + terminator.length)) hLeft
      rw [List.drop_append_of_le_length hThere,
        ← List.length_append, List.drop_left] at hBoth
      rw [← List.length_append]
      exact hBoth
    refine .done (.done ⟨?_, rfl, layer, coming, rfl, hDrop, hStands⟩)
    rw [hTake]
  · rw [if_neg hThere]
    have hMissing : 0 < line.length + terminator.length -
        pending.length := by
      omega
    have hEnough : line.length + terminator.length -
        pending.length ≤ coming.length := by
      omega
    simp only [Client.fill, Client.onLayer, Routine.ifOk, bind_assoc,
      done_bind]
    apply (hHears layer said coming w _ hStands
      (h.room_pos pending _ hMissing)
      (hQuiet pending _ coming hEnough)).bind
    rintro ⟨r, layer⟩ w ⟨chunk, rest, rfl, hSome, -, rfl, hNext⟩
    cases chunk with
    | nil => exact absurd rfl hSome
    | cons b chunk =>
        refine .done ⟨rest.length, ?_, layer, pending ++ b :: chunk,
          rest, rfl, ?_, rfl, hNext⟩
        · rw [List.length_append, List.length_cons]
          omega
        · rw [List.append_assoc]
          exact hLeft

/- A line is sent with what ends it. -/
theorem Attending.yields_sendLine
    (line : Bytes)
    (hSpeaks : Speaks env stands whole)
    (hAttending : Attending stands terminator said left c w)
    (hWhole : said ++ (line ++ terminator) <+: whole) :
    Yields env
      (fun (r, c) w =>
        r = .ok () ∧
          Attending stands terminator (said ++ (line ++ terminator))
            left c w)
      (c.sendLine line) w := by
  rcases c with ⟨_, terminator, pending⟩
  rcases hAttending with ⟨rfl, layer, coming, rfl, hLeft, hStands⟩
  simp only [Client.sendLine, Client.send, Client.onLayer,
    Routine.ifOk, bind_assoc]
  apply (hSpeaks.yields_writeAll hStands hWhole).bind
  rintro ⟨r, layer⟩ w ⟨rfl, hWritten⟩
  apply (hSpeaks.flush hWritten hWhole).bind
  rintro ⟨r, layer⟩ w ⟨rfl, hNext⟩
  exact .done ⟨rfl, rfl, layer, coming, rfl, hLeft, hNext⟩

/- What is done at the other end of actions does not stop. -/
theorem yields_followAll
    (actions : List LineAction)
    (hHears : Hears env stands quiet)
    (hSpeaks : Speaks env stands whole)
    (hQuiet :
      ∀ said', said' <+: said ++ spoken terminator actions .client →
        ∀ pending missing coming,
          missing ≤ coming.length →
            quiet said' (h.room pending missing) coming)
    (hFramed :
      h.searches = true → ∀ line, .send line ∈ actions →
        Bytes.Framed terminator (Bytes.ofString line))
    (hAttending :
      Attending stands terminator said
        (spoken terminator actions .surrogate ++ left) c w)
    (hWhole :
      said ++ spoken terminator actions .client <+: whole) :
    Yields env
      (fun (r, c) w =>
        r = .ok () ∧
          Attending stands terminator
            (said ++ spoken terminator actions .client)
            left c w)
      (h.followAll c actions) w := by
  induction actions generalizing said c w with
  | nil =>
      rw [spoken_nil, List.append_nil]
      exact .done ⟨rfl, hAttending⟩
  | cons action actions ih =>
      have hLater : h.searches = true →
          ∀ line, .send line ∈ actions →
            Bytes.Framed terminator (Bytes.ofString line) :=
        fun hSearches line hMember =>
          hFramed hSearches line (List.mem_cons_of_mem _ hMember)
      cases action with
      | send line =>
          rw [spoken_send_surrogate, List.append_assoc]
            at hAttending
          have hNow := hQuiet said (List.prefix_append _ _)
          simp only [Habit.followAll, Habit.follow, Routine.ifOk,
            bind_assoc]
          apply (hAttending.yields_hear _ hHears hNow
            fun hSearches =>
              hFramed hSearches line List.mem_cons_self).bind
          rintro ⟨r, c⟩ w ⟨rfl, hNext⟩
          simp only [if_true]
          exact ih hQuiet hLater hNext hWhole
      | recv line =>
          rw [spoken_recv_client, ← List.append_assoc]
            at hQuiet hWhole ⊢
          have hNow := (List.prefix_append _ _).trans hWhole
          simp only [Habit.followAll, Habit.follow, Routine.ifOk,
            bind_assoc]
          apply (hAttending.yields_sendLine _ hSpeaks hNow).bind
          rintro ⟨r, c⟩ w ⟨rfl, hNext⟩
          exact ih hQuiet hLater hNext hWhole

end

------------------------------------------------------------
-- The whole script
------------------------------------------------------------

/- A client that has read all plain lines is as good as new. -/
theorem Attending.eq_new
    {pact : Pact κ}
    {terminator said : Bytes}
    {c : Client κ θ}
    {w : Bytes × Bytes}
    (hAttending :
      Attending (pact.Uncoded .client) terminator said [] c w) :
    c = Client.new terminator ∧
      w.1 = (pact.speech .surrogate).plain ∧ w.2 = said := by
  rcases c with ⟨layer, _, pending⟩
  rcases hAttending with
    ⟨rfl, _, coming, rfl, hLeft, rfl, hGave, hGot⟩
  rcases List.append_eq_nil_iff.mp hLeft with ⟨rfl, rfl⟩
  rw [List.append_nil] at hGot
  exact ⟨rfl, hGot, hGave⟩

/- A client with nothing unread begins to compress. -/
theorem begin_new
    (level : Nat)
    (terminator : Bytes) :
    begin level (Client.new terminator : Client κ θ) =
      (.ok (),
        { (Client.new terminator : Client κ θ) with
          layer := some (Layer.compress .plain level) }) :=
  rfl

/-
  The client goes through the script to its end: as long as it
  says plain lines the surrogate is not ready, and once it has
  read all of those it is ready itself.
-/
theorem Habit.honours_converse
    {h : Habit}
    {s : SwitchScript}
    {terminator : Bytes}
    {level : Nat}
    {text text' : Bytes → Bytes}
    {bound bound' : Nat → Nat}
    (hSurrogate :
      κ.Lawful (min s.level Layer.highestLevel) text bound)
    (hClient :
      κ.Lawful (min level Layer.highestLevel) text' bound')
    (hFramed :
      h.searches = true → ∀ line, .send line ∈ s.lines →
        Bytes.Framed terminator (Bytes.ofString line))
    (hExact : terminator = [] → h.Exact) :
    Honours (s.pact terminator hSurrogate hClient).terms .client
      (fun (r : Except Upset Unit × Client κ θ) _ _ => r.1 = .ok ())
      (h.converse level s terminator) [] [] := by
  intro limit _
  let pact := s.pact terminator hSurrogate hClient
  have hBegin :
      Attending (pact.Uncoded (θ := θ) .client) terminator []
        (spoken terminator s.opening .surrogate ++ [])
        (Client.new terminator) ([], []) := by
    rw [List.append_nil]
    exact ⟨rfl, _, _, rfl, rfl, rfl, rfl, rfl⟩
  have hOpening := yields_followAll (h := h) s.opening
    (pact.hears_uncoded limit .client)
    (pact.speaks_uncoded limit .client)
    (by
      intro said hSaid pending missing coming hMissing
      by_cases hNone : terminator = []
      · exact .inr (Nat.le_trans (hExact hNone _ _) hMissing)
      · exact .inl (SwitchScript.not_ready_surrogate hNone hSaid))
    (fun hSearches line hMember =>
      hFramed hSearches line (List.mem_append_left _ hMember))
    hBegin List.prefix_rfl
  apply hOpening.ifOk_of_ok
  intro c w hAttending
  rcases hAttending.eq_new with ⟨rfl, hGot, hGave⟩
  rw [begin_new]
  simp only [Routine.ifOk, done_bind]
  have hReady : s.Ready terminator .client w.1 :=
    Nat.le_of_eq (congrArg List.length hGot.symm)
  have hSwitched :
      Attending
        (pact.Coded (θ := θ) .client (s.Ready terminator .client))
        terminator []
        (spoken terminator s.closing .surrogate ++ [])
        { (Client.new terminator : Client κ θ) with
          layer := some (Layer.compress .plain level) } w := by
    rw [List.append_nil]
    exact ⟨rfl, _, _, rfl, rfl,
      pact.coded_new _ hReady rfl hGot hGave⟩
  have hClosing := yields_followAll (h := h) s.closing
    (pact.hears_coded limit .client pact.ready_of_heard)
    (pact.speaks_coded limit .client fun _ hReady => hReady)
    (fun _ _ _ _ _ _ => trivial)
    (fun hSearches line hMember =>
      hFramed hSearches line (List.mem_append_right _ hMember))
    hSwitched List.prefix_rfl
  apply hClosing.mono
  rintro ⟨r, c⟩ w ⟨hEnd, -⟩
  exact hEnd

end Switch

end Parley
