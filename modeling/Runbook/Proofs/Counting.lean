import Runbook.Configuration
import Runbook.Proofs.Ticking

/-!
# Counting queries

A polling node counts its queries in 32 bits. The count goes up before it is compared with the
number of queries that the settings admit, so it has to have room for one more than these.

* `Configuration.maxPolls_asking` — every number of queries that can be counted can be set.
* `Trace.replies` — what the oracle has answered, and about which operation.
* `Run.pollCounting` — polling with such a counter. It is the polling of every run
  (`Run.poll_eq_pollCounting`).
* `Run.Tires`, `Run.ensures_pollCounting` — what becomes of an operation that stays at work when the
  counter stands somewhere.
* `Run.polls_out` — such an operation is asked about as often as the settings admit. Then the node
  gives up, unless the settings admit as many queries as can be counted: in that case there is no
  room for the count that comes after the last query, and the polling panics.
-/

namespace Runbook

open Program

/-! ## What settings admit -/

namespace Configuration

/-- The digits of a number are read as that number. -/
theorem decimalUpTo?_repr {n max : Nat} (le : n ≤ max) : decimalUpTo? max n.repr = some n := by
  have digits (c : Char) (inside : c ∈ Nat.toDigits 10 n) : c.isDigit = true :=
    Nat.isDigit_of_mem_toDigits (by decide) (by decide) inside
  have value : (Nat.toDigits 10 n).foldl (fun n c => n * 10 + (c.toNat - '0'.toNat)) 0 = n := by
    simpa only [Nat.ofDigitChars, Nat.mul_comm 10] using
      Nat.ofDigitChars_toDigits (b := 10) (n := n) (by decide) (by decide)
  rw [decimalUpTo?, Nat.toList_repr]
  split
  · next rest written => exact absurd (digits '+' (by simp [written])) (by decide)
  · rw [value, if_pos le, if_neg]
    simpa using digits

/-- An environment that sets nothing but how often a node is to ask. -/
def asking (n : UInt32) (key : String) : Option String :=
  if key = "FLOWWORK_MAX_POLL_SEQUENCE" then some n.toNat.repr else none

/-- Every number of queries that can be counted can be set. -/
theorem maxPolls_asking (n : UInt32) :
    (ofEnvironment (asking n)).engine.settings.maxPolls = n := by
  have read : decimalUpTo? (UInt32.size - 1) n.toNat.repr = some n.toNat :=
    decimalUpTo?_repr (Nat.le_sub_one_of_lt n.toNat_lt)
  change UInt32.ofNat (((asking n "FLOWWORK_MAX_POLL_SEQUENCE").bind _).getD 1200) = n
  rw [asking, if_pos rfl, Option.bind_some, read, Option.getD_some, UInt32.ofNat_toNat]

end Configuration

/-! ## What the oracle has answered -/

namespace Trace

variable {pace : Pace} {t u : Trace}

/-- What the oracle has answered, and about which operation; the latest first. -/
def replies : Trace → List (String × Answer)
  | [] => []
  | .asked (.query operation) answer :: t => (operation, answer) :: replies t
  | _ :: t => replies t

/-- As long as the oracle is not asked, it does not answer. -/
theorem Adds.replies_eq (h : t.Adds (·.queried = none) u) : u.replies = t.replies := by
  obtain ⟨new, rfl, asks⟩ := h
  induction new with
  | nil => rfl
  | cons e new ih =>
    have rest := ih fun r x inside => asks r x (List.mem_cons_of_mem _ inside)
    cases e with
    | asked r x =>
      have here := asks r x List.mem_cons_self
      cases r with
      | query => cases here
      | _ => exact rest
    | _ => exact rest

theorem Answers.replies_eq {r : Request} {x : r.Answer} (h : t.Answers pace r x u)
    (other : r.queried = none) : u.replies = t.replies := (h.adds other).replies_eq

theorem Wakes.replies_eq {p : Pause} {w : Wake} (h : t.Wakes pace p w u) :
    u.replies = t.replies := Adds.replies_eq h.adds

theorem replies_calls (cs : List SignalCall) (t : Trace) :
    replies (calls cs ++ t) = replies t := Adds.replies_eq (Adds.calls cs)

/-- If it is asked, that is one more answer. -/
theorem Answers.replies_query {operation : String} {answer : Answer}
    (h : t.Answers pace (.query operation) answer u) :
    u.replies = (operation, answer) :: t.replies := by
  obtain ⟨cs, -, -, rfl⟩ := h
  exact replies_calls cs _

end Trace

namespace Run

variable {α : Type} {pace : Pace} {r : Run} {t u : Trace} {operation : String} {count : UInt32}
  {left : Nat}

/-! ## The counter -/

/-- A count that fits goes up by one. -/
theorem toNat_add_one (fits : count.toNat + 1 < UInt32.size) :
    (count + 1).toNat = count.toNat + 1 := by
  rw [UInt32.toNat_add]
  exact Nat.mod_eq_of_lt fits

/-- Ask about an operation, the next time at the nanosecond `due`, after `count` queries. The count
goes up before it is compared with the number of queries that the settings admit, and it has to
fit. -/
def pollCounting (r : Run) (operation : String) (count : UInt32) (due : Nat) :
    Program (Except Failure (Option String)) :=
  r.unlessCanceled <| r.pauseFor (.until (Duration.millisFor due)) <|
    if _ : count.toNat + 1 < UInt32.size then
      if r.settings.maxPolls < count + 1 then
        return .error (.pollingTimeout r.settings.maxPolls)
      else do
        let clock ← Program.request .clock
        match ← r.ask operation with
        | .error f => return .error f
        | .ok answer =>
          match verdict answer with
          | some result => return result
          | none =>
            pollCounting r operation (count + 1) (nextDue r.settings.pollInterval due clock)
    else .panic
termination_by UInt32.size - count.toNat
decreasing_by
  rw [toNat_add_one ‹_›]
  omega

/-- A count that fits exceeds the number of queries that the settings admit once none is left. -/
theorem maxPolls_lt_add_one_iff (fits : count.toNat + 1 < UInt32.size)
    (all : count.toNat + left = r.settings.maxPolls.toNat) :
    r.settings.maxPolls < count + 1 ↔ left = 0 := by
  rw [UInt32.lt_iff_toNat_lt, toNat_add_one fits]
  omega

/-- To count down the queries that are left is to count up those that were made. -/
theorem pollFrom_eq_pollCounting (all : count.toNat + left = r.settings.maxPolls.toNat)
    (due : Nat) : r.pollFrom operation left due = r.pollCounting operation count due := by
  -- on the queries that are left, which with those made add up to the bound
  induction left generalizing count due with
  | zero =>
    rw [pollFrom, pollCounting, ← all, Nat.add_zero]
    by_cases fits : count.toNat + 1 < UInt32.size
    · rw [if_pos fits, dif_pos fits, if_pos ((maxPolls_lt_add_one_iff fits all).2 rfl)]
    · rw [if_neg fits, dif_neg fits]
  | succ left ih =>
    -- one more query is left, so the count is below the bound and does not overflow
    have fits : count.toNat + 1 < UInt32.size :=
      Nat.lt_of_le_of_lt (by omega) r.settings.maxPolls.toNat_lt
    have more : ¬r.settings.maxPolls < count + 1 :=
      mt (maxPolls_lt_add_one_iff fits all).1 (Nat.succ_ne_zero left)
    have next (due : Nat) :
        r.pollFrom operation left due = r.pollCounting operation (count + 1) due :=
      ih (by rw [toNat_add_one fits]; omega) due
    rw [pollFrom, pollCounting, dif_pos fits, if_neg more]
    -- both do the same until the verdict
    congr 3
    funext clock
    congr 1
    funext asked
    cases asked with
    | error f => rfl
    | ok answer =>
      dsimp only
      cases verdict answer with
      | some result => rfl
      | none => exact next _

/-- A polling node counts its queries, from zero on. -/
theorem poll_eq_pollCounting {v : Visit} (named : v.operationId ≠ "") :
    r.poll v = (request .clock).bind fun clock =>
      r.pollCounting v.operationId 0 (clock * 1000000 + r.settings.pollInterval.inNanos) := by
  have named : v.operationId.isEmpty = false := by
    simpa using named
  have counts (due : Nat) : r.pollFrom v.operationId r.settings.maxPolls.toNat due =
      r.pollCounting v.operationId 0 due := pollFrom_eq_pollCounting (by simp) due
  rw [poll, named]
  simp only [counts]
  rfl

/-! ## Asking and waiting -/

section

variable {p : Program (Except Failure α)} {Q : Option (Except Failure α) → Trace → Prop}

/-- A condition on how asking and waiting end that every cancellation meets which comes before the
oracle has answered again. -/
def Cancels (Q : Option (Except Failure α) → Trace → Prop) (t : Trace) : Prop :=
  ∀ reason u, u.replies = t.replies → u.signal.fired = true →
    Q (some (.error (.canceled reason))) u

theorem Cancels.later (cancels : Cancels Q t) (same : u.replies = t.replies) : Cancels Q u :=
  fun reason v still fired => cancels reason v (still.trans same) fired

/-- A cancellation that has been noticed is reported. -/
theorem Cancels.ensures (cancels : Cancels Q t) (fired : t.signal.fired = true) :
    (r.signal.bind fun signal => done (.error (.canceled signal.reason))).Ensures pace Q t :=
  ensures_signal fun cs _ => cancels _ _ (Trace.replies_calls cs _) (Trace.fired_append _ fired)

theorem Cancels.ensures_unless (cancels : Cancels Q t)
    (goes : ∀ u : Trace, u.replies = t.replies → p.Ensures pace Q u) :
    (r.unlessCanceled p).Ensures pace Q t := by
  refine ensures_signal fun cs _ => ?_
  have same : Trace.replies (Trace.calls cs ++ .asked (.signal r.id) t.signal :: t) = t.replies :=
    Trace.replies_calls cs _
  cases fired : t.signal.fired with
  | false => exact goes _ same
  | true => exact cancels _ _ same (Trace.fired_append _ fired)

theorem Cancels.ensures_pause {w : Wait} (cancels : Cancels Q t)
    (goes : ∀ u : Trace, u.replies = t.replies → p.Ensures pace Q u) :
    (r.pauseFor w p).Ensures pace Q t := by
  intro wake u woken
  cases wake with
  | signalled => exact (cancels.later woken.replies_eq).ensures woken.fired
  | due | expired => exact goes u woken.replies_eq

end

/-- However long it takes, the oracle answers once. -/
theorem Cancels.ensures_ask {Q : Option (Except Failure Answer) → Trace → Prop}
    (cancels : Cancels Q t)
    (answers : ∀ answer u, u.replies = (operation, answer) :: t.replies → Q (some (.ok answer)) u) :
    (r.ask operation).Ensures pace Q t := by
  have query (u : Trace) (same : u.replies = t.replies) :
      ((request (.query operation)).bind fun x => done (.ok x)).Ensures pace Q u := by
    refine ensures_asked.2 fun answer v asked => answers answer v ?_
    rw [asked.replies_query, same]
  refine cancels.ensures_unless fun u same => ensures_asked.2 fun delay v begun => ?_
  have same' : v.replies = t.replies := (begun.replies_eq rfl).trans same
  cases delay with
  | none => exact query v same'
  | some ms =>
    exact (cancels.later same').ensures_pause fun w same'' => query w (same''.trans same')

/-! ## Operations that stay at work -/

/-- What polling ends with when no query is left. -/
structure Spent (r : Run) (o : Option (Except Failure (Option String))) : Prop where
  /-- the polling gives up, if there is room for one more count -/
  givesUp : r.settings.maxPolls.toNat + 1 < UInt32.size →
    o = some (.error (.pollingTimeout r.settings.maxPolls))
  /-- else it panics -/
  overflows : r.settings.maxPolls.toNat + 1 = UInt32.size → o = none

/-- How the polling of an operation comes to its end, in `u`, when `left` queries are left in `t`,
with what the oracle has answered in between. -/
structure Tires (r : Run) (operation : String) (left : Nat) (t : Trace) (answers : List Answer)
    (o : Option (Except Failure (Option String))) (u : Trace) : Prop where
  /-- the oracle is asked about this operation only -/
  replies : u.replies = answers.map (operation, ·) ++ t.replies
  /-- and no more often than is left -/
  most : answers.length ≤ left
  /-- if the operation stays at work, and nobody cancels the run, it is asked as often as that -/
  spent : u.signal.fired = false → (∀ a ∈ answers, a.Running) → answers.length = left ∧ r.Spent o
  /-- the polling panics in no other case, and only for want of room -/
  panics : o = none → answers.length = left ∧ (∀ a ∈ answers, a.Running) ∧
    r.settings.maxPolls.toNat + 1 = UInt32.size

variable {o : Option (Except Failure (Option String))} {answers : List Answer} {answer : Answer}

/-- Polling panics only where the settings admit as many queries as can be counted. -/
theorem Spent.greatest (spent : r.Spent none) : r.settings.maxPolls.toNat + 1 = UInt32.size := by
  refine Nat.le_antisymm r.settings.maxPolls.toNat_lt (Nat.le_of_not_lt fun fits => ?_)
  cases spent.givesUp fits

/-- Where no query is left, none is made. -/
theorem Spent.tires (spent : r.Spent o) (same : u.replies = t.replies) :
    r.Tires operation 0 t [] o u where
  replies := same
  most := Nat.le_refl 0
  spent _ _ := ⟨rfl, spent⟩
  panics none := ⟨rfl, nofun, (none ▸ spent).greatest⟩

/-- A cancellation says nothing about what else would have become of the operation. -/
theorem cancels_tires (same : u.replies = t.replies) :
    Cancels (fun o u => ∃ answers, r.Tires operation left t answers o u) u := by
  intro reason v still fired
  refine ⟨[], still.trans same, Nat.zero_le left, fun quiet => ?_, nofun⟩
  rw [fired] at quiet
  cases quiet

/-- One more answer has used up one more query. -/
theorem Tires.answered {v : Trace} (h : r.Tires operation left u answers o v)
    (running : answer.Running) (asked : u.replies = (operation, answer) :: t.replies) :
    r.Tires operation (left + 1) t (answers ++ [answer]) o v := by
  have length : (answers ++ [answer]).length = answers.length + 1 := List.length_append
  refine ⟨by simp [h.replies, asked], by rw [length]; exact Nat.succ_le_succ h.most, ?_, ?_⟩
  · intro quiet all
    obtain ⟨used, spent⟩ := h.spent quiet fun a inside => all a (List.mem_append_left _ inside)
    exact ⟨by rw [length, used], spent⟩
  · intro panics
    obtain ⟨used, all, full⟩ := h.panics panics
    exact ⟨by rw [length, used], by simpa [or_imp, forall_and] using ⟨all, running⟩, full⟩

/-- An answer that ends the polling is none that the operation is at work. -/
theorem tires_of_verdict {result : Except Failure (Option String)}
    (ends : verdict answer = some result) (asked : u.replies = (operation, answer) :: t.replies) :
    r.Tires operation (left + 1) t [answer] (some result) u := by
  refine ⟨asked, Nat.succ_le_succ (Nat.zero_le left), fun _ running => ?_, nofun⟩
  rw [verdict_eq_none.2 (running answer (List.mem_singleton.2 rfl))] at ends
  cases ends

/-- So the polling ends, wherever the counter stands. -/
theorem ensures_pollCounting (all : count.toNat + left = r.settings.maxPolls.toNat) (due : Nat)
    (same : u.replies = t.replies) : (r.pollCounting operation count due).Ensures pace
      (fun o v => ∃ answers, r.Tires operation left t answers o v) u := by
  -- on the queries that are left; between them the run may be canceled
  induction left generalizing count due t u with
  | zero =>
    rw [pollCounting]
    refine (cancels_tires same).ensures_unless fun v same' =>
      (cancels_tires (same'.trans same)).ensures_pause fun w same'' => ?_
    have unasked : w.replies = t.replies := same''.trans (same'.trans same)
    -- the count goes beyond the bound now: that is a timeout if it still fits, and an overflow if
    -- not
    split
    · next fits =>
      rw [if_pos ((maxPolls_lt_add_one_iff fits all).2 rfl)]
      have spent : r.Spent (some (.error (.pollingTimeout r.settings.maxPolls))) :=
        ⟨fun _ => rfl, fun full => by omega⟩
      exact ⟨[], spent.tires unasked⟩
    · next full =>
      have spent : r.Spent none := ⟨fun fits => by omega, fun _ => rfl⟩
      exact ⟨[], spent.tires unasked⟩
  | succ left ih =>
    -- there is a query left
    have fits : count.toNat + 1 < UInt32.size :=
      Nat.lt_of_le_of_lt (by omega) r.settings.maxPolls.toNat_lt
    have more : ¬r.settings.maxPolls < count + 1 :=
      mt (maxPolls_lt_add_one_iff fits all).1 (Nat.succ_ne_zero left)
    have all' : (count + 1).toNat + left = r.settings.maxPolls.toNat := by
      rw [toNat_add_one fits]
      omega
    rw [pollCounting, dif_pos fits, if_neg more]
    refine (cancels_tires same).ensures_unless fun v same' =>
      (cancels_tires (same'.trans same)).ensures_pause fun w same'' =>
        ensures_asked.2 fun clock x read => ?_
    have unasked : x.replies = t.replies :=
      (read.replies_eq rfl).trans (same''.trans (same'.trans same))
    refine ensures_bind.2 (Cancels.ensures_ask ?_ fun answer y asked => ?_)
    · exact cancels_tires unasked
    · rw [unasked] at asked
      cases ends : verdict answer with
      | some result =>
        simp only [ends]
        exact ⟨_, tires_of_verdict ends asked⟩
      | none =>
        simp only [ends]
        refine (ih all' _ rfl).mono ?_
        rintro o z ⟨answers, tires⟩
        exact ⟨_, tires.answered (verdict_eq_none.1 ends) asked⟩

/-! ### That there are such operations -/

section

variable {p : Program (Except Failure α)}

theorem only_unlessCanceled (h : p.Only (·.polls operation = true) fun _ => True) :
    (r.unlessCanceled p).Only (·.polls operation = true) fun _ => True := by
  refine ⟨rfl, fun signal => ?_⟩
  dsimp only [done_bind]
  split
  · trivial
  · exact h

theorem only_pauseFor {w : Wait} (h : p.Only (·.polls operation = true) fun _ => True) :
    (r.pauseFor w p).Only (·.polls operation = true) fun _ => True := by
  intro wake
  cases wake with
  | signalled => exact ⟨rfl, fun _ => trivial⟩
  | due | expired => exact h

end

/-- Polling asks about its operation, and for the time. -/
theorem only_pollFrom (left due : Nat) :
    (r.pollFrom operation left due).Only (·.polls operation = true) fun _ => True := by
  have query : ((request (.query operation)).bind fun x => done (.ok x) :
      Program (Except Failure Answer)).Only (·.polls operation = true) fun _ => True :=
    ⟨beq_self_eq_true operation, fun _ => trivial⟩
  have ask : (r.ask operation).Only (·.polls operation = true) fun _ => True := by
    refine only_unlessCanceled ⟨beq_self_eq_true operation, fun delay => ?_⟩
    cases delay with
    | none => exact query
    | some ms => exact only_pauseFor query
  induction left generalizing due with
  | zero =>
    refine only_unlessCanceled (only_pauseFor ?_)
    split <;> trivial
  | succ left ih =>
    refine only_unlessCanceled (only_pauseFor ⟨rfl, fun clock => ask.bind fun x _ => ?_⟩)
    cases x with
    | error f => trivial
    | ok answer =>
      cases ends : verdict answer with
      | some result =>
        simp only [ends]
        trivial
      | none =>
        simp only [ends]
        exact ih _

theorem only_poll_polls {v : Visit} :
    (r.poll v).Only (·.polls v.operationId = true) fun _ => True := by
  rw [poll]
  split
  · trivial
  · exact ⟨rfl, fun clock => only_pollFrom _ _⟩

end Run

namespace Program

variable {α : Type} {operation : String} {p : Program α} {P : α → Prop}

/-- Whatever asks only about an operation may always be told that this is at work. -/
theorem exists_ends_running (pace : Pace) (only : p.Only (·.polls operation = true) P)
    (t : Trace) : ∃ o u, ∃ answers : List Answer, p.Ends pace t o u ∧ u.signal = t.signal ∧
      u.replies = answers.map (operation, ·) ++ t.replies ∧ ∀ a ∈ answers, a.Running := by
  -- each request gets an answer that changes nothing, and each query the one that says so
  induction p generalizing t with
  | done a => exact ⟨some a, t, [], .here, rfl, rfl, by simp⟩
  | panic => exact ⟨none, t, [], .here, rfl, rfl, by simp⟩
  | ask r next ih =>
    obtain ⟨polls, only⟩ := only
    cases r with
    | clock =>
      obtain ⟨o, u, answers, ends, rest⟩ := ih (0 : Nat) (only _) (.asked .clock (0 : Nat) :: t)
      exact ⟨o, u, answers, .ask ⟨[], .inl rfl, trivial, rfl⟩ ends, rest⟩
    | signal run =>
      obtain ⟨o, u, answers, ends, rest⟩ :=
        ih t.signal (only _) (.asked (.signal run) t.signal :: t)
      exact ⟨o, u, answers, .ask ⟨[], .inl rfl, rfl, rfl⟩ ends, rest⟩
    | beginQuery other =>
      obtain ⟨o, u, answers, ends, rest⟩ :=
        ih none (only _) (.asked (.beginQuery other) none :: t)
      exact ⟨o, u, answers, .ask ⟨[], .inl rfl, trivial, rfl⟩ ends, rest⟩
    | query other =>
      obtain rfl : other = operation := beq_iff_eq.1 polls
      obtain ⟨o, u, answers, ends, signal, replies, running⟩ :=
        ih (.ok .running) (only _) (.asked (.query other) (.ok .running) :: t)
      refine ⟨o, u, answers ++ [.ok .running], .ask ⟨[], .inl rfl, trivial, rfl⟩ ends, signal,
        ?_, ?_⟩
      · simp [replies, Trace.replies]
      · simpa [or_imp, forall_and] using ⟨running, rfl⟩
    | _ => cases polls
  | pause w next ih =>
    obtain ⟨o, u, answers, ends, rest⟩ := ih .due (only .due) (.passed w .due :: t)
    have wakes : t.Wakes pace w .due (.passed w .due :: t) :=
      ⟨by simp, _, [], .inl rfl, rfl, .inl ⟨by simp, rfl⟩⟩
    exact ⟨o, u, answers, .pause wakes ends, rest⟩

end Program

/-! ## Polling nodes -/

namespace Run

variable {r : Run} {v : Visit}

/-- How the polling of a visit goes after the trace `t`. -/
structure PollsOut (r : Run) (v : Visit) (pace : Pace) (t : Trace) : Prop where
  /-- the queries are counted in 32 bits, from zero on -/
  counts : r.poll v = (request .clock).bind fun clock =>
    r.pollCounting v.operationId 0 (clock * 1000000 + r.settings.pollInterval.inNanos)
  /-- however far the polling has come, it comes to its end -/
  ends (q : Program (Except Failure (Option String))) (u : Trace) :
    (r.poll v).Leads pace t q u → ∃ o w, q.Ends pace u o w
  /-- there are as many queries left at first as the settings admit -/
  tires (o : Option (Except Failure (Option String))) (u : Trace) :
    (r.poll v).Ends pace t o u →
      ∃ answers, r.Tires v.operationId r.settings.maxPolls.toNat t answers o u
  /-- unless the run is canceled before, its operation can stay at work to the end -/
  possible : t.signal.fired = false → ∃ o u, ∃ answers : List Answer,
    (r.poll v).Ends pace t o u ∧ u.signal.fired = false ∧
    u.replies = answers.map (v.operationId, ·) ++ t.replies ∧ ∀ a ∈ answers, a.Running

/-- Whatever number of queries the settings of a run admit, so many are made about an operation that
stays at work, and then the polling gives up. Only if that is the greatest number that can be
counted, the count after the last query does not fit, and the polling panics. -/
theorem polls_out (n : UInt32) (named : v.operationId ≠ "") (pace : Pace) (t : Trace) :
    (Configuration.ofEnvironment (Configuration.asking n)).engine.settings.maxPolls = n ∧
      ∀ r : Run, r.settings.maxPolls = n → r.PollsOut v pace t := by
  refine ⟨Configuration.maxPolls_asking n, fun r _ => ?_⟩
  have counts := r.poll_eq_pollCounting named
  have tires : (r.poll v).Ensures pace
      (fun o u => ∃ answers, r.Tires v.operationId r.settings.maxPolls.toNat t answers o u) t := by
    rw [counts]
    exact ensures_asked.2 fun clock u read =>
      ensures_pollCounting (Nat.zero_add _) _ (read.replies_eq rfl)
  refine ⟨counts, fun q u _ => exists_ends pace q u, ensures_iff.1 tires, fun quiet => ?_⟩
  obtain ⟨o, u, answers, ends, signal, replies, running⟩ :=
    exists_ends_running pace (only_poll_polls (r := r) (v := v)) t
  exact ⟨o, u, answers, ends, signal ▸ quiet, replies, running⟩

/-- A run that is to ask as often as can be counted. -/
def tireless : Run :=
  { inquiry with
    settings := (Configuration.ofEnvironment (Configuration.asking 4294967295)).engine.settings }

/-- If nobody cancels it, and its operation stays at work, it asks as often, and panics then. -/
theorem tireless_polls_out : ∃ u, ∃ answers : List Answer,
    (tireless.poll .inquiry).Ends .prompt [] none u ∧ u.signal.fired = false ∧
    u.replies = answers.map ("op", ·) ∧ (∀ a ∈ answers, a.Running) ∧
    answers.length = 4294967295 := by
  obtain ⟨admitted, out⟩ := polls_out 4294967295 (v := .inquiry) (by decide) .prompt []
  have polls : tireless.PollsOut .inquiry .prompt [] := out tireless admitted
  obtain ⟨o, u, answers, ends, quiet, replies, running⟩ := polls.possible rfl
  obtain ⟨answers', tires⟩ := polls.tires o u ends
  have pair (a b : Answer) (alike : ("op", a) = ("op", b)) : a = b := (Prod.mk.inj alike).2
  obtain rfl : answers' = answers :=
    (List.map_inj_right pair).1 (List.append_cancel_right (tires.replies.symm.trans replies))
  obtain ⟨length, spent⟩ := tires.spent quiet running
  have most : tireless.settings.maxPolls = 4294967295 := admitted
  rw [most] at length
  have overflows : o = none := spent.overflows (by rw [most]; rfl)
  rw [overflows] at ends
  exact ⟨u, answers', ends, quiet, replies.trans (List.append_nil _), running, length⟩

end Run

end Runbook
