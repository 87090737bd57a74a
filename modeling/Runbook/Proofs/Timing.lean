import Runbook.Host
import Runbook.Proofs.Trace

/-!
# Programs in time

What a program comes to, and when, if nobody else keeps it waiting: requests take no time, a pause
ends as soon as it can, and at most once somebody else calls the signal of the run.

* `Moment` — how late it is, how the signal stands, and what was asked so far.
* `Surroundings` — who answers, and when the signal is called from outside.
* `Program.play` — what a program comes to in its surroundings, and the moment then.

So it is when an engine executes a program while nothing else is going on: see
`Runner.play_of_workFor` and `Runner.play_of_called`.
-/

namespace Runbook

open Program

variable {α β : Type}

/-! ## Moments -/

/-- How things stand while a program of a run is carried out. -/
structure Moment where
  /-- the milliseconds that the clock shows -/
  clock : Nat
  /-- the signal of the run -/
  signal : Signal
  /-- what was asked so far, and when; the latest last -/
  asked : List (Nat × Request)

/-- The operation that the oracle is asked about. -/
def Request.queried : Request → Option String
  | query operation => some operation
  | _ => none

namespace Moment

/-- The queries that were made so far, and when. -/
def queries (m : Moment) : List (Nat × String) :=
  m.asked.filterMap fun x => x.2.queried.map (x.1, ·)

/-- Later on. -/
def wait (m : Moment) (clock : Nat) : Moment := { m with clock }

/-- The signal is called. -/
def call (m : Moment) (c : SignalCall) : Moment := { m with signal := m.signal.after c }

end Moment

/-! ## Surroundings -/

/-- The surroundings of a program of one run. -/
structure Surroundings where
  /-- the answers to all requests but those about the clock and the signal -/
  reply : Moment → (r : Request) → r.Answer
  /-- whether an executor that cancels the run of that name cancels its own one -/
  own : Option String → Bool
  /-- when the signal of the run is called from outside, and how -/
  strike : Option (Nat × SignalCall)

namespace Surroundings

variable (s : Surroundings) (m : Moment)

/-- The answer to a request. -/
def answer : (r : Request) → r.Answer
  | .clock => m.clock
  | .signal _ => m.signal
  | .act _ .isCanceled => m.signal.fired
  | r => s.reply m r

/-- The signal after a request: an executor may call it. -/
def signalAfter (signal : Signal) : Request → Signal
  | .act _ .fire => signal.fire
  | .act _ (.cancel target reason) => if s.own target then signal.cancel reason else signal
  | _ => signal

/-- The moment after a request. -/
def after (r : Request) : Moment :=
  ⟨m.clock, s.signalAfter m.signal r, m.asked ++ [(m.clock, r)]⟩

/-- The call of the signal that comes before the pause ends, or just then: whoever calls goes before
those who wake up. -/
def strike? (p : Pause) : Option (Nat × SignalCall) :=
  s.strike.filter fun c => decide (m.clock < c.1) && p.alarms.all (c.1 ≤ ·)

/-- A call that comes after an alarm does not come before the pause ends. -/
theorem strike?_eq_none {s : Surroundings} {m : Moment} {p : Pause} {alarm : Nat}
    (listed : alarm ∈ p.alarms) (later : ∀ c ∈ s.strike, m.clock < c.1 → alarm < c.1) :
    s.strike? m p = none := by
  refine Option.filter_eq_none_iff.2 fun c call comes => ?_
  simp only [Bool.and_eq_true, decide_eq_true_eq, List.all_eq_true] at comes
  exact Nat.not_le_of_lt (later c call comes.1) (comes.2 alarm listed)

/-- Why a program that waits goes on, and the moment then; nothing if it waits for ever. -/
def woken? (p : Pause) : Option (Wake × Moment) :=
  if m.signal.fired then some (.signalled, m)
  else
    match p.ending m.clock true with
    | some w => some (w, m)
    | none =>
      match s.strike? m p with
      | some (clock, c) => some (.signalled, (m.wait clock).call c)
      | none => p.alarms.min?.bind fun clock =>
        (p.ending clock true).map fun w => (w, m.wait clock)

/-- Why a program that comes to a pause goes on. A pause that is over when it begins is passed. -/
def wake? (p : Pause) : Option (Wake × Moment) :=
  match (p.fixedAt m.clock).ending m.clock false with
  | some w => some (w, m)
  | none => s.woken? m (p.fixedAt m.clock)

end Surroundings

/-- What a program comes to, with a value if it does not panic, and the moment then; nothing if it
waits for ever. -/
def Program.play (s : Surroundings) : Program α → Moment → Option (Option α × Moment)
  | .done a, m => some (some a, m)
  | .panic, m => some (none, m)
  | .ask r next, m => (next (s.answer m r)).play s (s.after m r)
  | .pause p next, m => (s.wake? m p).bind fun x => (next x.1).play s x.2

namespace Program

variable {s : Surroundings} {m m' : Moment} {p : Program α} {f : α → Program β} {a : α}

/-- After a program that ends with a value, another one goes on from there. -/
theorem play_bind (ended : p.play s m = some (some a, m')) :
    (p.bind f).play s m = (f a).play s m' := by
  induction p generalizing m with
  | done a' =>
    cases ended
    rfl
  | panic => cases ended
  | ask r next ih => exact ih _ ended
  | pause p next ih =>
    rw [play] at ended
    obtain ⟨x, wakes, ended⟩ := Option.bind_eq_some_iff.1 ended
    rw [pause_bind, play, wakes, Option.bind_some]
    exact ih _ ended

end Program

end Runbook
