import Runbook.Execution
import Runbook.Signal

/-!
# Programs: runs as data

The engine's part of a run is a tree too, of requests to its surroundings and of
places where it waits.

* `Request` — what a run asks of its surroundings: times, the state of its
  signal, writes to the store, queries to the oracle, and what an executor asks.
  Two requests only announce something: that the run is between two nodes, and
  that an executor begins.
* `Pause`, `Wake` — what it waits for, and why it went on. Every wait of a run
  ends when the run is canceled, and one around an executor ends when the time
  of the executor is up.
* `Program` — the tree. It is a monad; a program is run by whoever answers its
  requests and wakes it up.
-/

namespace Runbook

/-- What a run asks of its surroundings. -/
inductive Request where
  /-- an ID for a visit -/
  | newVisitId
  /-- the time for a record -/
  | now
  /-- the milliseconds that the clock shows -/
  | clock
  /-- the signal of a run -/
  | signal (run : String)
  /-- the run is between two nodes: others may have their say -/
  | between (run : String)
  /-- store a visit that is about to begin -/
  | createVisit (v : Visit)
  /-- store the run and its visits so far -/
  | update (r : RunRecord) (visits : List Visit)
  /-- begin to ask about an operation: how long the answer takes, if it does -/
  | beginQuery (operation : String)
  /-- the answer about an operation -/
  | query (operation : String)
  /-- an executor of a run begins to work -/
  | atWork (run : String) (scene : Scene)
  /-- what an executor of a run asks -/
  | act (run : String) (a : Act)

/-- What the surroundings answer. -/
abbrev Request.Answer : Request → Type
  | newVisitId => String
  | now => Instant
  | clock => Nat
  | signal _ => Signal
  | between _ | atWork .. => Unit
  | createVisit _ | update .. => Written
  | beginQuery _ => Option Nat
  | query _ => Runbook.Answer
  | act _ a => a.Answer

/-- A place where a run waits. -/
structure Pause where
  /-- the run whose signal ends the wait -/
  run : String
  /-- what it waits for -/
  wait : Wait
  /-- the milliseconds on the clock at which it waits no longer -/
  deadline : Option Nat
  deriving DecidableEq, Repr

/-- Why a wait ended. -/
inductive Wake where
  /-- the run was canceled -/
  | signalled
  /-- what it waited for has come -/
  | due
  /-- the deadline has come -/
  | expired
  deriving DecidableEq, Repr

/-- What the engine does, with a value in the end. -/
inductive Program (α : Type) where
  /-- end with a value -/
  | done (a : α)
  /-- end without one -/
  | panic
  /-- ask and go on with the answer -/
  | ask (r : Request) (next : r.Answer → Program α)
  /-- wait and go on -/
  | pause (p : Pause) (next : Wake → Program α)

namespace Program

variable {α β γ : Type}

/-- Go on with another program where this one ends with a value. -/
protected def bind : Program α → (α → Program β) → Program β
  | done a, f => f a
  | panic, _ => panic
  | ask r next, f => ask r fun x => (next x).bind f
  | pause p next, f => pause p fun w => (next w).bind f

instance : Monad Program where
  pure := done
  bind := Program.bind

@[simp] theorem pure_eq (a : α) : (Pure.pure a : Program α) = done a := rfl

@[simp] theorem bind_eq (p : Program α) (f : α → Program β) : p >>= f = p.bind f := rfl

@[simp] theorem done_bind (a : α) (f : α → Program β) : (done a).bind f = f a := rfl

@[simp] theorem panic_bind (f : α → Program β) : panic.bind f = panic := rfl

@[simp] theorem ask_bind (r : Request) (next : r.Answer → Program α) (f : α → Program β) :
    (ask r next).bind f = ask r fun x => (next x).bind f := rfl

@[simp] theorem pause_bind (p : Pause) (next : Wake → Program α) (f : α → Program β) :
    (pause p next).bind f = pause p fun w => (next w).bind f := rfl

@[simp] theorem bind_done (p : Program α) : p.bind done = p := by
  induction p with
  | done a => rfl
  | panic => rfl
  | ask r next ih => exact congrArg (ask r) (funext ih)
  | pause p next ih => exact congrArg (pause p) (funext ih)

theorem bind_assoc (p : Program α) (f : α → Program β) (g : β → Program γ) :
    (p.bind f).bind g = p.bind fun a => (f a).bind g := by
  induction p with
  | done a => rfl
  | panic => rfl
  | ask r next ih => exact congrArg (ask r) (funext ih)
  | pause p next ih => exact congrArg (pause p) (funext ih)

/-- Ask, with the answer as value. -/
def request (r : Request) : Program r.Answer := ask r done

/-- Wait, with the reason for going on as value. -/
def wait (p : Pause) : Program Wake := pause p done

end Program

end Runbook
