import Runbook.Context
import Runbook.EngineError
import Runbook.Oracle
import Runbook.Record

/-!
# Executors as data

The business code of a node is a tree of what it does, so that every behaviour
of an executor is a value that can be run, and reasoned about.

* `Scene` — what an executor works on: the record of its visit and the context
  of the run.
* `Act` — what it may ask of its surroundings, and the type of the answer.
* `Wait` — what it can wait for.
* `Execution` — the tree: it ends with an outcome, asks and goes on with the
  answer, or waits and goes on. The scene is handed over where the execution
  ends or waits; between these places nobody else can see it.
-/

namespace Runbook

/-- What an executor works on. -/
structure Scene where
  /-- the record of the visit -/
  visit : Visit
  /-- the context of the run -/
  context : Context

/-- What an executor may ask of its surroundings. -/
inductive Act where
  /-- read the clock -/
  | now
  /-- see whether the run is canceled -/
  | isCanceled
  /-- cancel the own run, or the one handed out under a name -/
  | cancel (target : Option String) (reason : String)
  /-- fire the signal of the own run without a reason -/
  | fire
  /-- let a call to the store fail `times` times (always, if `none`) after `skip` more calls -/
  | inject (call : StoreCall) (skip : Nat) (times : Option Nat)
  /-- give an operation a new script, whose queries take so many milliseconds -/
  | script (operation : String) (lines : List Line) (delay : Nat)
  /-- leave a note in the journal -/
  | note (scene : Scene)

/-- What the surroundings answer. -/
abbrev Act.Answer : Act → Type
  | now => Instant
  | isCanceled => Bool
  | cancel .. | fire | inject .. | script .. | note _ => Unit

/-- What one can wait for. -/
inductive Wait where
  /-- the clock shows so many milliseconds -/
  | until (ms : Nat)
  /-- so many milliseconds have passed -/
  | after (ms : Nat)
  /-- everybody else has had a turn -/
  | turn
  /-- nothing -/
  | never
  deriving DecidableEq, Repr

/-- How an executor ends. -/
inductive Outcome where
  /-- it is done -/
  | done
  /-- it reports an error -/
  | error (detail : String)
  /-- it panics; the payload may be no text -/
  | panicked (detail : Option String)
  deriving DecidableEq, Repr

/-- What an executor does. -/
inductive Execution where
  /-- end -/
  | finish (scene : Scene) (outcome : Outcome)
  /-- ask and go on with the answer -/
  | ask (act : Act) (next : act.Answer → Execution)
  /-- wait and go on -/
  | pause (scene : Scene) (wait : Wait) (next : Execution)

/-- The business code of a node. -/
abbrev Executor := Scene → Execution

end Runbook
