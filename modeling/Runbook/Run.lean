import Runbook.Definition
import Runbook.Program
import Runbook.Settings

/-!
# Runs

A run is one execution of a procedure for one business object. It holds its
record, the visits it has made, and the context that its executors share.

* `Run` — the state of a run between two requests.
* `Run.endWith`, `Run.markCanceled`, `Run.complete` — how a run ends.
* `Run.save`, `Run.saveAnyway` — writing a run to the store, with and without
  regard to whether that works.
-/

namespace Runbook

/-- A run. -/
structure Run where
  /-- its record -/
  record : RunRecord
  /-- the procedure -/
  definition : Definition
  /-- the visits so far, the latest first -/
  trail : List Visit
  /-- the business data -/
  context : Context
  /-- what the last node that failed left, or why the run ended early -/
  lastError : Option String
  /-- the settings of the engine -/
  settings : Settings
  /-- who asked for the run -/
  caller : Caller

namespace Run

/-- A run that has not started. -/
def create (record : RunRecord) (definition : Definition) (settings : Settings) (caller : Caller) :
    Run :=
  ⟨record, definition, [], .empty, none, settings, caller⟩

/-- The ID of the run. -/
def id (r : Run) : String := r.record.id

/-- The visits in order. -/
def visits (r : Run) : List Visit := r.trail.reverse

/-- The visit of the node at work, or of the last one that was. -/
def current (r : Run) : Option Visit := r.trail.head?

/-- The name under which the run is tracked in the background. -/
def operationName (r : Run) : String := r.caller.operationName r.settings r.id

/-- Give the run a status. -/
def withStatus (r : Run) (s : Status) : Run := { r with record := { r.record with status := s } }

/-- Begin a visit. -/
def enter (r : Run) (v : Visit) : Run := { r with trail := v :: r.trail }

/-- Change the current visit. -/
def edit (r : Run) (f : Visit → Visit) : Run :=
  { r with trail := match r.trail with
    | [] => []
    | v :: rest => f v :: rest }

@[simp] theorem visits_enter (r : Run) (v : Visit) : (r.enter v).visits = r.visits ++ [v] := by
  simp [visits, enter]

@[simp] theorem current_enter (r : Run) (v : Visit) : (r.enter v).current = some v := rfl

@[simp] theorem current_edit (r : Run) (f : Visit → Visit) :
    (r.edit f).current = r.current.map f := by
  unfold edit current
  cases r.trail <;> rfl

/-- Write the context into the record. -/
def takeSnapshot (r : Run) : Run :=
  { r with record := { r.record with context := r.context.snapshot } }

/-- Set a value of the context. -/
def addContext (r : Run) (key : String) (value : Json) : Run :=
  { r with context := r.context.set key value }.takeSnapshot

/-- Whether the current visit has not ended. -/
def isActive (r : Run) : Bool := r.current.any Visit.isActive

/-- The final status, for a run that is not canceled. -/
def complete (r : Run) (success : Bool) : Run :=
  if r.record.status = .canceled then r
  else r.withStatus (if success then .finished else .error)

/-- Keep what the current visit left as the last error. -/
def keepError (r : Run) : Run := { r with lastError := r.current.map Visit.result }

/-! ## Requests of a run -/

/-- The signal of the run. -/
def signal (r : Run) : Program Signal := Program.request (.signal r.id)

/-- The signal of the run, between two nodes. -/
def look (r : Run) : Program Signal := do
  Program.request (.between r.id)
  r.signal

/-- The time for a record. -/
def now : Program Instant := Program.request .now

/-- Let the current visit fail. -/
def fail (r : Run) (f : Failure) : Program Run := do
  let t ← now
  return r.edit fun v => v.fail f t

/-- End with a failure: the current visit takes it over, unless it has ended
already. -/
def endWith (r : Run) (f : Failure) (s : Status) : Program Run := do
  let r ← if r.isActive then r.fail f else pure r
  return { r.withStatus s with lastError := some f.message }

/-- End as canceled. -/
def markCanceled (r : Run) : Program Run := do
  let signal ← r.signal
  r.endWith (.canceled signal.reason) .canceled

/-- Write the run and its visits to the store. -/
def save (r : Run) : Program (Written × Run) := do
  let t ← now
  let r := { r with record := { r.record with updatedAt := t } }
  let written ← Program.request (.update r.record r.visits)
  return (written, r)

/-- Write the run and its visits to the store, whether or not that works. -/
def saveAnyway (r : Run) : Program Run := do
  let (_, r) ← r.save
  return r

/-- What a failed write means to a run: a failure, if writes have to work. -/
def writeFailure (r : Run) : Written → Option Failure
  | .ok () => none
  | .error e =>
    match r.settings.policy with
    | .bestEffort => none
    | .strict => some (.persistence e.message)

end Run

end Runbook
