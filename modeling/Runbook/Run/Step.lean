import Runbook.Run

/-!
# Executing one node

* `Execution.program` — an executor at work: it can be cut short by the signal
  of the run and by the limit of its node.
* `Run.poll` — asking the oracle about an operation, at intervals, until it is
  no longer running.
* `Run.step` — one node: the visit is stored, its executor works, and a polling
  node waits for its operation.
-/

namespace Runbook

/-! ## Executors at work -/

/-- How an executor's work came to its end. -/
inductive Closing where
  /-- by itself -/
  | finished (outcome : Outcome)
  /-- the run was canceled -/
  | canceled
  /-- its time was up -/
  | expired
  deriving DecidableEq, Repr

/-- The work of an executor of a run. The scene is left as it was where the work
ended. -/
def Execution.program (run : String) (deadline : Option Nat) : Execution → Program (Scene × Closing)
  | .finish scene outcome => .done (scene, .finished outcome)
  | .ask act next => .ask (.act run act) fun x => (next x).program run deadline
  | .pause scene wait next => .pause ⟨run, wait, deadline⟩ fun
    | .due => next.program run deadline
    | .signalled => .done (scene, .canceled)
    | .expired => .done (scene, .expired)

namespace Run

/-- Why a node failed, going by how its executor came to its end. A run that was
canceled meanwhile counts as canceled, whatever the executor says, unless it
panicked. -/
def failure? (signal : Signal) (limit : Option Duration) : Closing → Option Failure
  | .finished (.panicked detail) => some (.panicked (detail.getD "unknown panic"))
  | .canceled => some (.canceled signal.reason)
  | .expired => limit.map .executorTimeout
  | .finished .done => if signal.fired then some (.canceled signal.reason) else none
  | .finished (.error detail) =>
    if signal.fired then some (.canceled signal.reason) else some (.executor detail)

/-- Let the executor of a node work on a visit, unless the run is canceled: what
it left of the visit, and why the node failed, if it did. -/
def execute (r : Run) (n : NodeSpec) (v : Visit) : Program (Visit × Option Failure × Run) := do
  let signal ← r.signal
  if signal.fired then return (v, some (.canceled signal.reason), r)
  else
    let clock ← Program.request .clock
    let deadline := n.limit.map fun limit => clock + limit.ceilMillis
    Program.request (.atWork r.id ⟨v, r.context⟩)
    let (scene, closing) ← (n.executor ⟨v, r.context⟩).program r.id deadline
    let signal ← r.signal
    let r := { r.edit fun _ => scene.visit with context := scene.context }
    return (scene.visit, failure? signal n.limit closing, r)

/-! ## Polling -/

/-- When the next query is due after one that was due at `due` and made at
`clock`: one interval later, counted from the query if that was late by more
than five milliseconds. The clock counts milliseconds, but what is due is told
in nanoseconds, so that intervals of any length add up. -/
def nextDue (interval : Duration) (due clock : Nat) : Nat :=
  let made := clock * 1000000
  if made > due + 5000000 then made + interval.inNanos else due + interval.inNanos

/-- Go on, unless the run is canceled. -/
def unlessCanceled {α : Type} (r : Run) (p : Program (Except Failure α)) :
    Program (Except Failure α) := do
  let signal ← r.signal
  if signal.fired then return .error (.canceled signal.reason) else p

/-- Wait, unless the run is canceled meanwhile, and go on. -/
def pauseFor {α : Type} (r : Run) (w : Wait) (p : Program (Except Failure α)) :
    Program (Except Failure α) := do
  match ← Program.wait ⟨r.id, w, none⟩ with
  | .signalled => do
    let signal ← r.signal
    return .error (.canceled signal.reason)
  | .due | .expired => p

/-- Ask the oracle about an operation. -/
def ask (r : Run) (operation : String) : Program (Except Failure Answer) :=
  r.unlessCanceled do
    let answer : Program (Except Failure Answer) := do
      return .ok (← Program.request (.query operation))
    match ← Program.request (.beginQuery operation) with
    | none => answer
    | some ms => r.pauseFor (.after ms) answer

/-- What an answer means: the payload of an operation that has ended well, if
there is one, or a failure; nothing yet of one that is running. -/
def verdict : Answer → Option (Except Failure (Option String))
  | .error e => some (.error (.taskFailed e.message))
  | .ok report =>
    match report.state with
    | .running => none
    | .error => some (.error (.taskFailed report.errorText))
    | .finished => some (.ok (if report.result.isEmpty then none else some report.result))

/-- Ask about an operation at most `left` times, the first time at the
nanosecond `due`. The queries are counted in 32 bits, and the count after the
last one must fit. -/
def pollFrom (r : Run) (operation : String) : Nat → Nat →
    Program (Except Failure (Option String))
  | 0, due => r.unlessCanceled <| r.pauseFor (.until (Duration.millisFor due)) <|
    if r.settings.maxPolls.toNat + 1 < UInt32.size then
      return .error (.pollingTimeout r.settings.maxPolls)
    else .panic
  | left + 1, due => r.unlessCanceled <| r.pauseFor (.until (Duration.millisFor due)) do
    let clock ← Program.request .clock
    match ← r.ask operation with
    | .error f => return .error f
    | .ok answer =>
      match verdict answer with
      | some result => return result
      | none => pollFrom r operation left (nextDue r.settings.pollInterval due clock)

/-- Ask about the operation of a visit until it is no longer running. -/
def poll (r : Run) (v : Visit) : Program (Except Failure (Option String)) := do
  if v.operationId.isEmpty then
    return .error (.taskFailed ("polling node " ++ v.name ++ " has no operation id"))
  else
    let clock ← Program.request .clock
    r.pollFrom v.operationId r.settings.maxPolls.toNat
      (clock * 1000000 + r.settings.pollInterval.inNanos)

/-! ## One node -/

/-- How a run goes on after a node. -/
inductive Course where
  /-- where a success leads -/
  | advance
  /-- where a failure leads -/
  | recover
  /-- nowhere -/
  | stop
  deriving DecidableEq, Repr

/-- How a run goes on after a failure that its current visit has recorded. -/
def afterFailure (r : Run) (f : Failure) : Program (Course × Run) :=
  match f with
  | .canceled _ => do
    let r ← r.markCanceled
    let r ← r.saveAnyway
    return (.stop, r)
  | .persistence _ => do
    let r ← r.endWith f .error
    return (.stop, r)
  | _ => return (.recover, r)

/-- Record a failure and go on. -/
def failWith (r : Run) (f : Failure) : Program (Course × Run) := do
  let r ← r.fail f
  r.afterFailure f

/-- Record a success and go on. -/
def succeedWith (r : Run) (payload : Option String) : Program (Course × Run) := do
  let t ← now
  return (.advance, r.edit fun v => v.succeed payload t)

/-- Finish a visit whose executor has done its work. -/
def settleVisit (r : Run) (n : NodeSpec) (v : Visit) : Program (Course × Run) :=
  match n.kind with
  | .immediate => r.succeedWith none
  | .polling => do
    -- an executor may end its visit itself: then there is nothing to wait for
    if v.status = .finished then return (.advance, r)
    else
      match ← r.poll v with
      | .ok payload => r.succeedWith payload
      | .error f => r.failWith f

/-- Execute a node. Its visit is stored before the executor begins, once when it
is created and once as at work. -/
def step (r : Run) (n : NodeSpec) : Program (Course × Run) := do
  let id ← Program.request .newVisitId
  let t ← now
  let v := Visit.create id r.record n.name n.kind t
  let created ← Program.request (.createVisit v)
  match r.writeFailure created with
  | some f => (r.enter v).afterFailure f
  | none =>
    -- the last write until the executor, and the polling, have come to an end
    let (saved, r) ← (r.enter v.processing).takeSnapshot.save
    match r.writeFailure saved with
    | some f => r.failWith f
    | none =>
      let (v, failure, r) ← r.execute n v.processing
      match failure with
      | some f => r.failWith f
      | none => r.settleVisit n v

end Run

end Runbook
