import Runbook.Run.Step

/-!
# Walking a procedure

A run walks the nodes of its definition from the start, along the event with
which each node ends, until no event leads on. Because every event leads to a
later node of the definition, the walk goes through the list of nodes once.

* `Run.walk` — the walk.
* `Run.start` — the whole run: the walk, and what closes it.
* `Run.destroy` — canceling a run that nobody executes.
-/

namespace Runbook

namespace Run

/-- End before a node because the run is canceled. -/
def stopCanceled (r : Run) : Program (Bool × Run) := do
  let r ← r.markCanceled
  let r ← r.saveAnyway
  return (false, r)

/-- End behind the last node. -/
def arrive (r : Run) (ok : Bool) : Program (Bool × Run) := do
  let signal ← r.look
  if signal.fired then
    let r ← r.markCanceled
    return (false, r)
  else return (ok, if r.record.status = .canceled then r else r.withStatus .finished)

/-- Execute the node `target`, which is one of the list, and the nodes to which
events lead from it; `ok` says whether no node has failed so far. The value says
whether none has failed in the end. -/
def walk : List NodeSpec → Option String → Bool → Run → Program (Bool × Run)
  | [], _, ok, r | _, none, ok, r => r.arrive ok
  | n :: rest, some target, ok, r =>
    if n.name = target then do
      let signal ← r.look
      if signal.fired then r.stopCanceled
      else
        let (course, r) ← r.step n
        match course with
        | .advance => walk rest n.onSuccess ok r
        | .recover => walk rest n.onFail false r.keepError
        | .stop => return (false, r)
    -- no event leads to a node that was passed
    else walk rest (some target) ok r

/-- End the run after the walk: the final status and the last write. -/
def close (r : Run) (ok : Bool) : Program (Bool × Run) := do
  let signal ← r.signal
  let r ← if signal.fired && r.record.status != .canceled then r.markCanceled else pure r
  let r ← (r.complete ok).saveAnyway
  return (ok, r)

/-- Execute the run. The value says whether every node that was visited
succeeded. -/
def start (r : Run) : Program (Bool × Run) := do
  let (ok, r) ← walk r.definition.nodes (some startName) true (r.withStatus .processing)
  r.close ok

/-- Execute the run in the background, where only the run itself is of
interest. -/
def work (r : Run) : Program Run := do
  let (_, r) ← r.start
  return r

/-- End a run whose signal has fired, without executing it. -/
def destroy (r : Run) : Program Run := do
  let r ← r.markCanceled
  r.saveAnyway

end Run

end Runbook
