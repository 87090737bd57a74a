import Runbook.Execution

/-!
# The journal

What happened around runs, in order: the writes that reached the store or were
made to fail before it, the queries of polling nodes, and the notes that
executors left.
-/

namespace Runbook

/-- Something that happened. -/
inductive Occurrence where
  /-- a new run was to be stored -/
  | createRun (r : RunRecord) (written : Written)
  /-- a new visit was to be stored -/
  | createVisit (v : Visit) (written : Written)
  /-- a run and its visits were to be stored -/
  | update (r : RunRecord) (visits : List Visit) (written : Written)
  /-- the oracle was asked about an operation and takes its time -/
  | asked (operation : String)
  /-- the oracle answered -/
  | answered (operation : String) (answer : Answer)
  /-- an executor left a note of its scene, and whether its run was canceled -/
  | note (scene : Scene) (canceled : Bool)

/-- Something that happened, and when. -/
structure Entry where
  /-- the milliseconds that the clock showed -/
  clock : Nat
  /-- what happened -/
  occurrence : Occurrence

end Runbook
