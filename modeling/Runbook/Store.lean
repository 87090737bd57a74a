import Runbook.EngineError
import Runbook.Query

/-!
# The store of runs

What the engine demands of a store. A call gets the state of the store and gives
the answer and the new state; also reads do, because a store may count them.
-/

namespace Runbook

/-- The answer of a store, and the store after it. -/
abbrev Reply (σ α : Type) := Except EngineError α × σ

/-- States of a store that keeps runs and their visits. -/
class Store (σ : Type) where
  /-- store a new run -/
  createRun : RunRecord → σ → Reply σ Unit
  /-- store a new visit of a stored run -/
  createVisit : Visit → σ → Reply σ Unit
  /-- store a run and visits of it, new or not, all at once -/
  update : RunRecord → List Visit → σ → Reply σ Unit
  /-- the run of that ID, if it is stored -/
  get : String → σ → Reply σ (Option RunRecord)
  /-- the run of that ID and its visits in order, without the names of nodes -/
  detail : String → σ → Reply σ (Option RunDetail)
  /-- a page of the runs that match, newest first, and how many match in all -/
  list : RunQuery → σ → Reply σ (List RunRecord × Nat)
  /-- the runs that have not ended -/
  unfinished : σ → Reply σ (List RunRecord)

end Runbook
