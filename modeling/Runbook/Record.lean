import Runbook.Failure
import Runbook.Instant.Reader
import Runbook.NodeKind
import Runbook.Status

/-!
# Records of runs and visits

A run of a procedure leaves a record of itself and one of each node that it
visited, in order.

* `RunRecord` — one run: what it is about, its status and a snapshot of its
  context.
* `Visit` — one executed node of a run, with its outcome.
* `RunDetail` — both, together with the nodes that a run without failures
  visits.
-/

namespace Runbook

/-- The record of a run. -/
structure RunRecord where
  /-- its ID -/
  id : String
  /-- the name of the procedure -/
  name : String
  /-- the business object the run acts on -/
  bizId : String
  /-- what kind of object that is -/
  bizType : String
  /-- on whose behalf it runs -/
  tenantId : String
  /-- its status -/
  status : Status
  /-- the context as JSON text -/
  context : String
  /-- when it was created -/
  createdAt : Instant
  /-- when it was written last -/
  updatedAt : Instant
  deriving DecidableEq, Repr

/-- The text of a context that holds nothing. -/
def emptyContext : String := "\x7b\x7d"

/-- The record of a run that has just been created. -/
def RunRecord.create (id name bizId bizType tenantId : String) (now : Instant) : RunRecord :=
  ⟨id, name, bizId, bizType, tenantId, .initializing, emptyContext, now, now⟩

/-- The record of one node that a run visited. -/
structure Visit where
  /-- its ID -/
  id : String
  /-- the ID of the run -/
  parentId : String
  /-- the business object the run acts on -/
  bizId : String
  /-- on whose behalf it runs -/
  tenantId : String
  /-- the name of the node -/
  name : String
  /-- its status -/
  status : Status
  /-- the payload of a success, or the text of a failure -/
  result : String
  /-- how the node comes to its end -/
  kind : NodeKind
  /-- the operation that a polling node waits for -/
  operationId : String
  /-- when the visit began -/
  startTime : Instant
  /-- when it ended -/
  endTime : Option Instant
  deriving DecidableEq, Repr

namespace Visit

/-- The record of a visit that is about to begin. -/
def create (id : String) (run : RunRecord) (name : String) (kind : NodeKind) (now : Instant) :
    Visit :=
  ⟨id, run.id, run.bizId, run.tenantId, name, .initializing, "", kind, "", now, none⟩

/-- The node is at work. -/
def processing (v : Visit) : Visit := { v with status := .processing }

/-- The node ended well. A payload replaces the result that its executor left. -/
def succeed (v : Visit) (payload : Option String) (now : Instant) : Visit :=
  { v with status := .finished, result := payload.getD v.result, endTime := some now }

/-- The node failed. -/
def fail (v : Visit) (failure : Failure) (now : Instant) : Visit :=
  { v with status := .error, result := failure.message, endTime := some now }

/-- Whether the visit has not ended. -/
def isActive (v : Visit) : Bool := !v.status.isTerminal

end Visit

/-- A stored run with its visits in order. -/
structure RunDetail where
  /-- the run -/
  run : RunRecord
  /-- its visits -/
  visits : List Visit
  /-- the nodes that a run without failures visits, if the procedure is known -/
  nodeNames : List String
  deriving DecidableEq, Repr

end Runbook
