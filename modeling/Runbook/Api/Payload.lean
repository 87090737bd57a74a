import Runbook.Query

/-!
# What the inspection API sends and receives

The bodies of requests and answers as records with their JSON.
-/

namespace Runbook.Api

/-- Which page of a list an answer holds. -/
structure PageInfo where
  /-- the page, from 1 -/
  page : UInt32
  /-- how many runs a page has -/
  pageSize : UInt32
  /-- how many runs match in all -/
  total : UInt64
  deriving DecidableEq, Repr

namespace PageInfo

/-- The information as JSON. -/
def toJson (p : PageInfo) : Json :=
  .object [("page", .int p.page.toNat), ("pageSize", .int p.pageSize.toNat),
    ("total", .int p.total.toNat)]

/-- How it is read. -/
def shape : Shape PageInfo :=
  (PageInfo.mk <$> .field "page" RunQuery.wordShape <*> .field "pageSize" RunQuery.wordShape
    <*> .field "total" ((Shape.natural 64 "u64").map UInt64.ofNat) : Form _).record "Page"

end PageInfo

/-- A page of runs. -/
structure RunList where
  /-- the runs -/
  data : List RunRecord
  /-- which page they are -/
  page : PageInfo
  deriving DecidableEq, Repr

namespace RunList

/-- The page as JSON. -/
def toJson (l : RunList) : Json :=
  .object [("data", .list (l.data.map RunRecord.toJson)), ("page", l.page.toJson)]

/-- How it is read. -/
def shape : Shape RunList :=
  (RunList.mk <$> .field "data" RunRecord.shape.list <*> .field "page" PageInfo.shape
    : Form _).record "ListWorkflowsResponse"

end RunList

/-- A request to cancel a run. -/
structure CancelRequest where
  /-- why -/
  reason : Option String
  deriving DecidableEq, Repr

namespace CancelRequest

/-- How it is read. -/
def shape : Shape CancelRequest :=
  (CancelRequest.mk <$> .lenient "reason" .string : Form _).record "CancelRequest"

/-- The reason that the run is given. -/
def effectiveReason (r : CancelRequest) : String :=
  match r.reason with
  | some reason => if reason.isEmpty then "canceled by operator" else reason
  | none => "canceled by operator"

end CancelRequest

/-- The answer to an accepted request about one run. -/
structure Acknowledgement where
  /-- the run -/
  id : String
  /-- what will happen -/
  message : String
  deriving DecidableEq, Repr

namespace Acknowledgement

/-- The answer as JSON. -/
def toJson (a : Acknowledgement) : Json :=
  .object [("id", .text a.id), ("message", .text a.message)]

/-- How it is read. -/
def shape : Shape Acknowledgement :=
  (Acknowledgement.mk <$> .field "id" .string <*> .field "message" .string
    : Form _).record "WorkflowResponse"

end Acknowledgement

end Runbook.Api
