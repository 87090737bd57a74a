import Runbook.Json.Form
import Runbook.Record

/-!
# Records as JSON

Both records are objects with their fields in declared order; times are RFC 3339
texts. They are read back from such an object, its members in any order, or from
an array of the fields.
-/

namespace Runbook

namespace Instant

/-- An instant as JSON. -/
def toJson (t : Instant) : Json := .text t.print

/-- An instant given by its text. -/
def shape : Shape Instant :=
  Shape.formatted "an RFC 3339 formatted date and time string" fun text =>
    (parse text).mapError TimeError.message

end Instant

/-- An optional value: `null` if there is none. -/
def Json.ofOption {α : Type} (encode : α → Json) : Option α → Json
  | none => .null
  | some a => encode a

namespace RunRecord

/-- The record as JSON. -/
def toJson (r : RunRecord) : Json :=
  .object [("id", .text r.id), ("name", .text r.name), ("biz_id", .text r.bizId),
    ("biz_type", .text r.bizType), ("tenant_id", .text r.tenantId),
    ("status", .text r.status.name), ("context", .text r.context),
    ("created_at", r.createdAt.toJson), ("updated_at", r.updatedAt.toJson)]

/-- The fields of the record. -/
def form : Form RunRecord :=
  RunRecord.mk <$> .field "id" .string <*> .field "name" .string <*> .field "biz_id" .string
    <*> .field "biz_type" .string <*> .field "tenant_id" .string
    <*> .field "status" Status.shape <*> .field "context" .string
    <*> .field "created_at" Instant.shape <*> .field "updated_at" Instant.shape

/-- How the record is read. -/
def shape : Shape RunRecord := form.record "WorkflowInstance"

end RunRecord

namespace Visit

/-- The record as JSON. -/
def toJson (v : Visit) : Json :=
  .object [("id", .text v.id), ("parent_id", .text v.parentId), ("biz_id", .text v.bizId),
    ("tenant_id", .text v.tenantId), ("name", .text v.name), ("status", .text v.status.name),
    ("result", .text v.result), ("return_type", .text v.kind.name),
    ("operation_id", .text v.operationId), ("start_time", v.startTime.toJson),
    ("end_time", Json.ofOption Instant.toJson v.endTime)]

/-- The fields of the record. -/
def form : Form Visit :=
  Visit.mk <$> .field "id" .string <*> .field "parent_id" .string <*> .field "biz_id" .string
    <*> .field "tenant_id" .string <*> .field "name" .string <*> .field "status" Status.shape
    <*> .field "result" .string <*> .field "return_type" NodeKind.shape
    <*> .field "operation_id" .string <*> .field "start_time" Instant.shape
    <*> .optional "end_time" Instant.shape

/-- How the record is read. -/
def shape : Shape Visit := form.record "WorkflowNode"

end Visit

/-- A stored run with its visits as JSON. -/
def RunDetail.toJson (d : RunDetail) : Json :=
  .object [("flow", d.run.toJson), ("nodes", .list (d.visits.map Visit.toJson)),
    ("node_names", .list (d.nodeNames.map .text))]

end Runbook
