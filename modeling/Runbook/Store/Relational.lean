import Runbook.Store

/-!
# The relational store

Two tables, one of runs and one of visits, each row with a unique ID, and every
visit with the ID of a stored run. Rows stay in the order in which they were
inserted. Times are stored as text with microseconds, which sorts as the times
do for years of four digits; a time of another year can be written, but not
read.

A write that is refused leaves both tables as they were. Writing to a row that
exists changes only the columns that a run changes while it is at work.
-/

namespace Runbook

/-- A row of the table of runs. -/
structure RunRow where
  /-- the ID of the run -/
  id : String
  /-- the procedure -/
  name : String
  /-- the business object -/
  bizId : String
  /-- its kind -/
  bizType : String
  /-- the tenant -/
  tenantId : String
  /-- the status -/
  status : Status
  /-- the context as JSON text -/
  context : String
  /-- the time of creation as text -/
  createdAt : String
  /-- the time of the last write as text -/
  updatedAt : String
  deriving DecidableEq, Repr

/-- A row of the table of visits. -/
structure VisitRow where
  /-- the ID of the visit -/
  id : String
  /-- the ID of the run -/
  parentId : String
  /-- the business object -/
  bizId : String
  /-- the tenant -/
  tenantId : String
  /-- the node -/
  name : String
  /-- the status -/
  status : Status
  /-- the result -/
  result : String
  /-- the kind of the node -/
  kind : NodeKind
  /-- the operation -/
  operationId : String
  /-- the time of its start as text -/
  startTime : String
  /-- the time of its end as text -/
  endTime : Option String
  deriving DecidableEq, Repr

namespace RunRow

/-- The row of a run. -/
def ofRecord (r : RunRecord) : RunRow :=
  ⟨r.id, r.name, r.bizId, r.bizType, r.tenantId, r.status, r.context,
    r.createdAt.printMicros, r.updatedAt.printMicros⟩

/-- Take over what a run changes while it is at work. -/
def overwrite (row new : RunRow) : RunRow :=
  { row with status := new.status, context := new.context, updatedAt := new.updatedAt }

end RunRow

namespace VisitRow

/-- The row of a visit. -/
def ofVisit (v : Visit) : VisitRow :=
  ⟨v.id, v.parentId, v.bizId, v.tenantId, v.name, v.status, v.result, v.kind, v.operationId,
    v.startTime.printMicros, v.endTime.map Instant.printMicros⟩

/-- Take over what a run changes while it is at work. -/
def overwrite (row new : VisitRow) : VisitRow :=
  { row with
    status := new.status, result := new.result, operationId := new.operationId,
    endTime := new.endTime }

end VisitRow

/-- The time that a stored text stands for. -/
def readStored (text : String) : Except EngineError Instant :=
  (Instant.parseStrict text).mapError fun e => .storage (.badTimestamp text e.message)

/-- The run that a row holds. -/
def RunRow.toRecord (row : RunRow) : Except EngineError RunRecord := do
  let createdAt ← readStored row.createdAt
  let updatedAt ← readStored row.updatedAt
  return ⟨row.id, row.name, row.bizId, row.bizType, row.tenantId, row.status, row.context,
    createdAt, updatedAt⟩

/-- The time that an optional stored text stands for. -/
def readStoredOption : Option String → Except EngineError (Option Instant)
  | none => .ok none
  | some text => (readStored text).map some

/-- The visit that a row holds. -/
def VisitRow.toVisit (row : VisitRow) : Except EngineError Visit := do
  let startTime ← readStored row.startTime
  let endTime ← readStoredOption row.endTime
  return ⟨row.id, row.parentId, row.bizId, row.tenantId, row.name, row.status, row.result,
    row.kind, row.operationId, startTime, endTime⟩

/-- The two tables, rows in the order of insertion. -/
structure Relational where
  /-- the runs -/
  runs : List RunRow
  /-- the visits -/
  visits : List VisitRow
  deriving DecidableEq, Repr, Inhabited

namespace Relational

/-- Empty tables. -/
def empty : Relational := ⟨[], []⟩

/-- Whether a run of that ID is stored. -/
def hasRun (t : Relational) (id : String) : Bool := t.runs.any (·.id == id)

/-- Whether a visit of that ID is stored. -/
def hasVisit (t : Relational) (id : String) : Bool := t.visits.any (·.id == id)

/-- Read rows one after the other, up to the first that cannot be read. -/
def readRows {ρ α : Type} (read : ρ → Except EngineError α) : List ρ → Except EngineError (List α)
  | [] => .ok []
  | row :: rows => do
    let a ← read row
    return a :: (← readRows read rows)

/-! ## Writes -/

/-- Insert a run. -/
def createRun (r : RunRecord) (t : Relational) : Reply Relational Unit :=
  if t.hasRun r.id then (.error (.storage (.uniqueViolated .runs)), t)
  else (.ok (), { t with runs := t.runs ++ [.ofRecord r] })

/-- Insert a visit. -/
def createVisit (v : Visit) (t : Relational) : Reply Relational Unit :=
  if t.hasVisit v.id then (.error (.storage (.uniqueViolated .visits)), t)
  else if !t.hasRun v.parentId then (.error (.storage .foreignKeyViolated), t)
  else (.ok (), { t with visits := t.visits ++ [.ofVisit v] })

/-- Insert a run, or write to its row. -/
def upsertRun (t : Relational) (r : RunRecord) : Relational :=
  let new := RunRow.ofRecord r
  if t.hasRun r.id then
    { t with runs := t.runs.map fun row => if row.id = r.id then row.overwrite new else row }
  else { t with runs := t.runs ++ [new] }

/-- Insert a visit, or write to its row. -/
def upsertVisit (t : Relational) (v : Visit) : Except EngineError Relational :=
  let new := VisitRow.ofVisit v
  if t.hasVisit v.id then
    -- nothing is inserted, so the run need not be stored
    let visits := t.visits.map fun row => if row.id = v.id then row.overwrite new else row
    .ok { t with visits := visits }
  else if !t.hasRun v.parentId then .error (.storage .foreignKeyViolated)
  else .ok { t with visits := t.visits ++ [new] }

/-- Write visits one after the other. -/
def upsertVisits (t : Relational) : List Visit → Except EngineError Relational
  | [] => .ok t
  | v :: vs => do (← t.upsertVisit v).upsertVisits vs

/-- Write a run and visits of it, or nothing at all. -/
def update (r : RunRecord) (visits : List Visit) (t : Relational) : Reply Relational Unit :=
  match (t.upsertRun r).upsertVisits visits with
  | .ok t => (.ok (), t)
  | .error e => (.error e, t)

/-! ## Reads -/

/-- The run of that ID. -/
def get (id : String) (t : Relational) : Except EngineError (Option RunRecord) :=
  match t.runs.find? (·.id == id) with
  | none => .ok none
  | some row => row.toRecord.map some

/-- The run of that ID with its visits. -/
def detail (id : String) (t : Relational) : Except EngineError (Option RunDetail) := do
  match ← t.get id with
  | none => return none
  | some run =>
    let visits ← readRows VisitRow.toVisit (t.visits.filter (·.parentId == id))
    return some ⟨run, visits, []⟩

/-- Whether a row passes the filters of a query. -/
def accepts (q : RunQuery) (row : RunRow) : Bool :=
  q.bizId.all (· == row.bizId) && q.status.all (· == row.status) && q.name.all (· == row.name)

/-- The rows that match: by stored time of creation, latest first; of several
with one time the one inserted last comes first. -/
def matching (q : RunQuery) (t : Relational) : List RunRow :=
  (t.runs.reverse.filter (accepts q)).mergeSort fun a b => decide (b.createdAt ≤ a.createdAt)

/-- How many rows can be skipped: the database counts them as signed words. -/
def maxSkipped : Nat := Int64.maxValue.toInt.toNat

/-- A page of the runs that match, and their number. Only the rows of the page
are read. -/
def list (q : RunQuery) (t : Relational) : Except EngineError (List RunRecord × Nat) := do
  let rows ← readRows RunRow.toRecord (q.pageOf maxSkipped (t.matching q))
  return (rows, (t.matching q).length)

/-- The rows of one status. -/
def ofStatus (s : Status) (t : Relational) : List RunRow := t.runs.filter (·.status == s)

/-- The runs that have not ended, by stored time of creation. Of several with
one time, those that have not started come first. -/
def unfinished (t : Relational) : Except EngineError (List RunRecord) :=
  readRows RunRow.toRecord <|
    (t.ofStatus .initializing ++ t.ofStatus .processing).mergeSort fun a b =>
      decide (a.createdAt ≤ b.createdAt)

instance : Store Relational where
  createRun := createRun
  createVisit := createVisit
  update := update
  get id t := (t.get id, t)
  detail id t := (t.detail id, t)
  list q t := (t.list q, t)
  unfinished t := (t.unfinished, t)

end Relational

end Runbook
