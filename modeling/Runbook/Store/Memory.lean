import Runbook.Store

/-!
# The store in memory

Runs in the order in which they were first written, each with its visits in the
order in which those were first written. Writes of visits and updates can be
switched off, and updates are counted.
-/

namespace Runbook

/-- A stored run with its visits. -/
structure MemoryEntry where
  /-- the run -/
  run : RunRecord
  /-- its visits -/
  visits : List Visit
  deriving DecidableEq, Repr

/-- The state of the store in memory. -/
structure Memory where
  /-- the runs, first written first -/
  entries : List MemoryEntry
  /-- whether writes of visits and updates fail -/
  readOnly : Bool
  /-- how many updates were made -/
  updates : Nat
  deriving DecidableEq, Repr, Inhabited

namespace Memory

/-- A store without runs. -/
def empty : Memory := ⟨[], false, 0⟩

/-- The stored run of that ID. -/
def find? (m : Memory) (id : String) : Option MemoryEntry := m.entries.find? (·.run.id == id)

/-- Change the stored run of that ID. -/
def modify (m : Memory) (id : String) (f : MemoryEntry → MemoryEntry) : Memory :=
  { m with entries := m.entries.map fun e => if e.run.id = id then f e else e }

/-- Write a visit: in place of the one with its ID, else at the end. -/
def upsertVisit (visits : List Visit) (v : Visit) : List Visit :=
  if visits.any (·.id == v.id) then visits.map fun w => if w.id = v.id then v else w
  else visits ++ [v]

/-- Store a new run. -/
def createRun (r : RunRecord) (m : Memory) : Reply Memory Unit :=
  if (m.find? r.id).isSome then (.error (.storage (.runExists r.id)), m)
  else (.ok (), { m with entries := m.entries ++ [⟨r, []⟩] })

/-- Store a new visit. -/
def createVisit (v : Visit) (m : Memory) : Reply Memory Unit :=
  if m.readOnly then (.error (.storage .readOnly), m)
  else match m.find? v.parentId with
    | none => (.error (.runNotFound v.parentId), m)
    | some e =>
      if e.visits.any (·.id == v.id) then (.error (.storage (.visitExists v.id)), m)
      else (.ok (), m.modify v.parentId fun e => { e with visits := e.visits ++ [v] })

/-- Store a run, new or not, and visits of it. -/
def update (r : RunRecord) (visits : List Visit) (m : Memory) : Reply Memory Unit :=
  if m.readOnly then (.error (.storage .readOnly), m)
  else
    -- a run that is written first here takes its place at the end
    let m := if (m.find? r.id).isSome then m else { m with entries := m.entries ++ [⟨r, []⟩] }
    let m := m.modify r.id fun e => ⟨r, visits.foldl upsertVisit e.visits⟩
    (.ok (), { m with updates := m.updates + 1 })

/-- The run of that ID. -/
def get (id : String) (m : Memory) : Option RunRecord := (m.find? id).map MemoryEntry.run

/-- The run of that ID with its visits. -/
def detail (id : String) (m : Memory) : Option RunDetail :=
  (m.find? id).map fun e => ⟨e.run, e.visits, []⟩

/-- The runs that match, newest first. -/
def matching (q : RunQuery) (m : Memory) : List RunRecord :=
  (m.entries.map MemoryEntry.run).reverse.filter q.accepts

/-- How many runs can be skipped: as many as can be counted. -/
def maxSkipped : Nat := UInt64.size - 1

/-- A page of the runs that match, and their number. -/
def list (q : RunQuery) (m : Memory) : List RunRecord × Nat :=
  (q.pageOf maxSkipped (m.matching q), (m.matching q).length)

/-- The runs that have not ended, first written first. -/
def unfinished (m : Memory) : List RunRecord :=
  (m.entries.map MemoryEntry.run).filter fun r => !r.status.isTerminal

instance : Store Memory where
  createRun := createRun
  createVisit := createVisit
  update := update
  get id m := (.ok (m.get id), m)
  detail id m := (.ok (m.detail id), m)
  list q m := (.ok (m.list q), m)
  unfinished m := (.ok m.unfinished, m)

end Memory

end Runbook
