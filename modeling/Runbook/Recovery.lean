import Runbook.Store

/-!
# Closing orphaned runs

A run belongs to the process that executes it. A run that has not ended when the
engine begins was cut off by the end of an earlier process; it is not resumed
but closed, so that its history shows where it stopped.

* `RunDetail.close` — a closed run. The clock is read anew for every visit that
  fails and for the run.
* `Recovery.sweep` — closing every run that has not ended.
-/

namespace Runbook

/-- Why the visits of an orphaned run fail. -/
def orphaned : Failure := .taskFailed "orphaned by restart"

/-- A visit of an orphaned run: it fails unless it has ended. -/
def Visit.close (now : Instant) (v : Visit) : Visit := if v.isActive then v.fail orphaned now else v

/-- The visits of an orphaned run. The clock is read for each one that fails,
from its `n`th reading on. -/
def Visit.closeAll (clock : Nat → Instant) : Nat → List Visit → List Visit
  | _, [] => []
  | n, v :: vs => v.close (clock n) :: closeAll clock (if v.isActive then n + 1 else n) vs

namespace RunDetail

/-- An orphaned run: its visits that have not ended fail, and then it ends with
an error. -/
def close (clock : Nat → Instant) (n : Nat) (d : RunDetail) : RunDetail :=
  { d with
    run := { d.run with
      status := .error, updatedAt := clock (n + d.visits.countP Visit.isActive) }
    visits := Visit.closeAll clock n d.visits }

/-- How often the clock is read for that. -/
def readings (d : RunDetail) : Nat := d.visits.countP Visit.isActive + 1

end RunDetail

namespace Recovery

variable {σ : Type} [Store σ]

/-- Close runs one after the other, up to the first error of the store; the IDs
of the runs that were closed. A run that is no longer stored is passed over.
Beside the store stands how often the clock has been read. -/
def closeAll (clock : Nat → Instant) : List RunRecord → σ × Nat → Reply (σ × Nat) (List String)
  | [], s => (.ok [], s)
  | run :: rest, (s, n) =>
    -- read again, for the visits
    match Store.detail run.id s with
    | (.error e, s) => (.error e, s, n)
    | (.ok none, s) => closeAll clock rest (s, n)
    | (.ok (some d), s) =>
      match Store.update (d.close clock n).run (d.close clock n).visits s with
      | (.error e, s) => (.error e, s, n + d.readings)
      | (.ok (), s) =>
        let (ids, s) := closeAll clock rest (s, n + d.readings)
        (ids.map (d.run.id :: ·), s)

/-- Close every run that has not ended; their IDs. -/
def sweep (clock : Nat → Instant) : σ × Nat → Reply (σ × Nat) (List String)
  | (s, n) =>
    match Store.unfinished s with
    | (.error e, s) => (.error e, s, n)
    | (.ok runs, s) => closeAll clock runs (s, n)

end Recovery

end Runbook
