import Runbook.Duration
import Runbook.Json.Shape

/-!
# Settings of the engine

* `WritePolicy` — what a failed write of the history means to a run.
* `Settings` — what all runs of an engine share.
* `Caller` — who asks for a run, and under which name it is tracked.
-/

namespace Runbook

/-- What happens when the history cannot be written. -/
inductive WritePolicy where
  /-- the run goes on -/
  | bestEffort
  /-- the node fails and the run ends -/
  | strict
  deriving DecidableEq, Repr, Inhabited

namespace WritePolicy

/-- The name that configurations use. -/
def name : WritePolicy → String
  | bestEffort => "best-effort"
  | strict => "strict"

/-- Lower case for the letters from A to Z. -/
def lower (s : String) : String := String.ofList (s.toList.map Char.toLower)

/-- The policy of that name, in any case; a few spellings are accepted. -/
def ofName? (s : String) : Option WritePolicy :=
  let s := lower s
  if s = "best-effort" ∨ s = "besteffort" ∨ s = "best_effort" then some bestEffort
  else if s = "strict" then some strict
  else none

/-- What is said of a name that no policy has. -/
def unknownName (s : String) : String := "unknown persistence policy: " ++ lower s

/-- A policy given by its name. -/
def shape : Shape WritePolicy :=
  Shape.variant [(bestEffort.name, bestEffort), (strict.name, strict)]

end WritePolicy

/-- What all runs of an engine share. -/
structure Settings where
  /-- from one query about an operation to the next one -/
  pollInterval : Duration
  /-- queries after which a polling node gives up -/
  maxPolls : UInt32
  /-- what a failed write means -/
  policy : WritePolicy
  /-- the service in the names of background operations -/
  service : String
  /-- time passes between two queries -/
  pollInterval_pos : 0 < pollInterval.inNanos
  deriving DecidableEq, Repr

/-- Who asks for a run. -/
structure Caller where
  /-- the service; if empty, that of the settings counts -/
  service : String
  /-- the endpoint that was called -/
  endpoint : String
  /-- on whose behalf -/
  tenantId : String
  deriving DecidableEq, Repr, Inhabited

/-- The name under which a run is tracked in the background. -/
def Caller.operationName (c : Caller) (s : Settings) (runId : String) : String :=
  (if c.service.isEmpty then s.service else c.service) ++ "." ++ c.endpoint ++ " workflow." ++ runId

end Runbook
