import Runbook.Json.Shape

/-!
# Status of runs and nodes

Runs and the nodes they visit go through the same five states. The last three
are terminal: who reached one of them has ended.
-/

namespace Runbook

/-- The state of a run or of a visit to a node. -/
inductive Status where
  /-- created, not started -/
  | initializing
  /-- at work -/
  | processing
  /-- ended well -/
  | finished
  /-- ended with a failure -/
  | error
  /-- stopped on request -/
  | canceled
  deriving DecidableEq, Repr, Inhabited

namespace Status

/-- The name that records and messages use. -/
def name : Status → String
  | initializing => "Initializing"
  | processing => "Processing"
  | finished => "Finished"
  | error => "Error"
  | canceled => "Canceled"

/-- All states in the order in which messages list them. -/
def all : List Status := [initializing, processing, finished, error, canceled]

/-- The state of that name. -/
def ofName? (s : String) : Option Status := all.find? (·.name == s)

/-- What is said of a name that no state has. -/
def unknownName (s : String) : String := "unknown workflow status: " ++ s

/-- Whether who reached the state has ended. -/
def isTerminal : Status → Bool
  | finished | error | canceled => true
  | initializing | processing => false

/-- A state given by its name. -/
def shape : Shape Status := Shape.variant (all.map fun s => (s.name, s))

/-- Every state is found by its name. -/
@[simp] theorem ofName?_name (s : Status) : ofName? s.name = some s := by
  cases s <;> decide

end Status

end Runbook
