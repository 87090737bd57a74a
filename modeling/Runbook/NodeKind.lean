import Runbook.Json.Shape

/-!
# Kinds of nodes

A node is done when its executor is done, or it hands its work to the
deployment system and is done when an operation there is.
-/

namespace Runbook

/-- How a node comes to its end. -/
inductive NodeKind where
  /-- with its executor -/
  | immediate
  /-- with an operation of the deployment system, which is asked again and again -/
  | polling
  deriving DecidableEq, Repr, Inhabited

namespace NodeKind

/-- The name that records use. -/
def name : NodeKind → String
  | immediate => "SyncFuncNode"
  | polling => "PollingNode"

/-- Both kinds in the order in which messages list them. -/
def all : List NodeKind := [immediate, polling]

/-- The kind of that name. -/
def ofName? (s : String) : Option NodeKind := all.find? (·.name == s)

/-- What is said of a name that no kind has. -/
def unknownName (s : String) : String := "unknown node return type: " ++ s

/-- A kind given by its name. -/
def shape : Shape NodeKind := Shape.variant (all.map fun k => (k.name, k))

/-- Every kind is found by its name. -/
@[simp] theorem ofName?_name (k : NodeKind) : ofName? k.name = some k := by
  cases k <;> decide

end NodeKind

end Runbook
