import Runbook.Execution

/-!
# Definitions of procedures

A definition is a graph of nodes: where a run goes from a node depends on
whether the node succeeded or failed.

* `NodeSpec` — a node: its executor and where its two events lead.
* `Forward` — the order in which a definition keeps its nodes: every event of a
  node leads to a node that comes later. So every event leads to some node, and
  no path of events has an end beyond the last node. What walks the graph goes
  through the list once.
* `Definition` — a name and nodes in such an order, one of them the start.
* `Definition.successPath` — the nodes of a run in which no node fails.
* `Definition.unreachable` — the nodes that no run can visit.
-/

namespace Runbook

/-- A node of a procedure. -/
structure NodeSpec where
  /-- its name -/
  name : String
  /-- how it comes to its end -/
  kind : NodeKind
  /-- what it does -/
  executor : Executor
  /-- the node that follows a success; none ends the run -/
  onSuccess : Option String
  /-- the node that follows a failure; none ends the run -/
  onFail : Option String
  /-- how long the executor may take -/
  limit : Option Duration

namespace NodeSpec

/-- The target that a name stands for: no name, no target. -/
def namedTarget (name : String) : Option String := if name.isEmpty then none else some name

/-- Where an event of the node leads. -/
def target (n : NodeSpec) : Event → Option String
  | .success => n.onSuccess
  | .fail => n.onFail

/-- The nodes to which the events lead. -/
def successors (n : NodeSpec) : List String := n.onSuccess.toList ++ n.onFail.toList

theorem mem_successors {n : NodeSpec} {t : String} :
    t ∈ n.successors ↔ ∃ e, n.target e = some t := by
  simp only [successors, List.mem_append, Option.mem_toList]
  constructor
  · rintro (h | h)
    · exact ⟨.success, h⟩
    · exact ⟨.fail, h⟩
  · rintro ⟨_ | _, h⟩
    · exact .inl h
    · exact .inr h

end NodeSpec

/-- Every event of a node leads to a node that comes later in the list. -/
def Forward : List NodeSpec → Prop
  | [] => True
  | n :: rest => (∀ t ∈ n.successors, t ∈ rest.map NodeSpec.name) ∧ Forward rest

/-- A procedure. -/
structure Definition where
  /-- its name -/
  name : String
  /-- its nodes -/
  nodes : List NodeSpec
  /-- it has a name -/
  named : name ≠ ""
  /-- so has every node -/
  nodesNamed : ∀ n ∈ nodes, n.name ≠ ""
  /-- no two nodes share a name -/
  distinct : (nodes.map NodeSpec.name).Nodup
  /-- one node is the start -/
  hasStart : startName ∈ nodes.map NodeSpec.name
  /-- every event leads to a later node -/
  forward : Forward nodes

namespace Definition

/-- The node of that name. -/
def node? (d : Definition) (name : String) : Option NodeSpec := d.nodes.find? (·.name == name)

/-! ## The path of success -/

/-- The names of the nodes from `target` on, as long as every node succeeds. -/
def successFrom : Option String → List NodeSpec → List String
  | none, _ | _, [] => []
  | some target, n :: rest =>
    if n.name = target then n.name :: successFrom n.onSuccess rest
    else successFrom (some target) rest

/-- The names of the nodes that a run visits if every node succeeds. -/
def successPath (d : Definition) : List String := successFrom (some startName) d.nodes

/-! ## Reachability -/

/-- The names in `found`, and those to which events lead from them, step by
step. Because events lead forward, one pass over the nodes finds all. -/
def closure (found : List String) : List NodeSpec → List String
  | [] => found
  | n :: rest => if n.name ∈ found then closure (n.successors ++ found) rest else closure found rest

/-- The nodes that no path of events from the start leads to. -/
def unreachable (d : Definition) : List NodeSpec :=
  let reached := closure [startName] d.nodes
  d.nodes.filter fun n => n.name ∉ reached

/-- What is said of an unreachable node. -/
def warning (d : Definition) (n : NodeSpec) : String :=
  "node " ++ n.name ++ " of workflow " ++ d.name ++ " is unreachable from " ++ startName

/-- What is said of all of them, sorted. -/
def warnings (d : Definition) : List String :=
  (d.unreachable.map d.warning).mergeSort (· ≤ ·)

end Definition

end Runbook
