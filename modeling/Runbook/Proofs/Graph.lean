import Mathlib.Data.List.Nodup
import Runbook.Definition

/-!
# The graph of a procedure

Every event of a node leads to a node that comes later in the definition. What
follows from that about paths of events:

* `Definition.exists_node?_of_target` — an event never leads nowhere.
* `Definition.sublist_names_of_target` — who goes along events passes the nodes in
  the order of the definition, so no node comes twice.
-/

namespace Runbook

/-- Every event leads to a node behind its own. -/
theorem Forward.of_append {before after : List NodeSpec} {n : NodeSpec}
    (h : Forward (before ++ n :: after)) : ∀ t ∈ n.successors, t ∈ after.map NodeSpec.name := by
  induction before with
  | nil => exact h.1
  | cons m before ih => exact ih h.2

namespace Definition

variable {d : Definition} {n m : NodeSpec} {name t : String} {e : Event}

/-- To look a node up is to find the one of that name. -/
theorem node?_eq_some : d.node? name = some n ↔ n ∈ d.nodes ∧ n.name = name := by
  constructor
  · intro h
    exact ⟨List.mem_of_find?_eq_some h, by simpa using List.find?_some h⟩
  · rintro ⟨hn, rfl⟩
    cases h : d.node? n.name with
    | none => exact absurd (List.find?_eq_none.1 h n hn) (by simp)
    | some m =>
      have hm : m.name = n.name := by simpa using List.find?_some h
      rw [List.inj_on_of_nodup_map d.distinct (List.mem_of_find?_eq_some h) hn hm]

/-- Names of nodes are found. -/
theorem exists_node?_of_mem (h : name ∈ d.nodes.map NodeSpec.name) :
    ∃ n, d.node? name = some n := by
  obtain ⟨n, hn, hname⟩ := List.mem_map.1 h
  exact ⟨n, node?_eq_some.2 ⟨hn, hname⟩⟩

/-- Every procedure has its start. -/
theorem exists_node?_start (d : Definition) : ∃ n, d.node? startName = some n :=
  exists_node?_of_mem d.hasStart

/-- The event of a node leads to a node behind it. -/
theorem mem_of_target {before after : List NodeSpec} (h : d.nodes = before ++ n :: after)
    (ht : n.target e = some t) : t ∈ after.map NodeSpec.name :=
  (h ▸ d.forward).of_append t (NodeSpec.mem_successors.2 ⟨e, ht⟩)

/-- An event never leads nowhere. -/
theorem exists_node?_of_target (h : d.node? name = some n) (ht : n.target e = some t) :
    ∃ m, d.node? t = some m := by
  obtain ⟨hn, -⟩ := node?_eq_some.1 h
  obtain ⟨before, after, split⟩ := List.append_of_mem hn
  refine exists_node?_of_mem ?_
  rw [split, List.map_append, List.map_cons]
  exact List.mem_append_right _ (List.mem_cons_of_mem _ (mem_of_target split ht))

/-- Who has come to a node on the way through the list and follows an event of the
node is still on the way through the list. -/
theorem sublist_names_of_target {path : List String} (h : d.node? name = some n)
    (ht : n.target e = some t) (way : (path ++ [name]).Sublist (d.nodes.map NodeSpec.name)) :
    (path ++ [name] ++ [t]).Sublist (d.nodes.map NodeSpec.name) := by
  obtain ⟨hn, rfl⟩ := node?_eq_some.1 h
  obtain ⟨first, rest, split, hfirst, hrest⟩ := List.append_sublist_iff.1 way
  obtain ⟨middle, last, rfl⟩ := List.append_of_mem (List.singleton_sublist.1 hrest)
  -- the names are split where the node stands, and so are the nodes
  obtain ⟨before, nodes, hnodes, hbefore, hmap⟩ := List.map_eq_append_iff.1 split
  obtain ⟨between, nodes', rfl, hbetween, hmap'⟩ := List.map_eq_append_iff.1 hmap
  obtain ⟨m, after, rfl, hm, hafter⟩ := List.map_eq_cons_iff.1 hmap'
  have same : m = n := List.inj_on_of_nodup_map d.distinct (by simp [hnodes]) hn hm
  subst same
  rw [← List.append_assoc] at hnodes
  have behind := mem_of_target hnodes ht
  rw [split, List.append_assoc]
  refine hfirst.append ?_
  refine List.Sublist.trans ?_ (List.sublist_append_right _ _)
  exact .cons_cons _ (List.singleton_sublist.2 (hafter ▸ behind))

end Definition

end Runbook
