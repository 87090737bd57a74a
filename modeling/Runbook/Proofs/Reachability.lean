import Runbook.Proofs.Building

/-!
# Unreachable nodes

A procedure is looked through once for the nodes to which no path of events leads from the start,
and exactly these are warned about.

* `Definition.mem_closure_iff` — one pass over the nodes in order finds all paths. The induction is
  on the nodes: because events lead forward, no path comes back to a node that was passed.
* `Definition.mem_warnings_iff` — what is said of a node tells which one it is.
* `Definition.exists_steers_of_path` — a path is gone if each node on it ends with the right event.
-/

namespace Runbook

open Relation

namespace Definition

variable {d : Definition} {nodes rest : List NodeSpec} {n : NodeSpec} {found : List String}
  {a b : String}

/-! ## The pass over the nodes -/

theorem leads_cons : Leads (n :: rest) a b ↔ (n.name = a ∧ b ∈ n.successors) ∨ Leads rest a b := by
  simp only [Leads, List.exists_mem_cons_iff]

/-- No event leads to the first node, or back to one that was passed. -/
theorem mem_of_leads (forward : Forward nodes) (leads : Leads nodes a b) :
    b ∈ nodes.tail.map NodeSpec.name := by
  induction nodes with
  | nil =>
    obtain ⟨m, inside, -⟩ := leads
    cases inside
  | cons n rest ih =>
    obtain ⟨next, forward⟩ := forward
    rcases leads_cons.1 leads with ⟨-, event⟩ | later
    · exact next b event
    · exact ((List.tail_sublist rest).map _).subset (ih forward later)

/-- A path that does not begin at the first node does not come to it, and one that does goes on
among the others. -/
theorem path_cons (forward : Forward (n :: rest)) (fresh : n.name ∉ rest.map NodeSpec.name)
    (path : ReflTransGen (Leads (n :: rest)) a b) : ReflTransGen (Leads rest) a b ∨
      a = n.name ∧ ∃ s ∈ n.successors, ReflTransGen (Leads rest) s b := by
  induction path using ReflTransGen.head_induction_on with
  | refl => exact .inl .refl
  | @head a c leads _ ih =>
    have behind : c ≠ n.name := by
      rintro rfl
      exact fresh (mem_of_leads forward leads)
    have on : ReflTransGen (Leads rest) c b := ih.resolve_right fun back => behind back.1
    rcases leads_cons.1 leads with ⟨here, event⟩ | later
    · exact .inr ⟨here.symm, c, event, on⟩
    · exact .inl (.head later on)

/-- What is found are the names to which paths lead. -/
theorem mem_closure_iff (forward : Forward nodes) (distinct : (nodes.map NodeSpec.name).Nodup) :
    b ∈ closure found nodes ↔ ∃ a ∈ found, ReflTransGen (Leads nodes) a b := by
  -- events lead forward, so a path that comes to the first node does so at its beginning or not at
  -- all
  induction nodes generalizing found with
  | nil =>
    have stays (a : String) : ReflTransGen (Leads []) a b ↔ b = a :=
      Relation.reflTransGen_iff_eq (by simp [Leads])
    simp [closure, stays]
  | cons n rest ih =>
    obtain ⟨fresh, distinct⟩ := List.nodup_cons.1 distinct
    have wider {a b : String} (path : ReflTransGen (Leads rest) a b) :
        ReflTransGen (Leads (n :: rest)) a b :=
      ReflTransGen.mono (fun _ _ leads => leads_cons.2 (.inr leads)) _ _ path
    rw [closure]
    split
    · next here =>
      rw [ih forward.2 distinct]
      constructor
      · rintro ⟨a, inside, path⟩
        rcases List.mem_append.1 inside with event | inside
        · exact ⟨n.name, here, .head (leads_cons.2 (.inl ⟨rfl, event⟩)) (wider path)⟩
        · exact ⟨a, inside, wider path⟩
      · rintro ⟨a, inside, path⟩
        rcases path_cons forward fresh path with path | ⟨rfl, s, event, path⟩
        · exact ⟨a, List.mem_append_right _ inside, path⟩
        · exact ⟨s, List.mem_append_left _ event, path⟩
    · next elsewhere =>
      rw [ih forward.2 distinct]
      constructor
      · rintro ⟨a, inside, path⟩
        exact ⟨a, inside, wider path⟩
      · rintro ⟨a, inside, path⟩
        rcases path_cons forward fresh path with path | ⟨rfl, -⟩
        · exact ⟨a, inside, path⟩
        · exact absurd inside elsewhere

/-- A node is unreachable if no path of events leads to it. -/
theorem mem_unreachable_iff :
    n ∈ d.unreachable ↔ n ∈ d.nodes ∧ ¬ ReflTransGen (Leads d.nodes) startName n.name := by
  simp [unreachable, mem_closure_iff d.forward d.distinct]

/-! ## What is said -/

/-- What is said of a node tells its name. -/
theorem warning_inj {m : NodeSpec} (h : d.warning m = d.warning n) : m.name = n.name := by
  simpa [warning] using h

/-- A node is warned about exactly if it is unreachable, and nothing else is warned about. -/
theorem mem_warnings_iff {w : String} : w ∈ d.warnings ↔
    ∃ n ∈ d.nodes, ¬ ReflTransGen (Leads d.nodes) startName n.name ∧ w = d.warning n := by
  rw [warnings, List.mem_mergeSort, List.mem_map]
  simp only [mem_unreachable_iff, and_assoc, eq_comm]

theorem warning_mem_warnings_iff (hn : n ∈ d.nodes) :
    d.warning n ∈ d.warnings ↔ ¬ ReflTransGen (Leads d.nodes) startName n.name := by
  rw [mem_warnings_iff]
  constructor
  · rintro ⟨m, -, apart, same⟩
    rwa [warning_inj same]
  · exact fun apart => ⟨n, hn, apart, rfl⟩

/-- Each node is warned about at most once. -/
theorem nodup_warnings (d : Definition) : d.warnings.Nodup := by
  have names : (d.unreachable.map NodeSpec.name).Nodup :=
    (List.filter_sublist.map _).nodup d.distinct
  refine (List.mergeSort_perm _ _).nodup_iff.2 (List.pairwise_map.2 ?_)
  exact (List.pairwise_map.1 names).imp fun apart same => apart (warning_inj same)

/-! ## Paths of chosen events -/

/-- The event that is chosen for the node `a` leads to `b`. -/
def Steers (d : Definition) (outcomes : String → Event) (a b : String) : Prop :=
  ∃ n, d.node? a = some n ∧ n.target (outcomes a) = some b

variable {outcomes outcomes' : String → Event}

theorem leads_of_steers (steers : d.Steers outcomes a b) : Leads d.nodes a b := by
  obtain ⟨n, found, target⟩ := steers
  obtain ⟨inside, rfl⟩ := node?_eq_some.1 found
  exact ⟨n, inside, rfl, NodeSpec.mem_successors.2 ⟨_, target⟩⟩

/-- What is chosen for a node does not matter to paths from a place behind it: they do not come back
to it. -/
theorem path_steers_of_behind {c : String} (behind : TransGen (Leads d.nodes) a c)
    (same : ∀ x, x ≠ a → outcomes' x = outcomes x) (path : ReflTransGen (d.Steers outcomes) c b) :
    ReflTransGen (d.Steers outcomes') c b := by
  induction path using ReflTransGen.head_induction_on with
  | refl => exact .refl
  | @head c c' steers _ ih =>
    have other : c ≠ a := by
      rintro rfl
      exact d.acyclic c behind
    have further := ih (behind.tail (leads_of_steers steers))
    obtain ⟨n, found, target⟩ := steers
    exact .head ⟨n, found, (same c other).symm ▸ target⟩ further

/-- For each path of events, success and failure can be chosen so that it is gone. -/
theorem exists_steers_of_path (path : ReflTransGen (Leads d.nodes) a b) :
    ∃ outcomes, ReflTransGen (d.Steers outcomes) a b := by
  induction path using ReflTransGen.head_induction_on with
  | refl => exact ⟨fun _ => .success, .refl⟩
  | @head a c leads _ ih =>
    obtain ⟨outcomes, path⟩ := ih
    obtain ⟨n, inside, rfl, event⟩ := leads
    obtain ⟨e, target⟩ := NodeSpec.mem_successors.1 event
    have behind : TransGen (Leads d.nodes) n.name c := .single ⟨n, inside, rfl, event⟩
    have first : d.Steers (Function.update outcomes n.name e) n.name c := by
      refine ⟨n, node?_eq_some.2 ⟨inside, rfl⟩, ?_⟩
      rwa [Function.update_self]
    refine ⟨_, .head first (path_steers_of_behind behind (fun x other => ?_) path)⟩
    exact Function.update_of_ne other ..

end Definition

end Runbook
