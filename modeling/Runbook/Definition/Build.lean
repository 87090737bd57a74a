import Runbook.Definition

/-!
# Building definitions

A list of nodes is checked and brought into an order in which every event leads
forward. The checks come in a fixed order, so that of several faults always the
same one is reported: names first, node by node, then the start, then the
events, then cycles.

* `settle` — take out, again and again, the first node all of whose events lead
  to nodes already taken, and put it in front of them. What is left over in the
  end lies on a cycle or leads to one.
* `Definition.build` — the checks and the definition.
-/

namespace Runbook

/-! ## Ordering the nodes -/

/-- Whether all events of a node lead to nodes of the list. -/
def NodeSpec.leadsInto (n : NodeSpec) (done : List NodeSpec) : Bool :=
  n.successors.all fun t => (done.map NodeSpec.name).contains t

/-- The first node of the list that leads into `done`, and the others. -/
def pickSettled (done : List NodeSpec) : List NodeSpec → Option (NodeSpec × List NodeSpec)
  | [] => none
  | n :: rest =>
    if n.leadsInto done then some (n, rest)
    else (pickSettled done rest).map fun (m, others) => (m, n :: others)

/-- Move nodes from `pending` in front of `done` as long as one leads into
`done`, at most `fuel` of them. -/
def settle : Nat → List NodeSpec → List NodeSpec → List NodeSpec × List NodeSpec
  | 0, done, pending => (done, pending)
  | fuel + 1, done, pending =>
    match pickSettled done pending with
    | none => (done, pending)
    | some (n, others) => settle fuel (n :: done) others

theorem pickSettled_perm {done pending others : List NodeSpec} {n : NodeSpec}
    (h : pickSettled done pending = some (n, others)) : pending.Perm (n :: others) := by
  induction pending generalizing n others with
  | nil => cases h
  | cons m rest ih =>
    rw [pickSettled] at h
    split at h
    · cases h; exact .refl _
    · obtain ⟨⟨k, ks⟩, hk, he⟩ := Option.map_eq_some_iff.1 h
      cases he
      exact ((ih hk).cons m).trans (.swap _ _ _)

theorem leadsInto_of_pickSettled {done pending others : List NodeSpec} {n : NodeSpec}
    (h : pickSettled done pending = some (n, others)) : n.leadsInto done = true := by
  induction pending generalizing n others with
  | nil => cases h
  | cons m rest ih =>
    rw [pickSettled] at h
    split at h
    next hm => cases h; exact hm
    next =>
      obtain ⟨⟨k, ks⟩, hk, he⟩ := Option.map_eq_some_iff.1 h
      cases he
      exact ih hk

/-- Settling keeps the order of what is done. -/
theorem forward_settle (fuel : Nat) {done pending : List NodeSpec} (h : Forward done) :
    Forward (settle fuel done pending).1 := by
  induction fuel generalizing done pending with
  | zero => exact h
  | succ fuel ih =>
    rw [settle]
    split
    · exact h
    next n others hp =>
      refine ih ⟨fun t ht => ?_, h⟩
      have := leadsInto_of_pickSettled hp
      rw [NodeSpec.leadsInto, List.all_eq_true] at this
      simpa using this t ht

/-- Settling loses and adds nothing. -/
theorem settle_perm (fuel : Nat) (done pending : List NodeSpec) :
    ((settle fuel done pending).1 ++ (settle fuel done pending).2).Perm (done ++ pending) := by
  induction fuel generalizing done pending with
  | zero => exact .refl _
  | succ fuel ih =>
    rw [settle]
    split
    · exact .refl _
    next n others hp =>
      refine (ih (n :: done) others).trans ?_
      exact List.perm_middle.symm.trans (.append_left done (pickSettled_perm hp).symm)

/-- The nodes in an order in which every event leads forward, if there is one. -/
def ordered? (nodes : List NodeSpec) : Option { l : List NodeSpec // Forward l ∧ l.Perm nodes } :=
  match h : settle nodes.length [] nodes with
  | (l, []) => some ⟨l, by
      have hf : Forward (settle nodes.length [] nodes).1 := forward_settle _ trivial
      have hp := settle_perm nodes.length [] nodes
      rw [h] at hf hp
      exact ⟨hf, by simpa using hp⟩⟩
  | (_, _ :: _) => none

/-! ## The checks -/

/-- The first node without a name, or with the name of an earlier one. -/
def namingFault? (workflow : String) (seen : List String) : List NodeSpec → Option DefinitionFault
  | [] => none
  | n :: rest =>
    if n.name = "" then some (.unnamedNode workflow)
    else if n.name ∈ seen then some (.repeatedNode workflow n.name)
    else namingFault? workflow (n.name :: seen) rest

/-- The event of a node that leads to none of the names, success before
failure. -/
def eventFault? (workflow : String) (names : List String) (n : NodeSpec) : Option DefinitionFault :=
  let unknown (e : Event) : Option DefinitionFault :=
    match n.target e with
    | some t => if t ∈ names then none else some (.unknownSuccessor workflow n.name e t)
    | none => none
  (unknown .success).or (unknown .fail)

theorem namingFault?_eq_none {workflow : String} {seen : List String} {nodes : List NodeSpec}
    (h : namingFault? workflow seen nodes = none) :
    (∀ n ∈ nodes, n.name ≠ "") ∧ (nodes.map NodeSpec.name).Nodup ∧
      ∀ n ∈ nodes, n.name ∉ seen := by
  induction nodes generalizing seen with
  | nil => simp
  | cons n rest ih =>
    rw [namingFault?] at h
    split at h
    · cases h
    split at h
    · cases h
    next hne hns =>
      obtain ⟨h₁, h₂, h₃⟩ := ih h
      refine ⟨?_, ?_, ?_⟩
      · intro m hm
        rcases List.mem_cons.1 hm with rfl | hm
        · exact hne
        · exact h₁ m hm
      · rw [List.map_cons, List.nodup_cons]
        refine ⟨fun hm => ?_, h₂⟩
        obtain ⟨m, hm, he⟩ := List.mem_map.1 hm
        exact h₃ m hm (he ▸ List.mem_cons_self)
      · intro m hm
        rcases List.mem_cons.1 hm with rfl | hm
        · exact hns
        · exact fun hs => h₃ m hm (List.mem_cons_of_mem _ hs)

/-- The definition with that name and these nodes, or the first fault. -/
def Definition.build (name : String) (nodes : List NodeSpec) : Except DefinitionFault Definition :=
  if hn : name = "" then .error .unnamedWorkflow
  else
    match hf : namingFault? name [] nodes with
    | some fault => .error fault
    | none =>
      if hs : startName ∈ nodes.map NodeSpec.name then
        match nodes.findSome? (eventFault? name (nodes.map NodeSpec.name)) with
        | some fault => .error fault
        | none =>
          match ordered? nodes with
          | none => .error (.cyclic name)
          | some ⟨l, hl, hp⟩ => .ok {
              name := name
              nodes := l
              named := hn
              nodesNamed := fun n hm => (namingFault?_eq_none hf).1 n (hp.mem_iff.1 hm)
              distinct := (hp.map _).nodup_iff.2 (namingFault?_eq_none hf).2.1
              hasStart := (hp.map _).mem_iff.2 hs
              forward := hl }
      else .error (.missingStart name)

end Runbook
