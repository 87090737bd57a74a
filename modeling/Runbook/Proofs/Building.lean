import Mathlib.Data.Fintype.Card
import Mathlib.Data.Set.Finite.Basic
import Mathlib.Logic.Relation
import Mathlib.Order.WellFounded
import Runbook.Definition.Build
import Runbook.Proofs.Recursion

/-!
# Which nodes make a procedure

* `Leads`, `Acyclic` — the graph of the events of a list of nodes.
* `settle_eq_nil` — the nodes of a graph without cycles can be put in order: of a part that
  no node of it can be taken out of, every node has an event into the part, and so the part has a
  cycle.
* `Sound`, `FirstFault` — what is demanded of a list of nodes, and what is the first thing wrong
  with it.
* `Definition.exists_build_iff_sound` — exactly the sound lists make a procedure, which has these
  nodes, and of any other list the first fault is reported.
-/

namespace Runbook

open Relation

variable {nodes l : List NodeSpec} {n m : NodeSpec} {a b : String}

/-! ## Cycles -/

/-- An event leads from the node `a` to the node `b`. -/
def Leads (nodes : List NodeSpec) (a b : String) : Prop :=
  ∃ n ∈ nodes, n.name = a ∧ b ∈ n.successors

/-- No path of events comes back to where it began. -/
def Acyclic (nodes : List NodeSpec) : Prop := ∀ a, ¬ TransGen (Leads nodes) a a

theorem leads_congr (h : l.Perm nodes) : Leads l = Leads nodes := by
  funext a b
  simp only [Leads, h.mem_iff]

/-- A path in a procedure goes down in rank. -/
theorem Definition.rank_lt_of_path {d : Definition} (h : TransGen (Leads d.nodes) a b) :
    d.rank (some b) < d.rank (some a) := by
  have event {a b : String} (h : Leads d.nodes a b) : d.rank (some b) < d.rank (some a) := by
    obtain ⟨n, hn, rfl, hb⟩ := h
    obtain ⟨e, target⟩ := NodeSpec.mem_successors.1 hb
    exact target ▸ Definition.rank_target_lt (Definition.node?_eq_some.2 ⟨hn, rfl⟩) e
  induction h with
  | single h => exact event h
  | tail _ h ih => exact (event h).trans ih

theorem Definition.acyclic (d : Definition) : Acyclic d.nodes :=
  fun _ h => absurd (Definition.rank_lt_of_path h) (Nat.lt_irrefl _)

/-- Without cycles, no path goes on for ever among finitely many names. -/
theorem Acyclic.wellFounded (h : Acyclic nodes) (names : List String) :
    WellFounded fun x y : { x // x ∈ names } => TransGen (Leads nodes) y.1 x.1 := by
  have : Finite { x // x ∈ names } := names.finite_toSet
  have : IsTrans { x // x ∈ names } fun x y => TransGen (Leads nodes) y.1 x.1 :=
    ⟨fun _ _ _ h h' => h'.trans h⟩
  have : Std.Irrefl fun x y : { x // x ∈ names } => TransGen (Leads nodes) y.1 x.1 :=
    ⟨fun x => h x.1⟩
  exact Finite.wellFounded_of_trans_of_irrefl _

/-- Where every name of a list has an event into the list, there is a cycle. -/
theorem not_acyclic_of_closed {names : List String} (some : a ∈ names)
    (closed : ∀ a ∈ names, ∃ b ∈ names, Leads nodes a b) : ¬ Acyclic nodes := by
  intro acyclic
  obtain ⟨⟨last, inside⟩, -, ends⟩ :=
    (acyclic.wellFounded names).has_min Set.univ ⟨⟨a, some⟩, trivial⟩
  obtain ⟨next, inside', leads⟩ := closed last inside
  exact ends ⟨next, inside'⟩ trivial (.single leads)

/-! ## Putting nodes in order -/

/-- Nothing can be picked if every node has an event to somewhere else. -/
theorem exists_of_pickSettled_eq_none {done pending : List NodeSpec}
    (h : pickSettled done pending = none) :
    ∀ n ∈ pending, ∃ t ∈ n.successors, t ∉ done.map NodeSpec.name := by
  induction pending with
  | nil => simp
  | cons m rest ih =>
    rw [pickSettled] at h
    split at h
    · cases h
    · next stays =>
      refine List.forall_mem_cons.2 ⟨?_, ih (Option.map_eq_none_iff.1 h)⟩
      simpa [NodeSpec.leadsInto] using stays

/-- Settling goes on until nothing can be picked. -/
theorem pickSettled_settle (fuel : Nat) (done : List NodeSpec) {pending : List NodeSpec}
    (enough : pending.length ≤ fuel) :
    pickSettled (settle fuel done pending).1 (settle fuel done pending).2 = none := by
  induction fuel generalizing done pending with
  | zero =>
    obtain rfl := List.length_eq_zero_iff.1 (Nat.le_zero.1 enough)
    rfl
  | succ fuel ih =>
    rw [settle]
    split
    · next stuck => exact stuck
    · next n others picked =>
      have shorter := (pickSettled_perm picked).length_eq
      rw [List.length_cons] at shorter
      exact ih _ (by omega)

/-- All nodes of a graph without cycles are settled in the end, if every event leads to a
node. -/
theorem settle_eq_nil (known : ∀ n ∈ nodes, ∀ t ∈ n.successors, t ∈ nodes.map NodeSpec.name)
    (acyclic : Acyclic nodes) : (settle nodes.length [] nodes).2 = [] := by
  have stuck := exists_of_pickSettled_eq_none (pickSettled_settle nodes.length [] le_rfl)
  have perm := settle_perm nodes.length [] nodes
  rcases settled : settle nodes.length [] nodes with ⟨done, pending⟩
  rw [settled] at stuck
  rw [settled, List.nil_append] at perm
  have mem_of_pending {n : NodeSpec} (h : n ∈ pending) : n ∈ nodes :=
    perm.mem_iff.1 (List.mem_append_right done h)
  cases pending with
  | nil => rfl
  | cons first rest =>
    have some : first.name ∈ (first :: rest).map NodeSpec.name := List.mem_cons_self ..
    refine absurd acyclic (not_acyclic_of_closed some fun a ha => ?_)
    obtain ⟨n, hn, rfl⟩ := List.mem_map.1 ha
    obtain ⟨t, ht, unsettled⟩ := stuck n hn
    have inside := (perm.map NodeSpec.name).mem_iff.2 (known n (mem_of_pending hn) t ht)
    rw [List.map_append, List.mem_append] at inside
    exact ⟨t, inside.resolve_left unsettled, n, mem_of_pending hn, rfl, ht⟩

theorem ordered?_ne_none (h : (settle nodes.length [] nodes).2 = []) : ordered? nodes ≠ none := by
  rw [ordered?]
  split
  · simp
  · next left => rw [left] at h; cases h

/-! ## Faults -/

/-- Every node has a name, and no two the same one. -/
structure NamedApart (nodes : List NodeSpec) : Prop where
  /-- every node has a name -/
  named : ∀ n ∈ nodes, n.name ≠ ""
  /-- no two nodes share one -/
  distinct : (nodes.map NodeSpec.name).Nodup

/-- What is demanded of the nodes of a procedure. -/
structure Sound (name : String) (nodes : List NodeSpec) : Prop extends NamedApart nodes where
  /-- the procedure has a name -/
  titled : name ≠ ""
  /-- one node is the start -/
  hasStart : startName ∈ nodes.map NodeSpec.name
  /-- every event leads to one of the nodes -/
  known : ∀ n ∈ nodes, ∀ t ∈ n.successors, t ∈ nodes.map NodeSpec.name
  /-- no path of events comes back -/
  acyclic : Acyclic nodes

/-- Some event of the node leads to none of the nodes. -/
def NodeSpec.Astray (nodes : List NodeSpec) (n : NodeSpec) : Prop :=
  ∃ t ∈ n.successors, t ∉ nodes.map NodeSpec.name

/-- The fault is the first one with the names of the nodes: all nodes in front of the one that it
is about are named apart. -/
inductive NamingFault (name : String) (nodes : List NodeSpec) : DefinitionFault → Prop where
  /-- the node has no name -/
  | unnamed {front back : List NodeSpec} {n : NodeSpec} (split : nodes = front ++ n :: back)
      (apart : NamedApart front) (unnamed : n.name = "") :
      NamingFault name nodes (.unnamedNode name)
  /-- it has the name of an earlier one -/
  | repeated {front back : List NodeSpec} {n : NodeSpec} (split : nodes = front ++ n :: back)
      (apart : NamedApart front) (named : n.name ≠ "") (known : n.name ∈ front.map NodeSpec.name) :
      NamingFault name nodes (.repeatedNode name n.name)

/-- The fault is the first one of a list of nodes: what is looked at before is as it should be. -/
inductive FirstFault (name : String) (nodes : List NodeSpec) : DefinitionFault → Prop where
  /-- the procedure has no name -/
  | untitled (untitled : name = "") : FirstFault name nodes .unnamedWorkflow
  /-- a node has none, or that of another one -/
  | naming {f : DefinitionFault} (titled : name ≠ "") (fault : NamingFault name nodes f) :
      FirstFault name nodes f
  /-- no node is the start -/
  | startless (titled : name ≠ "") (apart : NamedApart nodes)
      (startless : startName ∉ nodes.map NodeSpec.name) : FirstFault name nodes (.missingStart name)
  /-- an event leads to no node; of the events of a node the success comes first -/
  | astray {n : NodeSpec} {e : Event} {t : String} (titled : name ≠ "") (apart : NamedApart nodes)
      (start : startName ∈ nodes.map NodeSpec.name) (inside : n ∈ nodes)
      (target : n.target e = some t) (unknown : t ∉ nodes.map NodeSpec.name)
      (first : e = .fail → ∀ s, n.onSuccess = some s → s ∈ nodes.map NodeSpec.name) :
      FirstFault name nodes (.unknownSuccessor name n.name e t)
  /-- some path of events comes back -/
  | cyclic (titled : name ≠ "") (apart : NamedApart nodes)
      (start : startName ∈ nodes.map NodeSpec.name)
      (known : ∀ n ∈ nodes, ∀ t ∈ n.successors, t ∈ nodes.map NodeSpec.name)
      (cyclic : ¬ Acyclic nodes) : FirstFault name nodes (.cyclic name)

variable {name : String} {f g : DefinitionFault}

/-! ### There is one first fault -/

theorem NamedApart.of_prefix (h : NamedApart nodes) (hl : l <+: nodes) : NamedApart l :=
  ⟨fun n hn => h.named n (hl.subset hn), (hl.map _).sublist.nodup h.distinct⟩

/-- Up to the node that it is about, the nodes are not named apart. -/
theorem NamingFault.exists_front (h : NamingFault name nodes f) : ∃ front n,
    front ++ [n] <+: nodes ∧ NamedApart front ∧ ¬ NamedApart (front ++ [n]) ∧
      f = if n.name = "" then .unnamedNode name else .repeatedNode name n.name := by
  cases h with
  | @unnamed front back n split apart unnamed =>
    refine ⟨front, n, ⟨back, by simp [split]⟩, apart, fun h => ?_, (if_pos unnamed).symm⟩
    exact h.named n (by simp) unnamed
  | @repeated front back n split apart named known =>
    refine ⟨front, n, ⟨back, by simp [split]⟩, apart, fun h => ?_, (if_neg named).symm⟩
    have distinct := h.distinct
    rw [List.map_append] at distinct
    exact List.disjoint_of_nodup_append distinct known (by simp)

theorem NamingFault.not_namedApart (h : NamingFault name nodes f) : ¬ NamedApart nodes := by
  obtain ⟨front, n, inside, -, wrong, -⟩ := h.exists_front
  exact fun apart => wrong (apart.of_prefix inside)

/-- The first node with a fault of its name is the only one in front of which all is well. -/
theorem NamingFault.unique (h : NamingFault name nodes f) (h' : NamingFault name nodes g) :
    f = g := by
  obtain ⟨front, n, inside, apart, wrong, rfl⟩ := h.exists_front
  obtain ⟨front', n', inside', apart', wrong', rfl⟩ := h'.exists_front
  have step {a b : List NodeSpec} {x y : NodeSpec} (h : a ++ [x] <+: b ++ [y])
      (apart : NamedApart b) (wrong : ¬ NamedApart (a ++ [x])) : x = y := by
    rcases List.prefix_concat_iff.1 h with same | earlier
    · exact (List.cons.inj (List.append_inj_right' same rfl)).1
    · exact absurd (apart.of_prefix earlier) wrong
  have same : n = n' := by
    rcases List.prefix_or_prefix_of_prefix inside inside' with h | h
    · exact step h apart' wrong
    · exact (step h apart wrong').symm
  rw [same]

theorem FirstFault.not_sound (h : FirstFault name nodes f) : ¬ Sound name nodes := by
  intro sound
  cases h with
  | untitled untitled => exact sound.titled untitled
  | naming _ fault => exact fault.not_namedApart sound.toNamedApart
  | startless _ _ startless => exact startless sound.hasStart
  | astray _ _ _ inside target unknown =>
    exact unknown (sound.known _ inside _ (NodeSpec.mem_successors.2 ⟨_, target⟩))
  | cyclic _ _ _ _ cyclic => exact cyclic sound.acyclic

/-- An event that leads to no node shows that its node has gone astray. -/
theorem NodeSpec.astray_of_target {e : Event} {t : String} (target : n.target e = some t)
    (unknown : t ∉ nodes.map NodeSpec.name) : n.Astray nodes :=
  ⟨t, NodeSpec.mem_successors.2 ⟨e, target⟩, unknown⟩

theorem FirstFault.unique (one : ∀ n ∈ nodes, ∀ m ∈ nodes, n.Astray nodes → m.Astray nodes → n = m)
    (h : FirstFault name nodes f) (h' : FirstFault name nodes g) : f = g := by
  -- each fault excludes the ones before it in the order of the checks; only faults of one kind are
  -- left, and they are compared one by one
  cases h with
  | untitled untitled =>
    cases h' with
    | untitled => rfl
    | naming titled | startless titled | astray titled | cyclic titled =>
      exact absurd untitled titled
  | naming titled fault =>
    cases h' with
    | untitled untitled => exact absurd untitled titled
    | naming _ fault' => exact fault.unique fault'
    | startless _ apart | astray _ apart | cyclic _ apart => exact absurd apart fault.not_namedApart
  | startless titled apart startless =>
    cases h' with
    | untitled untitled => exact absurd untitled titled
    | naming _ fault => exact absurd apart fault.not_namedApart
    | startless => rfl
    | astray _ _ start | cyclic _ _ start => exact absurd start startless
  | @astray n e t titled apart start inside target unknown first =>
    cases h' with
    | untitled untitled => exact absurd untitled titled
    | naming _ fault => exact absurd apart fault.not_namedApart
    | startless _ _ startless => exact absurd start startless
    | cyclic _ _ _ known =>
      exact absurd (known _ inside _ (NodeSpec.mem_successors.2 ⟨_, target⟩)) unknown
    | @astray m e' t' _ _ _ inside' target' unknown' first' =>
      obtain rfl := one n inside m inside' (NodeSpec.astray_of_target target unknown)
        (NodeSpec.astray_of_target target' unknown')
      -- of the two events of the node, success is looked at first
      have same : e = e' := by
        cases e with
        | success =>
          cases e' with
          | success => rfl
          | fail => exact absurd (first' rfl t target) unknown
        | fail =>
          cases e' with
          | success => exact absurd (first rfl t' target') unknown'
          | fail => rfl
      subst same
      obtain rfl : t = t' := Option.some.inj (target.symm.trans target')
      rfl
  | cyclic titled apart start known cyclic =>
    cases h' with
    | untitled untitled => exact absurd untitled titled
    | naming _ fault => exact absurd apart fault.not_namedApart
    | startless _ _ startless => exact absurd start startless
    | astray _ _ _ inside target unknown =>
      exact absurd (known _ inside _ (NodeSpec.mem_successors.2 ⟨_, target⟩)) unknown
    | cyclic => rfl

/-! ### The checks find it -/

/-- The nodes are looked at in order; `seen` are the names of those in front. -/
theorem namingFault_of_eq_some {front back : List NodeSpec} (apart : NamedApart front)
    (h : namingFault? name (front.map NodeSpec.name).reverse back = some f) :
    NamingFault name (front ++ back) f := by
  induction back generalizing front with
  | nil => cases h
  | cons n back ih =>
    rw [namingFault?] at h
    split at h
    · next unnamed =>
      cases h
      exact .unnamed rfl apart unnamed
    · next named =>
      split at h
      · next known =>
        cases h
        exact .repeated rfl apart named (by simpa using known)
      · next fresh =>
        have apart' : NamedApart (front ++ [n]) := by
          refine ⟨List.forall_mem_append.2 ⟨apart.named, by simpa using named⟩, ?_⟩
          rw [List.map_append]
          refine apart.distinct.append (List.nodup_singleton _) ?_
          simpa using fresh
        have more := ih apart' (by simpa using h)
        rwa [List.append_assoc, List.singleton_append] at more

theorem eventFault?_eq_none {names : List String} (h : eventFault? name names n = none) :
    ∀ t ∈ n.successors, t ∈ names := by
  intro t ht
  obtain ⟨e, target⟩ := NodeSpec.mem_successors.1 ht
  obtain ⟨success, fail⟩ := Option.or_eq_none_iff.1 h
  cases e with
  | success => simpa [target] using success
  | fail => simpa [target] using fail

theorem exists_of_eventFault? {names : List String} (h : eventFault? name names n = some f) :
    ∃ e t, f = .unknownSuccessor name n.name e t ∧ n.target e = some t ∧ t ∉ names ∧
      (e = .fail → ∀ s, n.onSuccess = some s → s ∈ names) := by
  rcases Option.or_eq_some_iff.1 h with success | ⟨success, fail⟩
  · cases target : n.target .success with
    | none => simp [target] at success
    | some t =>
      have outside : t ∉ names := fun inside => by simp [target, inside] at success
      obtain rfl : _ = f := by simpa [target, outside] using success
      exact ⟨.success, t, rfl, target, outside, fun absent => by cases absent⟩
  · cases target : n.target .fail with
    | none => simp [target] at fail
    | some t =>
      have outside : t ∉ names := fun inside => by simp [target, inside] at fail
      obtain rfl : _ = f := by simpa [target, outside] using fail
      refine ⟨.fail, t, rfl, target, outside, fun _ s hs => ?_⟩
      have known : n.target .success = some s := hs
      simpa [known] using success

namespace Definition

theorem firstFault_of_build (h : build name nodes = .error f) : FirstFault name nodes f := by
  -- along the checks in their order, with what the earlier ones have found
  rw [build] at h
  split at h
  · next untitled =>
    cases h
    exact .untitled untitled
  · next titled =>
    split at h
    · next fault named =>
      cases h
      have nothing : NamedApart [] := ⟨by simp, by simp⟩
      exact .naming titled (namingFault_of_eq_some nothing named)
    · next named =>
      obtain ⟨names, distinct, -⟩ := namingFault?_eq_none named
      have apart : NamedApart nodes := ⟨names, distinct⟩
      split at h
      · next start =>
        split at h
        · next fault found =>
          cases h
          obtain ⟨n, inside, fault⟩ := List.exists_of_findSome?_eq_some found
          obtain ⟨e, t, rfl, target, unknown, first⟩ := exists_of_eventFault? fault
          exact .astray titled apart start inside target unknown first
        · next found =>
          have known (n : NodeSpec) (hn : n ∈ nodes) :=
            eventFault?_eq_none (List.findSome?_eq_none_iff.1 found n hn)
          split at h
          · next disordered =>
            cases h
            refine .cyclic titled apart start known fun acyclic => ?_
            exact ordered?_ne_none (settle_eq_nil known acyclic) disordered
          · cases h
      · next startless =>
        cases h
        exact .startless titled apart startless

/-- A procedure has the name and the nodes that it was built from. -/
theorem perm_of_build {d : Definition} (h : build name nodes = .ok d) :
    d.name = name ∧ d.nodes.Perm nodes := by
  rw [build] at h
  split at h
  · cases h
  · split at h
    · cases h
    · split at h
      · split at h
        · cases h
        · split at h
          · cases h
          · next l _ perm _ =>
            cases h
            exact ⟨rfl, perm⟩
      · cases h

/-- So these were sound. -/
theorem sound_of_build {d : Definition} (h : build name nodes = .ok d) : Sound name nodes := by
  obtain ⟨rfl, perm⟩ := perm_of_build h
  refine ⟨⟨fun n hn => d.nodesNamed n (perm.mem_iff.2 hn), (perm.map _).nodup_iff.1 d.distinct⟩,
    d.named, (perm.map _).mem_iff.1 d.hasStart, fun n hn t ht => ?_, ?_⟩
  · obtain ⟨e, target⟩ := NodeSpec.mem_successors.1 ht
    have found := node?_eq_some.2 ⟨perm.mem_iff.2 hn, rfl⟩
    obtain ⟨m, hm⟩ := exists_node?_of_target found target
    obtain ⟨inside, rfl⟩ := node?_eq_some.1 hm
    exact List.mem_map_of_mem (perm.mem_iff.1 inside)
  · have acyclic := d.acyclic
    rwa [Acyclic, leads_congr perm] at acyclic

/-- **A list of nodes makes a procedure exactly if it is sound.** The procedure then has the name
and exactly these nodes, each under its name. Any other list is refused for its first fault, if
no two of its nodes have gone astray. -/
theorem exists_build_iff_sound (name : String) (nodes : List NodeSpec)
    (one : ∀ n ∈ nodes, ∀ m ∈ nodes, n.Astray nodes → m.Astray nodes → n = m) :
    ((∃ d, build name nodes = .ok d) ↔ Sound name nodes) ∧
    (∀ d, build name nodes = .ok d → d.name = name ∧ d.nodes.Perm nodes ∧
      ∀ key n, d.node? key = some n ↔ n ∈ nodes ∧ n.name = key) ∧
    ∀ e, (build name nodes).mapError EngineError.invalidDefinition = .error e ↔
      ∃ f, e = .invalidDefinition f ∧ FirstFault name nodes f := by
  -- whatever is built is sound, and whatever is not built has a fault that no sound list has
  refine ⟨⟨fun ⟨d, built⟩ => sound_of_build built, fun sound => ?_⟩, fun d built => ?_, fun e => ?_⟩
  · cases built : build name nodes with
    | ok d => exact ⟨d, rfl⟩
    | error f => exact absurd sound (firstFault_of_build built).not_sound
  · obtain ⟨title, perm⟩ := perm_of_build built
    exact ⟨title, perm, fun key n => by rw [node?_eq_some, perm.mem_iff]⟩
  · cases built : build name nodes with
    | ok d =>
      constructor
      · intro h
        cases h
      · rintro ⟨f, -, fault⟩
        exact absurd (sound_of_build built) fault.not_sound
    | error f =>
      have first := firstFault_of_build built
      constructor
      · intro h
        cases h
        exact ⟨f, rfl, first⟩
      · rintro ⟨g, rfl, fault⟩
        rw [first.unique one fault]
        rfl

/-- Two nodes away from the start that lead to one another, by different events. -/
def ring : List NodeSpec :=
  [⟨startName, .immediate, fun scene => .finish scene .done, none, none, none⟩,
    ⟨"left", .immediate, fun scene => .finish scene .done, some "right", none, none⟩,
    ⟨"right", .immediate, fun scene => .finish scene .done, none, some "left", none⟩]

/-- They make no procedure, although no run would come to them. -/
theorem ring_refused : (∀ n ∈ ring, ∀ t ∈ n.successors, t ∈ ring.map NodeSpec.name) ∧
    ¬ Sound "ring" ring ∧ (build "ring" ring).mapError EngineError.invalidDefinition =
      .error (.invalidDefinition (.cyclic "ring")) := by
  have known : ∀ n ∈ ring, ∀ t ∈ n.successors, t ∈ ring.map NodeSpec.name := by
    simp [ring, NodeSpec.successors]
  have cycle : TransGen (Leads ring) "left" "left" := by
    have there : Leads ring "left" "right" := by simp [Leads, ring, NodeSpec.successors]
    have back : Leads ring "right" "left" := by simp [Leads, ring, NodeSpec.successors]
    exact .tail (.single there) back
  have apart : NamedApart ring := ⟨by simp [ring, startName], by simp [ring, startName]⟩
  have fault : FirstFault "ring" ring (.cyclic "ring") :=
    .cyclic (by decide) apart (by simp [ring]) known fun acyclic => acyclic _ cycle
  obtain ⟨-, -, refused⟩ := exists_build_iff_sound "ring" ring fun n hn m _ ⟨t, ht, unknown⟩ _ =>
    absurd (known n hn t ht) unknown
  exact ⟨known, fault.not_sound, (refused _).2 ⟨_, rfl, fault⟩⟩

end Definition

end Runbook
