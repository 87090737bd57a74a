import Runbook.Proofs.History
import Runbook.Proofs.Serving

/-!
# The path of success

The path that is shown of a procedure, and the one that its runs take.

* `Definition.Succession` — going along the events of success, each looked up by its name.
* `Definition.succession_successPath` — `Definition.successPath` is the one such path from the
  start.
* `Visit.throughFailure` — the visits of a run up to the first that did not end well.
* `Run.agrees_of_start` — these are a beginning of the path, and all of it if the run succeeds.
-/

namespace Runbook

open Program

namespace Definition

variable {d : Definition} {n : NodeSpec} {target : Option String} {names names' : List String}

/-! ## The path of a procedure -/

/-- The names of a node and of those to which events of success lead from it. -/
inductive Succession (d : Definition) : Option NodeSpec → List String → Prop where
  /-- there is no node -/
  | nowhere : Succession d none []
  /-- the node, and what follows it -/
  | node {n : NodeSpec} {names : List String}
    (rest : Succession d (n.onSuccess.bind d.node?) names) :
    Succession d (some n) (n.name :: names)

/-- There is only one such path. -/
theorem Succession.unique {start : Option NodeSpec} (h : d.Succession start names)
    (h' : d.Succession start names') : names = names' := by
  induction h generalizing names' with
  | nowhere =>
    cases h'
    rfl
  | node _ ih =>
    cases h' with
    | node rest => rw [ih rest]

/-- It ends at a node that leads nowhere. -/
theorem Succession.exists_last (h : d.Succession (some n) names) (found : d.node? n.name = some n) :
    ∃ m, names.getLast? = some m.name ∧ d.node? m.name = some m ∧ m.onSuccess = none := by
  generalize start : some n = s at h
  induction h generalizing n with
  | nowhere => cases start
  | @node n names rest ih =>
    obtain rfl := Option.some.inj start
    cases next : n.onSuccess with
    | none =>
      rw [next] at rest
      cases rest
      exact ⟨n, rfl, found, next⟩
    | some t =>
      -- an event never leads nowhere
      obtain ⟨m, hm⟩ := exists_node?_of_target (e := .success) found next
      have here : d.node? m.name = some m := by rw [(node?_eq_some.1 hm).2, hm]
      obtain ⟨last, hlast, rest'⟩ := ih here (by rw [next, Option.bind_some, hm])
      refine ⟨last, ?_, rest'⟩
      rw [List.getLast?_cons, hlast, Option.getD_some]

/-- Going once through a part of the nodes finds the path, if it begins in that part. -/
theorem succession_successFrom {nodes : List NodeSpec} (rest : nodes <:+ d.nodes)
    (inRest : ∀ name, target = some name → name ∈ nodes.map NodeSpec.name) :
    d.Succession (target.bind d.node?) (successFrom target nodes) := by
  induction nodes generalizing target with
  | nil =>
    cases target with
    | none => exact .nowhere
    | some name => exact absurd (inRest name rfl) (by simp)
  | cons n nodes ih =>
    have rest' := (List.suffix_cons n nodes).trans rest
    have inside : n ∈ d.nodes := rest.subset (List.mem_cons_self ..)
    obtain ⟨before, whole⟩ := rest
    cases target with
    | none => exact .nowhere
    | some name =>
      rw [successFrom]
      split
      · next here =>
        subst here
        rw [Option.bind_some, node?_eq_some.2 ⟨inside, rfl⟩]
        exact .node (ih rest' fun t ht => mem_of_target (e := .success) whole.symm ht)
      · next elsewhere =>
        refine ih rest' fun name' hname => ?_
        obtain rfl := Option.some.inj hname
        exact List.mem_of_ne_of_mem (Ne.symm elsewhere) (inRest _ rfl)

/-- Every event leads to a path. -/
theorem exists_succession (leads : ∀ name, target = some name → ∃ n, d.node? name = some n) :
    ∃ names, d.Succession (target.bind d.node?) names := by
  refine ⟨_, succession_successFrom (List.suffix_refl _) fun name ht => ?_⟩
  obtain ⟨n, hn⟩ := leads name ht
  obtain ⟨inside, rfl⟩ := node?_eq_some.1 hn
  exact List.mem_map_of_mem inside

/-- The path of success is the one from the start. -/
theorem succession_successPath (d : Definition) :
    d.Succession (d.node? startName) d.successPath := by
  have inside : ∀ name, some startName = some name → name ∈ d.nodes.map NodeSpec.name := by
    rintro name ⟨⟩
    exact d.hasStart
  exact succession_successFrom (List.suffix_refl _) inside

theorem sublist_successFrom (target : Option String) (nodes : List NodeSpec) :
    (successFrom target nodes).Sublist (nodes.map NodeSpec.name) := by
  induction nodes generalizing target with
  | nil => cases target <;> exact .slnil
  | cons n nodes ih =>
    cases target with
    | none => exact List.nil_sublist _
    | some name =>
      rw [successFrom]
      split
      · exact (ih _).cons_cons _
      · exact (ih _).cons _

/-- No node comes twice. -/
theorem nodup_successPath (d : Definition) : d.successPath.Nodup :=
  (sublist_successFrom _ _).nodup d.distinct

/-- What is shown of a procedure: a path without repetitions, from the start to a node that leads
nowhere. -/
structure Shown (d : Definition) (names : List String) : Prop where
  /-- the events of success lead along it, and along no other one -/
  path : ∀ names', d.Succession (d.node? startName) names' ↔ names' = names
  /-- no node comes twice -/
  distinct : names.Nodup
  /-- it begins at the start -/
  first : names.head? = some startName
  /-- it ends at a node that leads nowhere -/
  last : ∃ n, names.getLast? = some n.name ∧ d.node? n.name = some n ∧ n.onSuccess = none

theorem shown_successPath (d : Definition) : d.Shown d.successPath := by
  have path := d.succession_successPath
  obtain ⟨n, hn⟩ := d.exists_node?_start
  have name : n.name = startName := (node?_eq_some.1 hn).2
  rw [hn] at path
  refine ⟨fun names' => ?_, d.nodup_successPath, ?_, path.exists_last (by rw [name, hn])⟩
  · rw [hn]
    exact ⟨fun h => h.unique path, fun h => h ▸ path⟩
  · cases h : d.successPath with
    | nil =>
      rw [h] at path
      cases path
    | cons first rest =>
      rw [h] at path
      cases path
      rw [List.head?_cons, name]

end Definition

/-! ## The path of a run -/

/-- Visits up to the first that did not end well, and that one. -/
def Visit.throughFailure : List Visit → List Visit
  | [] => []
  | v :: rest => if v.status = .finished then v :: throughFailure rest else [v]

namespace Visit

variable {vs : List Visit}

/-- A later visit counts only if all before it ended well. -/
theorem throughFailure_concat (vs : List Visit) (v : Visit) :
    throughFailure (vs ++ [v]) =
      if ∀ w ∈ vs, w.status = .finished then vs ++ [v] else throughFailure vs := by
  induction vs with
  | nil => simp [throughFailure]
  | cons w vs ih =>
    rw [List.cons_append, throughFailure, throughFailure, ih]
    by_cases here : w.status = .finished
    · by_cases behind : ∀ x ∈ vs, x.status = .finished
      · have all : ∀ x ∈ w :: vs, x.status = .finished := List.forall_mem_cons.2 ⟨here, behind⟩
        rw [if_pos here, if_pos behind, if_pos all]
      · have some : ¬ ∀ x ∈ w :: vs, x.status = .finished := fun all =>
          behind (List.forall_mem_cons.1 all).2
        rw [if_pos here, if_neg behind, if_neg some, if_pos here]
    · have some : ¬ ∀ x ∈ w :: vs, x.status = .finished := fun all =>
        here (List.forall_mem_cons.1 all).1
      rw [if_neg here, if_neg some, if_neg here]

end Visit

namespace Definition.History

variable {d : Definition} {trail : List Visit} {target : Option String} {names : List String}

/-- As long as every visit ends well, a history goes along the events of success. -/
theorem succession (h : d.History trail target) (ended : ∀ v ∈ trail, v.status = .finished)
    (rest : d.Succession (target.bind d.node?) names) :
    d.Succession (d.node? startName) (trail.reverse.map Visit.name ++ names) := by
  induction h generalizing names with
  | start => exact rest
  | @visit trail n v e _ found name status ih =>
    obtain ⟨here, before⟩ := List.forall_mem_cons.1 ended
    cases e with
    | fail => cases status.symm.trans here
    | success =>
      have next : d.Succession ((some n.name).bind d.node?) (n.name :: names) := by
        rw [Option.bind_some, found]
        exact .node rest
      have whole := ih before next
      rw [List.reverse_cons, List.map_append, List.map_singleton, name, List.append_assoc]
      exact whole

/-- Up to its first failure, a history is a beginning of the path of success. -/
theorem prefix_successPath (h : d.History trail target) :
    (Visit.throughFailure trail.reverse).map Visit.name <+: d.successPath := by
  induction h with
  | start => exact List.nil_prefix
  | @visit trail n v e earlier found name status ih =>
    rw [List.reverse_cons, Visit.throughFailure_concat]
    split
    · next ended =>
      have leads : ∀ t, n.onSuccess = some t → ∃ m, d.node? t = some m := fun t ht =>
        exists_node?_of_target (e := .success) found ht
      obtain ⟨names, rest⟩ := exists_succession leads
      have next : d.Succession ((some n.name).bind d.node?) (n.name :: names) := by
        rw [Option.bind_some, found]
        exact .node rest
      have whole := earlier.succession (fun w hw => ended w (List.mem_reverse.2 hw)) next
      rw [← whole.unique d.succession_successPath]
      refine ⟨names, ?_⟩
      rw [List.map_append, List.map_singleton, name, List.append_assoc, List.singleton_append]
    · exact ih

/-- A history that leads nowhere, and has no failure, is the whole path. -/
theorem names_eq_successPath (h : d.History trail none)
    (ended : ∀ v ∈ trail, v.status = .finished) :
    trail.reverse.map Visit.name = d.successPath := by
  have whole := h.succession ended .nowhere
  rw [List.append_nil] at whole
  exact whole.unique d.succession_successPath

end Definition.History

namespace Run

variable {pace : Pace} {r : Run} {d : Definition}

/-- The visits of a run of the procedure when it has ended with the value: up to the first failure
they go along the path of success, and if there is none to its end. -/
structure Agrees (d : Definition) (ok : Bool) (r : Run) : Prop where
  /-- a beginning of the path -/
  beginning : (Visit.throughFailure r.visits).map Visit.name <+: d.successPath
  /-- all of it -/
  whole : ok = true → r.visits.map Visit.name = d.successPath

theorem Agrees.of_failed {target : Option String} (h : d.History r.trail target) :
    r.Agrees d false := ⟨h.prefix_successPath, by simp⟩

/-- Canceling a run whose visits have ended changes nothing about that. -/
theorem Agrees.of_trail_eq {r' : Run} {ok : Bool} (h : r.Agrees d ok) (same : r'.trail = r.trail) :
    r'.Agrees d ok := by
  have visits : r'.visits = r.visits := congrArg List.reverse same
  exact ⟨visits ▸ h.beginning, visits ▸ h.whole⟩

theorem keeps_success (settings : Settings) (modest : ∀ n ∈ d.nodes, n.Modest) :
    Keeps pace d
      (fun target ok r _ => d.History r.trail target ∧ r.settings = settings ∧
        (ok = true → ∀ v ∈ r.trail, v.status = .finished))
      (fun o _ => match o with
        | some (ok, r) => r.Agrees d ok ∧ ∀ v ∈ r.trail, v.isActive = false
        | none => settings.maxPolls.toNat + 1 = UInt32.size) where
  arrives := by
    rintro ok r t u ⟨history, -, ended⟩ _ _
    refine ⟨⟨history.prefix_successPath, fun value => ?_⟩, history.not_isActive⟩
    exact history.names_eq_successPath (ended value)
  cancels := by
    rintro target ok r r' t u v ⟨history, -, -⟩ _ _ canceled _ _
    have same := canceled.trail_eq history.not_isActive
    exact ⟨(Agrees.of_failed history).of_trail_eq same, same ▸ history.not_isActive⟩
  steps := by
    rintro n ok r t u v o ⟨history, rfl, ended⟩ found _ _ stepped
    -- every way to leave a node adds one visit, and only the event differs
    have more (r' : Run) (w : Visit) (e : Event) (visited : Visited n r r' w)
        (status : w.status = e.status) : d.History r'.trail (n.target e) := by
      have inside : n ∈ d.nodes := (Definition.node?_eq_some.1 found).1
      rw [visited.trail]
      exact .visit e history found (visited.name (modest n inside)) status
    cases stepped with
    | @advanced r' w _ working finished =>
      refine ⟨more r' w .success working.toVisited finished, working.settings, fun value => ?_⟩
      rw [working.trail]
      exact List.forall_mem_cons.2 ⟨finished, ended value⟩
    | @recovered r' w _ _ working failed =>
      exact ⟨more r' w .fail working.toVisited failed, working.settings, by simp⟩
    | @canceled r' w _ visited failed =>
      have history' := more r' w .fail visited failed
      exact ⟨.of_failed history', history'.not_isActive⟩
    | @aborted r' w _ visited failed =>
      have history' := more r' w .fail visited failed
      exact ⟨.of_failed history', history'.not_isActive⟩
    | panicked _ most => exact most

/-- The path that is shown of a procedure is the one that its runs take, whatever happens around
them: up to its first failure a run goes along that path, and to its end if it succeeds. Only a
node that may be polled more often than can be counted leaves no run behind. -/
theorem agrees_of_start (pace : Pace) (before : List SignalCall) (fresh : r.trail = [])
    (modest : ∀ n ∈ r.definition.nodes, n.Modest) :
    r.definition.Shown r.definition.successPath ∧
      ∀ o u, r.start.Ends pace (.calls before) o u → match o with
        | some (ok, r') => r'.Agrees r.definition ok
        | none => r.settings.maxPolls.toNat + 1 = UInt32.size := by
  refine ⟨r.definition.shown_successPath, ensures_iff.1 ?_⟩
  refine ensures_start (keeps_success r.settings modest) ⟨?_, rfl, ?_⟩
    (fun _ => Trace.orderly_calls before) ?_ fun u most => most
  · rw [withStatus, fresh]
    exact .start
  · simp [withStatus, fresh]
  · rintro ok r' u ⟨agrees, ended⟩
    refine ensures_close (fun now v _ _ _ => ?_) fun reason r'' v _ _ _ canceled _ => ?_
    · exact agrees.of_trail_eq complete_trail
    · exact agrees.of_trail_eq (canceled.trail_eq ended)

theorem pair_agrees : ∃ r' u,
    (pair .strict).start.Ends .prompt (.calls []) (some (true, r')) u ∧
    Definition.pair.Shown [startName, "next"] ∧
    r'.visits.map Visit.name = [startName, "next"] := by
  obtain ⟨r', ended⟩ : ∃ r', (Host.execute (pair .strict) []).1 = .ended (true, r') := ⟨_, rfl⟩
  obtain ⟨u, ends, -⟩ := Host.ends_execute ended
  have modest : ∀ n ∈ Definition.pair.nodes, n.Modest := by
    intro n hn scene
    rcases List.mem_cons.1 hn with rfl | hn
    · rfl
    · obtain rfl := List.mem_singleton.1 hn
      rfl
  have path : Definition.pair.successPath = [startName, "next"] := by decide +kernel
  obtain ⟨shown, agrees⟩ := agrees_of_start .prompt [] (r := pair .strict) rfl modest
  exact ⟨r', u, ends, path ▸ shown, path ▸ (agrees _ u ends).whole rfl⟩

end Run

end Runbook
