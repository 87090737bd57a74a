import Runbook.Proofs.Walk

/-!
# Histories

The visits of a run go along a path of events through its procedure.

* `Definition.History` — such paths, with the target to which they lead.
* `Definition.History.sublist_names`, and what follows: no node comes twice, and
  there are no more visits than nodes.
* `Run.follows_of_start` — every run has such a history, and it ends only for
  one of three reasons.
-/

namespace Runbook

open Program

/-- The status of a visit that ended with the event. -/
def Event.status : Event → Status
  | .success => .finished
  | .fail => .error

/-- Visits, the latest first, that begin at the start and follow the event with
which each visit ended; and the target after the last one, if there is one. -/
inductive Definition.History (d : Definition) : List Visit → Option String → Prop where
  /-- nothing has been visited -/
  | start : History d [] (some startName)
  /-- one more visit -/
  | visit {trail : List Visit} {n : NodeSpec} {v : Visit} (e : Event)
      (earlier : History d trail (some n.name)) (found : d.node? n.name = some n)
      (name : v.name = n.name) (status : v.status = e.status) :
      History d (v :: trail) (n.target e)

namespace Definition.History

variable {d : Definition} {trail : List Visit} {target : Option String}

/-- Every visit of a history has ended. -/
theorem not_isActive (h : d.History trail target) : ∀ v ∈ trail, v.isActive = false := by
  induction h with
  | start => simp
  | visit e _ _ _ status ih =>
    intro v hv
    rcases List.mem_cons.1 hv with rfl | hv
    · cases e <;> simp [Visit.isActive, status, Event.status, Status.isTerminal]
    · exact ih v hv

/-- A history that leads somewhere leads to a node. -/
theorem exists_node? (h : d.History trail target) {name : String} (ht : target = some name) :
    ∃ n, d.node? name = some n := by
  cases h with
  | start =>
    obtain rfl := Option.some.inj ht
    exact d.exists_node?_start
  | visit e _ found _ _ => exact exists_node?_of_target found ht

/-- The names of the visits, and the target then, come in the order in which the
definition keeps its nodes. -/
theorem sublist_names (h : d.History trail target) :
    (trail.reverse.map Visit.name ++ target.toList).Sublist (d.nodes.map NodeSpec.name) := by
  induction h with
  | start => simpa using d.hasStart
  | @visit trail n v e _ found name _ ih =>
    rw [List.reverse_cons, List.map_append, List.map_singleton, name]
    cases ht : n.target e with
    | none => simpa using ih
    | some t => exact sublist_names_of_target found ht ih

/-- No node is visited twice. -/
theorem nodup_names (h : d.History trail target) : (trail.reverse.map Visit.name).Nodup :=
  ((List.sublist_append_left _ _).trans h.sublist_names).nodup d.distinct

/-- There are no more visits than nodes. -/
theorem length_le (h : d.History trail target) : trail.length ≤ d.nodes.length := by
  have := ((List.sublist_append_left _ _).trans h.sublist_names).length_le
  simpa using this

/-- The first name is that of the start. -/
theorem head?_names (h : d.History trail target) :
    (trail.reverse.map Visit.name ++ target.toList).head? = some startName := by
  induction h with
  | start => rfl
  | @visit trail n v e _ _ name _ ih =>
    rw [List.reverse_cons, List.map_append, List.map_singleton, name, List.head?_append]
    rw [Option.toList_some] at ih
    rw [ih, Option.some_or]

end Definition.History

namespace Run

variable {pace : Pace} {t u v : Trace} {r r' : Run} {d : Definition} {ok : Bool}

/-- Why a walk may stop at a target: there is none, the signal has fired, or the
history has to be written and could not be. -/
def MayStop (policy : WritePolicy) (target : Option String) (t : Trace) : Prop :=
  target = none ∨ t.signal.fired = true ∨ policy = .strict ∧ ∃ e ∈ t, e.isFailedWrite

theorem MayStop.idles {policy : WritePolicy} {target : Option String}
    (h : MayStop policy target t) (hu : t.Idles pace u) : MayStop policy target u := by
  obtain none | fired | ⟨strict, e, he, failed⟩ := h
  · exact .inl none
  · exact .inr (.inl (hu.fired fired))
  · exact .inr (.inr ⟨strict, e, hu.suffix.subset he, failed⟩)

/-- Canceling a run whose visits have ended changes none of them. -/
theorem Canceled.trail_eq {reason : String} (h : r.Canceled reason r')
    (ended : ∀ v ∈ r.trail, v.isActive = false) : r'.trail = r.trail := by
  obtain ⟨now, trail⟩ := h.trail
  rw [trail, edit_eq_self]
  intro v hv
  exact if_neg (by simp [ended v (List.mem_of_mem_head? hv)])

theorem keeps_history (settings : Settings) (modest : ∀ n ∈ d.nodes, n.Modest) :
    Keeps pace d (fun target _ r _ => d.History r.trail target ∧ r.settings = settings)
      (fun o u => match o with
        | some (_, r) => ∃ target, d.History r.trail target ∧ MayStop settings.policy target u
        | none => settings.maxPolls.toNat + 1 = UInt32.size) where
  arrives := by
    rintro ok r t u ⟨history, -⟩ _ _
    exact ⟨none, history, .inl rfl⟩
  cancels := by
    rintro target ok r r' t u v ⟨history, -⟩ _ fired canceled idles _
    refine ⟨target, ?_, .inr (.inl (idles.fired fired))⟩
    rw [canceled.trail_eq history.not_isActive]
    exact history
  steps := by
    rintro n ok r t u v o ⟨history, rfl⟩ found _ _ stepped
    -- a node that has ended is one more of the history, under the event that its status tells
    have more (r' : Run) (w : Visit) (e : Event) (visited : Visited n r r' w)
        (status : w.status = e.status) : d.History r'.trail (n.target e) := by
      have inside : n ∈ d.nodes := (Definition.node?_eq_some.1 found).1
      rw [visited.trail]
      exact .visit e history found (visited.name (modest n inside)) status
    -- the run goes on by this event, or stops for one of the reasons
    cases stepped with
    | @advanced r' w _ working finished =>
      exact ⟨more r' w .success working.toVisited finished, working.settings⟩
    | @recovered r' w _ _ working failed =>
      exact ⟨more r' w .fail working.toVisited failed, working.settings⟩
    | @canceled r' w _ visited failed _ fired =>
      exact ⟨_, more r' w .fail visited failed, .inr (.inl fired)⟩
    | @aborted r' w _ visited failed _ _ strict failedWrite =>
      exact ⟨_, more r' w .fail visited failed, .inr (.inr ⟨strict, failedWrite⟩)⟩
    | panicked _ most => exact most

/-- The visits of a run when it has ended. -/
structure Follows (d : Definition) (policy : WritePolicy) (r : Run) (t : Trace) : Prop where
  /-- they go along events, up to a place where the walk may stop -/
  path : ∃ target, d.History r.trail target ∧ MayStop policy target t
  /-- where they lead there is a node -/
  found : ∀ name, d.History r.trail (some name) → ∃ n, d.node? name = some n
  /-- the first one is of the start -/
  first : ∀ v ∈ r.visits.head?, v.name = startName
  /-- no node is visited twice -/
  distinct : (r.visits.map Visit.name).Nodup
  /-- there are no more of them than nodes -/
  bounded : r.visits.length ≤ d.nodes.length

theorem follows_of_history {policy : WritePolicy} {target : Option String}
    (h : d.History r.trail target) (stop : MayStop policy target t) : r.Follows d policy t where
  path := ⟨target, h, stop⟩
  found _ h := h.exists_node? rfl
  first := by
    intro v hv
    have := h.head?_names
    rw [List.head?_append, List.head?_map] at this
    rw [visits] at hv
    simpa [Option.mem_def.1 hv] using this
  distinct := h.nodup_names
  bounded := by
    rw [visits, List.length_reverse]
    exact h.length_le

/-- Whatever happens around a run, and whether or not the store is prompt, every
behaviour comes to its end, and the visits are then a path of the procedure. Only
a node that may be polled more often than can be counted leaves no run behind. -/
theorem follows_of_start (pace : Pace) (before : List SignalCall) (fresh : r.trail = [])
    (modest : ∀ n ∈ r.definition.nodes, n.Modest) :
    (∀ q t, r.start.Leads pace (.calls before) q t → ∃ o u, q.Ends pace t o u) ∧
      ∀ o u, r.start.Ends pace (.calls before) o u → match o with
        | some (_, r') => r'.Follows r.definition r.settings.policy u
        | none => r.settings.maxPolls.toNat + 1 = UInt32.size := by
  refine ⟨fun q t _ => exists_ends pace q t, ensures_iff.1 ?_⟩
  refine ensures_start (keeps_history r.settings modest) ⟨?_, rfl⟩
    (fun _ => Trace.orderly_calls before) ?_ fun u most => most
  · rw [withStatus, fresh]
    exact .start
  · rintro ok r' u ⟨target, history, stop⟩
    refine ensures_close (fun now v idles _ _ => ?_) fun reason r'' v idles _ _ canceled _ => ?_
    · refine follows_of_history ?_ (stop.idles idles)
      rw [stamped_trail, complete_trail]
      exact history
    · refine follows_of_history ?_ (stop.idles idles)
      rw [canceled.trail_eq history.not_isActive]
      exact history

/-- The visits of a run that takes a bypass go along the event of a failure. -/
theorem bypass_follows : ∃ ok r' u, bypass.start.Ends .slow (.calls []) (some (ok, r')) u ∧
    r'.visits.map (fun v => (v.name, v.status)) = [(startName, .error), ("lane", .finished)] ∧
    r'.Follows .bypass .bestEffort u := by
  obtain ⟨r', ended, visits⟩ := exists_easily_bypass
  have ends := ends_easily .slow ended
  have follows := (follows_of_start .slow [] rfl Definition.bypass_modest).2 _ _ ends
  exact ⟨false, r', _, ends, visits, follows⟩

end Run

end Runbook
