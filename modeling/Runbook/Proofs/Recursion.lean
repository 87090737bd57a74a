import Runbook.Proofs.Undisturbed
import Runbook.Proofs.Walk

/-!
# The walk as a recursion

What a run does can be said more simply as a recursion on the graph, without a
list of nodes and without a signal.

* `Definition.rank` — how many nodes stand from a target on; every event leads to a
  smaller rank.
* `Run.descend`, `Run.recursive` — the recursion, and a run that follows it.
* `Run.start_alike_recursive` — left alone, a run and its recursion do the same.
-/

namespace Runbook

open Program

/-! ## The order of the nodes as a measure -/

namespace Definition

variable {d : Definition} {n : NodeSpec} {name : String}

/-- How many nodes stand from the target on. -/
def rank (d : Definition) : Option String → Nat
  | none => 0
  | some name => (d.nodes.dropWhile (·.name ≠ name)).length

/-- Where a node stands, the nodes from it on are those from its name on. -/
theorem dropWhile_names {before after : List NodeSpec} (h : d.nodes = before ++ after)
    (hn : name ∈ after.map NodeSpec.name) :
    d.nodes.dropWhile (·.name ≠ name) = after.dropWhile (·.name ≠ name) := by
  have distinct := d.distinct
  rw [h, List.map_append, List.nodup_append] at distinct
  rw [h, List.dropWhile_append_of_pos]
  intro m hm
  simpa using distinct.2.2 _ (List.mem_map_of_mem hm) _ hn

/-- Every event leads to a smaller rank. -/
theorem rank_target_lt (h : d.node? name = some n) (e : Event) :
    d.rank (n.target e) < d.rank (some name) := by
  obtain ⟨hn, rfl⟩ := node?_eq_some.1 h
  obtain ⟨before, after, split⟩ := List.append_of_mem hn
  have here : d.rank (some n.name) = after.length + 1 := by
    rw [rank, dropWhile_names split (by simp), List.dropWhile_cons_of_neg (by simp),
      List.length_cons]
  rw [here]
  cases ht : n.target e with
  | none => exact Nat.succ_pos _
  | some t =>
    have split' : d.nodes = (before ++ [n]) ++ after := by rw [split]; simp
    rw [rank, dropWhile_names split' (mem_of_target split ht)]
    exact Nat.lt_succ_of_le (List.dropWhile_sublist _).length_le

end Definition

namespace Run

/-! ## The recursion -/

/-- Execute the target and what follows it; the value says whether no node failed.
Behind the last node the run is finished. A failure is kept as the last error, and
whatever its event leads to, the value is that of a failure. -/
def descend (d : Definition) (target : Option String) (r : Run) : Program (Bool × Run) :=
  match target with
  | none => return (true, r.withStatus .finished)
  | some name =>
    match _ : d.node? name with
    | none => return (true, r.withStatus .finished)
    | some n => do
      let (course, r) ← r.step n
      if course = .advance then descend d n.onSuccess r
      else
        match _ : n.onFail with
        | none => return (false, r.keepError)
        | some next => do
          let (_, r) ← descend d (some next) r.keepError
          return (false, r)
termination_by d.rank target
decreasing_by
  · exact Definition.rank_target_lt ‹_› .success
  · have event : n.onFail = some next := ‹_›
    rw [← event]
    exact Definition.rank_target_lt ‹_› .fail

/-- End the run with a value: the final status and the last write. -/
def finish (r : Run) (ok : Bool) : Program (Bool × Run) := do
  let r ← (r.complete ok).saveAnyway
  return (ok, r)

/-- Execute the run by the recursion. -/
def recursive (r : Run) : Program (Bool × Run) := do
  let (ok, r) ← descend r.definition (some startName) (r.withStatus .processing)
  r.finish ok

section

variable {d : Definition} {n : NodeSpec} {r r' : Run} {ok : Bool}

theorem descend_none : descend d none r = done (true, r.withStatus .finished) := by
  rw [descend, pure_eq]

/-- What the recursion does at a node. -/
theorem descend_some (found : d.node? n.name = some n) :
    descend d (some n.name) r = (r.step n).bind fun (course, r) =>
      if course = .advance then descend d n.onSuccess r
      else match n.onFail with
        | none => done (false, r.keepError)
        | some next => (descend d (some next) r.keepError).bind fun (_, r) => done (false, r) := by
  rw [descend]
  split
  · next lost => rw [found] at lost; cases lost
  · next m hm =>
    obtain rfl : n = m := Option.some.inj (found.symm.trans hm)
    refine congrArg (r.step n).bind (funext fun a => ?_)
    dsimp only
    split
    · rfl
    · split
      · next none => simp only [none]; rfl
      · next next some => simp only [some]; rfl

/-! ## Left alone -/

/-- A look at the signal between two nodes is not seen. -/
theorem alike_look {α : Type} (f : Signal → Program α) : (r.look.bind f).Alike (f .quiet) :=
  (alike_between fun _ => r.signal.bind f).trans (alike_signal f)

theorem alike_arrive {α : Type} (f : Bool × Run → Program α)
    (status : r.record.status ≠ .canceled) :
    ((r.arrive ok).bind f).Alike (f (ok, r.withStatus .finished)) := by
  rw [arrive, bind_eq, bind_assoc]
  refine (alike_look _).trans ?_
  rw [if_neg (by simp [Signal.quiet]), if_neg status]
  exact .refl _

theorem alike_close : (r.close ok).Alike (r.finish ok) := alike_signal _

/-- Finished or not, a run that fails ends with a failure. -/
theorem finish_withStatus (status : r.record.status ≠ .canceled) :
    (r.withStatus .finished).finish false = r.finish false := by
  rw [finish, complete_of_not_canceled (by simp [withStatus]), finish,
    complete_of_not_canceled status]
  rfl

/-- What a node comes to that is left alone while writes need not work. -/
theorem step_of_shows {course : Course} {v : Trace} (best : r.settings.policy = .bestEffort)
    (h : (r.step n).Shows (some (course, r')) v) :
    (course = .advance ∨ course = .recover) ∧ r'.record.status = r.record.status ∧
      r'.settings = r.settings := by
  have calm : Trace.Calm .prompt [] := fun _ => ⟨by simpa using Trace.orderly_calls [], rfl⟩
  obtain ⟨u, hu, alone, -⟩ := (shows_iff .prompt Trace.undisturbed_nil).1 h
  cases ensures_iff.1 (ensures_step calm) _ u hu with
  | advanced working => exact ⟨.inl rfl, working.status, working.settings⟩
  | recovered working => exact ⟨.inr rfl, working.status, working.settings⟩
  | canceled _ _ _ fired => rw [alone.signal_eq] at fired; cases fired
  | aborted _ _ _ _ strict => rw [best] at strict; cases strict

/-- The walk ends where the recursion finds nothing. -/
theorem walk_none_alike (nodes : List NodeSpec) (status : r.record.status ≠ .canceled) :
    ((walk nodes none ok r).bind fun (ok, r) => r.close ok).Alike
      ((descend d none r).bind fun (ok', r) => r.finish (ok && ok')) := by
  have arrives : walk nodes none ok r = r.arrive ok := by cases nodes <;> rfl
  rw [arrives, descend_none, done_bind]
  dsimp only
  rw [Bool.and_true]
  exact (alike_arrive _ status).trans alike_close

/-- The walk does what the recursion does. The value so far is the one with which
the value of the recursion is combined at last. -/
theorem walk_alike_descend {nodes : List NodeSpec} (target : Option String) (ok : Bool)
    (rest : nodes <:+ d.nodes)
    (inRest : ∀ name, target = some name → name ∈ nodes.map NodeSpec.name)
    (best : r.settings.policy = .bestEffort) (status : r.record.status ≠ .canceled) :
    ((walk nodes target ok r).bind fun (ok, r) => r.close ok).Alike
      ((descend d target r).bind fun (ok', r) => r.finish (ok && ok')) := by
  -- on the nodes that are left in the walk; the target is among them, since events lead forward
  induction nodes generalizing target ok r with
  | nil =>
    cases target with
    | none => exact walk_none_alike [] status
    | some name => exact absurd (inRest name rfl) (by simp)
  | cons n nodes ih =>
    have rest' := (List.suffix_cons n nodes).trans rest
    have inside : n ∈ d.nodes := rest.subset (List.mem_cons_self ..)
    obtain ⟨before, whole⟩ := rest
    have behind (e : Event) (name : String) (he : n.target e = some name) :
        name ∈ nodes.map NodeSpec.name := Definition.mem_of_target whole.symm he
    cases target with
    | none => exact walk_none_alike _ status
    | some name =>
      rw [walk]
      split
      · next here =>
        subst here
        rw [descend_some (Definition.node?_eq_some.2 ⟨inside, rfl⟩), bind_eq, Program.bind_assoc,
          Program.bind_assoc]
        refine (alike_look _).trans ?_
        rw [if_neg (by simp [Signal.quiet]), bind_eq, Program.bind_assoc]
        refine .bind fun x v shown => ?_
        obtain ⟨course, r'⟩ := x
        obtain ⟨(rfl | rfl), status', settings⟩ := step_of_shows best shown
        · exact ih n.onSuccess ok rest' (behind .success) (settings ▸ best) (status' ▸ status)
        · have failing := ih (r := r'.keepError) n.onFail false rest' (behind .fail)
            (by rw [← best, ← settings]; rfl) (by rw [← status'] at status; exact status)
          refine failing.trans ?_
          dsimp only
          rw [if_neg (by decide)]
          cases n.onFail with
          | none =>
            rw [descend_none, done_bind, done_bind]
            dsimp only
            rw [Bool.false_and, Bool.and_false, finish_withStatus]
            · exact .refl _
            · rw [← status'] at status
              exact status
          | some next =>
            dsimp only
            rw [Program.bind_assoc]
            refine .bind fun x v _ => ?_
            rw [done_bind, Bool.false_and, Bool.and_false]
            exact .refl _
      · next elsewhere =>
        -- this node is passed over
        refine ih _ ok rest' (fun name' hname => ?_) best status
        obtain rfl := Option.some.inj hname
        exact List.mem_of_ne_of_mem (Ne.symm elsewhere) (inRest _ rfl)

/-- Left alone, and with writes that need not work, a run does what its recursion
does. -/
theorem start_alike_recursive (best : r.settings.policy = .bestEffort) :
    r.start.Alike r.recursive := by
  have walks := walk_alike_descend (d := r.definition) (r := r.withStatus .processing)
    (some startName) true (List.suffix_refl _)
    (fun name hname => Option.some.inj hname ▸ r.definition.hasStart) best (by simp [withStatus])
  simp only [Bool.true_and] at walks
  exact walks

/-- Left alone, and with writes that need not work, a run can end as its recursion
can, and nowhere else: with the same value or a panic, the same visits, the same
last error and the same status. In the same surroundings both end alike. -/
theorem endsAlone_iff_recursive (pace : Pace) (best : r.settings.policy = .bestEffort)
    (o : Option (Bool × Run)) (v : Trace) :
    (r.start.EndsAlone pace o v ↔ r.recursive.EndsAlone pace o v) ∧
      ∀ o', r.start.EndsAlone pace o v → r.recursive.EndsAlone pace o' v → o = o' := by
  simp only [← shows_iff_endsAlone pace]
  refine ⟨start_alike_recursive best o v, fun o' h h' => ?_⟩
  exact ((start_alike_recursive best o v).1 h).unique h'

end

/-- A run that takes a bypass, and its recursion, end alike: the first node has failed, and so has
the run. -/
theorem bypass_endsAlone : ∃ r' v, bypass.start.EndsAlone .prompt (some (false, r')) v ∧
    bypass.recursive.EndsAlone .prompt (some (false, r')) v ∧
    r'.visits.map (fun v => (v.name, v.status)) = [(startName, .error), ("lane", .finished)] := by
  obtain ⟨r', ended, visits⟩ := exists_easily_bypass
  have alone : bypass.start.EndsAlone .prompt (some (false, r')) _ :=
    ⟨_, ends_easily .prompt ended, Trace.undisturbed_iff.2 (by decide +kernel), rfl⟩
  exact ⟨r', _, alone, (endsAlone_iff_recursive .prompt rfl _ _).1.1 alone, visits⟩

end Run

end Runbook
