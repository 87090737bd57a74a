import Runbook.Proofs.Live

/-!
# Operations in flight

What a runner says of the operations in flight, and what a shutdown does to them, whatever happens
at the runner otherwise.

* `Roster` — a runner, and which of its tasks were struck off by a shutdown.
* `Roster.Moves`, `Roster.Comes` — what can happen next, and where some of it leads. Operations
  have names of their own, and tasks have their turns in any order.
* `Runner.Accounted` — the invariant. After a shutdown it begins anew: of the tasks before it, each
  one has ended or is struck off.
* `Runner.Mirrors` — what follows a shutdown could as well happen at a new runner.
* `Roster.accounts_of_comes` — the listed operations are those of the tasks that have neither ended
  nor been struck off, and a task that is struck off has no value.
-/

namespace Runbook

variable {σ α : Type}

/-- A catalog shows its entries, each one once: the names are sorted, so no other entry before it
has the same name and hides it. -/
theorem Catalog.mem_entries (c : Catalog α) {name : String} {a : α} :
    (name, a) ∈ c.entries ↔ c.get? name = some a := by
  rw [get?, List.lookup_eq_some_iff]
  constructor
  · intro listed
    obtain ⟨before, after, entries⟩ := List.append_of_mem listed
    refine ⟨before, after, entries, ?_⟩
    intro p inside
    have sorted := c.sorted
    rw [entries] at sorted
    have less : p.1 < name := (List.pairwise_append.1 sorted).2.2 p inside _ List.mem_cons_self
    simpa using (String.ne_of_lt less).symm
  · rintro ⟨before, after, entries, -⟩
    rw [entries]
    exact List.mem_append_right _ List.mem_cons_self

namespace Runner

variable {r : Runner α} {h : Host σ} {n m : Nat} {t : Task α} {e : Ending α}

/-! ## How tasks end -/

/-- How a task ends is read off its stage. -/
theorem ending_of_task (here : r.tasks[n]? = some t) : r.ending n = t.ending := by
  rw [ending, here, Option.bind_some]

/-- A task has ended if it has done so in some way. -/
theorem hasEnded_eq_isSome (r : Runner α) (n : Nat) : r.hasEnded n = (r.ending n).isSome := by
  rw [hasEnded, ending]
  cases r.tasks[n]? with
  | none => rfl
  | some t =>
    obtain ⟨operation, stage, aborting⟩ := t
    cases stage <;> rfl

/-- A task goes on as long as it has not ended in any way. A number that is nobody's does not end,
either. -/
theorem hasEnded_eq_false_iff : r.hasEnded n = false ↔ r.ending n = none := by
  rw [hasEnded_eq_isSome, Option.isSome_eq_false_iff, Option.isNone_iff_eq_none]

/-- The tasks that have not ended. -/
def unended (r : Runner α) : List Nat :=
  (List.range r.tasks.length).filter fun n => !r.hasEnded n

/-- They are told by their endings, and so a task that panics is none of them. -/
theorem mem_unended (here : r.tasks[n]? = some t) : n ∈ r.unended ↔ t.ending = none := by
  have inside : n < r.tasks.length := (List.getElem?_eq_some_iff.1 here).1
  rw [unended, List.mem_filter, List.mem_range, Bool.not_eq_true', hasEnded_eq_false_iff,
    ending_of_task here]
  exact and_iff_right inside

/-! ## What a turn comes to -/

/-- A task that comes to another stage keeps its operation, and its mark if it has one, -/
theorem task_move (here : r.tasks[n]? = some t) (s : Stage α) :
    (r.move n s).tasks[n]? = some { t with stage := s } := by
  rw [move, List.getElem?_modify_eq, here]
  rfl

/-- and the other tasks do not notice. -/
theorem task_move_of_ne (r : Runner α) (other : m ≠ n) (s : Stage α) :
    (r.move n s).tasks[m]? = r.tasks[m]? :=
  List.getElem?_modify_ne _ _ other.symm

/-- The runner and its host after a task has had its turn. -/
inductive Turned [Store σ] (r : Runner α) (h : Host σ) (n : Nat) : Runner α × Host σ → Prop where
  /-- nothing happens if the task is not there, has ended or cannot go on -/
  | idle (vain : ∀ t, r.tasks[n]? = some t → t.ending = none →
      t.aborting = false ∧ t.stage.next? h = none) : Turned r h n (r, h)
  /-- a task that is to be given up is so -/
  | givenUp {t : Task α} (here : r.tasks[n]? = some t) (on : t.ending = none)
      (aborting : t.aborting = true) : Turned r h n (r.move n (.ended .aborted), h)
  /-- another one is carried on -/
  | carriedOn {t : Task α} {p : Program α} (here : r.tasks[n]? = some t) (on : t.ending = none)
      (live : t.aborting = false) (next : t.stage.next? h = some p) :
      Turned r h n (r.carryOn h n t.operation p)

/-- These three are all that a turn can come to. The mark decides between them, not the stage: a
task with a mark is given up before it could go on, even when what it waits for has come. -/
theorem turned_poll [Store σ] (r : Runner α) (h : Host σ) (n : Nat) :
    r.Turned h n (r.poll h n) := by
  cases here : r.tasks[n]? with
  | none =>
    have idle : r.poll h n = (r, h) := by rw [poll, here]
    rw [idle]
    refine .idle ?_
    intro t there
    cases here.symm.trans there
  | some t =>
    -- the mark is looked at before anything else
    cases aborting : t.aborting with
    | false =>
      have live (t' : Task α) (there : r.tasks[n]? = some t') : t'.aborting = false := by
        obtain rfl := Option.some.inj (here.symm.trans there)
        exact aborting
      rcases r.poll_cases h n live with ⟨vain, idle⟩ | ⟨t', p, there, next, carried⟩
      · rw [idle]
        refine .idle ?_
        intro t' there _
        exact ⟨live t' there, vain t' there⟩
      · rw [carried]
        refine .carriedOn there ?_ (live t' there) next
        cases stage : t'.stage with
        | ended e =>
          rw [stage] at next
          cases next
        | fresh q => simp [Task.ending, stage]
        | waiting q on => simp [Task.ending, stage]
    | true =>
      obtain ⟨operation, stage, flag⟩ := t
      obtain rfl : flag = true := aborting
      cases stage with
      | ended e =>
        have idle : r.poll h n = (r, h) := by rw [poll, here]
        rw [idle]
        refine .idle ?_
        intro t' there on
        obtain rfl := Option.some.inj (here.symm.trans there)
        cases on
      | fresh p =>
        have given : r.poll h n = (r.move n (.ended .aborted), h) := by
          rw [poll, here]
          rfl
        rw [given]
        exact .givenUp here rfl rfl
      | waiting p next =>
        have given : r.poll h n = (r.move n (.ended .aborted), h) := by
          rw [poll, here]
          rfl
        rw [given]
        exact .givenUp here rfl rfl

/-- How a task has ended stays so. Of the three outcomes of a turn the first one changes nothing,
and the others need a task that has not ended, which is another one than this. -/
theorem ending_poll [Store σ] (r : Runner α) (h : Host σ) (m : Nat) (ended : r.ending n = some e) :
    (r.poll h m).1.ending n = some e := by
  have other (ne : n ≠ m) : (r.poll h m).1.ending n = some e := by
    rw [ending, r.task_poll_of_ne h ne]
    exact ended
  have own {t : Task α} (here : r.tasks[m]? = some t) (on : t.ending = none) : n ≠ m := by
    rintro rfl
    rw [ending_of_task here, on] at ended
    cases ended
  have turned := r.turned_poll h m
  revert other
  generalize r.poll h m = polled at turned
  intro other
  cases turned with
  | idle vain => exact ended
  | givenUp here on aborting => exact other (own here on)
  | carriedOn here on live next => exact other (own here on)

/-! ## What a shutdown marks -/

/-- The tasks that are to be given up are marked, and no others. -/
theorem getElem?_mark (ns : List Nat) (tasks : List (Task α)) (m : Nat) :
    (ns.foldl (fun tasks n => tasks.modify n fun t => { t with aborting := true }) tasks)[m]? =
      tasks[m]?.map fun t => { t with aborting := t.aborting || decide (m ∈ ns) } := by
  induction ns generalizing tasks with
  | nil => simp
  | cons n ns ih =>
    rw [List.foldl_cons, ih]
    by_cases same : m = n
    · subst same
      simp [Function.comp_def]
    · rw [List.getElem?_modify_ne _ _ (Ne.symm same)]
      simp [same]

/-- A shutdown marks the tasks that are listed. It does not stop any of them there and then, so
their stages are what they were. -/
theorem task_shutdown (r : Runner α) (n : Nat) : r.shutdown.tasks[n]? = r.tasks[n]?.map fun t =>
    { t with aborting := t.aborting || decide (n ∈ r.active.entries.map Prod.snd) } :=
  getElem?_mark ..

/-- Nobody leaves at a shutdown: the tasks that are given up keep their places, and their numbers
with them. -/
theorem length_shutdown (r : Runner α) : r.shutdown.tasks.length = r.tasks.length := by
  have marked (ns : List Nat) (tasks : List (Task α)) : (ns.foldl (fun tasks n =>
      tasks.modify n fun t => { t with aborting := true }) tasks).length = tasks.length := by
    induction ns generalizing tasks with
    | nil => rfl
    | cons n ns ih => rw [List.foldl_cons, ih, List.length_modify]
  exact marked ..

/-- How tasks have ended does not matter to it, nor does it matter to them: it sets marks only, and
a task that has ended reads its mark no more. -/
theorem ending_shutdown (r : Runner α) (n : Nat) : r.shutdown.ending n = r.ending n := by
  rw [ending, ending, task_shutdown]
  cases r.tasks[n]? <;> rfl

/-- Every task that is marked and has not ended gets a turn, so that it can learn of its mark. A
task that waits for ever would have none otherwise, and who joins it would wait for ever, too. -/
theorem mem_queue_shutdown : n ∈ r.shutdown.queue ↔
    n ∈ r.queue ∨ n ∈ r.active.entries.map Prod.snd ∧ r.hasEnded n = false := by
  have queue : r.shutdown.queue = (r.enqueue ((r.active.entries.map Prod.snd).filter fun n =>
    !r.hasEnded n)).queue := rfl
  rw [queue, mem_queue_enqueue, List.mem_filter, Bool.not_eq_true']

/-! ## The account that a runner keeps -/

/-- Of the first `given` tasks each one has ended or is struck off, and those are to be given up.
The operations of the later ones are listed until they have a value.

What is to be shown of a runner is `listed` and `spared`. The other parts are there because these
two are not kept by themselves: tasks are listed by `names`, the mark of a task decides what its
turn comes to (`off`, `early`, `late`), and who is given up has to have a turn for it (`off`). -/
structure Accounted (r : Runner α) (struck : List Nat) (given : Nat) : Prop where
  /-- so many tasks are there -/
  within : given ≤ r.tasks.length
  /-- the operations have names of their own -/
  names : (r.tasks.map Task.operation).Nodup
  /-- the listed operations -/
  listed (name : String) (n : Nat) : r.active.get? name = some n ↔ given ≤ n ∧
    ∃ t, r.tasks[n]? = some t ∧ t.operation = name ∧ ∀ a, t.ending ≠ some (.value a)
  /-- a task that is struck off has been given up, or is to be when it has its turn -/
  off {n : Nat} (off : n ∈ struck) : n < given ∧ ∃ t, r.tasks[n]? = some t ∧
    t.aborting = true ∧ (t.ending = some .aborted ∨ t.ending = none ∧ n ∈ r.queue)
  /-- the other ones before have ended -/
  early {n : Nat} {t : Task α} (early : n < given) (here : r.tasks[n]? = some t)
    (on : t.ending = none) : n ∈ struck
  /-- the later ones are not to be given up -/
  late {n : Nat} {t : Task α} (late : given ≤ n) (here : r.tasks[n]? = some t)
    (on : t.ending = none) : t.aborting = false
  /-- nobody else has been given up -/
  spared {n : Nat} (aborted : r.ending n = some .aborted) : n ∈ struck

namespace Accounted

variable {struck : List Nat} {given : Nat} {r' : Runner α}

/-- At the beginning there are no tasks, and nothing is listed. -/
theorem empty : (Runner.empty : Runner α).Accounted [] 0 where
  within := Nat.le_refl 0
  names := .nil
  listed name n := by
    constructor
    · intro never
      cases never
    · rintro ⟨-, t, never, -⟩
      cases never
  off never := by cases never
  early never := absurd never (Nat.not_lt_zero _)
  late _ never := by cases never
  spared never := by cases never

/-- So it stays if more tasks come into the queue. The account has to do with the queue in one place
only: a task that is struck off and has not been given up is to find itself there. -/
theorem of_queue (accounted : r.Accounted struck given) (tasks : r'.tasks = r.tasks)
    (active : r'.active = r.active) (queue : ∀ n ∈ r.queue, n ∈ r'.queue) :
    r'.Accounted struck given where
  within := tasks ▸ accounted.within
  names := tasks ▸ accounted.names
  listed name n := by
    rw [tasks, active]
    exact accounted.listed name n
  off {n} off := by
    obtain ⟨early, t, here, aborting, stands⟩ := accounted.off off
    refine ⟨early, t, tasks ▸ here, aborting, ?_⟩
    exact stands.imp_right fun waits => ⟨waits.1, queue n waits.2⟩
  early early here := accounted.early early (tasks ▸ here)
  late late here := accounted.late late (tasks ▸ here)
  spared aborted := by
    rw [ending, tasks] at aborted
    exact accounted.spared aborted

/-- In particular it does not matter to it who is woken, and why. -/
theorem enqueue (accounted : r.Accounted struck given) (ns : List Nat) :
    (r.enqueue ns).Accounted struck given := by
  apply accounted.of_queue
  case tasks => rfl
  case active => rfl
  case queue =>
    intro n queued
    exact r.mem_queue_enqueue.2 (.inl queued)

/-- A new task begins. Its name is new, and so its entry does not take the place of another one; it
comes last, and so it is one of the later tasks, which are listed until they have a value. -/
theorem spawn (accounted : r.Accounted struck given) {operation : String} (p : Program α)
    (new : operation ∉ r.tasks.map Task.operation) :
    (r.spawn operation p).2.Accounted struck given where
  within := by
    have length : (r.spawn operation p).2.tasks.length = r.tasks.length + 1 := List.length_append
    rw [length]
    exact Nat.le_succ_of_le accounted.within
  names := by
    have tasks : (r.spawn operation p).2.tasks.map Task.operation =
      r.tasks.map Task.operation ++ [operation] := List.map_append
    rw [tasks]
    exact accounted.names.append (List.nodup_singleton _) (by simpa using new)
  -- the new name stands for the new task, and the others stand for whom they did
  listed name n := by
    have active : (r.spawn operation p).2.active = r.active.insert operation r.tasks.length := rfl
    have tasks : (r.spawn operation p).2.tasks = r.tasks ++ [⟨operation, .fresh p, false⟩] := rfl
    rw [active, tasks, Catalog.get?_insert]
    constructor
    · split
      · next same =>
        rintro ⟨⟩
        refine ⟨accounted.within, _, getElem?_concat_eq_some.2 (.inr ⟨rfl, rfl⟩), same.symm, ?_⟩
        intro a never
        cases never
      · intro found
        obtain ⟨late, t, here, operation, on⟩ := (accounted.listed name n).1 found
        exact ⟨late, t, getElem?_concat_eq_some.2 (.inl here), operation, on⟩
    · rintro ⟨late, t, here, rfl, on⟩
      rcases getElem?_concat_eq_some.1 here with here | ⟨rfl, rfl⟩
      · have other : t.operation ≠ operation := by
          intro same
          exact new (same ▸ List.mem_map_of_mem (List.mem_of_getElem? here))
        rw [if_neg other]
        exact (accounted.listed t.operation n).2 ⟨late, t, here, rfl, on⟩
      · rw [if_pos rfl]
  off off := by
    obtain ⟨early, t, here, aborting, stands⟩ := accounted.off off
    refine ⟨early, t, getElem?_concat_eq_some.2 (.inl here), aborting, ?_⟩
    exact stands.imp_right fun waits => ⟨waits.1, List.mem_append_left _ waits.2⟩
  early early here on := by
    rcases getElem?_concat_eq_some.1 here with here | ⟨rfl, -⟩
    · exact accounted.early early here on
    · exact absurd accounted.within (Nat.not_le_of_lt early)
  late late here on := by
    rcases getElem?_concat_eq_some.1 here with here | ⟨-, rfl⟩
    · exact accounted.late late here on
    · rfl
  spared aborted := by
    obtain ⟨t, here, gave⟩ := Option.bind_eq_some_iff.1 aborted
    rcases getElem?_concat_eq_some.1 here with here | ⟨-, rfl⟩
    · exact accounted.spared ((ending_of_task here).trans gave)
    · cases gave

/-- The tasks that are listed are the later ones without a value. As every operation has a name of
its own, no entry stands for two of them. -/
theorem mem_active (accounted : r.Accounted struck given) :
    n ∈ r.active.entries.map Prod.snd ↔
      given ≤ n ∧ ∃ t, r.tasks[n]? = some t ∧ ∀ a, t.ending ≠ some (.value a) := by
  rw [List.mem_map]
  constructor
  · rintro ⟨⟨name, n⟩, found, rfl⟩
    obtain ⟨late, t, here, -, on⟩ :=
      (accounted.listed name n).1 ((Catalog.mem_entries _).1 found)
    exact ⟨late, t, here, on⟩
  · rintro ⟨late, t, here, on⟩
    have found := (accounted.listed t.operation n).2 ⟨late, t, here, rfl, on⟩
    exact ⟨_, (Catalog.mem_entries _).2 found, rfl⟩

/-- At a shutdown every task that has not ended is struck off. Of these the earlier ones were so
before. A later one is listed, as it has no value, and so it gets its mark and a place in the queue.
From here on no task is a later one, and the list is empty. -/
theorem shutdown (accounted : r.Accounted struck given) :
    r.shutdown.Accounted (r.unended ++ struck) r.tasks.length := by
  have task {n : Nat} {t : Task α} (here : r.shutdown.tasks[n]? = some t) :
      ∃ t', r.tasks[n]? = some t' ∧ t.ending = t'.ending := by
    rw [task_shutdown] at here
    obtain ⟨t', there, rfl⟩ := Option.map_eq_some_iff.1 here
    exact ⟨t', there, rfl⟩
  constructor
  case within => exact Nat.le_of_eq r.length_shutdown.symm
  case names =>
    have names : r.shutdown.tasks.map Task.operation = r.tasks.map Task.operation := by
      apply List.ext_getElem?
      intro n
      rw [List.getElem?_map, List.getElem?_map, task_shutdown, Option.map_map]
      rfl
    rw [names]
    exact accounted.names
  case listed =>
    intro name n
    constructor
    · intro never
      cases never
    · rintro ⟨late, t, here, -⟩
      have inside := (List.getElem?_eq_some_iff.1 here).1
      rw [length_shutdown] at inside
      exact absurd late (Nat.not_le_of_lt inside)
  case off =>
    intro n off
    by_cases before : n ∈ struck
    · obtain ⟨early, t, here, aborting, stands⟩ := accounted.off before
      refine ⟨Nat.lt_of_lt_of_le early accounted.within, t, ?_, aborting, ?_⟩
      · rw [task_shutdown, here, Option.map_some, aborting, Bool.true_or, ← aborting]
      · exact stands.imp_right fun waits => ⟨waits.1, mem_queue_shutdown.2 (.inl waits.2)⟩
    · have unended := (List.mem_append.1 off).resolve_right before
      have inside : n < r.tasks.length := List.mem_range.1 (List.mem_of_mem_filter unended)
      have here := List.getElem?_eq_getElem inside
      have on := (mem_unended here).1 unended
      -- it has no value yet and was not struck before, so its name is still listed
      have late : given ≤ n := by
        by_contra early
        exact before (accounted.early (Nat.lt_of_not_le early) here on)
      have listed : n ∈ r.active.entries.map Prod.snd :=
        accounted.mem_active.2 ⟨late, _, here, by simp [on]⟩
      refine ⟨inside, { r.tasks[n] with aborting := true }, ?_, rfl, .inr ⟨on, ?_⟩⟩
      · rw [task_shutdown, here, Option.map_some]
        simp [listed]
      · rw [mem_queue_shutdown, hasEnded_eq_false_iff, ending_of_task here]
        exact .inr ⟨listed, on⟩
  case early =>
    intro n t early here on
    obtain ⟨t', there, same⟩ := task here
    exact List.mem_append_left _ ((mem_unended there).2 (same ▸ on))
  case late =>
    intro n t late here
    have inside := (List.getElem?_eq_some_iff.1 here).1
    rw [length_shutdown] at inside
    exact absurd late (Nat.not_le_of_lt inside)
  case spared =>
    intro n aborted
    rw [ending_shutdown] at aborted
    exact List.mem_append_right _ (accounted.spared aborted)

/-! ### Turns -/

/-- A task without a mark that has not ended is one of the later ones: the earlier ones that have
not ended are struck off, and who is struck off has a mark. -/
theorem late_of_live (accounted : r.Accounted struck given) (here : r.tasks[n]? = some t)
    (on : t.ending = none) (live : t.aborting = false) : given ≤ n := by
  by_contra early
  obtain ⟨-, t', there, aborting, -⟩ :=
    accounted.off (accounted.early (Nat.lt_of_not_le early) here on)
  obtain rfl := Option.some.inj (here.symm.trans there)
  cases live.symm.trans aborting

/-- No two tasks have the same operation, so that an operation tells which task is meant. -/
theorem eq_of_operation_eq {t' : Task α} (accounted : r.Accounted struck given)
    (here : r.tasks[n]? = some t) (there : r.tasks[m]? = some t')
    (same : t.operation = t'.operation) : n = m := by
  have inside : n < (r.tasks.map Task.operation).length := by
    rw [List.length_map]
    exact (List.getElem?_eq_some_iff.1 here).1
  apply (List.getElem?_inj inside accounted.names).1
  rw [List.getElem?_map, List.getElem?_map, here, there]
  exact congrArg some same

/-- A task is listed by the name of its operation, and by no other name. This is why a task may
strike its own name from the list when it has a value: nobody else is listed by it. -/
theorem operation_eq_iff {name : String} (accounted : r.Accounted struck given)
    (here : r.tasks[n]? = some t) (found : r.active.get? name = some m) :
    name = t.operation ↔ m = n := by
  obtain ⟨-, t', there, rfl, -⟩ := (accounted.listed name m).1 found
  constructor
  · exact accounted.eq_of_operation_eq there here
  · rintro rfl
    obtain rfl := Option.some.inj (here.symm.trans there)
    rfl

/-- So it stays if a task comes to another stage. It leaves the list if it has a value then and only
then, and it is given up if it was struck off and only then. Nobody else is touched by this, neither
the name nor the stage nor the place in the queue. -/
theorem restage {s : Stage α} (accounted : r.Accounted struck given)
    (here : r.tasks[n]? = some t) (on : t.ending = none)
    (own : r'.tasks[n]? = some { t with stage := s })
    (others : ∀ m, m ≠ n → r'.tasks[m]? = r.tasks[m]?)
    (active : ∀ name m, r'.active.get? name = some m ↔
      r.active.get? name = some m ∧ ¬(m = n ∧ ∃ a, s = .ended (.value a)))
    (queue : ∀ m ∈ r.queue, m ≠ n → m ∈ r'.queue)
    (aborted : s = .ended .aborted ↔ n < given) : r'.Accounted struck given := by
  have operations : r'.tasks.map Task.operation = r.tasks.map Task.operation := by
    apply List.ext_getElem?
    intro m
    rw [List.getElem?_map, List.getElem?_map]
    by_cases same : m = n
    · subst same
      rw [own, here]
      rfl
    · rw [others m same]
  constructor
  case within =>
    have length := congrArg List.length operations
    rw [List.length_map, List.length_map] at length
    rw [length]
    exact accounted.within
  case names =>
    rw [operations]
    exact accounted.names
  case listed =>
    intro name m
    -- a name is free again at once when its task ends with a value, and only then
    rw [active, accounted.listed]
    by_cases same : m = n
    · subst same
      have stays : (∀ a, Task.ending { t with stage := s } ≠ some (.value a)) ↔
          ¬∃ a, s = .ended (.value a) := by
        cases s <;> simp [Task.ending]
      simp only [here, own, Option.some.injEq, exists_eq_left', stays, true_and, on]
      simp [and_assoc]
    · rw [others m same]
      simp [same]
  case off =>
    intro m off
    obtain ⟨early, t', there, aborting, stands⟩ := accounted.off off
    by_cases same : m = n
    · subst same
      obtain rfl := Option.some.inj (here.symm.trans there)
      exact ⟨early, _, own, aborting, .inl (by rw [aborted.2 early]; rfl)⟩
    · refine ⟨early, t', (others m same).trans there, aborting, ?_⟩
      exact stands.imp_right fun waits => ⟨waits.1, queue m waits.2 same⟩
  case early =>
    intro m t' early there on'
    by_cases same : m = n
    · subst same
      exact accounted.early early here on
    · exact accounted.early early ((others m same).symm.trans there) on'
  case late =>
    intro m t' late there on'
    by_cases same : m = n
    · subst same
      obtain rfl := Option.some.inj (own.symm.trans there)
      exact accounted.late (t := t) late here on
    · exact accounted.late late ((others m same).symm.trans there) on'
  case spared =>
    intro m gave
    by_cases same : m = n
    · subst same
      rw [ending_of_task own] at gave
      have gave : s = .ended .aborted := by
        cases s with
        | ended e => exact congrArg Stage.ended (Option.some.inj gave)
        | fresh p => cases gave
        | waiting p next => cases gave
      exact accounted.early (aborted.1 gave) here on
    · rw [ending, others m same] at gave
      exact accounted.spared gave

/-- A task that is struck off is given up. It is one of the earlier tasks, as no later one has a
mark, and so it is not listed and nothing has to leave the list. -/
theorem giveUp {rest : List Nat} (accounted : r.Accounted struck given)
    (keeps : ∀ m ∈ r.queue, m ≠ n → m ∈ rest) (here : r.tasks[n]? = some t) (on : t.ending = none)
    (aborting : t.aborting = true) :
    (({ r with queue := rest } : Runner α).move n (.ended .aborted)).Accounted struck given := by
  have early : n < given := by
    by_contra late
    cases aborting.symm.trans (accounted.late (Nat.le_of_not_lt late) here on)
  apply accounted.restage (s := .ended .aborted) here on
  case own => exact task_move (r := { r with queue := rest }) here _
  case others =>
    intro m other
    exact task_move_of_ne { r with queue := rest } other _
  case active => simp [move]
  case queue => exact keeps
  case aborted => exact iff_of_true rfl early

/-- Another task is carried on. It is one of the later ones and is listed. If it comes to a value it
strikes its name from the list; if it panics or waits the name stays. -/
theorem carryOn [Store σ] {rest : List Nat} (accounted : r.Accounted struck given)
    (keeps : ∀ m ∈ r.queue, m ≠ n → m ∈ rest) (here : r.tasks[n]? = some t) (on : t.ending = none)
    (live : t.aborting = false) (h : Host σ) (p : Program α) :
    (({ r with queue := rest } : Runner α).carryOn h n t.operation p).1.Accounted struck given := by
  have late := accounted.late_of_live here on live
  apply accounted.restage here on
  case own => exact task_carryOn { r with queue := rest } here h t.operation p
  case others =>
    intro m other
    exact task_carryOn_of_ne { r with queue := rest } other h t.operation p
  case active =>
    intro name m
    have active : (({ r with queue := rest } : Runner α).carryOn h n t.operation p).1.active =
        (({ r with queue := rest } : Runner α).settle n t.operation (h.advance p).1).active := rfl
    rw [active]
    cases (h.advance p).1 with
    | panicked => simp [settle, move, Standing.stage]
    | waiting q next =>
      rw [settle]
      split <;> simp [move, Standing.stage]
    | ended a =>
      simp only [settle, move, Standing.stage, Catalog.get?_erase]
      have own : (∃ a', Stage.ended (.value a) = .ended (.value a')) ↔ True :=
        iff_true_intro ⟨a, rfl⟩
      rw [own, and_true]
      constructor
      · intro found
        split at found
        · cases found
        · next other =>
          refine ⟨found, ?_⟩
          rintro rfl
          exact other ((accounted.operation_eq_iff here found).2 rfl)
      · rintro ⟨found, other⟩
        rw [if_neg (mt (accounted.operation_eq_iff here found).1 other)]
        exact found
  case queue =>
    intro m queued other
    exact (mem_queue_carryOn _).2 (.inl (keeps m queued other))
  case aborted =>
    refine iff_of_false ?_ (Nat.not_lt_of_le late)
    cases (h.advance p).1 <;> simp [Standing.stage]

/-- A task has its turn and leaves the queue for it. If nothing comes of the turn it was not struck
off, since one that is struck off has a mark and would have been given up, and so nobody who ought
to be in the queue is missing there. -/
theorem poll [Store σ] {rest : List Nat} (accounted : r.Accounted struck given)
    (keeps : ∀ m ∈ r.queue, m ≠ n → m ∈ rest) (h : Host σ) :
    (({ r with queue := rest } : Runner α).poll h n).1.Accounted struck given := by
  have turned := turned_poll { r with queue := rest } h n
  generalize ({ r with queue := rest } : Runner α).poll h n = polled at turned
  cases turned with
  | givenUp here on aborting => exact accounted.giveUp keeps here on aborting
  | carriedOn here on live next => exact accounted.carryOn keeps here on live h _
  | idle vain =>
    refine { accounted with off := ?off, spared := accounted.spared }
    intro m off
    obtain ⟨early, t, here, aborting, stands⟩ := accounted.off off
    refine ⟨early, t, here, aborting, stands.imp_right ?_⟩
    rintro ⟨on, queued⟩
    refine ⟨on, keeps m queued ?_⟩
    rintro rfl
    cases aborting.symm.trans (vain t here on).1

/-- A task that is struck off ends with its next turn, if it has not ended. It has its mark, and of
the outcomes of a turn only one is open to it then. -/
theorem ending_poll_of_struck [Store σ] (accounted : r.Accounted struck given) (off : n ∈ struck)
    (rest : List Nat) (h : Host σ) :
    (({ r with queue := rest } : Runner α).poll h n).1.ending n = some .aborted := by
  obtain ⟨-, t, here, aborting, stands⟩ := accounted.off off
  rcases stands with ended | ⟨on, -⟩
  · exact ending_poll { r with queue := rest } h n ((ending_of_task here).trans ended)
  · have turned := turned_poll { r with queue := rest } h n
    generalize ({ r with queue := rest } : Runner α).poll h n = polled at turned
    cases turned with
    | idle vain => cases aborting.symm.trans (vain t here on).1
    | givenUp => exact ending_of_task (task_move (r := { r with queue := rest }) here _)
    | carriedOn there _ live _ =>
      obtain rfl := Option.some.inj (here.symm.trans there)
      cases aborting.symm.trans live

end Accounted

/-- How a task has ended stays so while the tasks work, as it does at each of their turns. -/
theorem ending_workFor [Store σ] (a : Await) (fuel : Nat) (h : Host σ)
    (ended : r.ending n = some e) : (workFor a fuel r h).2.1.ending n = some e := by
  apply workFor_induct (P := fun r _ => r.ending n = some e)
  case polls =>
    intro r h m rest _ ended
    exact ending_poll { r with queue := rest } h m ended
  case releases => exact fun _ _ => id
  case rings => exact fun _ _ _ _ _ _ => id
  case holds => exact ended

/-! ## What follows a shutdown -/

/-- The tasks of a runner from the `k`th one on are those of another one, where they are always in
the queue. -/
structure Mirrors (r : Runner α) (k : Nat) (u : Runner α) : Prop where
  /-- so many tasks are there -/
  length : r.tasks.length = k + u.tasks.length
  /-- they are the same -/
  task (n : Nat) : r.tasks[k + n]? = u.tasks[n]?
  /-- they are in the queue -/
  queue {n : Nat} (inside : n < u.tasks.length) : n ∈ u.queue

namespace Mirrors

variable {k : Nat} {r' u u' : Runner α}

/-- From the last task on there is none. This is how it stands after a shutdown, when nobody has
begun since. -/
theorem empty (r : Runner α) : r.Mirrors r.tasks.length empty where
  length := rfl
  task n := List.getElem?_eq_none (Nat.le_add_right _ n)
  queue inside := absurd inside (Nat.not_lt_zero _)

/-- It depends on the tasks only, and on there being enough of them in the other queue. What is
listed does not come into it: the names that were listed before a shutdown are gone with it. -/
theorem of_tasks (mirrors : r.Mirrors k u) (tasks : r'.tasks = r.tasks)
    (tasks' : u'.tasks = u.tasks) (queue : ∀ n ∈ u.queue, n ∈ u'.queue) : r'.Mirrors k u' where
  length := by
    rw [tasks, tasks', mirrors.length]
  task n := by
    rw [tasks, tasks', mirrors.task]
  queue inside := queue _ (mirrors.queue (tasks' ▸ inside))

/-- Who is woken here may differ from who is woken there, as the tasks before are not there at
all. -/
theorem enqueue (mirrors : r.Mirrors k u) (ns ms : List Nat) :
    (r.enqueue ns).Mirrors k (u.enqueue ms) := by
  apply mirrors.of_tasks
  case tasks => rfl
  case tasks' => rfl
  case queue =>
    intro n queued
    exact u.mem_queue_enqueue.2 (.inl queued)

/-- A task that moves moves there, too. -/
theorem of_modify {n : Nat} {f : Task α → Task α} (mirrors : r.Mirrors k u)
    (tasks : r'.tasks = r.tasks.modify (k + n) f) (tasks' : u'.tasks = u.tasks.modify n f)
    (queue : ∀ n ∈ u.queue, n ∈ u'.queue) : r'.Mirrors k u' where
  length := by
    rw [tasks, tasks', List.length_modify, List.length_modify, mirrors.length]
  task m := by
    rw [tasks, tasks', List.getElem?_modify, List.getElem?_modify, mirrors.task]
    simp only [Nat.add_left_cancel_iff]
  queue inside := by
    rw [tasks', List.length_modify] at inside
    exact queue _ (mirrors.queue inside)

/-- The ones before do not matter, whatever stages they come to. This is what makes a new runner do
for the later ones. -/
theorem of_early (mirrors : r.Mirrors k u) (length : r'.tasks.length = r.tasks.length)
    (others : ∀ n, k ≤ n → r'.tasks[n]? = r.tasks[n]?) : r'.Mirrors k u where
  length := length.trans mirrors.length
  task n := (others _ (Nat.le_add_right k n)).trans (mirrors.task n)
  queue := mirrors.queue

/-- A new task comes to both, and it is the last one of both. -/
theorem spawn (mirrors : r.Mirrors k u) (operation : String) (p : Program α) :
    (r.spawn operation p).2.Mirrors k (u.spawn operation p).2 where
  length := by
    simp only [Runner.spawn, List.length_append, mirrors.length, Nat.add_assoc]
  task n := by
    simp only [Runner.spawn]
    by_cases inside : n < u.tasks.length
    · have shifted : k + n < r.tasks.length := mirrors.length ▸ Nat.add_lt_add_left inside k
      rw [List.getElem?_append_left shifted, List.getElem?_append_left inside, mirrors.task]
    · have outside := Nat.le_of_not_lt inside
      have shifted : r.tasks.length ≤ k + n := mirrors.length ▸ Nat.add_le_add_left outside k
      rw [List.getElem?_append_right shifted, List.getElem?_append_right outside, mirrors.length,
        Nat.add_sub_add_left]
  queue {n} inside := by
    have inside : n < u.tasks.length + 1 := by
      simpa [Runner.spawn] using inside
    rcases Nat.lt_succ_iff_lt_or_eq.1 inside with inside | last
    · exact List.mem_append_left _ (mirrors.queue inside)
    · exact List.mem_append_right _ (List.mem_singleton.2 last)

/-- A task that is carried on does the same in both, since it works with the same host. -/
theorem carryOn [Store σ] (mirrors : r.Mirrors k u) (h : Host σ) (n : Nat) (operation : String)
    (p : Program α) :
    (r.carryOn h (k + n) operation p).1.Mirrors k (u.carryOn h n operation p).1 := by
  apply mirrors.of_modify
  case tasks => exact r.tasks_settle operation _
  case tasks' => exact u.tasks_settle operation _
  case queue =>
    intro m queued
    exact (mem_queue_carryOn _).2 (.inl queued)

/-- A task that has its turn comes as far in both: its mark, its stage and the host decide what
becomes of it, and they are the same. So the hosts are the same after it, too. -/
theorem poll [Store σ] (mirrors : r.Mirrors k u) (h : Host σ) (n : Nat) :
    (r.poll h (k + n)).1.Mirrors k (u.poll h n).1 ∧ (r.poll h (k + n)).2 = (u.poll h n).2 := by
  have moved (s : Stage α) : (r.move (k + n) s).Mirrors k (u.move n s) := by
    apply mirrors.of_modify
    case tasks => rfl
    case tasks' => rfl
    case queue => exact fun _ queued => queued
  rw [Runner.poll, Runner.poll, mirrors.task]
  split
  · exact ⟨mirrors, rfl⟩
  · split
    · exact ⟨mirrors, rfl⟩
    · split
      · exact ⟨moved _, rfl⟩
      · exact ⟨mirrors.carryOn .., rfl⟩
    · split
      · exact ⟨moved _, rfl⟩
      · split
        · exact ⟨mirrors, rfl⟩
        · exact ⟨mirrors.carryOn .., rfl⟩

/-- A shutdown gives up the same tasks in both. What it gives up are the tasks that are listed,
and by the accounts these are the later ones without a value here and all those without a value
there. -/
theorem shutdown {struck off : List Nat} {given : Nat} (mirrors : r.Mirrors k u)
    (accounted : r.Accounted struck (k + given)) (same : u.Accounted off given) :
    r.shutdown.Mirrors k u.shutdown where
  length := by
    rw [length_shutdown, length_shutdown, mirrors.length]
  task n := by
    have listed : k + n ∈ r.active.entries.map Prod.snd ↔ n ∈ u.active.entries.map Prod.snd := by
      rw [accounted.mem_active, same.mem_active, mirrors.task, Nat.add_le_add_iff_left]
    rw [task_shutdown, task_shutdown, mirrors.task]
    simp only [listed]
  queue inside := by
    rw [length_shutdown] at inside
    exact mem_queue_shutdown.2 (.inl (mirrors.queue inside))

end Mirrors

end Runner

/-! ## What can happen at a runner -/

/-- A runner with what its tasks work with. -/
structure Roster (σ α : Type) where
  /-- the runner -/
  runner : Runner α
  /-- what the tasks work with -/
  host : Host σ
  /-- the tasks that had not ended when the runner was shut down -/
  struck : List Nat

namespace Roster

variable {t t' : Roster σ α} {n : Nat}

/-- A runner without tasks. -/
def idle (h : Host σ) : Roster σ α := ⟨.empty, h, []⟩

/-- Begin a task. -/
def spawn (t : Roster σ α) (operation : String) (p : Program α) : Roster σ α :=
  { t with runner := (t.runner.spawn operation p).2 }

/-- Let a task have its turn. The queue is `rest` then. -/
def turn [Store σ] (t : Roster σ α) (n : Nat) (rest : List Nat) : Roster σ α :=
  let polled := ({ t.runner with queue := rest } : Runner α).poll t.host n
  { t with runner := polled.1, host := polled.2 }

/-- Let those that have given way go on. -/
def release (t : Roster σ α) : Roster σ α := { t with runner := t.runner.release }

/-- Let time pass until the clock shows so many milliseconds. -/
def pass (t : Roster σ α) (ms : Nat) : Roster σ α :=
  { t with runner := t.runner.ring ms, host := { t.host with clock := ms } }

/-- Somebody else works with the same things, which wakes the tasks that are canceled by it. -/
def disturb (t : Roster σ α) (h : Host σ) : Roster σ α :=
  { t with runner := t.runner.rouse h, host := h }

/-- Give up all operations in flight. -/
def shutdown (t : Roster σ α) : Roster σ α :=
  { t with runner := t.runner.shutdown, struck := t.runner.unended ++ t.struck }

/-- Let the tasks work until something has come, such as the end of a task that somebody joins. -/
def await [Store σ] (t : Roster σ α) (a : Runner.Await) : Roster σ α :=
  let awaited := t.runner.await t.host a
  { t with runner := awaited.2.1, host := awaited.2.2 }

/-- What can happen next. -/
inductive Moves [Store σ] (t : Roster σ α) : Roster σ α → Prop where
  /-- a task begins, with a new name -/
  | spawns {operation : String} (p : Program α)
      (new : operation ∉ t.runner.tasks.map Task.operation) : Moves t (t.spawn operation p)
  /-- a task that is in the queue has its turn; the other ones stay there -/
  | turns {n : Nat} {rest : List Nat} (queued : n ∈ t.runner.queue)
      (fewer : ∀ m ∈ rest, m ∈ t.runner.queue) (keeps : ∀ m ∈ t.runner.queue, m ≠ n → m ∈ rest) :
      Moves t (t.turn n rest)
  /-- those that have given way go on -/
  | releases : Moves t t.release
  /-- time passes -/
  | passes {ms : Nat} (later : t.host.clock ≤ ms) : Moves t (t.pass ms)
  /-- something happens elsewhere -/
  | disturbs {h : Host σ} (clock : h.clock = t.host.clock) : Moves t (t.disturb h)
  /-- the runner is shut down -/
  | shuts : Moves t t.shutdown

/-- Where what happens can lead. -/
abbrev Comes [Store σ] : Roster σ α → Roster σ α → Prop := Relation.ReflTransGen Moves

variable [Store σ] {given : Nat}

/-- Whatever happens, the runner keeps its account. Only a shutdown changes how many tasks are the
earlier ones: from then on all that are there are. -/
theorem Moves.accounted (moves : t.Moves t') (accounted : t.runner.Accounted t.struck given) :
    ∃ given', t'.runner.Accounted t'.struck given' := by
  cases moves with
  | spawns p new => exact ⟨given, accounted.spawn p new⟩
  | turns queued fewer keeps => exact ⟨given, accounted.poll keeps t.host⟩
  | releases => exact ⟨given, (accounted.enqueue _).of_queue rfl rfl fun _ => id⟩
  | passes | disturbs => exact ⟨given, accounted.enqueue _⟩
  | shuts => exact ⟨_, accounted.shutdown⟩

/-- How a task has ended stays so, whatever happens to the others and to the queue. -/
theorem Moves.ending {e : Ending α} (moves : t.Moves t') (ended : t.runner.ending n = some e) :
    t'.runner.ending n = some e := by
  cases moves with
  | spawns p new =>
    obtain ⟨task, here, ended⟩ := Option.bind_eq_some_iff.1 ended
    exact (Runner.ending_of_task (getElem?_concat_eq_some.2 (.inl here))).trans ended
  | turns => exact Runner.ending_poll _ t.host _ ended
  | releases | passes | disturbs => exact ended
  | shuts => exact (t.runner.ending_shutdown n).trans ended

/-- Nobody who is struck off comes back: a further shutdown adds others to them. -/
theorem Moves.struck (moves : t.Moves t') (struck : n ∈ t.struck) : n ∈ t'.struck := by
  cases moves with
  | shuts => exact List.mem_append_right _ struck
  | _ => exact struck

namespace Comes

/-- So it keeps its account over any number of moves, -/
theorem accounted (comes : t.Comes t') (accounted : t.runner.Accounted t.struck given) :
    ∃ given', t'.runner.Accounted t'.struck given' := by
  induction comes with
  | refl => exact ⟨given, accounted⟩
  | tail _ moves ih =>
    obtain ⟨given', accounted'⟩ := ih
    exact moves.accounted accounted'

/-- and a task that has ended has ended for good, -/
theorem ending {e : Ending α} (comes : t.Comes t') (ended : t.runner.ending n = some e) :
    t'.runner.ending n = some e := by
  induction comes with
  | refl => exact ended
  | tail _ moves ih => exact moves.ending ih

/-- and who was struck off remains so. -/
theorem struck (comes : t.Comes t') (struck : n ∈ t.struck) : n ∈ t'.struck := by
  induction comes with
  | refl => exact struck
  | tail _ moves ih => exact moves.struck ih

end Comes

/-! ### Letting the tasks work -/

/-- To let the tasks work until something has come is a row of moves. -/
theorem comes_await (t : Roster σ α) (a : Runner.Await) : t.Comes (t.await a) := by
  refine (t.runner.works_await t.host a).lift (fun x =>
    { t with runner := x.1, host := x.2 }) fun x y works => ?_
  cases works with
  | @polls r h n rest queue =>
    have queued : n ∈ r.queue := queue ▸ List.mem_cons_self
    have fewer (m : Nat) (left : m ∈ rest) : m ∈ r.queue := queue ▸ List.mem_cons_of_mem n left
    have keeps (m : Nat) (queued : m ∈ r.queue) (other : m ≠ n) : m ∈ rest := by
      rw [queue] at queued
      exact List.mem_of_ne_of_mem other queued
    exact .turns queued fewer keeps
  | releases => exact .releases
  | rings later => exact .passes later

/-! ## Tasks that are struck off -/

/-- What becomes of a task that had not ended when the runner was shut down. -/
structure GivenUp (t : Roster σ α) (n : Nat) : Prop where
  /-- it does not end in any other way, and so it has no value -/
  ended {e : Ending α} (ended : t.runner.ending n = some e) : e = .aborted
  /-- it is in the queue until it ends -/
  queued (on : t.runner.ending n = none) : n ∈ t.runner.queue
  /-- whenever it has its next turn, it ends -/
  turn (rest : List Nat) : (t.turn n rest).runner.ending n = some .aborted
  /-- it does when the tasks work, whatever they work for -/
  works (a : Runner.Await) {fuel : Nat} (enough : t.runner.queue.length ≤ fuel) :
    (Runner.workFor a fuel t.runner t.host).2.1.ending n = some .aborted
  /-- and who joins it learns that it was given up -/
  joined (enough : t.runner.queue.length ≤ Runner.patience) :
    (t.await (.task n)).runner.ending n = some .aborted

/-- A task that is struck off is given up. As long as it has not ended it is in the queue with its
mark, and no move takes it from there but its own turn, which is its last. So to let the tasks work
is to come to that turn, whatever they work for. -/
theorem givenUp_of_struck (accounted : t.runner.Accounted t.struck given) (struck : n ∈ t.struck) :
    t.GivenUp n := by
  obtain ⟨-, task, here, -, stands⟩ := accounted.off struck
  rw [← Runner.ending_of_task here] at stands
  have aborted {e : Ending α} (ended : t.runner.ending n = some e) : e = .aborted := by
    rw [ended] at stands
    rcases stands with same | ⟨never, -⟩
    · exact Option.some.inj same
    · cases never
  -- while the tasks work its turn comes, if it has not ended before
  have works (a : Runner.Await) {fuel : Nat} (enough : t.runner.queue.length ≤ fuel) :
      (Runner.workFor a fuel t.runner t.host).2.1.ending n = some .aborted := by
    rcases stands with ended | ⟨-, queued⟩
    · exact Runner.ending_workFor a fuel t.host ended
    · obtain ⟨fuel', r, h, rest, accounted', worked⟩ := Runner.exists_turn_workFor
        (P := fun r _ => r.Accounted t.struck given) (h := t.host) a (by
          intro r h m rest queue accounted
          apply accounted.poll
          intro k queued other
          rw [queue] at queued
          exact List.mem_of_ne_of_mem other queued)
        accounted queued enough
      rw [worked]
      exact Runner.ending_workFor a fuel' _ (accounted'.ending_poll_of_struck struck rest h)
  constructor
  case ended => exact aborted
  case queued =>
    intro on
    rw [on] at stands
    rcases stands with never | ⟨-, queued⟩
    · cases never
    · exact queued
  case turn =>
    intro rest
    exact accounted.ending_poll_of_struck struck rest t.host
  case works => exact works
  case joined =>
    intro enough
    rw [await, Runner.await]
    dsimp only
    split
    · next come =>
      have ended : t.runner.hasEnded n = true := come
      rw [Runner.hasEnded_eq_isSome] at ended
      obtain ⟨e, ended⟩ := Option.isSome_iff_exists.1 ended
      exact aborted ended ▸ ended
    · exact works _ enough

/-! ## Tasks that begin after a shutdown -/

/-- The tasks from the `k`th one on are those of another roster, in which they work with the same
things. -/
structure Follows (k : Nat) (t u : Roster σ α) : Prop where
  /-- the tasks are the same -/
  mirrors : t.runner.Mirrors k u.runner
  /-- so is what they work with -/
  host : u.host = t.host
  /-- both runners keep their accounts; what was struck off in the other one was struck off here -/
  accounted : ∃ given, t.runner.Accounted t.struck (k + given) ∧
    u.runner.Accounted u.struck given

namespace Follows

variable {k : Nat} {u : Roster σ α}

/-- A task has its turn. If it is one of the later ones it has its turn there, too, and both come to
the same. If it is an earlier one, nothing has to be done there: it is given up at most, since it
has a mark if it has not ended, and so it does not touch the host. -/
theorem turn {rest : List Nat} (follows : t.Follows k u)
    (keeps : ∀ m ∈ t.runner.queue, m ≠ n → m ∈ rest) :
    ∃ u', u.Comes u' ∧ (t.turn n rest).Follows k u' := by
  obtain ⟨runner, host, off⟩ := u
  obtain ⟨mirrors, rfl, given, accounted, accounted'⟩ := follows
  have polled := accounted.poll (n := n) keeps t.host
  have mirrored : ({ t.runner with queue := rest } : Runner α).Mirrors k runner :=
    mirrors.of_tasks rfl rfl fun _ => id
  -- the task is one of the later ones, and then it has its turn there
  by_cases shared : ∃ m, n = k + m ∧ m < runner.tasks.length
  · obtain ⟨m, rfl, inside⟩ := shared
    obtain ⟨turned, same⟩ := mirrored.poll t.host m
    have moves : Moves ⟨runner, t.host, off⟩ (turn ⟨runner, t.host, off⟩ m runner.queue) := by
      apply Moves.turns
      case queued => exact mirrors.queue inside
      case fewer => exact fun _ => id
      case keeps => exact fun _ queued _ => queued
    refine ⟨_, .single moves, turned, same.symm, given, polled, ?_⟩
    exact accounted'.poll (fun _ queued _ => queued) t.host
  -- or it is not
  · have early {task : Task α} (here : t.runner.tasks[n]? = some task) : n < k := by
      by_contra late
      obtain ⟨m, rfl⟩ := Nat.exists_eq_add_of_le (Nat.le_of_not_lt late)
      rw [mirrors.task] at here
      exact shared ⟨m, rfl, (List.getElem?_eq_some_iff.1 here).1⟩
    have turned := Runner.turned_poll { t.runner with queue := rest } t.host n
    refine ⟨_, .refl, ?_⟩
    rw [Roster.turn]
    generalize ({ t.runner with queue := rest } : Runner α).poll t.host n = next at turned polled
    cases turned with
    | idle => exact ⟨mirrored, rfl, given, polled, accounted'⟩
    | givenUp here =>
      refine ⟨?_, rfl, given, polled, accounted'⟩
      apply mirrored.of_early
      · exact List.length_modify ..
      · intro m late
        exact Runner.task_move_of_ne _ (Nat.ne_of_gt (Nat.lt_of_lt_of_le (early here) late)) _
    | carriedOn here on live =>
      have late := Nat.le_of_add_right_le (accounted.late_of_live here on live)
      exact absurd (early here) (Nat.not_lt_of_le late)

/-- Whatever happens, the same can be done there. That the turns of the earlier tasks are left out
is all the difference, apart from a release, after which the other queue holds what it has to as it
is. -/
theorem exists_comes (follows : t.Follows k u) (moves : t.Moves t') :
    ∃ u', u.Comes u' ∧ t'.Follows k u' := by
  have turn {n : Nat} {rest : List Nat}
      (keeps : ∀ m ∈ t.runner.queue, m ≠ n → m ∈ rest) := follows.turn keeps
  obtain ⟨runner, host, off⟩ := u
  obtain ⟨mirrors, rfl, given, accounted, accounted'⟩ := follows
  cases moves with
  | @spawns operation p new =>
    have new' : operation ∉ runner.tasks.map Task.operation := by
      intro known
      obtain ⟨task, inside, same⟩ := List.mem_map.1 known
      obtain ⟨n, here⟩ := List.mem_iff_getElem?.1 inside
      rw [← mirrors.task] at here
      exact new (List.mem_map.2 ⟨task, List.mem_of_getElem? here, same⟩)
    exact ⟨_, .single (.spawns p new'), mirrors.spawn _ p, rfl, given, accounted.spawn p new,
      accounted'.spawn p new'⟩
  | turns queued fewer keeps => exact turn keeps
  -- those that have given way queue up again, which their own runner need not do
  | releases =>
    refine ⟨_, .refl, mirrors.of_tasks rfl rfl fun _ => id, rfl, given, ?_, accounted'⟩
    exact (accounted.enqueue t.runner.givenWay).of_queue rfl rfl fun _ => id
  | passes later =>
    exact ⟨_, .single (.passes later), mirrors.enqueue _ _, rfl, given, accounted.enqueue _,
      accounted'.enqueue _⟩
  | disturbs clock =>
    exact ⟨_, .single (.disturbs clock), mirrors.enqueue _ _, rfl, given, accounted.enqueue _,
      accounted'.enqueue _⟩
  | shuts =>
    refine ⟨_, .single .shuts, mirrors.shutdown accounted accounted', rfl, _, ?_,
      accounted'.shutdown⟩
    exact mirrors.length ▸ accounted.shutdown

end Follows

/-- What tasks do that begin after a shutdown they could do at a new runner. At the shutdown nobody
has begun since, and a runner without tasks will do; from there on one move after another is
followed. -/
theorem exists_follows (accounted : t.runner.Accounted t.struck given)
    (comes : t.shutdown.Comes t') :
    ∃ u, (idle t.host).Comes u ∧ t'.Follows t.runner.tasks.length u := by
  induction comes with
  | refl =>
    have mirrors := Runner.Mirrors.empty t.runner.shutdown
    rw [Runner.length_shutdown] at mirrors
    exact ⟨idle t.host, .refl, mirrors, rfl, 0, accounted.shutdown, .empty⟩
  | tail _ moves ih =>
    obtain ⟨u, before, follows⟩ := ih
    obtain ⟨u', next, follows'⟩ := follows.exists_comes moves
    exact ⟨u', before.trans next, follows'⟩

/-! ## Exactness -/

/-- What a runner says of its tasks is exact. -/
structure Exact (t : Roster σ α) : Prop where
  /-- the operations are listed in order, each one once -/
  sorted : t.runner.operations.Pairwise (· < ·)
  /-- if no task panics, they are those of the tasks that have not ended and that were not there
  at a shutdown -/
  listed (calm : ∀ n, t.runner.ending n ≠ some .panicked) (name : String) :
    name ∈ t.runner.operations ↔ ∃ n task, t.runner.tasks[n]? = some task ∧
      task.operation = name ∧ t.runner.ending n = none ∧ n ∉ t.struck
  /-- a task that has ended keeps its value, whatever happens later -/
  kept {n : Nat} {e : Ending α} (ended : t.runner.ending n = some e) :
    ∀ t', t.Comes t' → t'.runner.ending n = some e
  /-- a task that has not ended when the runner is shut down is given up, whatever happens later -/
  givenUp {n : Nat} (here : n < t.runner.tasks.length) (on : t.runner.ending n = none) :
    ∀ t', t.shutdown.Comes t' → t'.GivenUp n
  /-- other tasks are not given up -/
  spared {n : Nat} (aborted : t.runner.ending n = some .aborted) : n ∈ t.struck
  /-- so all of this holds while the tasks work, whatever they work for -/
  awaits (a : Runner.Await) : t.Comes (t.await a)
  /-- what tasks do that begin after a shutdown they could do at a new runner -/
  later : ∀ t', t.shutdown.Comes t' → ∃ u, (idle t.host).Comes u ∧ u.host = t'.host ∧
    ∀ n, t'.runner.tasks[t.runner.tasks.length + n]? = u.runner.tasks[n]?

/-- Whatever was begun, joined and shut down at a runner, in any order and with any turns of the
tasks between, what it says of its tasks is exact. All but the last part is read off the account
that it keeps. -/
theorem accounts_of_comes {h : Host σ} (comes : (idle h).Comes t) : t.Exact := by
  obtain ⟨given, accounted⟩ := comes.accounted (t := idle h) .empty
  constructor
  case sorted => exact Catalog.sorted_names _
  case listed =>
    intro calm name
    rw [Runner.operations, Catalog.mem_names, Catalog.contains, Option.isSome_iff_exists]
    constructor
    · rintro ⟨n, found⟩
      obtain ⟨late, task, here, operation, valueless⟩ := (accounted.listed name n).1 found
      -- names given from the last shutdown on belong to tasks that no shutdown struck
      have spared : n ∉ t.struck := fun off => Nat.not_le_of_lt (accounted.off off).1 late
      refine ⟨n, task, here, operation, ?_, spared⟩
      have own := Runner.ending_of_task here
      cases ended : t.runner.ending n with
      | none => rfl
      | some e =>
        cases e with
        | value a => exact absurd (own.symm.trans ended) (valueless a)
        | panicked => exact absurd ended (calm n)
        | aborted => exact absurd (accounted.spared ended) spared
    · rintro ⟨n, task, here, operation, on, spared⟩
      rw [Runner.ending_of_task here] at on
      refine ⟨n, (accounted.listed name n).2 ⟨?_, task, here, operation, by simp [on]⟩⟩
      by_contra early
      exact spared (accounted.early (Nat.lt_of_not_le early) here on)
  case kept =>
    intro n e ended t' comes
    exact comes.ending ended
  case givenUp =>
    intro n here on t' comes
    have unended : n ∈ t.runner.unended := by
      have here := List.getElem?_eq_getElem here
      rw [Runner.mem_unended here, ← Runner.ending_of_task here, on]
    obtain ⟨given', accounted'⟩ := comes.accounted (t := t.shutdown) accounted.shutdown
    exact givenUp_of_struck accounted' (comes.struck (List.mem_append_left _ unended))
  case spared => exact accounted.spared
  case awaits => exact t.comes_await
  case later =>
    intro t' comes
    obtain ⟨u, begun, follows⟩ := exists_follows accounted comes
    exact ⟨u, begun, follows.host, follows.mirrors.task⟩

/-! ### A runner that was shut down -/

/-- A runner at which one task has begun, -/
def lone : Roster Memory Nat := (idle (.start Memory.empty)).spawn "short" (.done 1)

/-- and another one, which waits for ever. -/
def paired : Roster Memory Nat := lone.spawn "long" (.pause ⟨"", .never, none⟩ fun _ => .done 2)

/-- The runner when both have had a turn and it has been shut down. A third task has begun then. -/
def reopened : Roster Memory Nat :=
  ((paired.turn 0 [1]).turn 1 []).shutdown.spawn "late" (.done 3)

/-- All this can happen one after the other. -/
theorem comes_reopened : (idle (.start Memory.empty)).Comes reopened := by
  have short : (idle (.start Memory.empty)).Moves lone := .spawns _ (by decide)
  have long : lone.Moves paired := .spawns _ (by decide)
  have first : paired.Moves (paired.turn 0 [1]) := .turns (by decide) (by decide) (by decide)
  have second : (paired.turn 0 [1]).Moves ((paired.turn 0 [1]).turn 1 []) :=
    .turns (by decide +kernel) (by decide +kernel) (by decide +kernel)
  have late : ((paired.turn 0 [1]).turn 1 []).shutdown.Moves reopened :=
    .spawns _ (by decide +kernel)
  exact ((((Relation.ReflTransGen.single short).tail long).tail first).tail second).tail .shuts
    |>.tail late

/-- Only the third one is listed there; the first one has kept its value, and who joins the second
one learns that it was given up. -/
theorem reopened_exact : reopened.Exact ∧ reopened.runner.operations = ["late"] ∧
    reopened.runner.ending 0 = some (.value 1) ∧ reopened.struck = [1] ∧
    (reopened.await (.task 1)).runner.ending 1 = some .aborted :=
  ⟨accounts_of_comes comes_reopened, by decide +kernel, by decide +kernel, by decide +kernel,
    by decide +kernel⟩

end Roster

end Runbook
