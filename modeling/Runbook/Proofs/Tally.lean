import Mathlib.Logic.Relation
import Runbook.Proofs.Attendance

/-!
# An engine and the runs that were started at it

What can happen at an engine while its runs work in the background, and what stays true meanwhile.

* `Tally` — an engine, and the runs that were started at it so far.
* `Tally.Moves`, `Tally.Comes` — what can happen next, and where some of it leads. Tasks have their
  turns in any order.
* `Tally.Tended` — every run that was started is as far as its task, on a behaviour of its own, and
  whoever is canceled is in the queue. `Tally.Tended.comes`: so it stays.
-/

namespace Runbook

open Program

variable {σ α : Type}

/-- What is in a list with one more element is in the list, or behind it. -/
theorem getElem?_concat_eq_some {l : List α} {a b : α} {n : Nat} :
    (l ++ [a])[n]? = some b ↔ l[n]? = some b ∨ n = l.length ∧ a = b := by
  rcases Nat.lt_trichotomy n l.length with less | rfl | more
  · rw [List.getElem?_append_left less]
    simp [Nat.ne_of_lt less]
  · simp
  · rw [List.getElem?_append_right (Nat.le_of_lt more)]
    simp [Nat.ne_of_gt more, Nat.sub_ne_zero_of_lt more, Nat.le_of_lt more]

/-! ## The queue of a runner -/

namespace Runner

variable {r r' : Runner α} {h h' : Host σ} {n m : Nat} {rest : List Nat} {t : Task α}

/-- Whoever has not begun is in the queue, and so is whoever waits although its run is canceled. -/
structure Alerted (r : Runner α) (h : Host σ) : Prop where
  /-- tasks that have not begun -/
  fresh {n : Nat} {t : Task α} {p : Program α} (here : r.tasks[n]? = some t)
    (stage : t.stage = .fresh p) : n ∈ r.queue
  /-- tasks whose runs are canceled -/
  canceled {n : Nat} {t : Task α} {p : Pause} {next : Wake → Program α}
    (here : r.tasks[n]? = some t) (stage : t.stage = .waiting p next)
    (fired : (h.signal p.run).fired = true) : n ∈ r.queue

/-- More tasks in the queue do no harm, nor do signals that have not fired. What is asked for is a
place in the queue for those who are canceled, and for nobody else. -/
theorem Alerted.mono (alerted : r.Alerted h) (tasks : r'.tasks = r.tasks)
    (queue : ∀ n ∈ r.queue, n ∈ r'.queue)
    (signal : ∀ run, (h'.signal run).fired = true → (h.signal run).fired = true) :
    r'.Alerted h' where
  fresh here stage := queue _ (alerted.fresh (tasks ▸ here) stage)
  canceled here stage fired := queue _ (alerted.canceled (tasks ▸ here) stage (signal _ fired))

/-- When signals were called, those who wait for them are woken. Who has not begun is in the queue
as it is. -/
theorem Alerted.rouse (alerted : r.Alerted h) (h' : Host σ) : (r.rouse h').Alerted h' where
  fresh here stage := r.mem_queue_enqueue.2 (.inl (alerted.fresh here stage))
  canceled here stage fired :=
    r.mem_queue_enqueue.2 (.inr (r.mem_waitingIn.2 ⟨_, _, _, here, stage, fired⟩))

/-- A new task is in the queue, since it has not begun; the others keep their places. -/
theorem Alerted.spawn (alerted : r.Alerted h) (operation : String) (p : Program α) :
    (r.spawn operation p).2.Alerted h := by
  have kept {n : Nat} (queued : n ∈ r.queue) : n ∈ (r.spawn operation p).2.queue :=
    List.mem_append_left _ queued
  constructor
  case fresh =>
    intro n t p here stage
    rcases getElem?_concat_eq_some.1 here with here | ⟨rfl, -⟩
    · exact kept (alerted.fresh here stage)
    · exact List.mem_append_right _ (List.mem_singleton_self _)
  case canceled =>
    intro n t p next here stage fired
    rcases getElem?_concat_eq_some.1 here with here | ⟨-, rfl⟩
    · exact kept (alerted.canceled here stage fired)
    · cases stage

/-- A task that cannot go on may leave the queue: it has begun, and its signal has not fired, as it
could go on otherwise. -/
theorem Alerted.skip (alerted : r.Alerted h) (keeps : ∀ m ∈ r.queue, m ≠ n → m ∈ rest)
    (vain : ∀ t, r.tasks[n]? = some t → t.stage.next? h = none) :
    ({ r with queue := rest } : Runner α).Alerted h where
  fresh {m t p} here stage := by
    refine keeps m (alerted.fresh here stage) ?_
    rintro rfl
    have never := vain t here
    rw [stage] at never
    cases never
  canceled {m t p next} here stage fired := by
    refine keeps m (alerted.canceled here stage fired) ?_
    rintro rfl
    have never := vain t here
    rw [stage] at never
    simp [Stage.next?, Host.wake?, fired] at never

section

variable [Store σ]

/-- A task that has its turn cannot go on and is left, or is carried on. -/
theorem poll_cases (r : Runner α) (h : Host σ) (n : Nat)
    (live : ∀ t, r.tasks[n]? = some t → t.aborting = false) :
    (∀ t, r.tasks[n]? = some t → t.stage.next? h = none) ∧ r.poll h n = (r, h) ∨
      ∃ t p, r.tasks[n]? = some t ∧ t.stage.next? h = some p ∧
        r.poll h n = r.carryOn h n t.operation p := by
  rw [poll]
  cases here : r.tasks[n]? with
  | none =>
    refine .inl ⟨?_, rfl⟩
    intro t never
    cases never
  | some t =>
    obtain ⟨operation, stage, aborting⟩ := t
    obtain rfl : aborting = false := live _ here
    cases stage with
    | fresh p => exact .inr ⟨_, p, rfl, rfl, rfl⟩
    | ended e =>
      refine .inl ⟨?_, rfl⟩
      rintro t ⟨⟩
      rfl
    | waiting p next =>
      cases wake : h.wake? p with
      | none =>
        refine .inl ⟨?_, by simp [wake]⟩
        rintro t ⟨⟩
        simp [Stage.next?, wake]
      | some w => exact .inr ⟨_, next w, rfl, by simp [Stage.next?, wake], by simp [wake]⟩

/-- The turn of a task leaves the other ones as they are. They may be put in the queue by it, but
their stages are their own. -/
theorem task_poll_of_ne (r : Runner α) (h : Host σ) (ne : m ≠ n) :
    (r.poll h n).1.tasks[m]? = r.tasks[m]? := by
  have moved (s : Stage α) : (r.move n s).tasks[m]? = r.tasks[m]? :=
    List.getElem?_modify_ne _ _ ne.symm
  rw [poll]
  split
  · rfl
  · split
    · rfl
    · split
      · exact moved _
      · exact r.task_carryOn_of_ne ne ..
    · split
      · exact moved _
      · split
        · rfl
        · exact r.task_carryOn_of_ne ne ..

/-- A task that has ended stays so: it may have a turn, but nothing comes of it. -/
theorem hasEnded_poll (r : Runner α) (h : Host σ) (n : Nat) (ended : r.hasEnded m = true) :
    (r.poll h n).1.hasEnded m = true := by
  by_cases same : m = n
  · subst same
    obtain ⟨⟨operation, stage, aborting⟩, here, last⟩ := (Option.any_eq_true ..).1 ended
    cases stage with
    | ended e =>
      have idle : r.poll h m = (r, h) := by rw [poll, here]
      rw [idle]
      exact ended
    | fresh p => cases last
    | waiting p next => cases last
  · rw [hasEnded, r.task_poll_of_ne h same]
    exact ended

/-- Whoever is canceled when a task has been carried on is in the queue. The runner looks for them
among all that wait, at the host as it is after the turn. -/
theorem Alerted.carryOn (alerted : r.Alerted h) (keeps : ∀ m ∈ r.queue, m ≠ n → m ∈ rest)
    (here : r.tasks[n]? = some t) (operation : String) (p : Program α) :
    (({ r with queue := rest } : Runner α).carryOn h n operation p).1.Alerted
      (({ r with queue := rest } : Runner α).carryOn h n operation p).2 where
  fresh {m t' p'} here' stage := by
    have own := task_carryOn { r with queue := rest } here h operation p
    have ne : m ≠ n := by
      rintro rfl
      obtain rfl := Option.some.inj (own.symm.trans here')
      revert stage
      cases (h.advance p).1 <;> exact fun never => by cases never
    rw [task_carryOn_of_ne _ ne] at here'
    exact (mem_queue_carryOn _).2 (.inl (keeps m (alerted.fresh here' stage) ne))
  canceled here' stage fired :=
    (mem_queue_carryOn _).2 (.inr ((mem_waitingIn _).2 ⟨_, _, _, here', stage, fired⟩))

end

end Runner

/-! ## What can happen at an engine -/

/-- Storing a new run is nothing to other runs. -/
theorem Host.leaves_createRun [Store σ] (h : Host σ) (r : RunRecord) (run : String) :
    Leaves run h (Store.createRun r h).2 where
  calls := ⟨[], signal_call ..⟩
  lastWrite? := by
    have noted : (Store.createRun r h).2.noted = (h.call .createRun (Store.createRun r)).2.noted :=
      rfl
    rw [Host.lastWrite?, noted, Host.noted, journal_call, Host.lastWrite?, Host.noted]

theorem Host.runIds_createRun [Store σ] (h : Host σ) (r : RunRecord) :
    (Store.createRun r h).2.runIds = h.runIds := by
  have called : (h.call .createRun (Store.createRun r)).2.runIds = h.runIds := by
    rw [call]
    dsimp only
    split <;> rfl
  exact called

namespace Engine

/-- Let a task have its turn. The queue is `rest` then. -/
def turn [Store σ] (e : Engine σ) (n : Nat) (rest : List Nat) : Engine σ :=
  let polled := ({ e.runner with queue := rest } : Runner Run).poll e.host n
  { e with runner := polled.1, host := polled.2 }

/-- Let those that have given way go on. -/
def release (e : Engine σ) : Engine σ := { e with runner := e.runner.release }

/-- Let time pass until the clock shows so many milliseconds. -/
def pass (e : Engine σ) (ms : Nat) : Engine σ :=
  { e with host := { e.host with clock := ms }, runner := e.runner.ring ms }

/-- Call the signal of a run. -/
def call (e : Engine σ) (id : String) (c : SignalCall) : Engine σ :=
  { e with host := e.host.called id c, runner := e.runner.rouse (e.host.called id c) }

section

variable [Store σ] {e : Engine σ} {caller : Caller} {name bizId bizType : String} {r : Run}

theorem runner_create (d : Option Definition) :
    (e.create caller bizId bizType d).2.runner = e.runner := by
  cases d <;> rfl

theorem live_create (d : Option Definition) :
    (e.create caller bizId bizType d).2.live = e.live := by
  cases d <;> rfl

theorem signal_create (d : Option Definition) (id : String) :
    (e.create caller bizId bizType d).2.host.signal id = e.host.signal id := by
  cases d with
  | none => rfl
  | some d => exact Host.signal_call ..

theorem leaves_create (d : Option Definition) (id : String) :
    e.host.Leaves id (e.create caller bizId bizType d).2.host := by
  cases d with
  | none => exact .refl id e.host
  | some d =>
    have given : e.host.Leaves id e.host.newRunId.2.now.2 := by
      apply Host.Leaves.of_eq
      · rfl
      · rfl
    exact given.trans (Host.leaves_createRun _ _ id)

/-- To run a procedure is to create a run of it, and to start it. -/
theorem exists_create (made : (e.createNamed caller name bizId bizType).1 = .ok r) :
    ∃ d, (e.create caller bizId bizType d).1 = .ok r ∧
      (e.run caller name bizId bizType).2 = (e.create caller bizId bizType d).2.start r := by
  rw [createNamed] at made
  split at made
  · cases made
  · next d known =>
    refine ⟨some d, made, ?_⟩
    rw [run, createNamed, known]
    dsimp only
    rcases created : e.create caller bizId bizType (some d) with ⟨result, e'⟩
    rw [created] at made
    obtain rfl : result = .ok r := made
    rfl

/-- A run that is created has the next ID. If it could not be stored the ID is used up all the same,
and nobody gets it later. -/
theorem id_create {d : Option Definition} (made : (e.create caller bizId bizType d).1 = .ok r) :
    r.id = Host.runId (e.host.runIds + 1) ∧
      (e.create caller bizId bizType d).2.host.runIds = e.host.runIds + 1 := by
  cases d with
  | none => cases made
  | some d =>
    refine ⟨?_, Host.runIds_createRun _ _⟩
    simp only [create] at made
    generalize (Store.createRun _ e.host.newRunId.2.now.2).1 = written at made
    cases written with
    | error f => cases made
    | ok =>
      cases made
      rfl

theorem runIds_create (d : Option Definition) :
    e.host.runIds ≤ (e.create caller bizId bizType d).2.host.runIds := by
  cases d with
  | none => exact Nat.le_refl _
  | some d =>
    have next : (e.create caller bizId bizType (some d)).2.host.runIds = e.host.runIds + 1 :=
      Host.runIds_createRun _ _
    rw [next]
    exact Nat.le_succ _

end

end Engine

/-- An engine, and the runs that were started at it so far. The task of a run has the number of its
place among them. -/
structure Tally (σ : Type) where
  /-- the engine -/
  engine : Engine σ
  /-- the runs, as they were when they were started -/
  started : List Run

namespace Tally

variable {t t' : Tally σ} {r : Run} {n : Nat} {id : String}

/-- An engine at which nothing has been started. -/
def idle (settings : Settings) (store : σ) : Tally σ := ⟨.idle settings store, []⟩

/-- Somebody cancels a run. -/
def cancel (t : Tally σ) (id reason : String) : Tally σ :=
  { t with engine := (t.engine.cancel id reason).2 }

/-- A run is live if it was started and its task has not ended. -/
def IsLive (t : Tally σ) (id : String) : Prop :=
  ∃ n r, t.started[n]? = some r ∧ r.id = id ∧ t.engine.runner.hasEnded n = false

/-! ## The tasks of the runs -/

/-- The tasks are those of the runs that were started, and none is lost. Of runs that were canceled
before they ended, `doom` has the reasons. -/
structure Tended (doom : Nat → Option String) (t : Tally σ) : Prop where
  /-- every task is one of a run -/
  length : t.engine.runner.tasks.length = t.started.length
  /-- the runs have different IDs -/
  ids : (t.started.map Run.id).Nodup
  /-- which the engine has given -/
  issued : ∀ r ∈ t.started, ∃ k, k ≤ t.engine.host.runIds ∧ r.id = Host.runId k
  /-- every run is as far as its task -/
  task {n : Nat} {r : Run} (here : t.started[n]? = some r) :
    ∃ task, t.engine.runner.tasks[n]? = some task ∧ task.aborting = false ∧
      t.engine.host.Attends r task.stage (doom n)
  /-- only they were canceled -/
  doomed {n : Nat} {reason : String} (doomed : doom n = some reason) : n < t.started.length
  /-- of other runs nothing is known but calls of their signals -/
  others {id : String} (new : id ∉ t.started.map Run.id) : ∃ cs, t.engine.host.Tells id (.calls cs)
  /-- whoever is canceled is in the queue -/
  alerted : t.engine.runner.Alerted t.engine.host

variable {doom : Nat → Option String} {e : Engine σ}

/-- At the beginning there are no runs and no tasks. -/
theorem tended_idle (settings : Settings) (store : σ) :
    (idle settings store).Tended fun _ => none where
  length := rfl
  ids := .nil
  issued _ inside := by cases inside
  task here := by cases here
  doomed never := by cases never
  others _ := ⟨[], rfl, rfl⟩
  alerted := by
    constructor
    · intro n t p here
      cases here
    · intro n t p next here
      cases here

namespace Tended

/-- So it stays if nothing comes to the runs but calls of their signals. Such calls are allowed for
at every place of a behaviour, and so each run is where it was. -/
theorem of_leaves (tended : t.Tended doom) (tasks : e.runner.tasks = t.engine.runner.tasks)
    (runIds : t.engine.host.runIds ≤ e.host.runIds)
    (leaves : ∀ id, t.engine.host.Leaves id e.host) (alerted : e.runner.Alerted e.host) :
    Tended doom { t with engine := e } where
  length := tasks ▸ tended.length
  ids := tended.ids
  issued r inside := by
    obtain ⟨k, le, same⟩ := tended.issued r inside
    exact ⟨k, Nat.le_trans le runIds, same⟩
  task {n r} here := by
    obtain ⟨task, there, live, attends⟩ := tended.task here
    exact ⟨task, tasks ▸ there, live, attends.of_leaves (leaves r.id)⟩
  doomed := tended.doomed
  others {id} new := (leaves id).exists_calls (tended.others new)
  alerted := alerted

/-- No two runs have the same ID, so that a signal belongs to one run only. -/
theorem eq_of_id_eq {m : Nat} {r' : Run} (tended : t.Tended doom) (here : t.started[n]? = some r)
    (here' : t.started[m]? = some r') (same : r.id = r'.id) : n = m := by
  have inside : n < (t.started.map Run.id).length := by
    rw [List.length_map]
    exact (List.getElem?_eq_some_iff.1 here).1
  refine (List.getElem?_inj inside tended.ids).1 ?_
  rw [List.getElem?_map, List.getElem?_map, here, here']
  exact congrArg some same

/-- No task is to be given up, as an engine never shuts its runner down. -/
theorem live {task : Task Run} (tended : t.Tended doom)
    (there : t.engine.runner.tasks[n]? = some task) :
    ∃ r, t.started[n]? = some r ∧ task.aborting = false ∧
      t.engine.host.Attends r task.stage (doom n) := by
  have inside : n < t.started.length := by
    rw [← tended.length]
    exact (List.getElem?_eq_some_iff.1 there).1
  have here := List.getElem?_eq_getElem inside
  obtain ⟨task', there', live, attends⟩ := tended.task here
  obtain rfl := Option.some.inj (there.symm.trans there')
  exact ⟨_, here, live, attends⟩

/-- Nothing that matters to the runs has changed; more tasks may be in the queue. What matters are
the signals and what the journal says of the writes. -/
theorem of_kept (tended : t.Tended doom) (tasks : e.runner.tasks = t.engine.runner.tasks)
    (queue : ∀ n ∈ t.engine.runner.queue, n ∈ e.runner.queue)
    (runIds : e.host.runIds = t.engine.host.runIds)
    (signals : e.host.signals = t.engine.host.signals)
    (journal : e.host.journal = t.engine.host.journal) : Tended doom { t with engine := e } := by
  apply tended.of_leaves tasks (Nat.le_of_eq runIds.symm)
  · exact Host.Leaves.of_eq signals journal
  · apply tended.alerted.mono tasks queue
    intro run fired
    rwa [Host.signal, signals] at fired

theorem of_eq (tended : t.Tended doom) (runner : e.runner = t.engine.runner)
    (host : e.host = t.engine.host) : Tended doom { t with engine := e } := by
  apply tended.of_kept
  · rw [runner]
  · intro n queued
    rwa [runner]
  · rw [host]
  · rw [host]
  · rw [host]

/-- The signal of a run is called. -/
theorem call (tended : t.Tended doom) (id : String) (c : SignalCall) :
    Tended doom { t with engine := t.engine.call id c } :=
  tended.of_leaves rfl (by cases c <;> exact Nat.le_refl _) (t.engine.host.leaves_called id c)
    (tended.alerted.rouse _)

/-- Somebody cancels a run, which may or may not be one that the engine knows. The entries of runs
that have ended are dropped first, and a signal is called at most. -/
theorem cancel (tended : t.Tended doom) (id reason : String) :
    (t.cancel id reason).Tended doom := by
  have pruned : Tended doom { t with engine := t.engine.prune } := tended.of_eq rfl rfl
  rw [Tally.cancel, Engine.cancel]
  split
  · exact pruned.call id (.cancel reason)
  · exact pruned

/-- If the run is live, it is doomed. Its signal has fired before it has ended, and from here on its
next turn is the last one; this is what the reason is kept for, since the signal alone does not tell
whether it came in time. -/
theorem condemn (tended : t.Tended doom) (here : t.started[n]? = some r)
    (on : t.engine.runner.hasEnded n = false) (first : doom n = none) (reason : String) :
    Tended (Function.update doom n (some ((t.engine.host.signal r.id).note.getD reason)))
      { t with engine := t.engine.call r.id (.cancel reason) } := by
  have called := tended.call r.id (.cancel reason)
  refine { called with task := ?task, doomed := ?doomed }
  case task =>
    intro m r' here'
    by_cases same : m = n
    · subst same
      obtain rfl := Option.some.inj (here.symm.trans here')
      obtain ⟨task, there, live, attends⟩ := tended.task here
      refine ⟨task, there, live, ?_⟩
      rw [Function.update_self]
      rw [first] at attends
      apply attends.cancel
      intro e ended
      simp [Runner.hasEnded, there, Task.hasEnded, ended] at on
    · rw [Function.update_of_ne same]
      exact called.task here'
  case doomed =>
    intro m first doomed
    by_cases same : m = n
    · subst same
      exact (List.getElem?_eq_some_iff.1 here).1
    · rw [Function.update_of_ne same] at doomed
      exact called.doomed doomed

/-- A run is started. Nobody has its ID yet, so the calls of its signal so far are all that is known
of it, and its behaviour begins with these. -/
theorem start (tended : t.Tended doom)
    (issued : ∃ k, k ≤ t.engine.host.runIds ∧ r.id = Host.runId k)
    (new : r.id ∉ t.started.map Run.id) :
    Tended doom ⟨t.engine.start r, t.started ++ [r]⟩ where
  length := by
    have spawned : (t.engine.start r).runner.tasks.length = t.engine.runner.tasks.length + 1 :=
      List.length_append
    rw [spawned, tended.length, List.length_append, List.length_singleton]
  ids := by
    rw [List.map_append]
    exact tended.ids.append (List.nodup_singleton _) (by simpa using new)
  issued r' inside := by
    rcases List.mem_append.1 inside with inside | inside
    · exact tended.issued r' inside
    · exact List.mem_singleton.1 inside ▸ issued
  task {n r'} here := by
    rcases getElem?_concat_eq_some.1 here with here | ⟨rfl, rfl⟩
    · obtain ⟨task, there, live, attends⟩ := tended.task here
      exact ⟨task, getElem?_concat_eq_some.2 (.inl there), live, attends⟩
    -- its signal may have been called before it starts, and then it starts with those calls
    · obtain ⟨cs, tells⟩ := tended.others new
      rw [← List.append_nil (Trace.calls cs)] at tells
      refine ⟨_, getElem?_concat_eq_some.2 (.inr ⟨tended.length.symm, rfl⟩), rfl, [], cs, .fresh,
        tells, ?_⟩
      intro reason doomed
      exact absurd (tended.doomed doomed) (Nat.lt_irrefl _)
  doomed doomed := by
    rw [List.length_append]
    exact Nat.lt_add_right _ (tended.doomed doomed)
  others {id} new' := by
    rw [List.map_append, List.mem_append, not_or] at new'
    exact tended.others new'.1
  alerted := tended.alerted.spawn r.operationName r.work

variable [Store σ]

/-- A run is created. That is a write of a run that is none of those that were started. -/
theorem create (tended : t.Tended doom) (caller : Caller) (bizId bizType : String)
    (d : Option Definition) :
    Tended doom { t with engine := (t.engine.create caller bizId bizType d).2 } := by
  have runner : (t.engine.create caller bizId bizType d).2.runner = t.engine.runner :=
    Engine.runner_create d
  refine tended.of_leaves (by rw [runner]) (Engine.runIds_create d) (Engine.leaves_create d) ?_
  rw [runner]
  apply tended.alerted.mono rfl
  · intro n queued
    exact queued
  · intro run fired
    rwa [Engine.signal_create] at fired

/-- Its ID is a new one: the engine has given smaller numbers to all the others. -/
theorem new_of_create {caller : Caller} {bizId bizType : String} {d : Option Definition}
    (tended : t.Tended doom) (made : (t.engine.create caller bizId bizType d).1 = .ok r) :
    r.id ∉ t.started.map Run.id := by
  intro known
  obtain ⟨r', inside, same⟩ := List.mem_map.1 known
  obtain ⟨k, le, given⟩ := tended.issued r' inside
  obtain rfl := Host.runId_injective (given.symm.trans (same.trans (Engine.id_create made).1))
  exact Nat.not_succ_le_self _ le

/-- So it can be started. -/
theorem run {caller : Caller} {name bizId bizType : String} (tended : t.Tended doom)
    (made : (t.engine.createNamed caller name bizId bizType).1 = .ok r) :
    Tended doom ⟨(t.engine.run caller name bizId bizType).2, t.started ++ [r]⟩ := by
  obtain ⟨d, made, ran⟩ := Engine.exists_create made
  obtain ⟨next, count⟩ := Engine.id_create made
  rw [ran]
  exact (tended.create caller bizId bizType d).start ⟨_, Nat.le_of_eq count.symm, next⟩
    (tended.new_of_create made)

/-- A task is carried on, along a behaviour of its run. To the other runs this is calls of their
signals at most, because what a run asks is on its own behalf. -/
theorem carryOn {rest : List Nat} {task : Task Run} {p : Program Run} (tended : t.Tended doom)
    (keeps : ∀ m ∈ t.engine.runner.queue, m ≠ n → m ∈ rest)
    (there : t.engine.runner.tasks[n]? = some task)
    (next : task.stage.next? t.engine.host = some p) :
    Tended doom { t with engine := { t.engine with
      runner := (({ t.engine.runner with queue := rest } : Runner Run).carryOn t.engine.host n
        task.operation p).1
      host := (t.engine.host.advance p).2 } } := by
  obtain ⟨r, here, live, attends⟩ := tended.live there
  have other {id : String} (ne : r.id ≠ id) :
      t.engine.host.Leaves id (t.engine.host.advance p).2 := attends.leaves next ne
  constructor
  case length => exact (Runner.length_carryOn ..).trans tended.length
  case ids => exact tended.ids
  case issued =>
    intro r' inside
    rw [Host.runIds_advance]
    exact tended.issued r' inside
  case task =>
    intro m r' here'
    by_cases same : m = n
    · subst same
      obtain rfl := Option.some.inj (here.symm.trans here')
      have own := Runner.task_carryOn { t.engine.runner with queue := rest } there t.engine.host
        task.operation p
      exact ⟨_, own, live, attends.turn next⟩
    -- the one that works asks under its own ID, so the others find their signals as they were
    · have ne : r.id ≠ r'.id := by
        intro same'
        exact same (tended.eq_of_id_eq here here' same').symm
      obtain ⟨task', there', live', attends'⟩ := tended.task here'
      refine ⟨task', (Runner.task_carryOn_of_ne _ same ..).trans there', live', ?_⟩
      exact attends'.of_leaves (other ne)
  case doomed => exact tended.doomed
  case others =>
    intro id new
    have ne : r.id ≠ id := by
      rintro rfl
      exact new (List.mem_map_of_mem (List.mem_of_getElem? here))
    exact (other ne).exists_calls (tended.others new)
  case alerted => exact tended.alerted.carryOn keeps there task.operation p

/-- A task has its turn, which leaves it alone if it cannot go on and carries it on otherwise. -/
theorem turn {rest : List Nat} (tended : t.Tended doom)
    (keeps : ∀ m ∈ t.engine.runner.queue, m ≠ n → m ∈ rest) :
    Tended doom { t with engine := t.engine.turn n rest } := by
  have live : ∀ task, t.engine.runner.tasks[n]? = some task → task.aborting = false := by
    intro task there
    obtain ⟨r, -, live, -⟩ := tended.live there
    exact live
  rw [Engine.turn]
  rcases ({ t.engine.runner with queue := rest } : Runner Run).poll_cases t.engine.host n live with
    ⟨vain, idle⟩ | ⟨task, p, there, next, polled⟩
  · rw [idle]
    exact tended.of_leaves rfl (Nat.le_refl _) (fun id => .refl id _)
      (tended.alerted.skip keeps vain)
  · rw [polled]
    exact tended.carryOn keeps there next

end Tended

/-! ## Moves -/

variable [Store σ]

/-- What can happen next at an engine while its runs work in the background. -/
inductive Moves : Tally σ → Tally σ → Prop where
  /-- a run with an ID of the engine is started, which none of the others has -/
  | starts {t : Tally σ} {r : Run}
    (issued : ∃ k, k ≤ t.engine.host.runIds ∧ r.id = Host.runId k)
    (new : r.id ∉ t.started.map Run.id) : Moves t ⟨t.engine.start r, t.started ++ [r]⟩
  /-- a run is created and started -/
  | runs {t : Tally σ} {r : Run} {caller : Caller} {name bizId bizType : String}
    (made : (t.engine.createNamed caller name bizId bizType).1 = .ok r) :
    Moves t ⟨(t.engine.run caller name bizId bizType).2, t.started ++ [r]⟩
  /-- a run is to be created, and is not started -/
  | creates {t : Tally σ} (caller : Caller) (bizId bizType : String) (d : Option Definition) :
    Moves t { t with engine := (t.engine.create caller bizId bizType d).2 }
  /-- somebody cancels a run -/
  | cancels {t : Tally σ} (id reason : String) : Moves t (t.cancel id reason)
  /-- somebody asks for the live runs -/
  | lists {t : Tally σ} : Moves t { t with engine := t.engine.running.2 }
  /-- a task has its turn; the other ones stay in the queue -/
  | turns {t : Tally σ} {n : Nat} {rest : List Nat}
    (keeps : ∀ m ∈ t.engine.runner.queue, m ≠ n → m ∈ rest) :
    Moves t { t with engine := t.engine.turn n rest }
  /-- those that have given way may go on -/
  | releases {t : Tally σ} : Moves t { t with engine := t.engine.release }
  /-- time passes -/
  | passes {t : Tally σ} {ms : Nat} (later : t.engine.host.clock ≤ ms) :
    Moves t { t with engine := t.engine.pass ms }
  /-- somebody who has the signal of a run calls it -/
  | calls {t : Tally σ} (id : String) (c : SignalCall) :
    Moves t { t with engine := t.engine.call id c }
  /-- something happens to what the engine works with -/
  | elsewhere {t : Tally σ} (store : σ) (faults : Faults) (oracle : Oracle)
    (handedOut : List (String × String)) (registry : Registry) :
    Moves t { t with engine := { t.engine with
      registry := registry
      host := { t.engine.host with
        store := store, faults := faults, oracle := oracle, handedOut := handedOut } } }

/-- Where some moves lead. -/
abbrev Comes : Tally σ → Tally σ → Prop := Relation.ReflTransGen Moves

/-- Runs that were started stay so, and keep their numbers. -/
theorem Comes.started_prefix (comes : t.Comes t') : t.started <+: t'.started := by
  induction comes with
  | refl => exact List.prefix_rfl
  | tail _ next ih =>
    refine ih.trans ?_
    cases next with
    | starts | runs => exact List.prefix_append ..
    | _ => exact List.prefix_rfl

/-- Whatever happens, to the signals of runs it comes to calls. A signal that has fired therefore
stays so. -/
theorem Moves.exists_calls (moves : t.Moves t') (id : String) :
    ∃ cs, Host.Calls id cs t.engine.host t'.engine.host := by
  have same {h : Host σ} (signals : h.signals = t.engine.host.signals) :
      ∃ cs, Host.Calls id cs t.engine.host h :=
    ⟨[], by rw [Host.Calls, Host.signal, signals, List.foldr_nil, Host.signal]⟩
  cases moves with
  | runs made =>
    obtain ⟨d, -, ran⟩ := Engine.exists_create made
    rw [ran]
    exact (Engine.leaves_create d id).calls
  | creates caller bizId bizType d => exact (Engine.leaves_create d id).calls
  | cancels other reason =>
    rw [Tally.cancel, Engine.cancel]
    split
    · exact (t.engine.host.leaves_called other (.cancel reason) id).calls
    · exact same rfl
  | calls other c => exact (t.engine.host.leaves_called other c id).calls
  | turns => exact Runner.exists_calls_poll id _ _ _
  | starts | lists | releases | passes | elsewhere => exact same rfl

/-- The first reason that a signal is given stays, as later calls do not replace it. -/
theorem Comes.note {reason : String} (comes : t.Comes t')
    (given : (t.engine.host.signal id).note = some reason) :
    (t'.engine.host.signal id).note = some reason := by
  induction comes with
  | refl => exact given
  | tail _ next ih =>
    obtain ⟨cs, calls⟩ := next.exists_calls id
    exact Host.note_of_calls calls ih

namespace Tended

/-- Whatever happens next, the tasks are tended. Those who are doomed stay so, and nobody else is
doomed by this: to be doomed is to be canceled by the engine, which is looked at separately. -/
theorem moves (tended : t.Tended doom) (moves : t.Moves t') : t'.Tended doom := by
  cases moves with
  | starts issued new => exact tended.start issued new
  | runs made => exact tended.run made
  | creates caller bizId bizType d => exact tended.create caller bizId bizType d
  | cancels id reason => exact tended.cancel id reason
  | lists => exact tended.of_eq rfl rfl
  | turns keeps => exact tended.turn keeps
  | releases | passes =>
    refine tended.of_kept rfl ?_ rfl rfl rfl
    intro n queued
    exact (Runner.mem_queue_enqueue _).2 (.inl queued)
  | calls id c => exact tended.call id c
  | elsewhere => exact tended.of_kept rfl (fun n queued => queued) rfl rfl rfl

/-- So they stay. -/
theorem comes (tended : t.Tended doom) (comes : t.Comes t') : t'.Tended doom := by
  induction comes with
  | refl => exact tended
  | tail _ next ih => exact ih.moves next

end Tended

end Tally

end Runbook
