import Mathlib.Data.List.Induction
import Runbook.Proofs.Crowd

/-!
# Tasks in the background

The tasks of a runner are a crowd: whatever the runner does, they do in some order.

* `Stage.Shows`, `Runner.Tends` — the members of a crowd are the tasks of a runner, which may come
  to other values in the end.
* `Runner.Tends.poll` — a task that is polled has its turn.
* `Runner.Ready` — whoever can go on is in the queue or has given way. So it stays
  (`Runner.Ready.poll`).
* `Runner.Tends.workFor` — letting the tasks work is a row of moves. Time passes only while nobody
  can go on.
-/

namespace Runbook

open Program

variable {σ α β : Type} {f : α → β} {k : Nat}

/-! ## Other values -/

/-- The program, with other values in the end. -/
def Program.mapped (f : α → β) (p : Program α) : Program β := p.bind fun a => done (f a)

namespace Standing

/-- Where a program with other values stands then. -/
def mapped (f : α → β) : Standing α → Standing β
  | ended a => ended (f a)
  | panicked => panicked
  | waiting p next => waiting p fun w => (next w).mapped f

/-- The stage of a task that stands so. -/
def stage : Standing α → Stage α
  | ended a => .ended (.value a)
  | panicked => .ended .panicked
  | waiting p next => .waiting p next

end Standing

/-- What is made of the value of a program does not matter to the host. -/
theorem Host.advance_mapped [Store σ] (f : α → β) (p : Program α) (h : Host σ) :
    h.advance (p.mapped f) = ((h.advance p).1.mapped f, (h.advance p).2) := by
  induction p generalizing h with
  | done a => rfl
  | panic => rfl
  | ask r next ih => exact ih _ _
  | pause p next ih =>
    have mapped : (Program.pause p next).mapped f = .pause p fun w => (next w).mapped f := rfl
    rw [mapped]
    cases ends : (p.fixedAt h.clock).ending h.clock false with
    | none => rw [advance_pause_of_waiting _ _ ends, advance_pause_of_waiting _ _ ends]; rfl
    | some w =>
      rw [advance_pause_of_ending _ _ ends, advance_pause_of_ending _ _ ends]
      exact ih w h

/-- A program does not stop at a pause that is over. The host passes such a pause at once, without a
turn for anybody else. -/
theorem Host.lasts_of_advance [Store σ] {p : Program α} {h : Host σ} {q : Pause}
    {next : Wake → Program α} (waits : (h.advance p).1 = .waiting q next) :
    q.ending h.clock false = none := by
  induction p generalizing h with
  | done a => cases waits
  | panic => cases waits
  | ask r on ih =>
    rw [← h.clock_answer r]
    exact ih _ waits
  | pause p on ih =>
    cases ends : (p.fixedAt h.clock).ending h.clock false with
    | none =>
      rw [advance_pause_of_waiting _ _ ends] at waits
      cases waits
      exact ends
    | some w =>
      rw [advance_pause_of_ending _ _ ends] at waits
      exact ih w waits

/-- A pause that is over when everybody has had a turn, but not before, is to give way. -/
theorem Pause.turn_of_ending {p : Pause} {clock : Nat} (before : p.ending clock false = none)
    (after : p.ending clock true ≠ none) : p.wait = .turn := by
  obtain ⟨run, wait, deadline⟩ := p
  cases wait with
  | turn => rfl
  | _ => exact absurd before after

/-- A pause that lasts has no alarm before. -/
theorem Pause.lt_of_lasts {p : Pause} {clock alarm : Nat} {turn : Bool}
    (lasts : p.ending clock turn = none) (listed : alarm ∈ p.alarms) : clock < alarm := by
  obtain ⟨run, wait, deadline⟩ := p
  rw [ending] at lasts
  split at lasts
  · cases lasts
  · next unreached =>
    split at lasts
    · cases lasts
    · next unexpired =>
      rcases List.mem_append.1 listed with reached | expires
      · cases wait with
        | «until» ms =>
          obtain rfl := List.mem_singleton.1 reached
          simpa [Wait.reached] using unreached
        | _ => cases reached
      · obtain rfl := Option.mem_toList.1 expires
        simpa using unexpired

/-- Who need not wait any longer is canceled, or the pause is over. -/
theorem Host.wake?_ne_none {h : Host σ} {p : Pause} :
    h.wake? p ≠ none ↔ (h.signal p.run).fired = true ∨ p.ending h.clock true ≠ none := by
  rw [wake?]
  split
  · next fired => simp [fired]
  · next quiet => simp [quiet]

/-- What no answer changes, carrying on a program does not change either. -/
theorem Host.fixed_advance [Store σ] {γ : Type} {f : Host σ → γ}
    (answers : ∀ h r, f (answer h r).2 = f h) (p : Program α) (h : Host σ) :
    f (h.advance p).2 = f h := by
  induction p generalizing h with
  | done a => rfl
  | panic => rfl
  | ask r on ih => exact (ih _ _).trans (answers h r)
  | pause p on ih =>
    cases ends : (p.fixedAt h.clock).ending h.clock false with
    | none => rw [advance_pause_of_waiting _ _ ends]
    | some w =>
      rw [advance_pause_of_ending _ _ ends]
      exact ih w h

/-- Carrying on a program takes no time, -/
theorem Host.clock_advance [Store σ] (p : Program α) (h : Host σ) :
    (h.advance p).2.clock = h.clock :=
  fixed_advance (f := Host.clock) clock_answer p h

/-- and gives no IDs to runs. -/
theorem Host.runIds_advance [Store σ] (p : Program α) (h : Host σ) :
    (h.advance p).2.runIds = h.runIds :=
  fixed_advance (f := Host.runIds) (fun h r => (h.fixed_answer r).2.1) p h

/-! ## The tasks of a crowd -/

/-- A task that is so far, as its member of the crowd is, but for its value in the end. -/
inductive Stage.Shows (f : α → β) : Stage β → Stance α → Prop where
  /-- it has not begun -/
  | fresh (p : Program α) : Shows f (.fresh (p.mapped f)) (.fresh 0 p)
  /-- it waits -/
  | waiting (p : Pause) (next : Wake → Program α) :
      Shows f (.waiting p fun w => (next w).mapped f) (.asleep p next)
  /-- it has ended with a value -/
  | value (a : α) : Shows f (.ended (.value (f a))) (.awake (.done a))
  /-- it has ended without one -/
  | panicked : Shows f (.ended .panicked) (.awake .panic)

/-- Where a program stands is what its stance is. -/
theorem Standing.shows (f : α → β) (s : Standing α) : (s.mapped f).stage.Shows f s.stance := by
  cases s with
  | ended a => exact .value a
  | panicked => exact .panicked
  | waiting p next => exact .waiting p next

namespace Runner

/-- The tasks are the members of the crowd, by their numbers. None is to be given up. -/
structure Tends (f : α → β) (r : Runner β) (c : Crowd (Fin k) σ α) : Prop where
  /-- so many -/
  length : r.tasks.length = k
  /-- each one is as far as its member -/
  task (i : Fin k) : ∃ t, r.tasks[i.val]? = some t ∧ t.aborting = false ∧
    t.stage.Shows f (c.stance i)

variable {r : Runner β} {h : Host σ} {c : Crowd (Fin k) σ α} {n m : Nat} {t : Task β}

/-! ### What the steps of a runner leave -/

section

variable (r)

@[simp] theorem tasks_enqueue (ns : List Nat) : (r.enqueue ns).tasks = r.tasks := rfl

@[simp] theorem givenWay_enqueue (ns : List Nat) : (r.enqueue ns).givenWay = r.givenWay := rfl

/-- Who is in the queue stays there, and the new ones are there, too. -/
theorem mem_queue_enqueue {ns : List Nat} : n ∈ (r.enqueue ns).queue ↔ n ∈ r.queue ∨ n ∈ ns := by
  by_cases queued : n ∈ r.queue <;> simp [enqueue, queued]

/-- These are the tasks that wait in such a way. -/
theorem mem_waitingIn {holds : Pause → Bool} : n ∈ r.waitingIn holds ↔
    ∃ t p next, r.tasks[n]? = some t ∧ t.stage = .waiting p next ∧ holds p = true := by
  constructor
  · intro listed
    obtain ⟨-, found⟩ := List.mem_filter.1 listed
    obtain ⟨p, waits, holds⟩ := (Option.any_eq_true ..).1 found
    obtain ⟨t, here, pause⟩ := Option.bind_eq_some_iff.1 waits
    rw [Task.pause?] at pause
    split at pause
    · next p' next stage =>
      obtain rfl := Option.some.inj pause
      exact ⟨t, p', next, here, stage, holds⟩
    · cases pause
  · rintro ⟨t, p, next, here, stage, holds⟩
    have inside : n < r.tasks.length := by
      by_contra outside
      rw [List.getElem?_eq_none (Nat.le_of_not_lt outside)] at here
      cases here
    exact List.mem_filter.2 ⟨List.mem_range.2 inside, by simp [here, Task.pause?, stage, holds]⟩

/-- A task that has stopped is at the stage where it stands. -/
theorem tasks_settle (operation : String) (s : Standing β) :
    (r.settle n operation s).tasks = r.tasks.modify n fun t => { t with stage := s.stage } := by
  cases s with
  | waiting p next =>
    rw [settle]
    split <;> rfl
  | _ => rfl

/-- Nobody comes into the queue when a task stops; a task that gives way is noted elsewhere. -/
theorem queue_settle (operation : String) (s : Standing β) :
    (r.settle n operation s).queue = r.queue := by
  cases s with
  | waiting p next =>
    rw [settle]
    split <;> rfl
  | _ => rfl

/-- It has given way, if it did so. -/
theorem mem_givenWay_settle {operation : String} {s : Standing β} :
    m ∈ (r.settle n operation s).givenWay ↔
      m ∈ r.givenWay ∨ m = n ∧ ∃ p next, s = .waiting p next ∧ p.wait = .turn := by
  cases s with
  | waiting p next =>
    rw [settle]
    split
    · next turn => simp [turn, or_comm, move]
    · next turn => simp [turn, move]
  | _ => simp [settle, move]

variable [Store σ]

/-- No task is lost when one is carried on. -/
theorem length_carryOn (h : Host σ) (operation : String) (p : Program β) :
    (r.carryOn h n operation p).1.tasks.length = r.tasks.length := by
  have tasks : (r.carryOn h n operation p).1.tasks = _ := r.tasks_settle operation _
  rw [tasks, List.length_modify]

/-- The task that is carried on is at the stage where its program stands. -/
theorem task_carryOn (here : r.tasks[n]? = some t) (h : Host σ) (operation : String)
    (p : Program β) : (r.carryOn h n operation p).1.tasks[n]? =
      some { t with stage := (h.advance p).1.stage } := by
  have tasks : (r.carryOn h n operation p).1.tasks = _ := r.tasks_settle operation _
  rw [tasks, List.getElem?_modify_eq, here]
  rfl

/-- The other ones are at the stages where they were, -/
theorem task_carryOn_of_ne (ne : m ≠ n) (h : Host σ) (operation : String) (p : Program β) :
    (r.carryOn h n operation p).1.tasks[m]? = r.tasks[m]? := by
  have tasks : (r.carryOn h n operation p).1.tasks = _ := r.tasks_settle operation _
  rw [tasks, List.getElem?_modify_ne _ _ ne.symm]

/-- and have given way if they had. -/
theorem givenWay_carryOn (h : Host σ) (operation : String) (p : Program β) :
    (r.carryOn h n operation p).1.givenWay = (r.settle n operation (h.advance p).1).givenWay := rfl

/-- Those who have been canceled by the turn are put in the queue, and nobody leaves it. -/
theorem mem_queue_carryOn {operation : String} {p : Program β} :
    m ∈ (r.carryOn h n operation p).1.queue ↔
      m ∈ r.queue ∨ m ∈ (r.settle n operation (h.advance p).1).canceled (h.advance p).2 := by
  rw [carryOn]
  dsimp only
  rw [mem_queue_enqueue, queue_settle, List.partition_eq_filter_filter]
  refine or_congr_right ?_
  by_cases same : m = n <;> simp [same]

end

/-! ### Turns -/

section

variable [Store σ]

/-- The member of the crowd does the same, and the hosts are one and the same. -/
theorem Tends.carryOn (tends : r.Tends f c) (i : Fin k) (operation : String) (p : Program α) :
    (r.carryOn c.host i operation (p.mapped f)).1.Tends f (c.carryOn i p) ∧
      (r.carryOn c.host i operation (p.mapped f)).2 = (c.carryOn i p).host := by
  have advanced := c.host.advance_mapped f p
  refine ⟨⟨(r.length_carryOn ..).trans tends.length, fun j => ?_⟩, congrArg Prod.snd advanced⟩
  obtain ⟨t, here, live, shows⟩ := tends.task j
  by_cases same : j = i
  · subst same
    refine ⟨_, r.task_carryOn here .., live, ?_⟩
    have stance : (c.carryOn j p).stance j = (c.host.advance p).1.stance := Function.update_self ..
    rw [stance, advanced]
    exact (c.host.advance p).1.shows f
  · have stance : (c.carryOn i p).stance j = c.stance j := Function.update_of_ne same ..
    have apart : j.val ≠ i.val := fun h => same (Fin.ext h)
    exact ⟨t, (r.task_carryOn_of_ne apart ..).trans here, live, stance ▸ shows⟩

/-- A task that is polled has its turn. -/
theorem Tends.poll (tends : r.Tends f c) (i : Fin k) :
    (r.poll c.host i).1.Tends f (c.turn i) ∧ (r.poll c.host i).2 = (c.turn i).host := by
  obtain ⟨⟨operation, stage, aborting⟩, here, rfl, shows⟩ := tends.task i
  rw [Runner.poll, here, Crowd.turn]
  generalize stance : c.stance i = s at shows
  cases shows with
  | fresh p => simpa using tends.carryOn i operation p
  | value a =>
    dsimp only
    rw [Crowd.carryOn_done stance]
    exact ⟨tends, rfl⟩
  | panicked =>
    dsimp only
    rw [Crowd.carryOn_panic stance]
    exact ⟨tends, rfl⟩
  | waiting p next =>
    cases wake : c.host.wake? p with
    | none => simpa [wake] using tends
    | some w => simpa [wake] using tends.carryOn i operation (next w)

end

/-! ### The queue -/

/-- Whoever can go on is in the queue, or has given way. -/
structure Ready (r : Runner β) (h : Host σ) : Prop where
  /-- tasks that have not begun -/
  fresh {n : Nat} {t : Task β} {p : Program β} (here : r.tasks[n]? = some t)
    (stage : t.stage = .fresh p) : n ∈ r.queue
  /-- tasks that need not wait any longer -/
  waiting {n : Nat} {t : Task β} {p : Pause} {next : Wake → Program β}
    (here : r.tasks[n]? = some t) (stage : t.stage = .waiting p next) (ends : h.wake? p ≠ none) :
    n ∈ r.queue ∨ n ∈ r.givenWay

/-- It does not matter to whoever waits which tasks are carried on, if none of the others is woken
by that. Who is woken by a cancellation is put in the queue; nothing else can wake anybody, as a
turn takes no time. -/
theorem Ready.carryOn [Store σ] {rest : List Nat} (ready : r.Ready h) (queue : r.queue = n :: rest)
    (task : r.tasks[n]? = some t) (operation : String) (p : Program β) :
    (({ r with queue := rest } : Runner β).carryOn h n operation p).1.Ready
      (({ r with queue := rest } : Runner β).carryOn h n operation p).2 := by
  change Ready _ (h.advance p).2
  have left {m : Nat} (ne : m ≠ n) (queued : m ∈ r.queue) : m ∈ rest := by
    rw [queue] at queued
    exact List.mem_of_ne_of_mem ne queued
  have own := task_carryOn { r with queue := rest } task h operation p
  have same {m : Nat} (ne : m ≠ n) :=
    task_carryOn_of_ne { r with queue := rest } ne h operation p
  refine ⟨fun {m t' q} here stage => ?_, fun {m t' q next} here stage ends => ?_⟩
  · by_cases ne : m = n
    · subst ne
      obtain rfl := Option.some.inj (own.symm.trans here)
      revert stage
      cases (h.advance p).1 <;> exact fun never => by cases never
    · exact (mem_queue_carryOn _).2 (.inl (left ne (ready.fresh ((same ne).symm.trans here) stage)))
  · rw [givenWay_carryOn, mem_queue_carryOn, mem_givenWay_settle]
    rcases Host.wake?_ne_none.1 ends with fired | ends
    · exact .inl (.inr ((mem_waitingIn _).2 ⟨t', q, next, here, stage, fired⟩))
    · by_cases ne : m = n
      · subst ne
        obtain rfl := Option.some.inj (own.symm.trans here)
        have stands : (h.advance p).1 = .waiting q next := by
          revert stage
          cases (h.advance p).1 <;> exact fun stage => by cases stage <;> rfl
        rw [Host.clock_advance] at ends
        exact .inr (.inr ⟨rfl, q, next, stands, Pause.turn_of_ending
          (Host.lasts_of_advance stands) ends⟩)
      · rw [Host.clock_advance] at ends
        rcases ready.waiting ((same ne).symm.trans here) stage (Host.wake?_ne_none.2 (.inr ends))
          with queued | given
        · exact .inl (.inl (left ne queued))
        · exact .inr (.inl given)

/-- If nobody is in the queue and nobody has given way, nobody can go on. So time may pass. -/
theorem Ready.vain {p : Pause} {next : Wake → Program β} (ready : r.Ready h) (queue : r.queue = [])
    (givenWay : r.givenWay = []) (here : r.tasks[n]? = some t) (stage : t.stage = .waiting p next) :
    h.wake? p = none := by
  by_contra ends
  rcases ready.waiting here stage ends with queued | given
  · simp [queue] at queued
  · simp [givenWay] at given

/-- Neither is its signal called, nor is its pause over. -/
theorem Ready.lasts {p : Pause} {next : Wake → Program β} (ready : r.Ready h) (queue : r.queue = [])
    (givenWay : r.givenWay = []) (here : r.tasks[n]? = some t) (stage : t.stage = .waiting p next) :
    (h.signal p.run).fired = false ∧ p.ending h.clock true = none := by
  have vain := ready.vain queue givenWay here stage
  rw [Host.wake?] at vain
  split at vain
  · cases vain
  · next quiet => exact ⟨by simpa using quiet, vain⟩

/-- A task that cannot go on leaves the queue without loss. -/
theorem Ready.skip {rest : List Nat} (ready : r.Ready h) (queue : r.queue = n :: rest)
    (begun : ∀ t p, r.tasks[n]? = some t → t.stage ≠ .fresh p)
    (vain : ∀ t p next, r.tasks[n]? = some t → t.stage = .waiting p next → h.wake? p = none) :
    ({ r with queue := rest } : Runner β).Ready h where
  fresh {m t p} here stage := by
    have queued := ready.fresh here stage
    rw [queue] at queued
    refine List.mem_of_ne_of_mem (fun same => ?_) queued
    subst same
    exact begun t p here stage
  waiting {m t p next} here stage ends := by
    refine (ready.waiting here stage ends).imp_left fun queued => ?_
    rw [queue] at queued
    refine List.mem_of_ne_of_mem (fun same => ?_) queued
    subst same
    exact ends (vain t p next here stage)

/-- Whoever can go on after a turn is in the queue, or has given way. This is what keeps a task from
being forgotten: it would be if it could go on and were in neither. -/
theorem Ready.poll [Store σ] {rest : List Nat} (ready : r.Ready h) (queue : r.queue = n :: rest)
    (live : ∀ t, r.tasks[n]? = some t → t.aborting = false) :
    (({ r with queue := rest } : Runner β).poll h n).1.Ready
      (({ r with queue := rest } : Runner β).poll h n).2 := by
  rw [Runner.poll]
  dsimp only
  cases task : r.tasks[n]? with
  | none => exact ready.skip queue (by simp [task]) (by simp [task])
  | some t =>
    obtain ⟨operation, stage, aborting⟩ := t
    obtain rfl : aborting = false := live _ task
    have known {t : Task β} (here : r.tasks[n]? = some t) : ⟨operation, stage, false⟩ = t :=
      Option.some.inj (task.symm.trans here)
    cases stage with
    | ended e =>
      refine ready.skip queue (fun t p here fresh => ?_) fun t p next here waits => ?_
      · cases known here
        cases fresh
      · cases known here
        cases waits
    | fresh p => exact ready.carryOn queue task operation p
    | waiting p next =>
      cases wake : h.wake? p with
      | some w => simpa [wake] using ready.carryOn queue task operation (next w)
      | none =>
        have skipped : ({ r with queue := rest } : Runner β).Ready h := by
          refine ready.skip queue (fun t p here fresh => ?_) fun t p next here waits => ?_
          · cases known here
            cases fresh
          · cases known here
            cases waits
            exact wake
        simpa [wake] using skipped

/-- Whoever has given way may go on. -/
theorem Ready.release (ready : r.Ready h) : r.release.Ready h where
  fresh here stage := r.mem_queue_enqueue.2 (.inl (ready.fresh here stage))
  waiting here stage ends := .inl (r.mem_queue_enqueue.2 (ready.waiting here stage ends))

/-- When a signal has been called, the tasks that wait for it may go on. -/
theorem Ready.rouse (ready : r.Ready h) (run : String) (call : SignalCall) :
    (r.rouse (h.called run call)).Ready (h.called run call) where
  fresh here stage := r.mem_queue_enqueue.2 (.inl (ready.fresh here stage))
  waiting {n t p next} here stage ends := by
    rcases Host.wake?_ne_none.1 ends with fired | ends
    · have listed : n ∈ r.canceled (h.called run call) :=
        r.mem_waitingIn.2 ⟨t, p, next, here, stage, fired⟩
      exact .inl (r.mem_queue_enqueue.2 (.inr listed))
    · rw [Host.clock_called] at ends
      exact (ready.waiting here stage (Host.wake?_ne_none.2 (.inr ends))).imp_left fun queued =>
        r.mem_queue_enqueue.2 (.inl queued)

/-- When time has passed while nobody could go on, the tasks whose time has come may. Those are the
ones whose alarms are over now, as all signals are as they were. -/
theorem Ready.ring (ready : r.Ready h) (queue : r.queue = []) (givenWay : r.givenWay = [])
    (ms : Nat) : (r.ring ms).Ready { h with clock := ms } where
  fresh here stage := r.mem_queue_enqueue.2 (.inl (ready.fresh here stage))
  waiting {n t p next} here stage ends := by
    obtain ⟨alarm, listed, due⟩ :=
      Stance.exists_alarm (ready.vain queue givenWay here stage) ends
    refine .inl (r.mem_queue_enqueue.2 (.inr (r.mem_waitingIn.2 ⟨t, p, next, here, stage, ?_⟩)))
    exact List.any_eq_true.2 ⟨alarm, listed, by simpa using due⟩

/-! ### Letting the tasks work -/

/-- It depends on the tasks only. -/
theorem Tends.of_tasks_eq {r' : Runner β} (tends : r.Tends f c) (same : r'.tasks = r.tasks) :
    r'.Tends f c :=
  ⟨same ▸ tends.length, same ▸ tends.task⟩

/-- A task that has ended with a value has done so as its member did. -/
theorem Tends.outcome {i : Fin k} {b : β} (tends : r.Tends f c)
    (ended : r.ending i = some (.value b)) :
    ∃ a, (c.stance i).outcome? = some (some a) ∧ b = f a := by
  obtain ⟨⟨operation, stage, aborting⟩, here, -, shows⟩ := tends.task i
  simp only [ending, here, Option.bind_some, Task.ending] at ended
  generalize c.stance i = s at shows
  cases shows with
  | value a =>
    cases ended
    exact ⟨a, rfl, rfl⟩
  | _ => cases ended

/-- Tasks that wait rest until the next alarm: none of them has one before. -/
theorem Tends.rests {a : Await} {ms : Nat} (tends : r.Tends f c) (ready : r.Ready c.host)
    (queue : r.queue = []) (givenWay : r.givenWay = [])
    (next : r.nextAlarm c.host a = some ms) :
    c.host.clock ≤ ms ∧ ∀ i, (c.stance i).Rests c.host ms := by
  refine ⟨Nat.le_of_lt (lt_of_nextAlarm next), fun i => ?_⟩
  obtain ⟨t, here, -, shows⟩ := tends.task i
  generalize c.stance i = s at shows
  generalize stage : t.stage = st at shows
  cases shows with
  | fresh p => simpa [queue] using ready.fresh here stage
  | value a => trivial
  | panicked => trivial
  | waiting p on =>
    have lasts := (ready.lasts queue givenWay here stage).2
    exact ⟨ready.vain queue givenWay here stage, fun alarm listed =>
      le_of_nextAlarm next here stage listed (Pause.lt_of_lasts lasts listed)⟩

/-- The runner and its host have come so far by moves of the crowd, and whoever can go on is in the
queue or has given way. -/
def Reached [Store σ] (f : α → β) (c : Crowd (Fin k) σ α) (r : Runner β) (h : Host σ) : Prop :=
  ∃ ms c', c.Leads ms c' ∧ c'.host = h ∧ r.Tends f c' ∧ r.Ready h

namespace Reached

variable [Store σ] (reached : r.Reached f c h)
include reached

/-- A task has its turn, which is a row of steps of its member. -/
theorem poll {rest : List Nat} (queue : r.queue = n :: rest) :
    (({ r with queue := rest } : Runner β).poll h n).1.Reached f c
      (({ r with queue := rest } : Runner β).poll h n).2 := by
  obtain ⟨ms, c', leads, rfl, tends, ready⟩ := reached
  have tends' : ({ r with queue := rest } : Runner β).Tends f c' := tends.of_tasks_eq rfl
  by_cases inside : n < k
  · have live : ∀ t, r.tasks[n]? = some t → t.aborting = false := by
      intro t here
      obtain ⟨t', here', live, -⟩ := tends.task ⟨n, inside⟩
      exact Option.some.inj (here.symm.trans here') ▸ live
    obtain ⟨steps, turn⟩ := c'.leads_turn ⟨n, inside⟩
    obtain ⟨polled, host⟩ := tends'.poll ⟨n, inside⟩
    exact ⟨_, _, leads.trans turn, host.symm, polled, ready.poll queue live⟩
  -- a number no task has, for which the runner does nothing
  · have none : r.tasks[n]? = none :=
      List.getElem?_eq_none (tends.length ▸ Nat.le_of_not_lt inside)
    have ready' := ready.poll queue fun t here => by cases none.symm.trans here
    have idle : ({ r with queue := rest } : Runner β).poll c'.host n =
        ({ r with queue := rest }, c'.host) := by
      rw [Runner.poll]
      dsimp only
      rw [none]
    rw [idle] at ready' ⊢
    exact ⟨ms, c', leads, rfl, tends', ready'⟩

/-- Those that have given way may go on. -/
theorem release : r.release.Reached f c h := by
  obtain ⟨ms, c', leads, host, tends, ready⟩ := reached
  exact ⟨ms, c', leads, host, tends.of_tasks_eq rfl, ready.release⟩

/-- Time passes until the next alarm. -/
theorem ring {a : Await} {ms : Nat} (queue : r.queue = []) (givenWay : r.givenWay = [])
    (next : r.nextAlarm h a = some ms) : (r.ring ms).Reached f c { h with clock := ms } := by
  obtain ⟨moves, c', leads, rfl, tends, ready⟩ := reached
  obtain ⟨later, rests⟩ := tends.rests ready queue givenWay next
  exact ⟨_, _, leads.trans (.step (.passes later rests) .here), rfl, ⟨tends.length, tends.task⟩,
    ready.ring queue givenWay ms⟩

/-- The signal of a run is called. -/
theorem called (i : Fin k) (call : SignalCall) :
    (r.rouse (h.called (c.run i) call)).Reached f c (h.called (c.run i) call) := by
  obtain ⟨ms, c', leads, rfl, tends, ready⟩ := reached
  rw [← leads.run_eq]
  exact ⟨_, _, leads.trans (.step .called .here), rfl, ⟨tends.length, tends.task⟩,
    ready.rouse _ call⟩

/-- Letting the tasks work is a row of moves: turns while there is a queue, then those that have
given way, and then time, up to the next alarm and no further. -/
theorem workFor (a : Await) (fuel : Nat) :
    (Runner.workFor a fuel r h).2.1.Reached f c (Runner.workFor a fuel r h).2.2 := by
  apply workFor_induct (P := fun r h => r.Reached f c h)
  case polls =>
    intro r h n rest queue reached
    exact reached.poll queue
  case releases =>
    intro r h reached
    exact reached.release
  case rings =>
    intro r h ms queue givenWay next reached
    exact reached.ring queue givenWay next
  case holds => exact reached

end Reached

/-! ### Runs in the background -/

/-- A runner with tasks for these runs, which have not begun. -/
def launched (runs : List Run) : Runner Run :=
  runs.foldl (fun r run => (r.spawn run.operationName run.work).2) empty

/-- Each run has one task, which has not begun, -/
theorem tasks_launched (runs : List Run) : (launched runs).tasks =
    runs.map fun run => ⟨run.operationName, .fresh run.work, false⟩ := by
  induction runs using List.reverseRecOn with
  | nil => rfl
  | append_singleton runs run ih =>
    rw [launched, List.foldl_append, List.map_append, ← ih]
    rfl

/-- and they are in the queue in their order. -/
theorem queue_launched (runs : List Run) : (launched runs).queue = List.range runs.length := by
  induction runs using List.reverseRecOn with
  | nil => rfl
  | append_singleton runs run ih =>
    have length : (launched runs).tasks.length = runs.length := by simp [tasks_launched]
    have queue : (launched (runs ++ [run])).queue =
        (launched runs).queue ++ [(launched runs).tasks.length] := by
      rw [launched, List.foldl_append]
      rfl
    rw [queue, ih, length, List.length_append, List.length_singleton, List.range_succ]

/-- The tasks are a crowd that has not begun. -/
theorem reached_launched [Store σ] (h : Host σ) (runs : List Run) :
    (launched runs).Reached Prod.snd
      (Crowd.start h runs.get fun _ => 0) h := by
  have task {n : Nat} {t : Task Run} (here : (launched runs).tasks[n]? = some t) :
      ∃ run, runs[n]? = some run ∧ t = ⟨run.operationName, .fresh run.work, false⟩ := by
    rw [tasks_launched, List.getElem?_map] at here
    obtain ⟨run, found, rfl⟩ := Option.map_eq_some_iff.1 here
    exact ⟨run, found, rfl⟩
  refine ⟨[], _, .here, rfl, ⟨by simp [tasks_launched], fun i => ?_⟩, ?_, ?_⟩
  · exact ⟨⟨(runs.get i).operationName, .fresh (runs.get i).work, false⟩,
      by simp [tasks_launched], rfl, .fresh (runs.get i).start⟩
  · intro n t p here stage
    obtain ⟨run, found, -⟩ := task here
    rw [queue_launched]
    exact List.mem_range.2 (List.getElem?_eq_some_iff.1 found).1
  · intro n t p next here stage
    obtain ⟨run, -, rfl⟩ := task here
    cases stage

end Runner

end Runbook
