import Runbook.Proofs.Tally

/-!
# The live runs of an engine

An engine keeps track of exactly the runs that were started at it and have not ended, and a live run
that is canceled ends as canceled.

* `Tally.Known`, `Tally.Listed` — the engine keeps track of runs that were started, and of all that
  have not ended. `Tally.Listed.comes`: so it does, whatever happens.
* `Runner.works_await`, `Tally.comes_await` — to wait for something while the tasks work is a row of
  moves.
* `Tally.Tended.hasEnded_workFor` — a run that was canceled ends as soon as the tasks work.
* `Tally.exact_of_comes` — what the engine says of its live runs is exact, and whoever is canceled
  while it is live yields.
-/

namespace Runbook

variable {σ α : Type}

/-! ## What an engine keeps track of -/

namespace Runner

/-- A new task has not ended. -/
@[simp] theorem hasEnded_spawn (r : Runner α) (operation : String) (p : Program α) (n : Nat) :
    (r.spawn operation p).2.hasEnded n = r.hasEnded n := by
  rw [hasEnded, hasEnded]
  cases here : r.tasks[n]? with
  | some t =>
    have there : (r.spawn operation p).2.tasks[n]? = some t :=
      getElem?_concat_eq_some.2 (.inl here)
    rw [there]
  | none =>
    cases there : (r.spawn operation p).2.tasks[n]? with
    | none => rfl
    | some t =>
      rcases getElem?_concat_eq_some.1 there with here' | ⟨-, rfl⟩
      · cases here.symm.trans here'
      · rfl

end Runner

namespace Engine

variable {e : Engine σ} {id reason : String} {n : Nat}

/-- Those who have ended are forgotten, and no others. -/
theorem get?_prune : e.prune.live.get? id = some n ↔
    e.live.get? id = some n ∧ e.runner.hasEnded n = false := by
  have pruned : e.prune.live.get? id = (e.live.get? id).filter fun n => !e.runner.hasEnded n :=
    Catalog.get?_filter ..
  rw [pruned, Option.filter_eq_some_iff, Bool.not_eq_true']

/-- Nobody is remembered by it. -/
theorem get?_prune_eq_none (other : e.live.get? id = none) : e.prune.live.get? id = none := by
  cases found : e.prune.live.get? id with
  | none => rfl
  | some n => cases other.symm.trans (get?_prune.1 found).1

/-- So an ID is left if its task has not ended. -/
theorem contains_prune : e.prune.live.contains id = true ↔
    ∃ n, e.live.get? id = some n ∧ e.runner.hasEnded n = false := by
  rw [Catalog.contains, Option.isSome_iff_exists]
  exact exists_congr fun n => get?_prune

/-- A cancel is accepted if the run is one of those that are kept track of. -/
theorem cancel_fst : (e.cancel id reason).1 = e.prune.live.contains id := by
  rw [cancel]
  split
  · next listed => exact listed.symm
  · next other => exact (Bool.eq_false_iff.2 other).symm

/-- Its signal is called then, -/
theorem cancel_of_contains (listed : e.prune.live.contains id = true) :
    (e.cancel id reason).2 = e.prune.call id (.cancel reason) := by
  rw [cancel, if_pos listed]
  rfl

/-- and otherwise nothing is called. -/
theorem cancel_of_not_contains (other : e.prune.live.contains id = false) :
    (e.cancel id reason).2 = e.prune := by
  rw [cancel, if_neg (Bool.eq_false_iff.1 other)]

end Engine

namespace Tally

variable {t t' : Tally σ} {r : Run} {n : Nat} {id : String} {e : Engine σ}

/-- The engine keeps track of runs that were started. -/
structure Known (t : Tally σ) : Prop where
  /-- whoever is listed was started -/
  known {id : String} {n : Nat} (listed : t.engine.live.get? id = some n) :
    ∃ r, t.started[n]? = some r ∧ r.id = id

/-- It keeps track of all that have not ended. -/
structure Listed (t : Tally σ) : Prop extends Known t where
  /-- whoever has not ended is listed -/
  listed {n : Nat} {r : Run} (here : t.started[n]? = some r)
    (on : t.engine.runner.hasEnded n = false) : t.engine.live.get? r.id = some n

/-- At the beginning nobody is listed, -/
theorem known_idle (settings : Settings) (store : σ) : (idle settings store).Known :=
  ⟨fun never => by cases never⟩

/-- and nobody ought to be. -/
theorem listed_idle (settings : Settings) (store : σ) : (idle settings store).Listed :=
  ⟨known_idle settings store, fun never => by cases never⟩

/-- Those who are left when the ended ones are forgotten are live. The list may have some who
have ended, as nobody strikes them off when they do; that is why it is gone through before it is
shown. -/
theorem Listed.isLive_iff (listed : t.Listed) (id : String) :
    t.engine.prune.live.contains id = true ↔ t.IsLive id := by
  rw [Engine.contains_prune]
  constructor
  · rintro ⟨n, found, on⟩
    obtain ⟨r, here, same⟩ := listed.known found
    exact ⟨n, r, here, same, on⟩
  · rintro ⟨n, r, here, rfl, on⟩
    exact ⟨n, listed.listed here on, on⟩

/-! ### When a run is started -/

section

variable (length : t.engine.runner.tasks.length = t.started.length)

/-- A run that is started is kept track of by the number of its task. -/
theorem live_start_self : (t.engine.start r).live.get? r.id = some t.engine.runner.tasks.length :=
  Catalog.get?_insert_self ..

/-- Another run is kept track of as before, unless it has ended. -/
theorem live_start_of_ne (ne : id ≠ r.id) :
    (t.engine.start r).live.get? id = t.engine.prune.live.get? id := by
  have kept : (t.engine.launch r).2.prune.live = t.engine.prune.live := by
    simp [Engine.prune, Engine.launch]
  rw [← kept]
  exact Catalog.get?_insert_of_ne _ _ ne

include length

/-- So the entry is the number of its place among the runs, as each of them has one task. -/
theorem Known.start (known : t.Known) : Known ⟨t.engine.start r, t.started ++ [r]⟩ := by
  constructor
  intro id n found
  by_cases same : id = r.id
  · subst same
    obtain rfl := Option.some.inj (live_start_self.symm.trans found)
    exact ⟨r, getElem?_concat_eq_some.2 (.inr ⟨length, rfl⟩), rfl⟩
  · have found : (t.engine.start r).live.get? id = some n := found
    rw [live_start_of_ne same] at found
    obtain ⟨r', here, same⟩ := known.known (Engine.get?_prune.1 found).1
    exact ⟨r', getElem?_concat_eq_some.2 (.inl here), same⟩

/-- As its ID is a new one, the entry takes nobody's place. -/
theorem Listed.start (listed : t.Listed) (new : r.id ∉ t.started.map Run.id) :
    Listed ⟨t.engine.start r, t.started ++ [r]⟩ := by
  refine ⟨listed.toKnown.start length, ?_⟩
  intro n r' here on
  have ended : (t.engine.start r).runner.hasEnded n = t.engine.runner.hasEnded n :=
    Runner.hasEnded_spawn ..
  rcases getElem?_concat_eq_some.1 here with here | ⟨rfl, rfl⟩
  · have ne : r'.id ≠ r.id := by
      intro same
      exact new (same ▸ List.mem_map_of_mem (List.mem_of_getElem? here))
    refine (live_start_of_ne ne).trans (Engine.get?_prune.2 ?_)
    have on := ended.symm.trans on
    exact ⟨listed.listed here on, on⟩
  · rw [← length]
    exact live_start_self

end

/-! ### When anything else happens -/

/-- Runs may be forgotten: who is still listed was listed before. -/
theorem Known.of_live (known : t.Known)
    (live : ∀ {id n}, e.live.get? id = some n → t.engine.live.get? id = some n) :
    Known { t with engine := e } :=
  ⟨fun found => known.known (live found)⟩

/-- They may end, and be forgotten then, but not before. -/
theorem Listed.of_live (listed : t.Listed)
    (live : e.live = t.engine.live ∨ e.live = t.engine.prune.live)
    (ended : ∀ n, t.engine.runner.hasEnded n = true → e.runner.hasEnded n = true) :
    Listed { t with engine := e } := by
  have fewer {id : String} {n : Nat} (found : e.live.get? id = some n) :
      t.engine.live.get? id = some n := by
    rcases live with same | pruned
    · rwa [same] at found
    · rw [pruned] at found
      exact (Engine.get?_prune.1 found).1
  refine ⟨listed.toKnown.of_live fewer, ?_⟩
  intro n r here on
  have on : t.engine.runner.hasEnded n = false :=
    Bool.eq_false_iff.2 fun last => Bool.eq_false_iff.1 on (ended n last)
  rcases live with same | pruned
  · rw [same]
    exact listed.listed here on
  · rw [pruned]
    exact Engine.get?_prune.2 ⟨listed.listed here on, on⟩

/-! ### Moves -/

/-- What a move is to those who are kept track of. -/
inductive Tracks (t : Tally σ) : Tally σ → Prop where
  /-- a run is started -/
  | starts {e : Engine σ} {r : Run} (runner : e.runner = t.engine.runner)
    (live : e.live = t.engine.live) (new : r.id ∉ t.started.map Run.id) :
    Tracks t ⟨e.start r, t.started ++ [r]⟩
  /-- runs end, or those that have are forgotten -/
  | others {e : Engine σ} (live : e.live = t.engine.live ∨ e.live = t.engine.prune.live)
    (ended : ∀ n, t.engine.runner.hasEnded n = true → e.runner.hasEnded n = true) :
    Tracks t ⟨e, t.started⟩

/-- So the engine knows whom it lists after each move, -/
theorem Known.tracks (known : t.Known) (length : t.engine.runner.tasks.length = t.started.length)
    (tracks : t.Tracks t') : t'.Known := by
  cases tracks with
  | @starts e r runner live new =>
    have known : Known ⟨e, t.started⟩ := known.of_live fun found => live ▸ found
    exact known.start (runner ▸ length)
  | others live ended =>
    apply known.of_live
    intro id n found
    rcases live with same | pruned
    · rwa [same] at found
    · rw [pruned] at found
      exact (Engine.get?_prune.1 found).1

/-- and lists whom it ought to. -/
theorem Listed.tracks (listed : t.Listed)
    (length : t.engine.runner.tasks.length = t.started.length) (tracks : t.Tracks t') :
    t'.Listed := by
  cases tracks with
  | @starts e r runner live new =>
    have listed : Listed ⟨e, t.started⟩ := listed.of_live (.inl live) fun n ended => runner ▸ ended
    exact listed.start (runner ▸ length) new
  | others live ended => exact listed.of_live live ended

variable [Store σ] {doom : Nat → Option String}

/-- Each move is one of these: a run is started, or the list stays or is gone through, while tasks
end for good. -/
theorem Moves.tracks (tended : t.Tended doom) (moves : t.Moves t') : t.Tracks t' := by
  have same {e : Engine σ} (live : e.live = t.engine.live)
      (runner : e.runner = t.engine.runner) : t.Tracks ⟨e, t.started⟩ :=
    .others (.inl live) fun n ended => runner ▸ ended
  cases moves with
  | starts issued new => exact .starts rfl rfl new
  | runs made =>
    obtain ⟨d, made', ran⟩ := Engine.exists_create made
    rw [ran]
    exact .starts (Engine.runner_create d) (Engine.live_create d) (tended.new_of_create made')
  | creates caller bizId bizType d => exact same (Engine.live_create d) (Engine.runner_create d)
  | cancels id reason =>
    rw [Tally.cancel, Engine.cancel]
    split
    · exact .others (.inr rfl) fun n ended => ended
    · exact .others (.inr rfl) fun n ended => ended
  | lists => exact .others (.inr rfl) fun n ended => ended
  | turns keeps => exact .others (.inl rfl) fun n ended => Runner.hasEnded_poll _ _ _ ended
  | releases | passes | calls => exact .others (.inl rfl) fun n ended => ended
  | elsewhere => exact same rfl rfl

/-- Whatever happens, the engine keeps track of exactly the live runs. The induction takes the
tending of the tasks along, for only so each task has the number of its run. -/
theorem Listed.comes (listed : t.Listed) (tended : t.Tended doom) (comes : t.Comes t') :
    t'.Listed := by
  induction comes with
  | refl => exact listed
  | tail before next ih =>
    have tended' := tended.comes before
    exact ih.tracks tended'.length (next.tracks tended')

end Tally

/-! ## Letting the tasks work -/

namespace Runner

variable [Store σ] {n : Nat}

/-- Others come behind those who are in the queue, so whoever is in it comes nearer to its turn with
each turn of another one. -/
theorem exists_queue_poll (r : Runner α) (h : Host σ) (n : Nat) :
    ∃ more, (r.poll h n).1.queue = r.queue ++ more := by
  have carried (operation : String) (p : Program α) :
      ∃ more, (r.carryOn h n operation p).1.queue = r.queue ++ more := by
    rw [← r.queue_settle (n := n) operation (h.advance p).1]
    exact ⟨_, rfl⟩
  have same : ∃ more, r.queue = r.queue ++ more := ⟨[], (List.append_nil _).symm⟩
  rw [poll]
  split
  · exact same
  · split
    · exact same
    · split
      · exact same
      · exact carried ..
    · split
      · exact same
      · split
        · exact same
        · exact carried ..

/-- What may happen next to a runner and its host while the tasks work. -/
inductive Works : Runner α × Host σ → Runner α × Host σ → Prop where
  /-- the first task in the queue has its turn -/
  | polls {r : Runner α} {h : Host σ} {n : Nat} {rest : List Nat} (queue : r.queue = n :: rest) :
    Works (r, h) (({ r with queue := rest } : Runner α).poll h n)
  /-- those that have given way may go on -/
  | releases {r : Runner α} {h : Host σ} : Works (r, h) (r.release, h)
  /-- time passes -/
  | rings {r : Runner α} {h : Host σ} {ms : Nat} (later : h.clock ≤ ms) :
    Works (r, h) (r.ring ms, { h with clock := ms })

/-- While somebody waits, that is all that happens. So whoever can say what each of these steps is
can say what the whole wait is. -/
theorem works_await (r : Runner α) (h : Host σ) (a : Await) :
    Relation.ReflTransGen Works (r, h) (r.await h a).2 := by
  rw [await]
  split
  · exact .refl
  · apply workFor_induct (P := fun r' h' => Relation.ReflTransGen Works (r, h) (r', h'))
    case polls => exact fun _ _ _ _ queue works => works.tail (.polls queue)
    case releases => exact fun _ _ works => works.tail .releases
    case rings =>
      exact fun _ _ _ _ _ next works => works.tail (.rings (Nat.le_of_lt (lt_of_nextAlarm next)))
    case holds => exact .refl

/-- A task that has ended stays so while the tasks work. -/
theorem hasEnded_workFor (a : Await) (fuel : Nat) {r : Runner α} (h : Host σ)
    (ended : r.hasEnded n = true) : (workFor a fuel r h).2.1.hasEnded n = true := by
  apply workFor_induct (P := fun r _ => r.hasEnded n = true)
  case polls =>
    intro r h m rest _ ended
    exact hasEnded_poll { r with queue := rest } h m ended
  case releases => exact fun _ _ => id
  case rings => exact fun _ _ _ _ _ _ => id
  case holds => exact ended

/-- A task in the queue has its turn while the tasks work, if there is fuel for as many turns as
there are tasks before it. Before that there are only turns of other ones, and whatever these keep
holds at that turn. -/
theorem exists_turn_workFor {P : Runner α → Host σ → Prop} (a : Await) {fuel : Nat}
    {r : Runner α} {h : Host σ} (polls : ∀ r h m rest, r.queue = m :: rest → P r h →
      P (({ r with queue := rest } : Runner α).poll h m).1
        (({ r with queue := rest } : Runner α).poll h m).2)
    (holds : P r h) (queued : n ∈ r.queue) (enough : r.queue.length ≤ fuel) :
    ∃ fuel' r' h' rest, P r' h' ∧ workFor a fuel r h =
      workFor a fuel' (({ r' with queue := rest } : Runner α).poll h' n).1
        (({ r' with queue := rest } : Runner α).poll h' n).2 := by
  obtain ⟨before, after, queue⟩ := List.append_of_mem queued
  have ahead : before.length < fuel := by
    rw [queue, List.length_append, List.length_cons] at enough
    omega
  clear enough queued
  -- those before it have their turns first
  induction before generalizing r h fuel after with
  | nil =>
    obtain ⟨fuel, rfl⟩ := Nat.exists_eq_succ_of_ne_zero (Nat.ne_of_gt ahead)
    refine ⟨fuel, r, h, after, holds, ?_⟩
    rw [workFor, queue]
    rfl
  | cons m before ih =>
    obtain ⟨fuel, rfl⟩ := Nat.exists_eq_succ_of_ne_zero (Nat.ne_zero_of_lt ahead)
    obtain ⟨more, polled⟩ := exists_queue_poll { r with queue := before ++ n :: after } h m
    rw [workFor, queue]
    refine ih (polls r h m _ queue holds) (after ++ more) ?_ (Nat.lt_of_succ_lt_succ ahead)
    exact polled.trans (by simp)

end Runner

namespace Tally

variable {t : Tally σ} {doom : Nat → Option String} {n : Nat} {reason : String}

/-- A run that was canceled is in the queue until it ends. It was put there when its signal fired,
or when the turn in which that happened was over, and nobody leaves the queue but for a turn. -/
theorem Tended.mem_queue (tended : t.Tended doom) (doomed : doom n = some reason)
    (on : t.engine.runner.hasEnded n = false) : n ∈ t.engine.runner.queue := by
  obtain ⟨task, there, -, attends⟩ :=
    tended.task (List.getElem?_eq_getElem (tended.doomed doomed))
  rw [doomed] at attends
  cases stage : task.stage with
  | ended e => simp [Runner.hasEnded, there, Task.hasEnded, stage] at on
  | fresh p => exact tended.alerted.fresh there stage
  | waiting p next =>
    have signal := attends.signal
    rw [stage] at attends
    refine tended.alerted.canceled there stage ?_
    rw [attends.run_eq, signal]

variable [Store σ]

/-- To let the tasks work until something has come is a row of moves. -/
theorem comes_await (t : Tally σ) (a : Runner.Await) :
    t.Comes { t with engine := (t.engine.await a).2 } := by
  refine (t.engine.runner.works_await t.engine.host a).lift (fun x =>
    { t with engine := { t.engine with runner := x.1, host := x.2 } }) fun x y works => ?_
  cases works with
  | @polls r h n rest queue =>
    have keeps (m : Nat) (queued : m ∈ r.queue) (ne : m ≠ n) : m ∈ rest := by
      rw [queue] at queued
      exact List.mem_of_ne_of_mem ne queued
    exact .turns keeps
  | releases => exact .releases
  | rings later => exact .passes later

namespace Tended

/-- A run that was canceled ends with its next turn. If it waits its signal ends the wait, and if it
has not begun it finds its signal fired; either way it waits no more. -/
theorem hasEnded_turn (tended : t.Tended doom) (doomed : doom n = some reason) (rest : List Nat) :
    (t.engine.turn n rest).runner.hasEnded n = true := by
  obtain ⟨task, there, live, attends⟩ :=
    tended.task (List.getElem?_eq_getElem (tended.doomed doomed))
  rw [doomed] at attends
  have known (task' : Task Run) (there' : t.engine.runner.tasks[n]? = some task') : task = task' :=
    Option.some.inj (there.symm.trans there')
  -- the task goes on in either case: there is a program that its next turn carries to the end
  rcases ({ t.engine.runner with queue := rest } : Runner Run).poll_cases t.engine.host n
      (fun task' there' => known task' there' ▸ live) with
    ⟨vain, idle⟩ | ⟨task', p, there', next, polled⟩
  · rw [Engine.turn, idle]
    have vain := vain task there
    cases stage : task.stage with
    | ended e => simp [Runner.hasEnded, there, Task.hasEnded, stage]
    | fresh p => simp [stage, Stage.next?] at vain
    | waiting p after =>
      obtain ⟨p, r', next, -⟩ := attends.exists_ended (by simp [stage])
      cases vain.symm.trans next
  · obtain rfl := known task' there'
    obtain ⟨p', r', next', ended⟩ := attends.exists_ended (by
      intro e stage
      rw [stage] at next
      cases next)
    obtain rfl := Option.some.inj (next.symm.trans next')
    have own := Runner.task_carryOn { t.engine.runner with queue := rest } there' t.engine.host
      task.operation p
    rw [Engine.turn, polled, Runner.hasEnded, own, ended]
    rfl

/-- So it ends as soon as the tasks work, whatever they work for: its turn comes before any time
passes. -/
theorem hasEnded_workFor (tended : t.Tended doom) (doomed : doom n = some reason)
    (a : Runner.Await) {fuel : Nat} (enough : t.engine.runner.queue.length ≤ fuel) :
    (Runner.workFor a fuel t.engine.runner t.engine.host).2.1.hasEnded n = true := by
  cases on : t.engine.runner.hasEnded n with
  | true => exact Runner.hasEnded_workFor a fuel _ on
  | false =>
    obtain ⟨fuel', r, h, rest, tended', worked⟩ := Runner.exists_turn_workFor
      (P := fun r h => Tended doom { t with engine := { t.engine with runner := r, host := h } })
      a (by
        intro r h m rest queue tended
        have keeps (k : Nat) (queued : k ∈ r.queue) (ne : k ≠ m) : k ∈ rest := by
          rw [queue] at queued
          exact List.mem_of_ne_of_mem ne queued
        exact tended.turn keeps)
      tended (tended.mem_queue doomed on) enough
    rw [worked]
    exact Runner.hasEnded_workFor a fuel' _ (tended'.hasEnded_turn doomed rest)

end Tended

/-! ## Exactness -/

/-- What becomes of a run that was canceled while it was live, for a reason. -/
structure Yields (t : Tally σ) (n : Nat) (r : Run) (reason : String) : Prop where
  /-- its signal has fired for that reason -/
  signal : t.engine.host.signal r.id = ⟨true, some reason⟩
  /-- it can go on until it ends -/
  queued (on : t.engine.runner.hasEnded n = false) : n ∈ t.engine.runner.queue
  /-- whenever it has its next turn, it ends -/
  turn (rest : List Nat) : (t.engine.turn n rest).runner.hasEnded n = true
  /-- it does when the tasks work, whatever they work for -/
  works (a : Runner.Await) {fuel : Nat} (enough : t.engine.runner.queue.length ≤ fuel) :
    (Runner.workFor a fuel t.engine.runner t.engine.host).2.1.hasEnded n = true
  /-- it ends as canceled for that reason, in memory and as it was written at last -/
  ended {e : Ending Run} (ended : t.engine.runner.ending n = some e) :
    ∃ r' w, e = .value r' ∧ r'.record.status = .canceled ∧
      r'.lastError = some ("task canceled: " ++ reason) ∧
      t.engine.host.lastWrite? r.id = some (.asked (.update r'.record r'.visits) w)

/-- What the engine says of its live runs is exact. -/
structure Exact (t : Tally σ) : Prop where
  /-- they are listed in order, each one once -/
  sorted : t.engine.running.1.Pairwise (· < ·)
  /-- all that are live, and nobody else -/
  listed (id : String) : id ∈ t.engine.running.1 ↔ t.IsLive id
  /-- and exactly they can be canceled -/
  accepted (id reason : String) : (t.engine.cancel id reason).1 = true ↔ t.IsLive id
  /-- a run that was canceled so yields to the first reason that its signal was given, whatever
  happens later -/
  yields {id reason : String} (accepted : (t.engine.cancel id reason).1 = true) :
    ∃ n r, t.started[n]? = some r ∧ r.id = id ∧ ∀ t', (t.cancel id reason).Comes t' →
      t'.Yields n r ((t.engine.host.signal id).note.getD reason)
  /-- which stays the first one -/
  note {id reason : String} (given : (t.engine.host.signal id).note = some reason) :
    ∀ t', t.Comes t' → (t'.engine.host.signal id).note = some reason
  /-- a cancel that was refused is nothing to the runs -/
  refused {id reason : String} (refused : (t.engine.cancel id reason).1 = false) :
    ∃ live, (t.engine.cancel id reason).2 = { t.engine with live := live }

/-- A run that was canceled yields to the reason for it, in memory and in what was written last. -/
theorem Tended.yields {r : Run} (tended : t.Tended doom) (here : t.started[n]? = some r)
    (doomed : doom n = some reason) : t.Yields n r reason := by
  obtain ⟨task, there, -, attends⟩ := tended.task here
  rw [doomed] at attends
  constructor
  case signal => exact attends.signal
  case queued => exact tended.mem_queue doomed
  case turn => exact tended.hasEnded_turn doomed
  case works => exact tended.hasEnded_workFor doomed
  case ended =>
    intro e ended
    rw [Runner.ending, there, Option.bind_some] at ended
    cases stage : task.stage with
    | ended e' =>
      obtain rfl : e' = e := by simpa [Task.ending, stage] using ended
      exact (stage ▸ attends).ended
    | fresh p => simp [Task.ending, stage] at ended
    | waiting p next => simp [Task.ending, stage] at ended

/-- A run that is canceled while it is live yields to the first reason that its signal was given,
whatever happens later. -/
theorem Tended.yields_of_cancel {r : Run} (tended : t.Tended doom) (here : t.started[n]? = some r)
    (on : t.engine.runner.hasEnded n = false) (first : doom n = none)
    (accepted : (t.engine.cancel r.id reason).1 = true)
    (later : (t.cancel r.id reason).Comes t') :
    t'.Yields n r ((t.engine.host.signal r.id).note.getD reason) := by
  have pruned : Tended doom { t with engine := t.engine.prune } := tended.of_eq rfl rfl
  have condemned := pruned.condemn here on first reason
  rw [Engine.cancel_fst] at accepted
  rw [Tally.cancel, Engine.cancel_of_contains accepted] at later
  have here' : t'.started[n]? = some r := by
    obtain ⟨more, grown⟩ := later.started_prefix
    rw [← grown, List.getElem?_append_left (List.getElem?_eq_some_iff.1 here).1, here]
  exact (condemned.comes later).yields here' (Function.update_self ..)

/-- Whatever was started, canceled and asked at an engine, in any order and with any turns of the
tasks between, what it says of its live runs is exact. -/
theorem exact_of_comes {settings : Settings} {store : σ} (comes : (idle settings store).Comes t) :
    t.Exact := by
  have tended := (tended_idle settings store).comes comes
  have listed := (listed_idle settings store).comes (tended_idle settings store) comes
  have accepted (id reason : String) : (t.engine.cancel id reason).1 = true ↔ t.IsLive id := by
    rw [Engine.cancel_fst]
    exact listed.isLive_iff id
  constructor
  case sorted => exact Catalog.sorted_names _
  case listed =>
    intro id
    exact (Catalog.mem_names _).trans (listed.isLive_iff id)
  case accepted => exact accepted
  case yields =>
    intro id reason accept
    obtain ⟨n, r, here, rfl, on⟩ := (accepted id reason).1 accept
    refine ⟨n, r, here, rfl, ?_⟩
    intro t' later
    exact tended.yields_of_cancel here on rfl accept later
  case note =>
    intro id reason given t' later
    exact later.note given
  case refused =>
    intro id reason refuse
    rw [Engine.cancel_fst] at refuse
    exact ⟨_, Engine.cancel_of_not_contains refuse⟩

/-! ### An engine with a run that waits -/

/-- An engine that knows a procedure whose only node waits until it is interrupted. -/
def watchful : Tally Memory where
  engine := { Engine.idle Run.vigil.settings Memory.empty with
    registry := Registry.empty.replace .vigil }
  started := []

/-- The first run of the procedure there. -/
def watch : Run :=
  .create (.create (Host.runId 1) "vigil" "" "" "" watchful.engine.host.now.1) .vigil
    Run.vigil.settings default

/-- The engine when that run has had its first turn. -/
def vigil : Tally Memory where
  engine := (watchful.engine.run default "vigil" "" "").2.turn 0 []
  started := [watch]

/-- The run is created and started there. -/
theorem comes_vigil : (idle Run.vigil.settings Memory.empty).Comes vigil := by
  have known : (idle Run.vigil.settings Memory.empty).Moves watchful := .elsewhere ..
  have ran : watchful.Moves ⟨(watchful.engine.run default "vigil" "" "").2, [watch]⟩ := .runs rfl
  have turned : Moves ⟨(watchful.engine.run default "vigil" "" "").2, [watch]⟩ vigil :=
    .turns fun m queued ne => absurd (List.mem_singleton.1 queued) ne
  exact .tail (.tail (.single known) ran) turned

/-- The run is live there, and can be canceled. -/
theorem vigil_exact : vigil.Exact ∧ vigil.engine.running.1 = [Host.runId 1] ∧
    (vigil.engine.cancel (Host.runId 1) "stop").1 = true :=
  ⟨exact_of_comes comes_vigil, by decide +kernel, by decide +kernel⟩

end Tally

end Runbook
