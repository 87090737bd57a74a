import Runbook.Proofs.Tasks
import Runbook.Proofs.Timing

/-!
# Programs that are executed alone

If an engine executes a program in the background while nothing else is going on, the program comes
to what it comes to in the surroundings that the host makes for it.

* `Host.surroundings` — a host answers as it does after all that has been asked before.
* `Host.At` — the host is where it should be at a moment.
* `Runner.Plays` — the only task of a runner comes to a result; neither turns nor the passing of
  time change what it comes to.
* `Runner.play_of_workFor`, `Runner.play_of_called` — so it has come to that when it has ended, also
  if its signal was called on the way.
-/

namespace Runbook

open Program

variable {σ α : Type}

/-- Whether the answer tells how a signal stands. -/
def Request.tellsSignal : Request → Bool
  | .signal _ | .act _ .isCanceled => true
  | _ => false

/-! ## At a host -/

namespace Host

variable [Store σ] {h h₀ : Host σ} {run : String} {m : Moment}
  {strike : Option (Nat × SignalCall)}

/-- The host when the clock shows that. -/
def wait (h : Host σ) (clock : Nat) : Host σ := { h with clock }

/-- The host with other signals and another journal. -/
def bearing (h : Host σ) (signals : Catalog Signal) (journal : List Entry) : Host σ :=
  { h with signals, journal }

/-- The host after requests that were made at those times. -/
def replay (h : Host σ) (asked : List (Nat × Request)) : Host σ :=
  asked.foldl (fun h x => ((h.wait x.1).answer x.2).2) h

/-- What a program of a run meets at a host, if the host does nothing else. -/
def surroundings (h : Host σ) (run : String) (strike : Option (Nat × SignalCall)) :
    Surroundings where
  reply m r := (((h.replay m.asked).wait m.clock).answer r).1
  own target := h.target? run target == some run
  strike := strike

/-- How things stand for it when it begins. -/
def moment (h : Host σ) (run : String) : Moment := ⟨h.clock, h.signal run, []⟩

/-- The host is where it comes to by what has been asked until that moment, but for signals and what
was noted. -/
structure At (h₀ : Host σ) (run : String) (m : Moment) (h : Host σ) : Prop where
  /-- all else is the same -/
  same : ∃ signals journal, h = ((h₀.replay m.asked).wait m.clock).bearing signals journal
  /-- the signal of the run stands as it does then -/
  signal : h.signal run = m.signal
  /-- nothing more was handed out to executors -/
  handedOut : h.handedOut = h₀.handedOut

theorem At.clock (here : h₀.At run m h) : h.clock = m.clock := by
  obtain ⟨⟨signals, journal, rfl⟩, -, -⟩ := here
  rfl

/-- So is a host at which nothing has been asked. -/
theorem at_moment (h : Host σ) (run : String) : h.At run (h.moment run) h :=
  ⟨⟨h.signals, h.journal, rfl⟩, rfl, rfl⟩

theorem replay_append (h : Host σ) (asked : List (Nat × Request)) (clock : Nat) (r : Request) :
    h.replay (asked ++ [(clock, r)]) = (((h.replay asked).wait clock).answer r).2 :=
  List.foldl_append

/-- What a host answers does not depend on what was noted, nor on the signals unless they are asked
about; and what it comes to does not, but for these. -/
theorem answer_bearing (h : Host σ) (signals : Catalog Signal) (journal : List Entry)
    (r : Request) :
    (r.tellsSignal = false → ((h.bearing signals journal).answer r).1 = (h.answer r).1) ∧
    ∃ signals' journal',
      ((h.bearing signals journal).answer r).2 = (h.answer r).2.bearing signals' journal' := by
  have called {β : Type} (c : StoreCall) (f : σ → Reply σ β) :
      (h.bearing signals journal).call c f =
        ((h.call c f).1, (h.call c f).2.bearing signals journal) := by
    rw [call, call]
    dsimp only [bearing]
    split <;> rfl
  -- the store and the oracle do not look at signals or at the journal
  cases r with
  | createVisit v =>
    have written := called .createVisit (Store.createVisit v)
    have reply := congrArg Prod.fst written
    refine ⟨fun _ => reply, ?_⟩
    change ∃ signals' journal', (logged _ _).2 = _
    rw [written]
    exact ⟨_, _, rfl⟩
  | update r visits =>
    have written := called .update (Store.update r visits)
    have reply := congrArg Prod.fst written
    refine ⟨fun _ => reply, ?_⟩
    change ∃ signals' journal', (logged _ _).2 = _
    rw [written]
    exact ⟨_, _, rfl⟩
  | beginQuery operation =>
    have delay : (h.bearing signals journal).oracle = h.oracle := rfl
    rw [answer, answer, beginQuery, beginQuery, delay]
    split <;> exact ⟨fun _ => rfl, _, _, rfl⟩
  | act run a =>
    cases a with
    | isCanceled => exact ⟨Bool.noConfusion, _, _, rfl⟩
    | cancel target reason =>
      have means : (h.bearing signals journal).target? run target = h.target? run target := rfl
      rw [answer, answer, perform, perform, means]
      cases h.target? run target with
      | none => exact ⟨fun _ => rfl, _, _, rfl⟩
      | some other => exact ⟨fun _ => rfl, _, _, rfl⟩
    | _ => exact ⟨fun _ => rfl, _, _, rfl⟩
  | signal id => exact ⟨Bool.noConfusion, _, _, rfl⟩
  | _ => exact ⟨fun _ => rfl, _, _, rfl⟩

/-- What is asked for a run calls its signal as its surroundings say. -/
theorem signal_answer (strike : Option (Nat × SignalCall)) (r : Request) (own : r.IsFor run)
    (handedOut : h.handedOut = h₀.handedOut) :
    (h.answer r).2.signal run = (h₀.surroundings run strike).signalAfter (h.signal run) r := by
  cases r with
  | createVisit v => exact signal_call ..
  | update r visits => exact signal_call ..
  | beginQuery operation =>
    rw [answer, beginQuery]
    split <;> rfl
  | act id a =>
    obtain rfl : id = run := own
    cases a with
    | fire => exact h.signal_fire id
    | cancel target reason =>
      -- a handle given out earlier still means the same run
      have means : h₀.target? id target = h.target? id target := by
        cases target <;> simp only [target?, handedOut]
      have own : (h₀.surroundings id strike).own target = (h.target? id target == some id) :=
        congrArg (· == some id) means
      rw [Surroundings.signalAfter, own, answer, perform]
      cases found : h.target? id target with
      | none => rfl
      | some other =>
        by_cases same : other = id
        · subst same
          simp
        · simp [same, signal_cancel_of_ne h reason (Ne.symm same)]
    | _ => rfl
  | _ => rfl

/-- A request of the run is answered at a host as its surroundings say, and the host follows. -/
theorem At.answer (here : h₀.At run m h) (strike : Option (Nat × SignalCall)) {r : Request}
    (own : r.IsFor run) :
    (h.answer r).1 = (h₀.surroundings run strike).answer m r ∧
      h₀.At run ((h₀.surroundings run strike).after m r) (h.answer r).2 := by
  have signal := signal_answer strike r own here.handedOut
  have handedOut := (h.fixed_answer r).2.2.trans here.handedOut
  obtain ⟨⟨signals, journal, rfl⟩, stands, -⟩ := here
  obtain ⟨reply, signals', journal', same⟩ :=
    answer_bearing ((h₀.replay m.asked).wait m.clock) signals journal r
  refine ⟨?_, ⟨signals', journal', ?_⟩, signal.trans (by rw [stands]; rfl), handedOut⟩
  · cases r with
    | clock => rfl
    | signal id =>
      obtain rfl : id = run := own
      exact stands
    | act id a =>
      obtain rfl : id = run := own
      cases a with
      | isCanceled => exact congrArg Signal.fired stands
      | _ => exact reply rfl
    | _ => exact reply rfl
  · have clock := clock_answer ((h₀.replay m.asked).wait m.clock) r
    rw [same, Surroundings.after, replay_append]
    exact congrArg (fun clock => bearing (wait _ clock) _ _) clock

/-- Time passes. -/
theorem At.wait (here : h₀.At run m h) (clock : Nat) : h₀.At run (m.wait clock) (h.wait clock) := by
  obtain ⟨⟨signals, journal, rfl⟩, signal, handedOut⟩ := here
  exact ⟨⟨signals, journal, rfl⟩, signal, handedOut⟩

/-- The signal is called. -/
theorem At.call (here : h₀.At run m h) (c : SignalCall) :
    h₀.At run (m.call c) (h.called run c) := by
  have signal : (h.called run c).signal run = (m.call c).signal := by
    rw [signal_called, here.signal]
    rfl
  obtain ⟨⟨signals, journal, rfl⟩, -, handedOut⟩ := here
  cases c <;> exact ⟨⟨_, journal, rfl⟩, signal, handedOut⟩

end Host

/-! ## In the background -/

/-- The value with which a task ended, if it has one. -/
def Ending.value? : Ending α → Option α
  | .value a => some a
  | _ => none

/-- What a task comes to, and the moment then. -/
def Stage.play (s : Surroundings) : Stage α → Moment → Option (Option α × Moment)
  | .fresh p, m => p.play s m
  | .waiting p next, m => (s.woken? m p).bind fun x => (next x.1).play s x.2
  | .ended e, m => some (e.value?, m)

/-- All that the task still asks and waits for is on behalf of the run. -/
def Stage.Owned (run : String) : Stage α → Prop
  | .fresh p => p.Owned run fun _ => True
  | .waiting p next => p.run = run ∧ ∀ w, (next w).Owned run fun _ => True
  | .ended _ => True

section

variable [Store σ] {h h₀ : Host σ} {run : String} {m : Moment} {s : Surroundings}
  {strike : Option (Nat × SignalCall)}

/-- Where a program stands, it comes to the same. -/
theorem Host.At.advance (here : h₀.At run m h) (strike : Option (Nat × SignalCall)) {p : Program α}
    (owned : p.Owned run fun _ => True) :
    ∃ m', h₀.At run m' (h.advance p).2 ∧ (h.advance p).1.stage.Owned run ∧
      (h.advance p).1.stage.play (h₀.surroundings run strike) m' =
        p.play (h₀.surroundings run strike) m := by
  induction p generalizing h m with
  | done a => exact ⟨m, here, trivial, rfl⟩
  | panic => exact ⟨m, here, trivial, rfl⟩
  | ask r next ih =>
    obtain ⟨reply, after⟩ := here.answer strike owned.1
    obtain ⟨m', here', owned', same⟩ := ih _ after (owned.2 _)
    refine ⟨m', here', owned', same.trans ?_⟩
    rw [reply]
    rfl
  | pause p next ih =>
    rw [play, Surroundings.wake?, ← here.clock]
    cases ends : (p.fixedAt h.clock).ending h.clock false with
    | none =>
      rw [advance_pause_of_waiting _ _ ends]
      exact ⟨m, here, owned, rfl⟩
    | some w =>
      rw [advance_pause_of_ending _ _ ends]
      exact ih w here (owned.2 w)

/-- A host wakes those who wait as their surroundings do. -/
theorem Host.At.wake? (here : h₀.At run m h) {p : Pause} {w : Wake} (own : p.run = run)
    (wakes : h.wake? p = some w) : s.woken? m p = some (w, m) := by
  rw [Host.wake?, own, here.signal, here.clock] at wakes
  rw [Surroundings.woken?]
  split at wakes
  · next fired =>
    obtain rfl := Option.some.inj wakes
    rw [if_pos fired]
  · next quiet => rw [if_neg quiet, wakes]

/-- A pause lasts while no alarm comes. -/
theorem Pause.ending_eq_none {p : Pause} {clock ms : Nat} (lasts : p.ending clock true = none)
    (before : ∀ alarm ∈ p.alarms, ms < alarm) : p.ending ms true = none := by
  obtain ⟨run, wait, deadline⟩ := p
  have unreached : wait.reached ms true = false := by
    cases wait with
    | «until» alarm => simpa [Wait.reached] using before alarm (by simp [alarms])
    | after n =>
      have positive : n ≠ 0 := by
        rintro rfl
        simp [ending, Wait.reached] at lasts
      simp [Wait.reached, positive]
    | turn => simp [ending, Wait.reached] at lasts
    | never => rfl
  have unexpired : deadline.any (· ≤ ms) = false := by
    cases deadline with
    | none => rfl
    | some alarm => simpa using before alarm (by simp [alarms])
  simp [ending, unreached, unexpired]

/-- It ends by an alarm. -/
theorem Pause.exists_ending {p : Pause} {alarm : Nat} (listed : alarm ∈ p.alarms) :
    ∃ w, p.ending alarm true = some w := by
  obtain ⟨run, wait, deadline⟩ := p
  rw [ending]
  split
  · exact ⟨_, rfl⟩
  · next unreached =>
    rcases List.mem_append.1 listed with reached | expires
    · cases wait with
      | «until» ms =>
        obtain rfl := List.mem_singleton.1 reached
        simp [Wait.reached] at unreached
      | _ => cases reached
    · obtain rfl := Option.mem_toList.1 expires
      simp

/-- While time passes and nobody can go on, who waits comes to the same. -/
theorem Surroundings.woken?_wait {p : Pause} {ms : Nat} (quiet : m.signal.fired = false)
    (lasts : p.ending m.clock true = none) (later : m.clock < ms)
    (alarms : ∀ alarm ∈ p.alarms, ms ≤ alarm) (calls : ∀ c ∈ s.strike, m.clock < c.1 → ms < c.1) :
    s.woken? (m.wait ms) p = s.woken? m p := by
  have quiet' : (m.wait ms).signal.fired = false := quiet
  rw [woken?, woken?, quiet, quiet', lasts]
  dsimp only
  by_cases listed : ms ∈ p.alarms
  · obtain ⟨w, ends⟩ := p.exists_ending listed
    have first : p.alarms.min? = some ms := List.min?_eq_some_iff.2 ⟨listed, alarms⟩
    have uncalled : s.strike? m p = none := strike?_eq_none listed calls
    have now : p.ending (m.wait ms).clock true = some w := ends
    simp [now, uncalled, first, ends]
  · have before (alarm : Nat) (other : alarm ∈ p.alarms) : ms < alarm :=
      Nat.lt_of_le_of_ne (alarms alarm other) fun same => listed (same ▸ other)
    have lasts' : p.ending (m.wait ms).clock true = none := Pause.ending_eq_none lasts before
    have strikes : s.strike? (m.wait ms) p = s.strike? m p := by
      cases call : s.strike with
      | none => simp [strike?, call]
      | some c =>
        have same : ms < c.1 ↔ m.clock < c.1 := ⟨Nat.lt_trans later, calls c call⟩
        simp [strike?, call, Moment.wait, Option.filter, same]
    rw [lasts', strikes]
    rfl

/-- The only task comes to that, and the host is where the task has got to. -/
def Sole (s : Surroundings) (h₀ : Host σ) (run : String) (x : Option (Option α × Moment))
    (tasks : List (Task α)) (h : Host σ) : Prop :=
  ∃ operation stage m, tasks = [⟨operation, stage, false⟩] ∧ stage.Owned run ∧
    stage.play s m = x ∧ (h₀.At run m h ∨ ∃ e, stage = .ended e)

namespace Runner

variable {r : Runner α} {x : Option (Option α × Moment)}

/-- A task that is carried on comes to the same. -/
theorem sole_carryOn {operation : String} {stage : Stage α} (here : h₀.At run m h)
    (tasks : r.tasks = [⟨operation, stage, false⟩]) {p : Program α}
    (owned : p.Owned run fun _ => True) (same : p.play (h₀.surroundings run strike) m = x) :
    Sole (h₀.surroundings run strike) h₀ run x (r.carryOn h 0 operation p).1.tasks
      (r.carryOn h 0 operation p).2 := by
  obtain ⟨m', here', owned', same'⟩ := here.advance strike owned
  refine ⟨operation, _, m', ?_, owned', same'.trans same, .inl here'⟩
  have settled := r.tasks_settle (n := 0) operation (h.advance p).1
  rw [tasks] at settled
  exact settled

/-- A turn takes no time. -/
theorem clock_poll (r : Runner α) (h : Host σ) (n : Nat) : (r.poll h n).2.clock = h.clock := by
  rw [poll]
  split
  · rfl
  · split
    · rfl
    · split
      · rfl
      · exact h.clock_advance _
    · split
      · rfl
      · split
        · rfl
        · exact h.clock_advance _

/-- A task that has its turn comes to the same. -/
theorem sole_poll (sole : Sole (h₀.surroundings run strike) h₀ run x r.tasks h) (n : Nat) :
    Sole (h₀.surroundings run strike) h₀ run x (r.poll h n).1.tasks (r.poll h n).2 := by
  have unchanged := sole
  obtain ⟨operation, stage, m, tasks, owned, same, here⟩ := sole
  rw [Runner.poll]
  cases n with
  | succ n =>
    have none : r.tasks[n + 1]? = none := by rw [tasks]; rfl
    rw [none]
    exact unchanged
  | zero =>
    have here' : r.tasks[0]? = some ⟨operation, stage, false⟩ := by rw [tasks]; rfl
    rw [here']
    dsimp only
    cases stage with
    | ended e => exact unchanged
    | fresh p => exact sole_carryOn (here.resolve_right (by simp)) tasks owned same
    | waiting p next =>
      have here := here.resolve_right (by simp)
      cases wake : h.wake? p with
      | none => simpa [wake] using unchanged
      | some w =>
        have goesOn : (next w).play (h₀.surroundings run strike) m = x := by
          rw [← same, Stage.play, here.wake? owned.1 wake, Option.bind_some]
        simpa [wake] using sole_carryOn here tasks (owned.2 w) goesOn

/-- A task that rests comes to the same after whatever leaves those who wait in peace. -/
theorem sole_rest {a : Await} {ms : Nat} {h' : Host σ} {f : Moment → Moment}
    (sole : Sole s h₀ run x r.tasks h) (ready : r.Ready h) (queue : r.queue = [])
    (givenWay : r.givenWay = []) (next : r.nextAlarm h a = some ms)
    (follows : ∀ m, h₀.At run m h → h₀.At run (f m) h')
    (peace : ∀ (m : Moment) (p : Pause), m.clock = h.clock → m.signal.fired = false →
      p.ending m.clock true = none → (∀ alarm ∈ p.alarms, ms ≤ alarm) →
      s.woken? (f m) p = s.woken? m p) :
    Sole s h₀ run x r.tasks h' := by
  obtain ⟨operation, stage, m, tasks, owned, same, here⟩ := sole
  have listed : r.tasks[0]? = some ⟨operation, stage, false⟩ := by rw [tasks]; rfl
  cases stage with
  | ended e => exact ⟨operation, _, m, tasks, owned, same, .inr ⟨e, rfl⟩⟩
  | fresh p => simpa [queue] using ready.fresh listed rfl
  | waiting p on =>
    have here := here.resolve_right (by simp)
    obtain ⟨quiet, lasts⟩ := ready.lasts queue givenWay listed rfl
    have alarms (alarm : Nat) (of : alarm ∈ p.alarms) : ms ≤ alarm :=
      le_of_nextAlarm next listed rfl of (Pause.lt_of_lasts lasts of)
    rw [owned.1, here.signal] at quiet
    have same' := peace m p here.clock.symm quiet (here.clock ▸ lasts) alarms
    exact ⟨operation, _, f m, tasks, owned, by rw [← same, Stage.play, Stage.play, same'],
      .inl (follows m here)⟩

/-- So it is when time passes, -/
theorem sole_wait {a : Await} {ms : Nat}
    (sole : Sole (h₀.surroundings run strike) h₀ run x r.tasks h) (ready : r.Ready h)
    (queue : r.queue = []) (givenWay : r.givenWay = []) (next : r.nextAlarm h a = some ms)
    (calls : ∀ c ∈ strike, h.clock < c.1 → ms < c.1) :
    Sole (h₀.surroundings run strike) h₀ run x r.tasks (h.wait ms) := by
  refine sole_rest sole ready queue givenWay next (fun m here => here.wait ms) ?_
  intro m p clock quiet lasts alarms
  have later : m.clock < ms := clock ▸ lt_of_nextAlarm next
  exact Surroundings.woken?_wait quiet lasts later alarms (clock ▸ calls)

/-- and when the signal is called as is expected. -/
theorem sole_called {ms : Nat} {c : SignalCall}
    (sole : Sole (h₀.surroundings run (some (ms, c))) h₀ run x r.tasks h) (ready : r.Ready h)
    (queue : r.queue = []) (givenWay : r.givenWay = [])
    (next : r.nextAlarm h (.clock ms) = some ms) :
    Sole (h₀.surroundings run (some (ms, c))) h₀ run x r.tasks ((h.wait ms).called run c) := by
  refine sole_rest sole ready queue givenWay next (fun m here => (here.wait ms).call c) ?_
  intro m p clock quiet lasts alarms
  have later : m.clock < ms := clock ▸ lt_of_nextAlarm next
  have strikes : (h₀.surroundings run (some (ms, c))).strike? m p = some (ms, c) := by
    simpa [Surroundings.strike?, Host.surroundings, Option.filter, later] using alarms
  have fired : ((m.wait ms).call c).signal.fired = true := Signal.fired_after _ c
  rw [Surroundings.woken?, Surroundings.woken?, fired, quiet, lasts, strikes]
  rfl

/-! ### Letting the task work -/

/-- What is kept until a time is kept up to the moment at which that time comes. -/
theorem workFor_until {P : Runner α → Host σ → Prop} {ms : Nat}
    (polls : ∀ r h n rest, r.queue = n :: rest → P r h →
      P (({ r with queue := rest } : Runner α).poll h n).1
        (({ r with queue := rest } : Runner α).poll h n).2)
    (releases : ∀ r h, P r h → P r.release h)
    (rings : ∀ r h ms', r.queue = [] → r.givenWay = [] → r.nextAlarm h (.clock ms) = some ms' →
      ms' < ms → P r h → P (r.ring ms') (h.wait ms'))
    (early : ∀ r h, P r h → h.clock < ms) (fuel : Nat) {r r' : Runner α} {h h' : Host σ}
    (holds : P r h) (come : workFor (.clock ms) fuel r h = (true, r', h')) :
    ∃ r₁ h₁, P r₁ h₁ ∧ r₁.queue = [] ∧ r₁.givenWay = [] ∧
      r₁.nextAlarm h₁ (.clock ms) = some ms ∧ r' = r₁.ring ms ∧ h' = h₁.wait ms := by
  induction fuel generalizing r h with
  | zero => cases come
  | succ fuel ih =>
    have notYet : r.hasCome h (.clock ms) = false := by
      simpa [hasCome] using early r h holds
    rw [workFor] at come
    split at come
    · next n rest queue => exact ih (polls r h n rest queue holds) come
    · next queue =>
      simp only [notYet, Await.givesWay, Bool.false_eq_true, if_false] at come
      split at come
      · exact ih (releases r h holds) come
      · next given =>
        have givenWay : r.givenWay = [] := by simpa using given
        split at come
        · cases come
        · next ms' next =>
          -- the deadline is itself an alarm, so the next one rings no later
          have within : ms' ≤ ms := by
            rw [nextAlarm] at next
            refine (List.min?_eq_some_iff.1 next).2 ms (List.mem_filter.2 ⟨?_, ?_⟩)
            · exact List.mem_append_left _ (List.mem_singleton.2 rfl)
            · simpa using early r h holds
          change (if decide (ms ≤ ms') = true then (true, r.ring ms', h.wait ms')
            else workFor (.clock ms) fuel (r.ring ms') (h.wait ms')) = (true, r', h') at come
          rcases Nat.lt_or_eq_of_le within with before | rfl
          · rw [decide_eq_false (Nat.not_le_of_lt before)] at come
            exact ih (rings r h ms' queue givenWay next before holds) come
          · rw [decide_eq_true (Nat.le_refl ms')] at come
            cases come
            exact ⟨r, h, holds, queue, givenWay, next, rfl, rfl⟩

/-- The task comes to that, and is in the queue if it can go on. -/
structure Plays (s : Surroundings) (h₀ : Host σ) (run : String) (x : Option (Option α × Moment))
    (r : Runner α) (h : Host σ) : Prop where
  /-- whoever can go on is in the queue, or has given way -/
  ready : r.Ready h
  /-- the only task comes to that -/
  sole : Sole s h₀ run x r.tasks h

/-- So does a task that has not begun. -/
theorem plays_spawn {p : Program α} (owned : p.Owned run fun _ => True) (operation : String) :
    ((empty : Runner α).spawn operation p).2.Plays (h.surroundings run strike) h run
      (p.play (h.surroundings run strike) (h.moment run)) h where
  ready := by
    have only {n : Nat} {t : Task α}
        (here : ((empty : Runner α).spawn operation p).2.tasks[n]? = some t) :
        n = 0 ∧ t.stage = .fresh p := by
      cases n with
      | zero =>
        cases here
        exact ⟨rfl, rfl⟩
      | succ n => cases here
    refine ⟨fun here stage => ?_, fun here stage ends => ?_⟩
    · exact List.mem_singleton.2 (only here).1
    · cases stage.symm.trans (only here).2
  sole := ⟨operation, .fresh p, h.moment run, rfl, owned, rfl, .inl (h.at_moment run)⟩

theorem Plays.poll {n : Nat} {rest : List Nat}
    (plays : r.Plays (h₀.surroundings run strike) h₀ run x h) (queue : r.queue = n :: rest) :
    (({ r with queue := rest } : Runner α).poll h n).1.Plays (h₀.surroundings run strike) h₀ run x
      (({ r with queue := rest } : Runner α).poll h n).2 := by
  have sole := sole_poll (r := { r with queue := rest }) plays.sole n
  refine ⟨plays.ready.poll queue fun t here => ?_, sole⟩
  obtain ⟨operation, stage, m, tasks, -⟩ := plays.sole
  rw [tasks] at here
  obtain rfl := List.mem_singleton.1 (List.mem_of_getElem? here)
  rfl

theorem Plays.ring {a : Await} {ms : Nat} (plays : r.Plays (h₀.surroundings run strike) h₀ run x h)
    (queue : r.queue = []) (givenWay : r.givenWay = []) (next : r.nextAlarm h a = some ms)
    (calls : ∀ c ∈ strike, h.clock < c.1 → ms < c.1) :
    (r.ring ms).Plays (h₀.surroundings run strike) h₀ run x (h.wait ms) := by
  have sole := sole_wait plays.sole plays.ready queue givenWay next calls
  exact ⟨plays.ready.ring queue givenWay ms, sole⟩

/-- While the task works, it comes to the same. -/
theorem Plays.workFor (plays : r.Plays (h₀.surroundings run strike) h₀ run x h)
    (passed : ∀ c ∈ strike, c.1 ≤ h.clock) (a : Await) (fuel : Nat) :
    (workFor a fuel r h).2.1.Plays (h₀.surroundings run strike) h₀ run x
      (workFor a fuel r h).2.2 := by
  apply And.right (a := ∀ c ∈ strike, c.1 ≤ (Runner.workFor a fuel r h).2.2.clock)
  apply workFor_induct (P := fun r h => (∀ c ∈ strike, c.1 ≤ h.clock) ∧
    r.Plays (h₀.surroundings run strike) h₀ run x h)
  case polls =>
    rintro r h n rest queue ⟨passed, plays⟩
    exact ⟨by rwa [clock_poll], plays.poll queue⟩
  case releases =>
    rintro r h ⟨passed, plays⟩
    exact ⟨passed, plays.ready.release, plays.sole⟩
  case rings =>
    rintro r h ms queue givenWay next ⟨passed, plays⟩
    refine ⟨fun c call => Nat.le_trans (passed c call) (Nat.le_of_lt (lt_of_nextAlarm next)), ?_⟩
    exact plays.ring queue givenWay next fun c call later =>
      absurd (passed c call) (Nat.not_le_of_lt later)
  case holds => exact ⟨passed, plays⟩

/-- When the time of a call has come and the signal is called, the task comes to the same. -/
theorem Plays.called {ms fuel : Nat} {c : SignalCall} {r' : Runner α} {h' : Host σ}
    (plays : r.Plays (h₀.surroundings run (some (ms, c))) h₀ run x h) (early : h.clock < ms)
    (come : Runner.workFor (.clock ms) fuel r h = (true, r', h')) :
    h'.clock = ms ∧
      (r'.rouse (h'.called run c)).Plays (h₀.surroundings run (some (ms, c))) h₀ run x
        (h'.called run c) := by
  obtain ⟨r₁, h₁, ⟨early, plays⟩, queue, givenWay, next, rfl, rfl⟩ := workFor_until
    (P := fun r h => h.clock < ms ∧ r.Plays (h₀.surroundings run (some (ms, c))) h₀ run x h)
    (fun r h n rest queue ⟨early, plays⟩ => ⟨by rwa [clock_poll], plays.poll queue⟩)
    (fun r h ⟨early, plays⟩ => ⟨early, plays.ready.release, plays.sole⟩)
    (fun r h ms' queue givenWay next before ⟨early, plays⟩ =>
      ⟨before, plays.ring queue givenWay next fun c' call _ => by
        obtain rfl := Option.mem_some_iff.1 call
        exact before⟩)
    (fun r h holds => holds.1) fuel ⟨early, plays⟩ come
  have sole := sole_called plays.sole plays.ready queue givenWay next
  exact ⟨rfl, (plays.ready.ring queue givenWay ms).rouse run c, sole⟩

/-- A task that has ended came to that. -/
theorem Plays.eq_of_ending {s : Surroundings} {e : Ending α} (plays : r.Plays s h₀ run x h)
    (ended : r.ending 0 = some e) : ∃ m, x = some (e.value?, m) := by
  obtain ⟨operation, stage, m, tasks, owned, same, here⟩ := plays.sole
  rw [ending, tasks] at ended
  cases stage with
  | ended e' =>
    cases ended
    exact ⟨m, same.symm⟩
  | fresh p => cases ended
  | waiting p next => cases ended

/-! ### What a task comes to -/

/-- A program that is executed in the background, with nothing else going on, comes to what it comes
to in the surroundings of its host. -/
theorem play_of_workFor {operation : String} {p : Program α} {a : Await} {fuel : Nat} {e : Ending α}
    (owned : p.Owned run fun _ => True)
    (ended : (workFor a fuel ((empty : Runner α).spawn operation p).2 h).2.1.ending 0 = some e) :
    ∃ m, p.play (h.surroundings run none) (h.moment run) = some (e.value?, m) :=
  ((plays_spawn owned operation).workFor (by simp) a fuel).eq_of_ending ended

/-- So does one whose signal somebody calls who has waited for the time. -/
theorem play_of_called {operation : String} {p : Program α} {ms : Nat} {c : SignalCall} {a : Await}
    {fuel fuel' : Nat} {r' : Runner α} {h' : Host σ} {e : Ending α}
    (owned : p.Owned run fun _ => True) (early : h.clock < ms)
    (come : workFor (.clock ms) fuel ((empty : Runner α).spawn operation p).2 h = (true, r', h'))
    (ended : (workFor a fuel' (r'.rouse (h'.called run c)) (h'.called run c)).2.1.ending 0 =
      some e) :
    ∃ m, p.play (h.surroundings run (some (ms, c))) (h.moment run) = some (e.value?, m) := by
  have begins : ((empty : Runner α).spawn operation p).2.Plays (h.surroundings run (some (ms, c))) h
      run (p.play (h.surroundings run (some (ms, c))) (h.moment run)) h :=
    plays_spawn owned operation
  obtain ⟨rfl, plays⟩ := begins.called early come
  refine (plays.workFor (fun c' call => ?_) a fuel').eq_of_ending ended
  obtain rfl := Option.mem_some_iff.1 call
  exact Nat.le_of_eq (h'.clock_called run c).symm

end Runner

end

end Runbook
