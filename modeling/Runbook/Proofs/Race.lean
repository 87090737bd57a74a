import Runbook.Proofs.Playing
import Runbook.Proofs.Walk
import Runbook.Store.Memory

/-!
# The race of an executor

An executor that works at once between waits of so many milliseconds ends by itself, or because the
run is canceled, or because the time of its node is up, whichever comes first.

* `Execution.Plain` — the executors that this is about.
* `Execution.waits`, `Execution.ends` — how an executor goes if nobody cuts it short.
* `Execution.Closes` — where it is cut short, and how it comes to its end.
* `Execution.play_program` — so its work goes.
* `Run.race_of_execute` — what is left of the visit, the context and the failure.
-/

namespace Runbook

open Program

/-! ## Executors that nobody cuts short -/

/-- What is asked does not call the signal of the own run. -/
def Act.Spares (own : Option String → Bool) : Act → Prop
  | .fire => False
  | .cancel target _ => own target = false
  | _ => True

/-- The moment at which a wait is over that begins then. -/
def Moment.past (m : Moment) : Wait → Moment
  | .after ms => m.wait (m.clock + ms)
  | _ => m

/-- How an execution ends by itself. -/
structure Finish where
  /-- the moment then -/
  moment : Moment
  /-- the scene that it leaves -/
  scene : Scene
  /-- how it ends -/
  outcome : Outcome

namespace Execution

/-- It waits so many milliseconds where it waits, and never calls the signal of its own run. -/
def Plain (own : Option String → Bool) : Execution → Prop
  | .finish .. => True
  | .ask act next => act.Spares own ∧ ∀ x, (next x).Plain own
  | .pause _ wait next => (∃ ms, wait = .after ms) ∧ next.Plain own

/-- The waits of an execution that is not cut short: the moment at which each one begins, and the
scene then. -/
def waits (s : Surroundings) (run : String) : Execution → Moment → List (Moment × Scene)
  | .finish .., _ => []
  | .ask act next, m => (next (s.answer m (.act run act))).waits s run (s.after m (.act run act))
  | .pause scene wait next, m => (m, scene) :: next.waits s run (m.past wait)

/-- Its end. -/
def ends (s : Surroundings) (run : String) : Execution → Moment → Finish
  | .finish scene outcome, m => ⟨m, scene, outcome⟩
  | .ask act next, m => (next (s.answer m (.act run act))).ends s run (s.after m (.act run act))
  | .pause _ wait next, m => next.ends s run (m.past wait)

/-- The times at which it works: where a wait begins, and where it ends. -/
def clocks (s : Surroundings) (run : String) (e : Execution) (m : Moment) : List Nat :=
  (e.waits s run m).map (·.1.clock) ++ [(e.ends s run m).moment.clock]

/-- The wait that has begun last. -/
def waitAt? (waits : List (Moment × Scene)) (clock : Nat) : Option (Moment × Scene) :=
  (waits.filter fun w => w.1.clock ≤ clock).getLast?

/-- How an execution with these waits and this end comes to its end if it may be cut short, the
scene that is left, and the moment then. -/
inductive Closes (s : Surroundings) (deadline : Option Nat) (waits : List (Moment × Scene))
    (f : Finish) : Scene → Closing → Moment → Prop where
  /-- it ends by itself before the signal is called, and no later than the deadline -/
  | finished (uncalled : ∀ c ∈ s.strike, f.moment.clock < c.1)
      (inTime : ∀ due ∈ deadline, f.moment.clock ≤ due) :
    Closes s deadline waits f f.scene (.finished f.outcome) f.moment
  /-- the signal is called before it has ended, and before the deadline -/
  | canceled {clock : Nat} {c : SignalCall} {m : Moment} {scene : Scene}
      (called : s.strike = some (clock, c)) (early : clock < f.moment.clock)
      (inTime : ∀ due ∈ deadline, clock < due) (waiting : waitAt? waits clock = some (m, scene)) :
    Closes s deadline waits f scene .canceled ((m.wait clock).call c)
  /-- the deadline comes before it has ended, and before the signal is called -/
  | expired {due : Nat} {m : Moment} {scene : Scene} (limited : deadline = some due)
      (early : due < f.moment.clock) (uncalled : ∀ c ∈ s.strike, due < c.1)
      (waiting : waitAt? waits due = some (m, scene)) :
    Closes s deadline waits f scene .expired (m.wait due)

variable {s : Surroundings} {run : String} {e : Execution} {m : Moment} {deadline : Option Nat}

/-! ### Times and signals -/

/-- The first time at which an execution works is that at which it begins. -/
theorem clock_mem_clocks (e : Execution) (m : Moment) : m.clock ∈ e.clocks s run m := by
  induction e generalizing m with
  | finish scene outcome => exact List.mem_singleton.2 rfl
  | ask act next ih => exact ih _ (s.after m (.act run act))
  | pause scene wait next ih => exact List.mem_cons_self

theorem clock_le_past (m : Moment) (wait : Wait) : m.clock ≤ (m.past wait).clock := by
  cases wait with
  | after ms => exact Nat.le_add_right ..
  | _ => exact Nat.le_refl _

/-- It works no earlier. -/
theorem clock_le (e : Execution) (m : Moment) {clock : Nat} (works : clock ∈ e.clocks s run m) :
    m.clock ≤ clock := by
  induction e generalizing m with
  | finish scene outcome => exact Nat.le_of_eq (List.mem_singleton.1 works).symm
  | ask act next ih => exact ih _ (s.after m (.act run act)) works
  | pause scene wait next ih =>
    rcases List.mem_cons.1 works with rfl | later
    · exact Nat.le_refl _
    · exact Nat.le_trans (clock_le_past m wait) (ih _ later)

/-- What spares the signal leaves it as it is. -/
theorem signal_after {act : Act} (spares : act.Spares s.own) :
    (s.after m (.act run act)).signal = m.signal := by
  cases act with
  | fire => exact spares.elim
  | cancel target reason => exact if_neg (by simp [show s.own target = false from spares])
  | _ => rfl

/-- Nobody calls it while the execution works or waits. -/
theorem signal_waits (plain : e.Plain s.own) {w : Moment × Scene}
    (listed : w ∈ e.waits s run m) : w.1.signal = m.signal := by
  induction e generalizing m with
  | finish scene outcome => cases listed
  | ask act next ih => exact (ih _ (plain.2 _) listed).trans (signal_after plain.1)
  | pause scene wait next ih =>
    obtain ⟨⟨ms, rfl⟩, plain⟩ := plain
    rcases List.mem_cons.1 listed with rfl | later
    · rfl
    · exact ih (m := m.past (.after ms)) plain later

theorem signal_ends (plain : e.Plain s.own) : (e.ends s run m).moment.signal = m.signal := by
  induction e generalizing m with
  | finish scene outcome => rfl
  | ask act next ih => exact (ih _ (plain.2 _)).trans (signal_after plain.1)
  | pause scene wait next ih =>
    obtain ⟨⟨ms, rfl⟩, plain⟩ := plain
    exact ih (m := m.past (.after ms)) plain

end Execution

/-! ### Waits that may be cut short -/

namespace Surroundings

variable {s : Surroundings} {run : String} {m : Moment} {deadline : Option Nat} {ms : Nat}

/-- A wait whose time is to come goes on until the signal is called, or until the first alarm. -/
theorem wake?_after (quiet : m.signal.fired = false) (positive : 0 < ms)
    (begun : ∀ due ∈ deadline, m.clock < due) : s.wake? m ⟨run, .after ms, deadline⟩ =
      match s.strike? m ⟨run, .until (m.clock + ms), deadline⟩ with
      | some (clock, c) => some (.signalled, (m.wait clock).call c)
      | none => ((m.clock + ms) :: deadline.toList).min?.bind fun clock =>
        ((⟨run, .until (m.clock + ms), deadline⟩ : Pause).ending clock true).map
          fun w => (w, m.wait clock) := by
  have lasts (turn : Bool) :
      (⟨run, .until (m.clock + ms), deadline⟩ : Pause).ending m.clock turn = none := by
    have unreached : ¬m.clock + ms ≤ m.clock := by omega
    have unexpired : deadline.any (· ≤ m.clock) = false := by
      cases deadline with
      | none => rfl
      | some due => simpa using begun due rfl
    rw [Pause.ending, Wait.reached, decide_eq_false unreached, unexpired]
    rfl
  have fixed : (⟨run, .after ms, deadline⟩ : Pause).fixedAt m.clock =
      ⟨run, .until (m.clock + ms), deadline⟩ := rfl
  rw [wake?, fixed, lasts]
  dsimp only
  rw [woken?, quiet, lasts]
  rfl

/-- It lasts until its time has come, -/
theorem wake?_due (quiet : m.signal.fired = false) (inTime : ∀ due ∈ deadline, m.clock + ms ≤ due)
    (uncalled : ∀ c ∈ s.strike, m.clock + ms < c.1) :
    s.wake? m ⟨run, .after ms, deadline⟩ = some (.due, m.past (.after ms)) := by
  have reached (turn : Bool) :
      (⟨run, .until (m.clock + ms), deadline⟩ : Pause).ending (m.clock + ms) turn = some .due := by
    simp [Pause.ending, Wait.reached]
  rcases Nat.eq_zero_or_pos ms with rfl | positive
  · simp only [wake?, Pause.fixedAt, Wait.fixedAt, Nat.add_zero] at reached ⊢
    rw [reached]
    rfl
  · have begun (due : Nat) (limited : due ∈ deadline) : m.clock < due :=
      Nat.lt_of_lt_of_le (Nat.lt_add_of_pos_right positive) (inTime due limited)
    have uncalled : s.strike? m ⟨run, .until (m.clock + ms), deadline⟩ = none :=
      strike?_eq_none List.mem_cons_self fun c call _ => uncalled c call
    have first : ((m.clock + ms) :: deadline.toList).min? = some (m.clock + ms) := by
      refine List.min?_eq_some_iff.2 ⟨List.mem_cons_self, fun due listed => ?_⟩
      rcases List.mem_cons.1 listed with rfl | limited
      · exact Nat.le_refl _
      · exact inTime due (Option.mem_toList.1 limited)
    rw [wake?_after quiet positive begun, uncalled, first]
    simp [reached, Moment.past]

/-- unless the deadline comes first, -/
theorem wake?_expired (quiet : m.signal.fired = false) {due : Nat} (begun : m.clock ≤ due)
    (early : due < m.clock + ms) (uncalled : ∀ c ∈ s.strike, due < c.1) :
    s.wake? m ⟨run, .after ms, some due⟩ = some (.expired, m.wait due) := by
  have expired (turn : Bool) :
      (⟨run, .until (m.clock + ms), some due⟩ : Pause).ending due turn = some .expired := by
    simp [Pause.ending, Wait.reached, early]
  rcases Nat.eq_or_lt_of_le begun with rfl | begun
  · simp only [wake?, Pause.fixedAt, Wait.fixedAt, expired]
    rfl
  · have positive : 0 < ms := by omega
    have listed : due ∈ (⟨run, .until (m.clock + ms), some due⟩ : Pause).alarms := by
      simp [Pause.alarms]
    have uncalled : s.strike? m ⟨run, .until (m.clock + ms), some due⟩ = none :=
      strike?_eq_none listed fun c call _ => uncalled c call
    have first : ((m.clock + ms) :: (some due).toList).min? = some due :=
      List.min?_eq_some_iff.2 ⟨by simp, by simp [Nat.le_of_lt early]⟩
    rw [wake?_after quiet positive (by simpa using begun), uncalled, first]
    simp [expired]

/-- or the signal is called. -/
theorem wake?_signalled (quiet : m.signal.fired = false) {clock : Nat} {c : SignalCall}
    (called : s.strike = some (clock, c)) (begun : m.clock < clock) (early : clock < m.clock + ms)
    (inTime : ∀ due ∈ deadline, clock < due) :
    s.wake? m ⟨run, .after ms, deadline⟩ = some (.signalled, (m.wait clock).call c) := by
  have comes : s.strike? m ⟨run, .until (m.clock + ms), deadline⟩ = some (clock, c) := by
    have alarms : ∀ alarm ∈ (⟨run, .until (m.clock + ms), deadline⟩ : Pause).alarms,
        clock ≤ alarm := by
      intro alarm listed
      rcases List.mem_append.1 listed with own | limited
      · exact Nat.le_of_lt (List.mem_singleton.1 own ▸ early)
      · exact Nat.le_of_lt (inTime alarm (Option.mem_toList.1 limited))
    simpa [strike?, called, Option.filter, begun] using alarms
  have begun' (due : Nat) (limited : due ∈ deadline) : m.clock < due :=
    Nat.lt_trans begun (inTime due limited)
  rw [wake?_after quiet (by omega) begun', comes]

end Surroundings

/-! ## Executors that may be cut short -/

namespace Execution

variable {s : Surroundings} {run : String} {m : Moment} {deadline : Option Nat}
  {waits : List (Moment × Scene)} {f : Finish} {scene : Scene} {closing : Closing}

/-- The first wait goes on until another one begins. -/
theorem waitAt?_first {clock : Nat} (begun : m.clock ≤ clock)
    (later : ∀ w ∈ waits, clock < w.1.clock) :
    waitAt? ((m, scene) :: waits) clock = some (m, scene) := by
  have none : (waits.filter fun w => w.1.clock ≤ clock) = [] :=
    List.filter_eq_nil_iff.2 fun w listed => by simpa using later w listed
  rw [waitAt?, List.filter_cons_of_pos (by simpa using begun), none]
  rfl

theorem mem_of_waitAt? {clock : Nat} {w : Moment × Scene} (waiting : waitAt? waits clock = some w) :
    w ∈ waits :=
  (List.mem_filter.1 (List.mem_of_getLast? waiting)).1

theorem waitAt?_cons {clock : Nat} {w x : Moment × Scene} (waiting : waitAt? waits clock = some x) :
    waitAt? (w :: waits) clock = some x := by
  rw [waitAt?] at waiting ⊢
  by_cases begun : w.1.clock ≤ clock
  · rw [List.filter_cons_of_pos (by simpa using begun), List.getLast?_cons, waiting]
    rfl
  · rw [List.filter_cons_of_neg (by simpa using begun), waiting]

/-- What comes before does not matter to where an execution is cut short. -/
theorem Closes.cons {m' : Moment} (closes : Closes s deadline waits f scene closing m')
    (w : Moment × Scene) : Closes s deadline (w :: waits) f scene closing m' := by
  cases closes with
  | finished uncalled inTime => exact .finished uncalled inTime
  | canceled called early inTime waiting =>
    exact .canceled called early inTime (waitAt?_cons waiting)
  | expired limited early uncalled waiting =>
    exact .expired limited early uncalled (waitAt?_cons waiting)

/-- There is time until then, or the deadline comes before. -/
theorem inTime_or_lt (deadline : Option Nat) (clock : Nat) :
    (∀ due ∈ deadline, clock ≤ due) ∨ ∃ due, deadline = some due ∧ due < clock := by
  cases deadline with
  | none => exact .inl nofun
  | some due =>
    rcases Nat.lt_or_ge due clock with early | inTime
    · exact .inr ⟨due, rfl, early⟩
    · exact .inl fun due' limited => Option.mem_some_iff.1 limited ▸ inTime

/-- The work of an executor ends by itself, or by the signal, or by the deadline, whichever comes
first; the signal is not called just when it wakes up. -/
theorem play_program (e : Execution) (plain : e.Plain s.own) (quiet : m.signal.fired = false)
    (begun : ∀ due ∈ deadline, m.clock ≤ due)
    (apart : ∀ c ∈ s.strike, m.clock ≤ c.1 ∧ c.1 ∉ e.clocks s run m ∧ c.1 ∉ deadline) :
    ∃ scene closing m', Closes s deadline (e.waits s run m) (e.ends s run m) scene closing m' ∧
      (e.program run deadline).play s m = some (some (scene, closing), m') := by
  induction e generalizing m with
  | finish scene outcome =>
    have uncalled (c : Nat × SignalCall) (call : c ∈ s.strike) : m.clock < c.1 := by
      obtain ⟨later, other, -⟩ := apart c call
      exact Nat.lt_of_le_of_ne later fun same => other (List.mem_singleton.2 same.symm)
    exact ⟨scene, _, m, .finished uncalled begun, rfl⟩
  | ask act next ih =>
    have same : (s.after m (.act run act)).signal = m.signal := signal_after plain.1
    exact ih _ (m := s.after m (.act run act)) (plain.2 _) (same ▸ quiet) begun apart
  | pause scene wait next ih =>
    obtain ⟨⟨ms, rfl⟩, plain⟩ := plain
    have later (clock : Nat) (works : clock ∈ next.clocks s run (m.past (.after ms))) :
        m.clock + ms ≤ clock := clock_le next _ works
    have ends := later _ (List.mem_append_right _ (List.mem_singleton.2 rfl))
    have waits (w : Moment × Scene) (listed : w ∈ next.waits s run (m.past (.after ms))) :=
      later w.1.clock (List.mem_append_left _ (List.mem_map_of_mem listed))
    have apart (c : Nat × SignalCall) (call : c ∈ s.strike) : m.clock < c.1 ∧
        c.1 ∉ next.clocks s run (m.past (.after ms)) ∧ c.1 ∉ deadline ∧ c.1 ≠ m.clock + ms := by
      obtain ⟨begun, other, notDue⟩ := apart c call
      obtain ⟨ne, other⟩ := not_or.1 (mt List.mem_cons.2 other)
      refine ⟨Nat.lt_of_le_of_ne begun (Ne.symm ne), other, notDue, fun same => other ?_⟩
      rw [same]
      exact clock_mem_clocks next (m.past (.after ms))
    change ∃ scene' closing m', _ ∧ (s.wake? m ⟨run, .after ms, deadline⟩).bind _ = _
    -- of the call, the deadline and the end of the wait the first one ends it
    by_cases struck : ∃ c ∈ s.strike, c.1 < m.clock + ms ∧ ∀ due ∈ deadline, c.1 < due
    · obtain ⟨⟨clock, c⟩, called, early, inTime⟩ := struck
      have begun := (apart _ called).1
      refine ⟨scene, .canceled, (m.wait clock).call c,
        .canceled called (Nat.lt_of_lt_of_le early ends) inTime ?_, ?_⟩
      · exact waitAt?_first (Nat.le_of_lt begun) fun w listed =>
          Nat.lt_of_lt_of_le early (waits w listed)
      · rw [s.wake?_signalled quiet called begun early inTime]
        rfl
    · rcases inTime_or_lt deadline (m.clock + ms) with inTime | ⟨due, rfl, early⟩
      · have uncalled (c : Nat × SignalCall) (call : c ∈ s.strike) : m.clock + ms < c.1 := by
          obtain ⟨-, -, -, ne⟩ := apart c call
          refine Nat.lt_of_le_of_ne (Nat.le_of_not_lt fun early => ?_) (Ne.symm ne)
          exact struck ⟨c, call, early, fun due limited =>
            Nat.lt_of_lt_of_le early (inTime due limited)⟩
        have apart' (c : Nat × SignalCall) (call : c ∈ s.strike) :
            (m.past (.after ms)).clock ≤ c.1 ∧
              c.1 ∉ next.clocks s run (m.past (.after ms)) ∧ c.1 ∉ deadline :=
          ⟨Nat.le_of_lt (uncalled c call), (apart c call).2.1, (apart c call).2.2.1⟩
        obtain ⟨scene', closing, m', closes, played⟩ :=
          ih (m := m.past (.after ms)) plain quiet inTime apart'
        refine ⟨scene', closing, m', closes.cons (m, scene), ?_⟩
        rw [s.wake?_due quiet inTime uncalled]
        exact played
      · have uncalled (c : Nat × SignalCall) (call : c ∈ s.strike) : due < c.1 := by
          obtain ⟨-, -, notDue, -⟩ := apart c call
          have ne : due ≠ c.1 := fun same => notDue (congrArg some same)
          refine Nat.lt_of_le_of_ne (Nat.le_of_not_lt fun first => ?_) ne
          refine struck ⟨c, call, Nat.lt_trans first early, fun due' limited => ?_⟩
          obtain rfl := Option.mem_some_iff.1 limited
          exact first
        refine ⟨scene, .expired, m.wait due,
          .expired rfl (Nat.lt_of_lt_of_le early ends) uncalled ?_, ?_⟩
        · exact waitAt?_first (begun due rfl) fun w listed =>
            Nat.lt_of_lt_of_le early (waits w listed)
        · rw [s.wake?_expired quiet (begun due rfl) early uncalled]
          rfl

end Execution

/-! ## Nodes -/

/-- The reason that failures give if a signal is called so first. -/
def SignalCall.reason : SignalCall → String
  | .cancel reason => reason
  | .fire => "canceled"

theorem Signal.reason_after_quiet (c : SignalCall) : (Signal.quiet.after c).reason = c.reason := by
  cases c <;> rfl

/-- What a node says that fails, if its executor ends by itself, -/
def Outcome.text? : Outcome → Option String
  | .done => none
  | .error detail => some detail
  | .panicked detail => some ("panic: " ++ detail.getD "unknown panic")

/-- and however it comes to its end. -/
def Closing.text? (strike : Option (Nat × SignalCall)) (limit : Option Duration) :
    Closing → Option String
  | .finished outcome => outcome.text?
  | .canceled => strike.map fun c => "task canceled: " ++ c.2.reason
  | .expired => limit.map fun limit => "executor timed out after " ++ limit.describe

namespace Run

variable {s : Surroundings} {m : Moment} {r : Run} {n : NodeSpec} {v last : Visit}
  {earlier : List Visit}

/-- The moment at which the executor of a node begins to work on a visit. -/
def begun (r : Run) (s : Surroundings) (v : Visit) (m : Moment) : Moment :=
  s.after (s.after (s.after m (.signal r.id)) .clock) (.atWork r.id ⟨v, r.context⟩)

/-- What a failure says is what the node has to say. -/
theorem message_failure? {deadline : Option Nat} {waits : List (Moment × Scene)} {f : Finish}
    {scene : Scene} {closing : Runbook.Closing} {m' : Moment}
    (closes : Execution.Closes s deadline waits f scene closing m')
    (quiet : f.moment.signal = .quiet) (quiet' : ∀ w ∈ waits, w.1.signal = .quiet)
    (limit : Option Duration) :
    (failure? m'.signal limit closing).map Failure.message = closing.text? s.strike limit := by
  cases closes with
  | finished uncalled inTime =>
    rw [quiet]
    cases f.outcome <;> rfl
  | @canceled clock c m scene called early inTime waiting =>
    have quiet : m.signal = .quiet := quiet' (m, scene) (Execution.mem_of_waitAt? waiting)
    have signal : ((m.wait clock).call c).signal.reason = c.reason := by
      change (m.signal.after c).reason = c.reason
      rw [quiet, Signal.reason_after_quiet]
    have text : Closing.text? s.strike limit .canceled = some ("task canceled: " ++ c.reason) := by
      rw [Closing.text?, called, Option.map_some]
    rw [text, ← signal]
    rfl
  | expired limited early uncalled waiting =>
    cases limit <;> rfl

/-- The run as an executor has left it. -/
def left (r : Run) (scene : Scene) (earlier : List Visit) : Run :=
  { r with trail := scene.visit :: earlier, context := scene.context }

/-- So the executor of a node works, and behind it only the signal is looked at. -/
theorem play_execute (trail : r.trail = last :: earlier)
    (plain : (n.executor ⟨v, r.context⟩).Plain s.own) (quiet : m.signal = .quiet)
    (apart : ∀ c ∈ s.strike, m.clock ≤ c.1 ∧
      c.1 ∉ (n.executor ⟨v, r.context⟩).clocks s r.id (r.begun s v m) ∧
      ∀ limit ∈ n.limit, c.1 ≠ m.clock + limit.ceilMillis) :
    ∃ scene closing m',
      Execution.Closes s (n.limit.map (m.clock + ·.ceilMillis))
        ((n.executor ⟨v, r.context⟩).waits s r.id (r.begun s v m))
        ((n.executor ⟨v, r.context⟩).ends s r.id (r.begun s v m)) scene closing m' ∧
      (r.execute n v).play s m = some (some (scene.visit, failure? m'.signal n.limit closing,
        r.left scene earlier), s.after m' (.signal r.id)) := by
  have unfired : m.signal.fired = false := by rw [quiet]; rfl
  have begun (due : Nat) (limited : due ∈ n.limit.map (m.clock + ·.ceilMillis)) :
      (r.begun s v m).clock ≤ due := by
    obtain ⟨limit, -, rfl⟩ := Option.map_eq_some_iff.1 limited
    exact Nat.le_add_right ..
  have apart' (c : Nat × SignalCall) (call : c ∈ s.strike) : (r.begun s v m).clock ≤ c.1 ∧
      c.1 ∉ (n.executor ⟨v, r.context⟩).clocks s r.id (r.begun s v m) ∧
        c.1 ∉ n.limit.map (m.clock + ·.ceilMillis) := by
    obtain ⟨later, other, notDue⟩ := apart c call
    refine ⟨later, other, fun limited => ?_⟩
    obtain ⟨limit, here, same⟩ := Option.map_eq_some_iff.1 limited
    exact notDue limit here same.symm
  obtain ⟨scene, closing, m', closes, played⟩ := Execution.play_program (m := r.begun s v m)
    (n.executor ⟨v, r.context⟩) plain unfired begun apart'
  refine ⟨scene, closing, m', closes, ?_⟩
  change (if m.signal.fired then _ else _ : Program _).play s (s.after m (.signal r.id)) = _
  rw [if_neg (by simp [unfired])]
  have worked := play_bind (f := fun x => r.signal.bind fun signal =>
    done (x.1.visit, failure? signal n.limit x.2,
      { r.edit fun _ => x.1.visit with context := x.1.context })) played
  refine worked.trans ?_
  rw [edit, trail]
  rfl

/-- An executor whose run is canceled already does not begin. Otherwise it works until it ends by
itself, or the signal is called, or its time is up, whichever comes first; the node fails, if it
does, as that demands, and what the executor has done so far to its visit and to the context is
kept. The signal is not called just when the executor wakes up or when its time is up. -/
theorem race_of_execute (trail : r.trail = last :: earlier)
    (plain : (n.executor ⟨v, r.context⟩).Plain s.own) :
    (m.signal.fired = true → (r.execute n v).play s m =
      some (some (v, some (.canceled m.signal.reason), r), s.after m (.signal r.id))) ∧
    (m.signal = .quiet →
      (∀ c ∈ s.strike, m.clock ≤ c.1 ∧
        c.1 ∉ (n.executor ⟨v, r.context⟩).clocks s r.id (r.begun s v m) ∧
        ∀ limit ∈ n.limit, c.1 ≠ m.clock + limit.ceilMillis) →
      ∃ scene closing m' failure,
        Execution.Closes s (n.limit.map (m.clock + ·.ceilMillis))
          ((n.executor ⟨v, r.context⟩).waits s r.id (r.begun s v m))
          ((n.executor ⟨v, r.context⟩).ends s r.id (r.begun s v m)) scene closing m' ∧
        failure.map Failure.message = closing.text? s.strike n.limit ∧
        (r.execute n v).play s m = some (some (scene.visit, failure, r.left scene earlier),
          s.after m' (.signal r.id)) ∧
        ∀ f ∈ failure, ∀ m, ∃ now, ((r.left scene earlier).fail f).play s m =
          some (some (r.left { scene with visit := { scene.visit with
            status := .error, result := f.message, endTime := some now } } earlier),
            s.after m .now)) := by
  refine ⟨fun fired => ?_, fun quiet apart => ?_⟩
  · change (if m.signal.fired then _ else _ : Program _).play s (s.after m (.signal r.id)) = _
    rw [if_pos fired]
    rfl
  -- nothing has fired yet, so what comes first decides
  · obtain ⟨scene, closing, m', closes, played⟩ := play_execute trail plain quiet apart
    have quiet' : ∀ w ∈ (n.executor ⟨v, r.context⟩).waits s r.id (r.begun s v m),
        w.1.signal = .quiet := fun w listed => (Execution.signal_waits plain listed).trans quiet
    have text := message_failure? closes ((Execution.signal_ends plain).trans quiet) quiet' n.limit
    exact ⟨scene, closing, m', _, closes, text, played, fun f _ m => ⟨s.reply m .now, rfl⟩⟩

end Run

/-! ### A node whose time is up -/

/-- An executor that counts twice, with a wait before and after. -/
def Executor.counting : Executor := fun scene =>
  .pause scene (.after 5) <|
    .pause { scene with context := scene.context.set "k" (.int 1) } (.after 5) <|
      .finish { scene with context := scene.context.set "k" (.int 2) } .done

/-- A node with that executor, which has so much time. -/
def NodeSpec.hasty (limit : Duration) : NodeSpec :=
  ⟨startName, .immediate, .counting, none, none, some limit⟩

/-- The visit of such a node. -/
def Visit.hasty : Visit := .create "1" Run.vigil.record startName .immediate (.ofMicros 0)

/-- A host, while somebody is going to cancel the run after twenty milliseconds. -/
def Surroundings.tardy : Surroundings :=
  (Host.start Memory.empty).surroundings "1" (some (20, .cancel "stop"))

namespace Run

/-- The run of such a node. -/
def hasty : Run := vigil.enter .hasty

theorem plain_counting (scene : Scene) (own : Option String → Bool) :
    (Executor.counting scene).Plain own :=
  ⟨⟨5, rfl⟩, ⟨5, rfl⟩, trivial⟩

/-- Nobody wakes up just when it is canceled. -/
theorem apart_tardy {limit : Duration} (short : limit.ceilMillis < 20) :
    ∀ c ∈ Surroundings.tardy.strike, 0 ≤ c.1 ∧
      c.1 ∉ (Executor.counting ⟨.hasty, hasty.context⟩).clocks .tardy "1"
        (hasty.begun .tardy .hasty ((Host.start Memory.empty).moment "1")) ∧
      ∀ limit' ∈ some limit, c.1 ≠ 0 + limit'.ceilMillis := by
  intro c call
  obtain rfl := Option.mem_some_iff.1 call
  refine ⟨by decide, by decide, fun limit' limited => ?_⟩
  obtain rfl := Option.mem_some_iff.1 limited
  omega

/-- After seven milliseconds it has counted once. -/
theorem hasty_expires : ∃ scene failure m',
    (hasty.execute (.hasty (.ofMillis 7)) .hasty).play .tardy
        ((Host.start Memory.empty).moment "1") =
      some (some (scene.visit, failure, hasty.left scene []), m') ∧
    failure.map Failure.message = some "executor timed out after 7ms" ∧
    m'.clock = 7 ∧ scene.context.get? "k" = some (.int 1) := by
  obtain ⟨scene, closing, m', failure, closes, text, played, -⟩ :=
    (race_of_execute (r := hasty) (n := .hasty (.ofMillis 7))
      (m := (Host.start Memory.empty).moment "1") rfl (plain_counting ..)).2 rfl
      (apart_tardy (by decide))
  cases closes with
  | finished uncalled inTime => exact absurd (inTime 7 rfl) (by decide)
  | canceled called early =>
    cases called
    exact absurd early (by decide)
  | expired limited early uncalled waiting =>
    cases limited
    cases waiting
    exact ⟨_, failure, _, played, text, rfl, rfl⟩

/-- Ten milliseconds are not too long for a node that has nine and a half: its time is up when a
whole millisecond has passed. -/
theorem hasty_succeeds :
    (Duration.ofParts 0 9500000).seconds * 1000000000 + (Duration.ofParts 0 9500000).nanos <
      10 * 1000000 ∧
    ∃ scene m', (hasty.execute (.hasty (.ofParts 0 9500000)) .hasty).play .tardy
        ((Host.start Memory.empty).moment "1") =
      some (some (scene.visit, none, hasty.left scene []), m') ∧ m'.clock = 10 := by
  refine ⟨by decide, ?_⟩
  obtain ⟨scene, closing, m', closes, played⟩ :=
    play_execute (r := hasty) (n := .hasty (.ofParts 0 9500000))
      (m := (Host.start Memory.empty).moment "1") rfl (plain_counting ..) rfl
      (apart_tardy (by decide))
  cases closes with
  | finished uncalled inTime => exact ⟨_, _, played, rfl⟩
  | canceled called early =>
    cases called
    exact absurd early (by decide)
  | expired limited early =>
    cases limited
    exact absurd early (by decide)

end Run

end Runbook
