import Runbook.Engine
import Runbook.Proofs.Cancellation
import Runbook.Proofs.Owned

/-!
# What an engine performs is a behaviour

A host answers a run and an engine wakes it up. Whatever else the engine does
meanwhile, all of that is allowed by `Trace.Answers` and `Trace.Wakes`: what holds
of every behaviour holds of every run that an engine executes.

* `Host.Calls` — between two hosts the signal of a run was only called.
* `Host.leads_advance` — a host carries on a program along one of its behaviours.
* `Runner.exists_calls_workFor` — whatever the tasks in the background do, to the signal of
  a run it comes to calls.
* `Engine.ends_perform` — a program that an engine performs ends as one of its
  behaviours does.
-/

namespace Runbook

open Program

namespace Host

variable {σ α : Type} {h h' h'' : Host σ} {run : String} {cs : List SignalCall}

/-! ## Calls of a signal -/

/-- From one host to the other the signal of the run was called so. -/
def Calls (run : String) (cs : List SignalCall) (h h' : Host σ) : Prop :=
  h'.signal run = cs.foldr (fun c s => s.after c) (h.signal run)

theorem calls_append {cs' : List SignalCall} (hc : Calls run cs h h') (hc' : Calls run cs' h' h'') :
    Calls run (cs' ++ cs) h h'' := by
  rw [Calls, hc', hc, List.foldr_append]

/-- A signal that has fired stays so. -/
theorem fired_of_calls (calls : Calls run cs h h') (fired : (h.signal run).fired = true) :
    (h'.signal run).fired = true := by
  rw [calls]
  cases cs with
  | nil => exact fired
  | cons c cs => exact Signal.fired_after _ c

/-- The first reason that it was given stays, too. -/
theorem note_of_calls (calls : Calls run cs h h') {reason : String}
    (given : (h.signal run).note = some reason) : (h'.signal run).note = some reason := by
  rw [calls]
  clear calls
  induction cs with
  | nil => exact given
  | cons c cs ih => exact Signal.note_after ih c

/-- Calls to the store leave all signals alone. -/
theorem signal_call {β : Type} (c : StoreCall) (f : σ → Reply σ β) :
    (h.call c f).2.signal run = h.signal run := by
  rw [call]
  dsimp only
  split <;> rfl

/-- What an executor asks comes to calls of the signal of a run, and is answered
truly. -/
theorem exists_calls_perform (h : Host σ) (id : String) (a : Act) :
    ∃ cs, Calls run cs h (h.perform id a).2 ∧
      (id = run → a.Allows (h.signal run) (h.perform id a).1 cs) := by
  cases a with
  | isCanceled => exact ⟨[], rfl, fun same => by rw [same]; rfl⟩
  | cancel target reason =>
    cases found : h.target? id target with
    | none => exact ⟨[], by simp [Calls, perform, found], fun _ => trivial⟩
    | some other =>
      by_cases same : run = other
      · subst same
        exact ⟨[.cancel reason], by simp [Calls, perform, found, Signal.after], fun _ => trivial⟩
      · exact ⟨[], by simp [Calls, perform, found, signal_cancel_of_ne _ _ same], fun _ => trivial⟩
  | fire =>
    by_cases same : run = id
    · subst same
      exact ⟨[.fire], by simp [Calls, perform, Signal.after], fun _ => List.mem_singleton.2 rfl⟩
    · exact ⟨[], by simp [Calls, perform, signal_fire_of_ne _ same], fun h => absurd h.symm same⟩
  | _ => exact ⟨[], rfl, fun _ => trivial⟩

/-! ## Waking up -/

theorem ending_ne_signalled {p : Pause} {clock : Nat} {turn : Bool} :
    p.ending clock turn ≠ some .signalled := by
  rw [Pause.ending]
  split
  · simp
  · split <;> simp

/-- Time is up only for those who have a deadline. -/
theorem deadline_of_ending {p : Pause} {clock : Nat} {turn : Bool}
    (h : p.ending clock turn = some .expired) : p.deadline.isSome := by
  rw [Pause.ending] at h
  split at h
  · cases h
  · split at h
    · next due =>
      rw [Option.any_eq_true] at due
      obtain ⟨ms, hms, -⟩ := due
      simp [hms]
    · cases h

/-- A program that waits goes on as its behaviours may, whatever has been done to
its signal meanwhile. -/
theorem wakes_of_calls {p p' : Pause} {h h' : Host σ} {t : Trace} {cs : List SignalCall}
    (fits : h.signal run = t.signal) (calls : Calls run cs h h') (own : p.run = run)
    (deadline : p.deadline = p'.deadline) :
    ∃ u, t.Wakes .prompt p' ((h'.wake? p).getD .due) u ∧ h'.signal run = u.signal := by
  have now : h'.signal run = (Trace.calls cs ++ .waits p' :: t).signal := by
    rw [calls, Trace.signal_calls, Trace.signal_waits, fits]
  refine ⟨.woke ((h'.wake? p).getD .due) :: Trace.calls cs ++ .waits p' :: t, ?_, now⟩
  refine ⟨fun expired => ?_, _, [], .inl rfl, rfl, .inr ⟨cs, ?_, rfl⟩⟩
  · rw [wake?, own] at expired
    split at expired
    · cases expired
    · cases ends : p.ending h'.clock true with
      | none => rw [ends] at expired; cases expired
      | some w =>
        obtain rfl : w = .expired := by simpa [ends] using expired
        rw [← deadline]
        exact deadline_of_ending ends
  · rw [wake?, own, ← now]
    split
    · next fired => simp [fired]
    · next quiet =>
      cases ends : p.ending h'.clock true with
      | none => simp [quiet]
      | some w =>
        have ne : w ≠ .signalled := fun hw => ending_ne_signalled (hw ▸ ends)
        simp [quiet, ne]

/-- It goes on as the host wakes it, whatever calls there were since it began to wait. -/
theorem wakes_of_wake? {pace : Pace} {p p' : Pause} {w : Wake} {t : Trace}
    (fits : h.signal run = (Trace.calls cs ++ .waits p' :: t).signal) (own : p.run = run)
    (deadline : p.deadline = p'.deadline) (wake : h.wake? p = some w) :
    t.Wakes pace p' w (.woke w :: (Trace.calls cs ++ .waits p' :: t)) := by
  rw [wake?, own, fits] at wake
  refine ⟨fun expired => ?_, _, [], .inl rfl, rfl, .inr ⟨cs, ?_, rfl⟩⟩
  · subst expired
    split at wake
    · cases wake
    · rw [← deadline]
      exact deadline_of_ending wake
  · split at wake
    · next fired => simpa [fired] using (Option.some.inj wake).symm
    · next quiet =>
      have ne : w ≠ .signalled := fun hw => ending_ne_signalled (hw ▸ wake)
      simp [quiet, ne]

variable [Store σ]

/-! ## Answers -/

/-- What is asked comes to calls of the signal of a run, where others may have
their say, and what is asked on behalf of the run is answered truly. -/
theorem exists_calls_answer (run : String) (h : Host σ) (r : Request) :
    ∃ cs, Calls run cs h (h.answer r).2 ∧ (cs = [] ∨ r.isOpen) ∧
      (r.IsFor run → r.Allows (h.signal run) (h.answer r).1 cs) := by
  cases r with
  | act id a =>
    obtain ⟨cs, calls, allowed⟩ := h.exists_calls_perform id a
    exact ⟨cs, calls, .inr rfl, allowed⟩
  | signal id => exact ⟨[], rfl, .inl rfl, fun same => by subst same; rfl⟩
  | createVisit v => exact ⟨[], signal_call .., .inl rfl, fun _ => trivial⟩
  | update r visits => exact ⟨[], signal_call .., .inl rfl, fun _ => trivial⟩
  | beginQuery operation =>
    refine ⟨[], ?_, .inl rfl, fun _ => trivial⟩
    rw [Calls, answer, beginQuery]
    split <;> rfl
  | _ => exact ⟨[], rfl, .inl rfl, fun _ => trivial⟩

/-! ## Carrying on a program -/

/-- Whatever a program does, to the signal of a run it comes to calls. -/
theorem exists_calls_advance (p : Program α) (h : Host σ) :
    ∃ cs, Calls run cs h (h.advance p).2 := by
  induction p generalizing h with
  | done a => exact ⟨[], rfl⟩
  | panic => exact ⟨[], rfl⟩
  | ask r next ih =>
    obtain ⟨cs, calls, -⟩ := exists_calls_answer run h r
    obtain ⟨cs', calls'⟩ := ih (h.answer r).1 (h.answer r).2
    exact ⟨cs' ++ cs, calls_append calls calls'⟩
  | pause p next ih =>
    cases ends : (p.fixedAt h.clock).ending h.clock false with
    | none => exact ⟨[], by rw [advance_pause_of_waiting h next ends]; rfl⟩
    | some w =>
      rw [advance_pause_of_ending h next ends]
      exact ih w h

end Host

/-- What is asked on behalf of a run stays so. -/
theorem Program.Owned.of_leads {α : Type} {pace : Pace} {p q : Program α} {run : String}
    {Q : α → Prop} {t u : Trace} (h : p.Owned run Q) (leads : p.Leads pace t q u) :
    q.Owned run Q := by
  induction leads with
  | here => exact h
  | ask _ _ ih => exact ih (h.2 _)
  | pause _ _ ih => exact ih (h.2 _)

/-- That a program stands so: it has ended, or waits at a pause of the same run with
the same deadline. -/
def Standing.Of {α : Type} (q : Program α) : Standing α → Prop
  | .ended a => q = .done a
  | .panicked => q = .panic
  | .waiting p next => ∃ p' : Pause, q = .pause p' next ∧ p.run = p'.run ∧
    p.deadline = p'.deadline

namespace Host

variable {σ α : Type} [Store σ] {run : String}

/-- A host carries on a program of a run along one of its behaviours. The signal of the run
stays the one that the trace tells of, and so does any condition that all answers keep. -/
theorem leads_advance_keeping {Q : α → Prop} {I : Trace → Host σ → Prop} {p : Program α}
    {h : Host σ} {t : Trace}
    (answers : ∀ t h r cs, r.IsFor run → I t h →
      I (.calls cs ++ .asked r (h.answer r).1 :: t) (h.answer r).2)
    (passes : ∀ t h p w, I t h → I (.passed p w :: t) h)
    (owned : p.Owned run Q) (fits : h.signal run = t.signal) (hi : I t h) :
    ∃ q u, p.Leads .prompt t q u ∧ I u (h.advance p).2 ∧ (h.advance p).2.signal run = u.signal ∧
      q.Owned run Q ∧ (h.advance p).1.Of q := by
  induction p generalizing h t with
  | done a => exact ⟨.done a, t, .here, hi, fits, owned, rfl⟩
  | panic => exact ⟨.panic, t, .here, hi, fits, owned, rfl⟩
  | ask r next ih =>
    -- the answer may come with calls of the signal, which the trace then has before it
    obtain ⟨cs, calls, spoken, allowed⟩ := exists_calls_answer run h r
    have after : (h.answer r).2.signal run =
        (Trace.calls cs ++ .asked r (h.answer r).1 :: t).signal := by
      rw [calls, Trace.signal_calls, Trace.signal_asked, fits]
    obtain ⟨q, u, leads, rest⟩ :=
      ih (h.answer r).1 (owned.2 _) after (answers t h r cs owned.1 hi)
    refine ⟨q, u, .ask ⟨cs, spoken.imp_right .inl, ?_, rfl⟩ leads, rest⟩
    rw [← fits]
    exact allowed owned.1
  | pause p next ih =>
    -- a pause that is over is passed at once, and else the program stops here
    cases ends : (p.fixedAt h.clock).ending h.clock false with
    | none =>
      rw [advance_pause_of_waiting h next ends]
      exact ⟨.pause p next, t, .here, hi, fits, owned, p, rfl, rfl, rfl⟩
    | some w =>
      rw [advance_pause_of_ending h next ends]
      obtain ⟨q, u, leads, rest⟩ :=
        ih w (t := .passed p w :: t) (owned.2 w) fits (passes t h p w hi)
      have passed : t.Wakes .prompt p w (.passed p w :: t) := by
        refine ⟨fun he => ?_, _, [], .inl rfl, rfl, .inl ⟨fun hs => ?_, rfl⟩⟩
        · subst he
          exact deadline_of_ending (p := p.fixedAt h.clock) ends
        · subst hs
          exact ending_ne_signalled ends
      exact ⟨q, u, .pause passed leads, rest⟩

theorem leads_advance {Q : α → Prop} {p : Program α} {h : Host σ} {t : Trace}
    (owned : p.Owned run Q) (fits : h.signal run = t.signal) :
    ∃ q u, p.Leads .prompt t q u ∧ (h.advance p).2.signal run = u.signal ∧ q.Owned run Q ∧
      (h.advance p).1.Of q := by
  obtain ⟨q, u, leads, -, rest⟩ := leads_advance_keeping (I := fun _ _ => True)
    (fun _ _ _ _ _ _ => trivial) (fun _ _ _ _ _ => trivial) owned fits trivial
  exact ⟨q, u, leads, rest⟩

end Host

namespace Runner

variable {σ α : Type} [Store σ] {run : String}

/-! ## Tasks in the background -/

/-- A task that has its turn calls signals at most. -/
theorem exists_calls_poll (run : String) (r : Runner α) (h : Host σ) (n : Nat) :
    ∃ cs, Host.Calls run cs h (r.poll h n).2 := by
  have idle : ∃ cs, Host.Calls run cs h h := ⟨[], rfl⟩
  rw [poll]
  split
  · exact idle
  · split
    · exact idle
    · split
      · exact idle
      · exact Host.exists_calls_advance _ h
    · split
      · exact idle
      · split
        · exact idle
        · exact Host.exists_calls_advance _ h

omit [Store σ] in
/-- The next alarm is not over, -/
theorem lt_of_nextAlarm {r : Runner α} {h : Host σ} {a : Await} {ms : Nat}
    (next : r.nextAlarm h a = some ms) : h.clock < ms := by
  rw [nextAlarm] at next
  have first := (List.min?_eq_some_iff.1 next).1
  simpa using (List.mem_filter.1 first).2

omit [Store σ] in
/-- and comes before all others of whoever waits. -/
theorem le_of_nextAlarm {r : Runner α} {h : Host σ} {a : Await} {ms alarm n : Nat} {t : Task α}
    {p : Pause} {on : Wake → Program α} (next : r.nextAlarm h a = some ms)
    (here : r.tasks[n]? = some t) (stage : t.stage = .waiting p on) (listed : alarm ∈ p.alarms)
    (later : h.clock < alarm) : ms ≤ alarm := by
  rw [nextAlarm] at next
  refine (List.min?_eq_some_iff.1 next).2 alarm (List.mem_filter.2 ⟨?_, by simpa using later⟩)
  refine List.mem_append_right _ (List.mem_flatMap.2 ⟨p, ?_, listed⟩)
  exact List.mem_filterMap.2 ⟨t, List.mem_of_getElem? here, by simp [Task.pause?, stage]⟩

/-- What turns, giving way and the passing of time keep is kept while the tasks work. -/
theorem workFor_induct {P : Runner α → Host σ → Prop} {a : Await}
    (polls : ∀ r h n rest, r.queue = n :: rest → P r h →
      P (({ r with queue := rest } : Runner α).poll h n).1
        (({ r with queue := rest } : Runner α).poll h n).2)
    (releases : ∀ r h, P r h → P r.release h)
    (rings : ∀ r h ms, r.queue = [] → r.givenWay = [] → r.nextAlarm h a = some ms → P r h →
      P (r.ring ms) { h with clock := ms })
    (fuel : Nat) {r : Runner α} {h : Host σ} (holds : P r h) :
    P (workFor a fuel r h).2.1 (workFor a fuel r h).2.2 := by
  induction fuel generalizing r h with
  | zero => exact holds
  | succ fuel ih =>
    rw [workFor]
    -- the queue first, then those that have given way, then the next alarm
    split
    · next n rest queue => exact ih (polls r h n rest queue holds)
    · next queue =>
      split
      · exact holds
      · split
        · exact releases r h holds
        · split
          · exact ih (releases r h holds)
          · next given =>
            have givenWay : r.givenWay = [] := by simpa using given
            split
            · exact holds
            · next ms next =>
              have rung := rings r h ms queue givenWay next holds
              dsimp only
              split
              · exact rung
              · exact ih rung

/-- So do the tasks that work while somebody waits. -/
theorem exists_calls_workFor (run : String) (a : Await) (fuel : Nat) (r : Runner α) (h : Host σ) :
    ∃ cs, Host.Calls run cs h (workFor a fuel r h).2.2 := by
  apply workFor_induct (P := fun _ h' => ∃ cs, Host.Calls run cs h h')
  case polls =>
    rintro r' h' n rest - ⟨cs, calls⟩
    obtain ⟨cs', calls'⟩ := exists_calls_poll run { r' with queue := rest } h' n
    exact ⟨cs' ++ cs, Host.calls_append calls calls'⟩
  case releases => exact fun _ _ => id
  case rings => exact fun _ _ _ _ _ _ => id
  case holds => exact ⟨[], rfl⟩

/-! ## Programs in the foreground -/

/-- A program that is attended ends as one of its behaviours does. -/
theorem ends_attend {β : Type} {Q : β → Prop} {fuel : Nat} {p : Program β} {r : Runner α}
    {h : Host σ} {t : Trace} {b : β} (owned : p.Owned run Q) (fits : h.signal run = t.signal)
    (ended : (r.attend fuel p h).1 = some b) :
    ∃ u, p.Ends .prompt t (some b) u ∧ (r.attend fuel p h).2.2.signal run = u.signal := by
  induction fuel generalizing p r h t with
  | zero => cases ended
  | succ fuel ih =>
    obtain ⟨q, u, leads, fits', owned', stands⟩ := Host.leads_advance owned fits
    rw [attend] at ended ⊢
    cases standing : (h.advance p).1 with
    | ended b' =>
      simp only [standing, Option.some.injEq] at ended stands ⊢
      obtain rfl : q = .done b' := stands
      subst ended
      exact ⟨u, leads, fits'⟩
    | panicked => simp [standing] at ended
    | waiting pause next =>
      rw [standing] at stands
      obtain ⟨pause', rfl, own, deadline⟩ := stands
      simp only [standing] at ended ⊢
      -- the others work while this one waits, and call signals at most
      obtain ⟨cs, calls⟩ := exists_calls_workFor run (.pause pause) patience
        (r.rouse (h.advance p).2) (h.advance p).2
      rcases worked : workFor (.pause pause) patience (r.rouse (h.advance p).2) (h.advance p).2
        with ⟨come, r', h'⟩
      rw [worked] at calls
      simp only [worked] at ended ⊢
      cases come with
      | false => cases ended
      | true =>
        obtain ⟨v, wakes, fits''⟩ :=
          Host.wakes_of_calls fits' calls (own.trans owned'.1) deadline
        obtain ⟨w, ends, last⟩ := ih (owned'.2 _) fits'' ended
        exact ⟨w, leads.trans (.pause wakes ends), last⟩

end Runner

namespace Engine

variable {σ : Type} [Store σ]

/-- A run that an engine executes, with a signal that was called so before, ends as
one of its behaviours does. -/
theorem ends_perform {e : Engine σ} {r : Run} {before : List SignalCall} {result : Bool × Run}
    (called : e.host.signal r.id = (Trace.calls before).signal)
    (ended : (e.perform r.start).1 = some result) :
    ∃ u, r.start.Ends .prompt (.calls before) (some result) u ∧
      (e.perform r.start).2.host.signal r.id = u.signal := by
  have attended : (e.runner.attend Runner.patience r.start e.host).1 = some result := ended
  exact Runner.ends_attend Run.owned_start called attended

/-- So a run that an engine executes obeys its signal: if that has fired in the end,
the run has ended as canceled. -/
theorem canceled_of_perform {e : Engine σ} {r r' : Run} {before : List SignalCall} {ok : Bool}
    (called : e.host.signal r.id = (Trace.calls before).signal)
    (ended : (e.perform r.start).1 = some (ok, r'))
    (fired : ((e.perform r.start).2.host.signal r.id).fired = true) :
    ok = false ∧ r'.record.status = .canceled ∧ r'.lastError =
      some ("task canceled: " ++ ((e.perform r.start).2.host.signal r.id).reason) := by
  obtain ⟨u, ends, last⟩ := ends_perform called ended
  rw [last] at fired ⊢
  obtain ⟨-, obeys⟩ := ensures_iff.1 (Run.ensures_obeys before) _ u ends
  obtain ⟨_, ⟨⟩, obeys, -⟩ := obeys fired
  refine ⟨rfl, obeys.status, ?_⟩
  rw [obeys.lastError, Trace.signal_reason]

end Engine

end Runbook
