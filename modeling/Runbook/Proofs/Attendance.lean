import Runbook.Proofs.Promptness
import Runbook.Proofs.Serving
import Runbook.Proofs.Tasks

/-!
# Runs in the background, one turn at a time

What a host tells of a run, and how far the run's task is.

* `Host.Tells` — the signal of a run and the last write that was noted of it are those of a trace.
* `Host.Leaves` — nothing but calls of its signal has come to a run. That is what the turns of
  others are to it (`Host.leaves_advance`).
* `Stage.Follows` — how far the task of a run is after a trace of the run. A turn takes it further
  along a behaviour of the run (`Stage.Follows.turn`).
* `Stage.Follows.exists_ended` — once the signal has fired the next turn is the last one, and
  `Stage.Follows.canceled` — the run is canceled then.
-/

namespace Runbook

open Program

variable {σ : Type} {run id : String} {t u : Trace} {cs : List SignalCall}

/-! ## What a host tells of a run -/

/-- Whether it is a write of the run. -/
def Incident.isWriteOf (run : String) : Incident → Bool
  | asked (.createVisit v) _ => v.parentId == run
  | asked (.update r _) _ => r.id == run
  | _ => false

/-- What is asked on behalf of a run is a write of that run, if it is a write. -/
theorem Incident.isWriteOf_asked {q : Request} (own : q.IsFor run) (x : q.Answer) :
    (asked q x).isWriteOf id = ((asked q x).isWrite && run == id) := by
  cases q with
  | createVisit v =>
    obtain rfl : v.parentId = run := own
    rfl
  | update r visits =>
    obtain rfl : r.id = run := own
    rfl
  | _ => rfl

namespace Host

variable {h h' h'' : Host σ}

/-- The last write of a run that the journal has noted. -/
def lastWrite? (h : Host σ) (run : String) : Option Incident := h.noted.find? (·.isWriteOf run)

/-- The host tells of the run what the trace tells. -/
structure Tells (h : Host σ) (run : String) (t : Trace) : Prop where
  /-- the signal of the run -/
  signal : h.signal run = t.signal
  /-- its last write -/
  lastWrite? : h.lastWrite? run = t.lastWrite?

/-- From one host to the other, nothing came to the run but calls of its signal. -/
structure Leaves (run : String) (h h' : Host σ) : Prop where
  /-- calls of its signal -/
  calls : ∃ cs, Calls run cs h h'
  /-- no write -/
  lastWrite? : h'.lastWrite? run = h.lastWrite? run

/-- Nothing leaves everybody alone, -/
theorem Leaves.refl (run : String) (h : Host σ) : Leaves run h h := ⟨⟨[], rfl⟩, rfl⟩

/-- and so do two things of which each one does. -/
theorem Leaves.trans (first : Leaves run h h') (second : Leaves run h' h'') :
    Leaves run h h'' := by
  obtain ⟨cs, calls⟩ := first.calls
  obtain ⟨cs', calls'⟩ := second.calls
  exact ⟨⟨cs' ++ cs, calls_append calls calls'⟩, second.lastWrite?.trans first.lastWrite?⟩

/-- Hosts with the same signals and the same journal. -/
theorem Leaves.of_eq (signals : h'.signals = h.signals) (journal : h'.journal = h.journal)
    (run : String) : Leaves run h h' where
  calls := ⟨[], by rw [Calls, signal, signals, List.foldr_nil, signal]⟩
  lastWrite? := by rw [Host.lastWrite?, noted, journal, Host.lastWrite?, noted]

/-- A call of some signal. -/
theorem leaves_called (h : Host σ) (other : String) (c : SignalCall) (run : String) :
    Leaves run h (h.called other c) where
  calls := by
    by_cases same : run = other
    · subst same
      exact ⟨[c], h.signal_called run c⟩
    · exact ⟨[], h.signal_called_of_ne c same⟩
  lastWrite? := by cases c <;> rfl

/-- What was told of the run is told of it still. -/
theorem Tells.of_leaves (tells : h.Tells run t) (leaves : Leaves run h h') :
    ∃ cs, h'.Tells run (.calls cs ++ t) := by
  obtain ⟨cs, calls⟩ := leaves.calls
  refine ⟨cs, ?_, ?_⟩
  · rw [calls, Trace.signal_calls, tells.signal]
  · rw [leaves.lastWrite?, tells.lastWrite?, Trace.lastWrite?_calls]

/-- What is known of a run that has only been called so far stays of that kind. -/
theorem Leaves.exists_calls (leaves : Leaves run h h') (tells : ∃ cs, h.Tells run (.calls cs)) :
    ∃ cs, h'.Tells run (.calls cs) := by
  obtain ⟨cs, tells⟩ := tells
  obtain ⟨cs', tells'⟩ := tells.of_leaves leaves
  refine ⟨cs' ++ cs, ?_⟩
  rw [Trace.calls, List.map_append]
  exact tells'

section

variable [Store σ]

/-- The last write that is noted of a run is the latest of its own ones, because a write is noted by
the ID that it is on behalf of. -/
theorem lastWrite?_answer (h : Host σ) {q : Request} (own : q.IsFor run) (id : String) :
    (h.answer q).2.lastWrite? id =
      if (Incident.asked q (h.answer q).1).isWrite && run == id then
        some (.asked q (h.answer q).1)
      else h.lastWrite? id := by
  have kind : (Incident.asked q (h.answer q).1).isWriteOf id =
      ((Incident.asked q (h.answer q).1).isWrite && run == id) := Incident.isWriteOf_asked own _
  rw [lastWrite?, noted_answer, Trace.writes, List.find?_append]
  cases write : (Incident.asked q (h.answer q).1).isWrite with
  | false => simp [write, lastWrite?]
  | true =>
    rw [write, Bool.true_and] at kind
    by_cases same : run = id
    · simp [write, kind, same]
    · simp [write, kind, same, lastWrite?]

/-- A run is left alone by what is asked on behalf of another one. -/
theorem leaves_answer (h : Host σ) {q : Request} (own : q.IsFor run) (ne : run ≠ id) :
    Leaves id h (h.answer q).2 := by
  obtain ⟨cs, calls, -⟩ := exists_calls_answer id h q
  refine ⟨⟨cs, calls⟩, ?_⟩
  rw [lastWrite?_answer h own]
  simp [ne]

/-- So it is by all that a program does on behalf of another one. -/
theorem leaves_advance {α : Type} {Q : α → Prop} {p : Program α} (owned : p.Owned run Q)
    (ne : run ≠ id) (h : Host σ) : Leaves id h (h.advance p).2 := by
  induction p generalizing h with
  | done a => exact .refl id h
  | panic => exact .refl id h
  | ask q next ih => exact (h.leaves_answer owned.1 ne).trans (ih _ (owned.2 _) _)
  | pause p next ih =>
    cases ends : (p.fixedAt h.clock).ending h.clock false with
    | none =>
      rw [advance_pause_of_waiting h next ends]
      exact .refl id h
    | some w =>
      rw [advance_pause_of_ending h next ends]
      exact ih w (owned.2 w) h

/-- A host that carries on a program of a run tells of the run what it does. -/
theorem tells_advance {α : Type} {Q : α → Prop} {p : Program α} (owned : p.Owned run Q)
    (tells : h.Tells run t) : ∃ q u, p.Leads .prompt t q u ∧ (h.advance p).2.Tells run u ∧
      (h.advance p).1.Of q := by
  obtain ⟨q, u, leads, last, signal, -, stands⟩ :=
    leads_advance_keeping (I := fun t h' => h'.lastWrite? run = t.lastWrite?)
      (fun t h' q cs own told => by
        rw [Trace.lastWrite?_calls, lastWrite?_answer h' own]
        cases write : (Incident.asked q (h'.answer q).1).isWrite with
        | false => simp [told, Trace.lastWrite?, write]
        | true => simp [Trace.lastWrite?, write])
      (fun t h' p w told => told) owned tells.signal tells.lastWrite?
  exact ⟨q, u, leads, ⟨signal, last⟩, stands⟩

end

end Host

/-! ## How far a task is -/

namespace Stage

variable {α : Type}

/-- What a task goes on with when it has its turn, if it can. -/
def next? (h : Host σ) : Stage α → Option (Program α)
  | fresh p => some p
  | waiting p next => (h.wake? p).map next
  | ended _ => none

/-- The task of the run is so far after the trace. -/
inductive Follows (r : Run) : Stage Run → Trace → Prop where
  /-- it has not begun -/
  | fresh : Follows r (.fresh r.work) []
  /-- it waits -/
  | waiting {before : List SignalCall} {p p' : Pause} {next : Wake → Program (Bool × Run)}
    {t : Trace} (leads : r.start.Leads .prompt (.calls before) (.pause p' next) t)
    (own : p.run = p'.run) (deadline : p.deadline = p'.deadline) :
    Follows r (.waiting p fun w => (next w).mapped Prod.snd) (.waits p' :: t)
  /-- it has ended with the run as it is then -/
  | value {before : List SignalCall} {ok : Bool} {r' : Run} {t : Trace}
    (ends : r.start.Ends .prompt (.calls before) (some (ok, r')) t) :
    Follows r (.ended (.value r')) t
  /-- it has ended without one -/
  | panicked {before : List SignalCall} {t : Trace}
    (ends : r.start.Ends .prompt (.calls before) none t) : Follows r (.ended .panicked) t

end Stage

section

variable {r : Run} {s : Stage Run} {h h' : Host σ}

/-- A task goes on along a behaviour of the run. -/
theorem Stage.Follows.exists_leads {p : Program Run} (follows : s.Follows r u)
    (tells : h.Tells r.id (.calls cs ++ u)) (next : s.next? h = some p) :
    ∃ before p' t, p = p'.mapped Prod.snd ∧ r.start.Leads .prompt (.calls before) p' t ∧
      h.Tells r.id t ∧ (Trace.calls cs ++ u) <:+ t := by
  cases follows with
  | fresh =>
    obtain rfl := Option.some.inj next
    rw [List.append_nil] at tells ⊢
    exact ⟨cs, r.start, .calls cs, rfl, .here, tells, List.suffix_rfl⟩
  | @waiting before p' p'' after t leads own deadline =>
    obtain ⟨w, wake, rfl⟩ := Option.map_eq_some_iff.1 next
    have wakes : t.Wakes .prompt p'' w _ :=
      Host.wakes_of_wake? tells.signal (own.trans (Run.owned_start.of_leads leads).1) deadline wake
    exact ⟨before, after w, _, rfl, leads.trans (.pause wakes .here),
      ⟨tells.signal, tells.lastWrite?⟩, List.suffix_cons ..⟩
  | value | panicked => cases next

/-- A run whose signal has fired before it ended is canceled, in memory and as it was written. That
it has been looked at in time follows from the behaviour, as the host answers truly what its signal
says. -/
theorem Stage.Follows.canceled {e : Ending Run} (follows : Stage.Follows r (.ended e) u)
    (fired : u.signal.fired = true) :
    ∃ r', e = .value r' ∧ r'.record.status = .canceled ∧
      r'.lastError = some ("task canceled: " ++ u.signal.reason) ∧ r'.LastSaved u := by
  have obeys {before : List SignalCall} {o : Option (Bool × Run)}
      (ends : r.start.Ends .prompt (.calls before) o u) :
      ∃ r', o = some (false, r') ∧ r'.Obeys false u ∧ r'.LastSaved u :=
    (ensures_iff.1 (Run.ensures_obeys before) o u ends).2 fired
  cases follows with
  | value ends =>
    obtain ⟨r', ⟨⟩, obeys, saved⟩ := obeys ends
    exact ⟨_, rfl, obeys.status, by rw [obeys.lastError, Trace.signal_reason], saved⟩
  | panicked ends =>
    obtain ⟨r', ⟨⟩, -⟩ := obeys ends

/-- The host attends to the run, whose task is at this stage. If the run was canceled before it
ended, `doom` is the reason. -/
def Host.Attends (h : Host σ) (r : Run) (s : Stage Run) (doom : Option String) : Prop :=
  ∃ u cs, s.Follows r u ∧ h.Tells r.id (.calls cs ++ u) ∧ ∀ reason, doom = some reason →
    (Trace.calls cs ++ u).signal.note = some reason ∧
    ∀ e, s = .ended e → u.signal.note = some reason

namespace Host.Attends

variable {doom : Option String} {reason : String}

/-- A task that waits does so for its own signal. -/
theorem run_eq {p : Pause} {next : Wake → Program Run}
    (attends : h.Attends r (.waiting p next) doom) : p.run = r.id := by
  obtain ⟨u, cs, follows, -⟩ := attends
  cases follows with
  | waiting leads own => exact own.trans (Run.owned_start.of_leads leads).1

/-- Calls of the signal change nothing about that, for the first one has decided the reason. -/
theorem of_leaves (attends : h.Attends r s doom) (leaves : h.Leaves r.id h') :
    h'.Attends r s doom := by
  obtain ⟨u, cs, follows, tells, doomed⟩ := attends
  obtain ⟨cs', tells'⟩ := tells.of_leaves leaves
  have joined : Trace.calls cs' ++ (Trace.calls cs ++ u) = Trace.calls (cs' ++ cs) ++ u := by
    simp [Trace.calls]
  refine ⟨u, cs' ++ cs, follows, joined ▸ tells', ?_⟩
  intro reason same
  obtain ⟨note, last⟩ := doomed reason same
  exact ⟨joined ▸ Trace.note_append _ note, last⟩

/-- The run is canceled before it has ended. -/
theorem cancel (attends : h.Attends r s none) (reason : String) (on : ∀ e, s ≠ .ended e) :
    (h.called r.id (.cancel reason)).Attends r s (some ((h.signal r.id).note.getD reason)) := by
  obtain ⟨u, cs, follows, tells, -⟩ :=
    attends.of_leaves (h.leaves_called r.id (.cancel reason) r.id)
  refine ⟨u, cs, follows, tells, ?_⟩
  intro first same
  obtain rfl := Option.some.inj same
  constructor
  · rw [← tells.signal, signal_called]
    cases note : (h.signal r.id).note <;> simp [Signal.after, Signal.cancel, note]
  · intro e ended
    exact absurd ended (on e)

/-- Its signal has fired for that reason. -/
theorem signal (attends : h.Attends r s (some reason)) :
    h.signal r.id = ⟨true, some reason⟩ := by
  obtain ⟨u, cs, -, tells, doomed⟩ := attends
  obtain ⟨note, -⟩ := doomed reason rfl
  rw [tells.signal, ← note, ← Trace.fired_of_note note]

/-- A run that was canceled ends as canceled, in memory and as it was written at last. Its last
write is on its own behalf, and nobody else writes it. -/
theorem ended {e : Ending Run} (attends : h.Attends r (.ended e) (some reason)) :
    ∃ r' w, e = .value r' ∧ r'.record.status = .canceled ∧
      r'.lastError = some ("task canceled: " ++ reason) ∧
      h.lastWrite? r.id = some (.asked (.update r'.record r'.visits) w) := by
  obtain ⟨u, cs, follows, tells, doomed⟩ := attends
  obtain ⟨-, note⟩ := doomed reason rfl
  have note := note e rfl
  obtain ⟨r', same, status, lastError, w, saved⟩ := follows.canceled (Trace.fired_of_note note)
  refine ⟨r', w, same, status, ?_, ?_⟩
  · rw [lastError, Signal.reason, note]
    rfl
  · rw [tells.lastWrite?, Trace.lastWrite?_calls, saved]

end Host.Attends

/-! ## Turns -/

variable [Store σ]

/-- Where a host has carried on a program of the run, its task has come to. -/
theorem Host.follows_advance {before : List SignalCall} {p : Program (Bool × Run)}
    (leads : r.start.Leads .prompt (.calls before) p t) (tells : h.Tells r.id t) :
    ∃ u, t <:+ u ∧ (h.advance (p.mapped Prod.snd)).1.stage.Follows r u ∧
      (h.advance (p.mapped Prod.snd)).2.Tells r.id u := by
  obtain ⟨q, u, further, told, stands⟩ := tells_advance (Run.owned_start.of_leads leads) tells
  have whole := leads.trans further
  rw [Host.advance_mapped]
  cases standing : (h.advance p).1 with
  | ended a =>
    rw [standing] at stands
    obtain rfl : q = .done a := stands
    exact ⟨u, further.suffix, .value whole, told⟩
  | panicked =>
    rw [standing] at stands
    obtain rfl : q = .panic := stands
    exact ⟨u, further.suffix, .panicked whole, told⟩
  | waiting p' next =>
    rw [standing] at stands
    obtain ⟨p'', rfl, own, deadline⟩ := stands
    exact ⟨.waits p'' :: u, further.suffix.trans (List.suffix_cons ..),
      .waiting whole own deadline, told.signal, told.lastWrite?⟩

namespace Stage.Follows

/-- A turn takes the task further along its behaviour, -/
theorem turn {p : Program Run} (follows : s.Follows r u) (tells : h.Tells r.id (.calls cs ++ u))
    (next : s.next? h = some p) :
    ∃ v, (Trace.calls cs ++ u) <:+ v ∧ (h.advance p).1.stage.Follows r v ∧
      (h.advance p).2.Tells r.id v := by
  obtain ⟨before, p', t, rfl, leads, told, later⟩ := follows.exists_leads tells next
  obtain ⟨v, further, follows', told'⟩ := Host.follows_advance leads told
  exact ⟨v, later.trans further, follows', told'⟩

/-- and leaves other runs alone. -/
theorem leaves {p : Program Run} (follows : s.Follows r u)
    (tells : h.Tells r.id (.calls cs ++ u)) (next : s.next? h = some p) (ne : r.id ≠ id) :
    h.Leaves id (h.advance p).2 := by
  obtain ⟨before, p', t, rfl, leads, -, -⟩ := follows.exists_leads tells next
  rw [Host.advance_mapped]
  exact Host.leaves_advance (Run.owned_start.of_leads leads) ne h

/-- The next turn after the signal has fired is the last one, since the rest of the run does not
wait. -/
theorem exists_ended (follows : s.Follows r u) (fired : (h.signal r.id).fired = true)
    (on : ∀ e, s ≠ .ended e) : ∃ p r', s.next? h = some p ∧ (h.advance p).1 = .ended r' := by
  have ended {p : Program (Bool × Run)} {a : Bool × Run} (ended : (h.advance p).1 = .ended a) :
      (h.advance (p.mapped Prod.snd)).1 = .ended a.2 := by
    rw [Host.advance_mapped, ended]
    rfl
  cases follows with
  | fresh =>
    obtain ⟨a, last, -⟩ := Run.brisk_start.exists_ended fired
    exact ⟨r.work, a.2, rfl, ended last⟩
  | @waiting before p p' next t leads own deadline =>
    have own : p.run = r.id := own.trans (Run.owned_start.of_leads leads).1
    obtain ⟨a, last, -⟩ := (Run.alert_start.of_leads leads).1.exists_ended h
    refine ⟨(next .signalled).mapped Prod.snd, a.2, ?_, ended last⟩
    simp [next?, Host.wake?, own, fired]
  | value | panicked => exact absurd rfl (on _)

end Stage.Follows

namespace Host.Attends

variable {doom : Option String} {reason : String}

/-- The task of the run has a turn. -/
theorem turn {p : Program Run} (attends : h.Attends r s doom) (next : s.next? h = some p) :
    (h.advance p).2.Attends r (h.advance p).1.stage doom := by
  obtain ⟨u, cs, follows, tells, doomed⟩ := attends
  obtain ⟨v, ⟨more, rfl⟩, follows', tells'⟩ := follows.turn tells next
  refine ⟨_, [], follows', tells', ?_⟩
  intro reason same
  have note := Trace.note_append more (doomed reason same).1
  exact ⟨note, fun _ _ => note⟩

/-- That is nothing to other runs. -/
theorem leaves {p : Program Run} (attends : h.Attends r s doom) (next : s.next? h = some p)
    (ne : r.id ≠ id) : h.Leaves id (h.advance p).2 := by
  obtain ⟨u, cs, follows, tells, -⟩ := attends
  exact follows.leaves tells next ne

/-- The next turn of a run that was canceled is its last one. -/
theorem exists_ended (attends : h.Attends r s (some reason)) (on : ∀ e, s ≠ .ended e) :
    ∃ p r', s.next? h = some p ∧ (h.advance p).1 = .ended r' := by
  have signal := attends.signal
  obtain ⟨u, cs, follows, -⟩ := attends
  exact follows.exists_ended (by rw [signal]) on

end Host.Attends

end

end Runbook
