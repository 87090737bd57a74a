import Runbook.Proofs.Sharing

/-!
# Runs at a shared host

What a host has done with one of its runs, as far as that is.

* `Run.Tidy`, `Run.Discreet` — a run that leaves its visits their IDs, and that keeps to itself.
* `Run.Stands` — how far a run is after a trace, wherever it is interrupted.
* `Run.Hosted` — a host has brought a run so far. Whatever the run does next, it still has
  (`Run.Hosted.exists_goes`), and a discreet run leaves other ones alone (`Run.Hosted.spares`).
* `Run.Lodged` — what is stored of the run is what its trace says, and all its writes have worked.
  They go on to do so (`Run.Lodged.works_next`): no visit is created with an ID that is stored.
-/

namespace Runbook

open Program

/-! ## Behaviours that go on -/

namespace Program

variable {α : Type} {p q : Program α} {t u : Trace}

/-- The signal of a run may be called wherever it is: if it is at work others have their say with
the next answer, and if it waits they have it at once. -/
theorem Leads.called (h : p.Leads .slow t q u) (c : SignalCall) :
    p = q ∧ t = u ∨ p.Leads .slow t q (.called c :: u) := by
  induction h with
  | here => exact .inl ⟨rfl, rfl⟩
  | @ask r next x q t u v answers _ ih =>
    obtain ⟨rfl, rfl⟩ | later := ih
    · obtain ⟨cs, -, allows, rfl⟩ := answers
      refine .inr (.ask ⟨c :: cs, .inr (.inr rfl), ?_, rfl⟩ .here)
      cases r with
      | act run a =>
        cases a with
        | fire => exact List.mem_cons_of_mem c allows
        | _ => exact allows
      | _ => exact allows
    · exact .inr (.ask answers later)
  | pause wakes _ ih =>
    obtain ⟨rfl, rfl⟩ | later := ih
    · obtain ⟨deadline, v, cs, -, rfl, how⟩ := wakes
      exact .inr (.pause ⟨deadline, v, c :: cs, .inr rfl, rfl, how⟩ .here)
    · exact .inr (.pause wakes later)

end Program

namespace Run

variable {r : Run} {q : Request} {next : q.Answer → Program (Bool × Run)} {u : Trace}
  {before : List SignalCall}

/-- The run has not begun, and its executors leave the IDs of their visits. -/
structure Tidy (r : Run) : Prop where
  /-- it has made no visits -/
  fresh : r.trail = []
  /-- its executors leave the IDs of visits -/
  keepsIds : ∀ n ∈ r.definition.nodes, n.KeepsId

namespace Tidy

variable (tidy : r.Tidy)
include tidy

/-- What it has written so far accounts for its visits. -/
theorem proper {p : Program (Bool × Run)}
    (leads : r.start.Leads .slow (.calls before) p u) : u.Proper .free r.id :=
  proper_of_leads tidy.fresh tidy.keepsIds leads

/-- The next write concerns the run, too. -/
theorem concerns (leads : r.start.Leads .slow (.calls before) (.ask q next) u) (x : q.Answer) :
    (Incident.asked q x).Concerns r.id := by
  have inside (x : q.Answer)
      (answers : u.Answers .slow q x (.asked q x :: u)) : (Incident.asked q x).Concerns r.id :=
    (tidy.proper (leads.trans (.ask answers .here))).listing.own _ List.mem_cons_self
  cases q with
  | createVisit v => exact inside (.ok ()) ⟨[], .inl rfl, trivial, rfl⟩
  | update record visits => exact inside (.ok ()) ⟨[], .inl rfl, trivial, rfl⟩
  | _ => trivial

end Tidy

/-- Whatever happens, the run touches nothing but its visits, its context, its signal, and these
operations. -/
structure Discreet (r : Run) (operations : String → Prop) : Prop extends r.Tidy where
  /-- it keeps to itself -/
  keeps : r.KeepsTo (.own operations)

/-- Whatever it asks keeps to itself. -/
theorem Discreet.within {operations : String → Prop} (discreet : r.Discreet operations)
    (leads : r.start.Leads .slow (.calls before) (.ask q next) u) :
    q.Within (.own operations) := by
  obtain ⟨x, v, answers⟩ : ∃ x v, u.Answers .slow q x v := exists_answers u q
  have asked := discreet.keeps before _ _ (leads.trans (.ask answers .here))
  obtain ⟨cs, -, -, rfl⟩ := answers
  exact asked (.asked q x) (List.mem_append_right _ List.mem_cons_self)

/-! ## How far a run is -/

/-- The run is so far after the trace. -/
inductive Stands (r : Run) : Stance (Bool × Run) → Trace → Prop where
  /-- it has not begun -/
  | fresh (start : Nat) (before : List SignalCall) : Stands r (.fresh start r.start) (.calls before)
  /-- it can go on -/
  | awake {before : List SignalCall} {p : Program (Bool × Run)} {u : Trace}
    (leads : r.start.Leads .slow (.calls before) p u) : Stands r (.awake p) u
  /-- it waits -/
  | asleep {before : List SignalCall} {p p' : Pause} {next : Wake → Program (Bool × Run)}
    {t : Trace} (cs : List SignalCall)
    (leads : r.start.Leads .slow (.calls before) (.pause p next) t) (own : p'.run = p.run)
    (deadline : p'.deadline = p.deadline) :
    Stands r (.asleep p' next) (.calls cs ++ .waits p :: t)

variable {s s' : Stance (Bool × Run)} {h h' : Host Memory}

/-- So a run is where it was after a call. -/
theorem Stands.called (stands : r.Stands s u) (c : SignalCall) : r.Stands s (.called c :: u) := by
  cases stands with
  | fresh start before => exact .fresh start (c :: before)
  | @awake before p u leads =>
    obtain ⟨rfl, rfl⟩ | leads := leads.called c
    · have begun : r.start.Leads .slow (.calls (c :: before)) r.start _ := .here
      exact .awake begun
    · exact .awake leads
  | asleep cs leads own deadline => exact .asleep (c :: cs) leads own deadline

/-- It waits for its own signal. -/
theorem Stands.run_eq {p : Pause} {next : Wake → Program (Bool × Run)}
    (stands : r.Stands (.asleep p next) u) : p.run = r.id := by
  cases stands with
  | asleep _ leads own _ => exact own.trans (owned_start.of_leads leads).1

/-- Its requests are on its own behalf. -/
theorem Stands.isFor (stands : r.Stands (.awake (.ask q next)) u) : q.IsFor r.id := by
  cases stands with
  | awake leads => exact (owned_start.of_leads leads).1

/-- The host has brought the run so far, with this trace. -/
structure Hosted (r : Run) (h : Host Memory) (s : Stance (Bool × Run)) (u : Trace) : Prop where
  /-- how far it is -/
  stands : r.Stands s u
  /-- its signal -/
  signal : h.signal r.id = u.signal

namespace Hosted

/-- It begins. -/
theorem begins {start : Nat} {p : Program (Bool × Run)} (hosted : r.Hosted h (.fresh start p) u) :
    r.Hosted h (.awake p) u := by
  obtain ⟨⟨⟩, signal⟩ := hosted
  exact ⟨.awake .here, signal⟩

/-- It asks, and goes on with the answer. As the write has worked, what is stored is what the longer
trace says. -/
theorem asks {cs : List SignalCall} (hosted : r.Hosted h (.awake (.ask q next)) u)
    (calls : Host.Calls r.id cs h (h.answer q).2)
    (allows : q.Allows (h.signal r.id) (h.answer q).1 cs) :
    r.Hosted (h.answer q).2 (.awake (next (h.answer q).1))
      (.calls cs ++ .asked q (h.answer q).1 :: u) := by
  obtain ⟨⟨⟩ | ⟨leads⟩ | ⟨⟩, signal⟩ := hosted
  refine ⟨.awake (leads.trans (.ask ⟨cs, .inr (.inr rfl), signal ▸ allows, rfl⟩ .here)), ?_⟩
  rw [calls, Trace.signal_calls, Trace.signal_asked, signal]

variable {p : Pause} {w : Wake} {after : Wake → Program (Bool × Run)}

/-- Nor is time that passes, as none of this is about the clock. -/
theorem passes (hosted : r.Hosted h (.awake (.pause p after)) u)
    (ends : (p.fixedAt h.clock).ending h.clock false = some w) :
    r.Hosted h (.awake (after w)) (.passed p w :: u) := by
  obtain ⟨⟨⟩ | ⟨leads⟩ | ⟨⟩, signal⟩ := hosted
  have passed : u.Wakes .slow p w (.passed p w :: u) := by
    refine ⟨fun he => ?_, _, [], .inl rfl, rfl, .inl ⟨fun hs => ?_, rfl⟩⟩
    · subst he
      exact Host.deadline_of_ending (p := p.fixedAt h.clock) ends
    · subst hs
      exact Host.ending_ne_signalled ends
  exact ⟨.awake (leads.trans (.pause passed .here)), signal⟩

/-- It begins to wait. -/
theorem waits (hosted : r.Hosted h (.awake (.pause p after)) u) :
    r.Hosted h (.asleep (p.fixedAt h.clock) after) (.waits p :: u) := by
  obtain ⟨⟨⟩ | ⟨leads⟩ | ⟨⟩, signal⟩ := hosted
  exact ⟨.asleep [] leads rfl rfl, signal⟩

/-- It goes on. -/
theorem wakes (hosted : r.Hosted h (.asleep p after) u) (wake : h.wake? p = some w) :
    r.Hosted h (.awake (after w)) (.woke w :: u) := by
  have own := hosted.stands.run_eq
  obtain ⟨⟨⟩ | ⟨⟩ | ⟨cs, leads, -, deadline⟩, signal⟩ := hosted
  have woken : Trace.Wakes .slow _ _ w _ := Host.wakes_of_wake? signal own deadline wake
  exact ⟨.awake (leads.trans (.pause woken .here)), signal⟩

/-- Whatever step it takes, the host has brought it so far then. Steps are those of a behaviour, as
the host answers truly what its signal says. -/
theorem exists_goes (hosted : r.Hosted h s u) (step : s.Goes h s' h') :
    ∃ u', r.Hosted h' s' u' := by
  cases step with
  | begins => exact ⟨u, hosted.begins⟩
  | @asks q next =>
    obtain ⟨cs, calls, -, allows⟩ := Host.exists_calls_answer r.id h q
    exact ⟨_, hosted.asks calls (allows hosted.stands.isFor)⟩
  | passes ends => exact ⟨_, hosted.passes ends⟩
  | waits => exact ⟨_, hosted.waits⟩
  | wakes wake => exact ⟨_, hosted.wakes wake⟩

/-- A run that keeps to itself leaves other ones alone: what it writes has its own ID, and the
operations that it asks about are its own. -/
theorem spares {operations : String → Prop} (hosted : r.Hosted h s u)
    (discreet : r.Discreet operations) (step : s.Goes h s' h') :
    h.Spares r.id operations h' := by
  cases step with
  | asks =>
    have isFor := hosted.stands.isFor
    obtain ⟨⟨⟩ | ⟨leads⟩ | ⟨⟩, -⟩ := hosted
    exact Host.spares_answer isFor (discreet.concerns leads) (discreet.within leads)
  | _ => exact .refl

/-- What others do is nothing to it. -/
theorem of_signal_eq (hosted : r.Hosted h s u) (same : h'.signal r.id = h.signal r.id) :
    r.Hosted h' s u :=
  ⟨hosted.stands, same.trans hosted.signal⟩

/-- Its signal is called, which leaves it where it is. -/
theorem called (hosted : r.Hosted h s u) (c : SignalCall) :
    r.Hosted (h.called r.id c) s (.called c :: u) :=
  ⟨hosted.stands.called c, by rw [Host.signal_called, hosted.signal, Trace.signal_called]⟩

end Hosted

end Run

/-! ## What is stored of a run -/

namespace Trace

variable {q : Request} {x : q.Answer} {t : Trace}

/-- IDs are given as answers, and not by calls of signals. -/
@[simp] theorem given_calls (cs : List SignalCall) (t : Trace) :
    (calls cs ++ t).given = t.given := by
  induction cs with
  | nil => rfl
  | cons c cs ih => exact ih

/-- A request gives an ID if it is one for an ID. -/
theorem given_asked (other : q ≠ .newVisitId) : given (.asked q x :: t) = t.given := by
  cases q with
  | newVisitId => exact absurd rfl other
  | _ => rfl

/-- Calls of signals are no writes that could fail. -/
theorem clean_calls (cs : List SignalCall) : (calls cs).Clean := by
  intro e he
  obtain ⟨c, -, rfl⟩ := List.mem_map.1 he
  rfl

end Trace

/-- The IDs in the trace are among the first ones that a host gives, and each one was given once. -/
structure Trace.GivenUpTo (n : Nat) (t : Trace) : Prop where
  /-- no ID was given twice -/
  distinct : t.given.Nodup
  /-- the host has given them -/
  known : ∀ id ∈ t.given, ∃ k, k ≤ n ∧ id = Host.visitId k

namespace Trace.GivenUpTo

variable {m n : Nat} {t : Trace}

/-- More IDs may have been given meanwhile, -/
theorem mono (given : t.GivenUpTo m) (le : m ≤ n) : t.GivenUpTo n where
  distinct := given.distinct
  known id hid := by
    obtain ⟨k, before, same⟩ := given.known id hid
    exact ⟨k, Nat.le_trans before le, same⟩

/-- and signals may have been called. -/
theorem calls (given : t.GivenUpTo n) (cs : List SignalCall) :
    (Trace.calls cs ++ t).GivenUpTo n := by
  have same := Trace.given_calls cs t
  exact ⟨same ▸ given.distinct, same ▸ given.known⟩

end Trace.GivenUpTo

namespace Host

variable {h : Host Memory} {m₀ : Memory} {run : String} {t : Trace}

/-- An ID that a host gives is a new one. The host counts them, for all its runs together. -/
theorem givenUpTo_answer {q : Request} (given : t.GivenUpTo h.visitIds)
    (le : h.visitIds ≤ (h.answer q).2.visitIds) :
    Trace.GivenUpTo (h.answer q).2.visitIds (.asked q (h.answer q).1 :: t) := by
  have given' := given.mono le
  by_cases new : q = .newVisitId
  · subst new
    refine ⟨List.nodup_cons.2 ⟨fun again => ?_, given.distinct⟩, ?_⟩
    · obtain ⟨k, before, same⟩ := given.known _ again
      obtain rfl := visitId_injective same
      exact Nat.not_succ_le_self _ before
    · exact List.forall_mem_cons.2 ⟨⟨_, Nat.le_refl _, rfl⟩, given'.known⟩
  · have same := Trace.given_asked (x := (h.answer q).1) (t := t) new
    exact ⟨same ▸ given.distinct, same ▸ given'.known⟩

/-- A host that works goes on to do so after a visit was created, -/
theorem Works.createVisit (works : h.Works) (v : Visit) : h.answer (.createVisit v) =
    ((h.store.createVisit v).1, { h with store := (h.store.createVisit v).2 }.log
      (.createVisit v (h.store.createVisit v).1)) := by
  have reaches := works.call .createVisit (Store.createVisit v)
  exact congrArg (logged (.createVisit v)) reaches

/-- and after an update. -/
theorem Works.update (works : h.Works) (r : RunRecord) (visits : List Visit) :
    h.answer (.update r visits) =
      ((h.store.update r visits).1, { h with store := (h.store.update r visits).2 }.log
        (.update r visits (h.store.update r visits).1)) := by
  have reaches := works.call .update (Store.update r visits)
  exact congrArg (logged (.update r visits)) reaches

end Host

namespace Run

variable {r : Run} {m₀ : Memory} {h h' : Host Memory} {s s' : Stance (Bool × Run)} {u : Trace}
  {q : Request} {next : q.Answer → Program (Bool × Run)} {d : RunDetail} {e : Incident}
  {operations : String → Prop}

/-- What a run has written so far accounts for its visits. -/
theorem Stands.proper (stands : r.Stands s u) (tidy : r.Tidy) :
    u.Proper .free r.id := by
  cases stands with
  | fresh => simpa using Trace.Proper.nil.calls _
  | awake leads => exact tidy.proper leads
  | asleep cs leads => exact ((tidy.proper leads).cons (by simp)).calls _

/-- The host has brought the run so far. Its writes have worked, and what is stored of it began as
in `m₀`. -/
structure Lodged (r : Run) (m₀ : Memory) (h : Host Memory) (s : Stance (Bool × Run)) (u : Trace) :
    Prop extends r.Hosted h s u where
  /-- the store has followed the trace -/
  serves : m₀.Serves r.id u h.store
  /-- all writes have worked -/
  clean : u.Clean
  /-- its visits got IDs of the host -/
  given : u.GivenUpTo h.visitIds
  /-- the store works -/
  works : h.Works

namespace Lodged

/-- A run that has not begun, at a host that works. -/
theorem start (works : h.Works) (quiet : h.signal r.id = .quiet) (clock : Nat) :
    r.Lodged h.store h (.fresh clock r.start) [] where
  stands := .fresh clock []
  signal := quiet
  serves := .start
  clean := by simp [Trace.Clean]
  given := ⟨.nil, by simp [Trace.given]⟩
  works := works

/-- What is stored can be read off the trace. -/
theorem detail (lodged : r.Lodged m₀ h s u) (tidy : r.Tidy)
    (stored : m₀.detail r.id = some d) : h.store.detail r.id = some (u.kept d) ∧ u.Fresh d :=
  lodged.serves.detail_eq stored (lodged.stands.proper tidy).listing.own

/-- Nothing has happened but that it has begun. -/
theorem begins {start : Nat} {p : Program (Bool × Run)}
    (lodged : r.Lodged m₀ h (.fresh start p) u) : r.Lodged m₀ h (.awake p) u :=
  ⟨lodged.toHosted.begins, lodged.serves, lodged.clean, lodged.given, lodged.works⟩

/-- What is no write. -/
theorem unwritten (lodged : r.Lodged m₀ h s u) (hosted : r.Hosted h s' (e :: u))
    (other : e.isWrite = false) (given : Trace.given (e :: u) = u.given) :
    r.Lodged m₀ h s' (e :: u) where
  toHosted := hosted
  serves := lodged.serves.unwritten other
  clean := by
    refine Trace.clean_cons.2 ⟨Bool.eq_false_iff.2 fun failed => ?_, lodged.clean⟩
    rw [Trace.isWrite_of_isFailedWrite failed] at other
    cases other
  given := ⟨given ▸ lodged.given.distinct, given ▸ lodged.given.known⟩
  works := lodged.works

/-- What others do is nothing to it: neither the records that are its own nor its signal is
touched. -/
theorem of_spares {other : String} (lodged : r.Lodged m₀ h s u)
    (spares : h.Spares other operations h') (ne : r.id ≠ other) : r.Lodged m₀ h' s u where
  toHosted := lodged.toHosted.of_signal_eq (spares.signal r.id ne)
  serves := lodged.serves.aside (spares.detail r.id ne)
  clean := lodged.clean
  given := lodged.given.mono spares.visitIds
  works := spares.works lodged.works

/-- Nor is time that passes. -/
theorem passes (lodged : r.Lodged m₀ h s u) (ms : Nat) :
    r.Lodged m₀ { h with clock := ms } s u :=
  ⟨lodged.toHosted.of_signal_eq rfl, lodged.serves, lodged.clean, lodged.given,
    lodged.works.faults, lodged.works.writable⟩

/-- Calls of its signal are noted in its trace, and write nothing. -/
theorem called (lodged : r.Lodged m₀ h s u) (c : SignalCall) :
    r.Lodged m₀ (h.called r.id c) s (.called c :: u) := by
  have hosted := lodged.toHosted.called c
  obtain ⟨-, serves, clean, ⟨distinct, known⟩, faults, writable⟩ := lodged
  have clean : Trace.Clean (.called c :: u) := Trace.clean_cons.2 ⟨rfl, clean⟩
  cases c <;> exact ⟨hosted, serves.unwritten rfl, clean, ⟨distinct, known⟩, faults,
    writable⟩

/-- The next write works, too. An update finds the run, which is stored. A visit that is created has
an ID that was given after all visits that are stored, and so there is none of that ID; its run is
there. -/
theorem works_next (lodged : r.Lodged m₀ h (.awake (.ask q next)) u)
    (tidy : r.Tidy) (stored : m₀.detail r.id = some d)
    (empty : d.visits = []) : (Incident.asked q (h.answer q).1).isFailedWrite = false := by
  obtain ⟨detail, freshly⟩ := lodged.detail tidy stored
  have listing := (lodged.stands.proper tidy).listing
  obtain ⟨⟨⟩ | @⟨before, _, _, leads⟩ | ⟨⟩, -⟩ := lodged.toHosted
  have worked {r : Request} {x y : r.Answer} (same : x = y)
      (ok : (Incident.asked r y).isFailedWrite = false) :
      (Incident.asked r x).isFailedWrite = false := same ▸ ok
  cases q with
  | createVisit v =>
    have answers : u.Answers .slow (.createVisit v) (.ok ())
        (.asked (.createVisit v) (.ok ()) :: u) := ⟨[], .inl rfl, trivial, rfl⟩
    have own : v.parentId = r.id := tidy.concerns leads (.ok ())
    -- the ID of the visit was given for it, so it is not among those that were entered
    have minted := (tidy.proper (leads.trans (.ask answers .here))).minted
    have once : (u.entered ++ [v.id]).Nodup := (minted.nodup lodged.given.distinct).1
    obtain ⟨all, -⟩ := Trace.keptIds_of_clean empty listing.lists freshly lodged.clean
    have new : v.id ∉ (u.kept d).visits.map Visit.id := fun known =>
      List.disjoint_of_nodup_append once (all ▸ known) (List.mem_singleton_self _)
    refine worked (y := .ok ()) ?_ rfl
    rw [lodged.works.createVisit]
    exact Memory.createVisit_of_new lodged.works.writable (own ▸ detail) new
  | update record visits =>
    refine worked (y := .ok ()) ?_ rfl
    rw [lodged.works.update]
    exact (Memory.update_of_writable record visits lodged.works.writable).1
  | _ => rfl

/-- It asks, and goes on with the answer. -/
theorem asks {cs : List SignalCall} (lodged : r.Lodged m₀ h (.awake (.ask q next)) u)
    (tidy : r.Tidy) (within : q.Within (.own operations))
    (worked : (Incident.asked q (h.answer q).1).isFailedWrite = false)
    (calls : Host.Calls r.id cs h (h.answer q).2)
    (allows : q.Allows (h.signal r.id) (h.answer q).1 cs) :
    r.Lodged m₀ (h.answer q).2 (.awake (next (h.answer q).1))
      (.calls cs ++ .asked q (h.answer q).1 :: u) := by
  have spares : h.Spares r.id operations (h.answer q).2 := by
    obtain ⟨⟨⟩ | ⟨leads⟩ | ⟨⟩, -⟩ := lodged.toHosted
    exact Host.spares_answer lodged.stands.isFor (tidy.concerns leads) within
  refine ⟨lodged.toHosted.asks calls allows, ?_, ?_, ?_, spares.works lodged.works⟩
  · exact (Host.serves_answer lodged.serves q).calls cs
  · exact Trace.clean_append.2 ⟨Trace.clean_calls cs, Trace.clean_cons.2 ⟨worked, lodged.clean⟩⟩
  · exact (Host.givenUpTo_answer lodged.given spares.visitIds).calls cs

end Lodged

end Run

end Runbook
