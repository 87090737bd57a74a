import Runbook.Proofs.Walk

/-!
# Cancellation

Once the signal of a run has fired, whenever that was, nothing more is begun, no
executor acts that was interrupted, and the run ends as canceled.

* `Trace.struck` is kept by everything that happens after the signal has fired.
* `Run.Obeys` — what a canceled run leaves behind.
* `Run.obeys_of_fired` — every behaviour in which the signal fires comes to that.
-/

namespace Runbook

open Program

variable {pace : Pace} {t u : Trace}

namespace Trace

/-! ## Nodes that were at work -/

/-- A node is struck only by a signal that has fired. -/
theorem fired_of_struck (h : t.struck = true) : t.signal.fired = true := by
  induction t with
  | nil => cases h
  | cons e t ih =>
    cases e with
    | called c => simp
    | _ => exact ih h

/-- Calls of the signal leave the node at work what it is. -/
theorem busy_calls {cs : List SignalCall} : busy (calls cs ++ t) = busy t := by
  induction cs with
  | nil => rfl
  | cons c cs ih => exact ih

/-- When the signal is called while no node is at work, none is struck. -/
theorem struck_calls {cs : List SignalCall} (idle : busy t = false) :
    struck (calls cs ++ t) = struck t := by
  induction cs with
  | nil => rfl
  | cons c cs ih =>
    rw [calls_cons, List.cons_append, struck]
    split
    · exact ih
    · next quiet =>
      rw [busy_calls, idle, Eq.comm, Bool.eq_false_iff, ← ih]
      exact fun hs => quiet (fired_of_struck hs)

theorem Looks.struck_eq (h : t.Looks .prompt u) : u.struck = t.struck := by
  obtain ⟨run, s, cs, cs', hcs, rfl⟩ := h
  obtain rfl : cs' = [] := by simpa using hcs
  have : struck (calls cs ++ .asked (.between run) () :: t) = struck t := struck_calls rfl
  exact this

/-- Once the signal has fired, nobody else is struck. -/
theorem struck_append (fired : t.signal.fired = true) : struck (u ++ t) = struck t := by
  induction u with
  | nil => rfl
  | cons e u ih =>
    cases e with
    | called c => rw [List.cons_append, struck, if_pos (fired_append u fired), ih]
    | _ => exact ih

/-- Nobody is at work before a run begins. -/
theorem struck_before (cs : List SignalCall) : (calls cs).struck = false := by
  have : struck (calls cs ++ []) = struck [] := struck_calls rfl
  rwa [List.append_nil] at this

end Trace

namespace Run

variable {r r' : Run} {ok : Bool}

/-! ## What a canceled run leaves behind -/

/-- The visit of the node that was at work when the signal fired, if one was, has
the same failure as the run; only an executor that was not interrupted, but
panicked or ran out of time, leaves its own. -/
def Marked (r : Run) (t : Trace) : Prop :=
  t.struck = true → ∃ v, r.current = some v ∧ v.status = .error ∧
    (r.lastError = some v.result ∨
      ¬ t.Interrupted ∧ ∃ f : Failure, f.isAbrupt ∧ v.result = f.message)

/-- The run has ended as canceled. -/
structure Obeys (ok : Bool) (r : Run) (t : Trace) : Prop where
  /-- the value says that not every node succeeded -/
  value : ok = false
  /-- the run is canceled -/
  status : r.record.status = .canceled
  /-- for the reason that was given first -/
  lastError : r.lastError = some ("task canceled: " ++ t.firstReason?.getD "canceled")
  /-- so is the node that was at work -/
  marked : r.Marked t

theorem Obeys.idles (h : r.Obeys ok t) (hu : t.Idles .prompt u) : r.Obeys ok u where
  value := h.value
  status := h.status
  lastError := by
    rw [h.lastError, ← Trace.signal_note, ← Trace.signal_note, hu.signal_eq]
  marked struck := by
    rw [hu.struck_eq] at struck
    obtain ⟨v, current, failed, same | ⟨free, own⟩⟩ := h.marked struck
    · exact ⟨v, current, failed, .inl same⟩
    · exact ⟨v, current, failed, .inr ⟨hu.not_interrupted free, own⟩⟩

theorem Obeys.stamped (h : r.Obeys ok t) (now : Instant) : (r.stamped now).Obeys ok t :=
  ⟨h.value, h.status, h.lastError, h.marked⟩

/-! ## Along the walk -/

/-- A node that was at work when the signal fired was not interrupted and failed by
itself, if the walk has come to another target. -/
def Spared (r : Run) (t : Trace) : Prop :=
  t.struck = true → ¬ t.Interrupted ∧
    ∃ v, r.current = some v ∧ v.status = .error ∧ ∃ f : Failure, f.isAbrupt ∧ v.result = f.message

/-- What a run that is canceled between two nodes leaves behind. -/
theorem Spared.obeys (h : r.Spared t) (canceled : r.Canceled t.signal.reason r') :
    r'.Obeys false t where
  value := rfl
  status := canceled.status
  lastError := by
    rw [canceled.lastError, ← Trace.signal_reason]
    rfl
  marked struck := by
    obtain ⟨free, v, current, failed, own⟩ := h struck
    obtain ⟨now, trail⟩ := canceled.trail
    refine ⟨v, ?_, failed, .inr ⟨free, own⟩⟩
    rw [Run.current, trail, ← Run.current, current_edit, current, Option.map_some,
      Visit.ended_of_error failed]

theorem keeps_spared (d : Definition) :
    Keeps .prompt d (fun _ _ r t => r.Spared t) fun o u => u.Orderly ∧
      (u.signal.fired = true → ∃ ok r', o = some (ok, r') ∧ r'.Obeys ok u) where
  arrives _ _ calm := ⟨(calm rfl).1, fun fired => absurd (calm rfl).2 (by simp [fired])⟩
  cancels := by
    intro target ok r r' t u v spared looks fired canceled idles ordered
    refine ⟨ordered rfl, fun _ => ⟨false, r', rfl, ?_⟩⟩
    refine Obeys.idles (Spared.obeys (r := r) (fun struck => ?_) canceled) idles
    rw [looks.struck_eq] at struck
    exact ⟨looks.not_interrupted (spared struck).1, (spared struck).2⟩
  -- after a step that leads on the run is spared only if nothing has fired, or the wait was cut
  -- short
  steps := by
    intro n ok r t u v o _ _ _ _ stepped
    cases stepped with
    | advanced _ _ calm =>
      exact fun struck => absurd (Trace.fired_of_struck struck) (by simp [(calm rfl).2])
    | @recovered r' w v f working failed result ordered =>
      intro struck
      obtain ⟨abrupt, free⟩ := (ordered rfl).2 (Trace.fired_of_struck struck)
      refine ⟨free, w, ?_, failed, f, abrupt, result⟩
      rw [Run.current, keepError, working.trail, List.head?_cons]
    -- here the signal ends the run, so what it has obeyed is to be shown
    | @canceled r' w v visited failed status fired ordered =>
      obtain ⟨ordered, result, lastError⟩ := ordered rfl
      have current : r'.current = some w := by rw [Run.current, visited.trail, List.head?_cons]
      have marked : r'.Marked v := fun _ => ⟨w, current, failed, .inl lastError⟩
      refine ⟨ordered, fun _ => ⟨false, r', rfl, rfl, status, ?_, marked⟩⟩
      rw [lastError, result, ← Trace.signal_reason]
      rfl
    | aborted _ _ _ _ _ _ calm =>
      exact ⟨(calm rfl).1, fun fired => absurd (calm rfl).2 (by simp [fired])⟩
    | panicked calm =>
      exact ⟨(calm rfl).1, fun fired => absurd (calm rfl).2 (by simp [fired])⟩

/-- Every run is orderly, and obeys its signal if that has fired in the end. -/
theorem ensures_obeys (before : List SignalCall) :
    r.start.Ensures .prompt (fun o u => u.Orderly ∧ (u.signal.fired = true →
      ∃ r', o = some (false, r') ∧ r'.Obeys false u ∧ r'.LastSaved u)) (.calls before) := by
  refine ensures_start (keeps_spared _) ?_ (fun _ => Trace.orderly_calls before) ?_ ?_
  · intro struck
    rw [Trace.struck_before] at struck
    cases struck
  · rintro ok r' u ⟨ordered, obeys⟩
    refine ensures_close ?_ ?_
    · intro now v idles saved _
      refine ⟨idles.orderly ordered, fun fired => ?_⟩
      rw [idles.signal_eq] at fired
      obtain ⟨ok, r', ⟨⟩, obeys⟩ := obeys fired
      obtain rfl := obeys.value
      rw [complete_of_canceled obeys.status] at saved ⊢
      exact ⟨_, rfl, (obeys.stamped now).idles idles, saved⟩
    · intro reason r'' v _ fired status _ _
      obtain ⟨ok, r', ⟨⟩, obeys⟩ := obeys fired
      exact absurd obeys.status status
  · rintro u ⟨ordered, obeys⟩
    refine ⟨ordered, fun fired => ?_⟩
    obtain ⟨ok, r', ⟨⟩, -⟩ := obeys fired

/-! ## Cancellation goes before all else -/

/-- Whenever the signal of a run has fired, before the run began or later: nothing
was begun since and nothing will be, and no executor acts that was interrupted.
The run comes to its end, and in every case it ends as canceled, was written like
that at last, and says so itself. -/
theorem obeys_of_fired {before : List SignalCall} {q : Program (Bool × Run)}
    (h : r.start.Leads .prompt (.calls before) q t) (fired : t.signal.fired = true) :
    (∃ o u, q.Ends .prompt t o u) ∧ ∀ o u, q.Ends .prompt t o u →
      u.Heeds ∧ ∃ r', o = some (false, r') ∧ r'.Obeys false u ∧ r'.LastSaved u := by
  refine ⟨exists_ends .prompt q t, fun o u hu => ?_⟩
  obtain ⟨ordered, obeys⟩ := ensures_iff.1 ((ensures_obeys before).of_leads h) o u hu
  obtain ⟨v, rfl⟩ := hu.suffix
  exact ⟨ordered.heeds, obeys (Trace.fired_append v fired)⟩

/-- A run whose executor waits for ever can be interrupted. -/
theorem vigil_interrupted : ∃ q t, vigil.start.Leads .prompt (.calls []) q t ∧
    t.struck = true ∧ t.Interrupted ∧ t.firstReason? = some "stop" := by
  obtain ⟨w, next, waits⟩ :
      ∃ w next, (vigil.start.easily []).1 = Program.pause w next := ⟨_, _, rfl⟩
  have leads := vigil.start.leads_easily .prompt []
  rw [waits] at leads
  exact ⟨_, _, leads.interrupted (.cancel "stop"), rfl, List.mem_cons_self, rfl⟩

/-- Then it ends with its visit, and both have the failure that the reason gives. -/
theorem vigil_obeys : ∃ q t, vigil.start.Leads .prompt (.calls []) q t ∧ t.struck = true ∧
    ∃ r' v u, q.Ends .prompt t (some (false, r')) u ∧ u.Heeds ∧ r'.LastSaved u ∧
      r'.record.status = .canceled ∧ r'.lastError = some "task canceled: stop" ∧
      r'.current = some v ∧ v.status = .error ∧ v.result = "task canceled: stop" := by
  obtain ⟨q, t, leads, struck, interrupted, reason⟩ := vigil_interrupted
  have fired := Trace.fired_of_struck struck
  obtain ⟨⟨o, u, ends⟩, obeys⟩ := obeys_of_fired leads fired
  obtain ⟨heeds, r', rfl, obeys, saved⟩ := obeys o u ends
  obtain ⟨later, rfl⟩ := ends.suffix
  have first : Trace.firstReason? (later ++ t) = some "stop" := by
    rw [← Trace.signal_note] at reason ⊢
    exact Trace.note_append later reason
  have lastError := obeys.lastError
  rw [first] at lastError
  obtain ⟨v, current, failed, result | ⟨free, -⟩⟩ :=
    obeys.marked ((Trace.struck_append fired).trans struck)
  · have same : v.result = "task canceled: stop" := Option.some.inj (result.symm.trans lastError)
    exact ⟨q, t, leads, struck, r', v, _, ends, heeds, saved, obeys.status, lastError, current,
      failed, same⟩
  · exact absurd (List.mem_append_right later interrupted) free

end Run

end Runbook
