import Runbook.Proofs.Cancellation
import Runbook.Proofs.Serving

/-!
# Calls on a run, and what becomes of its status

Whoever holds a run can start it, destroy it, give it its final status and set values of its
context, in any order and as often as they like.

* `RunCall`, `RunCall.Returns`, `Run.Undergoes` — these calls, what one of them comes to, and what
  several of them do, while others call the signal of the run.
* `Trace.WritesOnly`, `Trace.Shifts` — the statuses with which the store was given the run.
* `Program.Writes` — a program gives the run one status only.
* `Run.heard_of_undergoes` — the signal of a run that is canceled has fired.
* `RunCall.Keeps`, `Run.Final` — which calls leave the status of a run that has ended. A canceled
  run stays so; any other is started again, destroyed or completed otherwise if somebody asks for
  it.
-/

namespace Runbook

open Program

/-! ## Calls -/

/-- A call on a run. -/
inductive RunCall where
  /-- execute it -/
  | start
  /-- fire its signal and end it as canceled -/
  | destroy (reason : String)
  /-- give it the final status that its success calls for -/
  | complete (success : Bool)
  /-- set a value of its context -/
  | addContext (key : String) (value : Json)

/-- The call on `r` after `t` returns, with the run and the trace then. -/
inductive RunCall.Returns (pace : Pace) (r : Run) (t : Trace) : RunCall → Run → Trace → Prop where
  /-- the run was executed -/
  | start {ok : Bool} {r' : Run} {u : Trace} (ends : r.start.Ends pace t (some (ok, r')) u) :
    Returns pace r t .start r' u
  /-- it was canceled -/
  | destroy {reason : String} {r' : Run} {u : Trace}
    (ends : r.destroy.Ends pace (.called (.cancel reason) :: t) (some r') u) :
    Returns pace r t (.destroy reason) r' u
  /-- nobody else can notice -/
  | complete (success : Bool) : Returns pace r t (.complete success) (r.complete success) t
  /-- nobody else can notice -/
  | addContext (key : String) (value : Json) :
    Returns pace r t (.addContext key value) (r.addContext key value) t

/-- Calls return one after the other, and others call the signal before and between them. -/
inductive Run.Undergoes (pace : Pace) : Run → Trace → List RunCall → Run → Trace → Prop where
  /-- nothing happens -/
  | refl {r : Run} {t : Trace} : Undergoes pace r t [] r t
  /-- the first call returns -/
  | call {r r' r'' : Run} {t u v : Trace} {c : RunCall} {cs : List RunCall}
    (returns : c.Returns pace r t r' u) (rest : Undergoes pace r' u cs r'' v) :
    Undergoes pace r t (c :: cs) r'' v
  /-- others call the signal -/
  | called {r r' : Run} {t u : Trace} {cs : List RunCall} (c : SignalCall)
    (rest : Undergoes pace r (.called c :: t) cs r' u) : Undergoes pace r t cs r' u

/-! ## Statuses that are written -/

/-- If the run is written, it has that status. -/
def Request.Gives (s : Status) : Request → Prop
  | update r _ => r.status = s
  | _ => True

namespace Trace

variable {pace : Pace} {t u : Trace} {s : Status} {r : Request} {x : r.Answer}

/-- From `t` to `u` the run was written with that status only, or not at all. -/
abbrev WritesOnly (s : Status) (t u : Trace) : Prop := t.Adds (·.Gives s) u

/-- From `t` to `u` a write failed, or the run was written with another status. -/
def Shifts (s : Status) (t u : Trace) : Prop :=
  ∃ new, u = new ++ t ∧ (new.Clean → ∃ r x, .asked r x ∈ new ∧ ¬ r.Gives s)

/-- So it is if more happens before or after. -/
theorem Shifts.extend {t' u' : Trace} (h : Shifts s t u) (before : t' <:+ t) (after : u <:+ u') :
    Shifts s t' u' := by
  obtain ⟨new, rfl, other⟩ := h
  obtain ⟨old, rfl⟩ := before
  obtain ⟨more, rfl⟩ := after
  refine ⟨more ++ new ++ old, by simp only [List.append_assoc], fun clean => ?_⟩
  obtain ⟨r, x, inside, gives⟩ := other (clean_append.1 (clean_append.1 clean).1).2
  exact ⟨r, x, List.mem_append_left _ (List.mem_append_right _ inside), gives⟩

/-- A request by itself shifts nothing if it writes no other status, or if its write fails. -/
theorem Answers.shifts (h : t.Answers pace r x u)
    (head : (Incident.asked r x).isFailedWrite = true ∨ ¬ r.Gives s) : Shifts s t u := by
  obtain ⟨cs, -, -, rfl⟩ := h
  refine Shifts.extend (t := t) ⟨[.asked r x], rfl, fun clean => ?_⟩ (List.suffix_refl t)
    (List.suffix_append _ _)
  refine ⟨r, x, List.mem_singleton_self _, head.resolve_left fun failed => ?_⟩
  rw [(clean_cons.1 clean).1] at failed
  cases failed

end Trace

namespace Program

variable {α : Type} {pace : Pace} {s : Status} {t u : Trace}

/-- The program writes the run with that status only, and its value has a property. -/
abbrev Writes (s : Status) (P : α → Prop) (p : Program α) : Prop := p.Only (·.Gives s) P

/-- What has been written stays written. -/
theorem ensures_shifts (h : Trace.Shifts s t u) (p : Program α) :
    p.Ensures pace (fun _ v => t.Shifts s v) u :=
  ensures_iff.2 fun _ _ ends => h.extend (List.suffix_refl t) ends.suffix

end Program

namespace Run

variable {pace : Pace} {r r' r'' : Run} {ok : Bool} {s : Status} {t u : Trace}

/-! ## A signal that has fired -/

/-- A run that ends writes nothing here, but it takes the status that it will write. -/
theorem writes_endWith {f : Failure} {s' : Status} :
    (r.endWith f s').Writes s (·.record.status = s') := by
  rw [endWith]
  split
  · exact ⟨trivial, fun _ => rfl⟩
  · exact rfl

/-- So it is canceled before anything is written, -/
theorem writes_markCanceled : r.markCanceled.Writes s (·.record.status = .canceled) :=
  ⟨trivial, fun _ => writes_endWith⟩

/-- and what is written has the status of the run at that moment. -/
theorem writes_saveAnyway (status : r.record.status = s) :
    r.saveAnyway.Writes s (·.record.status = s) :=
  ⟨trivial, fun _ => ⟨status, fun _ => status⟩⟩

/-- To give up a run is to cancel it and to write that. -/
theorem writes_destroy : r.destroy.Writes .canceled (·.record.status = .canceled) :=
  writes_markCanceled.bind fun _ => writes_saveAnyway

/-- A walk that stops because of its signal writes a canceled run, and has not succeeded. -/
theorem writes_stopCanceled : r.stopCanceled.Writes .canceled fun a =>
    a.1 = false ∧ a.2.record.status = .canceled :=
  writes_markCanceled.bind fun _ canceled => (writes_saveAnyway canceled).bind fun _ h => ⟨rfl, h⟩

/-- The end of a run writes it once more. A canceled run is left as it is: this is the only status
that the end of a run spares. -/
theorem writes_close (canceled : r.record.status = .canceled) :
    (r.close ok).Writes .canceled fun a => a.1 = ok ∧ a.2.record.status = .canceled := by
  refine ⟨trivial, fun signal => ?_⟩
  have settled : (signal.fired && r.record.status != .canceled) = false := by simp [canceled]
  dsimp only [done_bind, pure_eq, bind_eq]
  rw [settled, complete_of_canceled canceled]
  exact (writes_saveAnyway canceled).bind fun _ h => ⟨rfl, h⟩

/-- To destroy a run ends in every case. -/
theorem ensures_destroy : r.destroy.Ensures pace (fun o _ => ∃ r', o = some r') t :=
  ensures_bind.2 (ensures_markCanceled fun _ _ _ => ensures_saveAnyway fun _ _ _ _ => ⟨_, rfl⟩)

/-- A run between two nodes notices that its signal has fired. -/
theorem ensures_look_fired {α : Type} {f : Signal → Program α} {Q : Option α → Trace → Prop}
    (fired : t.signal.fired = true)
    (h : ∀ x u, x.fired = true → t.WritesOnly .canceled u → (f x).Ensures pace Q u) :
    (r.look.bind f).Ensures pace Q t := by
  refine ensures_request.2 fun _ cs _ _ => ensures_signal fun cs' slow => h _ _ ?_ ?_
  · exact Trace.fired_append (.calls cs) fired
  · refine @Trace.Looks.adds pace _ _ _ ?_ (fun _ => trivial) fun _ => trivial
    exact ⟨r.id, _, cs, cs', slow, rfl⟩

/-- From `t` to `u` the run was written only as canceled, and so it has ended. -/
def Quits (t : Trace) (o : Option (Bool × Run)) (u : Trace) : Prop :=
  t.WritesOnly .canceled u ∧ ∀ a ∈ o, a.1 = false ∧ a.2.record.status = .canceled

/-- So from there on nothing else is written, and the run is left canceled. -/
theorem ensures_quits {p : Program (Bool × Run)} (before : t.WritesOnly .canceled u)
    (writes : p.Writes .canceled fun a => a.1 = false ∧ a.2.record.status = .canceled) :
    p.Ensures pace (Quits t) u :=
  writes.ensures.mono fun _ _ h => ⟨before.trans h.1, h.2⟩

/-- Once its signal has fired, a run that is started only ends as canceled. -/
theorem ensures_walk_fired (fired : t.signal.fired = true) (nodes : List NodeSpec)
    (target : Option String) (ok : Bool) (r : Run) :
    (walk nodes target ok r).Ensures pace (Quits t) t := by
  have arrives : (r.arrive ok).Ensures pace (Quits t) t := by
    refine ensures_look_fired fired fun x u hx looked => ?_
    rw [if_pos hx]
    exact ensures_quits looked (writes_markCanceled.bind fun _ h => ⟨rfl, h⟩)
  induction nodes with
  | nil => exact arrives
  | cons n nodes ih =>
    cases target with
    | none => exact arrives
    | some name =>
      rw [walk]
      split
      -- the run looks at its signal before it comes to the node
      · refine ensures_look_fired fired fun x u hx looked => ?_
        rw [if_pos hx]
        exact ensures_quits looked writes_stopCanceled
      · exact ih

/-- A run whose signal has fired before it begins is canceled without a node. -/
theorem ensures_start_fired (fired : t.signal.fired = true) :
    r.start.Ensures pace (Quits t) t := by
  refine ensures_bind.2 ((ensures_walk_fired fired ..).mono ?_)
  rintro (_ | ⟨ok, r'⟩) u ⟨walked, ended⟩
  · exact ⟨walked, by simp⟩
  · obtain ⟨rfl, canceled⟩ := ended _ rfl
    exact ensures_quits walked (writes_close canceled)

/-! ## A run that is canceled -/

/-- If the run is canceled, that is because its signal has fired. -/
def Heard (r : Run) (t : Trace) : Prop := r.record.status = .canceled → t.signal.fired = true

/-- So it is behind every walk. -/
theorem keeps_heard (d : Definition) : Keeps .slow d (fun _ _ _ _ => True)
    fun o u => ∀ a ∈ o, Heard a.2 u where
  arrives := by
    rintro ok r t u - - - _ ⟨⟩ canceled
    cases canceled
  cancels := by
    rintro target ok r r' t u v - looks fired canceled idles - _ ⟨⟩ -
    exact idles.fired fired
  steps := by
    intro n ok r t u v o _ _ _ _ stepped
    cases stepped with
    | advanced | recovered => trivial
    | canceled visited failed status fired =>
      rintro _ ⟨⟩ -
      exact fired
    | aborted _ _ _ status =>
      rintro _ ⟨⟩ canceled
      rw [status] at canceled
      cases canceled
    | panicked =>
      rintro _ ⟨⟩

/-- A run that is canceled has been so by its signal, and nothing but its signal cancels a run while
it is executed. -/
theorem ensures_start_heard : r.start.Ensures pace (fun o u => ∀ a ∈ o, Heard a.2 u) t := by
  refine Ensures.of_slow (ensures_start (keeps_heard _) trivial (by simp) ?_ fun u h => by simp)
  intro ok r' u heard
  refine ensures_close ?_ ?_
  · rintro now v idles - - _ ⟨⟩ canceled
    refine idles.fired (heard _ rfl ?_)
    by_contra other
    rw [complete_of_not_canceled other] at canceled
    cases ok <;> cases canceled
  · rintro reason r'' v idles fired - - - _ ⟨⟩ -
    exact idles.fired fired

/-- So it is after each call, for a signal that has fired does not become quiet again. -/
theorem Heard.returns {c : RunCall} (h : r.Heard t) (returns : c.Returns pace r t r' u) :
    r'.Heard u := by
  cases returns with
  | start ends => exact ensures_iff.1 ensures_start_heard _ _ ends _ rfl
  | destroy ends =>
    obtain ⟨new, rfl⟩ := ends.suffix
    exact fun _ => Trace.fired_append new (Signal.fired_after ..)
  | complete success =>
    intro canceled
    refine h ?_
    by_contra other
    rw [complete_of_not_canceled other] at canceled
    cases success <;> cases canceled
  | addContext => exact h

/-- So it is after any number of calls. -/
theorem heard_of_undergoes {cs : List RunCall} (h : r.Heard t)
    (calls : r.Undergoes pace t cs r' u) : r'.Heard u := by
  induction calls with
  | refl => exact h
  | call returns _ ih => exact ih (h.returns returns)
  | called c _ ih => exact ih fun canceled => Trace.fired_cons (.called c) (h canceled)

/-! ## A run that is started -/

/-- To write a run that has another status shifts the status that is stored, or fails. -/
theorem ensures_save_shifts (other : r.record.status ≠ s) :
    r.save.Ensures pace (fun _ u => t.Shifts s u) t := by
  refine ensures_asked.2 fun now u hu => ensures_asked.2 fun w v hv => ?_
  have written : u.Shifts s v := hv.shifts (.inr other)
  exact written.extend hu.suffix (List.suffix_refl v)

/-- Whether it fails is overlooked here, and it counts as a shift all the same. -/
theorem ensures_saveAnyway_shifts (other : r.record.status ≠ s) :
    r.saveAnyway.Ensures pace (fun _ u => t.Shifts s u) t := by
  refine ensures_bind.2 ((ensures_save_shifts other).mono ?_)
  rintro (_ | a) u shifts <;> exact shifts

/-- A run that is canceled writes that it is. -/
theorem ensures_stopCanceled_shifts (other : s ≠ .canceled) :
    r.stopCanceled.Ensures pace (fun _ u => t.Shifts s u) t := by
  refine ensures_bind.2 (ensures_markCanceled fun now u hu => ensures_bind.2 ?_)
  refine (ensures_saveAnyway_shifts (s := s) (by simpa using other.symm)).mono fun o v hv => ?_
  have shifts : t.Shifts s v := hv.extend hu.suffix (List.suffix_refl v)
  cases o <;> exact shifts

/-- Before a node is executed, the run is written as at work. -/
theorem ensures_step_shifts (n : NodeSpec) (other : s ≠ .processing)
    (status : r.record.status = .processing) :
    (r.step n).Ensures pace (fun _ u => t.Shifts s u) t := by
  refine ensures_asked.2 fun id u₁ h₁ => ensures_asked.2 fun now u₂ h₂ =>
    ensures_asked.2 fun created u₃ h₃ => ?_
  have before : t <:+ u₂ := h₁.suffix.trans h₂.suffix
  split
  · next f hf =>
    obtain ⟨⟨e, rfl⟩, -⟩ := writeFailure_eq_some hf
    have failed : u₂.Shifts s u₃ := h₃.shifts (.inl rfl)
    exact ensures_shifts (failed.extend before (List.suffix_refl u₃)) _
  · refine ensures_bind.2 ((ensures_save_shifts (s := s) fun same => ?_).mono fun o v hv => ?_)
    · exact other (same.symm.trans status)
    · have shifts : t.Shifts s v := hv.extend (before.trans h₃.suffix) (List.suffix_refl v)
      cases o with
      | none => exact shifts
      | some a => exact ensures_shifts shifts _

/-- By induction over the nodes up to the one that is next: there the run is processing and is
written, if it was not canceled before, and then that is written. -/
theorem ensures_walk_shifts (working : s ≠ .processing) (quiet : s ≠ .canceled)
    (status : r.record.status = .processing) {nodes : List NodeSpec} {name : String}
    (inside : name ∈ nodes.map NodeSpec.name) :
    (walk nodes (some name) ok r).Ensures pace (fun _ u => t.Shifts s u) t := by
  induction nodes with
  | nil => cases inside
  | cons n nodes ih =>
    rw [walk]
    split
    · refine ensures_look fun x u looks _ _ => ?_
      have before : t <:+ u :=
        (looks.adds (A := fun _ => True) (fun _ => trivial) fun _ => trivial).suffix
      split
      · exact (ensures_stopCanceled_shifts quiet).mono fun o v hv =>
          hv.extend before (List.suffix_refl v)
      · refine ensures_bind.2 ((ensures_step_shifts n working status).mono fun o v hv => ?_)
        have shifts : t.Shifts s v := hv.extend before (List.suffix_refl v)
        cases o with
        | none => exact shifts
        | some a => exact ensures_shifts shifts _
    · next elsewhere =>
      exact ih ((List.mem_cons.1 inside).resolve_left (Ne.symm elsewhere))

/-- A run that is started is written with another status than it has ended with: before its first
node as at work, and if it does not get there, as canceled. -/
theorem ensures_start_shifts (working : s ≠ .processing) (quiet : s ≠ .canceled) :
    r.start.Ensures pace (fun _ u => t.Shifts s u) t := by
  refine ensures_bind.2 ((ensures_walk_shifts working quiet rfl r.definition.hasStart).mono ?_)
  rintro (_ | a) u shifts
  · exact shifts
  · exact ensures_shifts shifts _

end Run

/-! ## Which calls keep a status -/

namespace RunCall

/-- The call leaves that status as it is. -/
def Keeps (s : Status) : RunCall → Prop
  | addContext .. => True
  | complete success => s = .canceled ∨ s = if success then .finished else .error
  | start | destroy _ => s = .canceled

/-- Whatever a canceled run is called for, it stays so. -/
theorem keeps_canceled (c : RunCall) : c.Keeps .canceled := by
  cases c with
  | start | destroy => rfl
  | complete => exact .inl rfl
  | addContext => trivial

variable {pace : Pace} {r r' : Run} {t u : Trace} {c : RunCall}

/-- A call that keeps the status of a run leaves it as it is and writes no other one. -/
theorem Returns.kept (h : c.Returns pace r t r' u) (heard : r.Heard t)
    (keeps : c.Keeps r.record.status) :
    r'.record.status = r.record.status ∧ t.WritesOnly r.record.status u := by
  cases h with
  | @start ok r' u ends =>
    have canceled : r.record.status = .canceled := keeps
    obtain ⟨only, ended⟩ := ensures_iff.1 (Run.ensures_start_fired (heard canceled)) _ u ends
    rw [canceled]
    exact ⟨(ended _ rfl).2, only⟩
  | destroy ends =>
    have canceled : r.record.status = .canceled := keeps
    obtain ⟨only, ended⟩ := ensures_iff.1 Run.writes_destroy.ensures _ u ends
    rw [canceled]
    exact ⟨ended _ rfl, .trans (.cons (by simp)) only⟩
  | complete success =>
    refine ⟨?_, .refl⟩
    by_cases canceled : r.record.status = .canceled
    · rw [Run.complete_of_canceled canceled]
    · rw [Run.complete_of_not_canceled canceled]
      exact (keeps.resolve_left canceled).symm
  | addContext => exact ⟨rfl, .refl⟩

/-- All other calls change it, or write another one on their way. -/
theorem Returns.changed (h : c.Returns pace r t r' u) (ended : r.record.status.isTerminal = true)
    (other : ¬ c.Keeps r.record.status) :
    r'.record.status ≠ r.record.status ∨ t.Shifts r.record.status u := by
  cases h with
  | start ends =>
    have working : r.record.status ≠ .processing := by
      rintro same
      simp [same, Status.isTerminal] at ended
    exact .inr (ensures_iff.1 (Run.ensures_start_shifts working other) _ u ends)
  | destroy ends =>
    have canceled := (ensures_iff.1 Run.writes_destroy.ensures _ u ends).2 _ rfl
    exact .inl fun same => other (same.symm.trans canceled)
  | complete success =>
    obtain ⟨free, differs⟩ := not_or.1 other
    rw [Run.complete_of_not_canceled free]
    exact .inl fun same => differs same.symm
  | addContext => exact absurd trivial other

end RunCall

namespace Run

variable {pace : Pace} {r r' : Run} {t u : Trace} {cs : List RunCall}

/-- Calls that keep the status leave it, however many they are. -/
theorem Undergoes.kept (h : r.Undergoes pace t cs r' u) (heard : r.Heard t)
    (keep : ∀ c ∈ cs, c.Keeps r.record.status) :
    r'.record.status = r.record.status ∧ t.WritesOnly r.record.status u := by
  induction h with
  | refl => exact ⟨rfl, .refl⟩
  | call returns _ ih =>
    obtain ⟨here, rest⟩ := List.forall_mem_cons.1 keep
    obtain ⟨same, only⟩ := returns.kept heard here
    rw [same] at ih
    obtain ⟨same', only'⟩ := ih (heard.returns returns) rest
    exact ⟨same', only.trans only'⟩
  | called c _ ih =>
    obtain ⟨same, only⟩ := ih (fun canceled => Trace.fired_cons (.called c) (heard canceled)) keep
    exact ⟨same, .trans (.cons (by simp)) only⟩

/-- The status with which a run has ended is kept by some calls only. -/
structure Final (pace : Pace) (r : Run) (t : Trace) : Prop where
  /-- as long as there are no others, it stays in the run, and nothing else is written -/
  kept {cs : List RunCall} {r' : Run} {u : Trace} (later : r.Undergoes pace t cs r' u)
    (keep : ∀ c ∈ cs, c.Keeps r.record.status) :
    r'.record.status = r.record.status ∧ t.WritesOnly r.record.status u
  /-- any other changes it in the run, or writes another one, if its writes work -/
  changed {c : RunCall} {r' : Run} {u : Trace} (returns : c.Returns pace r t r' u)
    (other : ¬ c.Keeps r.record.status) :
    r'.record.status ≠ r.record.status ∨ t.Shifts r.record.status u

/-- A run that is canceled stays so, whatever it is called for. One that is finished or has failed
does not, if it is started or destroyed, or completed otherwise. -/
theorem final_of_undergoes {r₀ : Run} {t₀ : Trace} (fresh : r₀.record.status ≠ .canceled)
    (calls : r₀.Undergoes pace t₀ cs r t) (ended : r.record.status.isTerminal = true) :
    r.Final pace t where
  kept later keep := later.kept (heard_of_undergoes (fun same => absurd same fresh) calls) keep
  changed returns other := returns.changed ended other

/-- A run that has finished well can be given an error as its final status, and then be canceled. So
it stays from then on. -/
theorem pair_final : ∃ r r' t u,
    (pair .bestEffort).Undergoes .prompt (.calls []) [.start] r t ∧
    r.record.status = .finished ∧
    r.Undergoes .prompt t [.complete false, .destroy "late"] r' u ∧
    (r.complete false).record.status = .error ∧ r'.record.status = .canceled ∧
    ∀ cs r'' v, r'.Undergoes .prompt u cs r'' v →
      r''.record.status = .canceled ∧ u.WritesOnly .canceled v := by
  -- the run finishes, is completed as failed and given up, and nothing moves it then
  obtain ⟨r, ended, finished⟩ : ∃ r, (Host.execute (pair .bestEffort) []).1 = .ended (true, r) ∧
      r.record.status = .finished := ⟨_, rfl, rfl⟩
  obtain ⟨t, ends, -⟩ := Host.ends_execute ended
  have free : r.record.status ≠ .canceled := by simp [finished]
  have completed : r.complete false = r.withStatus .error := complete_of_not_canceled free
  obtain ⟨o, u, destroyed⟩ := exists_ends .prompt (r.complete false).destroy
    (.called (.cancel "late") :: t)
  obtain ⟨r', rfl⟩ := ensures_iff.1 ensures_destroy o u destroyed
  have canceled := (ensures_iff.1 writes_destroy.ensures _ u destroyed).2 r' rfl
  have started : RunCall.start.Returns .prompt (pair .bestEffort) (.calls []) r t := .start ends
  have later : r.Undergoes .prompt t [.complete false, .destroy "late"] r' u :=
    .call (.complete false) (.call (.destroy destroyed) .refl)
  refine ⟨r, r', t, u, .call started .refl, finished, later, ?_, canceled, ?_⟩
  · rw [completed]
    rfl
  · intro cs r'' v calls
    have final : r'.Final .prompt u :=
      final_of_undergoes (by decide) (.call started later) (by simp [canceled, Status.isTerminal])
    have kept := final.kept calls fun c _ => by
      rw [canceled]
      exact c.keeps_canceled
    rwa [canceled] at kept

end Run

end Runbook
