import Runbook.Proofs.Waiting

/-!
# What a run does at one node

* `NodeSpec.Modest` — what an executor should leave alone.
* `Run.ended`, `Run.stamped` — what ending a run and saving it come to.
* `Run.Visited`, `Run.Working` — a run that has begun one more visit.
* `Run.Executed` — how the work of an executor is judged.
* `Run.Stepped`, `Run.ensures_step` — all that one node can come to. What a run
  does after a node needs no more than this.
-/

namespace Runbook

open Program

/-! ## What executors may change -/

/-- `v` is `w` but for what an executor may change: the status, the result and
the operation. -/
def Visit.Revises (v w : Visit) : Prop :=
  v = { w with status := v.status, result := v.result, operationId := v.operationId }

/-- The executor of the node changes no more of a visit than it may. -/
def NodeSpec.Modest (n : NodeSpec) : Prop :=
  ∀ scene, (n.executor scene).Everywhere fun s => s.visit.Revises scene.visit

/-- A visit keeps its name however it is revised. -/
theorem Visit.Revises.name {v w : Visit} (h : v.Revises w) : v.name = w.name := by
  rw [h]

/-- Whether an executor was cut short by itself or by its limit. A node keeps
such a failure although its run is canceled. -/
def Failure.isAbrupt : Failure → Bool
  | .panicked _ | .executorTimeout _ => true
  | _ => false

/-! ## Ending and saving a run -/

/-- The visit at the end of its run: a failure of the run becomes its own, unless
it has ended before. -/
def Visit.ended (v : Visit) (f : Failure) (now : Instant) : Visit :=
  if v.isActive then v.fail f now else v

/-- A visit that is active takes over the failure, -/
theorem Visit.ended_of_isActive {v : Visit} {f : Failure} {now : Instant} (h : v.isActive = true) :
    v.ended f now = v.fail f now := if_pos h

/-- and one that has failed keeps its own. -/
theorem Visit.ended_of_error {v : Visit} {f : Failure} {now : Instant} (h : v.status = .error) :
    v.ended f now = v := if_neg (by simp [Visit.isActive, h, Status.isTerminal])

namespace Run

/-- The run when a failure has ended it. -/
def ended (r : Run) (f : Failure) (s : Status) (now : Instant) : Run :=
  { (r.edit fun v => v.ended f now).withStatus s with lastError := some f.message }

/-- The run when it has been written. -/
def stamped (r : Run) (now : Instant) : Run :=
  { r with record := { r.record with updatedAt := now } }

/-- The last write was of the run as it is. -/
def LastSaved (r : Run) (t : Trace) : Prop :=
  ∃ w, t.lastWrite? = some (.asked (.update r.record r.visits) w)

section

variable (r : Run) (f : Failure) (s : Status) (now : Instant) (g : Visit → Visit)

@[simp] theorem ended_status : (r.ended f s now).record.status = s := rfl

@[simp] theorem ended_lastError : (r.ended f s now).lastError = some f.message := rfl

@[simp] theorem stamped_trail : (r.stamped now).trail = r.trail := rfl

/-- Only the current visit is edited, -/
theorem edit_trail {v : Visit} {rest : List Visit} (h : r.trail = v :: rest) :
    (r.edit g).trail = g v :: rest := by
  simp [edit, h]

/-- and so only the current one is ended by the end of the run. -/
theorem ended_trail {v : Visit} {rest : List Visit} (h : r.trail = v :: rest) :
    (r.ended f s now).trail = v.ended f now :: rest := r.edit_trail _ h

/-- An edit that changes no visit changes nothing. -/
theorem edit_eq_self (h : ∀ v ∈ r.trail.head?, g v = v) : r.edit g = r := by
  cases r with
  | mk record definition trail context lastError settings caller =>
    cases trail with
    | nil => rfl
    | cons v rest => simp [edit, h v rfl]

end

variable {pace : Pace} {t u : Trace} {r r' : Run} {f : Failure}

/-! ### What they ensure -/

/-- To stamp a failure nothing but the time is asked for. -/
theorem ensures_fail {Q : Option Run → Trace → Prop}
    (h : ∀ now u, t.Idles pace u → Q (some (r.edit fun v => v.fail f now)) u) :
    (r.fail f).Ensures pace Q t :=
  ensures_request.2 fun now _ hcs _ =>
    h now _ (.asked now .refl rfl (by simpa [Request.isOpen] using hcs))

/-- So it is with the end of a run: nothing is written yet, and the visit is failed at the time that
was read. -/
theorem ensures_endWith {s : Status} {Q : Option Run → Trace → Prop}
    (h : ∀ now u, t.Idles pace u → Q (some (r.ended f s now)) u) :
    (r.endWith f s).Ensures pace Q t := by
  rw [endWith]
  split
  · next active =>
    refine ensures_bind.2 (ensures_fail fun now u hu => ?_)
    have same : (r.edit fun v => v.fail f now) = r.edit fun v => v.ended f now := by
      cases trail : r.trail with
      | nil => simp [edit, trail]
      | cons v rest =>
        have : v.isActive = true := by simpa [isActive, current, trail] using active
        simp [edit, trail, Visit.ended_of_isActive this]
    rw [same]
    exact h now u hu
  · next passive =>
    have same : (r.edit fun v => v.ended f (.ofMicros 0)) = r := by
      refine r.edit_eq_self _ fun v hv => if_neg fun active => passive ?_
      rw [isActive, current, Option.mem_def.1 hv]
      exact active
    have := h (.ofMicros 0) t .refl
    rwa [ended, same] at this

/-- The reason that a run gives for its end is that of its signal. -/
theorem ensures_markCanceled {Q : Option Run → Trace → Prop}
    (h : ∀ now u, t.Idles pace u →
      Q (some (r.ended (.canceled t.signal.reason) .canceled now)) u) :
    r.markCanceled.Ensures pace Q t := by
  refine ensures_signal fun cs hcs => ensures_endWith fun now u hu => h now u ?_
  exact .trans (.asked _ .refl rfl hcs) hu

/-- Saving a run writes it as it is then. -/
theorem ensures_save {Q : Option (Written × Run) → Trace → Prop}
    (h : ∀ now w u, t.Idles pace u →
      u.lastWrite? = some (.asked (.update (r.stamped now).record (r.stamped now).visits) w) →
      Q (some (w, r.stamped now)) u) :
    r.save.Ensures pace Q t := by
  refine ensures_request.2 fun now cs hcs _ => ensures_request.2 fun w cs' hcs' _ => ?_
  refine h now w _ ?_ ?_
  · refine .asked w (.asked now .refl rfl ?_) rfl ?_
    · simpa [Request.isOpen] using hcs
    · simpa [Request.isOpen] using hcs'
  · exact Trace.lastWrite?_calls cs' _

/-- The run is written with the time of the write in it, and goes on with that time whether the
write has worked or not. -/
theorem ensures_saveAnyway {Q : Option Run → Trace → Prop}
    (h : ∀ now u, t.Idles pace u → (r.stamped now).LastSaved u → Q (some (r.stamped now)) u) :
    r.saveAnyway.Ensures pace Q t :=
  ensures_bind.2 (ensures_save fun now w u hu last => h now u hu ⟨w, last⟩)

/-! ## One more visit -/

/-- `r'` is the run `r` when it has begun one more visit, which is `v` now. -/
structure Visited (n : NodeSpec) (r r' : Run) (v : Visit) : Prop where
  /-- the visit is the latest one -/
  trail : r'.trail = v :: r.trail
  /-- it is one of the node -/
  name : n.Modest → v.name = n.name
  /-- the settings are the same -/
  settings : r'.settings = r.settings

/-- That, and nothing has ended the run. -/
structure Working (n : NodeSpec) (r r' : Run) (v : Visit) : Prop extends Visited n r r' v where
  /-- the status of the run is the same -/
  status : r'.record.status = r.record.status
  /-- so is the last error -/
  lastError : r'.lastError = r.lastError

variable {n : NodeSpec} {v : Visit}

/-- A run at work edits its latest visit. -/
theorem Working.edit (h : Working n r r' v) (g : Visit → Visit)
    (hg : n.Modest → v.name = n.name → (g v).name = n.name) :
    Working n r (r'.edit g) (g v) where
  trail := r'.edit_trail g h.trail
  name modest := hg modest (h.name modest)
  settings := h.settings
  status := h.status
  lastError := h.lastError

/-- A run begins a visit of a node. -/
theorem Working.enter (id : String) (now : Instant) :
    Working n r (r.enter (Visit.create id r.record n.name n.kind now))
      (Visit.create id r.record n.name n.kind now) :=
  ⟨⟨rfl, fun _ => rfl, rfl⟩, rfl, rfl⟩

/-- A snapshot is of the context, and no visit is touched, -/
theorem Working.takeSnapshot (h : Working n r r' v) : Working n r r'.takeSnapshot v :=
  ⟨⟨h.trail, h.name, h.settings⟩, h.status, h.lastError⟩

/-- nor is one by the time of a write. -/
theorem Working.stamped (h : Working n r r' v) (now : Instant) :
    Working n r (r'.stamped now) v :=
  ⟨⟨h.trail, h.name, h.settings⟩, h.status, h.lastError⟩

/-- What ends the run leaves the visit what it is. -/
theorem Working.ended (h : Working n r r' v) (f : Failure) (s : Status) (now : Instant) :
    Visited n r (r'.ended f s now) (v.ended f now) where
  trail := r'.ended_trail f s now h.trail
  name modest := by
    rw [Visit.ended]
    split
    · exact h.name modest
    · exact h.name modest
  settings := h.settings

/-- So it is after the end of a visit. -/
theorem Visited.stamped (h : Visited n r r' v) (now : Instant) :
    Visited n r (r'.stamped now) v :=
  ⟨h.trail, h.name, h.settings⟩

/-! ## Executors -/

/-- How the work of an executor is judged: a node fails as canceled once the
signal has fired, but for an abrupt failure of an executor that was awake. -/
inductive Executed (pace : Pace) : Option Failure → Trace → Prop where
  /-- the node has not failed -/
  | done {u : Trace} (calm : u.Calm pace) : Executed pace none u
  /-- it has failed -/
  | failed {f : Failure} {u : Trace} (leads : f.leadsOn)
    (ordered : pace = .prompt →
      u.Orderly ∧ (u.signal.fired = true → f.isAbrupt ∧ ¬ u.Interrupted)) :
    Executed pace (some f) u
  /-- the run is canceled -/
  | canceled {reason : String} {u : Trace} (fired : u.signal.fired = true)
    (ordered : pace = .prompt → u.Orderly ∧ reason = u.signal.reason) :
    Executed pace (some (.canceled reason)) u

/-- Keeping records changes no judgement. -/
theorem Executed.idles {o : Option Failure} (h : Executed pace o t) (hu : t.Idles pace u) :
    Executed pace o u := by
  cases h with
  | done calm => exact .done (hu.calm calm)
  | failed leads ordered =>
    refine .failed leads fun hp => ?_
    subst hp
    obtain ⟨ordered, abrupt⟩ := ordered rfl
    refine ⟨hu.orderly ordered, fun fired => ?_⟩
    rw [hu.signal_eq] at fired
    exact ⟨(abrupt fired).1, hu.not_interrupted (abrupt fired).2⟩
  | canceled fired ordered =>
    refine .canceled (hu.fired fired) fun hp => ?_
    subst hp
    exact ⟨hu.orderly (ordered rfl).1, by rw [hu.signal_eq]; exact (ordered rfl).2⟩

/-- The judgement of a run that looks at its signal when the executor is through. -/
theorem executed_failure? {limit : Option Duration} {deadline : Option Nat} {closing : Closing}
    (h : Execution.Closed pace deadline closing t) (limited : deadline.isSome → limit.isSome) :
    Executed pace (failure? t.signal limit closing) t := by
  -- an executor that ended by itself counts only if the signal has not fired
  have quiet (ne : closing ≠ .canceled) (fired : t.signal.fired = false) : t.Calm pace :=
    fun hp => ⟨h.orderly hp, fired⟩
  have abrupt (f : Failure) (ne : closing ≠ .canceled) (leads : f.leadsOn) (hf : f.isAbrupt) :
      Executed pace (some f) t :=
    .failed leads fun hp => ⟨h.orderly hp, fun _ => ⟨hf, (h.awake ne hp).2⟩⟩
  cases closing with
  | canceled => exact .canceled (h.canceled rfl) fun hp => ⟨h.orderly hp, rfl⟩
  | expired =>
    obtain ⟨limit, rfl⟩ := Option.isSome_iff_exists.1 (limited (h.expired rfl))
    exact abrupt _ (by simp) rfl rfl
  | finished outcome =>
    cases outcome with
    | panicked detail => exact abrupt _ (by simp) rfl rfl
    | done =>
      rw [failure?]
      split
      · next fired => exact .canceled fired fun hp => ⟨h.orderly hp, rfl⟩
      · next fired => exact .done (quiet (by simp) (by simpa using fired))
    | error detail =>
      rw [failure?]
      split
      · next fired => exact .canceled fired fun hp => ⟨h.orderly hp, rfl⟩
      · next fired =>
        exact .failed rfl fun hp => ⟨h.orderly hp, fun fired' => absurd fired' fired⟩

/-- The executor revises its own visit and no other. It is left calm: its waits are over, and the
signal has been looked at if it has ended one of them. -/
theorem ensures_execute (hr : Working n r r' v) (calm : t.Calm pace) :
    (r'.execute n v).Ensures pace (fun o u => ∃ w f r'', o = some (w, f, r'') ∧
      Working n r r'' w ∧ Executed pace f u) t := by
  refine ensures_signal fun cs hcs => ?_
  have calm' := calm.asked (r := .signal r'.id) t.signal (hcs.imp_right .inr) rfl
  split
  · next fired =>
    refine ⟨v, _, r', rfl, hr, .canceled (Trace.fired_append _ fired) fun hp => ?_⟩
    exact absurd (calm hp).2 (by simp [fired])
  · refine ensures_request.2 fun clock cs hcs _ => ensures_request.2 fun _ cs' _ _ => ?_
    have awake := (calm'.asked clock hcs rfl).atWork r'.id ⟨v, r'.context⟩ cs'
    refine ensures_bind.2 ?_
    refine Execution.ensures_program (P := fun s => n.Modest → s.visit.Revises v)
      (Execution.everywhere_of_imp fun modest => modest ⟨v, r'.context⟩) awake ?_
    intro scene closing u hs hc
    refine ensures_signal fun cs hcs => ?_
    refine ⟨_, _, _, rfl, ?_, ?_⟩
    · have := hr.edit (fun _ => scene.visit) fun modest hv => (hs modest).name.trans hv
      exact ⟨⟨this.trail, this.name, this.settings⟩, this.status, this.lastError⟩
    · refine (executed_failure? hc ?_).idles (.asked _ .refl rfl hcs)
      simp

/-! ## One node -/

/-- All that one node can come to. -/
inductive Stepped (pace : Pace) (n : NodeSpec) (r : Run) :
    Option (Course × Run) → Trace → Prop where
  /-- it succeeded -/
  | advanced {r' : Run} {v : Visit} {u : Trace} (working : Working n r r' v)
    (finished : v.status = .finished) (calm : u.Calm pace) :
    Stepped pace n r (some (.advance, r')) u
  /-- it failed, and the run goes on -/
  | recovered {r' : Run} {v : Visit} {u : Trace} {f : Failure} (working : Working n r r' v)
    (failed : v.status = .error) (result : v.result = f.message)
    (ordered : pace = .prompt →
      u.Orderly ∧ (u.signal.fired = true → f.isAbrupt ∧ ¬ u.Interrupted)) :
    Stepped pace n r (some (.recover, r')) u
  /-- the run was canceled meanwhile -/
  | canceled {r' : Run} {v : Visit} {u : Trace} (visited : Visited n r r' v)
    (failed : v.status = .error) (status : r'.record.status = .canceled)
    (fired : u.signal.fired = true)
    (ordered : pace = .prompt →
      u.Orderly ∧ v.result = (Failure.canceled u.signal.reason).message ∧
        r'.lastError = some v.result) :
    Stepped pace n r (some (.stop, r')) u
  /-- it could not be recorded, and the run has to be -/
  | aborted {r' : Run} {v : Visit} {u : Trace} (visited : Visited n r r' v)
    (failed : v.status = .error) (lastError : r'.lastError = some v.result)
    (status : r'.record.status = .error) (strict : r.settings.policy = .strict)
    (failedWrite : ∃ e ∈ u, e.isFailedWrite) (calm : u.Calm pace) :
    Stepped pace n r (some (.stop, r')) u
  /-- it was polled too often -/
  | panicked {u : Trace} (calm : u.Calm pace)
    (most : r.settings.maxPolls.toNat + 1 = UInt32.size) : Stepped pace n r none u

/-- The visit is finished unless it has ended itself before. The write may fail, and then under the
strict policy the run stops there. -/
theorem ensures_succeedWith {payload : Option String} (hr : Working n r r' v)
    (calm : t.Calm pace) : (r'.succeedWith payload).Ensures pace (Stepped pace n r) t :=
  ensures_request.2 fun now _ hcs _ =>
    .advanced (hr.edit (fun v => v.succeed payload now) fun _ hv => hv) rfl (calm.asked _ hcs rfl)

/-- A failure of the node itself leads on, and one because of the signal ends the
run. -/
theorem ensures_failWith (hr : Working n r r' v) (hf : Executed pace (some f) t) :
    (r'.failWith f).Ensures pace (Stepped pace n r) t := by
  refine ensures_bind.2 (ensures_fail fun now u hu => ?_)
  have hr' := hr.edit (fun v => v.fail f now) fun _ hv => hv
  cases hf.idles hu with
  | failed leads ordered =>
    have recovered := Stepped.recovered (n := n) (f := f) hr' rfl rfl ordered
    cases f with
    | canceled | persistence => cases leads
    | _ => exact recovered
  | @canceled reason u fired ordered =>
    refine ensures_bind.2 (ensures_markCanceled fun now' x hx => ensures_bind.2 ?_)
    refine ensures_saveAnyway fun now'' y hy _ => ?_
    -- the visit has taken over the failure already
    have visited := (hr'.ended (.canceled u.signal.reason) .canceled now').stamped now''
    rw [Visit.ended_of_error rfl] at visited
    refine .canceled visited rfl rfl (hy.fired (hx.fired fired)) fun hp => ?_
    subst hp
    obtain ⟨ordered', rfl⟩ := ordered rfl
    rw [hy.signal_eq, hx.signal_eq]
    exact ⟨hy.orderly (hx.orderly ordered'), rfl, rfl⟩

/-- A write that failed ends the run if writes have to work. -/
theorem writeFailure_eq_some {w : Written} (h : r.writeFailure w = some f) :
    (∃ e, w = .error e) ∧ r.settings.policy = .strict ∧ ∃ detail, f = .persistence detail := by
  cases w with
  | ok => simp [writeFailure] at h
  | error e =>
    rw [writeFailure] at h
    cases policy : r.settings.policy with
    | bestEffort => simp [policy] at h
    | strict => exact ⟨⟨e, rfl⟩, rfl, e.message, by simpa [policy] using h.symm⟩

/-- A failed write ends the run under the strict policy. The visit has the failure as its result,
either because it takes it over now or because it has failed by it before. -/
theorem ensures_abort {detail : String} (hr : Working n r r' v)
    (hv : ∀ now, (v.ended (.persistence detail) now).status = .error ∧
      (v.ended (.persistence detail) now).result = (Failure.persistence detail).message)
    (strict : r.settings.policy = .strict) (failedWrite : ∃ e ∈ t, e.isFailedWrite)
    (calm : t.Calm pace) :
    (r'.afterFailure (.persistence detail)).Ensures pace (Stepped pace n r) t := by
  refine ensures_bind.2 (ensures_endWith fun now u hu => ?_)
  obtain ⟨e, he, hw⟩ := failedWrite
  refine .aborted (hr.ended _ _ now) (hv now).1 ?_ rfl strict ⟨e, hu.suffix.subset he, hw⟩
    (hu.calm calm)
  rw [(hv now).2, ended_lastError]

/-- A visit that its executor has ended stays ended as it is; the others finish or fail by what
polling has come to. -/
theorem ensures_settleVisit (hr : Working n r r' v) (calm : t.Calm pace) :
    (r'.settleVisit n v).Ensures pace (Stepped pace n r) t := by
  rw [settleVisit]
  split
  · exact ensures_succeedWith hr calm
  · split
    · next finished => exact .advanced hr finished calm
    · refine ensures_bind.2 ((ensures_poll calm).mono fun o u hu => ?_)
      cases hu with
      | value calm => exact ensures_succeedWith hr calm
      | failed calm leads =>
        refine ensures_failWith hr (.failed leads fun hp => ⟨(calm hp).1, fun fired => ?_⟩)
        exact absurd (calm hp).2 (by simp [fired])
      | canceled fired ordered => exact ensures_failWith hr (.canceled fired ordered)
      | overflow calm most => exact .panicked calm (hr.settings ▸ most)

/-- All that one node can come to. -/
theorem ensures_step (calm : t.Calm pace) : (r.step n).Ensures pace (Stepped pace n r) t := by
  refine ensures_request.2 fun id cs₁ h₁ _ => ensures_request.2 fun now cs₂ h₂ _ =>
    ensures_request.2 fun created cs₃ h₃ _ => ?_
  have calm := ((calm.asked id h₁ rfl).asked now h₂ rfl).asked created h₃ rfl
  -- the first write may end the walk, and so may the checkpoint after it
  split
  · next f hf =>
    obtain ⟨⟨e, rfl⟩, strict, detail, rfl⟩ := writeFailure_eq_some hf
    have begun : Working n r (r.enter _) _ := .enter id now
    exact ensures_abort begun (fun now => ⟨rfl, rfl⟩) strict
      ⟨_, List.mem_append_right _ (List.mem_cons_self ..), rfl⟩ calm
  · refine ensures_bind.2 (ensures_save fun now' w u hu hw => ?_)
    have begun := ((Working.enter (n := n) (r := r) id now).edit Visit.processing
      fun _ hv => hv).takeSnapshot.stamped now'
    have calm := hu.calm calm
    dsimp only
    split
    · next f hf =>
      obtain ⟨⟨e, rfl⟩, strict, detail, rfl⟩ := writeFailure_eq_some hf
      refine ensures_bind.2 (ensures_fail fun now'' x hx => ?_)
      have failed := begun.edit (fun v => v.fail (.persistence detail) now'') fun _ hv => hv
      have written := hx.suffix.subset (List.mem_of_find?_eq_some hw)
      refine ensures_abort failed (fun now => ?_) strict ⟨_, written, rfl⟩ (hx.calm calm)
      rw [Visit.ended_of_error rfl]
      exact ⟨rfl, rfl⟩
    · refine ensures_bind.2 ((ensures_execute begun calm).mono ?_)
      rintro _ x ⟨v, failure, r', rfl, working, executed⟩
      cases failure with
      | none =>
        cases executed with
        | done calm => exact ensures_settleVisit working calm
      | some f => exact ensures_failWith working executed

end Run

end Runbook
