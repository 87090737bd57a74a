import Runbook.Proofs.Cancellation

/-!
# Outcomes

The value of a run, its status, the status of its visits and its last error agree.

* `Run.Accounts` — the value so far and the last error are what the visits say.
  Every node keeps that.
* `Fate`, `Fate.Of` — the three ways in which a run can end, and what each means.
* `Run.fate_of_start` — every run ends in exactly one of them.
-/

namespace Runbook

open Program

namespace Run

variable {t u : Trace} {r r' : Run} {ok : Bool}

/-- The last visit that failed. -/
def lastFailed (r : Run) : Option Visit := r.trail.find? (·.status = .error)

/-- The value so far and the last error are what the visits say. -/
structure Accounts (ok : Bool) (r : Run) : Prop where
  /-- every visit has ended well or with a failure -/
  ended : ∀ v ∈ r.trail, v.status = .finished ∨ v.status = .error
  /-- the value says whether none has failed -/
  value : ok = r.lastFailed.isNone
  /-- the last error is the result of the last one that has -/
  lastError : r.lastError = r.lastFailed.map Visit.result

/-- After a success. -/
theorem Accounts.finished {n : NodeSpec} {v : Visit} (h : r.Accounts ok)
    (working : Working n r r' v) (status : v.status = .finished) : r'.Accounts ok := by
  have same : r'.lastFailed = r.lastFailed := by
    rw [lastFailed, working.trail, List.find?_cons_of_neg (by simp [status]), lastFailed]
  refine ⟨?_, by rw [same]; exact h.value, by rw [same, working.lastError]; exact h.lastError⟩
  rw [working.trail]
  exact List.forall_mem_cons.2 ⟨.inl status, h.ended⟩

/-- After a failure that was kept as the last error. -/
theorem Accounts.failed {v : Visit} (h : r.Accounts ok) (trail : r'.trail = v :: r.trail)
    (status : v.status = .error) (lastError : r'.lastError = some v.result) :
    r'.Accounts false := by
  have last : r'.lastFailed = some v := by
    rw [lastFailed, trail, List.find?_cons_of_pos (by simp [status])]
  refine ⟨?_, by simp [last], by rw [last, lastError, Option.map_some]⟩
  rw [trail]
  exact List.forall_mem_cons.2 ⟨.inr status, h.ended⟩

theorem keeps_accounts (d : Definition) (settings : Settings) :
    Keeps .prompt d (fun _ ok r _ => r.Accounts ok ∧ r.settings = settings)
      fun o u => match o with
        | some (ok, r) => u.signal.fired = false → r.Accounts ok ∧ r.record.status ≠ .canceled
        | none => settings.maxPolls.toNat + 1 = UInt32.size where
  arrives := by
    rintro ok r t u ⟨accounts, -⟩ _ _ _
    exact ⟨⟨accounts.ended, accounts.value, accounts.lastError⟩, by simp [withStatus]⟩
  cancels := by
    intro target ok r r' t u v _ _ fired _ idles _ quiet
    exact absurd (idles.fired fired) (by simp [quiet])
  steps := by
    rintro n ok r t u v o ⟨accounts, rfl⟩ _ _ _ stepped
    cases stepped with
    | @advanced r' w _ working finished =>
      exact ⟨accounts.finished working finished, working.settings⟩
    | @recovered r' w _ _ working failed =>
      have kept : r'.keepError.lastError = some w.result := by
        rw [keepError, current, working.trail, List.head?_cons, Option.map_some]
      have trail : r'.keepError.trail = w :: r.trail := working.trail
      exact ⟨accounts.failed trail failed kept, working.settings⟩
    | canceled _ _ _ fired => exact fun quiet => absurd fired (by simp [quiet])
    | aborted visited failed lastError status =>
      exact fun _ => ⟨accounts.failed visited.trail failed lastError, by simp [status]⟩
    | panicked _ most => exact most

end Run

/-! ## Fates -/

/-- How a run can end. -/
inductive Fate where
  /-- no node failed -/
  | clean
  /-- some node failed -/
  | failed
  /-- it was canceled -/
  | canceled
  deriving DecidableEq, Repr

/-- What it means that a run ended so, with a value and a trace. -/
def Fate.Of (ok : Bool) (r : Run) (t : Trace) : Fate → Prop
  | clean => t.signal.fired = false ∧ (∀ v ∈ r.visits, v.status = .finished) ∧ ok = true ∧
    r.record.status = .finished ∧ r.lastError = none
  | failed => t.signal.fired = false ∧ (∃ v, r.lastFailed = some v ∧ r.lastError = some v.result) ∧
    ok = false ∧ r.record.status = .error
  | canceled => t.signal.fired = true ∧ ok = false ∧ r.record.status = .canceled ∧
    r.lastError = some ("task canceled: " ++ t.signal.reason)

namespace Run

variable {t u : Trace} {r r' : Run} {ok : Bool}

/-- No visit failed if none is the last one that did. -/
theorem lastFailed_eq_none : r.lastFailed = none ↔ ∀ v ∈ r.visits, v.status ≠ .error := by
  simp [lastFailed, visits]

/-- A run without cancellation ends as its visits say. -/
theorem Accounts.fate (h : r.Accounts ok) (quiet : t.signal.fired = false)
    (status : r.record.status = if ok then .finished else .error) : ∃ f : Fate, f.Of ok r t := by
  cases last : r.lastFailed with
  | none =>
    obtain rfl : ok = true := by simp [h.value, last]
    refine ⟨.clean, quiet, fun v hv => ?_, rfl, status, by rw [h.lastError, last]; rfl⟩
    rw [visits, List.mem_reverse] at hv
    exact (h.ended v hv).resolve_right (lastFailed_eq_none.1 last v (List.mem_reverse.2 hv))
  | some v =>
    obtain rfl : ok = false := by simp [h.value, last]
    exact ⟨.failed, quiet, ⟨v, last, by rw [h.lastError, last]; rfl⟩, rfl, status⟩

/-- The signal and the value tell how a run has ended. -/
theorem eq_of_fate {f : Fate} (h : f.Of ok r t) :
    f = if t.signal.fired then .canceled else if ok then .clean else .failed := by
  cases f with
  | clean =>
    obtain ⟨quiet, -, rfl, -⟩ := h
    simp [quiet]
  | failed =>
    obtain ⟨quiet, -, rfl, -⟩ := h
    simp [quiet]
  | canceled => simp [h.1]

/-- A run that is not canceled ends with or without failures. -/
theorem ensures_fate (before : List SignalCall) (fresh : r.trail = [])
    (errorless : r.lastError = none) :
    r.start.Ensures .prompt (fun o u => match o with
      | some (ok, r') => u.signal.fired = false → ∃ f : Fate, f.Of ok r' u
      | none => r.settings.maxPolls.toNat + 1 = UInt32.size) (.calls before) := by
  refine ensures_start (keeps_accounts _ r.settings) ⟨?_, rfl⟩
    (fun _ => Trace.orderly_calls before) ?_ fun u most => most
  · exact ⟨by simp [withStatus, fresh], by simp [withStatus, lastFailed, fresh],
      by simp [withStatus, lastFailed, fresh, errorless]⟩
  · intro ok r' u kept
    refine ensures_close ?_ ?_
    · intro now v idles _ _ quiet
      rw [idles.signal_eq] at quiet
      obtain ⟨accounts, status⟩ := kept quiet
      rw [complete_of_not_canceled status]
      have completed (s : Status) : ((r'.withStatus s).stamped now).Accounts ok :=
        ⟨accounts.ended, accounts.value, accounts.lastError⟩
      refine (completed _).fate ?_ rfl
      rw [idles.signal_eq]
      exact quiet
    · intro reason r'' v idles fired _ _ _ quiet
      exact absurd (idles.fired fired) (by simp [quiet])

/-- Every run that has not begun before ends in exactly one way, if it ends with a
value; and it does, unless a node may be polled more often than can be counted. -/
theorem fate_of_start (before : List SignalCall) (fresh : r.trail = [])
    (errorless : r.lastError = none) :
    ∀ o u, r.start.Ends .prompt (.calls before) o u → match o with
      | some (ok, r') => ∃! f : Fate, f.Of ok r' u
      | none => r.settings.maxPolls.toNat + 1 = UInt32.size := by
  intro o u h
  have quietly := ensures_iff.1 (ensures_fate before fresh errorless) o u h
  obtain ⟨-, obeys⟩ := ensures_iff.1 (ensures_obeys before) o u h
  rcases o with _ | ⟨ok, r'⟩
  · exact quietly
  · have ⟨f, hf⟩ : ∃ f : Fate, f.Of ok r' u := by
      cases fired : u.signal.fired with
      | false => exact quietly fired
      | true =>
        obtain ⟨r'', ⟨⟩, obeys, -⟩ := obeys fired
        refine ⟨.canceled, fired, rfl, obeys.status, ?_⟩
        rw [obeys.lastError, Trace.signal_reason]
    exact ⟨f, hf, fun g hg => (eq_of_fate hg).trans (eq_of_fate hf).symm⟩

/-- A run has failed whose only failure leads to a node that succeeds. -/
theorem bypass_fate : ∃ r' u, bypass.start.Ends .prompt (.calls []) (some (false, r')) u ∧
    r'.visits.map (fun v => (v.name, v.status)) = [(startName, .error), ("lane", .finished)] ∧
    Fate.failed.Of false r' u ∧ ∀ f : Fate, f.Of false r' u → f = .failed := by
  obtain ⟨r', ended, visits⟩ := exists_easily_bypass
  have ends := ends_easily .prompt ended
  obtain ⟨f, fate, only⟩ := fate_of_start [] rfl rfl _ _ ends
  have quiet : (bypass.start.easily []).2.signal.fired = false := by decide +kernel
  obtain rfl : f = .failed := by simp [eq_of_fate fate, quiet]
  exact ⟨r', _, ends, visits, fate, only⟩

end Run

end Runbook
