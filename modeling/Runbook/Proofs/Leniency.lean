import Runbook.Proofs.BestEffort

/-!
# Runs whose writes work

As long as every write works, it does not matter whether writes have to.

* `Run.lenient` — the run as it would be if writes need not work.
* `Program.Eases` — a program that does the same as another one, as long as writes work.
  `Run.eases_start` — a lenient run does so. There is a lemma like that for each part of a run.
* `Program.Peers` — programs that do the same whatever a veil hides, as long as writes work.
  `Run.peers_start` — runs that look the same do the same, whatever their writes have to do.
-/

namespace Runbook

open Program

/-! ## Programs that ease others -/

namespace Program

variable {α β α' β' : Type} {A : α → β → Prop} {B : α' → β' → Prop} {p : Program α} {q : Program β}
  {f : α → Program α'} {g : β → Program β'}

/-- The programs ask and wait for the same and come to values that are related, as long as every
write works. -/
inductive Eases (A : α → β → Prop) : Program α → Program β → Prop where
  /-- both end -/
  | done {a : α} {b : β} (related : A a b) : Eases A (.done a) (.done b)
  /-- both panic -/
  | panic : Eases A .panic .panic
  /-- both ask the same -/
  | ask {r : Request} {next : r.Answer → Program α} {next' : r.Answer → Program β}
      (on : ∀ x, (Incident.asked r x).isFailedWrite = false → Eases A (next x) (next' x)) :
      Eases A (.ask r next) (.ask r next')
  /-- both wait for the same -/
  | pause {p : Pause} {next : Wake → Program α} {next' : Wake → Program β}
      (on : ∀ w, Eases A (next w) (next' w)) : Eases A (.pause p next) (.pause p next')

/-- What they go on with may depend on their values, which are related. -/
theorem Eases.bind (h : p.Eases A q) (on : ∀ a b, A a b → (f a).Eases B (g b)) :
    (p.bind f).Eases B (q.bind g) := by
  induction h with
  | done related => exact on _ _ related
  | panic => exact .panic
  | ask _ ih => exact .ask ih
  | pause _ ih => exact .pause ih

/-- A program that has no regard to settings does the same as itself. -/
theorem eases_self (p : Program α) : p.Eases Eq p := by
  induction p with
  | done a => exact .done rfl
  | panic => exact .panic
  | ask r next ih => exact .ask fun x _ => ih x
  | pause p next ih => exact .pause ih

end Program

/-! ## Lenient runs -/

namespace Run

/-- The run, if its writes need not work. -/
def lenient (r : Run) : Run := { r with settings := { r.settings with policy := .bestEffort } }

/-- `q` is the run `r` with these settings, but lenient. -/
structure Eased (s : Settings) (r q : Run) : Prop where
  /-- its settings -/
  settings : r.settings = s
  /-- writes need not work any more -/
  lenient : q = r.lenient

/-- The same for runs that come with a value. -/
structure EasedResult {α : Type} (s : Settings) (a b : α × Run) : Prop where
  /-- the value is the same -/
  value : a.1 = b.1
  /-- the run is lenient -/
  run : Eased s a.2 b.2

variable {s : Settings} {r q : Run} {f : Failure} {st : Status} {n : NodeSpec} {v : Visit}

/-- What is done to a run can be done to a lenient one. -/
theorem Eased.change (h : Eased s r q) (g : Run → Run) (same : ∀ r, g r.lenient = (g r).lenient)
    (settings : ∀ r, (g r).settings = r.settings) : Eased s (g r) (g q) :=
  ⟨(settings r).trans h.settings, by rw [h.lenient, same]⟩

/-- Visits have nothing to do with settings. -/
theorem Eased.edit (h : Eased s r q) (g : Visit → Visit) : Eased s (r.edit g) (q.edit g) :=
  h.change (·.edit g) (fun _ => rfl) fun _ => rfl

/-! ### Records -/

/-- To stamp a failure is to ask for the time. -/
theorem eases_fail (h : Eased s r q) : (r.fail f).Eases (Eased s) (q.fail f) :=
  .ask fun _ _ => .done (h.edit _)

/-- Whether the visit is still active does not depend on the settings, -/
theorem eases_endWith (h : Eased s r q) : (r.endWith f st).Eases (Eased s) (q.endWith f st) := by
  have last {r q : Run} (h : Eased s r q) : Eased s
      { r.withStatus st with lastError := some f.message }
      { q.withStatus st with lastError := some f.message } :=
    h.change (fun r => { r.withStatus st with lastError := some f.message }) (fun _ => rfl)
      fun _ => rfl
  have active : q.isActive = r.isActive := by rw [h.lenient]; rfl
  rw [endWith, endWith, active]
  split
  · exact (eases_fail h).bind fun _ _ h => .done (last h)
  · exact .done (last h)

/-- nor does a cancellation. -/
theorem eases_markCanceled (h : Eased s r q) :
    r.markCanceled.Eases (Eased s) q.markCanceled := by
  obtain ⟨rfl, rfl⟩ := h
  exact .ask fun _ _ => eases_endWith ⟨rfl, rfl⟩

/-- A write that has worked is no failure. -/
theorem eases_save (h : Eased s r q) :
    r.save.Eases (fun a b => a.1 = .ok () ∧ b.1 = .ok () ∧ Eased s a.2 b.2) q.save := by
  obtain ⟨rfl, rfl⟩ := h
  refine .ask fun now _ => .ask fun written worked => ?_
  cases written with
  | error e => cases worked
  | ok => exact .done ⟨rfl, rfl, rfl, rfl⟩

/-- Here no answer is looked at, whatever the policy is. -/
theorem eases_saveAnyway (h : Eased s r q) :
    r.saveAnyway.Eases (Eased s) q.saveAnyway :=
  (eases_save h).bind fun _ _ h => .done h.2.2

/-! ### One node -/

/-- Polling has settings of its own, which stay. -/
theorem lenient_pollFrom (operation : String) (left due : Nat) :
    r.lenient.pollFrom operation left due = r.pollFrom operation left due := by
  induction left generalizing due with
  | zero => rfl
  | succ left ih =>
    rw [pollFrom, pollFrom]
    simp only [ih]
    rfl

/-- A lenient run polls as before. -/
theorem lenient_poll (v : Visit) : r.lenient.poll v = r.poll v := by
  rw [poll, poll]
  simp only [lenient_pollFrom]
  rfl

/-- An executor does not see the policy. -/
theorem eases_execute (h : Eased s r q) : (r.execute n v).Eases
    (fun a b => a.1 = b.1 ∧ EasedResult s a.2 b.2) (q.execute n v) := by
  obtain ⟨rfl, rfl⟩ := h
  refine .ask fun signal _ => ?_
  dsimp only [done_bind]
  split
  · exact .done ⟨rfl, rfl, rfl, rfl⟩
  · refine .ask fun clock _ => .ask fun _ _ => ?_
    refine (eases_self ((n.executor ⟨v, r.context⟩).program r.id _)).bind ?_
    rintro ⟨scene, closing⟩ _ rfl
    exact .ask fun signal _ => .done ⟨rfl, rfl, rfl, rfl⟩

/-- The failure of a node leads on or does not. That a write has failed is none of these failures as
long as writes work. -/
theorem eases_afterFailure (h : Eased s r q) :
    (r.afterFailure f).Eases (EasedResult s) (q.afterFailure f) := by
  cases f with
  | canceled reason =>
    exact (eases_markCanceled h).bind fun _ _ h => (eases_saveAnyway h).bind fun _ _ h =>
      .done ⟨rfl, h⟩
  | persistence detail => exact (eases_endWith h).bind fun _ _ h => .done ⟨rfl, h⟩
  | _ => exact .done ⟨rfl, h⟩

/-- So it is with the failed visit, -/
theorem eases_failWith (h : Eased s r q) :
    (r.failWith f).Eases (EasedResult s) (q.failWith f) :=
  (eases_fail h).bind fun _ _ h => eases_afterFailure h

/-- and with the last write of a finished one: only if it fails the policy is asked. -/
theorem eases_succeedWith {payload : Option String} (h : Eased s r q) :
    (r.succeedWith payload).Eases (EasedResult s) (q.succeedWith payload) :=
  .ask fun _ _ => .done ⟨rfl, h.edit _⟩

/-- However the visit ends, both go on in the same way. -/
theorem eases_settleVisit (h : Eased s r q) :
    (r.settleVisit n v).Eases (EasedResult s) (q.settleVisit n v) := by
  rw [settleVisit, settleVisit]
  split
  · exact eases_succeedWith h
  · split
    · exact .done ⟨rfl, h⟩
    · rw [h.lenient, lenient_poll, ← h.lenient]
      refine (eases_self _).bind ?_
      rintro result _ rfl
      cases result with
      | ok payload => exact eases_succeedWith h
      | error f => exact eases_failWith h

/-- If its writes work, a node comes to the same. -/
theorem eases_step (h : Eased s r q) :
    (r.step n).Eases (EasedResult s) (q.step n) := by
  obtain ⟨rfl, rfl⟩ := h
  refine .ask fun id _ => .ask fun now _ => .ask fun created worked => ?_
  cases created with
  | error e => cases worked
  | ok =>
    have entered : Eased r.settings
        (r.enter (Visit.create id r.record n.name n.kind now).processing).takeSnapshot
        (r.lenient.enter (Visit.create id r.record n.name n.kind now).processing).takeSnapshot :=
      ⟨rfl, rfl⟩
    refine (eases_save entered).bind ?_
    rintro ⟨_, r'⟩ ⟨_, q'⟩ ⟨rfl, rfl, h⟩
    refine (eases_execute h).bind ?_
    rintro ⟨v, failure, r'⟩ ⟨_, _, q'⟩ ⟨rfl, rfl, h⟩
    cases failure with
    | some f => exact eases_failWith h
    | none => exact eases_settleVisit h

/-! ### The whole run -/

/-- At the end of the path nothing is written yet. -/
theorem eases_arrive {ok : Bool} (h : Eased s r q) :
    (r.arrive ok).Eases (EasedResult s) (q.arrive ok) := by
  obtain ⟨rfl, rfl⟩ := h
  refine .ask fun _ _ => .ask fun signal _ => ?_
  dsimp only [done_bind]
  split
  · exact (eases_markCanceled ⟨rfl, rfl⟩).bind fun _ _ h => .done ⟨rfl, h⟩
  · refine .done ⟨rfl, ?_⟩
    dsimp only
    have status : r.lenient.record.status = r.record.status := rfl
    rw [status]
    split
    · exact ⟨rfl, rfl⟩
    · exact ⟨rfl, rfl⟩

/-- By induction over the nodes that are left: at each of them both come to the same, so they choose
the same successor. -/
theorem eases_walk {nodes : List NodeSpec} {target : Option String} {ok : Bool}
    (h : Eased s r q) :
    (walk nodes target ok r).Eases (EasedResult s) (walk nodes target ok q) := by
  induction nodes generalizing target ok r q with
  | nil => exact eases_arrive h
  | cons n nodes ih =>
    cases target with
    | none => exact eases_arrive h
    | some name =>
      rw [walk, walk]
      split
      · obtain ⟨rfl, rfl⟩ := h
        refine .ask fun _ _ => .ask fun signal _ => ?_
        dsimp only [done_bind]
        split
        · exact (eases_markCanceled ⟨rfl, rfl⟩).bind fun _ _ h =>
            (eases_saveAnyway h).bind fun _ _ h => .done ⟨rfl, h⟩
        · refine (eases_step ⟨rfl, rfl⟩).bind ?_
          rintro ⟨course, r'⟩ ⟨_, q'⟩ ⟨rfl, h⟩
          cases course with
          | advance => exact ih h
          | recover => exact ih (h.change keepError (fun _ => rfl) fun _ => rfl)
          | stop => exact .done ⟨rfl, h⟩
      · exact ih h

/-- The last write may fail under either policy, and is only told of. -/
theorem eases_close {ok : Bool} (h : Eased s r q) :
    (r.close ok).Eases (EasedResult s) (q.close ok) := by
  have completes {r q : Run} (h : Eased s r q) :
      ((r.complete ok).saveAnyway.bind fun r => done (ok, r)).Eases (EasedResult s)
        ((q.complete ok).saveAnyway.bind fun r => done (ok, r)) := by
    have completed := h.change (complete · ok) (fun r => ?_) (settings_complete · ok)
    · exact (eases_saveAnyway completed).bind fun _ _ h => .done ⟨rfl, h⟩
    · have status : r.lenient.record.status = r.record.status := rfl
      rw [complete, complete, status, apply_ite lenient]
      rfl
  obtain ⟨rfl, rfl⟩ := h
  refine .ask fun signal _ => ?_
  have status : r.lenient.record.status = r.record.status := rfl
  dsimp only [done_bind, pure_eq, bind_eq]
  rw [status]
  split
  · exact (eases_markCanceled ⟨rfl, rfl⟩).bind fun _ _ h => completes h
  · exact completes ⟨rfl, rfl⟩

/-- If its writes work, a run comes to the same as if they need not. -/
theorem eases_start (r : Run) : r.start.Eases (EasedResult r.settings) r.lenient.start := by
  have begun : Eased r.settings (r.withStatus .processing) (r.lenient.withStatus .processing) :=
    ⟨rfl, rfl⟩
  refine (eases_walk begun).bind ?_
  rintro ⟨ok, r'⟩ ⟨_, q'⟩ ⟨rfl, h⟩
  exact eases_close h

end Run

/-! ## Peers -/

namespace Program

variable {α β α' β' : Type} {z : Veil}

/-- The programs do the same whatever the veil hides, and come to values that are related, as long
as every write works. -/
inductive Peers (z : Veil) (A : α → α' → Prop) : Program α → Program α' → Prop where
  /-- both end -/
  | done {a : α} {a' : α'} (related : A a a') : Peers z A (.done a) (.done a')
  /-- both panic -/
  | panic : Peers z A .panic .panic
  /-- both ask the same -/
  | ask {r r' : Request} {next : r.Answer → Program α} {next' : r'.Answer → Program α'}
      (same : z.request r = z.request r')
      (on : ∀ x x', z.incident (.asked r x) = z.incident (.asked r' x') →
        (Incident.asked r x).isFailedWrite = false →
        (Incident.asked r' x').isFailedWrite = false → Peers z A (next x) (next' x')) :
      Peers z A (.ask r next) (.ask r' next')
  /-- both wait for the same -/
  | pause {p p' : Pause} {next : Wake → Program α} {next' : Wake → Program α'}
      (same : z.pause p = z.pause p') (on : ∀ w, Peers z A (next w) (next' w)) :
      Peers z A (.pause p next) (.pause p' next')

/-- Programs are peers if what eases them does the same. -/
theorem Twins.peers {A : α → β → Prop} {A' : α' → β' → Prop} {B : β → β' → Prop}
    {C : α → α' → Prop} {q : Program β} {q' : Program β'} (twins : q.Twins z B q')
    {p : Program α} {p' : Program α'} (h : p.Eases A q) (h' : p'.Eases A' q')
    (imp : ∀ a a' b b', A a b → A' a' b' → B b b' → C a a') : p.Peers z C p' := by
  induction twins generalizing p p' with
  | done related =>
    cases h with
    | done here =>
      cases h' with
      | done here' => exact .done (imp _ _ _ _ here here' related)
  | panic =>
    cases h with
    | panic =>
      cases h' with
      | panic => exact .panic
  | ask same _ ih =>
    cases h with
    | ask on =>
      cases h' with
      | ask on' =>
        exact .ask same fun x x' looks worked worked' =>
          ih x x' looks (on x worked) (on' x' worked')
  | pause same _ ih =>
    cases h with
    | pause on =>
      cases h' with
      | pause on' => exact .pause same fun w => ih w (on w) (on' w)

end Program

namespace Run

variable {z : Veil} {r r' : Run}

/-- Values and runs that look the same. -/
def Alike {α : Type} (z : Veil) (a a' : α × Run) : Prop := a.1 = a'.1 ∧ z.run a.2 = z.run a'.2

/-- Runs that look the same do the same and end alike, as long as every write works. -/
theorem peers_start (same : z.run r = z.run r')
    (respects : ∀ n ∈ r.definition.nodes, n.Respects z) : r.start.Peers z (Alike z) r'.start := by
  have settings : r.settings = r'.settings := by
    rw [← z.settings_run, same, z.settings_run]
  have twins : r.lenient.start.Twins z (LikeResult z) r'.lenient.start :=
    twins_start ⟨congrArg lenient same, rfl⟩ respects
  refine twins.peers r.eases_start r'.eases_start ?_
  rintro ⟨ok, a⟩ ⟨ok', a'⟩ ⟨_, _⟩ ⟨_, _⟩ ⟨rfl, kept, rfl⟩ ⟨rfl, kept', rfl⟩ ⟨rfl, like⟩
  refine ⟨rfl, ?_⟩
  dsimp only at kept kept' like ⊢
  calc z.run a
    _ = { z.run a.lenient with settings := r.settings } := by rw [← kept]; rfl
    _ = { z.run a'.lenient with settings := r.settings } := by rw [like.same]
    _ = z.run a' := by rw [settings, ← kept']; rfl

end Run

end Runbook
