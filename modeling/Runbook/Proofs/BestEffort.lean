import Runbook.Proofs.Serving
import Runbook.Proofs.Veil

/-!
# Runs that do not depend on the store

If writes need not work, a run takes no notice of whether they do.

* `Run.Like` — two such runs that look the same through a veil.
* `Run.twins_start` — they do the same. There is a lemma like that for each part of a run.
* `Trace.atWork`, `Trace.queries` — which nodes a run executes, and what it asks of the oracle.
* `Run.exists_clean_of_start` — whatever can happen to such a run can also happen to it with a
  store that works.
* `Run.concerted_of_start` — in surroundings that do the same such runs do the same and end
  alike, whatever the store answers.
-/

namespace Runbook

open Program

variable {z : Veil}

/-- Executors that are twins are so as programs. -/
theorem Execution.Twins.program {e e' : Execution} {run run' : String} {deadline : Option Nat}
    (h : e.Twins z e') (ids : z.ids run = z.ids run') :
    (e.program run deadline).Twins z (fun a a' => z.scene a.1 = z.scene a'.1 ∧ a.2 = a'.2)
      (e'.program run' deadline) := by
  induction h with
  | finish same => exact .done ⟨same, rfl⟩
  | ask same _ ih =>
    refine .ask (congrArg₂ Request.act ids same) fun x x' answers => ih x x' ?_
    have asked := Incident.asked.inj answers
    exact Sigma.ext same asked.2
  | pause same _ ih =>
    refine .pause (congrArg (fun id => Pause.mk id _ _) ids) fun w => ?_
    cases w with
    | due => exact ih
    | signalled | expired => exact .done ⟨same, rfl⟩

namespace Run

/-- The runs look the same, and their writes need not work. -/
structure Like (z : Veil) (r r' : Run) : Prop where
  /-- they look the same -/
  same : z.run r = z.run r'
  /-- writes need not work -/
  policy : r.settings.policy = .bestEffort

variable {r r' : Run} {v v' : Visit} {n : NodeSpec} {f : Failure} {s : Status} {now now' : Instant}

namespace Like

/-- Runs that are alike have IDs that look the same, -/
theorem id_eq (h : Like z r r') : z.ids r.id = z.ids r'.id := by
  rw [← z.id_run, h.same, z.id_run]

/-- the same settings, -/
theorem settings_eq (h : Like z r r') : r.settings = r'.settings := by
  rw [← z.settings_run, h.same, z.settings_run]

/-- the same status, -/
theorem status_eq (h : Like z r r') : r.record.status = r'.record.status := by
  rw [← z.status_run, h.same, z.status_run]

/-- and both have ended, or none has. -/
theorem isActive_eq (h : Like z r r') : r.isActive = r'.isActive := by
  rw [← z.isActive_run, h.same, z.isActive_run]

/-- What is done to a run can be seen through the veil. -/
theorem change (h : Like z r r') (g : Run → Run) (seen : ∀ r, z.run (g r) = g (z.run r))
    (settings : (g r).settings = r.settings) : Like z (g r) (g r') :=
  ⟨by rw [seen, seen, h.same], by rw [settings, h.policy]⟩

/-- They remain so when their statuses are set to the same, -/
theorem withStatus (h : Like z r r') (s : Status) : Like z (r.withStatus s) (r'.withStatus s) :=
  h.change (·.withStatus s) (fun _ => rfl) rfl

/-- when both enter visits that look the same, -/
theorem enter (h : Like z r r') (same : z.visit v = z.visit v') :
    Like z (r.enter v) (r'.enter v') :=
  ⟨congrArg₂ Run.enter h.same same, h.policy⟩

/-- when both edit their current visits in the same way, -/
theorem edit {g g' : Visit → Visit} (h : Like z r r')
    (hg : ∀ v v', z.visit v = z.visit v' → z.visit (g v) = z.visit (g' v')) :
    Like z (r.edit g) (r'.edit g') :=
  ⟨z.run_edit h.same hg, h.policy⟩

/-- and when both are stamped with times that look the same. -/
theorem stamped (h : Like z r r') (times : z.times now = z.times now') :
    Like z (r.stamped now) (r'.stamped now') :=
  ⟨congrArg₂ Run.stamped h.same times, h.policy⟩

/-- Neither of them is the first one. -/
theorem symm (h : Like z r r') : Like z r' r := ⟨h.same.symm, h.settings_eq ▸ h.policy⟩

/-- A write that failed means nothing. -/
theorem writeFailure_eq_none (h : Like z r r') (w : Written) : r.writeFailure w = none := by
  cases w with
  | ok => rfl
  | error e => rw [writeFailure, h.policy]

/-- A visit that begins looks the same. -/
theorem create {id id' : String} (h : Like z r r') (ids : z.ids id = z.ids id')
    (times : z.times now = z.times now') (n : NodeSpec) :
    z.visit (.create id r.record n.name n.kind now) =
      z.visit (.create id' r'.record n.name n.kind now') := by
  have record : z.record r.record = z.record r'.record := congrArg (·.record) h.same
  calc z.visit (.create id r.record n.name n.kind now)
    _ = .create (z.ids id) (z.record r.record) n.name n.kind (z.times now) := rfl
    _ = .create (z.ids id') (z.record r'.record) n.name n.kind (z.times now') := by
      rw [ids, record, times]
    _ = z.visit (.create id' r'.record n.name n.kind now') := rfl

/-- What is written looks the same. -/
theorem update_eq (h : Like z r r') : z.request (.update r.record r.visits) =
    z.request (.update r'.record r'.visits) := by
  have visits : r.visits.map z.visit = r'.visits.map z.visit := by
    rw [← z.visits_run, h.same, z.visits_run]
  exact congrArg₂ Request.update (congrArg (·.record) h.same) visits

end Like

/-! ## Records -/

/-- Both stamp the failure with their own clocks, which the veil hides. -/
theorem twins_fail (h : Like z r r') : (r.fail f).Twins z (Like z) (r'.fail f) :=
  twins_now fun _ _ times => .done (h.edit fun _ _ same => congrArg₂ (Visit.fail · f) same times)

/-- So they end. What they write at the end may be refused to one of them only, but under best
effort nobody looks at the answer. -/
theorem twins_endWith (h : Like z r r') : (r.endWith f s).Twins z (Like z) (r'.endWith f s) := by
  have last {r r' : Run} (h : Like z r r') :
      Like z { r.withStatus s with lastError := some f.message }
        { r'.withStatus s with lastError := some f.message } :=
    h.change (fun r => { r.withStatus s with lastError := some f.message }) (fun _ => rfl) rfl
  rw [endWith, endWith, h.isActive_eq]
  split
  · exact (twins_fail h).bind fun _ _ h => .done (last h)
  · exact .done (last h)

/-- The same time stamps the visit and the run. -/
theorem twins_markCanceled (h : Like z r r') : r.markCanceled.Twins z (Like z) r'.markCanceled :=
  twins_signal h.id_eq fun _ => twins_endWith h

/-- Both write what looks the same. The answers may differ here, and it is for the caller to
overlook them. -/
theorem twins_save (h : Like z r r') :
    r.save.Twins z (fun a a' => Like z a.2 a'.2) r'.save :=
  twins_now fun _ _ times => .ask (h.stamped times).update_eq fun _ _ _ => .done (h.stamped times)

/-- This one overlooks them. -/
theorem twins_saveAnyway (h : Like z r r') : r.saveAnyway.Twins z (Like z) r'.saveAnyway :=
  (twins_save h).bind fun _ _ h => .done h

/-- To complete a run is nothing to its settings. -/
theorem settings_complete (r : Run) (ok : Bool) : (r.complete ok).settings = r.settings := by
  rw [complete]
  split <;> rfl

/-! ## Polling -/

variable {α : Type} {p p' : Program (Except Failure α)}

/-- Both look at their signals and see the same, as it is an answer that the veil shows. -/
theorem twins_unlessCanceled (h : Like z r r') (hp : p.Twins z Eq p') :
    (r.unlessCanceled p).Twins z Eq (r'.unlessCanceled p') := by
  refine twins_signal h.id_eq fun signal => ?_
  split
  · exact .done rfl
  · exact hp

/-- They wait for the same and wake for the same reason, -/
theorem twins_pauseFor {w : Wait} (h : Like z r r') (hp : p.Twins z Eq p') :
    (r.pauseFor w p).Twins z Eq (r'.pauseFor w p') := by
  refine .pause (congrArg (Pause.mk · w none) h.id_eq) fun wake => ?_
  cases wake with
  | signalled => exact twins_signal h.id_eq fun _ => .done rfl
  | due | expired => exact hp

/-- ask the same question about the same operation, -/
theorem twins_ask {operation : String} (h : Like z r r') :
    (r.ask operation).Twins z Eq (r'.ask operation) := by
  have answer : ((Program.request (.query operation)).bind fun x =>
      done (.ok x : Except Failure Answer)).Twins z Eq
        ((Program.request (.query operation)).bind fun x => done (.ok x)) :=
    twins_query fun _ => .done rfl
  refine twins_unlessCanceled h (twins_beginQuery fun delay => ?_)
  cases delay with
  | none => exact answer
  | some ms => exact twins_pauseFor h answer

/-- and so poll as often: by induction on the number of queries that are left. The time of the next
query is the same, since it is counted from the same beginning. -/
theorem twins_pollFrom {operation : String} (left due : Nat) (h : Like z r r') :
    (r.pollFrom operation left due).Twins z Eq (r'.pollFrom operation left due) := by
  induction left generalizing due with
  | zero =>
    refine twins_unlessCanceled h (twins_pauseFor h ?_)
    rw [h.settings_eq]
    split
    · exact .done rfl
    · exact .panic
  | succ left ih =>
    refine twins_unlessCanceled h (twins_pauseFor h ?_)
    refine twins_clock fun clock => (twins_ask h).bind ?_
    rintro answer _ rfl
    cases answer with
    | error f => exact .done rfl
    | ok answer =>
      dsimp only
      split
      · exact .done rfl
      · rw [h.settings_eq]
        exact ih _

/-- The operation is named by the visit, and can be seen. -/
theorem twins_poll (h : Like z r r') (same : z.visit v = z.visit v') :
    (r.poll v).Twins z Eq (r'.poll v') := by
  have operation : v.operationId = v'.operationId := congrArg (·.operationId) same
  have name : v.name = v'.name := congrArg (·.name) same
  rw [poll, poll, operation, name, h.settings_eq]
  split
  · exact .done rfl
  · exact twins_clock fun clock => twins_pollFrom _ _ h

/-! ## One node -/

/-- Values of two runs that look the same. -/
def LikeResult {α : Type} (z : Veil) (a a' : α × Run) : Prop := a.1 = a'.1 ∧ Like z a.2 a'.2

/-- An executor that respects the veil does the same with scenes that look the same. After it the
visits look the same, and so do the runs. -/
theorem twins_execute (h : Like z r r') (respects : n.Respects z)
    (same : z.visit v = z.visit v') :
    (r.execute n v).Twins z
      (fun a a' => z.visit a.1 = z.visit a'.1 ∧ LikeResult z a.2 a'.2) (r'.execute n v') := by
  refine twins_signal h.id_eq fun signal => ?_
  split
  · exact .done ⟨same, rfl, h⟩
  · refine twins_clock fun clock => ?_
    have scenes : z.scene ⟨v, r.context⟩ = z.scene ⟨v', r'.context⟩ :=
      congrArg₂ Scene.mk same (congrArg (·.context) h.same)
    refine .ask (congrArg₂ Request.atWork h.id_eq scenes) fun _ _ _ => ?_
    refine ((respects _ _ scenes).program h.id_eq).bind ?_
    rintro ⟨scene, closing⟩ ⟨scene', _⟩ ⟨left, rfl⟩
    refine twins_signal h.id_eq fun signal => .done ⟨congrArg (·.visit) left, rfl, ?_⟩
    have edited : Like z (r.edit fun _ => scene.visit) (r'.edit fun _ => scene'.visit) :=
      h.edit fun _ _ _ => congrArg (·.visit) left
    exact ⟨congrArg₂ (fun (r : Run) context => { r with context := context }) edited.same
      (congrArg (·.context) left), h.policy⟩

/-- Under best effort a failed write is no failure of the node, so this is a failure that both have,
and both look at their signals after it. -/
theorem twins_afterFailure (h : Like z r r') :
    (r.afterFailure f).Twins z (LikeResult z) (r'.afterFailure f) := by
  cases f with
  | canceled reason =>
    exact (twins_markCanceled h).bind fun _ _ h => (twins_saveAnyway h).bind fun _ _ h =>
      .done ⟨rfl, h⟩
  | persistence detail => exact (twins_endWith h).bind fun _ _ h => .done ⟨rfl, h⟩
  | _ => exact .done ⟨rfl, h⟩

/-- The failure is the same, so both go on with it. -/
theorem twins_failWith (h : Like z r r') :
    (r.failWith f).Twins z (LikeResult z) (r'.failWith f) :=
  (twins_fail h).bind fun _ _ h => twins_afterFailure h

/-- If the last write of a visit is refused to one of them, it goes on all the same, as the other
one does. -/
theorem twins_succeedWith {payload : Option String} (h : Like z r r') :
    (r.succeedWith payload).Twins z (LikeResult z) (r'.succeedWith payload) :=
  twins_now fun _ _ times => .done ⟨rfl,
    h.edit fun _ _ same => congrArg₂ (Visit.succeed · payload) same times⟩

/-- The status of the visit can be seen, and decides how it is settled. -/
theorem twins_settleVisit (h : Like z r r') (same : z.visit v = z.visit v') :
    (r.settleVisit n v).Twins z (LikeResult z) (r'.settleVisit n v') := by
  have status : v.status = v'.status := congrArg (·.status) same
  rw [settleVisit, settleVisit, status]
  split
  · exact twins_succeedWith h
  · split
    · exact .done ⟨rfl, h⟩
    · refine (twins_poll h same).bind ?_
      rintro result _ rfl
      cases result with
      | ok payload => exact twins_succeedWith h
      | error f => exact twins_failWith h

/-- Whatever the store answers, the run goes on with the node. -/
theorem twins_step (h : Like z r r') (respects : n.Respects z) :
    (r.step n).Twins z (LikeResult z) (r'.step n) := by
  refine twins_newVisitId fun id id' ids => twins_now fun now now' times => ?_
  have created := h.create ids times n
  refine twins_createVisit created fun w w' => ?_
  rw [h.writeFailure_eq_none, h.symm.writeFailure_eq_none]
  generalize Visit.create id r.record n.name n.kind now = c at created ⊢
  generalize Visit.create id' r'.record n.name n.kind now' = c' at created ⊢
  have working : z.visit c.processing = z.visit c'.processing := congrArg Visit.processing created
  have entered := (h.enter working).change takeSnapshot (fun _ => rfl) rfl
  refine (twins_save entered).bind ?_
  rintro ⟨w, r₁⟩ ⟨w', r₁'⟩ h
  dsimp only at h ⊢
  rw [h.writeFailure_eq_none, h.symm.writeFailure_eq_none]
  refine (twins_execute h respects working).bind ?_
  rintro ⟨v, failure, r₂⟩ ⟨v', _, r₂'⟩ ⟨same, rfl, h⟩
  cases failure with
  | some f => exact twins_failWith h
  | none => exact twins_settleVisit h same

/-! ## The whole run -/

variable {ok : Bool}

/-- They look at their signals and go on with what they see there. -/
theorem twins_look {β β' : Type} {B : β → β' → Prop} {f : Signal → Program β}
    {f' : Signal → Program β'} (h : Like z r r') (on : ∀ s, (f s).Twins z B (f' s)) :
    (r.look.bind f).Twins z B (r'.look.bind f') :=
  .ask (congrArg Request.between h.id_eq) fun _ _ _ => twins_signal h.id_eq on

/-- Both stop when they have seen the same cancellation. -/
theorem twins_stopCanceled (h : Like z r r') :
    r.stopCanceled.Twins z (LikeResult z) r'.stopCanceled :=
  (twins_markCanceled h).bind fun _ _ h => (twins_saveAnyway h).bind fun _ _ h => .done ⟨rfl, h⟩

/-- At the end of the path it depends on the status only what is left to do. -/
theorem twins_arrive (h : Like z r r') :
    (r.arrive ok).Twins z (LikeResult z) (r'.arrive ok) := by
  refine twins_look h fun signal => ?_
  split
  · exact (twins_markCanceled h).bind fun _ _ h => .done ⟨rfl, h⟩
  · refine .done ⟨rfl, ?_⟩
    dsimp only
    rw [h.status_eq]
    split
    · exact h
    · exact h.withStatus .finished

/-- They take the same way: at each node they come to the same, and so they choose the same
successor. -/
theorem twins_walk {nodes : List NodeSpec} {target : Option String} (h : Like z r r')
    (respects : ∀ n ∈ nodes, n.Respects z) :
    (walk nodes target ok r).Twins z (LikeResult z) (walk nodes target ok r') := by
  induction nodes generalizing target ok r r' with
  | nil => exact twins_arrive h
  | cons n nodes ih =>
    obtain ⟨here, behind⟩ := List.forall_mem_cons.1 respects
    cases target with
    | none => exact twins_arrive h
    | some name =>
      rw [walk, walk]
      split
      · refine twins_look h fun signal => ?_
        split
        · exact twins_stopCanceled h
        · refine (twins_step h here).bind ?_
          rintro ⟨course, r₁⟩ ⟨_, r₁'⟩ ⟨rfl, h⟩
          cases course with
          | advance => exact ih h behind
          | recover => exact ih (h.change keepError z.run_keepError rfl) behind
          | stop => exact .done ⟨rfl, h⟩
      · exact ih h behind

/-- The last write of all may fail, and does not matter either. -/
theorem twins_close (h : Like z r r') :
    (r.close ok).Twins z (LikeResult z) (r'.close ok) := by
  have completes {r r' : Run} (h : Like z r r') :
      ((r.complete ok).saveAnyway.bind fun r => done (ok, r)).Twins z (LikeResult z)
        ((r'.complete ok).saveAnyway.bind fun r => done (ok, r)) := by
    have completed := h.change (complete · ok) (z.run_complete · ok) (settings_complete r ok)
    exact (twins_saveAnyway completed).bind fun _ _ h => .done ⟨rfl, h⟩
  refine twins_signal h.id_eq fun signal => ?_
  rw [h.status_eq]
  dsimp only
  split
  · exact (twins_markCanceled h).bind fun _ _ h => completes h
  · exact completes h

/-- Runs that look the same do the same. -/
theorem twins_start (h : Like z r r') (respects : ∀ n ∈ r.definition.nodes, n.Respects z) :
    r.start.Twins z (LikeResult z) r'.start := by
  have definition : r.definition = r'.definition := by
    rw [← z.definition_run, h.same, z.definition_run]
  rw [start, start, ← definition]
  refine (twins_walk (h.withStatus .processing) respects).bind ?_
  rintro ⟨ok, r₁⟩ ⟨_, r₁'⟩ ⟨rfl, h⟩
  exact twins_close h

end Run

/-! ## What can be told of a run -/

namespace Trace

/-- The names of the nodes whose executors have begun, the latest first. -/
def atWork : Trace → List String
  | [] => []
  | .asked (.atWork _ scene) _ :: t => scene.visit.name :: atWork t
  | _ :: t => atWork t

/-- What the clock showed last. -/
def clock? : Trace → Option Nat
  | [] => none
  | .asked .clock ms :: _ => some ms
  | _ :: t => clock? t

/-- The operations that the oracle was asked about, the latest first, each with what the clock
showed just before. -/
def queries : Trace → List (String × Option Nat)
  | [] => []
  | .asked (.beginQuery operation) _ :: t => (operation, clock? t) :: queries t
  | _ :: t => queries t

end Trace

namespace Veil

variable (z) (t : Trace)

/-- All that can be seen through a veil. -/
@[simp] theorem atWork_trace : (z.trace t).atWork = t.atWork := by
  induction t with
  | nil => rfl
  | cons e t ih =>
    cases e with
    | asked r x =>
      cases r with
      | atWork run scene => exact congrArg (scene.visit.name :: ·) ih
      | _ => exact ih
    | _ => exact ih

@[simp] theorem clock?_trace : (z.trace t).clock? = t.clock? := by
  induction t with
  | nil => rfl
  | cons e t ih =>
    cases e with
    | asked r x =>
      cases r with
      | clock => rfl
      | _ => exact ih
    | _ => exact ih

@[simp] theorem queries_trace : (z.trace t).queries = t.queries := by
  induction t with
  | nil => rfl
  | cons e t ih =>
    cases e with
    | asked r x =>
      cases r with
      | beginQuery operation =>
        exact congrArg₂ (fun ms => ((operation, ms) :: ·)) (z.clock?_trace t) ih
      | _ => exact ih
    | _ => exact ih

end Veil

/-! ## A store that works -/

/-- The answer as it would be if no write had failed. -/
def Request.worked : (r : Request) → r.Answer → r.Answer
  | .createVisit _, _ | .update .., _ => .ok ()
  | _, x => x

/-- The incident as it would be. -/
def Incident.worked : Incident → Incident
  | .asked r x => .asked r (r.worked x)
  | e => e

namespace Trace

variable (t : Trace)

/-- The trace as it would be. -/
def worked (t : Trace) : Trace := t.map Incident.worked

/-- In this trace no write fails. -/
theorem clean_worked : t.worked.Clean := by
  intro e he
  obtain ⟨e, -, rfl⟩ := List.mem_map.1 he
  cases e with
  | asked r x => cases r <;> rfl
  | _ => rfl

@[simp] theorem signal_worked : t.worked.signal = t.signal := by
  induction t with
  | nil => rfl
  | cons e t ih =>
    cases e with
    | called c => exact congrArg (Signal.after · c) ih
    | _ => exact ih

@[simp] theorem worked_cons (e : Incident) : worked (e :: t) = e.worked :: t.worked := rfl

@[simp] theorem worked_calls (cs : List SignalCall) :
    worked (calls cs ++ t) = calls cs ++ t.worked := by
  induction cs with
  | nil => rfl
  | cons c cs ih => exact congrArg (.called c :: ·) ih

end Trace

/-- It looks the same. -/
theorem Veil.trace_worked (z : Veil) (t : Trace) : z.trace t.worked = z.trace t := by
  have looks (e : Incident) : z.incident e.worked = z.incident e := by
    cases e with
    | asked r x => cases r <;> rfl
    | _ => rfl
  rw [trace, Trace.worked, List.map_map]
  exact List.map_congr_left fun e _ => looks e

namespace Program

variable {α α' : Type} {A : α → α' → Prop} {p : Program α} {p' : Program α'} {pace : Pace}
  {t u v : Trace} {o : Option α}

/-- Where a request has been answered it could have been answered like this: a write is answered
either way at any time, and the other answers stay. -/
theorem answers_worked {r : Request} {x : r.Answer} (h : t.Answers pace r x u) :
    t.worked.Answers pace r (r.worked x) u.worked := by
  obtain ⟨cs, spoken, allowed, rfl⟩ := h
  refine ⟨cs, spoken, ?_, Trace.worked_calls ..⟩
  rw [Trace.signal_worked]
  cases r with
  | createVisit | update => trivial
  | _ => exact allowed

/-- A pause does not depend on how writes were answered. -/
theorem wakes_worked {p : Pause} {w : Wake} (h : t.Wakes pace p w u) :
    t.worked.Wakes pace p w u.worked := by
  obtain ⟨deadline, v, cs, spoken, rfl, how⟩ := h
  refine ⟨deadline, v.worked, cs, spoken, Trace.worked_calls .., ?_⟩
  obtain ⟨quiet, rfl⟩ | ⟨cs, fired, rfl⟩ := how
  · exact .inl ⟨quiet, rfl⟩
  · refine .inr ⟨cs, ?_, ?_⟩
    · rw [fired, ← Trace.signal_worked]
      simp [Incident.worked]
    · simp [Incident.worked]

/-- If one of two programs that do the same can come to an end, the other one can with a store
that works. -/
theorem Twins.ends_worked (h : p.Twins .clear A p') (ends : p.Ends pace t o u) :
    ∃ o', p'.Ends pace t.worked o' u.worked ∧ Option.Rel A o o' := by
  induction h generalizing t with
  | done related =>
    obtain ⟨rfl, rfl⟩ := ends_done.1 ends
    exact ⟨_, ends_done.2 ⟨rfl, rfl⟩, .some related⟩
  | panic =>
    obtain ⟨rfl, rfl⟩ := ends_panic.1 ends
    exact ⟨_, ends_panic.2 ⟨rfl, rfl⟩, .none⟩
  | ask same _ ih =>
    rw [Veil.request_clear, Veil.request_clear] at same
    subst same
    obtain ⟨x, v, answers, ends⟩ := ends_ask.1 ends
    have looks := Veil.clear.trace_worked [.asked _ x]
    obtain ⟨o', ends', related⟩ := ih x _ (List.cons.inj looks).1.symm ends
    exact ⟨o', ends_ask.2 ⟨_, _, answers_worked answers, ends'⟩, related⟩
  | pause same _ ih =>
    rw [Veil.pause_clear, Veil.pause_clear] at same
    subst same
    obtain ⟨w, v, wakes, ends⟩ := ends_pause.1 ends
    obtain ⟨o', ends', related⟩ := ih w ends
    exact ⟨o', ends_pause.2 ⟨w, _, wakes_worked wakes, ends'⟩, related⟩

end Program

/-! ## What two runs have in common -/

namespace Run

/-- Two runs with these traces and ends cannot be told apart. -/
structure Matches (z : Veil) (u u' : Trace) (o o' : Option (Bool × Run)) : Prop where
  /-- the same happens -/
  trace : z.trace u = z.trace u'
  /-- executors of the same nodes begin, in the same order -/
  atWork : u.atWork = u'.atWork
  /-- the oracle is asked the same at the same times -/
  queries : u.queries = u'.queries
  /-- the runs end alike -/
  result : (o.map fun a => (a.1, z.run a.2)) = o'.map fun a => (a.1, z.run a.2)

variable {r r' : Run} {pace : Pace} {before : List SignalCall} {o o' : Option (Bool × Run)}
  {u u' : Trace}

/-- Traces that look the same show the same queries at the same times, and runs that are alike have
the same result. -/
theorem Matches.of_rel (trace : z.trace u = z.trace u')
    (results : Option.Rel (LikeResult z) o o') : Matches z u u' o o' := by
  refine ⟨trace, ?_, ?_, ?_⟩
  · rw [← z.atWork_trace u, trace, z.atWork_trace]
  · rw [← z.queries_trace u, trace, z.queries_trace]
  · cases results with
    | none => rfl
    | some like => exact congrArg some (congrArg₂ Prod.mk like.1 like.2.same)

/-- If writes need not work, whatever can happen to a run can also happen to it with a store that
works. -/
theorem exists_clean_of_start (policy : r.settings.policy = .bestEffort)
    (ends : r.start.Ends pace (.calls before) o u) :
    ∃ o' u', r.start.Ends pace (.calls before) o' u' ∧ u'.Clean ∧ Matches .clear u u' o o' := by
  have twins := twins_start (z := .clear) ⟨rfl, policy⟩ fun n _ => n.respects_clear
  obtain ⟨o', ends', results⟩ := twins.ends_worked ends
  have same : (Trace.calls before).worked = .calls before := by
    simpa [Trace.worked] using Trace.worked_calls [] before
  rw [same] at ends'
  exact ⟨o', _, ends', u.clean_worked, .of_rel (Veil.clear.trace_worked u).symm results⟩

/-- If writes need not work, runs that look the same do the same in surroundings that do the
same, whatever the store answers. -/
theorem concerted_of_start (same : z.run r = z.run r') (policy : r.settings.policy = .bestEffort)
    (respects : ∀ n ∈ r.definition.nodes, n.Respects z) (before : List SignalCall) :
    ∀ pace pace' o o' u u', r.start.Ends pace (.calls before) o u →
      r'.start.Ends pace' (.calls before) o' u' → z.Concerted u u' → Matches z u u' o o' := by
  intro pace pace' o o' u u' ends ends' concerted
  have twins := twins_start ⟨same, policy⟩ respects
  obtain ⟨trace, results⟩ := twins.ends_concerted ends ends' concerted rfl
  exact .of_rel trace results

/-- If all five writes of a run fail, it is executed as if they worked. -/
theorem pair_concerted : ∃ r' o' u u',
    (pair .bestEffort).start.Ends .prompt (.calls []) (some (true, r')) u ∧
    u.writes.length = 5 ∧ (∀ e ∈ u.writes, e.isFailedWrite = true) ∧
    (pair .bestEffort).start.Ends .prompt (.calls []) o' u' ∧ u'.Clean ∧
    Matches .clear u u' (some (true, r')) o' := by
  obtain ⟨r', ended⟩ : ∃ r', (Host.execute (pair .bestEffort)
      [(.createVisit, ⟨0, none⟩), (.update, ⟨0, none⟩)]).1 = .ended (true, r') := ⟨_, rfl⟩
  obtain ⟨u, ends, -, writes⟩ := Host.ends_execute ended
  obtain ⟨o', u', ends', clean, likewise⟩ := exists_clean_of_start rfl ends
  refine ⟨r', o', u, u', ends, ?_, ?_, ends', clean, ?_⟩
  · rw [writes]
    decide +kernel
  · rw [writes]
    decide +kernel
  · exact concerted_of_start rfl rfl (fun n _ => n.respects_clear) [] _ _ _ _ _ _ ends ends'
      (.of_trace_eq likewise.trace)

end Run

end Runbook
