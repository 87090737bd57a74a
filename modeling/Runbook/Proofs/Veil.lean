import Mathlib.Data.List.Induction
import Runbook.Proofs.Step

/-!
# Runs behind a veil

Two runs of one procedure have different IDs, and their records have different times. They are
compared through a veil, which hides as much of these as one likes; it hides the answers of the
store, too.

* `Veil` — what can be seen of IDs and of times; a visit, a run, a trace through the veil.
* `Execution.Twins`, `NodeSpec.Respects` — executors that do the same whatever is hidden.
  If nothing but the answers of the store is, these are all executors (`NodeSpec.respects_clear`).
* `Program.Twins` — programs that do the same whatever is hidden.
* `Veil.Concerted` — surroundings that do the same as long as all looks the same to them.
  In such surroundings twins leave traces that look the same
  (`Program.Twins.ends_concerted`).
-/

namespace Runbook

open Program

/-! ## What can be seen -/

/-- What can be seen of IDs and of the times in records. -/
structure Veil where
  /-- of an ID -/
  ids : String → String
  /-- of a time -/
  times : Instant → Instant

namespace Veil

/-- The veil that hides no ID and no time. -/
def clear : Veil := ⟨id, id⟩

variable (z : Veil)

/-- What can be seen of a visit. -/
def visit (v : Visit) : Visit :=
  { v with
    id := z.ids v.id, parentId := z.ids v.parentId
    startTime := z.times v.startTime, endTime := v.endTime.map z.times }

/-- What can be seen of the record of a run. -/
def record (r : RunRecord) : RunRecord :=
  { r with id := z.ids r.id, createdAt := z.times r.createdAt, updatedAt := z.times r.updatedAt }

/-- What can be seen of a run. -/
def run (r : Run) : Run := { r with record := z.record r.record, trail := r.trail.map z.visit }

/-- What can be seen of a scene. -/
def scene (s : Scene) : Scene := { s with visit := z.visit s.visit }

/-- What can be seen of a pause. -/
def pause (p : Pause) : Pause := { p with run := z.ids p.run }

/-- What can be seen of what an executor asks. -/
def act : Act → Act
  | .note s => .note (z.scene s)
  | a => a

/-- What can be seen of the answer. -/
def actAnswer : (a : Act) → a.Answer → (z.act a).Answer
  | .now, x => z.times x
  | .isCanceled, x => x
  | .cancel .., x | .fire, x | .inject .., x | .script .., x | .note _, x => x

/-- What can be seen of both. -/
def exchange (a : Act) (x : a.Answer) : (a : Act) × a.Answer := ⟨z.act a, z.actAnswer a x⟩

/-- What can be seen of a request. -/
def request : Request → Request
  | .signal run => .signal (z.ids run)
  | .between run => .between (z.ids run)
  | .createVisit v => .createVisit (z.visit v)
  | .update r visits => .update (z.record r) (visits.map z.visit)
  | .atWork run s => .atWork (z.ids run) (z.scene s)
  | .act run a => .act (z.ids run) (z.act a)
  | r => r

/-- What can be seen of the answer: nothing, if it is one of the store. -/
def answer : (r : Request) → r.Answer → (z.request r).Answer
  | .newVisitId, x => z.ids x
  | .now, x => z.times x
  | .act _ a, x => z.actAnswer a x
  | .createVisit _, _ | .update .., _ => .ok ()
  | .clock, x => x
  | .signal _, x => x
  | .between _, x | .atWork .., x => x
  | .beginQuery _, x => x
  | .query _, x => x

/-- What can be seen of an incident. -/
def incident : Incident → Incident
  | .asked r x => .asked (z.request r) (z.answer r x)
  | .passed p w => .passed (z.pause p) w
  | .waits p => .waits (z.pause p)
  | .woke w => .woke w
  | .called c => .called c

/-- What can be seen of a trace. -/
def trace (t : Trace) : Trace := t.map z.incident

/-! ### Without a veil -/

@[simp] theorem visit_clear (v : Visit) : clear.visit v = v := by
  simp [visit, clear]

@[simp] theorem scene_clear (s : Scene) : clear.scene s = s := by
  simp [scene]

@[simp] theorem pause_clear (p : Pause) : clear.pause p = p := rfl

@[simp] theorem request_clear (r : Request) : clear.request r = r := by
  have visits (vs : List Visit) : vs.map clear.visit = vs := by
    rw [show clear.visit = id from funext visit_clear, List.map_id]
  cases r with
  | createVisit v => simp [request]
  | update r vs => exact congrArg (Request.update r) (visits vs)
  | atWork run s => simp [request, clear, scene, visit]
  | act run a => cases a <;> simp [request, act, clear, scene, visit]
  | _ => rfl

/-! ### Runs -/

section

variable (r : Run)

/-- The veil covers the records of a run: its own ID and times, -/
@[simp] theorem id_run : (z.run r).id = z.ids r.id := rfl

@[simp] theorem settings_run : (z.run r).settings = r.settings := rfl

@[simp] theorem definition_run : (z.run r).definition = r.definition := rfl

@[simp] theorem status_run : (z.run r).record.status = r.record.status := rfl

/-- and those of its visits, one by one. -/
@[simp] theorem visits_run : (z.run r).visits = r.visits.map z.visit := List.map_reverse.symm

@[simp] theorem current_run : (z.run r).current = r.current.map z.visit := List.head?_map

@[simp] theorem isActive_run : (z.run r).isActive = r.isActive := by
  rw [Run.isActive, current_run, Run.isActive]
  cases r.current <;> rfl

/-- The last error is taken from the visits that failed, and neither statuses nor results are
covered. -/
theorem run_keepError : z.run r.keepError = (z.run r).keepError := by
  rw [Run.keepError, Run.keepError, current_run, Option.map_map]
  rfl

/-- So a run is completed in the same way behind the veil. -/
theorem run_complete (ok : Bool) : z.run (r.complete ok) = (z.run r).complete ok := by
  rw [Run.complete, Run.complete, apply_ite z.run]
  rfl

/-- What can be seen of an edit can be told from what can be seen of the visit. -/
theorem run_edit {z : Veil} {r r' : Run} {g g' : Visit → Visit} (same : z.run r = z.run r')
    (h : ∀ v v', z.visit v = z.visit v' → z.visit (g v) = z.visit (g' v')) :
    z.run (r.edit g) = z.run (r'.edit g') := by
  have trails : r.trail.map z.visit = r'.trail.map z.visit := congrArg (·.trail) same
  have edited : (r.edit g).trail.map z.visit = (r'.edit g').trail.map z.visit := by
    rw [Run.edit, Run.edit]
    cases trail : r.trail with
    | nil =>
      rw [trail, List.map_nil, eq_comm, List.map_eq_nil_iff] at trails
      rw [trails]
    | cons v rest =>
      rw [trail, List.map_cons, eq_comm, List.map_eq_cons_iff] at trails
      obtain ⟨v', rest', trail', visit, rest⟩ := trails
      rw [trail', List.map_cons, List.map_cons, h v v' visit.symm, rest]
  exact congrArg₂ (fun r trail => { r with trail := trail }) same edited

end

/-! ### Traces -/

@[simp] theorem trace_calls (cs : List SignalCall) (t : Trace) :
    z.trace (.calls cs ++ t) = .calls cs ++ z.trace t := by
  induction cs with
  | nil => rfl
  | cons c cs ih => exact congrArg (.called c :: ·) ih

end Veil

/-! ## Executors and programs that do the same -/

/-- The executors do the same and come to the same, whatever the veil hides. -/
inductive Execution.Twins (z : Veil) : Execution → Execution → Prop where
  /-- both end -/
  | finish {s s' : Scene} {outcome : Outcome} (same : z.scene s = z.scene s') :
    Twins z (.finish s outcome) (.finish s' outcome)
  /-- both ask the same -/
  | ask {a a' : Act} {next : a.Answer → Execution} {next' : a'.Answer → Execution}
      (same : z.act a = z.act a')
      (on : ∀ x x', z.exchange a x = z.exchange a' x' → Twins z (next x) (next' x')) :
      Twins z (.ask a next) (.ask a' next')
  /-- both wait for the same -/
  | pause {s s' : Scene} {wait : Wait} {next next' : Execution} (same : z.scene s = z.scene s')
      (on : Twins z next next') : Twins z (.pause s wait next) (.pause s' wait next')

/-- The executor of the node does the same whatever the veil hides. -/
def NodeSpec.Respects (z : Veil) (n : NodeSpec) : Prop :=
  ∀ s s', z.scene s = z.scene s' → (n.executor s).Twins z (n.executor s')

/-- Through the clear veil every executor does the same with scenes that look the same, as those are
the same. -/
theorem Execution.twins_clear (e : Execution) : e.Twins .clear e := by
  induction e with
  | finish scene outcome => exact .finish rfl
  | ask a next ih =>
    refine .ask rfl fun x x' same => ?_
    have seen : Veil.clear.actAnswer a x = Veil.clear.actAnswer a x' :=
      eq_of_heq (Sigma.mk.inj same).2
    obtain rfl : x = x' := by
      cases a with
      | _ => exact seen
    exact ih x
  | pause scene wait next ih => exact .pause rfl ih

/-- If nothing is hidden, every executor does the same. -/
theorem NodeSpec.respects_clear (n : NodeSpec) : n.Respects .clear := by
  intro s s' same
  rw [Veil.scene_clear, Veil.scene_clear] at same
  subst same
  exact (n.executor s).twins_clear

namespace Program

variable {α α' β β' : Type} {z : Veil}

/-- The programs do the same whatever the veil hides, and come to values that are related. -/
inductive Twins (z : Veil) (A : α → α' → Prop) : Program α → Program α' → Prop where
  /-- both end -/
  | done {a : α} {a' : α'} (related : A a a') : Twins z A (.done a) (.done a')
  /-- both panic -/
  | panic : Twins z A .panic .panic
  /-- both ask the same -/
  | ask {r r' : Request} {next : r.Answer → Program α} {next' : r'.Answer → Program α'}
      (same : z.request r = z.request r')
      (on : ∀ x x', z.incident (.asked r x) = z.incident (.asked r' x') →
        Twins z A (next x) (next' x')) : Twins z A (.ask r next) (.ask r' next')
  /-- both wait for the same -/
  | pause {p p' : Pause} {next : Wake → Program α} {next' : Wake → Program α'}
      (same : z.pause p = z.pause p') (on : ∀ w, Twins z A (next w) (next' w)) :
      Twins z A (.pause p next) (.pause p' next')

variable {A : α → α' → Prop} {B : β → β' → Prop} {p : Program α} {p' : Program α'}
  {f : α → Program β} {f' : α' → Program β'}

/-- Twins go on as twins if they do so with values that are related. -/
theorem Twins.bind (h : p.Twins z A p') (on : ∀ a a', A a a' → (f a).Twins z B (f' a')) :
    (p.bind f).Twins z B (p'.bind f') := by
  induction h with
  | done related => exact on _ _ related
  | panic => exact .panic
  | ask same _ ih => exact .ask same ih
  | pause same _ ih => exact .pause same ih

/-! ### Requests -/

/-- A new ID may be another one, if it looks the same, -/
theorem twins_newVisitId {f : String → Program β} {f' : String → Program β'}
    (on : ∀ x x', z.ids x = z.ids x' → (f x).Twins z B (f' x')) :
    ((Program.request .newVisitId).bind f).Twins z B ((Program.request .newVisitId).bind f') :=
  .ask rfl fun x x' h => on x x' (eq_of_heq (Incident.asked.inj h).2)

/-- and so may the time of day. -/
theorem twins_now {f : Instant → Program β} {f' : Instant → Program β'}
    (on : ∀ x x', z.times x = z.times x' → (f x).Twins z B (f' x')) :
    ((Program.request .now).bind f).Twins z B ((Program.request .now).bind f') :=
  .ask rfl fun x x' h => on x x' (eq_of_heq (Incident.asked.inj h).2)

/-- An answer that can be seen is the same. -/
theorem twins_shown {r : Request} {f : r.Answer → Program β} {f' : r.Answer → Program β'}
    (shown : ∀ x x', z.incident (.asked r x) = z.incident (.asked r x') → x = x')
    (on : ∀ x, (f x).Twins z B (f' x)) :
    ((Program.request r).bind f).Twins z B ((Program.request r).bind f') :=
  .ask rfl fun x x' h => by
    obtain rfl := shown x x' h
    exact on x

/-- The clock that measures waits can be seen, unlike the time of day, -/
theorem twins_clock {f : Nat → Program β} {f' : Nat → Program β'}
    (on : ∀ x, (f x).Twins z B (f' x)) :
    ((Program.request .clock).bind f).Twins z B ((Program.request .clock).bind f') :=
  twins_shown (fun _ _ h => eq_of_heq (Incident.asked.inj h).2) on

/-- The answer of the store cannot be seen. -/
theorem twins_createVisit {v v' : Visit} {f : Written → Program β} {f' : Written → Program β'}
    (same : z.visit v = z.visit v') (on : ∀ w w', (f w).Twins z B (f' w')) :
    ((Program.request (.createVisit v)).bind f).Twins z B
      ((Program.request (.createVisit v')).bind f') :=
  .ask (congrArg Request.createVisit same) fun w w' _ => on w w'

/-- and so can how long an answer takes, -/
theorem twins_beginQuery {operation : String} {f : Option Nat → Program β}
    {f' : Option Nat → Program β'} (on : ∀ x, (f x).Twins z B (f' x)) :
    ((Program.request (.beginQuery operation)).bind f).Twins z B
      ((Program.request (.beginQuery operation)).bind f') :=
  twins_shown (fun _ _ h => eq_of_heq (Incident.asked.inj h).2) on

/-- and what it says. -/
theorem twins_query {operation : String} {f : Answer → Program β} {f' : Answer → Program β'}
    (on : ∀ x, (f x).Twins z B (f' x)) :
    ((Program.request (.query operation)).bind f).Twins z B
      ((Program.request (.query operation)).bind f') :=
  twins_shown (fun _ _ h => eq_of_heq (Incident.asked.inj h).2) on

/-- Signals can be seen, though it can not be seen whose they are. -/
theorem twins_signal {a b : String} {f : Signal → Program β} {f' : Signal → Program β'}
    (same : z.ids a = z.ids b) (on : ∀ s, (f s).Twins z B (f' s)) :
    ((Program.request (.signal a)).bind f).Twins z B ((Program.request (.signal b)).bind f') :=
  .ask (congrArg Request.signal same) fun x x' h => by
    obtain rfl : x = x' := eq_of_heq (Incident.asked.inj h).2
    exact on x

end Program

/-! ## Surroundings that do the same -/

/-- To what the surroundings have come to say something. -/
inductive Occasion where
  /-- a request was made -/
  | asked (r : Request)
  /-- a pause began -/
  | paused (p : Pause)
  /-- the run waits -/
  | waiting
  /-- the signal may be called -/
  | calling

namespace Veil

variable (z : Veil)

/-- What can be seen of the occasion of an incident. -/
def occasion : Incident → Occasion
  | .asked r _ => .asked (z.request r)
  | .passed p _ | .waits p => .paused (z.pause p)
  | .woke _ => .waiting
  | .called _ => .calling

/-- The surroundings of two runs with these traces did the same as long as all looked the same: the
signal was called at the same moments, and what happened at the same occasions looks the same. -/
def Concerted (u u' : Trace) : Prop :=
  ∀ t t', t <:+ u → t' <:+ u' → z.trace t = z.trace t' →
    (∀ c, .called c :: t <:+ u ↔ .called c :: t' <:+ u') ∧
    ∀ e e', e :: t <:+ u → e' :: t' <:+ u' → z.occasion e = z.occasion e' →
      z.incident e = z.incident e'

end Veil

namespace Trace

variable {t u : Trace} {e e' : Incident}

/-- One incident is next after a part of a trace. -/
theorem eq_of_cons_suffix (h : e :: t <:+ u) (h' : e' :: t <:+ u) : e = e' := by
  have same := List.suffix_of_suffix_length_le h h' (by simp)
  exact (List.cons.inj (same.eq_of_length (by simp))).1

end Trace

namespace Veil

variable {z : Veil} {t t' u u' : Trace} {e : Incident}

/-- Nothing else looks like a call of the signal. -/
theorem called_of_incident_eq {c : SignalCall} (h : .called c = z.incident e) : .called c = e := by
  cases e with
  | called => exact h
  | _ => cases h

/-- If two traces look the same, so does what is next in them after the same parts. -/
theorem exists_next (same : z.trace u = z.trace u') (here : z.trace t = z.trace t')
    (hs : e :: t <:+ u) (hs' : t' <:+ u') :
    ∃ e', e' :: t' <:+ u' ∧ z.incident e = z.incident e' := by
  obtain ⟨a, rfl⟩ := hs
  obtain ⟨a', rfl⟩ := hs'
  have rests : z.trace a ++ [z.incident e] = z.trace a' := by
    have long : (z.trace t).length = (z.trace t').length := by rw [here]
    simp only [trace, List.map_append, List.map_cons] at same
    exact (List.append_inj' ((List.append_assoc ..).trans same) long).1
  obtain ⟨b, c, rfl, -, last⟩ := List.map_eq_append_iff.1 rests.symm
  obtain ⟨e', rfl, looks⟩ := List.map_eq_singleton_iff.1 last
  exact ⟨e', ⟨b, (List.append_assoc b [e'] t').symm⟩, looks.symm⟩

end Veil

/-- A program that goes on does not do so with a call of its signal. -/
theorem Program.Ends.not_called {α : Type} {pace : Pace} {p : Program α} {t u : Trace}
    {o : Option α} (h : p.Ends pace t o u) (c : SignalCall) : ¬ .called c :: t <:+ u := by
  intro called
  cases p with
  | done a =>
    obtain ⟨-, rfl⟩ := ends_done.1 h
    exact Nat.not_succ_le_self _ called.length_le
  | panic =>
    obtain ⟨-, rfl⟩ := ends_panic.1 h
    exact Nat.not_succ_le_self _ called.length_le
  | ask r next =>
    obtain ⟨x, v, ⟨cs, -, -, rfl⟩, ends⟩ := ends_ask.1 h
    have asked := (List.suffix_append (Trace.calls cs) (.asked r x :: t)).trans ends.suffix
    cases Trace.eq_of_cons_suffix called asked
  | pause p next =>
    obtain ⟨w, v, ⟨-, y, cs, -, rfl, ⟨-, rfl⟩ | ⟨cs', -, rfl⟩⟩, ends⟩ := ends_pause.1 h
    · have passed := (List.suffix_append (Trace.calls cs) (.passed p w :: t)).trans ends.suffix
      cases Trace.eq_of_cons_suffix called passed
    · have waits : .waits p :: t <:+ .woke w :: Trace.calls cs' ++ .waits p :: t :=
        List.suffix_append _ _
      have waits := waits.trans ((List.suffix_append _ _).trans ends.suffix)
      cases Trace.eq_of_cons_suffix called waits

namespace Veil.Concerted

variable {z : Veil} {s s' u u' v v' : Trace} {cs cs' : List SignalCall} {pace pace' : Pace}

/-- Traces that look the same are those of surroundings that do the same. -/
theorem of_trace_eq (same : z.trace u = z.trace u') : z.Concerted u u' := by
  intro t t' hs hs' here
  refine ⟨fun c => ⟨fun called => ?_, fun called => ?_⟩, fun e e' next next' _ => ?_⟩
  · obtain ⟨e, next, looks⟩ := exists_next same here called hs'
    rwa [← called_of_incident_eq looks] at next
  · obtain ⟨e, next, looks⟩ := exists_next same.symm here.symm called hs
    rwa [← called_of_incident_eq looks] at next
  · obtain ⟨e'', next'', looks⟩ := exists_next same here next hs'
    rwa [Trace.eq_of_cons_suffix next'' next'] at looks

/-- Where the signal was called in the one run, it was called so in the other one. -/
theorem calls_eq (h : z.Concerted u u') (same : z.trace s = z.trace s')
    (hs : Trace.calls cs ++ s <:+ u) (hs' : Trace.calls cs' ++ s' <:+ u')
    (last : ∀ c, ¬ .called c :: (Trace.calls cs ++ s) <:+ u)
    (last' : ∀ c, ¬ .called c :: (Trace.calls cs' ++ s') <:+ u') : cs = cs' := by
  have calls (cs : List SignalCall) (c : SignalCall) (s : Trace) :
      Trace.calls (cs ++ [c]) ++ s = Trace.calls cs ++ .called c :: s := by
    simp [Trace.calls]
  have here := h s s' ((List.suffix_append _ _).trans hs) ((List.suffix_append _ _).trans hs') same
  -- from the earliest call on: two runs that look the same so far are called alike next
  induction cs using List.reverseRecOn generalizing cs' s s' with
  | nil =>
    cases cs' using List.reverseRecOn with
    | nil => rfl
    | append_singleton cs' c' _ =>
      rw [calls] at hs'
      exact absurd ((here.1 c').2 ((List.suffix_append _ _).trans hs')) (last c')
  | append_singleton cs c ih =>
    rw [calls] at hs
    have first := (List.suffix_append _ _).trans hs
    have first' := (here.1 c).1 first
    cases cs' using List.reverseRecOn with
    | nil => exact absurd first' (last' c)
    | append_singleton cs' c' _ =>
      rw [calls] at hs'
      cases Trace.eq_of_cons_suffix first' ((List.suffix_append _ _).trans hs')
      have same : z.trace (.called c :: s) = z.trace (.called c :: s') :=
        congrArg (Incident.called c :: ·) same
      rw [ih same hs hs' (calls cs c s ▸ last) (calls cs' c s' ▸ last')
        (h _ _ first first' same)]

/-- So all looks the same when the runs go on. -/
theorem trace_eq (h : z.Concerted u u') (same : z.trace s = z.trace s')
    (hs : Trace.calls cs ++ s <:+ u) (hs' : Trace.calls cs' ++ s' <:+ u')
    (last : ∀ c, ¬ .called c :: (Trace.calls cs ++ s) <:+ u)
    (last' : ∀ c, ¬ .called c :: (Trace.calls cs' ++ s') <:+ u') :
    z.trace (.calls cs ++ s) = z.trace (.calls cs' ++ s') := by
  rw [h.calls_eq same hs hs' last last', trace_calls, trace_calls, same]

/-- What is next looks the same, if it is on the same occasion. -/
theorem next_eq {e e' : Incident} (h : z.Concerted u u') (same : z.trace s = z.trace s')
    (hs : e :: s <:+ u) (hs' : e' :: s' <:+ u') (occasion : z.occasion e = z.occasion e') :
    z.incident e = z.incident e' ∧ z.trace (e :: s) = z.trace (e' :: s') := by
  have here := h s s' ((List.suffix_cons _ _).trans hs) ((List.suffix_cons _ _).trans hs') same
  have next := here.2 e e' hs hs' occasion
  exact ⟨next, congrArg₂ List.cons next same⟩

/-- Requests that look the same get answers that do. -/
theorem answers_eq {r r' : Request} {x : r.Answer} {x' : r'.Answer} (h : z.Concerted u u')
    (same : z.trace s = z.trace s') (request : z.request r = z.request r')
    (answers : s.Answers pace r x v) (answers' : s'.Answers pace' r' x' v')
    (hs : v <:+ u) (hs' : v' <:+ u')
    (last : ∀ c, ¬ .called c :: v <:+ u) (last' : ∀ c, ¬ .called c :: v' <:+ u') :
    z.incident (.asked r x) = z.incident (.asked r' x') ∧ z.trace v = z.trace v' := by
  obtain ⟨cs, -, -, rfl⟩ := answers
  obtain ⟨cs', -, -, rfl⟩ := answers'
  obtain ⟨looks, same⟩ := h.next_eq same ((List.suffix_append _ _).trans hs)
    ((List.suffix_append _ _).trans hs') (congrArg Occasion.asked request)
  exact ⟨looks, h.trace_eq same hs hs' last last'⟩

/-- Pauses that look the same come to the same end. -/
theorem wakes_eq {p p' : Pause} {w w' : Wake} (h : z.Concerted u u')
    (same : z.trace s = z.trace s') (pause : z.pause p = z.pause p')
    (wakes : s.Wakes pace p w v) (wakes' : s'.Wakes pace' p' w' v')
    (hs : v <:+ u) (hs' : v' <:+ u')
    (last : ∀ c, ¬ .called c :: v <:+ u) (last' : ∀ c, ¬ .called c :: v' <:+ u') :
    w = w' ∧ z.trace v = z.trace v' := by
  obtain ⟨-, y, cs, -, rfl, how⟩ := wakes
  obtain ⟨-, y', cs', -, rfl, how'⟩ := wakes'
  suffices w = w' ∧ z.trace y = z.trace y' from
    ⟨this.1, h.trace_eq this.2 hs hs' last last'⟩
  have here := (List.suffix_append _ _).trans hs
  have here' := (List.suffix_append _ _).trans hs'
  have paused := congrArg Occasion.paused pause
  obtain ⟨-, rfl⟩ | ⟨ds, -, rfl⟩ := how <;> obtain ⟨-, rfl⟩ | ⟨ds', -, rfl⟩ := how'
  -- both pauses are over, or only one of them, or the runs wait
  · obtain ⟨passes, same⟩ := h.next_eq same here here' paused
    exact ⟨(Incident.passed.inj passes).2, same⟩
  · have waits' := (List.suffix_append (.woke w' :: Trace.calls ds') _).trans here'
    cases (h.next_eq same here waits' paused).1
  · have waits := (List.suffix_append (.woke w :: Trace.calls ds) _).trans here
    cases (h.next_eq same waits here' paused).1
  · have waits := (List.suffix_append (.woke w :: Trace.calls ds) _).trans here
    have waits' := (List.suffix_append (.woke w' :: Trace.calls ds') _).trans here'
    have same := (h.next_eq same waits waits' paused).2
    have same := h.trace_eq same ((List.suffix_cons _ _).trans here)
      ((List.suffix_cons _ _).trans here')
      (fun c called => by cases Trace.eq_of_cons_suffix called here)
      (fun c called => by cases Trace.eq_of_cons_suffix called here')
    obtain ⟨wakes, same⟩ := h.next_eq same here here' rfl
    exact ⟨Incident.woke.inj wakes, same⟩

end Veil.Concerted

/-- In surroundings that do the same, twins do the same and come to the same. -/
theorem Program.Twins.ends_concerted {α α' : Type} {A : α → α' → Prop} {p : Program α}
    {p' : Program α'} {o : Option α} {o' : Option α'} {z : Veil} {pace pace' : Pace}
    {t t' u u' : Trace} (h : p.Twins z A p') (ends : p.Ends pace t o u)
    (ends' : p'.Ends pace' t' o' u') (concerted : z.Concerted u u')
    (same : z.trace t = z.trace t') : z.trace u = z.trace u' ∧ Option.Rel A o o' := by
  induction h generalizing t t' with
  | done related =>
    obtain ⟨rfl, rfl⟩ := ends_done.1 ends
    obtain ⟨rfl, rfl⟩ := ends_done.1 ends'
    exact ⟨same, .some related⟩
  | panic =>
    obtain ⟨rfl, rfl⟩ := ends_panic.1 ends
    obtain ⟨rfl, rfl⟩ := ends_panic.1 ends'
    exact ⟨same, .none⟩
  | ask request _ ih =>
    obtain ⟨x, v, answers, ends⟩ := ends_ask.1 ends
    obtain ⟨x', v', answers', ends'⟩ := ends_ask.1 ends'
    obtain ⟨looks, same⟩ := concerted.answers_eq same request answers answers' ends.suffix
      ends'.suffix ends.not_called ends'.not_called
    exact ih x x' looks ends ends' same
  | pause pause _ ih =>
    obtain ⟨w, v, wakes, ends⟩ := ends_pause.1 ends
    obtain ⟨w', v', wakes', ends'⟩ := ends_pause.1 ends'
    obtain ⟨rfl, same⟩ := concerted.wakes_eq same pause wakes wakes' ends.suffix ends'.suffix
      ends.not_called ends'.not_called
    exact ih w ends ends' same

end Runbook
