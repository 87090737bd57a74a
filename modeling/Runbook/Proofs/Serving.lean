import Runbook.Proofs.Performance
import Runbook.Proofs.Stored

/-!
# What a host stores

A host with a store in memory answers its runs as `Memory.Serves` says, and its journal
tells what their writes came to. So what holds of every trace that such a store serves
holds of what a host does.

* `Host.Served` — the store and the journal of a host after a trace.
* `Host.served_advance` — a host that executes a run serves it.
* `Run.pair` — a run of two nodes, for examples.
-/

namespace Runbook

open Program

/-- The write that a journal has noted. -/
def Occurrence.write? : Occurrence → Option Incident
  | .createVisit v w => some (.asked (.createVisit v) w)
  | .update r visits w => some (.asked (.update r visits) w)
  | _ => none

namespace Trace

/-- The writes of a trace. -/
def writes (t : Trace) : Trace := t.filter Incident.isWrite

theorem clean_writes {t : Trace} : t.writes.Clean ↔ t.Clean :=
  clean_filter fun _ => isWrite_of_isFailedWrite

@[simp] theorem writes_calls (cs : List SignalCall) (t : Trace) :
    (calls cs ++ t).writes = t.writes := by
  induction cs with
  | nil => rfl
  | cons c cs ih => exact ih

end Trace

/-- Calls of a signal are nothing to a store. -/
theorem Memory.Serves.calls {m₀ m : Memory} {run : String} {t : Trace} (h : m₀.Serves run t m)
    (cs : List SignalCall) : m₀.Serves run (.calls cs ++ t) m := by
  induction cs with
  | nil => exact h
  | cons c cs ih => exact ih.unwritten rfl

namespace Host

variable {σ : Type} {run : String} {m₀ : Memory} {t old : Trace} {h : Host Memory}

/-- The writes that the journal of a host has noted. -/
def noted (h : Host σ) : Trace := h.journal.filterMap fun e => e.occurrence.write?

/-- A host whose store in memory was `m₀` has served the trace, and noted its writes. -/
structure Served (run : String) (m₀ : Memory) (old t : Trace) (h : Host Memory) : Prop where
  /-- the store has served the trace -/
  store : m₀.Serves run t h.store
  /-- the journal has noted the writes -/
  noted : h.noted = t.writes ++ old

/-- A call either does not reach the store, or is answered by it. -/
theorem call_cases {β : Type} (h : Host σ) (c : StoreCall) (f : σ → Reply σ β) :
    (∃ e, (h.call c f).1 = .error e ∧ (h.call c f).2.store = h.store) ∨
      (h.call c f).1 = (f h.store).1 ∧ (h.call c f).2.store = (f h.store).2 := by
  rw [call]
  dsimp only
  split
  · exact .inl ⟨_, rfl, rfl⟩
  · exact .inr ⟨rfl, rfl⟩

/-- It notes nothing itself. -/
theorem journal_call {β : Type} (h : Host σ) (c : StoreCall) (f : σ → Reply σ β) :
    (h.call c f).2.journal = h.journal := by
  rw [call]
  dsimp only
  split <;> rfl

/-- A write is served, whether or not it reaches the store. -/
theorem serves_logged (serves : m₀.Serves run t h.store) (c : StoreCall)
    {f : Memory → Reply Memory Unit} (o : Written → Occurrence) {e : Written → Incident}
    (failed : ∀ error, (e (.error error)).isFailedWrite = true)
    (reached : m₀.Serves run (e (f h.store).1 :: t) (f h.store).2) :
    m₀.Serves run (e (logged o (h.call c f)).1 :: t) (logged o (h.call c f)).2.store := by
  have kept : m₀.Serves run (e (h.call c f).1 :: t) (h.call c f).2.store := by
    rcases h.call_cases c f with ⟨error, answer, store⟩ | ⟨answer, store⟩
    · rw [answer, store]
      exact serves.failed (failed error)
    · rw [answer, store]
      exact reached
  exact kept

/-- The store of a host serves what is asked of the host. -/
theorem serves_answer (serves : m₀.Serves run t h.store) (r : Request) :
    m₀.Serves run (.asked r (h.answer r).1 :: t) (h.answer r).2.store := by
  have other (store : (h.answer r).2.store = h.store)
      (plain : (Incident.asked r (h.answer r).1).isWrite = false) :
      m₀.Serves run (.asked r (h.answer r).1 :: t) (h.answer r).2.store :=
    store ▸ serves.unwritten plain
  cases r with
  | createVisit v =>
    exact serves_logged serves .createVisit (.createVisit v)
      (e := fun w => .asked (.createVisit v) w) (fun _ => rfl) serves.created
  | update r visits =>
    exact serves_logged serves .update (.update r visits)
      (e := fun w => .asked (.update r visits) w) (fun _ => rfl) serves.updated
  | beginQuery operation =>
    refine other ?_ rfl
    rw [Host.answer, beginQuery]
    split <;> rfl
  | act id a =>
    refine other ?_ rfl
    cases a with
    | cancel target reason =>
      rw [Host.answer, perform]
      dsimp only
      split <;> rfl
    | _ => rfl
  | _ => exact other rfl rfl

/-- Writes are noted, whatever they come to. -/
theorem noted_logged (h : Host σ) (c : StoreCall) (f : σ → Reply σ Unit)
    {o : Written → Occurrence} {e : Written → Incident} (noted : ∀ w, (o w).write? = some (e w)) :
    (logged o (h.call c f)).2.noted = e (logged o (h.call c f)).1 :: h.noted := by
  have earlier : (h.call c f).2.noted = h.noted := by
    rw [Host.noted, journal_call, Host.noted]
  have latest : (logged o (h.call c f)).2.noted = e (h.call c f).1 :: (h.call c f).2.noted :=
    List.filterMap_cons_some (noted _)
  rw [latest, earlier]
  rfl

/-- A host notes the writes that are asked of it, and nothing else. -/
theorem noted_answer [Store σ] (h : Host σ) (r : Request) :
    (h.answer r).2.noted = Trace.writes [.asked r (h.answer r).1] ++ h.noted := by
  cases r with
  | createVisit v =>
    exact h.noted_logged .createVisit (Store.createVisit v) (o := .createVisit v) fun _ => rfl
  | update r visits =>
    exact h.noted_logged .update (Store.update r visits) (o := .update r visits) fun _ => rfl
  | beginQuery operation =>
    rw [Host.answer, beginQuery]
    split <;> rfl
  | act id a =>
    cases a with
    | cancel target reason =>
      rw [Host.answer, perform]
      dsimp only
      split <;> rfl
    | _ => rfl
  | _ => rfl

theorem Served.unwritten (served : h.Served run m₀ old t) {e : Incident} {h' : Host Memory}
    (other : e.isWrite = false) (store : h'.store = h.store) (noted : h'.noted = h.noted) :
    h'.Served run m₀ old (e :: t) where
  store := store ▸ served.store.unwritten other
  noted := by
    rw [noted, served.noted, Trace.writes, Trace.writes, List.filter_cons_of_neg (by simp [other])]

theorem Served.calls (served : h.Served run m₀ old t) (cs : List SignalCall) :
    h.Served run m₀ old (.calls cs ++ t) :=
  ⟨served.store.calls cs, by rw [Trace.writes_calls, served.noted]⟩

/-- Whatever is answered is served. -/
theorem Served.answer (served : h.Served run m₀ old t) (r : Request) :
    (h.answer r).2.Served run m₀ old (.asked r (h.answer r).1 :: t) where
  store := serves_answer served.store r
  noted := by
    rw [noted_answer, served.noted, ← List.append_assoc]
    exact congrArg (· ++ old) (List.filter_append (p := Incident.isWrite) [_] t).symm

/-- A host that executes a run serves it. -/
theorem served_advance (h : Host Memory) {r : Run} (before : List SignalCall)
    (called : h.signal r.id = (Trace.calls before).signal) :
    ∃ q u, r.start.Leads .prompt (.calls before) q u ∧ (h.advance r.start).1.Of q ∧
      (h.advance r.start).2.Served r.id h.store h.noted u ∧
      (h.advance r.start).2.signal r.id = u.signal := by
  have served : h.Served r.id h.store h.noted (.calls before) := by
    have nothing : h.Served r.id h.store h.noted [] := ⟨.start, rfl⟩
    simpa using nothing.calls before
  obtain ⟨q, u, leads, served, signal, -, stands⟩ :=
    leads_advance_keeping (I := fun t h' => h'.Served r.id h.store h.noted t)
      (fun t h' r cs _ served => (served.answer r).calls cs)
      (fun t h' p w served => served.unwritten rfl rfl rfl) r.owned_start called served
  exact ⟨q, u, leads, stands, served, signal⟩

/-! ## A host for one run -/

/-- A host whose store in memory has the run and nothing else. -/
def holding (r : Run) (faults : Faults) : Host Memory :=
  { Host.start (Memory.empty.createRun r.record).2 with faults := faults }

theorem detail_holding (r : Run) (faults : Faults) :
    (holding r faults).store.detail r.id = some ⟨r.record, [], []⟩ := by
  simp [holding, Host.start, Memory.createRun, Memory.empty, Memory.find?, Memory.detail, Run.id]

/-- Where such a host leaves the run when it executes it. -/
def execute (r : Run) (faults : Faults) : Standing (Bool × Run) × Host Memory :=
  (holding r faults).advance r.start

/-- It serves the run, and its journal tells what the writes came to. -/
theorem serves_execute (r : Run) (faults : Faults) :
    ∃ q u, r.start.Leads .prompt (.calls []) q u ∧ (execute r faults).1.Of q ∧
      (holding r faults).store.Serves r.id u (execute r faults).2.store ∧
      u.writes = (execute r faults).2.noted := by
  obtain ⟨q, u, leads, stands, served, -⟩ := (holding r faults).served_advance (r := r) [] rfl
  refine ⟨q, u, leads, stands, served.store, ?_⟩
  have noted : (execute r faults).2.noted = u.writes ++ [] := served.noted
  rw [noted, List.append_nil]

/-- So it does where the run ends. -/
theorem ends_execute {r : Run} {faults : Faults} {a : Bool × Run}
    (ended : (execute r faults).1 = .ended a) :
    ∃ u, r.start.Ends .prompt (.calls []) (some a) u ∧
      (holding r faults).store.Serves r.id u (execute r faults).2.store ∧
      u.writes = (execute r faults).2.noted := by
  obtain ⟨q, u, leads, stands, rest⟩ := serves_execute r faults
  rw [ended] at stands
  obtain rfl : q = .done a := stands
  exact ⟨u, leads, rest⟩

end Host

/-- A procedure with two nodes that do nothing. -/
def Definition.pair : Definition where
  name := "pair"
  nodes := [⟨startName, .immediate, fun scene => .finish scene .done, some "next", none, none⟩,
    ⟨"next", .immediate, fun scene => .finish scene .done, none, none, none⟩]
  named := by decide
  nodesNamed := by simp [startName]
  distinct := by simp [startName]
  hasStart := by simp
  forward := ⟨by simp [NodeSpec.successors], by simp [NodeSpec.successors], trivial⟩

/-- A run of it that has not begun. -/
def Run.pair (policy : WritePolicy) : Run :=
  .create (.create "1" "pair" "" "" "" (.ofMicros 0)) .pair
    { vigil.settings with policy := policy } default

theorem Definition.pair_tame : ∀ n ∈ Definition.pair.nodes, n.Tame := by
  intro n hn scene
  rcases List.mem_cons.1 hn with rfl | hn
  · exact .refl _
  · obtain rfl := List.mem_singleton.1 hn
    exact .refl _

end Runbook
