import Runbook.Proofs.Finality
import Runbook.Proofs.Reporting
import Runbook.Proofs.Watching

/-!
# A run that keeps its visits in a logbook

A run may also keep its visits in the order in which they began, and the place of the current one
apart. Then every change of a visit has to look it up at its place.

* `Logbook` — such a run, and what it does, with all the states that it goes through.
* `Visit.Settled`, `Logbook.Kept`, `Logbook.Closed` — the current visit is the last one, and all
  others have ended; all have ended. Whoever has ended has a time of its end, but for those whose
  executors ended them themselves.
* `Logbook.shows_start`, `Logbook.shows_destroy` — it does what a run does, and so it is at every
  step and in the end.
* `Logbook.Rests`, `logbook_sound` — so it is after all calls.
-/

namespace Runbook

open Watched

/-! ## How visits end -/

/-- What holds of every scene that an executor hands over holds of one that it can leave. -/
theorem Execution.Leaves.of_everywhere {P : Scene → Prop} {e : Execution} {scene : Scene}
    (leaves : e.Leaves scene) (all : e.Everywhere P) : P scene := by
  induction leaves with
  | finish => exact all
  | ask x _ ih => exact ih (all x)
  | here => exact all.1
  | later _ ih => exact ih all.2

namespace Visit

variable {v : Visit} {d : Definition}

/-- The executor of a polling node has ended the visit itself: it began with one that was at work,
and handed over this one as finished, without a time of its end. -/
structure SelfEnded (d : Definition) (v : Visit) : Prop where
  /-- the visit is finished -/
  finished : v.status = .finished
  /-- it has no time of its end -/
  untimed : v.endTime = none
  /-- so it was handed over -/
  left : ∃ n ∈ d.nodes, n.kind = .polling ∧ ∃ begun context left, begun.status = .processing ∧
    begun.endTime = none ∧ begun.name = n.name ∧ begun.kind = n.kind ∧
      (n.executor ⟨begun, context⟩).Leaves left ∧ left.visit = v

/-- The visit has ended, and when is known unless its executor has ended it. -/
structure Settled (d : Definition) (v : Visit) : Prop where
  /-- it has ended -/
  ended : v.status = .finished ∨ v.status = .error
  /-- when is known -/
  timed : v.endTime = none → v.SelfEnded d

/-- A visit that is marked failed is settled, -/
theorem settled_fail (v : Visit) (f : Failure) (t : Instant) : (v.fail f t).Settled d :=
  ⟨.inr rfl, fun untimed => by cases untimed⟩

/-- and so is one that is marked finished: both set the time of the end. -/
theorem settled_succeed (v : Visit) (payload : Option String) (t : Instant) :
    (v.succeed payload t).Settled d :=
  ⟨.inl rfl, fun untimed => by cases untimed⟩

/-- What is settled does not go on. -/
theorem Settled.not_isActive (h : v.Settled d) : v.isActive = false := by
  rcases h.ended with ended | ended <;> simp [isActive, ended, Status.isTerminal]

end Visit

/-! ## The logbook -/

/-- A run with its visits in order, and the place of the current one. -/
structure Logbook where
  /-- its record -/
  record : RunRecord
  /-- the procedure -/
  definition : Definition
  /-- the visits so far, the first one first -/
  nodes : List Visit
  /-- the place of the visit of the node at work, or of the last one that was -/
  currentNode : Option Nat
  /-- the business data -/
  context : Context
  /-- what the last node that failed left, or why the run ended early -/
  lastError : Option String
  /-- the settings of the engine -/
  settings : Settings
  /-- who asked for the run -/
  caller : Caller

namespace Logbook

variable {l l' : Logbook} {d : Definition} {old : List Visit} {v w : Visit} {n : NodeSpec}
  {f : Failure}

/-! ## What it does -/

/-- A run that has not started. -/
def create (record : RunRecord) (definition : Definition) (settings : Settings) (caller : Caller) :
    Logbook :=
  ⟨record, definition, [], none, .empty, none, settings, caller⟩

/-- The run that keeps its visits the latest first. -/
def run (l : Logbook) : Run :=
  ⟨l.record, l.definition, l.nodes.reverse, l.context, l.lastError, l.settings, l.caller⟩

/-- Ask the surroundings. -/
def request (l : Logbook) (r : Request) : Watched Logbook r.Answer := Watched.request l r

/-- The signal of the run. -/
def signal (l : Logbook) : Watched Logbook Signal := l.request (.signal l.record.id)

/-- The signal of the run, between two nodes. -/
def look (l : Logbook) : Watched Logbook Signal := do
  l.request (.between l.record.id)
  l.signal

/-- Give the run a status. -/
def withStatus (l : Logbook) (s : Status) : Logbook :=
  { l with record := { l.record with status := s } }

/-- Begin a visit. -/
def push (l : Logbook) (v : Visit) : Logbook :=
  { l with nodes := l.nodes ++ [v], currentNode := some l.nodes.length }

/-- The visit at that place. -/
def node (l : Logbook) (idx : Nat) : Watched Logbook Visit :=
  match l.nodes[idx]? with
  | some v => .done v
  | none => .stray

/-- Write a visit over the one at that place. -/
def setNode (l : Logbook) (idx : Nat) (v : Visit) : Logbook := { l with nodes := l.nodes.set idx v }

/-- Let the visit at that place fail. -/
def failAt (l : Logbook) (idx : Nat) (f : Failure) : Watched Logbook Logbook := do
  let v ← l.node idx
  let t ← l.request .now
  return l.setNode idx (v.fail f t)

/-- Write the context into the record. -/
def takeSnapshot (l : Logbook) : Logbook :=
  { l with record := { l.record with context := l.context.snapshot } }

/-- The visit at that place is at work from now on. -/
def begin (l : Logbook) (idx : Nat) (v : Visit) : Logbook :=
  (l.setNode idx v.processing).takeSnapshot

/-- End with a failure: the current visit takes it over, unless it has ended already. -/
def endWith (l : Logbook) (f : Failure) (s : Status) : Watched Logbook Logbook := do
  let l ← match l.currentNode with
    | none => pure l
    | some idx => do
      let v ← l.node idx
      if v.isActive then l.failAt idx f else pure l
  return { l.withStatus s with lastError := some f.message }

/-- End as canceled. -/
def markCanceled (l : Logbook) : Watched Logbook Logbook := do
  let signal ← l.signal
  l.endWith (.canceled signal.reason) .canceled

/-- Note the time of a write. -/
def stamped (l : Logbook) (t : Instant) : Logbook :=
  { l with record := { l.record with updatedAt := t } }

/-- Write the run and its visits to the store. -/
def save (l : Logbook) : Watched Logbook (Written × Logbook) := do
  let t ← l.request .now
  let l := l.stamped t
  let written ← l.request (.update l.record l.nodes)
  return (written, l)

/-- Write the run and its visits to the store, whether or not that works. -/
def saveAnyway (l : Logbook) : Watched Logbook Logbook := do
  let (_, l) ← l.save
  return l

/-- The state when an executor has handed over a scene of the visit at that place. -/
def handed (l : Logbook) (idx : Nat) (scene : Scene) : Logbook :=
  { l.setNode idx scene.visit with context := scene.context }

/-- The work of an executor on the visit at that place. Where it waits, the visit is as it has
handed it over. -/
def perform (l : Logbook) (idx : Nat) (deadline : Option Nat) :
    Execution → Watched Logbook (Scene × Closing)
  | .finish scene outcome => .done (scene, .finished outcome)
  | .ask act next => .ask l (.act l.record.id act) fun x => l.perform idx deadline (next x)
  | .pause scene wait next => .pause (l.handed idx scene) ⟨l.record.id, wait, deadline⟩ fun
    | .due => (l.handed idx scene).perform idx deadline next
    | .signalled => .done (scene, .canceled)
    | .expired => .done (scene, .expired)

/-- Let the executor of a node work on the visit at that place, unless the run is canceled: why the
node failed, if it did. -/
def execute (l : Logbook) (n : NodeSpec) (idx : Nat) :
    Watched Logbook (Option Failure × Logbook) := do
  let v ← l.node idx
  let signal ← l.signal
  if signal.fired then return (some (.canceled signal.reason), l)
  else
    let clock ← l.request .clock
    let deadline := n.limit.map fun limit => clock + limit.ceilMillis
    l.request (.atWork l.record.id ⟨v, l.context⟩)
    let (scene, closing) ← l.perform idx deadline (n.executor ⟨v, l.context⟩)
    let l := l.handed idx scene
    let signal ← l.signal
    return (Run.failure? signal n.limit closing, l)

/-- How a run goes on after a failure that its current visit has recorded. -/
def afterFailure (l : Logbook) (f : Failure) : Watched Logbook (Run.Course × Logbook) :=
  match f with
  | .canceled _ => do
    let l ← l.markCanceled
    let l ← l.saveAnyway
    return (.stop, l)
  | .persistence _ => do
    let l ← l.endWith f .error
    return (.stop, l)
  | _ => return (.recover, l)

/-- Record a failure at that place and go on. -/
def failWith (l : Logbook) (idx : Nat) (f : Failure) : Watched Logbook (Run.Course × Logbook) := do
  let l ← l.failAt idx f
  l.afterFailure f

/-- Record a success at that place and go on. -/
def succeedWith (l : Logbook) (idx : Nat) (payload : Option String) :
    Watched Logbook (Run.Course × Logbook) := do
  let v ← l.node idx
  let t ← l.request .now
  return (.advance, l.setNode idx (v.succeed payload t))

/-- Finish the visit at that place, whose executor has done its work. -/
def settleVisit (l : Logbook) (n : NodeSpec) (idx : Nat) :
    Watched Logbook (Run.Course × Logbook) :=
  match n.kind with
  | .immediate => l.succeedWith idx none
  | .polling => do
    let v ← l.node idx
    if v.status = .finished then return (.advance, l)
    else
      match ← Watched.still l (l.run.poll v) with
      | .ok payload => l.succeedWith idx payload
      | .error f => l.failWith idx f

/-- Store the visit at that place as at work, let the executor of its node work on it, and finish
it. -/
def carryOut (l : Logbook) (n : NodeSpec) (idx : Nat) :
    Watched Logbook (Run.Course × Logbook) := do
  let (saved, l) ← l.save
  match l.run.writeFailure saved with
  | some f => l.failWith idx f
  | none =>
    let (failure, l) ← l.execute n idx
    match failure with
    | some f => l.failWith idx f
    | none => l.settleVisit n idx

/-- Execute a node. -/
def step (l : Logbook) (n : NodeSpec) : Watched Logbook (Run.Course × Logbook) := do
  let id ← l.request .newVisitId
  let t ← l.request .now
  let v := Visit.create id l.record n.name n.kind t
  let created ← l.request (.createVisit v)
  match l.run.writeFailure created with
  | some f => (l.push v).afterFailure f
  | none =>
    let l := l.push v
    let idx := l.nodes.length - 1
    let v ← l.node idx
    (l.begin idx v).carryOut n idx

/-- End before a node because the run is canceled. -/
def stopCanceled (l : Logbook) : Watched Logbook (Bool × Logbook) := do
  let l ← l.markCanceled
  let l ← l.saveAnyway
  return (false, l)

/-- End behind the last node. -/
def arrive (l : Logbook) (ok : Bool) : Watched Logbook (Bool × Logbook) := do
  let signal ← l.look
  if signal.fired then
    let l ← l.markCanceled
    return (false, l)
  else return (ok, if l.record.status = .canceled then l else l.withStatus .finished)

/-- Keep what the current visit left as the last error. -/
def keepError (l : Logbook) : Logbook :=
  { l with lastError := (l.currentNode.bind (l.nodes[·]?)).map Visit.result }

/-- Execute the target and the nodes to which events lead from it. -/
def walk : List NodeSpec → Option String → Bool → Logbook → Watched Logbook (Bool × Logbook)
  | [], _, ok, l | _, none, ok, l => l.arrive ok
  | n :: rest, some target, ok, l =>
    if n.name = target then do
      let signal ← l.look
      if signal.fired then l.stopCanceled
      else
        let (course, l) ← l.step n
        match course with
        | .advance => walk rest n.onSuccess ok l
        | .recover => walk rest n.onFail false l.keepError
        | .stop => return (false, l)
    else walk rest (some target) ok l

/-- The final status, for a run that is not canceled. -/
def complete (l : Logbook) (success : Bool) : Logbook :=
  if l.record.status = .canceled then l
  else l.withStatus (if success then .finished else .error)

/-- End the run after the walk. -/
def close (l : Logbook) (ok : Bool) : Watched Logbook (Bool × Logbook) := do
  let signal ← l.signal
  let l ← if signal.fired && l.record.status != .canceled then l.markCanceled else pure l
  let l ← (l.complete ok).saveAnyway
  return (ok, l)

/-- Execute the run. -/
def start (l : Logbook) : Watched Logbook (Bool × Logbook) := do
  let (ok, l) ← walk l.definition.nodes (some startName) true (l.withStatus .processing)
  l.close ok

/-- End a run whose signal has fired, without executing it. -/
def destroy (l : Logbook) : Watched Logbook Logbook := do
  let l ← l.markCanceled
  l.saveAnyway

/-- Set a value of the context. -/
def addContext (l : Logbook) (key : String) (value : Json) : Logbook :=
  { l with context := l.context.set key value }.takeSnapshot

/-! ## What holds of the visits -/

/-- The current visit is the last one, and all others have ended. -/
structure Kept (d : Definition) (l : Logbook) : Prop where
  /-- the procedure is the same -/
  definition : l.definition = d
  /-- only without visits there is no current one -/
  absent : l.currentNode = none ↔ l.nodes = []
  /-- it is the last one -/
  present : ∀ idx, l.currentNode = some idx → idx + 1 = l.nodes.length
  /-- the others have ended -/
  earlier : ∀ v ∈ l.nodes.dropLast, v.Settled d

/-- All visits have ended. -/
structure Closed (d : Definition) (l : Logbook) : Prop extends Kept d l where
  /-- each one has -/
  settled : ∀ v ∈ l.nodes, v.Settled d

/-- The last visit is `v`, and those before it have ended. -/
structure Open (d : Definition) (old : List Visit) (v : Visit) (l : Logbook) : Prop where
  /-- the procedure is the same -/
  definition : l.definition = d
  /-- the visits -/
  nodes : l.nodes = old ++ [v]
  /-- the current one is the last one -/
  current : l.currentNode = some old.length
  /-- the others have ended -/
  earlier : ∀ w ∈ old, w.Settled d

/-- A run that is created has no node yet. -/
theorem closed_create (record : RunRecord) (d : Definition) (settings : Settings)
    (caller : Caller) : (create record d settings caller).Closed d where
  definition := rfl
  absent := by simp [create]
  present idx never := by cases never
  earlier v hv := by cases hv
  settled v hv := by cases hv

namespace Open

variable (h : Open d old v l)

include h

/-- While a node is open its index is the last one and names it, so that all others are settled. -/
theorem kept : l.Kept d where
  definition := h.definition
  absent := by simp [h.current, h.nodes]
  present idx same := by
    rw [h.current] at same
    cases same
    rw [h.nodes, List.length_append, List.length_singleton]
  earlier w hw := by
    rw [h.nodes, List.dropLast_concat] at hw
    exact h.earlier w hw

/-- The current node is closed by settling it. -/
theorem closed (settled : v.Settled d) : l.Closed d where
  toKept := h.kept
  settled w hw := by
    rw [h.nodes, List.mem_append, List.mem_singleton] at hw
    rcases hw with hw | rfl
    · exact h.earlier w hw
    · exact settled

/-- The current node is found at its index, which is the number of those before it. -/
theorem node_eq : l.node old.length = .done v := by
  have here : l.nodes[old.length]? = some v := by simp [h.nodes]
  rw [node, here]

/-- To write at the index of the current node is to touch no other node, -/
theorem setNode (w : Visit) : Open d old w (l.setNode old.length w) where
  definition := h.definition
  nodes := by
    rw [Logbook.setNode, h.nodes]
    simp
  current := h.current
  earlier := h.earlier

/-- and so it is what the run does when it edits its current visit. -/
theorem run_setNode (g : Visit → Visit) :
    (l.setNode old.length (g v)).run = l.run.edit g := by
  have trail : l.run.trail = v :: old.reverse := by simp [run, h.nodes]
  have edited : (l.run.edit g).trail = g v :: old.reverse := l.run.edit_trail g trail
  rw [run, (h.setNode (g v)).nodes, List.reverse_append, List.reverse_singleton,
    List.singleton_append, ← edited]
  rfl

end Open

/-- Without visits nothing is current, and else the last one is. -/
theorem Kept.cases (h : l.Kept d) :
    (l.nodes = [] ∧ l.currentNode = none) ∨ ∃ old v, Open d old v l := by
  rcases List.eq_nil_or_concat l.nodes with none | ⟨old, v, some⟩
  · exact .inl ⟨none, h.absent.2 none⟩
  · rw [List.concat_eq_append] at some
    refine .inr ⟨old, v, h.definition, some, ?_, ?_⟩
    · cases current : l.currentNode with
      | none => simp [h.absent.1 current] at some
      | some idx =>
        have last := h.present idx current
        rw [some, List.length_append, List.length_singleton] at last
        exact congrArg Option.some (Nat.succ.inj last)
    · have earlier := h.earlier
      rwa [some, List.dropLast_concat] at earlier

/-- A node that is added takes the next index. The others were settled before. -/
theorem Closed.push (h : l.Closed d) (v : Visit) : Open d l.nodes v (l.push v) where
  definition := h.definition
  nodes := rfl
  current := rfl
  earlier := h.settled

/-- To the run it is a visit that it enters. -/
theorem run_push (l : Logbook) (v : Visit) : (l.push v).run = l.run.enter v := by
  rw [run, push, List.reverse_append, List.reverse_singleton, List.singleton_append]
  rfl

/-- A visit that has just begun goes to work. -/
theorem Closed.begin (h : l.Closed d) (v : Visit) :
    Open d l.nodes v.processing ((l.push v).begin l.nodes.length v) := by
  have set := (h.push v).setNode v.processing
  exact ⟨set.definition, set.nodes, set.current, set.earlier⟩

/-- So it begins: the snapshot is taken after the node is there, as the run does it. -/
theorem Closed.run_begin (h : l.Closed d) (v : Visit) :
    ((l.push v).begin l.nodes.length v).run = (l.run.enter v.processing).takeSnapshot := by
  have same := (h.push v).run_setNode Visit.processing
  rw [run_push] at same
  exact congrArg Run.takeSnapshot same

/-- The visits of the run are the nodes; the run keeps the last one first. -/
theorem visits_run (l : Logbook) : l.run.visits = l.nodes := List.reverse_reverse _

/-- The current visit is the one at its place. -/
theorem Kept.current_run (h : l.Kept d) : l.currentNode.bind (l.nodes[·]?) = l.run.current := by
  rw [Run.current, run, List.head?_reverse]
  rcases h.cases with ⟨none, absent⟩ | ⟨old, v, opened⟩
  · rw [none, absent]
    rfl
  · rw [opened.current, opened.nodes]
    simp

/-! ## It does what a run does -/

/-- The logbook is that of the run, and has a property. -/
def Of (X : Logbook → Prop) (l : Logbook) (r : Run) : Prop := l.run = r ∧ X l

/-- So it is beside another value. -/
def With {κ : Type} (X : Logbook → Prop) (a : κ × Logbook) (b : κ × Run) : Prop :=
  a.1 = b.1 ∧ Of X a.2 b.2

section

variable {s : Status} {idx : Nat}

/-- To fail the current node by its index is to fail the current visit. -/
theorem shows_failAt (h : Open d old v l) : Shows (Kept d)
    (Of fun l' => ∃ t, Open d old (v.fail f t) l') (l.failAt old.length f) (l.run.fail f) := by
  rw [failAt, h.node_eq]
  refine .asks h.kept ?_
  intro t
  exact .done ⟨h.run_setNode (·.fail f t), t, h.setNode _⟩

/-- Whoever ends the run ends its current visit, if that is at work. -/
theorem shows_endWith (h : l.Kept d)
    (last : ∀ v ∈ l.nodes.getLast?, v.isActive = true ∨ v.Settled d) :
    Shows (Kept d) (Of (Closed d)) (l.endWith f s) (l.run.endWith f s) := by
  have ended {l' : Logbook} {r' : Run} (same : l'.run = r') (closed : l'.Closed d) :
      Of (Closed d) { l'.withStatus s with lastError := some f.message }
        { r'.withStatus s with lastError := some f.message } := by
    subst same
    exact ⟨rfl, ⟨closed.definition, closed.absent, closed.present, closed.earlier⟩,
      closed.settled⟩
  rw [endWith, Run.endWith]
  -- there is no node, or one that the index names and that may have to fail with the run
  rcases h.cases with ⟨none, absent⟩ | ⟨old, v, opened⟩
  · have idle : l.run.isActive = false := by simp [Run.isActive, Run.current, run, none]
    rw [absent, idle]
    refine .done (ended rfl ⟨h, ?_⟩)
    rw [none]
    intro v hv
    cases hv
  · have active : l.run.isActive = v.isActive := by
      simp [Run.isActive, Run.current, run, opened.nodes]
    rw [opened.current, active]
    dsimp only
    rw [opened.node_eq]
    change Shows _ _ (if v.isActive = true then _ else _) (if v.isActive = true then _ else _)
    by_cases work : v.isActive = true
    · rw [if_pos work, if_pos work]
      refine (shows_failAt opened).bind ?_
      rintro l' r' ⟨same, t, failed⟩
      exact .done (ended same (failed.closed (v.settled_fail f t)))
    · rw [if_neg work, if_neg work]
      have settled : v.Settled d := by
        refine (last v ?_).resolve_left work
        simp [opened.nodes]
      exact .done (ended rfl (opened.closed settled))

/-- A cancellation marks the last node if it is active. All it has to find there is a node that is
active or settled, which holds as well when no node is open. -/
theorem shows_markCanceled (h : l.Kept d)
    (last : ∀ v ∈ l.nodes.getLast?, v.isActive = true ∨ v.Settled d) :
    Shows (Kept d) (Of (Closed d)) l.markCanceled l.run.markCanceled := by
  refine .asks h ?_
  intro signal
  exact shows_endWith h last

/-- When no node is open, the last one is settled. -/
theorem Closed.last (h : l.Closed d) :
    ∀ v ∈ l.nodes.getLast?, v.isActive = true ∨ v.Settled d :=
  fun v hv => .inr (h.settled v (List.mem_of_getLast? hv))

/-- Whoever saves the run changes nothing but the time of the last write. -/
theorem shows_save {X : Logbook → Prop} (h : l.Kept d)
    (stamped : ∀ t, X (l.stamped t)) : Shows (Kept d) (With X) l.save l.run.save := by
  refine .asks h ?_
  intro t
  have visits : (l.run.stamped t).visits = (l.stamped t).nodes := (l.stamped t).visits_run
  change Shows _ _ _ ((Program.request (.update (l.run.stamped t).record
    (l.run.stamped t).visits)).bind _)
  rw [visits]
  refine .asks ⟨h.definition, h.absent, h.present, h.earlier⟩ ?_
  intro written
  exact .done ⟨rfl, rfl, stamped t⟩

/-- Both write the same nodes, and do the same about what the store answers. -/
theorem Closed.shows_saveAnyway (h : l.Closed d) :
    Shows (Kept d) (Of (Closed d)) l.saveAnyway l.run.saveAnyway := by
  have saved := shows_save (X := Closed d) h.toKept fun t =>
    ⟨⟨h.definition, h.absent, h.present, h.earlier⟩, h.settled⟩
  refine saved.bind ?_
  rintro ⟨written, l'⟩ ⟨written', r'⟩ ⟨-, same⟩
  exact .done same

/-! ### One node -/

/-- What an executor does has nothing to do with the index. It hands over a node that may have ended
itself, and no other. -/
theorem shows_perform (h : Open d old v l) (deadline : Option Nat) (e : Execution) :
    Shows (Kept d) (fun a b => a = b ∧ e.Leaves a.1) (l.perform old.length deadline e)
      (e.program l.record.id deadline) := by
  induction e generalizing l v with
  | finish scene outcome => exact .done ⟨rfl, .finish⟩
  | ask act next ih =>
    refine .ask h.kept ?_
    intro x
    refine (ih x h).mono ?_
    rintro a b ⟨same, leaves⟩
    exact ⟨same, .ask x leaves⟩
  | pause scene wait next ih =>
    -- while it waits, others see the visit as it is in the scene
    have handed : Open d old scene.visit (l.handed old.length scene) := by
      have set := h.setNode scene.visit
      exact ⟨set.definition, set.nodes, set.current, set.earlier⟩
    refine .pause handed.kept ?_
    intro w
    cases w with
    | due =>
      refine (ih handed).mono ?_
      rintro a b ⟨same, leaves⟩
      exact ⟨same, .later leaves⟩
    | signalled => exact .done ⟨rfl, .here⟩
    | expired => exact .done ⟨rfl, .here⟩

/-- What has come of the work of an executor on a visit `v`. -/
structure Worked (d : Definition) (old : List Visit) (v : Visit) (n : NodeSpec)
    (a : Option Failure × Logbook) (b : Visit × Option Failure × Run) : Prop where
  /-- the failure is the same -/
  failure : a.1 = b.2.1
  /-- so is the run -/
  run : a.2.run = b.2.2
  /-- its last visit is the one that is left -/
  opened : Open d old b.1 a.2
  /-- without a failure it was handed over -/
  left : b.2.1 = none → ∃ context left, (n.executor ⟨v, context⟩).Leaves left ∧ left.visit = b.1

/-- So the node is executed: what was handed over is written at its index. -/
theorem shows_execute (h : Open d old v l) :
    Shows (Kept d) (Worked d old v n) (l.execute n old.length) (l.run.execute n v) := by
  rw [execute, h.node_eq]
  refine .asks h.kept ?_
  intro signal
  by_cases fired : signal.fired = true
  · rw [if_pos fired, if_pos fired]
    refine .done ⟨rfl, rfl, h, ?_⟩
    intro never
    cases never
  · rw [if_neg fired, if_neg fired]
    refine .asks h.kept fun clock => .asks h.kept fun _ => ?_
    refine (shows_perform h _ _).bind ?_
    rintro ⟨scene, closing⟩ _ ⟨rfl, leaves⟩
    have set := h.setNode scene.visit
    have handed : Open d old scene.visit (l.handed old.length scene) :=
      ⟨set.definition, set.nodes, set.current, set.earlier⟩
    have same : (l.handed old.length scene).run =
        { l.run.edit fun _ => scene.visit with context := scene.context } := by
      rw [← h.run_setNode fun _ => scene.visit]
      rfl
    refine .asks handed.kept fun signal => .done ?_
    exact ⟨rfl, same, handed, fun _ => ⟨_, scene, leaves, rfl⟩⟩

/-- After a failure the run may be canceled at once or go on with the failure; either way no node is
open. -/
theorem shows_afterFailure (h : l.Kept d) (last : ∀ v ∈ l.nodes.getLast?,
    (v.isActive = true ∧ ∃ detail, f = .persistence detail) ∨ v.Settled d) :
    Shows (Kept d) (With (Closed d)) (l.afterFailure f) (l.run.afterFailure f) := by
  have ready : ∀ v ∈ l.nodes.getLast?, v.isActive = true ∨ v.Settled d :=
    fun v hv => (last v hv).imp_left And.left
  cases f with
  | canceled reason =>
    refine (shows_markCanceled h ready).bind ?_
    rintro l' r' ⟨rfl, closed⟩
    refine closed.shows_saveAnyway.bind ?_
    intro l'' r'' same
    exact .done ⟨rfl, same⟩
  | persistence detail =>
    refine (shows_endWith h ready).bind ?_
    intro l' r' same
    exact .done ⟨rfl, same⟩
  | _ =>
    refine .done ⟨rfl, rfl, h, ?_⟩
    intro v hv
    rcases h.cases with ⟨none, -⟩ | ⟨old, w, opened⟩
    · rw [none] at hv
      cases hv
    · have settled : w.Settled d := by
        refine (last w (by simp [opened.nodes])).resolve_left ?_
        rintro ⟨-, detail, never⟩
        cases never
      exact (opened.closed settled).settled v hv

/-- The current node fails, and is settled by it. -/
theorem shows_failWith (h : Open d old v l) :
    Shows (Kept d) (With (Closed d)) (l.failWith old.length f) (l.run.failWith f) := by
  refine (shows_failAt h).bind ?_
  rintro l' r' ⟨rfl, t, failed⟩
  refine shows_afterFailure failed.kept ?_
  intro w hw
  exact .inr ((failed.closed (v.settled_fail f t)).settled w (List.mem_of_getLast? hw))

/-- The current node finishes, and is settled by it. -/
theorem shows_succeedWith (h : Open d old v l) (payload : Option String) :
    Shows (Kept d) (With (Closed d)) (l.succeedWith old.length payload)
      (l.run.succeedWith payload) := by
  rw [succeedWith, h.node_eq]
  refine .asks h.kept ?_
  intro t
  exact .done ⟨rfl, h.run_setNode (·.succeed payload t),
    (h.setNode _).closed (v.settled_succeed payload t)⟩

/-- A visit that its executor has ended is left as it was handed over; the others are settled by how
they have ended. -/
theorem shows_settleVisit (h : Open d old v l)
    (selfEnded : n.kind = .polling → v.status = .finished → v.endTime = none → v.SelfEnded d) :
    Shows (Kept d) (With (Closed d)) (l.settleVisit n old.length) (l.run.settleVisit n v) := by
  rw [settleVisit, Run.settleVisit]
  cases kind : n.kind with
  | immediate => exact shows_succeedWith h none
  | polling =>
    dsimp only
    rw [h.node_eq]
    change Shows _ _ (if v.status = .finished then _ else _) _
    by_cases finished : v.status = .finished
    · rw [if_pos finished, if_pos finished]
      exact .done ⟨rfl, rfl, h.closed ⟨.inl finished, selfEnded kind finished⟩⟩
    · rw [if_neg finished, if_neg finished]
      refine (Shows.still h.kept _).bind ?_
      rintro result _ rfl
      cases result with
      | ok payload => exact shows_succeedWith h payload
      | error f => exact shows_failWith h

/-- A node is carried out if the write that it begins with works, and fails otherwise. -/
theorem shows_carryOut (h : Open d old v l) (inside : n ∈ d.nodes)
    (status : v.status = .processing) (endTime : v.endTime = none) (name : v.name = n.name)
    (kind : v.kind = n.kind) :
    Shows (Kept d) (With (Closed d)) (l.carryOut n old.length) (do
      let (saved, r) ← l.run.save
      match r.writeFailure saved with
      | some f => r.failWith f
      | none =>
        let (v, failure, r) ← r.execute n v
        match failure with
        | some f => r.failWith f
        | none => r.settleVisit n v) := by
  -- the write at the beginning, the executor, and what becomes of the node
  have saved := shows_save (X := Open d old v) h.kept fun t =>
    ⟨h.definition, h.nodes, h.current, h.earlier⟩
  refine saved.bind ?_
  rintro ⟨written, l'⟩ ⟨_, _⟩ ⟨rfl, rfl, h'⟩
  change Shows _ _ (match l'.run.writeFailure written with | some f => _ | none => _)
    (match l'.run.writeFailure written with | some f => _ | none => _)
  cases l'.run.writeFailure written with
  | some f => exact shows_failWith h'
  | none =>
    refine (shows_execute h').bind ?_
    rintro ⟨failed, l''⟩ ⟨w, _, _⟩ ⟨rfl, rfl, opened, left⟩
    cases failed with
    | some f => exact shows_failWith opened
    | none =>
      refine shows_settleVisit opened ?_
      intro polling finished untimed
      obtain ⟨context, scene, leaves, same⟩ := left rfl
      exact ⟨finished, untimed, n, inside, polling, v, context, scene, status, endTime, name, kind,
        leaves, same⟩

/-- So they agree on a step. The node is open from its beginning to its end and at no other time. -/
theorem shows_step (h : l.Closed d) (inside : n ∈ d.nodes) :
    Shows (Kept d) (With (Closed d)) (l.step n) (l.run.step n) := by
  refine .asks h.toKept fun id => .asks h.toKept fun t => .asks h.toKept fun created => ?_
  have pushed := h.push (Visit.create id l.record n.name n.kind t)
  change Shows _ _ (match l.run.writeFailure created with | some f => _ | none => _)
    (match l.run.writeFailure created with | some f => _ | none => _)
  cases refused : l.run.writeFailure created with
  | some f =>
    -- the visit has not begun to work yet, and is ended with the run
    obtain ⟨-, -, detail, rfl⟩ := Run.writeFailure_eq_some refused
    have active := shows_afterFailure (f := .persistence detail) pushed.kept fun v hv => by
      rw [pushed.nodes, List.getLast?_concat] at hv
      cases hv
      exact .inl ⟨rfl, detail, rfl⟩
    rw [run_push] at active
    exact active
  | none =>
    have place : (l.push (Visit.create id l.record n.name n.kind t)).nodes.length - 1 =
        l.nodes.length := by
      rw [pushed.nodes, List.length_append, List.length_singleton, Nat.add_sub_cancel]
    have begun := shows_carryOut (h.begin (Visit.create id l.record n.name n.kind t)) inside
      rfl rfl rfl rfl
    rw [h.run_begin] at begun
    dsimp only
    rw [place, pushed.node_eq]
    exact begun

/-! ### The whole run -/

/-- Both look at the same signal. -/
theorem shows_look (h : l.Kept d) : Shows (Kept d) Eq l.look l.run.look :=
  .asks h fun _ => .asks h fun _ => .done rfl

/-- A cancellation between two nodes finds no node open. -/
theorem shows_stopCanceled (h : l.Closed d) :
    Shows (Kept d) (With (Closed d)) l.stopCanceled l.run.stopCanceled := by
  refine (shows_markCanceled h.toKept h.last).bind ?_
  rintro l' r' ⟨rfl, closed⟩
  refine closed.shows_saveAnyway.bind ?_
  intro l'' r'' same
  exact .done ⟨rfl, same⟩

/-- The status of the run is nothing to its nodes. -/
theorem Closed.withStatus (h : l.Closed d) (s : Status) : (l.withStatus s).Closed d :=
  ⟨⟨h.definition, h.absent, h.present, h.earlier⟩, h.settled⟩

/-- At the end of the path no node is open either. -/
theorem shows_arrive {ok : Bool} (h : l.Closed d) :
    Shows (Kept d) (With (Closed d)) (l.arrive ok) (l.run.arrive ok) := by
  refine (shows_look h.toKept).bind ?_
  rintro signal _ rfl
  by_cases fired : signal.fired = true
  · rw [if_pos fired, if_pos fired]
    refine (shows_markCanceled h.toKept h.last).bind ?_
    intro l' r' same
    exact .done ⟨rfl, same⟩
  · rw [if_neg fired, if_neg fired]
    refine .done ⟨rfl, ?_⟩
    change Of _ (if l.record.status = .canceled then _ else _)
      (if l.record.status = .canceled then _ else _)
    split
    · exact ⟨rfl, h⟩
    · exact ⟨rfl, h.withStatus _⟩

/-- To keep the last error of a run is to read its nodes, -/
theorem Closed.keepError (h : l.Closed d) : l.keepError.Closed d :=
  ⟨⟨h.definition, h.absent, h.present, h.earlier⟩, h.settled⟩

/-- and the last error is the same in both. -/
theorem Kept.run_keepError (h : l.Kept d) : l.keepError.run = l.run.keepError := by
  rw [Logbook.keepError, h.current_run]
  rfl

/-- They agree on the walk, by induction over the nodes that are left: each step begins and ends
without an open node. -/
theorem shows_walk {nodes : List NodeSpec} {target : Option String} {ok : Bool}
    (inside : ∀ n ∈ nodes, n ∈ d.nodes) (h : l.Closed d) :
    Shows (Kept d) (With (Closed d)) (walk nodes target ok l) (Run.walk nodes target ok l.run) := by
  induction nodes generalizing target ok l with
  | nil => exact shows_arrive h
  | cons n nodes ih =>
    obtain ⟨here, behind⟩ := List.forall_mem_cons.1 inside
    cases target with
    | none => exact shows_arrive h
    | some name =>
      rw [walk, Run.walk]
      by_cases own : n.name = name
      · rw [if_pos own, if_pos own]
        refine (shows_look h.toKept).bind ?_
        rintro signal _ rfl
        by_cases fired : signal.fired = true
        · rw [if_pos fired, if_pos fired]
          exact shows_stopCanceled h
        · rw [if_neg fired, if_neg fired]
          refine (shows_step h here).bind ?_
          rintro ⟨course, l'⟩ ⟨_, _⟩ ⟨rfl, rfl, closed⟩
          cases course with
          | advance => exact ih behind closed
          | recover =>
            -- what is kept as the last error is looked up at the place of the current visit
            have failed : Shows (Kept d) (With (Closed d)) (walk nodes n.onFail false l'.keepError)
                (Run.walk nodes n.onFail false l'.keepError.run) := ih behind closed.keepError
            rw [closed.run_keepError] at failed
            exact failed
          | stop => exact .done ⟨rfl, rfl, closed⟩
      · rw [if_neg own, if_neg own]
        exact ih behind h

/-- To complete the run leaves its nodes alone, -/
theorem Closed.complete (h : l.Closed d) (success : Bool) : (l.complete success).Closed d := by
  rw [Logbook.complete]
  split
  · exact h
  · exact h.withStatus _

/-- and is the same for both. -/
theorem run_complete (l : Logbook) (success : Bool) :
    (l.complete success).run = l.run.complete success := by
  rw [complete, Run.complete]
  change _ = (if l.record.status = .canceled then _ else _)
  split
  · rfl
  · rfl

/-- They agree on what is done at the end, -/
theorem shows_close {ok : Bool} (h : l.Closed d) :
    Shows (Kept d) (With (Closed d)) (l.close ok) (l.run.close ok) := by
  have completed {l' : Logbook} {r' : Run} (same : Of (Closed d) l' r') :
      Shows (Kept d) (With (Closed d)) ((l'.complete ok).saveAnyway.bind fun l => .done (ok, l))
        ((r'.complete ok).saveAnyway.bind fun r => .done (ok, r)) := by
    obtain ⟨rfl, closed⟩ := same
    rw [← run_complete]
    refine (closed.complete ok).shows_saveAnyway.bind ?_
    intro l'' r'' same
    exact .done ⟨rfl, same⟩
  refine .asks h.toKept ?_
  intro signal
  change Shows _ _ (if signal.fired && l.record.status != .canceled then _ else _)
    (if signal.fired && l.record.status != .canceled then _ else _)
  split
  · exact (shows_markCanceled h.toKept h.last).bind fun _ _ => completed
  · exact completed ⟨rfl, h⟩

/-- and so on a whole run, -/
theorem shows_start (h : l.Closed d) :
    Shows (Kept d) (With (Closed d)) l.start l.run.start := by
  have inside : ∀ n ∈ l.definition.nodes, n ∈ d.nodes := by
    intro n hn
    exact h.definition ▸ hn
  refine (shows_walk inside (h.withStatus .processing)).bind ?_
  rintro ⟨ok, l'⟩ ⟨_, _⟩ ⟨rfl, rfl, closed⟩
  exact shows_close closed

/-- and on a run that is given up before it has begun. -/
theorem shows_destroy (h : l.Closed d) :
    Shows (Kept d) (Of (Closed d)) l.destroy l.run.destroy := by
  refine (shows_markCanceled h.toKept h.last).bind ?_
  rintro l' r' ⟨rfl, closed⟩
  exact closed.shows_saveAnyway

end

/-! ## After all calls -/

/-- The logbook when some calls have returned, one after the other. -/
inductive Rests (l₀ : Logbook) : Logbook → Prop where
  /-- nothing was called -/
  | fresh : Rests l₀ l₀
  /-- the run was executed -/
  | start {l l' : Logbook} {ok : Bool} (rests : Rests l₀ l) (returns : l.start.Returns (ok, l')) :
    Rests l₀ l'
  /-- it was canceled -/
  | destroy {l l' : Logbook} (rests : Rests l₀ l) (returns : l.destroy.Returns l') : Rests l₀ l'
  /-- it was given its final status -/
  | complete {l : Logbook} (rests : Rests l₀ l) (success : Bool) : Rests l₀ (l.complete success)
  /-- a value of its context was set -/
  | addContext {l : Logbook} (rests : Rests l₀ l) (key : String) (value : Json) :
    Rests l₀ (l.addContext key value)

/-- Between two calls no node is open, whatever was called before. -/
theorem Rests.closed {l₀ : Logbook} (rests : l₀.Rests l) (first : l₀.Closed d) : l.Closed d := by
  induction rests with
  | fresh => exact first
  | start _ returns ih =>
    obtain ⟨b, -, -, closed⟩ := (shows_start ih).exists_of_returns returns
    exact closed
  | destroy _ returns ih =>
    obtain ⟨b, -, closed⟩ := (shows_destroy ih).exists_of_returns returns
    exact closed
  | complete _ success ih => exact ih.complete success
  | addContext _ key value ih =>
    exact ⟨⟨ih.definition, ih.absent, ih.present, ih.earlier⟩, ih.settled⟩

/-- What is seen of a start is the start of the run, -/
theorem Closed.bare_start (h : l.Closed d) :
    l.start.bare (fun a => (a.1, a.2.run)) = l.run.start := by
  refine (shows_start h).bare_eq ?_
  rintro ⟨ok, l'⟩ ⟨ok', r'⟩ ⟨rfl, rfl, -⟩
  rfl

/-- and so it is with a run that is given up. -/
theorem Closed.bare_destroy (h : l.Closed d) : l.destroy.bare run = l.run.destroy := by
  refine (shows_destroy h).bare_eq ?_
  rintro l' r' ⟨rfl, -⟩
  rfl

/-- Every run that some calls lead to has such a logbook. -/
theorem Rests.exists_of_undergoes {l₀ : Logbook} {pace : Pace} {t u : Trace} {cs : List RunCall}
    {r r' : Run} (rests : l₀.Rests l) (first : l₀.Closed d) (same : l.run = r)
    (undergoes : r.Undergoes pace t cs r' u) : ∃ l', l₀.Rests l' ∧ l'.run = r' := by
  induction undergoes generalizing l with
  | refl => exact ⟨l, rests, same⟩
  | called c _ ih => exact ih rests same
  | call returns _ ih =>
    subst same
    have closed := rests.closed first
    cases returns with
    | start ends =>
      rw [← closed.bare_start] at ends
      obtain ⟨⟨ok, l'⟩, returns, value⟩ := exists_returns_of_ends ends
      cases value
      exact ih (.start rests returns) rfl
    | destroy ends =>
      rw [← closed.bare_destroy] at ends
      obtain ⟨l', returns, rfl⟩ := exists_returns_of_ends ends
      exact ih (.destroy rests returns) rfl
    | complete success => exact ih (.complete rests success) (l.run_complete success)
    | addContext key value => exact ih (.addContext rests key value) rfl

/-- What holds of a logbook when its calls have returned, and at each step of the next one. -/
structure Sound (d : Definition) (l : Logbook) : Prop where
  /-- the current visit is the last one, and all visits have ended -/
  closed : l.Closed d
  /-- none is at work -/
  inactive : ∀ v ∈ l.nodes, v.isActive = false
  /-- if executors change no more than they may, only a polling node that its executor has finished
  has no time of its end -/
  timed : (∀ n ∈ d.nodes, n.Modest) → ∀ v ∈ l.nodes, v.endTime = none →
    v.kind = .polling ∧ v.SelfEnded d
  /-- at each step the current visit is the last one, and those before it have ended -/
  steps : ∀ l', l.start.Passes l' ∨ l.destroy.Passes l' → l'.Kept d
  /-- the current visit is always found at its place -/
  indexed : ¬l.start.Strays ∧ ¬l.destroy.Strays
  /-- to start it is to start the run -/
  start : l.start.bare (fun a => (a.1, a.2.run)) = l.run.start
  /-- to destroy it is to destroy the run -/
  destroy : l.destroy.bare run = l.run.destroy

/-- If no node is open, every index in use has its node: the last one is the only one that could
have been in use. -/
theorem Closed.sound (h : l.Closed d) : l.Sound d where
  closed := h
  inactive v hv := (h.settled v hv).not_isActive
  timed modest v hv untimed := by
    have selfEnded := (h.settled v hv).timed untimed
    obtain ⟨n, hn, polling, begun, context, left, -, -, -, kind, leaves, rfl⟩ := selfEnded.left
    have revises := leaves.of_everywhere (modest n hn ⟨begun, context⟩)
    refine ⟨?_, selfEnded⟩
    rw [revises, ← polling, ← kind]
  steps l' := by
    rintro (passes | passes)
    · exact (shows_start h).of_passes passes
    · exact (shows_destroy h).of_passes passes
  indexed := ⟨(shows_start h).not_strays, (shows_destroy h).not_strays⟩
  start := h.bare_start
  destroy := h.bare_destroy

end Logbook

/-- At most the last visit of a run is at work: at each step of a start or a destroy, whatever calls
there were before, and in the end none is. Every run that some calls lead to has a logbook. -/
theorem logbook_sound (record : RunRecord) (d : Definition) (settings : Settings)
    (caller : Caller) :
    (∀ l, (Logbook.create record d settings caller).Rests l → l.Sound d) ∧
    ∀ pace t cs r u, (Run.create record d settings caller).Undergoes pace t cs r u →
      ∃ l, (Logbook.create record d settings caller).Rests l ∧ l.run = r := by
  have first := Logbook.closed_create record d settings caller
  constructor
  · intro l rests
    exact (rests.closed first).sound
  · intro pace t cs r u undergoes
    exact Logbook.Rests.fresh.exists_of_undergoes first rfl undergoes

/-- A run that waits in its only node. -/
def Logbook.vigil : Logbook := .create Run.vigil.record .vigil Run.vigil.settings default

/-- Its visit is at work while it waits, and has ended when the run was canceled meanwhile. -/
theorem vigil_logbook : ∃ l l', Logbook.vigil.start.Passes l ∧ Logbook.vigil.Rests l' ∧
    l.nodes.map Visit.status = [.processing] ∧ l'.nodes.map Visit.status = [.error] ∧
      l.Kept .vigil ∧ l'.Sound .vigil := by
  have sound := (logbook_sound Run.vigil.record .vigil Run.vigil.settings default).1
  have now : Instant := .ofMicros 0
  have passes : Logbook.vigil.start.Passes _ :=
    .answered () (.answered .quiet (.answered "1" (.answered now (.answered (.ok ())
      (.answered now (.answered (.ok ()) (.answered .quiet (.answered (0 : Nat)
        (.answered () .waits)))))))))
  have returns : Logbook.vigil.start.Returns _ :=
    .answered () (.answered .quiet (.answered "1" (.answered now (.answered (.ok ())
      (.answered now (.answered (.ok ()) (.answered .quiet (.answered (0 : Nat) (.answered ()
        (.woken .signalled (.answered ⟨true, none⟩ (.answered now (.answered ⟨true, none⟩
          (.answered now (.answered (.ok ()) (.answered ⟨true, none⟩ (.answered now
            (.answered (.ok ()) .done))))))))))))))))))
  have rests := Logbook.Rests.start .fresh returns
  exact ⟨_, _, passes, rests, rfl, rfl, (sound _ .fresh).steps _ (.inl passes), sound _ rests⟩

end Runbook
