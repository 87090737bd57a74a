import Runbook.Proofs.Conduct
import Runbook.Proofs.Reporting

/-!
# Operations that the oracle is asked about

An executor gives the visit of its node the operation that the oracle is asked about afterwards.
Nothing is written while a node polls, so the store has no operation of that visit before the
polling is over.

* `Definition.Orders` — the executor of a polling node gives its visit an operation.
* `Trace.Awaits`, `Trace.Inquired` — the oracle was asked only about such operations, and the visits
  have them.
* `Run.Tracked`, `Run.endures_tracked` — this holds of a run at every place of its walk.
* `Program.Unrecorded`, `Run.unrecorded_of_start` — what the store has where the oracle is asked.
-/

namespace Runbook

open Program

/-! ## Operations that executors give -/

/-- The visit of the scene is one of a polling node of the procedure, and has no operation until the
executor of the node, which begins with that scene, gives it this one. -/
structure Definition.Orders (d : Definition) (scene : Scene) (operation : String) : Prop where
  /-- the node polls -/
  kind : scene.visit.kind = .polling
  /-- the visit has no operation -/
  unnamed : scene.visit.operationId = ""
  /-- it gets one -/
  named : operation ≠ ""
  /-- from the executor of the node -/
  given : ∃ n, d.node? scene.visit.name = some n ∧
    ∃ left, (n.executor scene).Leaves left ∧ left.visit.operationId = operation

namespace Request

/-- The operation that the oracle is asked about. -/
def operation? : Request → Option String
  | beginQuery operation | query operation => some operation
  | _ => none

/-- Whether a visit is entered. -/
def creates : Request → Bool
  | createVisit _ => true
  | _ => false

theorem creates_of_enters {r : Request} (h : r.enters = false) : r.creates = false := by
  cases r with
  | createVisit => cases h
  | _ => rfl

/-- Keeping records asks about no operation, and enters no visit. -/
theorem aside_of_isClerical {r : Request} (h : r.isClerical = true) :
    r.operation? = none ∧ r.creates = false := by
  cases r with
  | beginQuery | query | createVisit => cases h
  | _ => exact ⟨rfl, rfl⟩

/-- To ask about an operation belongs to the work of a node. -/
theorem isWork_of_operation? {r : Request} {operation : String}
    (h : r.operation? = some operation) : r.isWork = true := by
  cases r with
  | beginQuery | query => rfl
  | _ => cases h

theorem Within.operation {r : Request} {c : Conduct} {operation : String} (h : r.Within c)
    (asks : r.operation? = some operation) : c.operations operation := by
  cases r with
  | beginQuery | query =>
    obtain rfl := Option.some.inj asks
    exact h
  | _ => cases asks

end Request

namespace Trace

variable {d : Definition} {operations : List String} {t u : Trace} {e : Incident}
  {operation : String}

theorem Adds.entered_eq (h : t.Adds (·.creates = false) u) : u.entered = t.entered := by
  obtain ⟨new, rfl, asks⟩ := h
  induction new with
  | nil => rfl
  | cons e new ih =>
    have rest := ih fun r x inside => asks r x (List.mem_cons_of_mem _ inside)
    cases e with
    | asked r x =>
      have here := asks r x List.mem_cons_self
      cases r with
      | createVisit => cases here
      | _ => exact rest
    | _ => exact rest

/-- A visit that is entered is the latest one, and its executor has not begun. -/
theorem Answers.entered_createVisit {pace : Pace} {v : Visit} {w : Written}
    (h : t.Answers pace (.createVisit v) w u) :
    u.found? = none ∧ u.entered = t.entered ++ [v.id] := by
  obtain ⟨cs, -, -, rfl⟩ := h
  constructor
  · exact (rests_calls cs).found
  · exact (Adds.calls cs).entered_eq

/-- The executor of the latest visit has given it that operation, and it has it among these. -/
structure Awaits (d : Definition) (operations : List String) (t : Trace) (operation : String) :
    Prop where
  /-- the executor has begun -/
  given : ∃ scene, t.found? = some scene ∧ d.Orders scene operation
  /-- the visit has the operation -/
  held : operations[t.entered.length - 1]? = some operation

/-- The oracle was asked only about the operation of the latest visit then. -/
def Inquired (d : Definition) (operations : List String) (t : Trace) : Prop :=
  ∀ (e : Incident) (earlier : Trace), e :: earlier <:+ t → ∀ r x operation, e = .asked r x →
    r.operation? = some operation → earlier.Awaits d operations operation

/-- All that the oracle was asked about can be traced to a visit. -/
def Traceable (d : Definition) (t : Trace) : Prop := ∃ operations, t.Inquired d operations

theorem inquired_cons : Inquired d operations (e :: t) ↔
    (∀ r x operation, e = .asked r x → r.operation? = some operation →
      t.Awaits d operations operation) ∧ t.Inquired d operations :=
  forall_cons_suffix

theorem Awaits.adds (h : t.Awaits d operations operation) (adds : t.Adds (·.enters = false) u) :
    u.Awaits d operations operation := by
  obtain ⟨given, held⟩ := h
  rw [← adds.rests.found] at given
  rw [← (adds.mono fun _ => Request.creates_of_enters).entered_eq] at held
  exact ⟨given, held⟩

/-- More visits do not matter. -/
theorem Inquired.append (h : t.Inquired d operations) (more : List String) :
    t.Inquired d (operations ++ more) := by
  intro e earlier hs r x operation asked asks
  obtain ⟨given, held⟩ := h e earlier hs r x operation asked asks
  exact ⟨given, List.getElem?_append_left (List.getElem?_eq_some_iff.1 held).1 ▸ held⟩

/-- So it is if nothing is asked about operations. -/
theorem Inquired.quiet (h : t.Inquired d operations) (adds : t.Adds (·.operation? = none) u) :
    u.Inquired d operations := by
  obtain ⟨new, rfl, asks⟩ := adds
  induction new with
  | nil => exact h
  | cons e new ih =>
    refine inquired_cons.2 ⟨?_, ih fun r x inside => asks r x (List.mem_cons_of_mem _ inside)⟩
    rintro r x operation rfl asked
    rw [asks r x List.mem_cons_self] at asked
    cases asked

/-- So it is if the oracle is asked about the operation of the latest visit. -/
theorem Inquired.polled (h : t.Inquired d operations)
    (adds : t.Adds (fun r => r.enters = false ∧
      ∀ operation, r.operation? = some operation → t.Awaits d operations operation) u) :
    u.Inquired d operations := by
  obtain ⟨new, rfl, asks⟩ := adds
  induction new with
  | nil => exact h
  | cons e new ih =>
    have before (r x) (inside : .asked r x ∈ new) := asks r x (List.mem_cons_of_mem _ inside)
    -- nothing is begun in between, so the latest visit is still the same
    refine inquired_cons.2 ⟨?_, ih before⟩
    rintro r x operation rfl asked
    have awaits := (asks r x List.mem_cons_self).2 operation asked
    exact awaits.adds ⟨new, rfl, fun r x inside => (before r x inside).1⟩

end Trace

/-! ## Programs -/

/-- Any acts, and queries about that operation if it is one. -/
def Conduct.inquiring (operation : String) : Conduct :=
  ⟨fun _ => True, fun asked => asked = operation ∧ asked ≠ ""⟩

namespace Program

variable {α : Type} {c : Conduct} {run : String} {P : α → Ledger → Prop} {p : Program α}
  {l : Ledger}

/-- A program that accounts for its visits keeps to its conduct. -/
theorem Proper.only (h : p.Proper c run P l) : p.Only (·.Within c) fun _ => True := by
  induction p generalizing l with
  | done | panic => trivial
  | ask r next ih => exact ⟨h.1.1, fun x => ih x (h.2 x)⟩
  | pause p next ih => exact fun w => ih w (h w)

end Program

namespace Run

variable {r r' : Run} {n : NodeSpec} {v : Visit} {pace : Pace} {t u : Trace} {d : Definition}

/-- Polling begins nothing, and asks only about the operation of the visit. -/
theorem only_poll : (r.poll v).Only (fun q => q.enters = false ∧
    ∀ operation, q.operation? = some operation → operation = v.operationId ∧ operation ≠ "")
      fun _ => True := by
  have within : (r.poll v).Proper (.inquiring v.operationId) r.id
      (fun _ l => l = ⟨none, []⟩) ⟨none, []⟩ :=
    proper_poll fun named => ⟨rfl, by simpa using named⟩
  refine (plain_poll.stays.and within.only).mono ?_ fun _ _ => trivial
  exact fun q h => ⟨h.1, fun operation asks => h.2.operation asks⟩

/-- An executor asks about no operation, and enters no visit. -/
theorem only_execute : (r.execute n v).Only (fun q => q.operation? = none ∧ q.creates = false)
    fun _ => True := by
  refine ⟨⟨rfl, rfl⟩, fun signal => ?_⟩
  dsimp only [done_bind]
  split
  · trivial
  · refine ⟨⟨rfl, rfl⟩, fun clock => ⟨⟨rfl, rfl⟩, fun _ => ?_⟩⟩
    refine (Execution.only_program _).mono ?_ (fun _ h => h) |>.bind fun _ _ =>
      ⟨⟨rfl, rfl⟩, fun _ => trivial⟩
    rintro _ ⟨act, rfl⟩
    exact ⟨rfl, rfl⟩

/-! ## Runs -/

/-- The oracle was asked only about operations that the visits of the run have, and these are all
the visits that were entered. -/
structure Tracked (d : Definition) (r : Run) (t : Trace) : Prop where
  /-- what it was asked about -/
  inquired : t.Inquired d r.operations
  /-- the visits -/
  entered : t.entered.length = r.operations.length

theorem Tracked.clerical (h : Tracked d r t) (adds : t.Adds (·.isClerical = true) u)
    (same : Noted r r') : Tracked d r' u := by
  have aside := adds.mono fun _ => Request.aside_of_isClerical
  refine ⟨?_, ?_⟩
  · rw [same.operations]
    exact h.inquired.quiet (aside.mono fun _ q => q.1)
  · rw [same.operations, (aside.mono fun _ q => q.2).entered_eq, h.entered]

theorem Tracked.records {p : Program (Course × Run)} (h : Tracked d r t)
    (records : p.Records fun a => Noted r a.2) :
    p.Ensures pace (Behind (Tracked d) (Trace.Traceable d)) t :=
  ensures_behind records (fun _ _ => h.clerical) fun _ adds => ⟨_, (h.clerical adds .refl).inquired⟩

/-- If the executor has given the visit an operation, that is asked about. -/
theorem ensures_settleVisit_tracked (h : Tracked d r t)
    (awaits : n.kind = .polling → v.operationId ≠ "" →
      t.Awaits d r.operations v.operationId) :
    (r.settleVisit n v).Ensures pace (Behind (Tracked d) (Trace.Traceable d)) t := by
  rw [settleVisit]
  split
  · exact h.records records_succeedWith
  · next polls =>
    split
    · exact h
    · refine ensures_bind.2 (only_poll.ensures.mono ?_)
      rintro o u ⟨adds, -⟩
      have visits : t.Adds (·.creates = false) u :=
        adds.mono fun _ asks => Request.creates_of_enters asks.1
      have inquired : u.Inquired d r.operations := by
        refine h.inquired.polled (adds.mono fun q asks => ⟨asks.1, fun operation asked => ?_⟩)
        obtain ⟨rfl, named⟩ := asks.2 operation asked
        exact awaits polls named
      have tracked : Tracked d r u := ⟨inquired, visits.entered_eq ▸ h.entered⟩
      cases o with
      | none => exact ⟨_, inquired⟩
      | some result =>
        cases result with
        | ok payload => exact tracked.records records_succeedWith
        | error f => exact tracked.records records_failWith

/-- One more visit than those with the operations `front` was entered, and has that operation. The
oracle was not asked about it. -/
structure Entered (d : Definition) (front : List String) (operation : String) (r : Run)
    (t : Trace) : Prop where
  /-- it was asked about the earlier ones only -/
  inquired : t.Inquired d front
  /-- the run has one more operation -/
  operations : r.operations = front ++ [operation]
  /-- the trace has one more visit -/
  length : t.entered.length = front.length + 1

theorem Entered.tracked {front : List String} {operation : String}
    (h : Entered d front operation r t) : Tracked d r t where
  inquired := h.operations ▸ h.inquired.append _
  entered := by rw [h.operations, h.length, List.length_append, List.length_singleton]

/-- The operation may change as long as the oracle is not asked. -/
theorem Entered.aside {front : List String} {operation operation' : String}
    (h : Entered d front operation r t)
    (adds : t.Adds (fun q => q.operation? = none ∧ q.creates = false) u)
    (same : r'.operations = front ++ [operation']) : Entered d front operation' r' u where
  inquired := h.inquired.quiet (adds.mono fun _ q => q.1)
  operations := same
  length := by rw [(adds.mono fun _ q => q.2).entered_eq, h.length]

/-- The operation that an executor has left is that of the visit, and is asked about if the node
polls. -/
theorem ensures_work_tracked {front : List String} (h : Entered d front "" r t)
    (idle : t.found? = none) (unnamed : v.operationId = "") (kind : v.kind = n.kind)
    (here : d.node? v.name = some n) :
    ((r.execute n v).bind fun a => match a.2.1 with
      | some f => a.2.2.failWith f
      | none => a.2.2.settleVisit n a.1).Ensures pace
      (Behind (Tracked d) (Trace.Traceable d)) t := by
  refine ensures_bind.2 (((ensures_execute_worked idle).and only_execute.ensures).mono ?_)
  rintro (_ | a) u ⟨worked, adds, -⟩
  · exact ⟨_, (h.aside adds h.operations).tracked.inquired⟩
  · have worked := worked _ rfl
    generalize begun : u.found? = found at worked
    cases worked with
    | idle => exact (h.aside adds h.operations).tracked.records records_failWith
    | @begun failure left leaves =>
      -- the scene that is handed over has the operation, and now the run has it, too
      have hands : Entered d front left.visit.operationId (r.handed left) u :=
        h.aside adds (operations_replace left.visit h.operations)
      cases failure with
      | some f => exact hands.tracked.records records_failWith
      | none =>
        refine ensures_settleVisit_tracked hands.tracked fun polls named => ⟨⟨_, begun, ?_⟩, ?_⟩
        · exact ⟨kind.trans polls, unnamed, named, n, here, left, leaves, rfl⟩
        · dsimp only
          rw [hands.operations, hands.length]
          simp

/-- So a node asks about the operation of its own visit. -/
theorem ensures_step_tracked (h : Tracked d r t) (here : d.node? n.name = some n) :
    (r.step n).Ensures pace (Behind (Tracked d) (Trace.Traceable d)) t := by
  refine ensures_asked.2 fun id t₁ h₁ => ensures_asked.2 fun now t₂ h₂ =>
    ensures_asked.2 fun created t₃ h₃ => ?_
  obtain ⟨idle, entered⟩ := h₃.entered_createVisit
  have before : t₂.entered = t.entered :=
    (Trace.Adds.entered_eq (h₂.adds rfl)).trans (Trace.Adds.entered_eq (h₁.adds rfl))
  -- the visit has no operation before its executor begins
  have enters {r' : Run} (same : r'.operations = r.operations ++ [""]) :
      Entered d r.operations "" r' t₃ := by
    refine ⟨((h.inquired.quiet (h₁.adds rfl)).quiet (h₂.adds rfl)).quiet (h₃.adds rfl), same, ?_⟩
    rw [entered, before, List.length_append, h.entered, List.length_singleton]
  split
  · exact (enters (operations_enter _)).tracked.records records_afterFailure
  · have begun : Entered d r.operations ""
        (r.enter (Visit.create id r.record n.name n.kind now).processing) t₃ :=
      enters (operations_enter _)
    refine ensures_bind.2 (records_save.ensures.mono ?_)
    rintro o u ⟨adds, noted⟩
    have aside := adds.mono fun _ => Request.aside_of_isClerical
    obtain _ | ⟨saved, r'⟩ := o
    · exact ⟨_, (begun.aside aside begun.operations).inquired⟩
    · have saves : Entered d r.operations "" r' u :=
        begun.aside aside ((noted _ rfl).operations.trans begun.operations)
      dsimp only
      split
      · exact saves.tracked.records records_failWith
      · refine ensures_work_tracked saves ?_ rfl rfl here
        rw [(adds.mono fun _ => Request.enters_of_isClerical).rests.found, idle]

/-- So it is at every place of a walk. -/
theorem endures_tracked (pace : Pace) (d : Definition) :
    Endures pace d (Tracked d) (Trace.Traceable d) where
  kept := .clerical
  more h := ⟨_, h.inquired⟩
  steps := ensures_step_tracked

theorem ensures_start_tracked (before : List SignalCall) (fresh : r.trail = []) :
    r.start.Ensures pace (Behind (Tracked r.definition) (Trace.Traceable r.definition))
      (.calls before) := by
  refine (endures_tracked pace r.definition).ensures_start ?_
  have nothing : Tracked r.definition (r.withStatus .processing) [] := by
    refine ⟨fun e earlier hs => by simpa using hs.length_le, ?_⟩
    simp [Trace.entered, operations, visits, withStatus, fresh]
  simpa using nothing.clerical (.calls before) .refl

end Run

/-! ## What is stored -/

/-- The program is about to ask the oracle about the operation. -/
def Program.Asks {α : Type} (operation : String) : Program α → Prop
  | .ask r _ => r.operation? = some operation
  | _ => False

namespace Program.Asks

variable {α : Type} {operation : String} {q : Program α} {pace : Pace} {u x : Trace} {o : Option α}

theorem atWork (h : q.Asks operation) : q.AtWork := by
  cases q with
  | ask r next => exact Request.isWork_of_operation? h
  | _ => cases h

/-- So it asks, however it goes on. -/
theorem exists_asked (h : q.Asks operation) (ends : q.Ends pace u o x) :
    ∃ r y, r.operation? = some operation ∧ Incident.asked r y :: u <:+ x := by
  cases q with
  | ask r next =>
    obtain ⟨y, v, ⟨cs, -, -, rfl⟩, ends⟩ := ends_ask.1 ends
    exact ⟨r, y, h, (List.suffix_append _ _).trans ends.suffix⟩
  | _ => cases h

end Program.Asks

/-- The scene of the latest mark, if that is the start of an executor. -/
theorem Trace.found?_of_head {t : Trace} {run : String} {scene : Scene}
    (h : t.marks.head? = some (.asked (.atWork run scene) ())) : t.found? = some scene := by
  induction t with
  | nil => cases h
  | cons e t ih =>
    cases e with
    | asked r x =>
      cases r with
      | createVisit | update => cases h
      | atWork run' scene' =>
        cases h
        rfl
      | _ => exact ih h
    | _ => exact ih h

/-- What is stored of a run of the procedure where the program, after the trace, is about to ask
about the operation. -/
structure Program.Unrecorded (pace : Pace) (d : Definition) (operation : String)
    (q : Program (Bool × Run)) (u : Trace) (detail : RunDetail) : Prop where
  /-- the run is at work -/
  status : detail.run.status = .processing
  /-- the last visit is the one at work, and its executor has given it the operation; but it is
  stored without, and only the run has it, however that goes on -/
  visits : ∃ front v context, detail.visits = front ++ [v] ∧ v.status = .processing ∧
    detail.run.context = context.snapshot ∧ d.Orders ⟨v, context⟩ operation ∧
    ∀ ok r' x, q.Ends pace u (some (ok, r')) x → ∃ w back, r'.visits = front ++ w :: back ∧
      v.Same w ∧ w.operationId = operation

namespace Run

variable {r : Run} {m₀ : Memory} {record : RunRecord}

/-- If every write has worked, the store in memory has no operation of the visit whose operation the
oracle is asked about. -/
theorem unrecorded_of_start (pace : Pace) (before : List SignalCall) (fresh : r.trail = [])
    (tame : ∀ n ∈ r.definition.nodes, n.Tame) (stored : m₀.detail r.id = some ⟨record, [], []⟩) :
    ∀ q operation u m, r.start.Leads pace (.calls before) q u → q.Asks operation →
      m₀.Serves r.id u m → u.Clean → ∃ detail, m.detail r.id = some detail ∧
        q.Unrecorded pace r.definition operation u detail := by
  intro q operation u m leads asks serves clean
  have closed := (ensures_closed pace before fresh).of_leads leads
  have tracked := (ensures_start_tracked before fresh).of_leads leads
  obtain ⟨front, v, processing, begun, listing⟩ :=
    exists_begun asks.atWork ((ensures_regular pace before fresh tame).of_leads leads)
  obtain ⟨detail, freshly⟩ := serves.marks.detail_eq stored listing.own
  obtain ⟨record', context, kept, entered, status, head, snapshot⟩ :=
    begun.kept rfl listing freshly (Trace.clean_marks.2 clean)
  rw [kept] at detail
  refine ⟨_, detail, status, front, v, context, rfl, processing, snapshot, ?_,
    fun ok r' x ends => ?_⟩
  -- the query itself is not in the trace yet, but in that of every end
  · obtain ⟨o, x, ends⟩ := exists_ends pace q u
    have traceable : x.Traceable r.definition := by
      have behind := ensures_iff.1 tracked o x ends
      cases o with
      | none => exact behind
      | some a => exact ⟨_, behind.inquired⟩
    obtain ⟨operations, inquired⟩ := traceable
    obtain ⟨s, y, asked, before⟩ := asks.exists_asked ends
    obtain ⟨⟨scene, found, orders⟩, -⟩ := inquired _ _ before s y operation rfl asked
    obtain rfl := Option.some.inj ((Trace.found?_of_head head).symm.trans found)
    exact orders
  · obtain ⟨w, back, visits, same⟩ :=
      (ensures_iff.1 closed _ x ends).extends_begun tame begun (ends.suffix.filter _)
    refine ⟨w, back, visits, same, ?_⟩
    have behind : Tracked r.definition r' x := ensures_iff.1 tracked _ x ends
    obtain ⟨s, y, asked, before⟩ := asks.exists_asked ends
    have held := (behind.inquired _ _ before s y operation rfl asked).held
    -- as many visits were entered as there are in `front`, and one more
    rw [← u.entered_marks, entered, operations, visits] at held
    simpa using held

end Run

/-! ### A run that polls -/

namespace Program

variable {α : Type} {operation : String} {q : Program α} {u : Trace} {m₀ m : Memory} {run : String}

/-- The operation that the program asks about once the time has come, if nothing else happens. -/
def due? : Program α → Option String
  | .ask .clock next => due? (next (0 : Nat))
  | .ask (.signal _) next => due? (next .quiet)
  | .ask r _ => r.operation?
  | .pause _ next => due? (next .due)
  | .done _ | .panic => none

/-- It comes to ask about that. -/
theorem exists_asks_of_due (h : q.due? = some operation) (quiet : u.signal = .quiet)
    (serves : m₀.Serves run u m) (clean : u.Clean) : ∃ q' u', q.Leads .prompt u q' u' ∧
      q'.Asks operation ∧ m₀.Serves run u' m ∧ u'.Clean := by
  induction q generalizing u with
  | done | panic => cases h
  | ask r next ih =>
    cases r with
    | clock =>
      obtain ⟨q', u', leads, rest⟩ := ih (0 : Nat) (u := .asked .clock (0 : Nat) :: u) h quiet
        (serves.unwritten rfl) (Trace.clean_cons.2 ⟨rfl, clean⟩)
      exact ⟨q', u', .ask ⟨[], .inl rfl, trivial, rfl⟩ leads, rest⟩
    | signal run' =>
      obtain ⟨q', u', leads, rest⟩ := ih Signal.quiet (u := .asked (.signal run') Signal.quiet :: u)
        h quiet (serves.unwritten rfl) (Trace.clean_cons.2 ⟨rfl, clean⟩)
      exact ⟨q', u', .ask ⟨[], .inl rfl, quiet.symm, rfl⟩ leads, rest⟩
    | _ => exact ⟨_, u, .here, h, serves, clean⟩
  | pause p next ih =>
    obtain ⟨q', u', leads, rest⟩ := ih .due (u := .passed p .due :: u) h quiet
      (serves.unwritten rfl) (Trace.clean_cons.2 ⟨rfl, clean⟩)
    have wakes : u.Wakes .prompt p .due (.passed p .due :: u) :=
      ⟨by simp, _, [], .inl rfl, rfl, .inl ⟨by simp, rfl⟩⟩
    exact ⟨q', u', .pause wakes leads, rest⟩

end Program

/-- The same of the program that a host has left waiting. -/
def Standing.due? {α : Type} : Standing α → Option String
  | .waiting _ next => (next .due).due?
  | _ => none

theorem Standing.Of.due {α : Type} {s : Standing α} {q : Program α} {operation : String}
    (h : s.Of q) (due : s.due? = some operation) : q.due? = some operation := by
  cases s with
  | waiting p next =>
    obtain ⟨p', rfl, -⟩ := h
    exact due
  | _ => cases due

/-- A procedure with one node, whose executor gives its visit an operation. -/
def Definition.inquiry : Definition where
  name := "inquiry"
  nodes := [⟨startName, .polling,
    fun scene => .finish { scene with visit := { scene.visit with operationId := "op" } } .done,
    none, none, none⟩]
  named := by decide
  nodesNamed := by simp [startName]
  distinct := by simp
  hasStart := by simp
  forward := ⟨by simp [NodeSpec.successors], trivial⟩

/-- A run of it that has not begun. -/
def Run.inquiry : Run :=
  .create (.create "1" "inquiry" "" "" "" (.ofMicros 0)) .inquiry vigil.settings default

/-- When the oracle is asked about that operation, the visit is stored without. -/
theorem Run.inquiry_unrecorded : ∃ q u, ∃ m : Memory,
    inquiry.start.Leads .prompt (.calls []) q u ∧ q.Asks "op" ∧ u.Clean ∧
    ∃ detail, m.detail inquiry.id = some detail ∧
      q.Unrecorded .prompt .inquiry "op" u detail := by
  obtain ⟨q, u, leads, stands, served, signal⟩ :=
    (Host.holding inquiry []).served_advance (r := inquiry) [] rfl
  have quiet : u.signal = .quiet := signal.symm.trans (by decide +kernel)
  have due : q.due? = some "op" := stands.due (by decide +kernel)
  have clean : u.Clean := by
    have worked : ((Host.execute inquiry []).2.noted).Clean := by decide +kernel
    rw [← Trace.clean_writes]
    exact (Trace.clean_append.1 (served.noted ▸ worked)).1
  obtain ⟨q', u', on, asks, serves, clean⟩ :=
    exists_asks_of_due due quiet served.store clean
  have tame (n : NodeSpec) (hn : n ∈ inquiry.definition.nodes) : n.Tame := by
    obtain rfl := List.mem_singleton.1 hn
    exact fun scene => rfl
  have whole := leads.trans on
  exact ⟨q', u', _, whole, asks, clean, unrecorded_of_start .prompt [] rfl tame
    (Host.detail_holding inquiry []) q' "op" u' _ whole asks serves clean⟩

end Runbook
