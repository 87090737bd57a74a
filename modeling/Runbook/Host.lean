import Runbook.Faults
import Runbook.Journal
import Runbook.Program
import Runbook.Store

/-!
# The host of runs

What the runs of an engine share, and how it answers them.

* `Host` — a store, an oracle, the signals of the runs, a clock, and a journal.
* A host is a store itself: its calls go to the store inside, unless they are
  made to fail, and its writes are noted.
* `Host.answer` — the answer to a request.
* `Host.advance` — carry on a program up to the next place where it has to wait.
-/

namespace Runbook

/-- What the runs of an engine share. -/
structure Host (σ : Type) where
  /-- the store -/
  store : σ
  /-- which calls to it fail -/
  faults : Faults
  /-- the oracle -/
  oracle : Oracle
  /-- the signals that were touched, by run -/
  signals : Catalog Signal
  /-- the runs that executors may cancel: the names they go by, and their IDs -/
  handedOut : List (String × String)
  /-- the milliseconds that have passed -/
  clock : Nat
  /-- how many times were read for records -/
  readings : Nat
  /-- how many IDs of runs were given -/
  runIds : Nat
  /-- how many IDs of visits were given -/
  visitIds : Nat
  /-- what happened, the latest first -/
  journal : List Entry

namespace Host

variable {σ α : Type}

/-- A host with a store at which nothing has happened. -/
def start (store : σ) : Host σ :=
  ⟨store, [], .empty, .empty, [], 0, 0, 0, 0, []⟩

/-- Note that something happened. -/
def log (h : Host σ) (o : Occurrence) : Host σ := { h with journal := ⟨h.clock, o⟩ :: h.journal }

/-! ## Times and IDs -/

/-- The microsecond before the first time that is read, 2026-03-14 15:09:26.535896
in UTC. It is arbitrary; all times that are read lie close behind it, and so
they can be told from the times in records that were not made here. -/
def epochMicros : Nat := 1773500966535896

/-- The time that is read when `n` others have been read. No two readings are
alike, and later ones are later. -/
def reading (n : Nat) : Instant := .ofMicros (epochMicros + n + 1)

/-- The time for a record. -/
def now (h : Host σ) : Instant × Host σ :=
  (reading h.readings, { h with readings := h.readings + 1 })

/-- What the IDs that a host gives begin with. A random UUID is given by nobody
else; here IDs are counted, and this arbitrary beginning of a UUID keeps them
apart from those that callers choose. -/
def idStart : String := "5b1f0c6e-9d43-"

/-- The ID of the `n`th run. -/
def runId (n : Nat) : String := idStart ++ toString n ++ "-run"

/-- The ID of the `n`th visit. -/
def visitId (n : Nat) : String := idStart ++ toString n ++ "-visit"

theorem eq_of_toString_eq {m n : Nat} (same : toString m = toString n) : m = n := by
  have digits : Nat.toDigits 10 m = Nat.toDigits 10 n := by
    simpa using congrArg String.toList same
  simpa using congrArg (Nat.ofDigitChars 10 · 0) digits

/-- No two runs get the same ID, -/
theorem runId_injective {m n : Nat} (same : runId m = runId n) : m = n := by
  rw [runId, runId, String.append_left_inj, String.append_right_inj] at same
  exact eq_of_toString_eq same

/-- and no two visits. -/
theorem visitId_injective {m n : Nat} (same : visitId m = visitId n) : m = n := by
  rw [visitId, visitId, String.append_left_inj, String.append_right_inj] at same
  exact eq_of_toString_eq same

/-- An ID for a run. -/
def newRunId (h : Host σ) : String × Host σ :=
  (runId (h.runIds + 1), { h with runIds := h.runIds + 1 })

/-- An ID for a visit. -/
def newVisitId (h : Host σ) : String × Host σ :=
  (visitId (h.visitIds + 1), { h with visitIds := h.visitIds + 1 })

/-! ## Signals -/

/-- The signal of a run. -/
def signal (h : Host σ) (run : String) : Signal := (h.signals.get? run).getD .quiet

/-- Cancel a run. -/
def cancel (h : Host σ) (run reason : String) : Host σ :=
  { h with signals := h.signals.insert run ((h.signal run).cancel reason) }

/-- Fire the signal of a run without a reason. -/
def fire (h : Host σ) (run : String) : Host σ :=
  { h with signals := h.signals.insert run (h.signal run).fire }

/-- Let executors cancel a run, under a name. -/
def handOut (h : Host σ) (name run : String) : Host σ :=
  { h with handedOut := (name, run) :: h.handedOut }

/-- Canceling a run is canceling its signal. -/
@[simp] theorem signal_cancel (h : Host σ) (run reason : String) :
    (h.cancel run reason).signal run = (h.signal run).cancel reason := by
  simp [signal, cancel]

/-- Canceling a run leaves the others alone. -/
theorem signal_cancel_of_ne (h : Host σ) {run other : String} (reason : String)
    (ne : other ≠ run) : (h.cancel run reason).signal other = h.signal other := by
  simp [signal, cancel, Catalog.get?_insert_of_ne _ _ ne]

@[simp] theorem signal_fire (h : Host σ) (run : String) :
    (h.fire run).signal run = (h.signal run).fire := by
  simp [signal, fire]

theorem signal_fire_of_ne (h : Host σ) {run other : String} (ne : other ≠ run) :
    (h.fire run).signal other = h.signal other := by
  simp [signal, fire, Catalog.get?_insert_of_ne _ _ ne]

/-- The run that an executor of `run` means: its own one, or the one of that
name. -/
def target? (h : Host σ) (run : String) : Option String → Option String
  | none => if h.handedOut.any (·.2 == run) then some run else none
  | some name => h.handedOut.lookup name

/-! ## The store -/

/-- Make a call to the store, unless it is to fail. -/
def call {β : Type} (h : Host σ) (c : StoreCall) (f : σ → Reply σ β) : Reply (Host σ) β :=
  let (fails, faults) := h.faults.next c
  let h := { h with faults := faults }
  if fails then (.error (.storage (.injected c)), h)
  else
    let (reply, store) := f h.store
    (reply, { h with store := store })

/-- Note what a write came to. -/
def logged (o : Written → Occurrence) (reply : Reply (Host σ) Unit) : Reply (Host σ) Unit :=
  (reply.1, reply.2.log (o reply.1))

instance [Store σ] : Store (Host σ) where
  createRun r h := logged (.createRun r) (h.call .createRun (Store.createRun r))
  createVisit v h := logged (.createVisit v) (h.call .createVisit (Store.createVisit v))
  update r visits h := logged (.update r visits) (h.call .update (Store.update r visits))
  get id h := h.call .get (Store.get id)
  detail id h := h.call .detail (Store.detail id)
  list q h := h.call .list (Store.list q)
  unfinished h := h.call .unfinished Store.unfinished

/-! ## The oracle -/

/-- How long an answer about an operation takes, if it does; then it is noted
that the oracle was asked. -/
def beginQuery (h : Host σ) (operation : String) : Option Nat × Host σ :=
  match h.oracle.delayOf operation with
  | 0 => (none, h)
  | ms => (some ms, h.log (.asked operation))

/-- Ask the oracle about an operation. -/
def query (h : Host σ) (operation : String) : Answer × Host σ :=
  let (answer, oracle) := h.oracle.query operation
  (answer, { h with oracle := oracle }.log (.answered operation answer))

/-- Give an operation a new script, whose queries take so many milliseconds. -/
def script (h : Host σ) (operation : String) (lines : List Line) (delay : Nat) : Host σ :=
  { h with oracle := (h.oracle.script operation lines).delay operation delay }

/-! ## Answers -/

/-- The answer to what an executor of `run` asks. -/
def perform (h : Host σ) (run : String) : (a : Act) → a.Answer × Host σ
  | .now => h.now
  | .isCanceled => ((h.signal run).fired, h)
  | .cancel target reason => ((), match h.target? run target with
    | none => h
    | some id => h.cancel id reason)
  | .fire => ((), h.fire run)
  | .inject call skip times => ((), { h with faults := h.faults.put call ⟨skip, times⟩ })
  | .script operation lines delay => ((), h.script operation lines delay)
  | .note scene => ((), h.log (.note scene (h.signal run).fired))

/-- The answer to a request. -/
def answer [Store σ] (h : Host σ) : (r : Request) → r.Answer × Host σ
  | .newVisitId => h.newVisitId
  | .now => h.now
  | .clock => (h.clock, h)
  | .signal run => (h.signal run, h)
  | .between _ | .atWork .. => ((), h)
  | .createVisit v => Store.createVisit v h
  | .update r visits => Store.update r visits h
  | .beginQuery operation => h.beginQuery operation
  | .query operation => h.query operation
  | .act run a => h.perform run a

end Host

/-! ## Pauses -/

/-- The wait as one that does not depend on when it began. -/
def Wait.fixedAt (clock : Nat) : Wait → Wait
  | .after ms => .until (clock + ms)
  | w => w

/-- Whether what is waited for has come at that time; that everybody has had a
turn is up to whoever asks. -/
def Wait.reached (clock : Nat) (turn : Bool) : Wait → Bool
  | .until ms => ms ≤ clock
  | .after ms => ms = 0
  | .turn => turn
  | .never => false

namespace Pause

/-- The pause that begins at that time. -/
def fixedAt (clock : Nat) (p : Pause) : Pause := { p with wait := p.wait.fixedAt clock }

/-- Why a pause ends, whether or not its run is canceled. -/
def ending (clock : Nat) (turn : Bool) (p : Pause) : Option Wake :=
  if p.wait.reached clock turn then some .due
  else if p.deadline.any (· ≤ clock) then some .expired
  else none

/-- The times at which the pause can end. -/
def alarms (p : Pause) : List Nat :=
  (match p.wait with
    | .until ms => [ms]
    | _ => []) ++ p.deadline.toList

end Pause

/-- Where a program stands. -/
inductive Standing (α : Type) where
  /-- it has ended with a value -/
  | ended (a : α)
  /-- it has ended without one -/
  | panicked
  /-- it waits -/
  | waiting (p : Pause) (next : Wake → Program α)

namespace Host

variable {σ α : Type}

/-- Why a program that waits goes on when it is looked at again: cancellation
goes before all else. -/
def wake? (h : Host σ) (p : Pause) : Option Wake :=
  if (h.signal p.run).fired then some .signalled else p.ending h.clock true

/-- Carry on a program until it ends or has to wait. A pause that is over when
it begins is passed. -/
def advance [Store σ] : Program α → Host σ → Standing α × Host σ
  | .done a, h => (.ended a, h)
  | .panic, h => (.panicked, h)
  | .ask r next, h => advance (next (h.answer r).1) (h.answer r).2
  | .pause p next, h =>
    let p := p.fixedAt h.clock
    match p.ending h.clock false with
    | some w => advance (next w) h
    | none => (.waiting p next, h)

/-! ### Equations -/

section

variable [Store σ] (h : Host σ)

@[simp] theorem advance_done (a : α) : h.advance (.done a) = (.ended a, h) := rfl

@[simp] theorem advance_panic : h.advance (.panic : Program α) = (.panicked, h) := rfl

@[simp] theorem advance_ask (r : Request) (next : r.Answer → Program α) :
    h.advance (.ask r next) = (h.answer r).2.advance (next (h.answer r).1) := rfl

/-- A pause that is over is passed. -/
theorem advance_pause_of_ending {p : Pause} {w : Wake} (next : Wake → Program α)
    (ended : (p.fixedAt h.clock).ending h.clock false = some w) :
    h.advance (.pause p next) = h.advance (next w) := by
  simp only [advance, ended]

/-- A program stops at a pause that is not over. -/
theorem advance_pause_of_waiting {p : Pause} (next : Wake → Program α)
    (waits : (p.fixedAt h.clock).ending h.clock false = none) :
    h.advance (.pause p next) = (.waiting (p.fixedAt h.clock) next, h) := by
  simp only [advance, waits]

end

end Host

end Runbook
