import Runbook.Host

/-!
# Background tasks

A runner keeps the tasks that work in the background. One task works at a time,
until it ends or has to wait; tasks that can go on take their turns in a queue.
Time stands still while anybody can go on.

* `Task`, `Runner` — the tasks, the queue, and the operations in flight by name.
* `Runner.spawn`, `Runner.poll`, `Runner.shutdown` — the steps that tasks take.
* `Await`, `Runner.settle` — letting the tasks work until something has come.

An operation is in flight until a task of its name ends with a value, or the
runner is shut down: a task that panics stays listed. Of two tasks with one name
the later one is listed.
-/

namespace Runbook

/-- How a task ended. -/
inductive Ending (α : Type) where
  /-- with a value -/
  | value (a : α)
  /-- by a panic -/
  | panicked
  /-- it was given up -/
  | aborted
  deriving DecidableEq, Repr

/-- How far a task is. -/
inductive Stage (α : Type) where
  /-- it has not begun -/
  | fresh (p : Program α)
  /-- it waits -/
  | waiting (p : Pause) (next : Wake → Program α)
  /-- it has ended -/
  | ended (e : Ending α)

/-- A task. -/
structure Task (α : Type) where
  /-- the name of the operation -/
  operation : String
  /-- how far it is -/
  stage : Stage α
  /-- whether it is to be given up -/
  aborting : Bool

namespace Task

variable {α : Type}

/-- How the task ended, if it has. -/
def ending (t : Task α) : Option (Ending α) :=
  match t.stage with
  | .ended e => some e
  | _ => none

/-- Whether the task has ended. -/
def hasEnded (t : Task α) : Bool :=
  match t.stage with
  | .ended _ => true
  | _ => false

/-- The pause in which the task waits. -/
def pause? (t : Task α) : Option Pause :=
  match t.stage with
  | .waiting p _ => some p
  | _ => none

end Task

/-- The tasks of an engine. -/
structure Runner (α : Type) where
  /-- the tasks, by their numbers -/
  tasks : List (Task α)
  /-- the tasks of the operations in flight -/
  active : Catalog Nat
  /-- the tasks that can go on, the next one first -/
  queue : List Nat
  /-- the tasks that have given way, the latest first -/
  givenWay : List Nat

namespace Runner

variable {σ α : Type}

/-- A runner without tasks. -/
def empty : Runner α := ⟨[], .empty, [], []⟩

instance : Inhabited (Runner α) := ⟨empty⟩

/-- The names of the operations in flight, sorted. -/
def operations (r : Runner α) : List String := r.active.names

/-- How a task ended, if it has. -/
def ending (r : Runner α) (n : Nat) : Option (Ending α) := r.tasks[n]?.bind Task.ending

/-- Whether a task has ended. -/
def hasEnded (r : Runner α) (n : Nat) : Bool := r.tasks[n]?.any Task.hasEnded

/-- Begin a task; also its number. -/
def spawn (r : Runner α) (operation : String) (p : Program α) : Nat × Runner α :=
  let n := r.tasks.length
  (n, { r with
    tasks := r.tasks ++ [⟨operation, .fresh p, false⟩]
    active := r.active.insert operation n
    queue := r.queue ++ [n] })

/-- Give a task a new stage. -/
def move (r : Runner α) (n : Nat) (s : Stage α) : Runner α :=
  { r with tasks := r.tasks.modify n fun t => { t with stage := s } }

/-- Put tasks into the queue, unless they are in it. -/
def enqueue (r : Runner α) (ns : List Nat) : Runner α :=
  { r with queue := r.queue ++ ns.filter fun n => !r.queue.contains n }

/-- The tasks that wait in a pause with a property. -/
def waitingIn (r : Runner α) (holds : Pause → Bool) : List Nat :=
  (List.range r.tasks.length).filter fun n => (r.tasks[n]?.bind Task.pause?).any holds

/-- The tasks that wait although their run is canceled. -/
def canceled (r : Runner α) (h : Host σ) : List Nat :=
  r.waitingIn fun p => (h.signal p.run).fired

/-- Wake the tasks that wait although their run is canceled. -/
def rouse (r : Runner α) (h : Host σ) : Runner α := r.enqueue (r.canceled h)

/-- Wake the tasks whose time has come. -/
def ring (r : Runner α) (clock : Nat) : Runner α :=
  r.enqueue (r.waitingIn fun p => p.alarms.any (· ≤ clock))

/-- Let the tasks that have given way go on. -/
def release (r : Runner α) : Runner α := { r.enqueue r.givenWay with givenWay := [] }

/-- Take over where the program of a task stands. -/
def settle (r : Runner α) (n : Nat) (operation : String) : Standing α → Runner α
  | .ended a => { r.move n (.ended (.value a)) with active := r.active.erase operation }
  | .panicked => r.move n (.ended .panicked)
  | .waiting p next =>
    let r := r.move n (.waiting p next)
    if p.wait = .turn then { r with givenWay := n :: r.givenWay } else r

/-- Carry on the program of a task, and wake the tasks that it canceled, itself
as the last one. -/
def carryOn [Store σ] (r : Runner α) (h : Host σ) (n : Nat) (operation : String) (p : Program α) :
    Runner α × Host σ :=
  let (standing, h) := h.advance p
  let r := r.settle n operation standing
  -- a task that cancels its own run meets the signal at its next turn
  let (itself, others) := (r.canceled h).partition (· = n)
  (r.enqueue (others ++ itself), h)

/-- Let a task have its turn. -/
def poll [Store σ] (r : Runner α) (h : Host σ) (n : Nat) : Runner α × Host σ :=
  match r.tasks[n]? with
  | none => (r, h)
  | some t =>
    match t.stage with
    | .ended _ => (r, h)
    | .fresh p =>
      if t.aborting then (r.move n (.ended .aborted), h) else r.carryOn h n t.operation p
    | .waiting p next =>
      if t.aborting then (r.move n (.ended .aborted), h)
      else
        match h.wake? p with
        | none => (r, h)
        | some w => r.carryOn h n t.operation (next w)

/-- Give up all operations in flight. Their tasks end when they have their next
turn. -/
def shutdown (r : Runner α) : Runner α :=
  let ns := r.active.entries.map Prod.snd
  let live := ns.filter fun n => !r.hasEnded n
  { r.enqueue live with
    tasks := ns.foldl (fun tasks n => tasks.modify n fun t => { t with aborting := true }) r.tasks
    active := .empty }

/-- Keep track of no operation any longer. Their tasks go on. -/
def untrack (r : Runner α) : Runner α := { r with active := .empty }

/-! ## Letting the tasks work -/

/-- What somebody waits for who lets the tasks work. -/
inductive Await where
  /-- the clock shows so many milliseconds -/
  | clock (ms : Nat)
  /-- a task has ended -/
  | task (n : Nat)
  /-- a task has ended, or the clock shows so many milliseconds -/
  | taskUntil (n ms : Nat)
  /-- everybody has had a turn -/
  | turn
  /-- a pause is over -/
  | pause (p : Pause)

/-- Whether what is waited for has come, but for a turn. -/
def hasCome (r : Runner α) (h : Host σ) : Await → Bool
  | .clock ms => ms ≤ h.clock
  | .task n => r.hasEnded n
  | .taskUntil n ms => r.hasEnded n || decide (ms ≤ h.clock)
  | .turn => false
  | .pause p => (h.signal p.run).fired || (p.ending h.clock false).isSome

/-- Whether it is enough that everybody has had a turn. -/
def Await.givesWay : Await → Bool
  | .turn => true
  | .pause p => p.wait = .turn
  | _ => false

/-- The times at which what is waited for can come. -/
def Await.alarms : Await → List Nat
  | .clock ms | .taskUntil _ ms => [ms]
  | .task _ | .turn => []
  | .pause p => p.alarms

/-- The next time at which somebody can go on. -/
def nextAlarm (r : Runner α) (h : Host σ) (a : Await) : Option Nat :=
  let times := a.alarms ++ (r.tasks.filterMap Task.pause?).flatMap Pause.alarms
  (times.filter (h.clock < ·)).min?

/-- Let the tasks work until what is waited for has come. Tasks in the queue go
first, then those that have given way; only then the clock moves on, to the next
time at which somebody can go on. If there is none, or after `fuel` of these
steps, it is given up. -/
def workFor [Store σ] (a : Await) : Nat → Runner α → Host σ → Bool × Runner α × Host σ
  | 0, r, h => (false, r, h)
  | fuel + 1, r, h =>
    match r.queue with
    | n :: rest =>
      let (r, h) := { r with queue := rest }.poll h n
      workFor a fuel r h
    | [] =>
      -- nobody is in the queue: all have had their turn
      if r.hasCome h a then (true, r, h)
      else if a.givesWay then (true, r.release, h)
      else if !r.givenWay.isEmpty then workFor a fuel r.release h
      else
        match r.nextAlarm h a with
        | none => (false, r, h)
        | some ms =>
          -- whoever waits in the foreground goes before the tasks that wake with it
          let h := { h with clock := ms }
          let r := r.ring ms
          if r.hasCome h a then (true, r, h) else workFor a fuel r h

/-- How many steps the tasks may take before a wait is given up. -/
def patience : Nat := 1 <<< 40

/-- Wait for something and let the tasks work meanwhile; nothing happens if it
has come already. The value says whether it has come. -/
def await [Store σ] (r : Runner α) (h : Host σ) (a : Await) : Bool × Runner α × Host σ :=
  if r.hasCome h a then (true, r, h) else workFor a patience r h

/-- Carry on a program in the foreground, and let the tasks work where it waits;
no value if it panics or waits for ever. -/
def attend [Store σ] {β : Type} : Nat → Program β → Runner α → Host σ → Option β × Runner α × Host σ
  | 0, _, r, h => (none, r, h)
  | fuel + 1, p, r, h =>
    let (standing, h) := h.advance p
    let r := r.rouse h
    match standing with
    | .ended b => (some b, r, h)
    | .panicked => (none, r, h)
    | .waiting p next =>
      match workFor (.pause p) patience r h with
      | (false, r, h) => (none, r, h)
      | (true, r, h) => attend fuel (next ((h.wake? p).getD .due)) r h

end Runner

end Runbook
