import Runbook.Recovery
import Runbook.Registry
import Runbook.Run.Walk
import Runbook.Runner

/-!
# The engine

An engine creates runs of the procedures in its registry, executes them in the
foreground or in the background, and keeps track of those that are live, so that
they can be canceled and waited for by their IDs.

* `Engine` — the state of an engine.
* `Engine.create`, `Engine.createNamed` — new runs.
* `Engine.perform`, `Engine.launch` — executing a run, in the foreground and in
  the background.
* `Engine.start`, `Engine.cancel`, `Engine.running`, `Engine.takeOver` — live runs.
-/

namespace Runbook

/-- The state of an engine. -/
structure Engine (σ : Type) where
  /-- what all runs share -/
  settings : Settings
  /-- the procedures that are known by name -/
  registry : Registry
  /-- what the runs work with -/
  host : Host σ
  /-- the tasks in the background -/
  runner : Runner Run
  /-- the tasks of the runs that were started, by the ID of the run -/
  live : Catalog Nat

namespace Engine

variable {σ : Type}

/-- An engine that knows no procedure and has no run. -/
def idle (settings : Settings) (store : σ) : Engine σ :=
  ⟨settings, .empty, .start store, .empty, .empty⟩

/-! ## New runs -/

/-- Create a run of a definition and store it. -/
def create [Store σ] (e : Engine σ) (caller : Caller) (bizId bizType : String) :
    Option Definition → Except EngineError Run × Engine σ
  | none => (.error .noDefinition, e)
  | some d =>
    let (id, host) := e.host.newRunId
    let (now, host) := host.now
    let record := RunRecord.create id d.name bizId bizType caller.tenantId now
    let (created, host) := Store.createRun record host
    (created.map fun () => Run.create record d e.settings caller, { e with host := host })

/-- Create a run of the procedure of that name. -/
def createNamed [Store σ] (e : Engine σ) (caller : Caller) (name bizId bizType : String) :
    Except EngineError Run × Engine σ :=
  match e.registry.get? name with
  | none => (.error (.definitionNotFound name), e)
  | some d => e.create caller bizId bizType (some d)

/-! ## Execution -/

/-- Carry on a program in the foreground; no value if it never ends. -/
def perform [Store σ] {β : Type} (e : Engine σ) (p : Program β) : Option β × Engine σ :=
  let (b, runner, host) := e.runner.attend Runner.patience p e.host
  (b, { e with runner := runner, host := host })

/-- Let the background work until something has come; whether it has. -/
def await [Store σ] (e : Engine σ) (a : Runner.Await) : Bool × Engine σ :=
  let (come, runner, host) := e.runner.await e.host a
  (come, { e with runner := runner, host := host })

/-- Let the background work for so many milliseconds. -/
def advance [Store σ] (e : Engine σ) (ms : Nat) : Engine σ :=
  (e.await (.clock (e.host.clock + ms))).2

/-- Execute a run in the background; the number of its task. -/
def launch (e : Engine σ) (r : Run) : Nat × Engine σ :=
  let (n, runner) := e.runner.spawn r.operationName r.work
  (n, { e with runner := runner })

/-- Fire the signal of a run. -/
def signal (e : Engine σ) (id reason : String) : Engine σ :=
  let host := e.host.cancel id reason
  { e with host := host, runner := e.runner.rouse host }

/-- Cancel a run that nobody executes. -/
def destroy [Store σ] (e : Engine σ) (r : Run) (reason : String) : Option Run × Engine σ :=
  (e.signal r.id reason).perform r.destroy

/-! ## Live runs -/

/-- Forget the runs that have ended. -/
def prune (e : Engine σ) : Engine σ :=
  { e with live := e.live.filter fun _ n => !e.runner.hasEnded n }

/-- Start a run in the background and keep track of it. -/
def start (e : Engine σ) (r : Run) : Engine σ :=
  let (n, e) := e.launch r
  let e := e.prune
  { e with live := e.live.insert r.id n }

/-- Create a run of the procedure of that name and start it; its ID. -/
def run [Store σ] (e : Engine σ) (caller : Caller) (name bizId bizType : String) :
    Except EngineError String × Engine σ :=
  match e.createNamed caller name bizId bizType with
  | (.error f, e) => (.error f, e)
  | (.ok r, e) => (.ok r.id, e.start r)

/-- Cancel a live run. The value says whether a live run has that ID. -/
def cancel (e : Engine σ) (id reason : String) : Bool × Engine σ :=
  let e := e.prune
  if e.live.contains id then (true, e.signal id reason) else (false, e)

/-- The IDs of the live runs, sorted. -/
def running (e : Engine σ) : List String × Engine σ := (e.prune.live.names, e.prune)

/-- Take over a run that was started, in order to wait for its task. -/
def takeOver (e : Engine σ) (id : String) : Except EngineError Nat × Engine σ :=
  match e.live.get? id with
  | none => (.error (.liveRunNotFound id), e)
  | some n => (.ok n, { e with live := e.live.erase id })

/-! ## Stored runs -/

/-- The stored run of that ID, with the nodes that a run of its procedure visits
if none fails. -/
def detail [Store σ] (e : Engine σ) (id : String) : Except EngineError RunDetail × Engine σ :=
  let (found, host) := Store.detail id e.host
  let e := { e with host := host }
  match found with
  | .error f => (.error f, e)
  | .ok none => (.error (.runNotFound id), e)
  | .ok (some d) =>
    -- the procedure as it is now, not as it was when the run was created
    match e.registry.get? d.run.name with
    | none => (.ok d, e)
    | some definition => (.ok { d with nodeNames := definition.successPath }, e)

/-- A page of the stored runs that match, and how many match in all. -/
def list [Store σ] (e : Engine σ) (q : RunQuery) :
    Except EngineError (List RunRecord × Nat) × Engine σ :=
  let (found, host) := Store.list q e.host
  (found, { e with host := host })

/-- Close every stored run that has not ended; their IDs. -/
def recover [Store σ] (e : Engine σ) : Except EngineError (List String) × Engine σ :=
  let (closed, host, readings) := Recovery.sweep Host.reading (e.host, e.host.readings)
  (closed, { e with host := { host with readings := readings } })

end Engine

end Runbook
