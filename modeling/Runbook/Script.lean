import Runbook.Execution

/-!
# Scripted executors

An executor can be written down as a list of actions that are carried out in
order. The first one that fails ends the executor with its error.

* `Action` — the actions.
* `Script.execution` — the execution of a list of them.
-/

namespace Runbook

/-- One thing that a scripted executor does. -/
inductive Action where
  /-- set a value of the context -/
  | set (key : String) (value : Json)
  /-- store a datum in the context -/
  | insert (key : String) (datum : Datum)
  /-- take a value out of the context; its text becomes the result -/
  | remove (key : String)
  /-- read a value of the context as some type; its text becomes the result -/
  | read (key : String) (view : Json → Except ReadError String)
  /-- lengthen a string of the context -/
  | append (key value : String)
  /-- add one to an integer of the context; below a bound that is an error -/
  | count (key : String) (failBelow : Option Int)
  /-- assign the result -/
  | result (value : String)
  /-- assign the operation -/
  | operation (value : String)
  /-- assign the name of the node -/
  | name (value : String)
  /-- assign the status -/
  | status (value : Status)
  /-- mark the node as at work -/
  | processing
  /-- mark the node as ended well -/
  | succeed (payload : Option String)
  /-- mark the node as failed -/
  | fail (failure : Failure)
  /-- report an error, with contexts of which the last one is the outermost -/
  | error (message : String) (contexts : List String)
  /-- panic -/
  | panic (detail : Option String)
  /-- wait so many milliseconds -/
  | sleep (ms : Nat)
  /-- let everybody else have a turn -/
  | giveWay
  /-- wait until the run is canceled -/
  | waitForCancel
  /-- cancel the own run, or the one handed out under a name -/
  | cancel (target : Option String) (reason : String)
  /-- fire the signal of the own run without a reason -/
  | fire
  /-- report an error if the run is canceled -/
  | failIfCanceled
  /-- let calls to the store fail -/
  | inject (call : StoreCall) (skip : Nat) (times : Option Nat)
  /-- give an operation a new script, whose queries take so many milliseconds -/
  | script (operation : String) (lines : List Line) (delay : Nat)
  /-- leave a note in the journal -/
  | note

namespace Script

/-- Change the record of the visit. -/
def edit (scene : Scene) (f : Visit → Visit) : Scene := { scene with visit := f scene.visit }

/-- Set a value of the context. -/
def setValue (scene : Scene) (key : String) (value : Json) : Scene :=
  { scene with context := scene.context.set key value }

/-- The result that is left by taking out a value: its text, once more as JSON. -/
def removedText : Option Json → String
  | none => Json.null.print
  | some v => (Json.text v.print).print

/-- The string for a key; anything else counts as empty. -/
def textAt (scene : Scene) (key : String) : String :=
  match scene.context.get? key with
  | some (.text s) => s
  | _ => ""

/-- The integer for a key; anything else counts as zero. -/
def integerAt (scene : Scene) (key : String) : Int :=
  match scene.context.get? key with
  | some (.int i) => if i ≤ Int64.maxValue.toInt then i else 0
  | _ => 0

/-- The text of an error with contexts: the outermost first. -/
def errorText (message : String) (contexts : List String) : String :=
  ": ".intercalate (contexts.reverse ++ [message])

/-- Carry out actions in order. -/
def execution : List Action → Scene → Execution
  | [], scene => .finish scene .done
  | action :: rest, scene =>
    match action with
    | .set key value => execution rest (setValue scene key value)
    | .insert key datum =>
      match scene.context.insert key datum with
      | .ok context => execution rest { scene with context := context }
      | .error e => .finish scene (.error e.chain)
    | .remove key =>
      let text := removedText (scene.context.get? key)
      let scene := { scene with context := scene.context.erase key }
      execution rest (edit scene fun v => { v with result := text })
    | .read key view =>
      match scene.context.get? key with
      | none => .finish scene (.error (ContextError.missing key).chain)
      | some value =>
        match view value with
        | .ok text => execution rest (edit scene fun v => { v with result := text })
        | .error cause => .finish scene (.error (ContextError.typeMismatch key cause).chain)
    | .append key value => execution rest (setValue scene key (.text (textAt scene key ++ value)))
    | .count key failBelow =>
      let n := integerAt scene key + 1
      let scene := setValue scene key (.int n)
      match failBelow with
      | none => execution rest scene
      | some bound =>
        if n < bound then
          .finish scene (.error ("attempt " ++ toString n ++ " of " ++ toString bound))
        else execution rest scene
    | .result value => execution rest (edit scene fun v => { v with result := value })
    | .operation value => execution rest (edit scene fun v => { v with operationId := value })
    | .name value => execution rest (edit scene fun v => { v with name := value })
    | .status value => execution rest (edit scene fun v => { v with status := value })
    | .processing => execution rest (edit scene Visit.processing)
    | .succeed payload => .ask .now fun now =>
        execution rest (edit scene fun v => v.succeed payload now)
    | .fail failure => .ask .now fun now =>
        execution rest (edit scene fun v => v.fail failure now)
    | .error message contexts => .finish scene (.error (errorText message contexts))
    | .panic detail => .finish scene (.panicked detail)
    | .sleep ms => .pause scene (.after ms) (execution rest scene)
    | .giveWay => .pause scene .turn (execution rest scene)
    | .waitForCancel => .ask .isCanceled fun canceled =>
        if canceled then execution rest scene else .pause scene .never (execution rest scene)
    | .cancel target reason => .ask (.cancel target reason) fun _ => execution rest scene
    | .fire => .ask .fire fun _ => execution rest scene
    | .failIfCanceled => .ask .isCanceled fun canceled =>
        if canceled then .finish scene (.error "saw cancellation") else execution rest scene
    | .inject call skip times => .ask (.inject call skip times) fun _ => execution rest scene
    | .script operation lines delay =>
      .ask (.script operation lines delay) fun _ => execution rest scene
    | .note => .ask (.note scene) fun _ => execution rest scene

/-- The executor that carries out actions. -/
def executor (actions : List Action) : Executor := execution actions

end Script

end Runbook
