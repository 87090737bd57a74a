import Runbook.Json.Form

/-!
# The deployment oracle

Polling nodes hand their work to a deployment system, which knows it as an
*operation*. The oracle answers how an operation stands.

* `Report` — one answer.
* `Oracle` — a scripted oracle. Each operation has a queue of answers: every
  query takes the front one, and the last one is repeated.
-/

namespace Runbook

/-- How an operation stands. -/
inductive OperationState where
  /-- still at work -/
  | running
  /-- ended well -/
  | finished
  /-- failed -/
  | error
  deriving DecidableEq, Repr, Inhabited

namespace OperationState

/-- The name that reports use. -/
def name : OperationState → String
  | running => "Running"
  | finished => "Finished"
  | error => "Error"

/-- All states in the order in which messages list them. -/
def all : List OperationState := [running, finished, error]

/-- A state given by its name. -/
def shape : Shape OperationState := Shape.variant (all.map fun s => (s.name, s))

end OperationState

/-- An answer about an operation. -/
structure Report where
  /-- how it stands -/
  state : OperationState
  /-- what a finished operation produced, possibly nothing -/
  result : String
  /-- what a failed operation says -/
  errorText : String
  deriving DecidableEq, Repr

namespace Report

/-- Still at work. -/
def running : Report := ⟨.running, "", ""⟩

/-- Ended well with a payload. -/
def finished (result : String) : Report := ⟨.finished, result, ""⟩

/-- Failed. -/
def failed (errorText : String) : Report := ⟨.error, "", errorText⟩

/-- The report as JSON. -/
def toJson (r : Report) : Json :=
  .object [("status", .text r.state.name), ("result", .text r.result),
    ("error_str", .text r.errorText)]

/-- How a report is read. -/
def shape : Shape Report :=
  (Report.mk <$> .field "status" OperationState.shape <*> .field "result" .string
    <*> .field "error_str" .string : Form _).record "Operation"

end Report

/-- Why the oracle has no report. -/
inductive OracleError where
  /-- it does not know the operation -/
  | unknownOperation (id : String)
  /-- it cannot be reached -/
  | unavailable (detail : String)
  deriving DecidableEq, Repr

namespace OracleError

/-- The kind of the error. -/
def kind : OracleError → String
  | unknownOperation _ => "UnknownOperation"
  | unavailable _ => "Unavailable"

/-- The wording of the error. -/
def message : OracleError → String
  | unknownOperation id => "unknown operation " ++ id
  | unavailable detail => "deployment service unavailable: " ++ detail

end OracleError

/-- What an oracle answers to a query. -/
abbrev Answer := Except OracleError Report

/-- What a scripted oracle is to answer: a report, or that it cannot be
reached. -/
abbrev Line := Except String Report

/-- A scripted oracle. -/
structure Oracle where
  /-- the lines that are left, by operation -/
  scripts : Catalog (List Line)
  /-- the milliseconds that a query takes, by operation -/
  delays : Catalog Nat
  deriving Inhabited

namespace Oracle

/-- An oracle that knows no operation. -/
def empty : Oracle := ⟨Catalog.empty, Catalog.empty⟩

/-- Give an operation a new script. -/
def script (o : Oracle) (id : String) (lines : List Line) : Oracle :=
  { o with scripts := o.scripts.insert id lines }

/-- Let queries about an operation take so many milliseconds. -/
def delay (o : Oracle) (id : String) (ms : Nat) : Oracle :=
  { o with delays := o.delays.insert id ms }

/-- The milliseconds that a query about an operation takes. -/
def delayOf (o : Oracle) (id : String) : Nat := (o.delays.get? id).getD 0

/-- Answer with a line of a script. -/
def answerLine : Line → Answer
  | .ok report => .ok report
  | .error detail => .error (.unavailable detail)

/-- Ask about an operation: the answer, and the oracle after it. -/
def query (o : Oracle) (id : String) : Answer × Oracle :=
  match o.scripts.get? id with
  | none | some [] => (.error (.unknownOperation id), o)
  | some [line] => (answerLine line, o)
  | some (line :: rest) => (answerLine line, o.script id rest)

/-- Queries take as long as before. -/
theorem delays_query (o : Oracle) (id : String) : (o.query id).2.delays = o.delays := by
  rw [query]
  split <;> rfl

end Oracle

end Runbook
