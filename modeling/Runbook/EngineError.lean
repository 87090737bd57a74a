/-!
# Errors of the engine

What can go wrong outside of a node: with definitions, with stored records and
with the store itself. Each error is a cause; `EngineError.message` words it.
-/

namespace Runbook

/-- The two events a node can end with. -/
inductive Event where
  /-- the node succeeded -/
  | success
  /-- the node failed -/
  | fail
  deriving DecidableEq, Repr

/-- The word for an event. -/
def Event.name : Event → String
  | .success => "success"
  | .fail => "fail"

/-- The name of the node with which every run begins. -/
def startName : String := "start"

/-- What is wrong with a definition. -/
inductive DefinitionFault where
  /-- the workflow has no name -/
  | unnamedWorkflow
  /-- a node has no name -/
  | unnamedNode (workflow : String)
  /-- two nodes share a name -/
  | repeatedNode (workflow node : String)
  /-- no node is the one to begin with -/
  | missingStart (workflow : String)
  /-- an event of a node leads nowhere -/
  | unknownSuccessor (workflow node : String) (event : Event) (target : String)
  /-- some path of events never ends -/
  | cyclic (workflow : String)
  /-- another definition has the name already -/
  | alreadyRegistered (workflow : String)
  /-- a fault found elsewhere -/
  | described (text : String)
  deriving DecidableEq, Repr

/-- The wording of the fault. -/
def DefinitionFault.message : DefinitionFault → String
  | unnamedWorkflow => "workflow name must not be empty"
  | unnamedNode w => "workflow " ++ w ++ " has a node without a name"
  | repeatedNode w n => "workflow " ++ w ++ " defines node " ++ n ++ " twice"
  | missingStart w => "workflow " ++ w ++ " has no " ++ startName ++ " node"
  | unknownSuccessor w n e t =>
    "node " ++ n ++ " of workflow " ++ w ++ " has " ++ e.name ++ " event to unknown node " ++ t
  | cyclic w => "workflow " ++ w ++ " contains a cycle"
  | alreadyRegistered w => "workflow " ++ w ++ " is already registered"
  | described text => text

/-- The calls that a store answers. -/
inductive StoreCall where
  /-- store a new run -/
  | createRun
  /-- store a new visit -/
  | createVisit
  /-- store a run and its visits -/
  | update
  /-- read a run -/
  | get
  /-- read a run with its visits -/
  | detail
  /-- read a page of runs -/
  | list
  /-- read the runs that have not ended -/
  | unfinished
  deriving DecidableEq, Repr

namespace StoreCall

/-- The word for a call. -/
def name : StoreCall → String
  | createRun => "create_workflow"
  | createVisit => "create_node"
  | update => "update"
  | get => "get"
  | detail => "detail"
  | list => "list"
  | unfinished => "unfinished"

/-- All calls. -/
def all : List StoreCall := [createRun, createVisit, update, get, detail, list, unfinished]

/-- The call of that name. -/
def ofName? (s : String) : Option StoreCall := all.find? (·.name == s)

end StoreCall

/-- The tables of the relational store. -/
inductive Table where
  /-- the runs -/
  | runs
  /-- the visits -/
  | visits
  deriving DecidableEq, Repr

/-- The name of a table. -/
def Table.name : Table → String
  | .runs => "workflows"
  | .visits => "workflow_nodes"

/-- What a store complains about. -/
inductive StorageFault where
  /-- a run of that ID is stored already -/
  | runExists (id : String)
  /-- a visit of that ID is stored already -/
  | visitExists (id : String)
  /-- writes are switched off -/
  | readOnly
  /-- a row of the table has that ID already -/
  | uniqueViolated (table : Table)
  /-- a visit belongs to no stored run -/
  | foreignKeyViolated
  /-- a stored time cannot be read -/
  | badTimestamp (stored detail : String)
  /-- the call was made to fail -/
  | injected (call : StoreCall)
  /-- whatever else a store says -/
  | described (text : String)
  deriving DecidableEq, Repr

/-- The wording of the fault. -/
def StorageFault.message : StorageFault → String
  | runExists id => "workflow " ++ id ++ " already exists"
  | visitExists id => "node " ++ id ++ " already exists"
  | readOnly => "store is read-only"
  | uniqueViolated table =>
    "error returned from database: (code: 1555) UNIQUE constraint failed: " ++ table.name ++ ".id"
  | foreignKeyViolated =>
    "error returned from database: (code: 787) FOREIGN KEY constraint failed"
  | badTimestamp stored detail => "invalid timestamp " ++ stored ++ ": " ++ detail
  | injected call => "injected " ++ call.name ++ " failure"
  | described text => text

/-- What can go wrong outside of a node. -/
inductive EngineError where
  /-- no definition has that name -/
  | definitionNotFound (name : String)
  /-- the definition is not sound -/
  | invalidDefinition (fault : DefinitionFault)
  /-- nothing is stored, or live, under that name -/
  | notFound (what : String)
  /-- the store failed -/
  | storage (fault : StorageFault)
  deriving DecidableEq, Repr

namespace EngineError

/-- No run of that ID is stored. -/
def runNotFound (id : String) : EngineError := .notFound ("workflow " ++ id)

/-- No run of that ID is live. -/
def liveRunNotFound (id : String) : EngineError := .notFound ("live workflow " ++ id)

/-- A run was to be created without a definition. -/
def noDefinition : EngineError := .definitionNotFound "empty workflow definition"

/-- The kind of an error. -/
def kind : EngineError → String
  | definitionNotFound _ => "DefinitionNotFound"
  | invalidDefinition _ => "InvalidDefinition"
  | notFound _ => "NotFound"
  | storage _ => "Storage"

/-- The wording of an error. -/
def message : EngineError → String
  | definitionNotFound name => "workflow definition not found: " ++ name
  | invalidDefinition fault => "invalid workflow definition: " ++ fault.message
  | notFound what => "not found: " ++ what
  | storage fault => "storage error: " ++ fault.message

/-- The error of a kind with a text of its own. -/
def described? (kind text : String) : Option EngineError :=
  match kind with
  | "DefinitionNotFound" => some (definitionNotFound text)
  | "InvalidDefinition" => some (invalidDefinition (.described text))
  | "NotFound" => some (notFound text)
  | "Storage" => some (storage (.described text))
  | _ => none

end EngineError

/-- What a write to the store came to. -/
abbrev Written := Except EngineError Unit

end Runbook
