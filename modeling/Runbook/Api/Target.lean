import Runbook.Configuration
import Runbook.Query
import Runbook.Text.Escaped

/-!
# Targets of requests

A target is a path, perhaps with a scheme and a host before it, parameters behind
a question mark and a fragment behind a hash sign. Path and parameters are
escaped.

* `Target.ofString` — the parts of a target.
* `Target.parameters` — the parameters.
* `RunQuery.ofParameters` — the query for runs that parameters give.
-/

namespace Runbook

namespace Api

/-- The text that a part of a path stands for, if its bytes are UTF-8. -/
def segmentText? (raw : String) : Option String := Utf8.text? (Text.unescape raw)

/-- The parts of a target, as they were sent. -/
structure Target where
  /-- the pieces of the path between slashes -/
  segments : List String
  /-- what stands behind the question mark -/
  query : String
  deriving DecidableEq, Repr

namespace Target

/-- Whether a character can be part of the name of a scheme. -/
def isSchemeChar (c : Char) : Bool := c.isAlphanum || "+-.".toList.contains c

/-- A target without its scheme and host, if it has them. The host ends where
path, parameters or fragment begin. -/
def withoutHost (s : String) : String :=
  match s.toList.dropWhile isSchemeChar with
  | ':' :: '/' :: '/' :: rest => .ofList (rest.dropWhile fun c => !"/?#".toList.contains c)
  | _ => s

/-- The parts of a target. -/
def ofString (s : String) : Target :=
  let (path, query) := Text.splitAtFirst '?' (Text.splitAtFirst '#' (withoutHost s)).1
  ⟨path.splitOn "/", query⟩

/-- The parameters, in order. -/
def parameters (t : Target) : List (String × String) := Text.parameters t.query

end Target

end Api

namespace RunQuery

/-- A number in a parameter. -/
def number? (text : String) : Option UInt32 :=
  (Configuration.decimalUpTo? (UInt32.size - 1) text).map UInt32.ofNat

/-- Take over a parameter; no parameter may come twice. Others than those of a
query are ignored. -/
def withParameter (q : RunQuery) (name value : String) : Option RunQuery :=
  match name with
  | "bizId" => if q.bizId.isSome then none else some { q with bizId := some value }
  | "status" =>
    if q.status.isSome then none
    else (Status.ofName? value).map fun s => { q with status := some s }
  | "name" => if q.name.isSome then none else some { q with name := some value }
  | "page" => if q.page.isSome then none else (number? value).map fun n => { q with page := some n }
  | "pageSize" =>
    if q.pageSize.isSome then none else (number? value).map fun n => { q with pageSize := some n }
  | _ => some q

/-- The query that parameters give, unless one of them is wrong. -/
def ofParameters (parameters : List (String × String)) : Option RunQuery :=
  parameters.foldlM (fun q p => q.withParameter p.1 p.2) everything

end RunQuery

end Runbook
