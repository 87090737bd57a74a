import Runbook.Json.Draft
import Runbook.Text.Quoted

/-!
# Why a value could not be read

* `Found` — what stood there, as far as messages tell.
* `ReadError` — the cause: the text is no JSON, or it is JSON of the wrong
  shape.
* `ReadError.message` — the wording of the second kind.
-/

namespace Runbook

/-- What a reader found. -/
inductive Found where
  /-- the null value -/
  | null
  /-- a truth value -/
  | bool (b : Bool)
  /-- an integer -/
  | int (i : Int)
  /-- another number -/
  | real (x : Binary64)
  /-- a string -/
  | text (s : String)
  /-- an array -/
  | sequence
  /-- an object -/
  | map

/-- How messages speak of it. -/
def Found.describe : Found → String
  | .null => "null"
  | .bool b => "boolean `" ++ toString b ++ "`"
  | .int i => "integer `" ++ toString i ++ "`"
  | .real x => "floating point `" ++ x.render ++ "`"
  | .text s => "string " ++ Text.quote s
  | .sequence => "sequence"
  | .map => "map"

/-- Why a value could not be read. -/
inductive ReadError where
  /-- the text is not JSON -/
  | fault (f : Fault)
  /-- a value of another kind -/
  | mismatch (found : Found) (expected : String)
  /-- a value of the right kind that does not fit -/
  | unfit (found : Found) (expected : String)
  /-- a name that is none of the known ones -/
  | unknownVariant (name : String) (known : List String)
  /-- a record without one of its fields -/
  | missingField (name : String)
  /-- a record with a field twice -/
  | duplicateField (name : String)
  /-- an array of a length that does not fit -/
  | wrongLength (length : Nat) (expected : String)
  /-- a string that does not follow its format -/
  | format (message : String)

namespace ReadError

/-- The text ends too early. -/
abbrev unfinished : ReadError := .fault .unfinished

/-- The text is malformed. -/
abbrev malformed : ReadError := .fault .malformed

/-- A name in back quotes. -/
def ticked (name : String) : String := "`" ++ name ++ "`"

/-- The names of which one was expected. -/
def oneOf : List String → String
  | [] => "there are no variants"
  | [a] => "expected " ++ ticked a
  | [a, b] => "expected " ++ ticked a ++ " or " ++ ticked b
  | names => "expected one of " ++ ", ".intercalate (names.map ticked)

/-- The wording of an error. A fault of the text has none. -/
def message : ReadError → String
  | fault _ => ""
  | mismatch found expected => "invalid type: " ++ found.describe ++ ", expected " ++ expected
  | unfit found expected => "invalid value: " ++ found.describe ++ ", expected " ++ expected
  | unknownVariant name known => "unknown variant " ++ ticked name ++ ", " ++ oneOf known
  | missingField name => "missing field " ++ ticked name
  | duplicateField name => "duplicate field " ++ ticked name
  | wrongLength n expected => "invalid length " ++ toString n ++ ", expected " ++ expected
  | format m => m

end ReadError

end Runbook
