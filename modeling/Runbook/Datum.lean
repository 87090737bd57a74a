import Runbook.Json

/-!
# Data on their way into a context

A context holds JSON values. What is stored in it may be wider: integers of any
size, numbers that are none, maps with keys of any kind. `Datum.toJson` is the
conversion, and `EncodeError` why it can fail.
-/

namespace Runbook

/-- A value to be stored. -/
inductive Datum where
  /-- no value -/
  | null
  /-- a truth value -/
  | bool (b : Bool)
  /-- an integer -/
  | integer (i : Int)
  /-- a binary64 number -/
  | real (x : Binary64)
  /-- the result of an undefined calculation -/
  | notANumber
  /-- a string -/
  | text (s : String)
  /-- a list -/
  | list (items : List Datum)
  /-- a map -/
  | map (entries : List (Datum × Datum))
  deriving Inhabited

/-- Why a value cannot be stored. -/
inductive EncodeError where
  /-- an integer beyond 64 bits -/
  | outOfRange
  /-- a key that is no text -/
  | keyNotText
  deriving DecidableEq, Repr

/-- The wording of the error. -/
def EncodeError.message : EncodeError → String
  | .outOfRange => "number out of range"
  | .keyNotText => "key must be a string"

namespace Datum

/-- The text of a key. Numbers and truth values are written out. -/
def toKey : Datum → Except EncodeError String
  | text s => .ok s
  | integer i => .ok (toString i)
  | bool b => .ok (toString b)
  | real x => .ok x.render
  | _ => .error .keyNotText

mutual

/-- The JSON value that is stored for a datum, its objects sorted by key. -/
def toJson : Datum → Except EncodeError Json
  | null => .ok .null
  | bool b => .ok (.bool b)
  | integer i =>
    if Int64.minValue.toInt ≤ i ∧ i < UInt64.size then .ok (.int i) else .error .outOfRange
  | real x => .ok (.real x)
  | notANumber => .ok .null
  | text s => .ok (.text s)
  | list items => (itemsToJson items).map .list
  | map entries => (entriesToJson entries).map fun ms => Json.ofCatalog (Catalog.ofList ms)

/-- The JSON values of a list. -/
def itemsToJson : List Datum → Except EncodeError (List Json)
  | [] => .ok []
  | d :: ds => do
    let x ← toJson d
    return x :: (← itemsToJson ds)

/-- The members of a map. -/
def entriesToJson : List (Datum × Datum) → Except EncodeError (List (String × Json))
  | [] => .ok []
  | (k, v) :: es => do
    let key ← toKey k
    let x ← toJson v
    return (key, x) :: (← entriesToJson es)

end

mutual

/-- A JSON value as a datum. -/
def ofJson : Json → Datum
  | .null => null
  | .bool b => bool b
  | .int i => integer i
  | .real x => real x
  | .text s => text s
  | .list xs => list (ofItems xs)
  | .object ms => map (ofMembers ms)

/-- The data of a list. -/
def ofItems : List Json → List Datum
  | [] => []
  | x :: xs => ofJson x :: ofItems xs

/-- The data of members. -/
def ofMembers : List (String × Json) → List (Datum × Datum)
  | [] => []
  | (k, v) :: ms => (text k, ofJson v) :: ofMembers ms

end

end Datum

end Runbook
