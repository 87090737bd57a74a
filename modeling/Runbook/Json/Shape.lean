import Runbook.Json.ReadError

/-!
# Shapes: reading values of a type

A `Shape α` says how a value of type `α` is read from a draft. One shape serves
two sources, which differ in details of their messages and in that text can
hold faults and limits its nesting:

* `Source.text` — the draft of a text; faults are reported in text order.
* `Source.tree` — a value in memory.

The shapes here are those of plain values, lists, maps and names; records are
in `Runbook.Json.Form`.

* `Json.read` — read a text by a shape: nothing but blanks may follow.
* `Json.decode` — read a value in memory by a shape.
-/

namespace Runbook

/-- Where a draft comes from. -/
inductive Source where
  /-- a text in which `levels` more arrays and objects may be opened -/
  | text (levels : Nat)
  /-- a value in memory -/
  | tree

/-- Open an array or object. -/
def Source.enter : Source → Except ReadError Source
  | .text 0 => .error .malformed
  | .text (levels + 1) => .ok (.text levels)
  | .tree => .ok .tree

/-- How a value of a type is read. -/
structure Shape (α : Type) where
  /-- read a draft -/
  decode : Source → Draft → Except ReadError α

namespace Draft

/-- What a reader says it found here, or the fault it met first. -/
def found : Draft → Except ReadError Found
  | null => .ok .null
  | bool b => .ok (.bool b)
  | int i => .ok (.int i)
  | real x => .ok (.real x)
  | text s => .ok (.text s)
  | list .. => .ok .sequence
  | object .. => .ok .map
  | outsize => .error .malformed
  | garbled f _ | garbledNull f | garbledText f _ => .error (.fault f)
  | absent => .error .unfinished

/-- The error of who expected something else. -/
def mismatch {α : Type} (d : Draft) (expected : String) : Except ReadError α :=
  d.found >>= fun found => .error (.mismatch found expected)

/-- The key of a member. -/
def key : Draft → Except ReadError String
  | text s => .ok s
  | garbledText f _ => .error (.fault f)
  | absent => .error .unfinished
  | _ => .error .malformed

/-- The fault that stands in place of a closing bracket. -/
def close : Option Fault → Except ReadError Unit
  | none => .ok ()
  | some f => .error (.fault f)

end Draft

namespace Shape

variable {α β : Type}

/-- Read by `s`, then apply a function. -/
def map (f : α → β) (s : Shape α) : Shape β :=
  ⟨fun source d => (s.decode source d).map f⟩

/-! ## Plain values -/

/-- A truth value. -/
def bool : Shape Bool where
  decode
    | _, .bool b => .ok b
    | _, d => d.mismatch "a boolean"

/-- A string. -/
def string : Shape String where
  decode
    | _, .text s => .ok s
    | _, d => d.mismatch "a string"

/-- Nothing but `null`. -/
def unit : Shape Unit where
  decode
    | _, .null => .ok ()
    | _, d => d.mismatch "unit"

/-- A string of some format. -/
def formatted (expected : String) (parse : String → Except String α) : Shape α where
  decode
    | _, .text s => (parse s).mapError .format
    | _, d => d.mismatch expected

/-- An integer from `low` to `high`. -/
def integer (low high : Int) (name : String) : Shape Int where
  decode
    | _, .int i => if low ≤ i ∧ i ≤ high then .ok i else .error (.unfit (.int i) name)
    | _, d => d.mismatch name

/-- An integer from zero to below `2 ^ bits`. -/
def natural (bits : Nat) (name : String) : Shape Nat :=
  (integer 0 ((1 <<< bits : Nat) - 1) name).map Int.toNat

/-- An integer of 64 bits with sign. -/
def int64 : Shape Int := integer Int64.minValue.toInt Int64.maxValue.toInt "i64"

/-- A number; an integer is rounded. -/
def real : Shape Binary64 where
  decode
    | _, .real x => .ok x
    | _, .int i => match Binary64.ofInt? i with
      | some x => .ok x
      | none => .error (.unfit (.int i) "f64")
    | _, d => d.mismatch "f64"

/-- A value, or `null`. The first letter tells which, so a `null` that is cut
short is never read as a value. -/
def option (s : Shape α) : Shape (Option α) where
  decode
    | _, .null => .ok none
    | _, .garbledNull f => .error (.fault f)
    | source, d => (s.decode source d).map some

/-! ## Names -/

/-- The constant that a name stands for. -/
def variantNamed (known : List (String × α)) (name : String) : Except ReadError α :=
  match known.lookup name with
  | some a => .ok a
  | none => .error (.unknownVariant name (known.map Prod.fst))

/-- One of several constants, given by name, or as an object whose only member
has that name and the value `null`. -/
def variant (known : List (String × α)) : Shape α where
  decode
    | _, .text s => variantNamed known s
    | .text levels, .object members ending => do
      let inner ← (Source.text levels).enter
      match members with
      | [] => .error (.fault (ending.getD .malformed))
      | (k, v) :: others =>
        let a ← variantNamed known (← k.key)
        unit.decode inner v
        if others.isEmpty then Draft.close ending else .error .malformed
        return a
    | .text _, .garbledText f _ => .error (.fault f)
    | .text _, .absent => .error .unfinished
    | .text _, _ => .error .malformed
    | .tree, .object [(k, v)] _ => do
      let a ← variantNamed known (← k.key)
      unit.decode .tree v
      return a
    | .tree, .object .. => .error (.unfit .map "map with a single key")
    | .tree, d => d.mismatch "string or map"

/-! ## Lists and maps -/

/-- Read items one after the other. -/
def decodeItems (s : Shape α) (source : Source) : List Draft → Except ReadError (List α)
  | [] => .ok []
  | d :: ds => do
    let a ← s.decode source d
    return a :: (← decodeItems s source ds)

/-- An array. -/
def list (s : Shape α) : Shape (List α) where
  decode
    | source, .list items ending => do
      let as ← decodeItems s (← source.enter) items
      Draft.close ending
      return as
    | _, d => d.mismatch "a sequence"

/-- Read members one after the other. -/
def decodeMembers (s : Shape α) (source : Source) :
    List (Draft × Draft) → Except ReadError (List (String × α))
  | [] => .ok []
  | (k, v) :: ms => do
    let name ← k.key
    let a ← s.decode source v
    return (name, a) :: (← decodeMembers s source ms)

/-- An object with values of one kind; of several members with one key the last
counts. -/
def catalog (s : Shape α) : Shape (Catalog α) where
  decode
    | source, .object members ending => do
      let ms ← decodeMembers s (← source.enter) members
      Draft.close ending
      return Catalog.ofList ms
    | _, d => d.mismatch "a map"

/-! ## Anything -/

mutual

/-- Read any value, its objects sorted by key. -/
def anyValue (source : Source) : Draft → Except ReadError Json
  | .null => .ok .null
  | .bool b => .ok (.bool b)
  | .int i => .ok (.int i)
  | .real x => .ok (.real x)
  | .text s => .ok (.text s)
  | .list items ending => do
    let xs ← anyItems (← source.enter) items
    Draft.close ending
    return .list xs
  | .object members ending => do
    let ms ← anyMembers (← source.enter) members
    Draft.close ending
    return Json.ofCatalog (Catalog.ofList ms)
  | .outsize => .error .malformed
  | .garbled f _ | .garbledNull f | .garbledText f _ => .error (.fault f)
  | .absent => .error .unfinished

/-- Read any items. -/
def anyItems (source : Source) : List Draft → Except ReadError (List Json)
  | [] => .ok []
  | d :: ds => do
    let x ← anyValue source d
    return x :: (← anyItems source ds)

/-- Read any members. -/
def anyMembers (source : Source) :
    List (Draft × Draft) → Except ReadError (List (String × Json))
  | [] => .ok []
  | (k, v) :: ms => do
    let name ← k.key
    let x ← anyValue source v
    return (name, x) :: (← anyMembers source ms)

end

/-- Any value. -/
def any : Shape Json := ⟨anyValue⟩

end Shape

namespace Json

/-- How deeply arrays and objects may be nested in a text. -/
def nestingLimit : Nat := 127

/-- Read a text by a shape. -/
def read {α : Type} (shape : Shape α) (text : String) : Except ReadError α := do
  let (draft, trailing) := Draft.ofText text
  let a ← shape.decode (.text nestingLimit) draft
  if trailing then .error .malformed
  return a

/-- Read a value in memory by a shape. -/
def decode {α : Type} (shape : Shape α) (j : Json) : Except ReadError α :=
  shape.decode .tree (Draft.ofJson j)

/-- Read a text as any value. -/
def parse (text : String) : Except ReadError Json := read Shape.any text

end Json

end Runbook
