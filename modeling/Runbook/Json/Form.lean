import Runbook.Json.Shape

/-!
# Forms: reading records

A record is read from an object, or from an array that gives its fields in
their declared order. A `Form` lists the fields and says how each is read;
forms are put together field by field with `<*>`.

* `Form.field`, `Form.optional`, `Form.lenient` — forms of a single field.
* `Form.record` — the shape of a whole record. Members are looked at in the
  order in which they stand; unknown ones are skipped, a known one may come
  only once; then the first missing field is reported.
-/

namespace Runbook

/-- A field of a record. -/
structure FieldSlot where
  /-- the name of its member -/
  name : String
  /-- whether an array may end before it -/
  lenient : Bool

/-- How a record is read from its fields. -/
structure Form (α : Type) where
  /-- the fields in declared order -/
  slots : List FieldSlot
  /-- check the value of the field of that name -/
  check : String → Source → Draft → Except ReadError Unit
  /-- make the record from the values given for its fields -/
  build : Source → (String → Option Draft) → Except ReadError α

namespace Form

variable {α β : Type}

/-- A form without fields. -/
def const (a : α) : Form α := ⟨[], fun _ _ _ => .ok (), fun _ _ => .ok a⟩

/-- The fields of both forms, those of the first one first. -/
def apply (f : Form (α → β)) (x : Form α) : Form β where
  slots := f.slots ++ x.slots
  check name source d := f.check name source d *> x.check name source d
  build source given := f.build source given <*> x.build source given

instance : Pure Form := ⟨const⟩

instance : Functor Form where
  map g x := { slots := x.slots, check := x.check, build := fun s given => g <$> x.build s given }

instance : Seq Form := ⟨fun f x => f.apply (x ())⟩

/-- A field named `name` read by `shape`; `missing` is its value if no member
gives it. -/
def single (slot : FieldSlot) (shape : Shape α) (missing : Except ReadError α) : Form α where
  slots := [slot]
  check name source d :=
    if name = slot.name then (shape.decode source d).map fun _ => () else .ok ()
  build source given :=
    match given slot.name with
    | some d => shape.decode source d
    | none => missing

/-- A field that must be there. -/
def field (name : String) (shape : Shape α) : Form α :=
  single ⟨name, false⟩ shape (.error (.missingField name))

/-- A field that is absent or `null`, or has a value. -/
def optional (name : String) (shape : Shape α) : Form (Option α) :=
  single ⟨name, false⟩ shape.option (.ok none)

/-- An optional field that an array may leave out too. -/
def lenient (name : String) (shape : Shape α) : Form (Option α) :=
  single ⟨name, true⟩ shape.option (.ok none)

/-- Whether the form has a field of that name. -/
def hasField (form : Form α) (name : String) : Bool :=
  form.slots.any (·.name == name)

/-! ## Records -/

/-- What a record is called when an array has the wrong length. -/
def lengthNote (name : String) (count : Nat) : String :=
  "struct " ++ name ++ " with " ++ toString count ++ (if count = 1 then " element" else " elements")

/-- Check members in the order in which they stand. `seen` are the fields given
so far. -/
def checkMembers (form : Form α) (source : Source) :
    List String → List (Draft × Draft) → Except ReadError Unit
  | _, [] => .ok ()
  | seen, (k, v) :: ms => do
    let name ← k.key
    if form.hasField name then
      if name ∈ seen then .error (.duplicateField name)
      form.check name source v
      checkMembers form source (name :: seen) ms
    else
      Draft.close v.skip
      checkMembers form source seen ms

/-- Check the items of an array against the fields, `index` of them being done.
Gives the items beyond the last field. -/
def checkItems (form : Form α) (source : Source) (note : String) (ending : Option Fault) :
    Nat → List FieldSlot → List Draft → Except ReadError (List Draft)
  | _, [], items => .ok items
  | index, slot :: slots, d :: items => do
    form.check slot.name source d
    checkItems form source note ending (index + 1) slots items
  | index, slot :: slots, [] => do
    Draft.close ending
    if slot.lenient then checkItems form source note ending (index + 1) slots []
    else .error (.wrongLength index note)

/-- The error about items beyond the last field, and the fault at the end. -/
def closeItems (source : Source) (count : Nat) (excess : List Draft) (ending : Option Fault) :
    Except ReadError Unit :=
  match source, excess with
  | _, [] => Draft.close ending
  | .text _, _ :: _ => .error .malformed
  | .tree, _ :: _ => .error (.wrongLength count "fewer elements in array")

/-- The value given for a field by an object: the member of that name. -/
def givenBy (members : List (Draft × Draft)) (name : String) : Option Draft :=
  (members.find? fun m => match m.1 with | .text s => s == name | _ => false).map Prod.snd

/-- The value given for a field by an array: the item in its position. -/
def givenInOrder (slots : List FieldSlot) (items : List Draft) (name : String) : Option Draft :=
  ((slots.zip items).find? (·.1.name == name)).map Prod.snd

/-- The shape of the record called `name` with the fields of `form`. -/
def record (name : String) (form : Form α) : Shape α where
  decode
    | source, .object members ending => do
      let inner ← source.enter
      form.checkMembers inner [] members
      Draft.close ending
      form.build inner (givenBy members)
    | source, .list items ending => do
      let inner ← source.enter
      let excess ←
        form.checkItems inner (lengthNote name form.slots.length) ending 0 form.slots items
      let a ← form.build inner (givenInOrder form.slots items)
      closeItems source items.length excess ending
      return a
    | _, d => d.mismatch ("struct " ++ name)

end Form

end Runbook
