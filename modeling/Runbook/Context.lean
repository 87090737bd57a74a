import Runbook.Datum
import Runbook.Json.Form

/-!
# The context of a run

The nodes of a run pass business data on through its context, a catalog of JSON
values. Its snapshot is JSON text, from which it can be rebuilt.

* `Context.snapshot`, `Context.ofSnapshot` — to text and back.
* `Context.insert`, `Context.getAs` — typed writing and reading. A `Codec` says
  how values of a type are represented.
-/

namespace Runbook

/-- The business data of a run. -/
structure Context where
  /-- the values by key -/
  values : Catalog Json
  deriving Inhabited

/-- Why a value of the context cannot be read or written. -/
inductive ContextError where
  /-- there is no value for the key -/
  | missing (key : String)
  /-- the value is of another type -/
  | typeMismatch (key : String) (cause : ReadError)
  /-- the value cannot be represented -/
  | unserializable (key : String) (cause : EncodeError)

namespace ContextError

/-- The kind of the error. -/
def kind : ContextError → String
  | missing _ => "Missing"
  | typeMismatch .. => "TypeMismatch"
  | unserializable .. => "Unserializable"

/-- The wording of the cause, if the error has one. -/
def cause? : ContextError → Option String
  | missing _ => none
  | typeMismatch _ cause => some cause.message
  | unserializable _ cause => some cause.message

/-- The wording of the error; it ends with that of its cause. -/
def message : ContextError → String
  | missing key => "flow context has no value for key " ++ key
  | typeMismatch key cause =>
    "flow context value for key " ++ key ++ " has unexpected shape: " ++ cause.message
  | unserializable key cause =>
    "flow context value for key " ++ key ++ " is not serializable: " ++ cause.message

/-- The wording of the error followed by those of its causes. -/
def chain (e : ContextError) : String :=
  match e.cause? with
  | none => e.message
  | some cause => e.message ++ ": " ++ cause

end ContextError

/-- How values of a type are represented: as a datum to be stored, as JSON text
to be shown, and how they are read back. -/
structure Codec (α : Type) where
  /-- the representation, the fields of records in declared order -/
  encode : α → Json
  /-- how a representation is read -/
  shape : Shape α

namespace Context

/-- A context without values. -/
def empty : Context := ⟨Catalog.empty⟩

/-- The value for a key. -/
def get? (c : Context) (key : String) : Option Json := c.values.get? key

/-- Set the value for a key. -/
def set (c : Context) (key : String) (value : Json) : Context := ⟨c.values.insert key value⟩

/-- Take out the value for a key. -/
def erase (c : Context) (key : String) : Context := ⟨c.values.erase key⟩

/-- The keys, in ascending order. -/
def keys (c : Context) : List String := c.values.names

/-! ## Snapshots -/

/-- The values as one JSON object. -/
def toJson (c : Context) : Json := Json.ofCatalog c.values

/-- The values as JSON text. -/
def snapshot (c : Context) : String := c.toJson.print

/-- The context of which the text is a snapshot. -/
def ofSnapshot (text : String) : Except ReadError Context :=
  (Json.read (Shape.catalog Shape.any) text).map Context.mk

/-! ## Typed access -/

/-- Store a datum. -/
def insert (c : Context) (key : String) (datum : Datum) : Except ContextError Context :=
  match datum.toJson with
  | .ok j => .ok (c.set key j)
  | .error cause => .error (.unserializable key cause)

/-- The value for a key, read by a shape. -/
def getAs {α : Type} (c : Context) (key : String) (shape : Shape α) : Except ContextError α :=
  match c.get? key with
  | none => .error (.missing key)
  | some j => (Json.decode shape j).mapError (.typeMismatch key)

/-! ## What the view shows -/

@[simp] theorem get?_set (c : Context) (key other : String) (value : Json) :
    (c.set key value).get? other = if other = key then some value else c.get? other :=
  c.values.get?_insert key other value

@[simp] theorem get?_erase (c : Context) (key other : String) :
    (c.erase key).get? other = if other = key then none else c.get? other :=
  c.values.get?_erase key other

end Context

/-! ## Codecs of common types -/

namespace Codec

/-- Unsigned integers of a width. -/
def natural (bits : Nat) : Codec Nat :=
  ⟨fun n => .int n, Shape.natural bits ("u" ++ toString bits)⟩

/-- Signed integers of 64 bits. -/
def int64 : Codec Int := ⟨.int, Shape.int64⟩

/-- Binary64 numbers. -/
def real : Codec Binary64 := ⟨.real, Shape.real⟩

/-- Truth values. -/
def bool : Codec Bool := ⟨.bool, Shape.bool⟩

/-- Strings. -/
def string : Codec String := ⟨.text, Shape.string⟩

/-- Any values. -/
def any : Codec Json := ⟨id, Shape.any⟩

/-- Lists. -/
def list {α : Type} (c : Codec α) : Codec (List α) :=
  ⟨fun as => .list (as.map c.encode), c.shape.list⟩

/-- Optional values. -/
def option {α : Type} (c : Codec α) : Codec (Option α) :=
  ⟨fun
    | none => .null
    | some a => c.encode a, c.shape.option⟩

/-- Catalogs of values of one type. -/
def catalog {α : Type} (c : Codec α) : Codec (Catalog α) :=
  ⟨fun as => .object (as.entries.map fun e => (e.1, c.encode e.2)), Shape.catalog c.shape⟩

end Codec

end Runbook
