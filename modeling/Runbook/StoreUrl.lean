import Runbook.Text.Escaped
import Runbook.Text.Quoted

/-!
# URLs of stores

A deployment names its store by the path of a file, with a scheme before it and
parameters behind a question mark that say how the file is to be opened.

* `StoreUrl` — the file of a store and how it is opened.
* `StoreUrl.ofString` — reading a URL.
-/

namespace Runbook

/-- How the file of a store is opened. -/
structure StoreOptions where
  /-- whether it is only read -/
  readOnly : Bool
  /-- whether the store is in memory, without any file -/
  inMemory : Bool
  /-- whether connections share what they hold in memory -/
  shared : Bool
  /-- whether nobody else changes the file either -/
  immutable : Bool
  /-- the layer through which files are accessed, by name -/
  layer : Option String
  deriving DecidableEq, Repr

/-- The file of a store, and how it is opened. -/
structure StoreUrl where
  /-- the path of the file; an empty one stands for a store that is never kept -/
  file : String
  /-- how it is opened -/
  options : StoreOptions
  deriving DecidableEq, Repr

/-- What is wrong with the URL of a store. -/
inductive UrlFault where
  /-- the path is no text -/
  | notText (f : Utf8.Fault)
  /-- it has a parameter that means nothing -/
  | unknownParameter (name : String)
  /-- a parameter has a value that means nothing -/
  | unknownValue (name value : String)
  deriving DecidableEq, Repr

/-- The wording of the fault. -/
def UrlFault.message : UrlFault → String
  | notText f => f.message
  | unknownParameter name =>
    "unknown query parameter `" ++ name ++ "` while parsing connection URL"
  | unknownValue name value => "unknown value " ++ Text.quote value ++ " for `" ++ name ++ "`"

namespace StoreOptions

/-- How a file is opened unless parameters say otherwise. -/
def standard : StoreOptions := ⟨false, false, false, false, none⟩

/-- Whether the options are sent to the database along with the path. -/
def areSent (o : StoreOptions) : Bool := o.immutable || o.layer.isSome

/-- The truth value of that name. -/
def flag? (value : String) : Option Bool :=
  if value = "true" ∨ value = "1" then some true
  else if value = "false" ∨ value = "0" then some false
  else none

/-- Take over a parameter. One that comes again changes only what its value is
about: `ro` is not taken back by `rw`. -/
def withParameter (o : StoreOptions) (name value : String) : Except UrlFault StoreOptions :=
  match name with
  | "mode" =>
    match value with
    | "ro" => .ok { o with readOnly := true }
    | "rw" | "rwc" => .ok o
    | "memory" => .ok { o with inMemory := true, shared := true }
    | _ => .error (.unknownValue name value)
  | "cache" =>
    match value with
    | "private" => .ok { o with shared := false }
    | "shared" => .ok { o with shared := true }
    | _ => .error (.unknownValue name value)
  | "immutable" =>
    match flag? value with
    | some b => .ok { o with immutable := b }
    | none => .error (.unknownValue name value)
  | "vfs" => .ok { o with layer := some value }
  | _ => .error (.unknownParameter name)

end StoreOptions

namespace StoreUrl

/-- The characters behind all repetitions of `start` at the front; at most as
many as the fuel. -/
def dropAll (start : List Char) : Nat → List Char → List Char
  | 0, s => s
  | fuel + 1, s =>
    if start.isPrefixOf s then dropAll start fuel (s.drop start.length) else s

/-- A URL without its scheme, however often that is repeated. -/
def withoutScheme (s : String) : String :=
  let cs := dropAll "sqlite://".toList s.length s.toList
  String.ofList (dropAll "sqlite:".toList s.length cs)

/-- Read a URL. The path is looked at before the parameters, and these in
order. -/
def ofString (s : String) : Except UrlFault StoreUrl := do
  let (path, query) := Text.splitAtFirst '?' (withoutScheme s)
  let bytes := Text.unescape path
  if let some f := Utf8.fault? bytes then .error (.notText f)
  let options ← (Text.parameters query).foldlM (fun o p => o.withParameter p.1 p.2) .standard
  return ⟨Utf8.text bytes, options⟩

end StoreUrl

end Runbook
