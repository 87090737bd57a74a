import Runbook.Engine
import Runbook.Place
import Runbook.Store.Relational
import Runbook.StoreUrl

/-!
# Opening the relational store

An engine begins with the store of a URL: the directory of its file is made if
need be, the store is opened, and what an earlier process left unfinished is
closed.

* `OpeningError` — why an engine cannot begin.
* `Opening.openNew` — opening a store in a place where there was none.
* `Engine.openAt` — an engine with the new store of a URL.
* `Engine.reopen` — an engine that begins anew with the same store.
-/

namespace Runbook

/-- Why a database cannot be opened. -/
inductive DatabaseFault where
  /-- there is no layer of that name -/
  | unknownLayer (name : String)
  /-- the file is on another host -/
  | foreignHost (name : String)
  /-- a connection does not see what another one made -/
  | noTable
  /-- nothing can be written -/
  | readOnly
  /-- there is no room -/
  | full
  /-- there is no file in its place, and none can be made -/
  | noFile
  /-- the file is none of a database -/
  | foreign
  /-- the file cannot be read -/
  | unreadable
  /-- what is written is not kept -/
  | notKept
  deriving DecidableEq, Repr

namespace DatabaseFault

/-- The number of the fault. -/
def code : DatabaseFault → Nat
  | unknownLayer _ | foreignHost _ | noTable => 1
  | readOnly => 8
  | full => 13
  | noFile => 14
  | foreign => 26
  | unreadable => 266
  | notKept => 1034

/-- What happened. -/
def text : DatabaseFault → String
  -- a blank in the name of a layer is shown as it is sent
  | unknownLayer name => "no such vfs: " ++ name.map fun c => if c = ' ' then '+' else c
  | foreignHost name => "invalid uri authority: " ++ name
  | noTable => "no such table: main.workflows"
  | readOnly => "attempt to write a readonly database"
  | full => "database or disk is full"
  | noFile => "unable to open database file"
  | foreign => "file is not a database"
  | unreadable | notKept => "disk I/O error"

/-- The wording of the fault. -/
def message (f : DatabaseFault) : String := "(code: " ++ toString f.code ++ ") " ++ f.text

end DatabaseFault

/-- Why an engine cannot begin. -/
inductive OpeningError where
  /-- the directory of the file cannot be made -/
  | directory (f : DirectoryFault)
  /-- the URL is wrong -/
  | url (f : UrlFault)
  /-- the path has a character that no path can have -/
  | zeroInPath
  /-- the database cannot be opened -/
  | database (f : DatabaseFault)
  /-- what an earlier process left cannot be closed -/
  | recovery (e : EngineError)

namespace OpeningError

/-- The wording of a fault of the store. -/
def ofStore (text : String) : String :=
  "Failed to open workflow store: " ++ (EngineError.storage (.described text)).message

/-- The wording of the error. -/
def message : OpeningError → String
  | directory f => "Failed to create data directory: " ++ f.message
  | url f => ofStore ("error with configuration: " ++ f.message)
  | zeroInPath => ofStore <|
    "error communicating with database: filename passed to SQLite must not contain nul bytes"
  | database f => ofStore ("error returned from database: " ++ f.message)
  | recovery e => "Failed to recover orphaned workflows: " ++ e.message

end OpeningError

namespace Opening

/-- The path by which a store in memory goes. -/
def memoryPath : String := ":memory:"

/-- The path whose directory is made. Only one scheme is taken off, and nothing
is unescaped. -/
def plainPath (url : String) : String :=
  if url.startsWith "sqlite://" then (url.drop 9).toString
  else if url.startsWith "sqlite:" then (url.drop 7).toString
  else url

/-- Make the directory of a store; the places of the directories on the way. -/
def makeDirectory (url : String) : Except DirectoryFault (List Place) :=
  if (plainPath url).startsWith memoryPath then .ok []
  else Place.makeDirectoryOf (Text.splitAtFirst '?' (plainPath url)).1

/-- The layers through which files are accessed. -/
def layers : List String := ["unix", "unix-excl", "unix-dotfile", "unix-none"]

/-- The layer that keeps everything in memory. -/
def memoryLayer : String := "memdb"

/-- How many bytes the name of a database can have; the journal beside it has a
longer one. -/
def nameLimit : Nat := 247

/-- How many bytes the path of a database can have. -/
def pathLimit : Nat := 512

/-- Whether a database can be made at a place where nothing stands, if these
directories were made. -/
def hasRoom (made : List Place) (p : Place) : Bool :=
  (p.parent.occupant = .directory || made.contains p.parent) && p.sealed?.isNone
    && p.names.getLast?.all (·.utf8ByteSize ≤ nameLimit)
    && p.names.foldl (fun n name => n + name.utf8ByteSize + 1) 0 ≤ pathLimit

/-- Why a database cannot be opened at a place, if these directories were
made. -/
def placeFault? (made : List Place) (o : StoreOptions) (p : Place) : Option DatabaseFault :=
  match p.occupant with
  | .directory => some (directoryFault o p)
  | .file => some .foreign
  | .sink s =>
    if o.readOnly || o.immutable then some .readOnly
    else some (sinkFault s)
  | .nothing =>
    if made.contains p then some (directoryFault o p)
    else if o.readOnly || !hasRoom made p then some .noFile
    else if o.immutable then some .readOnly
    else none
where
  /-- The fault of what is written. -/
  sinkFault : Sink → DatabaseFault
    | .drops => .notKept
    | .full => .full
    | .closed => .noFile
  /-- A directory can be opened to read it, though it cannot be read; the root
  cannot even be opened. -/
  directoryFault (o : StoreOptions) (p : Place) : DatabaseFault :=
    if o.readOnly && p ≠ ⟨.root, []⟩ then .unreadable else .noFile

/-- What stands before the first character that no path can have. -/
def beforeZero (s : String) : String := String.ofList (s.toList.takeWhile (· ≠ '\x00'))

/-- The path that a URI gives, whose scheme has been taken off. -/
def uriPath (s : String) : Except DatabaseFault String :=
  let path (cs : List Char) : String :=
    beforeZero (Utf8.text (Text.unescape (.ofList (cs.takeWhile fun c => c ≠ '?' && c ≠ '#'))))
  match s.toList with
  | '/' :: '/' :: rest =>
    let host := String.ofList (rest.takeWhile (· ≠ '/'))
    if host = "" ∨ host = "localhost" then .ok (path (rest.dropWhile (· ≠ '/')))
    else .error (.foreignHost host)
  | cs => .ok (path cs)

/-- Whether the database is given a URI instead of a path. -/
def isUri (u : StoreUrl) : Bool := u.options.areSent || u.file.startsWith "file:"

/-- The path of the file. Where options are sent along with it, it is part of a
URI already and stands for itself. -/
def filePath (u : StoreUrl) : Except DatabaseFault String :=
  if u.options.areSent then .ok (beforeZero u.file)
  else if u.file.startsWith "file:" then uriPath (u.file.drop 5).toString
  else .ok u.file

/-- Whether all connections to a store in memory with that path share it. -/
def isShared (u : StoreUrl) (path : String) : Bool :=
  path ≠ "" && (u.options.inMemory && u.options.shared && isUri u
    || !u.options.inMemory && path.startsWith "/" && path ≠ "/")

/-- Why the database of a URL cannot be opened, if these directories were
made. -/
def databaseFault? (made : List Place) (u : StoreUrl) : Option DatabaseFault :=
  let o := u.options
  let layer := o.layer.map beforeZero
  match layer.filter fun name => !(memoryLayer :: layers).contains name with
  | some name => some (.unknownLayer name)
  | none =>
    match filePath u with
    | .error f => some f
    | .ok path =>
      if o.inMemory || layer = some memoryLayer || path = "" then
        if o.readOnly then some .readOnly
        else if isShared u path then none
        else some .noTable
      else placeFault? made o (Place.ofString path)

/-- Open the store of a URL, in a place where there was none. -/
def openNew (url : String) : Except OpeningError Relational := do
  let made ← (makeDirectory url).mapError .directory
  -- of the URL of a store in memory nothing else is looked at
  if !url.contains memoryPath then
    let u ← (StoreUrl.ofString url).mapError .url
    -- with options that are sent along, the path ends at such a character
    if u.file.toList.contains '\x00' && !u.options.areSent then .error .zeroInPath
    if let some f := databaseFault? made u then .error (.database f)
  return .empty

end Opening

namespace Engine

/-- An engine with the new store of a URL, which shares a registry. -/
def openAt (settings : Settings) (registry : Registry) (url : String) :
    Except OpeningError (Engine Relational) :=
  (Opening.openNew url).map fun store =>
    { Engine.idle settings store with registry := registry }

/-- Begin anew with the same store: every run that has not ended is closed, and
nobody keeps track of the tasks in the background any longer. If a run cannot be
closed, the engine goes on as before. -/
def reopen {σ : Type} [Store σ] (e : Engine σ) : Except OpeningError (List String) × Engine σ :=
  let (closed, store, readings) := Recovery.sweep Host.reading (e.host.store, e.host.readings)
  let e := { e with host := { e.host with store := store, readings := readings } }
  match closed with
  | .error f => (.error (.recovery f), e)
  | .ok ids => (.ok ids, { e with runner := e.runner.untrack, live := .empty })

end Engine

end Runbook
