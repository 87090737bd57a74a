/-!
# Media types

The type of a body: a type and a subtype, perhaps with a suffix behind the last
plus sign, and parameters behind semicolons. Case does not matter.

* `MediaType.ofString?` — reading a media type.
* `MediaType.isJson` — whether a body of that type is JSON.
-/

namespace Runbook.Api

/-- A media type, in lower case and without its parameters. -/
structure MediaType where
  /-- the type -/
  main : String
  /-- the subtype, without its suffix -/
  sub : String
  /-- the suffix -/
  suffix : Option String
  deriving DecidableEq, Repr

namespace MediaType

/-- Whether a character can be part of a name. -/
def isTokenChar (c : Char) : Bool := c.isAlphanum || "!#$%&'*+-.^_`|~".toList.contains c

/-- Whether a character can be written in a header. -/
def isVisible (c : Char) : Bool := 31 < c.toNat && c.toNat < 127

/-- The rest behind a value in quotes: blanks up to a semicolon or the end. -/
def afterQuotes (cs : List Char) : Option (List Char) :=
  match cs.dropWhile (· = ' ') with
  | [] => some []
  | ';' :: rest => some rest
  | _ => none

/-- The rest behind the value of a parameter. A value in quotes has at least one
character, so a quote right behind the opening one does not close it. -/
def afterValue (cs : List Char) : Option (List Char) :=
  match cs with
  | '"' :: quoted =>
    let first := quoted.take 1
    let others := quoted.drop 1
    match others.dropWhile fun c => isVisible c && c ≠ '"' with
    | '"' :: rest => if first.all isVisible then afterQuotes rest else none
    | _ => none
  | _ =>
    match cs.takeWhile isTokenChar, cs.dropWhile isTokenChar with
    | _, [] => some []
    | _ :: _, ';' :: rest => some rest
    | _, _ => none

/-- Whether the characters are parameters: each a name, an equals sign and a
value, with semicolons between them. -/
def areParameters : Nat → List Char → Bool
  | 0, _ => false
  | fuel + 1, cs =>
    match cs.dropWhile (· = ' ') with
    | [] => true
    | rest =>
      match rest.takeWhile isTokenChar, rest.dropWhile isTokenChar with
      | _ :: _, '=' :: value => (afterValue value).any (areParameters fuel)
      | _, _ => false

/-- A subtype and its suffix. -/
def splitSuffix (sub : List Char) : List Char × Option (List Char) :=
  match (sub.drop 1).reverse.dropWhile (· ≠ '+') with
  | [] => (sub, none)
  | _ :: before => (sub.take 1 ++ before.reverse, some (sub.reverse.takeWhile (· ≠ '+')).reverse)

/-- The media type that a text gives. -/
def ofString? (s : String) : Option MediaType :=
  let cs := s.toList.map Char.toLower
  match cs.takeWhile isTokenChar, cs.dropWhile isTokenChar with
  | main@(_ :: _), '/' :: rest =>
    let whole := rest.takeWhile isTokenChar
    let (sub, suffix) := splitSuffix whole
    let type := some ⟨.ofList main, .ofList sub, suffix.map .ofList⟩
    match rest.dropWhile isTokenChar with
    | [] => type
    | ';' :: parameters =>
      if !whole.isEmpty && areParameters (parameters.length + 1) parameters then type else none
    | _ => none
  | _, _ => none

/-- Whether a body of the type is JSON. -/
def isJson (t : MediaType) : Bool :=
  t.main == "application" && (t.sub == "json" || t.suffix == some "json")

end MediaType

end Runbook.Api
