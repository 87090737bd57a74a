import Runbook.Binary64.Shortest
import Runbook.Catalog

/-!
# JSON values and their compact text

* `Json` — values as a tree. Integers and other numbers are kept apart:
  an integer literal in range stays an integer. An object is a list of members
  in the order in which it is printed.
* `Json.print` — the compact text: no blanks, strings escaped only where they
  must be.
-/

namespace Runbook

/-- A JSON value. -/
inductive Json where
  /-- the absent value -/
  | null
  /-- a truth value -/
  | bool (b : Bool)
  /-- a number written without point and exponent -/
  | int (i : Int)
  /-- any other number -/
  | real (x : Binary64)
  /-- a string -/
  | text (s : String)
  /-- an array -/
  | list (items : List Json)
  /-- an object, its members in printing order -/
  | object (members : List (String × Json))
  deriving Inhabited, Repr

namespace Json

/-! ## Equality -/

mutual

/-- Whether two values are the same, member order included. -/
def same : Json → Json → Bool
  | null, null => true
  | bool a, bool b => a == b
  | int i, int j => i == j
  | real x, real y => x == y
  | text s, text t => s == t
  | list xs, list ys => sameItems xs ys
  | object ms, object ns => sameMembers ms ns
  | _, _ => false

/-- Whether two arrays agree item by item. -/
def sameItems : List Json → List Json → Bool
  | [], [] => true
  | x :: xs, y :: ys => same x y && sameItems xs ys
  | _, _ => false

/-- Whether two objects agree member by member. -/
def sameMembers : List (String × Json) → List (String × Json) → Bool
  | [], [] => true
  | (k, x) :: ms, (l, y) :: ns => k == l && same x y && sameMembers ms ns
  | _, _ => false

end

instance : BEq Json := ⟨same⟩

/-! ## Members -/

/-- The value of a member. -/
def get? (key : String) : Json → Option Json
  | object members => members.lookup key
  | _ => none

/-- An object with the entries of a catalog, which come in key order. -/
def ofCatalog (c : Catalog Json) : Json := object c.entries

mutual

/-- The value with the members of all its objects sorted by key; of several
members with one key the last counts. -/
def sort : Json → Json
  | list xs => list (sortItems xs)
  | object ms => ofCatalog (Catalog.ofList (sortMembers ms))
  | j => j

/-- Sort inside items. -/
def sortItems : List Json → List Json
  | [] => []
  | x :: xs => sort x :: sortItems xs

/-- Sort inside members. -/
def sortMembers : List (String × Json) → List (String × Json)
  | [] => []
  | (k, v) :: ms => (k, sort v) :: sortMembers ms

end

/-! ## Printing -/

/-- A hexadecimal digit. -/
def hexDigit (n : Nat) : Char := Nat.digitChar n

/-- The characters that stand for `c` inside a quoted string. -/
def escapeChar (c : Char) : List Char :=
  if c = '"' then ['\\', '"']
  else if c = '\\' then ['\\', '\\']
  else if 0x20 ≤ c.toNat then [c]
  else if c = '\x08' then ['\\', 'b']
  else if c = '\t' then ['\\', 't']
  else if c = '\n' then ['\\', 'n']
  else if c = '\x0c' then ['\\', 'f']
  else if c = '\r' then ['\\', 'r']
  else ['\\', 'u', '0', '0', hexDigit (c.toNat / 16), hexDigit (c.toNat % 16)]

/-- A string in quotes. -/
def printText (s : String) : List Char :=
  '"' :: s.toList.flatMap escapeChar ++ ['"']

mutual

/-- The compact text of a value, as characters. -/
def chars : Json → List Char
  | null => ['n', 'u', 'l', 'l']
  | bool true => ['t', 'r', 'u', 'e']
  | bool false => ['f', 'a', 'l', 's', 'e']
  | int i => (toString i).toList
  | real x => x.render.toList
  | text s => printText s
  | list [] => ['[', ']']
  | list (x :: xs) => '[' :: chars x ++ itemChars xs
  | object [] => ['\x7b', '\x7d']
  | object ((k, v) :: ms) => '\x7b' :: printText k ++ ':' :: chars v ++ memberChars ms

/-- The items after the first one, and the closing bracket. -/
def itemChars : List Json → List Char
  | [] => [']']
  | x :: xs => ',' :: chars x ++ itemChars xs

/-- The members after the first one, and the closing brace. -/
def memberChars : List (String × Json) → List Char
  | [] => ['\x7d']
  | (k, v) :: ms => ',' :: printText k ++ ':' :: chars v ++ memberChars ms

end

/-- The compact text of a value. -/
def print (j : Json) : String := String.ofList j.chars

end Json

end Runbook
