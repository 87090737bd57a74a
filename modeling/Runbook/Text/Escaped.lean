import Runbook.Text.Utf8

/-!
# Escaped text

In a URL a percent sign and two hexadecimal digits stand for a byte. Parameters
are pairs of a name and a value between ampersands, in which a plus sign stands
for a blank besides.

* `Text.unescape` — the bytes that an escaped text stands for.
* `Text.parameters` — the parameters that a text gives.
-/

namespace Runbook.Text

/-- The value of a hexadecimal digit. -/
def hexDigit? (b : UInt8) : Option Nat :=
  let n := b.toNat
  if 48 ≤ n ∧ n ≤ 57 then some (n - 48)
  else if 65 ≤ n ∧ n ≤ 70 then some (n - 55)
  else if 97 ≤ n ∧ n ≤ 102 then some (n - 87)
  else none

/-- Put bytes for the percent signs that two digits follow; any other percent
sign stands for itself. -/
def unescapeBytes : List UInt8 → List UInt8
  | 37 :: a :: b :: rest =>
    match hexDigit? a, hexDigit? b with
    | some x, some y => UInt8.ofNat (x * 16 + y) :: unescapeBytes rest
    | _, _ => 37 :: unescapeBytes (a :: b :: rest)
  | b :: rest => b :: unescapeBytes rest
  | [] => []

/-- The bytes that an escaped text stands for. -/
def unescape (s : String) : List UInt8 := unescapeBytes s.toUTF8.toList

/-- What stands before the first `mark`, and what behind it. -/
def splitAtFirst (mark : Char) (s : String) : String × String :=
  let cs := s.toList
  (String.ofList (cs.takeWhile (· ≠ mark)), String.ofList ((cs.dropWhile (· ≠ mark)).drop 1))

/-- The text that a name or a value of a parameter stands for. -/
def parameterText (raw : String) : String :=
  Utf8.text (unescape (raw.map fun c => if c = '+' then ' ' else c))

/-- The parameters that a text gives, in order. -/
def parameters (s : String) : List (String × String) :=
  ((s.splitOn "&").filter (· ≠ "")).map fun piece =>
    let (name, value) := splitAtFirst '=' piece
    (parameterText name, parameterText value)

end Runbook.Text
