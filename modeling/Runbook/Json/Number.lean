import Runbook.Json

/-!
# Numbers in JSON text

A number is read in two steps.

* `Numeral.scan` — the grammar: an optional minus sign, an integer part without
  leading zeros, an optional fraction and an optional exponent, each of them
  with at least one digit.
* `Numeral.value` — the value. A numeral without fraction and exponent is an
  integer if it fits 64 bits. Everything else is a binary64 number: the leading
  digits that fit an unsigned 64-bit word are rounded once, then scaled by a
  power of ten and rounded again, so the result can be a unit away from the
  nearest number.
-/

namespace Runbook

/-- How a text fails to be JSON. -/
inductive Fault where
  /-- a character that cannot stand where it does -/
  | malformed
  /-- the text ends too early -/
  | unfinished
  deriving DecidableEq, Repr

namespace Json

/-- The value of a decimal digit. -/
def digitValue (c : Char) : Nat := c.toNat - '0'.toNat

/-- A number literal taken apart. -/
structure Numeral where
  /-- whether a minus sign stands in front -/
  negative : Bool
  /-- the digits of the integer part -/
  whole : List Char
  /-- the digits after the point, if there is one -/
  fraction : Option (List Char)
  /-- whether the exponent is negative and its digits, if there is one -/
  exponent : Option (Bool × List Char)
  deriving Repr

namespace Numeral

/-! ## The grammar -/

/-- At least one digit, and what follows the digits. -/
def scanDigits (s : List Char) : Except Fault (List Char × List Char) :=
  match s.takeWhile Char.isDigit with
  | [] => .error (if s.isEmpty then .unfinished else .malformed)
  | digits => .ok (digits, s.dropWhile Char.isDigit)

/-- An integer part: a zero alone, or digits that do not begin with zero. -/
def scanWhole (s : List Char) : Except Fault (List Char × List Char) := do
  let (digits, rest) ← scanDigits s
  match digits with
  | '0' :: _ :: _ => .error .malformed
  | _ => .ok (digits, rest)

/-- A fraction, if a point follows. -/
def scanFraction : List Char → Except Fault (Option (List Char) × List Char)
  | '.' :: s => do
    let (digits, rest) ← scanDigits s
    return (some digits, rest)
  | s => .ok (none, s)

/-- The sign of an exponent. -/
def scanSign : List Char → Bool × List Char
  | '+' :: s => (false, s)
  | '-' :: s => (true, s)
  | s => (false, s)

/-- An exponent, if its mark follows. -/
def scanExponent : List Char → Except Fault (Option (Bool × List Char) × List Char)
  | c :: s =>
    if c = 'e' ∨ c = 'E' then do
      let (negative, s) := scanSign s
      let (digits, rest) ← scanDigits s
      return (some (negative, digits), rest)
    else .ok (none, c :: s)
  | [] => .ok (none, [])

/-- The number at the front of the text, and what follows it. -/
def scan (s : List Char) : Except Fault (Numeral × List Char) := do
  let (negative, s) := match s with
    | '-' :: s => (true, s)
    | s => (false, s)
  let (whole, s) ← scanWhole s
  let (fraction, s) ← scanFraction s
  let (exponent, s) ← scanExponent s
  return (⟨negative, whole, fraction, exponent⟩, s)

/-! ## The value -/

/-- The greatest unsigned 64-bit word. -/
def wordMax : Nat := UInt64.size - 1

/-- Extend `n` by the leading digits that keep it within a word. Also gives the
digits that no longer fit. -/
def accumulate (n : Nat) : List Char → Nat × List Char
  | [] => (n, [])
  | c :: rest =>
    let next := n * 10 + digitValue c
    if next ≤ wordMax then accumulate next rest else (n, c :: rest)

/-- Scale a number by `10 ^ exponent`, stepping by `1e308` while the exponent is
below the range of the powers of ten. Nothing if the result is too large. -/
def scaleByTen (x : Binary64) (exponent : Int) : Option Binary64 :=
  if exponent.natAbs ≤ 308 then do
    let power ← Binary64.tenTo? exponent.natAbs
    if 0 ≤ exponent then x.mul power else x.div power
  else if x.isZero then some x
  else if 0 ≤ exponent then none
  else do
    let power ← Binary64.tenTo? 308
    let smaller ← x.div power
    scaleByTen smaller (exponent + 308)
termination_by exponent.natAbs

/-- The greatest exponent that is looked at digit by digit. -/
def exponentMax : Nat := Int32.maxValue.toNatClampNeg

/-- The integer that the digits of an exponent stand for, if it is in range. -/
def exponentValue? (digits : List Char) : Option Nat :=
  let n := digits.foldl (fun n c => n * 10 + digitValue c) 0
  if n ≤ exponentMax then some n else none

/-- The number `significand * 10 ^ exponent` with the exponent of the numeral added. An
exponent beyond its range makes the number zero or too large. -/
def realValue (numeral : Numeral) (significand : Nat) (exponent : Int) : Option Binary64 := do
  let signed (x : Binary64) := if numeral.negative then x.neg else x
  let scaled (e : Int) : Option Binary64 := do
    let x ← Binary64.ofNat? significand
    return signed (← scaleByTen x e)
  match numeral.exponent with
  | none => scaled exponent
  | some (negative, digits) =>
    match exponentValue? digits with
    | some e => scaled (if negative then exponent - e else exponent + e)
    | none =>
      if significand ≠ 0 ∧ ¬negative then none else some (signed (.zero false))

/-- The value of an integer literal: an integer between `-2 ^ 63` and
`2 ^ 64 - 1`, else the nearest binary64 number. Minus zero is not an integer. -/
def integerValue (negative : Bool) (n : Nat) : Option Json :=
  if negative then
    if n = 0 then some (.real (.zero true))
    else if Int64.minValue.toInt ≤ -n then some (.int (-n))
    else (Binary64.ofNat? n).map fun x => .real x.neg
  else some (.int n)

/-- The value of a numeral; nothing if it is too large for binary64. Digits of
the integer part that do not fit the word count as powers of ten, digits of the
fraction that do not fit are dropped. -/
def value (numeral : Numeral) : Option Json :=
  let (n, excess) := accumulate 0 numeral.whole
  match numeral.fraction with
  | none =>
    if excess.isEmpty ∧ numeral.exponent.isNone then integerValue numeral.negative n
    else (numeral.realValue n excess.length).map .real
  | some digits =>
    let (m, dropped) := accumulate n digits
    let used := digits.length - dropped.length
    (numeral.realValue m ((excess.length : Int) - used)).map .real

end Numeral

end Json

end Runbook
