/-!
# Binary floating point, exactly

The numbers of the IEEE 754 binary64 format, kept as an integer times a power
of two, so that every operation is integer arithmetic that proofs can follow.

* `Binary64` — a sign, a significand below `2 ^ 53` and an exponent. The
  representation is canonical: equal finite numbers of equal sign are equal
  values. Infinities and NaN have no place here; an operation that would
  overflow has no result.
* `Binary64.round` — the nearest representable number to a fraction, a tie
  going to the even significand.
* `Binary64.mul`, `Binary64.div` — the exact result, rounded once.
-/

namespace Runbook

/-- A finite binary64 number: `significand * 2 ^ exponent`, negated when
`negative`. Zero keeps its sign. -/
structure Binary64 where
  /-- whether the sign bit is set -/
  negative : Bool
  /-- the integer significand -/
  significand : Nat
  /-- the power of two that scales the significand -/
  exponent : Int
  /-- the significand has at most 53 bits and the exponent is in range -/
  inRange : significand < 1 <<< 53 ∧ -1074 ≤ exponent ∧ exponent ≤ 971
  /-- all 53 bits are used unless the exponent is the least one -/
  normal : 1 <<< 52 ≤ significand ∨ exponent = -1074
  deriving DecidableEq, Repr

namespace Binary64

/-- Zero with the given sign. -/
def zero (negative : Bool) : Binary64 :=
  ⟨negative, 0, -1074, by decide, by decide⟩

instance : Inhabited Binary64 := ⟨zero false⟩

/-- Whether the number is zero of either sign. -/
def isZero (x : Binary64) : Bool := x.significand == 0

/-- Flip the sign. -/
def neg (x : Binary64) : Binary64 := { x with negative := !x.negative }

/-- The number with these parts, if they are canonical. -/
def ofParts? (negative : Bool) (significand : Nat) (exponent : Int) : Option Binary64 :=
  if h : significand < 1 <<< 53 ∧ -1074 ≤ exponent ∧ exponent ≤ 971 then
    if h' : 1 <<< 52 ≤ significand ∨ exponent = -1074 then
      some ⟨negative, significand, exponent, h, h'⟩
    else none
  else none

/-! ## Rounding -/

/-- The fraction `num / (den * 2 ^ e)` as a numerator and a denominator. -/
def scaleDown (num den : Nat) (e : Int) : Nat × Nat :=
  if 0 ≤ e then (num, den <<< e.toNat) else (num <<< (-e).toNat, den)

/-- The integer nearest to `num / den`; a tie goes to the even one. -/
def roundDiv (num den : Nat) : Nat :=
  let q := num / den
  let r := num % den
  if 2 * r < den then q
  else if den < 2 * r then q + 1
  else if q % 2 = 0 then q else q + 1

/-- The representable number nearest to `num / den` (with `den` positive), a
tie going to the even significand; nothing if that lies beyond the largest
number. -/
def round (negative : Bool) (num den : Nat) : Option Binary64 :=
  if num = 0 then some (zero negative)
  else
    -- `num / den` lies strictly between `2 ^ (d - 1)` and `2 ^ (d + 1)`
    let d : Int := (num.log2 : Int) - (den.log2 : Int)
    let e := max (-1074) (d - 53)
    let (n, m) := scaleDown num den e
    let e := if 1 <<< 53 ≤ n / m then e + 1 else e
    let (n, m) := scaleDown num den e
    let s := roundDiv n m
    if s = 1 <<< 53 then ofParts? negative (1 <<< 52) (e + 1) else ofParts? negative s e

/-- The representable number nearest to a natural number. Every natural number
below `2 ^ 1024` less half a unit has one. -/
def ofNat? (n : Nat) : Option Binary64 := round false n 1

/-- The representable number nearest to an integer. -/
def ofInt? (i : Int) : Option Binary64 := round (decide (i < 0)) i.natAbs 1

/-! ## Arithmetic -/

/-- The magnitude as a fraction. -/
def fraction (x : Binary64) : Nat × Nat :=
  if 0 ≤ x.exponent then (x.significand <<< x.exponent.toNat, 1)
  else (x.significand, 1 <<< (-x.exponent).toNat)

/-- The product, rounded once; nothing on overflow. -/
def mul (x y : Binary64) : Option Binary64 :=
  round (x.negative != y.negative) (x.fraction.1 * y.fraction.1) (x.fraction.2 * y.fraction.2)

/-- The quotient, rounded once; nothing on overflow or division by zero. -/
def div (x y : Binary64) : Option Binary64 :=
  if y.isZero then none
  else round (x.negative != y.negative) (x.fraction.1 * y.fraction.2)
    (x.fraction.2 * y.fraction.1)

/-- The representable number nearest to `10 ^ k`. -/
def tenTo? (k : Nat) : Option Binary64 := ofNat? (Nat.pow 10 k)

end Binary64

end Runbook
