import Runbook.Binary64

/-!
# The shortest decimal that reads back

Every binary64 number is the nearest one to a whole interval of reals. Among
the decimals of that interval those with the fewest significant digits are
wanted, and of these the one nearest to the number itself.

* `Binary64.Interval` — the reals that round to a number, over one common
  denominator.
* `Binary64.shortest` — the digits and the power of ten. For 1, 2, … 17 digits
  it looks at the two neighbours of the number on that decimal grid: if any
  point of a grid lies in the interval, so does one of these two.
* `Binary64.render` — the text. Plain notation for numbers from `1e-5` up to
  below `1e16`, always with a point; exponent notation with a sign otherwise.
-/

namespace Runbook.Binary64

/-- The reals that round to a number: from `low / den` to `high / den` around
`mid / den`, the ends included when `closed`. -/
structure Interval where
  /-- numerator of the lower end -/
  low : Nat
  /-- numerator of the number itself -/
  mid : Nat
  /-- numerator of the upper end -/
  high : Nat
  /-- the common denominator -/
  den : Nat
  /-- whether the ends round to the number too -/
  closed : Bool

/-- The reals whose nearest representable number has the magnitude of `x`. Half
a unit on either side, but only a quarter below a power of two, where the
numbers lie twice as dense. The ends belong to `x` when its significand is
even. -/
def interval (x : Binary64) : Interval :=
  -- in quarters of the last place
  let below := if x.significand = 1 <<< 52 ∧ x.exponent ≠ -1074 then 1 else 2
  let (scale, den) :=
    if 0 ≤ x.exponent then (1 <<< x.exponent.toNat, 4) else (1, 4 <<< (-x.exponent).toNat)
  { low := (4 * x.significand - below) * scale
    mid := 4 * x.significand * scale
    high := (4 * x.significand + 2) * scale
    den := den
    closed := x.significand % 2 == 0 }

/-- Whether `num / den` lies in the interval. -/
def Interval.contains (i : Interval) (num den : Nat) : Bool :=
  if i.closed then i.low * den ≤ num * i.den && num * i.den ≤ i.high * den
  else i.low * den < num * i.den && num * i.den < i.high * den

/-- The greatest `k` with `10 ^ k ≤ num / den`, for positive `num`. -/
def floorLog10 (num den : Nat) : Int :=
  if den ≤ num then ((Nat.toDigits 10 (num / den)).length : Int) - 1
  else
    -- `1 < den / num`, so `10 ^ (-k)` is the first power of ten not below it
    let q := (den + num - 1) / num
    let digits := (Nat.toDigits 10 q).length
    if q = Nat.pow 10 (digits - 1) then 1 - (digits : Int) else -(digits : Int)

/-- A decimal `digits * 10 ^ exponent`. -/
structure Decimal where
  /-- the integer in front of the power of ten -/
  digits : Nat
  /-- the power of ten -/
  exponent : Int

/-- The decimal as a fraction. -/
def Decimal.fraction (d : Decimal) : Nat × Nat :=
  if 0 ≤ d.exponent then (d.digits * Nat.pow 10 d.exponent.toNat, 1)
  else (d.digits, Nat.pow 10 (-d.exponent).toNat)

/-- The better of the two neighbours of the interval's number on the grid of
multiples of `10 ^ k`, if one of them lies in the interval. A tie goes to the
even one. -/
def Interval.onGrid? (i : Interval) (k : Int) : Option Decimal :=
  let (n, m) :=
    if 0 ≤ k then (i.mid, i.den * Nat.pow 10 k.toNat) else (i.mid * Nat.pow 10 (-k).toNat, i.den)
  let lower : Decimal := ⟨n / m, k⟩
  let upper : Decimal := ⟨n / m + 1, k⟩
  let below := i.contains lower.fraction.1 lower.fraction.2
  let above := i.contains upper.fraction.1 upper.fraction.2
  match below, above with
  | true, true => some ⟨roundDiv n m, k⟩
  | true, false => some lower
  | false, true => some upper
  | false, false => none

/-- The shortest decimal in the interval: the first grid, from one significant
digit to seventeen, that has a point in it. -/
def Interval.shortest (i : Interval) : Decimal :=
  let top := floorLog10 i.mid i.den
  ((List.range 17).findSome? fun (n : Nat) => i.onGrid? (top - n)).getD ⟨0, 0⟩

/-- The shortest decimal that rounds to the magnitude of `x`. -/
def shortest (x : Binary64) : Decimal := x.interval.shortest

/-! ## Text -/

/-- Drop the zeros at the end of a digit list. -/
def dropTrailingZeros (digits : List Char) : List Char :=
  (digits.reverse.dropWhile (· == '0')).reverse

/-- Digits without trailing zeros and the power of ten of the first of them. -/
def Decimal.scientific (d : Decimal) : List Char × Int :=
  let all := Nat.toDigits 10 d.digits
  (dropTrailingZeros all, d.exponent + (all.length : Int) - 1)

/-- Write significant digits of which the first stands for `10 ^ x`. -/
def renderScientific (digits : List Char) (x : Int) : List Char :=
  if -5 ≤ x ∧ x ≤ 15 then
    if 0 ≤ x then
      let whole := x.toNat + 1
      if digits.length ≤ whole then
        digits ++ List.replicate (whole - digits.length) '0' ++ ['.', '0']
      else digits.take whole ++ '.' :: digits.drop whole
    else '0' :: '.' :: List.replicate ((-x).toNat - 1) '0' ++ digits
  else
    let lead := match digits with
      | [] => []
      | [d] => [d]
      | d :: rest => d :: '.' :: rest
    lead ++ 'e' :: (if x < 0 then '-' else '+') :: Nat.toDigits 10 x.natAbs

/-- The shortest text that reads back as `x`. -/
def render (x : Binary64) : String :=
  let sign := if x.negative then ['-'] else []
  let body :=
    if x.isZero then ['0', '.', '0']
    else renderScientific x.shortest.scientific.1 x.shortest.scientific.2
  String.ofList (sign ++ body)

end Runbook.Binary64
