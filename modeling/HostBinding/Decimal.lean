import HostBinding.Binary64

/-!
# Shortest decimals

The decimal text of a double: the fewest digits that read back as the same double, and of those the
nearest to its value. All arithmetic is exact.

* `Decimal.Interval`: the value and the reals around it that round to it, on one common scale.
* `Decimal.shortest`: the point of the coarsest decimal grid that meets the interval.
* `Decimal.Style`: when a text has an exponent, and whether a whole number shows a fraction.
-/

namespace HostBinding

namespace Decimal

/-- A positive decimal `digits * 10 ^ exponent`. -/
structure Digits where
  digits : Nat
  exponent : Int
deriving DecidableEq, Repr

/-- A positive value with the ends of its rounding interval, all three over the one denominator `den`. -/
structure Interval where
  low : Nat
  value : Nat
  high : Nat
  den : Nat
  /-- Whether the ends themselves round to the value. -/
  closed : Bool
deriving DecidableEq, Repr

/-- The rounding interval of a finite double other than zero. Below a power of two the next double is
half as far away, except at the smallest exponent. -/
def Interval.of (x : Binary64) : Interval :=
  let (m, q) := x.magnitude
  let near := x.fraction = 0 ∧ 1 < x.exponentField
  let up := 1 <<< (q - 2).toNat
  { low := (if near then 4 * m - 1 else 4 * m - 2) * up
    value := 4 * m * up
    high := (4 * m + 2) * up
    den := 1 <<< (2 - q).toNat
    closed := m % 2 == 0 }

/-- Whether `d * 10 ^ k` lies in the interval. -/
def Interval.holds (i : Interval) (d : Nat) (k : Int) : Bool :=
  let p := d * Nat.pow 10 k.toNat * i.den
  let s := Nat.pow 10 (-k).toNat
  if i.closed then decide (i.low * s ≤ p ∧ p ≤ i.high * s)
  else decide (i.low * s < p ∧ p < i.high * s)

/-- The point of the grid of multiples of `10 ^ k` that is nearest to the value, if the interval holds a
point of that grid: one of the two neighbours of the value, the upper one on a tie. -/
def Interval.onGrid (i : Interval) (k : Int) : Option Digits :=
  let s := Nat.pow 10 (-k).toNat
  let unit := Nat.pow 10 k.toNat * i.den
  let d := i.value * s / unit
  let down := i.holds d k
  let up := i.holds (d + 1) k
  if up && (!down || decide (unit ≤ 2 * (i.value * s % unit))) then some ⟨d + 1, k⟩
  else if down then some ⟨d, k⟩
  else none

/-- The first hit on the `n` grids from `10 ^ k` on downwards. -/
def Interval.coarsest (i : Interval) : Nat → Int → Option Digits
  | 0, _ => none
  | n + 1, k => (i.onGrid k).orElse fun _ => i.coarsest n (k - 1)

/-- The digits of a finite double other than zero. Every double lies below `10 ^ 309`, and its interval is
wider than `10 ^ (-325)`, so 660 grids are enough. -/
def shortest (x : Binary64) : Digits :=
  ((Interval.of x).coarsest 660 309).getD ⟨0, 0⟩

/-- The digit characters without the zeros at the end, and the power of ten of the first digit. -/
def Digits.normal (d : Digits) : List Char × Int :=
  let cs := Nat.toDigits 10 d.digits
  ((cs.reverse.dropWhile (· = '0')).reverse, d.exponent + cs.length - 1)

/-- How doubles are written. -/
structure Style where
  /-- Values with a first digit below this power of ten have an exponent. -/
  exponentBelow : Option Int := none
  /-- Values with a first digit at this power of ten or above have an exponent. -/
  exponentFrom : Option Int := none
  /-- Whether a whole number ends in `.0`. -/
  pointAlways : Bool := false
deriving DecidableEq, Repr

/-- Digits in positional notation; `e` is the power of ten of the first one. -/
def positional (style : Style) (cs : List Char) (e : Int) : List Char :=
  let whole := if e < 0 then ['0'] else (cs ++ List.replicate (e.toNat + 1 - cs.length) '0').take (e.toNat + 1)
  let part := if e < 0 then List.replicate (-e - 1).toNat '0' ++ cs else cs.drop (e.toNat + 1)
  if part.isEmpty then (if style.pointAlways then whole ++ ['.', '0'] else whole)
  else whole ++ '.' :: part

/-- Digits with an exponent; `e` is the power of ten of the first one. -/
def scientific (cs : List Char) (e : Int) : List Char :=
  cs.take 1 ++ (if 1 < cs.length then '.' :: cs.drop 1 else []) ++ 'e' :: (toString e).toList

/-- Whether a value whose first digit has the power of ten `e` is written with an exponent. -/
def Style.usesExponent (style : Style) (e : Int) : Bool :=
  style.exponentBelow.any (fun b => decide (e < b)) || style.exponentFrom.any (fun b => decide (b ≤ e))

/-- The text of a double. -/
def text (style : Style) (x : Binary64) : String :=
  let sign := if x.isNegative then "-" else ""
  if x.isNaN then "NaN"
  else if !x.isFinite then sign ++ "inf"
  else if x.isZero then sign ++ String.ofList (positional style ['0'] 0)
  else
    let (cs, e) := (shortest x).normal
    sign ++ String.ofList (if style.usesExponent e then scientific cs e else positional style cs e)

/-- Positional notation at every size, and no `.0`. -/
def Style.plain : Style := {}

/-- An exponent below `10 ^ (-4)` and from `10 ^ 16` on; whole numbers end in `.0`. -/
def Style.diagnostic : Style := ⟨some (-4), some 16, true⟩

end Decimal

end HostBinding
