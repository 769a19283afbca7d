import HostBinding.Decimal

/-!
# Script numbers

A number is a 64-bit integer, a double, or one of three values that a script engine keeps apart from the
doubles that mean the same: not-a-number and the two infinities.

* `Number.toBinary64`: the double a number stands for when numbers of different kinds are compared.
* `Number.identical`: equality within one kind.
* `Number.same`: equality by value across the kinds, in which not-a-number equals itself.
-/

namespace HostBinding

/-- A script number. -/
inductive Number where
  | integer (i : Int64)
  | float (x : Binary64)
  | nan
  | posInfinity
  | negInfinity
deriving DecidableEq, Repr

namespace Number

/-- The double a number stands for. Integers are rounded to the nearest. -/
def toBinary64 : Number → Binary64
  | integer i => .ofInt i.toInt
  | float x => x
  | nan => .nan
  | posInfinity => .infinity false
  | negInfinity => .infinity true

/-- Equality within one kind; doubles are compared as numbers, so a double that is no number differs from
itself. -/
def identical : Number → Number → Bool
  | integer i, integer j => i == j
  | float x, float y => x.eqv y
  | nan, nan => true
  | posInfinity, posInfinity => true
  | negInfinity, negInfinity => true
  | _, _ => false

/-- Equality by value. With `strict`, not-a-number differs from itself. -/
def same (strict : Bool) : Number → Number → Bool
  | nan, nan => !strict
  | a, b => a.toBinary64.eqv b.toBinary64

/-- The text of a number. -/
def text : Number → String
  | integer i => toString i.toInt
  | float x => Decimal.text .plain x
  | nan => "NaN"
  | posInfinity => "+Infinity"
  | negInfinity => "-Infinity"

/-- The text of a number for diagnostics, which names its kind. -/
def debugText : Number → String
  | integer i => "Integer(" ++ toString i.toInt ++ ")"
  | float x => "Float(" ++ Decimal.text .diagnostic x ++ ")"
  | nan => "NaN"
  | posInfinity => "PositiveInfinity"
  | negInfinity => "NegativeInfinity"

/-- Equality of numbers is symmetric, in both meanings. -/
theorem same_comm (strict : Bool) (a b : Number) : a.same strict b = b.same strict a := by
  cases a <;> cases b <;> first | rfl | exact Binary64.eqv_comm _ _

end Number

end HostBinding
