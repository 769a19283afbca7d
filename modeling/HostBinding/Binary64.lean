/-!
# Doubles

The 64-bit floating-point numbers of scripts, kept as their bit patterns: one sign bit, eleven exponent
bits, fifty-two fraction bits. Nothing is computed with them; they are compared, made from integers, and
written as text, so exact natural-number arithmetic on the fields is all that is needed.

* `Binary64.eqv`: equality as numbers. A pattern that is no number equals nothing, not even itself, and
  the two zeros are equal.
* `Binary64.ofInt`: the nearest double of an integer, ties to the even fraction.
* `Binary64.magnitude`: the absolute value as `m * 2 ^ q`.
-/

namespace HostBinding

/-- A double, by its bits. -/
structure Binary64 where
  bits : UInt64
deriving DecidableEq, Repr, Inhabited

namespace Binary64

/-- The place of the sign bit, `2 ^ 63`. -/
def signPlace : Nat := 0x8000000000000000

/-- The place of the lowest exponent bit, `2 ^ 52`, which is also that of the bit in front of the fraction. -/
def exponentPlace : Nat := 0x10000000000000

/-- The sign bit. -/
def isNegative (x : Binary64) : Bool := decide (signPlace ≤ x.bits.toNat)

/-- The eleven exponent bits. -/
def exponentField (x : Binary64) : Nat := x.bits.toNat / exponentPlace % 0x800

/-- The fifty-two fraction bits. -/
def fraction (x : Binary64) : Nat := x.bits.toNat % exponentPlace

/-- The largest exponent field marks infinities and what is no number. -/
def isFinite (x : Binary64) : Bool := x.exponentField != 2047

/-- No number: the largest exponent field with a fraction. -/
def isNaN (x : Binary64) : Bool := x.exponentField == 2047 && x.fraction != 0

/-- Zero of either sign. -/
def isZero (x : Binary64) : Bool := x.exponentField == 0 && x.fraction == 0

/-- Infinity, by sign. -/
def infinity (negative : Bool) : Binary64 :=
  ⟨if negative then 0xfff0000000000000 else 0x7ff0000000000000⟩

/-- The usual pattern of what is no number. -/
def nan : Binary64 := ⟨0x7ff8000000000000⟩

/-- The absolute value of a finite double is `m * 2 ^ q` for the pair `(m, q)`. -/
def magnitude (x : Binary64) : Nat × Int :=
  if x.exponentField = 0 then (x.fraction, -1074)
  else (x.fraction + exponentPlace, (x.exponentField : Int) - 1075)

/-- Equality as numbers. -/
def eqv (x y : Binary64) : Bool :=
  !x.isNaN && !y.isNaN && (x.bits == y.bits || (x.isZero && y.isZero))

/-- The fifty-three leading bits of `n ≠ 0`, rounded to nearest with ties to even. The result may be
`2 ^ 53`, which stands for the next power of two. -/
def roundMantissa (n : Nat) : Nat :=
  let e := n.log2
  if e ≤ 52 then n <<< (52 - e)
  else
    let d := 1 <<< (e - 52)
    let q := n / d
    let r := n % d
    if d < 2 * r ∨ (2 * r = d ∧ q % 2 = 1) then q + 1 else q

/-- The bits of the nearest double of a natural number below `2 ^ 1023`. A mantissa of `2 ^ 53` carries
into the exponent field by itself. -/
def natBits (n : Nat) : Nat :=
  if n = 0 then 0 else (n.log2 + 1022) * exponentPlace + roundMantissa n

/-- The double nearest to an integer. -/
def ofInt (i : Int) : Binary64 :=
  ⟨UInt64.ofNat (natBits i.natAbs + if i < 0 then signPlace else 0)⟩

/-- Equality of doubles is symmetric, although the bits may differ. -/
theorem eqv_comm (x y : Binary64) : x.eqv y = y.eqv x := by
  unfold eqv
  rw [Bool.and_comm (!x.isNaN), Bool.and_comm x.isZero, BEq.comm]

/-- A double is equal to itself unless it is no number. -/
theorem eqv_self (x : Binary64) : x.eqv x = !x.isNaN := by
  cases h : x.isNaN <;> simp [eqv, h]

end Binary64

end HostBinding
