import HostBinding.Proofs.Spelling
import HostBinding.Proofs.Whole

/-!
# Keys of equal values

Values that are equal find the same property, unless they are numbers that are compared in one way and written in
another. Numbers are compared as doubles. An integer is written with all its digits, whatever double it is compared
as; a double is written as the shortest decimal that reads back as it; the infinities have texts of their own, and the
two zeros have two texts.

* `Number.keyText`: the text by which a number names a property.
* `Number.Parted`: the pairs of numbers that are equal and have two texts.
* `Number.parted_of_same`: there are no other pairs.
* `Value.same_and_toKey_ne_iff`: the main result.
-/

namespace HostBinding

/-! ## Equality of doubles -/

namespace Binary64

variable {x y : Binary64}

/-- Zero with a sign. -/
def negZero : Binary64 := ⟨0x8000000000000000⟩

/-- Doubles are equal if they have the same bits or are zeros, and are numbers. -/
lemma eqv_eq_true :
    x.eqv y = true ↔ x.isNaN = false ∧ y.isNaN = false ∧ (x = y ∨ x.isZero = true ∧ y.isZero = true) := by
  have hbits : (x.bits == y.bits) = true ↔ x = y := by
    rw [beq_iff_eq, Binary64.mk.injEq]
  rw [eqv, Bool.and_eq_true, Bool.and_eq_true, Bool.or_eq_true, Bool.and_eq_true, hbits, Bool.not_eq_true',
    Bool.not_eq_true', and_assoc]

/-- Equality of doubles is transitive. -/
lemma eqv_trans {z : Binary64} (h : x.eqv y = true) (h' : y.eqv z = true) : x.eqv z = true := by
  obtain ⟨hx, -, hxy⟩ := eqv_eq_true.1 h
  obtain ⟨-, hz, hyz⟩ := eqv_eq_true.1 h'
  refine eqv_eq_true.2 ⟨hx, hz, ?_⟩
  rcases hxy with rfl | ⟨hx, hy⟩
  · exact hyz
  · rcases hyz with rfl | ⟨-, hz⟩
    · exact .inr ⟨hx, hy⟩
    · exact .inr ⟨hx, hz⟩

/-- Only an infinity is equal to it. -/
lemma eq_infinity_of_eqv {b : Bool} (h : x.eqv (.infinity b) = true) : x = .infinity b := by
  obtain ⟨-, -, rfl | ⟨-, hzero⟩⟩ := eqv_eq_true.1 h
  · rfl
  · cases b with
    | false => exact absurd hzero (by decide)
    | true => exact absurd hzero (by decide)

/-- There are two zeros. -/
lemma eq_of_isZero (h : x.isZero = true) : x = ofInt 0 ∨ x = negZero := by
  obtain ⟨hexponent, hfraction⟩ := Bool.and_eq_true_iff.1 h
  have hexponent : x.bits.toNat / exponentPlace % 0x800 = 0 := beq_iff_eq.1 hexponent
  have hfraction : x.bits.toNat % exponentPlace = 0 := beq_iff_eq.1 hfraction
  have hlt := x.bits.toNat_lt
  rw [exponentPlace] at hexponent hfraction
  have hcases : x.bits.toNat = 0 ∨ x.bits.toNat = 0x8000000000000000 := by omega
  rcases hcases with hbits | hbits
  · exact .inl (congrArg Binary64.mk (UInt64.toNat_inj.1 hbits))
  · exact .inr (congrArg Binary64.mk (UInt64.toNat_inj.1 hbits))

end Binary64

/-! ## Numbers -/

namespace Number

variable {i j : Int64} {x : Binary64} {m n : Number}

/-- The text by which a number names a property. -/
def keyText : Number → String
  | integer i => toString i.toInt
  | float x => Decimal.text .plain x
  | nan => "NaN"
  | posInfinity => "Infinity"
  | negInfinity => "-Infinity"

/-- The infinities that are no doubles. -/
def infinite : Bool → Number
  | false => posInfinity
  | true => negInfinity

/-- The pairs of numbers that are equal although they have two texts. -/
inductive Parted : Number → Number → Prop
  /-- An integer is zero without a sign. -/
  | zero : Parted (integer 0) (float .negZero)
  | zeros : Parted (float (.ofInt 0)) (float .negZero)
  /-- An infinity of its own kind is written out, and an infinite double is not. -/
  | infinity (b : Bool) : Parted (infinite b) (float (.infinity b))
  /-- Two large integers are next to the same double. -/
  | rounded {i j : Int64} (hi : 2 ^ 53 ≤ i.toInt.natAbs) (hj : 2 ^ 53 ≤ j.toInt.natAbs) (ne : i ≠ j)
      (eq : Binary64.ofInt i.toInt = .ofInt j.toInt) : Parted (integer i) (integer j)
  /-- A large integer has digits that its double does not need. -/
  | shortened {i : Int64} (hi : 2 ^ 53 < i.toInt.natAbs)
      (ne : Decimal.text .plain (.ofInt i.toInt) ≠ toString i.toInt) : Parted (integer i) (float (.ofInt i.toInt))

/-- The double of an integer of 64 bits is finite. -/
lemma natBits_toInt (i : Int64) : Binary64.natBits i.toInt.natAbs < 2047 * Binary64.exponentPlace := by
  apply Binary64.natBits_lt
  have hlow := i.le_toInt
  have hhigh := i.toInt_lt
  omega

/-- The double of an integer of 64 bits is a number. -/
lemma isNaN_ofInt (i : Int64) : (Binary64.ofInt i.toInt).isNaN = false :=
  Binary64.isNaN_ofInt (natBits_toInt i)

/-- Only zero has zero as its double. -/
lemma toInt_eq_zero (h : (Binary64.ofInt i.toInt).isZero = true) : i.toInt = 0 := by
  by_contra hi
  rw [Binary64.isZero_ofInt (natBits_toInt i) hi] at h
  exact Bool.false_ne_true h

/-- Parted numbers are equal. -/
lemma Parted.same (h : m.Parted n) : m.same false n = true := by
  cases h with
  | zero => decide
  | zeros => decide
  | infinity b => cases b <;> decide
  | rounded _ _ _ eq => exact Binary64.eqv_eq_true.2 ⟨isNaN_ofInt _, isNaN_ofInt _, .inl eq⟩
  | shortened _ _ => exact Binary64.eqv_eq_true.2 ⟨isNaN_ofInt _, isNaN_ofInt _, .inl rfl⟩

/-- Parted numbers have two texts. -/
lemma Parted.keyText_ne (h : m.Parted n) : m.keyText ≠ n.keyText := by
  cases h with
  | zero => decide
  | zeros => decide
  | infinity b => cases b <;> decide
  | rounded _ _ ne _ =>
    intro htext
    exact ne (Int64.toInt_inj.1 (Text.toString_int_inj.1 htext))
  | shortened _ ne => exact ne.symm

/-- An integer is next to a double of another text only if it is large, or zero. -/
lemma integer_parted (h : (Binary64.ofInt i.toInt).eqv x = true) (hne : (integer i).keyText ≠ (float x).keyText) :
    (integer i).Parted (float x) := by
  obtain ⟨-, -, rfl | ⟨hi, hx⟩⟩ := Binary64.eqv_eq_true.1 h
  · refine .shortened ?_ hne.symm
    rw [← Nat.not_le]
    exact fun hle => hne (Decimal.text_ofInt hle).symm
  · have hzero : i = 0 := Int64.toInt_inj.1 (toInt_eq_zero hi)
    subst hzero
    rcases Binary64.eq_of_isZero hx with rfl | rfl
    · exact absurd (by decide) hne
    · exact .zero

/-- Integers of two texts are next to the same double only if they are large. -/
lemma integers_parted (h : (integer i).same false (integer j) = true)
    (hne : (integer i).keyText ≠ (integer j).keyText) : (integer i).Parted (integer j) := by
  have hij : i.toInt ≠ j.toInt := fun heq => hne (congrArg toString heq)
  have hdouble : Binary64.ofInt i.toInt = .ofInt j.toInt := by
    obtain ⟨-, -, heq | ⟨hi, hj⟩⟩ := Binary64.eqv_eq_true.1 h
    · exact heq
    · exact absurd ((toInt_eq_zero hi).trans (toInt_eq_zero hj).symm) hij
  exact .rounded (Binary64.le_of_ofInt_eq (natBits_toInt i) (natBits_toInt j) hij hdouble)
    (Binary64.le_of_ofInt_eq (natBits_toInt j) (natBits_toInt i) hij.symm hdouble.symm)
    (fun heq => hij (congrArg Int64.toInt heq)) hdouble

/-- Doubles of two texts are equal only if they are the two zeros. -/
lemma float_parted {y : Binary64} (h : x.eqv y = true) (hne : (float x).keyText ≠ (float y).keyText) :
    (float x).Parted (float y) ∨ (float y).Parted (float x) := by
  obtain ⟨-, -, rfl | ⟨hx, hy⟩⟩ := Binary64.eqv_eq_true.1 h
  · exact absurd rfl hne
  · rcases Binary64.eq_of_isZero hx with rfl | rfl <;> rcases Binary64.eq_of_isZero hy with rfl | rfl
    · exact absurd rfl hne
    · exact .inl .zeros
    · exact .inr .zeros
    · exact absurd rfl hne

/-- The double of an integer is no infinity. -/
lemma integer_ne_infinity (i : Int64) (b : Bool) : Binary64.ofInt i.toInt ≠ .infinity b := by
  intro h
  have hfinite := Binary64.isFinite_ofInt (natBits_toInt i)
  rw [h] at hfinite
  cases b with
  | false => exact absurd hfinite (by decide)
  | true => exact absurd hfinite (by decide)

/-- An infinity is equal to itself and to the double of the same sign. -/
lemma infinite_parted {b : Bool} (h : m.same false (infinite b) = true) (hne : m.keyText ≠ (infinite b).keyText) :
    (infinite b).Parted m := by
  have hdouble : m.toBinary64 = .infinity b := by
    apply Binary64.eq_infinity_of_eqv
    rw [← h]
    cases m <;> cases b <;> rfl
  cases m with
  | integer i => exact absurd hdouble (integer_ne_infinity i b)
  | float x =>
    rw [show x = .infinity b from hdouble]
    exact .infinity b
  | nan => cases b <;> exact absurd hdouble (by decide)
  | posInfinity =>
    cases b with
    | false => exact absurd rfl hne
    | true => exact absurd hdouble (by decide)
  | negInfinity =>
    cases b with
    | false => exact absurd hdouble (by decide)
    | true => exact absurd rfl hne

/-- Only the not-a-number that is no double is the same as itself. -/
lemma eq_nan_of_same (h : m.same false nan = true) : m = nan := by
  cases m with
  | nan => rfl
  | integer i => exact absurd (Binary64.eqv_eq_true.1 h).2.1 (by decide)
  | float x => exact absurd (Binary64.eqv_eq_true.1 h).2.1 (by decide)
  | posInfinity => exact absurd h (by decide)
  | negInfinity => exact absurd h (by decide)

/-- A number that is not the value for no number is compared as a double. -/
lemma same_of_ne (strict : Bool) (h : m ≠ nan) : m.same strict n = m.toBinary64.eqv n.toBinary64 := by
  cases m with
  | nan => exact absurd rfl h
  | integer i => rfl
  | float x => rfl
  | posInfinity => rfl
  | negInfinity => rfl

/-- Numbers that are equal to one number are equal. -/
lemma same_trans {k : Number} (h : m.same false n = true) (h' : n.same false k = true) : m.same false k = true := by
  by_cases hn : n = nan
  · subst hn
    rwa [eq_nan_of_same h]
  · have hm : m ≠ nan := by
      rintro rfl
      rw [same_comm] at h
      exact hn (eq_nan_of_same h)
    rw [same_of_ne false hm] at h ⊢
    rw [same_of_ne false hn] at h'
    exact Binary64.eqv_trans h h'

/-- Numbers that are equal have one text, or are one of the pairs. -/
theorem parted_of_same (h : m.same false n = true) (hne : m.keyText ≠ n.keyText) : m.Parted n ∨ n.Parted m := by
  have h' : n.same false m = true := by rwa [same_comm]
  cases m with
  | nan =>
    rw [eq_nan_of_same h'] at hne
    exact absurd rfl hne
  | posInfinity => exact .inl (infinite_parted (b := false) h' hne.symm)
  | negInfinity => exact .inl (infinite_parted (b := true) h' hne.symm)
  | integer i =>
    cases n with
    | nan => exact absurd (eq_nan_of_same h) nofun
    | posInfinity => exact .inr (infinite_parted (b := false) h hne)
    | negInfinity => exact .inr (infinite_parted (b := true) h hne)
    | integer j => exact .inl (integers_parted h hne)
    | float y => exact .inl (integer_parted h hne)
  | float x =>
    cases n with
    | nan => exact absurd (eq_nan_of_same h) nofun
    | posInfinity => exact .inr (infinite_parted (b := false) h hne)
    | negInfinity => exact .inr (infinite_parted (b := true) h hne)
    | integer j => exact .inr (integer_parted h' hne.symm)
    | float y => exact float_parted h hne

end Number

/-! ## Values -/

namespace Value

variable {a b : Value}

/-- A number names the property of its text. -/
lemma toKey_number (n : Number) : (number n).toKey = .ok (.ofString n.keyText) := by
  cases n with
  | integer i => exact toKey_integer i
  | float x => rfl
  | nan => rfl
  | posInfinity => rfl
  | negInfinity => rfl

/-- Values that are equal are one value, or two numbers. -/
lemma eq_or_numbers (h : a.same b = true) :
    a = b ∨ ∃ m n, a = number m ∧ b = number n ∧ m.same false n = true := by
  cases a with
  | undefined =>
    cases b with
    | undefined => exact .inl rfl
    | _ => exact absurd h Bool.false_ne_true
  | null =>
    cases b with
    | null => exact .inl rfl
    | _ => exact absurd h Bool.false_ne_true
  | boolean x =>
    cases b with
    | boolean y => exact .inl (congrArg boolean (beq_iff_eq.1 h))
    | _ => exact absurd h Bool.false_ne_true
  | string s =>
    cases b with
    | string t => exact .inl (congrArg string (beq_iff_eq.1 h))
    | _ => exact absurd h Bool.false_ne_true
  | symbol s =>
    cases b with
    | symbol t => exact .inl (congrArg symbol (beq_iff_eq.1 h))
    | _ => exact absurd h Bool.false_ne_true
  | number m =>
    cases b with
    | number n => exact .inr ⟨m, n, rfl, rfl, h⟩
    | _ => exact absurd h Bool.false_ne_true
  | object o =>
    cases b with
    | object p => exact .inl (congrArg object (beq_iff_eq.1 h))
    | _ => exact absurd h Bool.false_ne_true

/-- All values but objects name a property. Two values that are equal name one property, with these exceptions and no
others: zero with and without a sign, an infinity and the infinite double, two integers from `2 ^ 53` on with one
double, and an integer beyond `2 ^ 53` whose double is written with other digits. -/
theorem same_and_toKey_ne_iff (a b : Value) :
    ((∀ o, a ≠ object o) ↔ ∃ k, a.toKey = .ok k) ∧
    (a.same b = true ∧ a.toKey ≠ b.toKey ↔
      ∃ m n, a = number m ∧ b = number n ∧ (m.Parted n ∨ n.Parted m)) := by
  have hkeys (m n : Number) : (number m).toKey ≠ (number n).toKey ↔ m.keyText ≠ n.keyText := by
    rw [toKey_number, toKey_number, Ne, Except.ok.injEq, Key.ofString_inj]
  constructor
  · cases a with
    | object o => exact iff_of_false (fun h => h o rfl) nofun
    | number n => exact iff_of_true nofun ⟨_, toKey_number n⟩
    | undefined => exact iff_of_true nofun ⟨_, rfl⟩
    | null => exact iff_of_true nofun ⟨_, rfl⟩
    | boolean b => exact iff_of_true nofun ⟨_, rfl⟩
    | string s => exact iff_of_true nofun ⟨_, rfl⟩
    | symbol s => exact iff_of_true nofun ⟨_, rfl⟩
  · constructor
    · rintro ⟨hsame, hne⟩
      rcases eq_or_numbers hsame with rfl | ⟨m, n, rfl, rfl, hmn⟩
      · exact absurd rfl hne
      · exact ⟨m, n, rfl, rfl, Number.parted_of_same hmn ((hkeys m n).1 hne)⟩
    · rintro ⟨m, n, rfl, rfl, h | h⟩
      · exact ⟨h.same, (hkeys m n).2 h.keyText_ne⟩
      · rw [same_comm]
        exact ⟨h.same, (hkeys m n).2 h.keyText_ne.symm⟩

/-- Equal values may name two properties: an infinity and the infinite double, zero without and with a sign, two large
integers, and a large integer and its double. -/
theorem same_named_apart :
    ((number .posInfinity).same (number (.float (.infinity false))) = true ∧
      (number .posInfinity).toKey ≠ (number (.float (.infinity false))).toKey) ∧
    ((ofInt64 0).same (number (.float .negZero)) = true ∧ (ofInt64 0).toKey ≠ (number (.float .negZero)).toKey) ∧
    ((ofInt64 (2 ^ 53)).same (ofInt64 (2 ^ 53 + 1)) = true ∧
      (ofInt64 (2 ^ 53)).toKey ≠ (ofInt64 (2 ^ 53 + 1)).toKey) ∧
    ((ofInt64 (2 ^ 62)).same (number (.float (.ofInt (2 ^ 62)))) = true ∧
      (ofInt64 (2 ^ 62)).toKey ≠ (number (.float (.ofInt (2 ^ 62)))).toKey) := by
  refine ⟨by decide, by decide, ?_, ?_⟩
  · decide +kernel
  · decide +kernel

end Value

end HostBinding
