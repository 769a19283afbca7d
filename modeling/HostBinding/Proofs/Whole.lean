import HostBinding.Number
import HostBinding.Proofs.Numeral
import Mathlib.Data.Nat.Factorization.Basic

/-!
# Doubles of whole numbers

Up to `2 ^ 53` every whole number is a double, and the shortest decimal of this double is the number itself: no two
whole numbers are so close that one rounds to the other. So the text of the double is the text of the number.

* `Binary64.natBits_bounds`, `Binary64.magnitude_ofInt`: where the double of a number lies.
* `Decimal.Interval.Encloses`: the interval of a double in which there is one whole number.
* `Decimal.shortest_ofInt`: the digits of a whole number.
* `Decimal.text_ofInt`: the text of a whole number.
* `Binary64.le_of_ofInt_eq`: from `2 ^ 53` on two numbers may have one double, and only there.
-/

namespace HostBinding

/-! ## Fields -/

namespace Binary64

variable {n : Nat} {i j : Int} {x : Binary64}

/-- The leading bits of a number are fifty-three, or stand for the next power of two. -/
lemma roundMantissa_bounds (hn : n ≠ 0) :
    exponentPlace ≤ roundMantissa n ∧ roundMantissa n ≤ 2 * exponentPlace := by
  have hlow := Nat.log2_self_le hn
  have hhigh := Nat.lt_log2_self (n := n)
  rw [roundMantissa]
  dsimp only
  generalize n.log2 = e at hlow hhigh
  -- Small numbers are shifted up to the place of the exponent without a loss, large ones down and rounded.
  split
  · rename_i he
    obtain ⟨k, hk⟩ := Nat.exists_eq_add_of_le he
    have hplace : exponentPlace = 2 ^ e * 2 ^ k := by rw [← Nat.pow_add, ← hk, exponentPlace]
    rw [hk, Nat.add_sub_cancel_left, Nat.shiftLeft_eq, hplace, ← Nat.mul_assoc, ← Nat.pow_succ']
    exact ⟨Nat.mul_le_mul_right _ hlow, Nat.mul_le_mul_right _ (Nat.le_of_lt hhigh)⟩
  · rename_i he
    obtain ⟨k, rfl⟩ := Nat.exists_eq_add_of_le (Nat.le_of_lt (Nat.not_le.1 he))
    have hpos : 0 < 2 ^ k := Nat.two_pow_pos k
    rw [Nat.add_sub_cancel_left, Nat.one_shiftLeft]
    have hq : exponentPlace ≤ n / 2 ^ k := by
      rw [Nat.le_div_iff_mul_le hpos, exponentPlace]
      rwa [Nat.pow_add] at hlow
    have hq' : n / 2 ^ k < 2 * exponentPlace := by
      rw [Nat.div_lt_iff_lt_mul hpos, exponentPlace]
      rwa [Nat.add_right_comm, Nat.pow_add] at hhigh
    split
    · exact ⟨Nat.le_succ_of_le hq, hq'⟩
    · exact ⟨hq, Nat.le_of_lt hq'⟩

/-- The exponent of the double of a number is that of the number, or the next one. -/
lemma natBits_bounds (hn : n ≠ 0) :
    (n.log2 + 1023) * exponentPlace ≤ natBits n ∧ natBits n ≤ (n.log2 + 1024) * exponentPlace := by
  obtain ⟨hlow, hhigh⟩ := roundMantissa_bounds hn
  rw [exponentPlace] at *
  rw [natBits, if_neg hn, exponentPlace]
  omega

/-- The bits of a number of 64 bits leave the largest exponent alone. -/
lemma natBits_lt (h : n < 2 ^ 64) : natBits n < 2047 * exponentPlace := by
  by_cases hn : n = 0
  · subst hn
    decide
  · have hlog := (Nat.log2_lt hn).2 h
    have hbits := (natBits_bounds hn).2
    rw [exponentPlace] at *
    omega

/-- Below `2 ^ 53` the leading bits are the number itself, moved to the left. -/
lemma natBits_of_lt (hn : n ≠ 0) (h : n < 2 ^ 53) :
    natBits n / exponentPlace = n.log2 + 1023 ∧
      natBits n % exponentPlace + exponentPlace = n * 2 ^ (52 - n.log2) := by
  have hlog := Nat.le_of_lt_succ ((Nat.log2_lt hn).2 h)
  have hmantissa : roundMantissa n = n * 2 ^ (52 - n.log2) := by
    rw [roundMantissa]
    dsimp only
    rw [if_pos hlog, Nat.shiftLeft_eq]
  have hlow := (roundMantissa_bounds hn).1
  have hhigh : roundMantissa n < 2 * exponentPlace := by
    have hplace : 2 * exponentPlace = 2 ^ (n.log2 + 1) * 2 ^ (52 - n.log2) := by
      rw [← Nat.pow_add, Nat.add_right_comm, Nat.add_sub_cancel' hlog]
      rfl
    rw [hmantissa, hplace]
    exact Nat.mul_lt_mul_of_pos_right Nat.lt_log2_self (Nat.two_pow_pos _)
  rw [← hmantissa, natBits, if_neg hn]
  rw [exponentPlace] at *
  omega

/-- From `2 ^ 53` on the doubles are those above that of `2 ^ 53`. -/
lemma natBits_lt_iff : natBits n < 1076 * exponentPlace ↔ n < 2 ^ 53 := by
  by_cases hn : n = 0
  · subst hn
    decide
  · constructor
    · intro h
      have hbits := (natBits_bounds hn).1
      rw [← Nat.log2_lt hn]
      rw [exponentPlace] at *
      omega
    · intro h
      have hlog := (Nat.log2_lt hn).2 h
      have hdiv := (natBits_of_lt hn h).1
      rw [exponentPlace] at *
      omega

section

variable (h : natBits i.natAbs < 2047 * exponentPlace)

include h

/-- The bits of an integer are those of its absolute value, with a place for the sign. -/
lemma toNat_bits_ofInt :
    (ofInt i).bits.toNat = natBits i.natAbs + if i < 0 then signPlace else 0 := by
  rw [ofInt]
  apply UInt64.toNat_ofNat_of_lt'
  rw [exponentPlace] at h
  rw [signPlace, UInt64.size]
  split <;> omega

/-- The exponent is that of the absolute value. -/
lemma exponentField_ofInt : (ofInt i).exponentField = natBits i.natAbs / exponentPlace := by
  rw [exponentField, toNat_bits_ofInt h]
  rw [exponentPlace] at *
  rw [signPlace]
  split <;> omega

/-- The fraction is that of the absolute value. -/
lemma fraction_ofInt : (ofInt i).fraction = natBits i.natAbs % exponentPlace := by
  rw [fraction, toNat_bits_ofInt h]
  rw [exponentPlace] at *
  rw [signPlace]
  split <;> omega

/-- The sign is that of the integer. -/
lemma isNegative_ofInt : (ofInt i).isNegative = decide (i < 0) := by
  rw [isNegative, toNat_bits_ofInt h]
  rw [exponentPlace] at *
  rw [signPlace, decide_eq_decide]
  split <;> omega

/-- The exponent of an integer is not the last one. -/
lemma exponentField_ofInt_lt : (ofInt i).exponentField < 2047 := by
  rw [exponentField_ofInt h]
  exact Nat.div_lt_of_lt_mul (by rwa [Nat.mul_comm])

/-- An integer is finite. -/
lemma isFinite_ofInt : (ofInt i).isFinite = true :=
  bne_iff_ne.2 (Nat.ne_of_lt (exponentField_ofInt_lt h))

/-- An integer is a number. -/
lemma isNaN_ofInt : (ofInt i).isNaN = false := by
  rw [isNaN, beq_false_of_ne (Nat.ne_of_lt (exponentField_ofInt_lt h)), Bool.false_and]

/-- An integer that is not zero is no zero as a double. -/
lemma isZero_ofInt (hi : i ≠ 0) : (ofInt i).isZero = false := by
  have hlow := (natBits_bounds (Int.natAbs_ne_zero.2 hi)).1
  have hfield : (ofInt i).exponentField ≠ 0 := by
    rw [exponentField_ofInt h]
    rw [exponentPlace] at *
    omega
  rw [isZero, beq_false_of_ne hfield, Bool.false_and]

end

/-- Two numbers with one double have the same bits up to the sign. -/
lemma natBits_eq_of_ofInt_eq (hi : natBits i.natAbs < 2047 * exponentPlace)
    (hj : natBits j.natAbs < 2047 * exponentPlace) (h : ofInt i = ofInt j) :
    natBits i.natAbs = natBits j.natAbs := by
  have hbits : (ofInt i).bits.toNat = (ofInt j).bits.toNat := by rw [h]
  rw [toNat_bits_ofInt hi, toNat_bits_ofInt hj, signPlace] at hbits
  rw [exponentPlace] at hi hj
  split at hbits <;> split at hbits <;> omega

/-- The double of a number below `2 ^ 53` is the number. -/
lemma magnitude_ofInt (hi : i ≠ 0) (h : i.natAbs < 2 ^ 53) :
    (ofInt i).magnitude = (i.natAbs * 2 ^ (52 - i.natAbs.log2), (i.natAbs.log2 : Int) - 52) := by
  have hn : i.natAbs ≠ 0 := Int.natAbs_ne_zero.2 hi
  have hbits := natBits_lt (Nat.lt_trans h (by decide))
  obtain ⟨hdiv, hmod⟩ := natBits_of_lt hn h
  rw [magnitude, exponentField_ofInt hbits, fraction_ofInt hbits, hdiv, if_neg (Nat.succ_ne_zero _), hmod,
    Prod.mk.injEq]
  refine ⟨rfl, ?_⟩
  omega

end Binary64

/-! ## Intervals -/

namespace Decimal

variable {I : Interval} {n d k t : Nat} {i : Int}

/-- In an interval around the whole number `n` there is no other whole number, unless it is the next one at the end
of the interval, and then it is no multiple of ten. -/
structure Interval.Encloses (I : Interval) (n : Nat) : Prop where
  den : 0 < I.den
  value : I.value = n * I.den
  low : I.low < I.value
  high : I.value < I.high
  below : I.value < I.low + I.den
  above : I.high < I.value + I.den ∨ I.high = I.value + I.den ∧ ¬ 10 ∣ n + 1

/-- The interval of a small integer encloses it. -/
lemma encloses_of_lt (hi : i ≠ 0) (h : i.natAbs < 2 ^ 53) : (Interval.of (.ofInt i)).Encloses i.natAbs := by
  have hn : i.natAbs ≠ 0 := Int.natAbs_ne_zero.2 hi
  have hlog := Nat.le_of_lt_succ ((Nat.log2_lt hn).2 h)
  have hup : ((i.natAbs.log2 : Int) - 52 - 2).toNat = 0 := by omega
  have hdown : (2 - ((i.natAbs.log2 : Int) - 52)).toNat = 2 + (52 - i.natAbs.log2) := by omega
  have hD : 0 < 2 ^ (52 - i.natAbs.log2) := Nat.two_pow_pos _
  have hm : 0 < i.natAbs * 2 ^ (52 - i.natAbs.log2) := Nat.mul_pos (Nat.pos_of_ne_zero hn) hD
  rw [Interval.of, Binary64.magnitude_ofInt hi h]
  dsimp only
  rw [hup, hdown, Nat.shiftLeft_zero, Nat.one_shiftLeft, Nat.pow_add]
  -- All ends are a quarter of the last place, or two, away from the number, and that place is at most one.
  refine ⟨?_, ?_, ?_, ?_, ?_, .inl ?_⟩
  · exact Nat.mul_pos (by decide) hD
  · dsimp only
    rw [Nat.mul_one, Nat.mul_left_comm]
  · dsimp only
    split <;> omega
  · dsimp only
    omega
  · dsimp only
    split <;> omega
  · dsimp only
    omega

/-- The first number that is not below `2 ^ 53` is a power of two, so that the next double is two away. -/
lemma encloses_of_eq (h : i.natAbs = 2 ^ 53) : (Interval.of (.ofInt i)).Encloses i.natAbs := by
  have hbits : Binary64.natBits i.natAbs = 1076 * Binary64.exponentPlace := by
    rw [h]
    decide
  have hlt : Binary64.natBits i.natAbs < 2047 * Binary64.exponentPlace := by
    rw [hbits]
    decide
  have hfield : (Binary64.ofInt i).exponentField = 1076 := by
    rw [Binary64.exponentField_ofInt hlt, hbits]
    rfl
  have hfraction : (Binary64.ofInt i).fraction = 0 := by
    rw [Binary64.fraction_ofInt hlt, hbits]
    rfl
  rw [Interval.of, Binary64.magnitude, hfield, hfraction, h]
  exact ⟨by decide, by decide, by decide, by decide, by decide, .inr ⟨by decide, by decide⟩⟩

/-! ## Grids -/

/-- The opposite of a natural number is cut at zero. -/
lemma toNat_neg_natCast (k : Nat) : (-(k : Int)).toNat = 0 := by omega

/-- On a grid of whole numbers an interval holds what is between its ends. -/
lemma Interval.holds_natCast (I : Interval) (d k : Nat) :
    I.holds d k = if I.closed then decide (I.low ≤ d * 10 ^ k * I.den ∧ d * 10 ^ k * I.den ≤ I.high)
      else decide (I.low < d * 10 ^ k * I.den ∧ d * 10 ^ k * I.den < I.high) := by
  rw [holds, toNat_neg_natCast, Int.toNat_natCast]
  show (if I.closed then decide (I.low * 1 ≤ _ ∧ _ ≤ I.high * 1)
    else decide (I.low * 1 < _ ∧ _ < I.high * 1)) = _
  rw [Nat.mul_one, Nat.mul_one]
  rfl

namespace Interval.Encloses

variable (h : I.Encloses n)

include h

/-- An interval holds the number that it is around. -/
lemma holds_of_eq (hd : d * 10 ^ k = n) : I.holds d k = true := by
  have hlow := h.low
  have hhigh := h.high
  rw [h.value, ← hd] at hlow hhigh
  rw [holds_natCast]
  split
  · exact decide_eq_true ⟨Nat.le_of_lt hlow, Nat.le_of_lt hhigh⟩
  · exact decide_eq_true ⟨hlow, hhigh⟩

/-- A whole number in the interval is the one that it is around, or the next one and no multiple of ten. -/
lemma eq_of_holds (hd : I.holds d k = true) : d * 10 ^ k = n ∨ d * 10 ^ k = n + 1 ∧ ¬ 10 ∣ n + 1 := by
  have hbounds : I.low ≤ d * 10 ^ k * I.den ∧ d * 10 ^ k * I.den ≤ I.high := by
    rw [holds_natCast] at hd
    split at hd
    · exact of_decide_eq_true hd
    · obtain ⟨hlow, hhigh⟩ := of_decide_eq_true hd
      exact ⟨Nat.le_of_lt hlow, Nat.le_of_lt hhigh⟩
  have hbelow := h.below
  have habove := h.above
  rw [h.value] at hbelow habove
  have hle : n < d * 10 ^ k + 1 := by
    refine Nat.lt_of_mul_lt_mul_right (a := I.den) ?_
    rw [Nat.succ_mul]
    omega
  rcases habove with hlt | ⟨heq, hten⟩
  · have hge : d * 10 ^ k < n + 1 := by
      refine Nat.lt_of_mul_lt_mul_right (a := I.den) ?_
      rw [Nat.succ_mul]
      omega
    left
    omega
  · have hge : d * 10 ^ k ≤ n + 1 := by
      refine Nat.le_of_mul_le_mul_right ?_ h.den
      rw [Nat.succ_mul]
      omega
    rcases Nat.lt_or_eq_of_le hge with hge | hge
    · left
      omega
    · exact .inr ⟨hge, hten⟩

/-- A grid on which the number does not lie has no point in the interval: it has multiples of ten only. -/
lemma holds_of_not_dvd (hdvd : ¬ 10 ^ k ∣ n) (d : Nat) : I.holds d k = false := by
  rw [Bool.eq_false_iff]
  intro hd
  rcases h.eq_of_holds hd with heq | ⟨heq, hten⟩
  · exact hdvd (Dvd.intro_left _ heq)
  · cases k with
    | zero => exact hdvd (Nat.one_dvd n)
    | succ k =>
      rw [← heq, Nat.pow_succ, ← Nat.mul_assoc] at hten
      exact hten (Nat.dvd_mul_left _ _)

/-- On a grid the number above is taken if it is held and the one below is not, or is farther away. Else the one
below is taken, if it is held. -/
lemma onGrid_eq (k : Nat) : I.onGrid k =
    if I.holds (n / 10 ^ k + 1) k &&
      (!I.holds (n / 10 ^ k) k || decide (10 ^ k * I.den ≤ 2 * (n % 10 ^ k * I.den))) then
      some ⟨n / 10 ^ k + 1, k⟩
    else if I.holds (n / 10 ^ k) k then some ⟨n / 10 ^ k, k⟩ else none := by
  have hvalue : I.value * Nat.pow 10 (-(k : Int)).toNat = n * I.den := by
    rw [toNat_neg_natCast, h.value]
    exact Nat.mul_one _
  have hunit : Nat.pow 10 (k : Int).toNat * I.den = 10 ^ k * I.den := rfl
  rw [Interval.onGrid, hvalue, hunit, Nat.mul_div_mul_right _ _ h.den, Nat.mul_mod_mul_right]

/-- The number is found on the grids on which it lies. On the other grids of whole numbers nothing is found. -/
lemma onGrid_natCast (k : Nat) : I.onGrid k = if 10 ^ k ∣ n then some ⟨n / 10 ^ k, k⟩ else none := by
  rw [h.onGrid_eq]
  by_cases hdvd : 10 ^ k ∣ n
  · have hdown : I.holds (n / 10 ^ k) k = true := h.holds_of_eq (Nat.div_mul_cancel hdvd)
    have htie : ¬ 10 ^ k * I.den ≤ 2 * (n % 10 ^ k * I.den) := by
      rw [Nat.mod_eq_zero_of_dvd hdvd, Nat.zero_mul]
      exact Nat.not_le.2 (Nat.mul_pos (Nat.pow_pos (by decide)) h.den)
    rw [if_pos hdvd, hdown, decide_eq_false htie, Bool.or_false, Bool.not_true, Bool.and_false,
      if_neg Bool.false_ne_true, if_pos rfl]
  · rw [if_neg hdvd, h.holds_of_not_dvd hdvd, h.holds_of_not_dvd hdvd, Bool.false_and, if_neg Bool.false_ne_true,
      if_neg Bool.false_ne_true]

end Interval.Encloses

/-- The first hit counts. -/
lemma Interval.coarsest_eq {d : Digits} {N : Nat} {j k : Int} (hd : I.onGrid k = some d)
    (hnone : ∀ l, k < l → l ≤ j → I.onGrid l = none) (hle : k ≤ j) (hN : j < k + N) :
    I.coarsest N j = some d := by
  induction N generalizing j with
  | zero => omega
  | succ N ih =>
    rw [coarsest]
    by_cases hj : k = j
    · subst hj
      rw [hd]
      rfl
    · rw [hnone j (by omega) (Int.le_refl j)]
      exact ih (fun l hl hlj => hnone l hl (by omega)) (by omega) (by omega)

/-- The digits of a whole number up to `2 ^ 53` are those of the number, without the zeros at the end. -/
lemma shortest_ofInt (h : i.natAbs ≤ 2 ^ 53) (hn : i.natAbs = 10 ^ t * d) (hd : ¬ 10 ∣ d) :
    shortest (.ofInt i) = ⟨d, t⟩ := by
  have hd0 : d ≠ 0 := by
    rintro rfl
    exact hd (Nat.dvd_zero 10)
  have hi : i ≠ 0 := by
    rintro rfl
    exact Nat.mul_ne_zero (Nat.pos_iff_ne_zero.1 (Nat.pow_pos (by decide))) hd0 hn.symm
  have hencloses : (Interval.of (.ofInt i)).Encloses i.natAbs := by
    rcases Nat.lt_or_eq_of_le h with h | h
    · exact encloses_of_lt hi h
    · exact encloses_of_eq h
  have hpos : 0 < 10 ^ t := Nat.pow_pos (by decide)
  have hhit : (Interval.of (.ofInt i)).onGrid t = some ⟨d, t⟩ := by
    rw [hencloses.onGrid_natCast, if_pos (hn ▸ Nat.dvd_mul_right _ _), hn, Nat.mul_div_cancel_left d hpos]
  -- No coarser grid has the number on it, since its digits do not end with a zero.
  have hmiss (l : Int) (hl : (t : Int) < l) (_ : l ≤ 309) : (Interval.of (.ofInt i)).onGrid l = none := by
    obtain ⟨k, rfl⟩ := Int.eq_ofNat_of_zero_le (Int.le_trans (Int.natCast_nonneg t) (Int.le_of_lt hl))
    rw [hencloses.onGrid_natCast, if_neg]
    intro hdvd
    rw [hn] at hdvd
    have hten := Nat.dvd_trans (Nat.pow_dvd_pow 10 (Int.ofNat_lt.1 hl)) hdvd
    rw [Nat.pow_succ] at hten
    exact hd (Nat.dvd_of_mul_dvd_mul_left hpos hten)
  have ht : t < 16 := by
    rw [← Nat.pow_lt_pow_iff_right (a := 10) (by decide)]
    calc
      10 ^ t ≤ i.natAbs := by
        rw [hn]
        exact Nat.le_mul_of_pos_right _ (Nat.pos_of_ne_zero hd0)
      _ ≤ 2 ^ 53 := h
      _ < 10 ^ 16 := by decide
  rw [shortest, Interval.coarsest_eq hhit hmiss (by omega) (by omega)]
  rfl

/-! ## Texts -/

/-- Zeros behind the digits of a number multiply it by a power of ten. -/
lemma toDigits_pow_mul (hd : d ≠ 0) (t : Nat) :
    Nat.toDigits 10 (10 ^ t * d) = Nat.toDigits 10 d ++ List.replicate t '0' := by
  rw [← Nat.ofDigitChars_replicate_zero]
  apply Text.toDigits_ofDigitChars (Nat.pos_of_ne_zero hd)
  intro c hc
  rw [List.eq_of_mem_replicate hc]
  decide

/-- The digits of a number that is no multiple of ten do not end in a zero. -/
lemma toDigits_of_not_dvd (hd : ¬ 10 ∣ d) : ∃ cs c, Nat.toDigits 10 d = cs ++ [c] ∧ c ≠ '0' := by
  have hlast : (d % 10).digitChar ≠ '0' := by
    rw [Ne, Nat.digitChar_eq_zero]
    exact fun hmod => hd (Nat.dvd_of_mod_eq_zero hmod)
  rcases Nat.lt_or_ge d 10 with hlt | hge
  · rw [Nat.mod_eq_of_lt hlt] at hlast
    exact ⟨[], _, Nat.toDigits_of_lt_base hlt, hlast⟩
  · exact ⟨_, _, Nat.toDigits_of_base_le (by decide) hge, hlast⟩

/-- Digits without a zero at the end are in normal form. -/
lemma normal_of_not_dvd (hd : ¬ 10 ∣ d) :
    Digits.normal ⟨d, t⟩ = (Nat.toDigits 10 d, (t + (Nat.toDigits 10 d).length - 1 : Int)) := by
  obtain ⟨cs, c, hcs, hc⟩ := toDigits_of_not_dvd hd
  rw [Digits.normal, hcs]
  dsimp only
  rw [List.reverse_concat, List.dropWhile_cons, if_neg (by rwa [decide_eq_true_iff]), List.reverse_cons,
    List.reverse_reverse]

/-- A number with `t` zeros behind the digits has no other digits in positional notation. -/
lemma positional_plain {cs : List Char} (hcs : cs ≠ []) (t : Nat) :
    positional .plain cs (t + cs.length - 1) = cs ++ List.replicate t '0' := by
  have hlength := List.length_pos_iff.2 hcs
  have hnonneg : ¬ (t + cs.length - 1 : Int) < 0 := by omega
  have hplaces : (t + cs.length - 1 : Int).toNat + 1 = cs.length + t := by omega
  rw [positional, if_neg hnonneg, if_neg hnonneg, hplaces, List.drop_of_length_le (Nat.le_add_right _ _),
    Nat.add_sub_cancel_left, List.take_of_length_le]
  · rfl
  · rw [List.length_append, List.length_replicate]

/-- Up to `2 ^ 53` the double of a whole number has the text of the number. -/
theorem text_ofInt (h : i.natAbs ≤ 2 ^ 53) : text .plain (.ofInt i) = toString i := by
  by_cases hi : i = 0
  · subst hi
    decide
  have hbits : Binary64.natBits i.natAbs < 2047 * Binary64.exponentPlace :=
    Binary64.natBits_lt (Nat.lt_of_le_of_lt h (by decide))
  obtain ⟨t, d, hd, hn⟩ := Nat.exists_eq_pow_mul_and_not_dvd (Int.natAbs_ne_zero.2 hi) 10 (by decide)
  have hd0 : d ≠ 0 := by
    rintro rfl
    exact hd (Nat.dvd_zero 10)
  have hdigits : String.ofList (positional .plain (Nat.toDigits 10 d) (t + (Nat.toDigits 10 d).length - 1)) =
      toString i.natAbs := by
    rw [positional_plain Nat.toDigits_ne_nil, ← toDigits_pow_mul hd0, ← hn, Nat.toString_eq_ofList_toDigits]
  have hexponent (e : Int) : Style.plain.usesExponent e = false := rfl
  rw [text, Binary64.isNaN_ofInt hbits, Binary64.isFinite_ofInt hbits, Binary64.isZero_ofInt hbits hi,
    Binary64.isNegative_ofInt hbits, shortest_ofInt h hn hd, normal_of_not_dvd hd]
  dsimp only
  rw [if_neg Bool.false_ne_true, Bool.not_true, if_neg Bool.false_ne_true, if_neg Bool.false_ne_true, hexponent,
    if_neg Bool.false_ne_true, hdigits, Text.toString_int i]
  simp only [decide_eq_true_eq]

end Decimal

/-- Two numbers have one double only if neither of them is below `2 ^ 53`. -/
theorem Binary64.le_of_ofInt_eq {i j : Int} (hi : natBits i.natAbs < 2047 * exponentPlace)
    (hj : natBits j.natAbs < 2047 * exponentPlace) (hne : i ≠ j) (h : ofInt i = ofInt j) :
    2 ^ 53 ≤ i.natAbs := by
  rw [← Nat.not_lt]
  intro hlt
  have hlt' : j.natAbs < 2 ^ 53 := by
    rw [← natBits_lt_iff, ← natBits_eq_of_ofInt_eq hi hj h]
    exact natBits_lt_iff.2 hlt
  have htext : toString i = toString j := by
    rw [← Decimal.text_ofInt (Nat.le_of_lt hlt), ← Decimal.text_ofInt (Nat.le_of_lt hlt'), h]
  exact hne (Text.toString_int_inj.1 htext)

end HostBinding
