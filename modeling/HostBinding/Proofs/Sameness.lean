import HostBinding.Proofs.Coincidence

/-!
# Equality by value

Equality by value is symmetric and transitive, across all kinds of numbers, and only holds within one type. It would
be an equivalence, but for the doubles that are no numbers: such a double equals nothing, not even itself, while the
value that stands for no number equals itself. Strict equality tells no number from itself, in whatever way it is
kept, and is the same otherwise.

* `Value.same_self_eq_false`: the values that differ from themselves.
* `Value.same_trans`: values that are equal to one value are equal.
* `Value.strictlyEqual_eq`: what strict equality leaves out.
* `Value.same_equivalence`: the main result.
-/

namespace HostBinding

/-! ## Numbers -/

/-- A double that is no number equals none. -/
lemma Binary64.eqv_of_isNaN {x : Binary64} (h : x.isNaN = true) (y : Binary64) : x.eqv y = false := by
  simp [eqv, h]

namespace Number

variable {m n : Number}

/-- Whether a number is none: the value that stands for that, or a double. -/
def isNaN (m : Number) : Bool := m.toBinary64.isNaN

/-- Only a double that is no number differs from itself. -/
lemma same_self_eq_false (m : Number) : m.same false m = false ↔ ∃ x, m = float x ∧ x.isNaN = true := by
  have hself : m ≠ nan → m.same false m = !m.isNaN := by
    intro hm
    rw [same_of_ne false hm]
    exact Binary64.eqv_self _
  cases m with
  | nan => exact iff_of_false (by simp [same]) (by simp)
  | integer i =>
    have hnumber : (integer i).isNaN = false := isNaN_ofInt i
    exact iff_of_false (by simp [hself, hnumber]) (by simp)
  | float x =>
    rw [hself nofun]
    simp [isNaN, toBinary64]
  | posInfinity => exact iff_of_false (by rw [hself nofun]; decide) (by simp)
  | negInfinity => exact iff_of_false (by rw [hself nofun]; decide) (by simp)

/-- Apart from the value for no number, strict comparison differs from the other at doubles that are none. -/
lemma same_strict_of_ne (hm : m ≠ nan) (n : Number) :
    m.same true n = (m.same false n && !(m.isNaN && n.isNaN)) := by
  rw [same_of_ne true hm, same_of_ne false hm]
  cases h : m.isNaN with
  | true =>
    rw [Binary64.eqv_of_isNaN h]
    rfl
  | false => simp

/-- Strict equality tells what is no number from itself. -/
lemma same_strict (m n : Number) : m.same true n = (m.same false n && !(m.isNaN && n.isNaN)) := by
  by_cases hm : m = nan
  · by_cases hn : n = nan
    · subst hm hn
      rfl
    · rw [same_comm true m n, same_comm false m n, Bool.and_comm m.isNaN]
      exact same_strict_of_ne hn m
  · exact same_strict_of_ne hm n

end Number

/-! ## Values -/

namespace Value

variable {a b c : Value} {w : World}

/-- Whether a value is a number that is none. -/
def isNaN : Value → Bool
  | number m => m.isNaN
  | _ => false

/-- Only a double that is no number differs from itself. -/
lemma same_self_eq_false (a : Value) : a.same a = false ↔ ∃ x, a = number (.float x) ∧ x.isNaN = true := by
  cases a with
  | number m =>
    show m.same false m = false ↔ _
    rw [Number.same_self_eq_false]
    simp
  | undefined => simp [same, compare]
  | null => simp [same, compare]
  | boolean b => simp [same, compare]
  | string s => simp [same, compare]
  | symbol s => simp [same, compare]
  | object o => simp [same, compare]

/-- Values that are equal to one value are equal. -/
lemma same_trans (h : a.same b = true) (h' : b.same c = true) : a.same c = true := by
  rcases eq_or_numbers h with rfl | ⟨m, n, rfl, rfl, hmn⟩
  · exact h'
  · rcases eq_or_numbers h' with rfl | ⟨n', k, hn, rfl, hnk⟩
    · exact h
    · cases hn
      exact Number.same_trans hmn hnk

/-- Values that are equal have one type. -/
lemma typeName_of_same (w : World) (h : a.same b = true) : w.typeName a = w.typeName b := by
  rcases eq_or_numbers h with rfl | ⟨m, n, rfl, rfl, -⟩
  · rfl
  · rfl

/-- Only numbers are compared in two ways. -/
lemma strictlyEqual_of_ne (ha : ∀ m, a ≠ number m) (b : Value) :
    a.isNaN = false ∧ a.strictlyEqual b = a.same b := by
  cases a with
  | number m => exact absurd rfl (ha m)
  | undefined => exact ⟨rfl, by cases b <;> rfl⟩
  | null => exact ⟨rfl, by cases b <;> rfl⟩
  | boolean x => exact ⟨rfl, by cases b <;> rfl⟩
  | string s => exact ⟨rfl, by cases b <;> rfl⟩
  | symbol s => exact ⟨rfl, by cases b <;> rfl⟩
  | object o => exact ⟨rfl, by cases b <;> rfl⟩

/-- Strict equality tells what is no number from itself. -/
lemma strictlyEqual_eq (a b : Value) : a.strictlyEqual b = (a.same b && !(a.isNaN && b.isNaN)) := by
  by_cases ha : ∀ m, a ≠ number m
  · obtain ⟨hnumber, hsame⟩ := strictlyEqual_of_ne ha b
    simp [hnumber, hsame]
  · obtain ⟨m, rfl⟩ := not_forall_not.1 ha
    cases b with
    | number n => exact Number.same_strict m n
    | _ => rfl

/-- Equality by value is symmetric and transitive, and holds within one type only. All values equal themselves, with
the exception of doubles that are no numbers. Strict equality is the same, except that it is false when both values
are no numbers. -/
theorem same_equivalence (w : World) (a b c : Value) :
    (a.same a = false ↔ ∃ x, a = number (.float x) ∧ x.isNaN = true) ∧
    a.same b = b.same a ∧
    (a.same b = true → b.same c = true → a.same c = true) ∧
    (a.same b = true → w.typeName a = w.typeName b) ∧
    a.strictlyEqual b = (a.same b && !(a.isNaN && b.isNaN)) :=
  ⟨same_self_eq_false a, same_comm a b, same_trans, typeName_of_same w, strictlyEqual_eq a b⟩

/-- Two large integers are equal to one double, so they are equal. -/
theorem large_integers_same :
    (ofInt64 (2 ^ 53 + 1)).same (number (.float (.ofInt (2 ^ 53)))) = true ∧
    (number (.float (.ofInt (2 ^ 53)))).same (ofInt64 (2 ^ 53)) = true ∧
    (ofInt64 (2 ^ 53 + 1)).same (ofInt64 (2 ^ 53)) = true ∧
    ∀ w : World, w.typeName (ofInt64 (2 ^ 53 + 1)) = w.typeName (number (.float (.ofInt (2 ^ 53)))) := by
  have hodd : (ofInt64 (2 ^ 53 + 1)).same (number (.float (.ofInt (2 ^ 53)))) = true := by decide +kernel
  have heven : (number (.float (.ofInt (2 ^ 53)))).same (ofInt64 (2 ^ 53)) = true := by decide +kernel
  have hsame (w : World) := same_equivalence w (ofInt64 (2 ^ 53 + 1)) (number (.float (.ofInt (2 ^ 53))))
    (ofInt64 (2 ^ 53))
  obtain ⟨-, -, htrans, -⟩ := hsame {}
  exact ⟨hodd, heven, htrans hodd heven, fun w => (hsame w).2.2.2.1 hodd⟩

/-- A double that is no number differs from itself, though the value for no number does not. -/
theorem double_differs_from_itself :
    (number (.float .nan)).same (number (.float .nan)) = false ∧ (number .nan).same (number .nan) = true := by
  decide

end Value

end HostBinding
