import HostBinding.Key
import Mathlib.Algebra.Group.Nat.Defs

/-!
# Numerals

A number is read from many texts, with a plus sign or with zeros in front, but written in one way only. A string is
the key of an index exactly if it is the way in which the index is written, and any other string is a key of its own.

* `Text.unsigned?_eq_some`: the texts from which a number is read.
* `Text.IsNumeral`, `Text.value`: the texts in which numbers are written, and the numbers.
* `Text.toString_value`, `Text.value_toString`: a number and its text determine each other.
* `Key.ofString_eq_index`: the strings that are indices.
* `Key.ofString_exact`: the main result.
-/

namespace HostBinding

/-! ## Digits -/

namespace Text

variable {cs : List Char} {m n : Nat} {s : String}

/-- A digit is the character of a number below ten. -/
lemma exists_digitChar {c : Char} (h : c.isDigit = true) : ∃ d < 10, c = Nat.digitChar d := by
  obtain ⟨hlow, hhigh⟩ := Char.isDigit_iff_toNat.1 h
  have hlow : 48 ≤ c.toNat := hlow
  have hhigh : c.toNat ≤ 57 := hhigh
  have hlt : c.toNat - 48 < 10 := by omega
  refine ⟨c.toNat - 48, hlt, Char.toNat_inj.1 ?_⟩
  rw [Nat.toNat_digitChar_of_lt_ten hlt]
  omega

/-- Digits behind a number make it no smaller. -/
lemma le_ofDigitChars (cs : List Char) (n : Nat) : n ≤ Nat.ofDigitChars 10 cs n := by
  induction cs generalizing n with
  | nil => exact Nat.le_refl n
  | cons c cs ih =>
    rw [Nat.ofDigitChars_cons]
    exact Nat.le_trans (by omega) (ih _)

/-- Digits behind a number are written behind its text. -/
lemma toDigits_ofDigitChars (hn : 0 < n) (h : ∀ c ∈ cs, c.isDigit = true) :
    Nat.toDigits 10 (Nat.ofDigitChars 10 cs n) = Nat.toDigits 10 n ++ cs := by
  induction cs generalizing n with
  | nil => exact (List.append_nil _).symm
  | cons c cs ih =>
    obtain ⟨hc, hcs⟩ := List.forall_mem_cons.1 h
    obtain ⟨d, hd, rfl⟩ := exists_digitChar hc
    have hpos : 0 < 10 * n + d := by omega
    rw [Nat.ofDigitChars_cons_digitChar_of_lt_ten hd, ih hpos hcs,
      ← Nat.toDigits_append_toDigits (by decide) hn hd, Nat.toDigits_of_lt_base hd, List.append_assoc]
    rfl

/-- The text of a number is its list of digits. -/
lemma toList_toString (n : Nat) : (toString n).toList = Nat.toDigits 10 n := by
  rw [Nat.toString_eq_ofList_toDigits, String.toList_ofList]

/-! ## Reading -/

/-- Reading on succeeds just if all is digits and the number fits in 32 bits. -/
lemma places?_eq_some (hn : n < UInt32.size) :
    places? n cs = some m ↔
      (∀ c ∈ cs, c.isDigit = true) ∧ Nat.ofDigitChars 10 cs n = m ∧ m < UInt32.size := by
  induction cs generalizing n with
  | nil =>
    rw [places?, Nat.ofDigitChars_nil, Option.some_inj]
    constructor
    · rintro rfl
      exact ⟨fun c hc => (List.not_mem_nil hc).elim, rfl, hn⟩
    · rintro ⟨-, h, -⟩
      exact h
  | cons c cs ih =>
    rw [places?, List.forall_mem_cons, Nat.ofDigitChars_cons]
    split
    · rename_i hc
      obtain ⟨hdigit, hlt⟩ := Bool.and_eq_true_iff.1 hc
      rw [ih (of_decide_eq_true hlt), and_iff_right hdigit]
    -- What is refused is no digit, or makes a number that is too large and stays so.
    · rename_i hc
      refine iff_of_false nofun ?_
      rintro ⟨⟨hdigit, -⟩, rfl, hlt⟩
      have hle := le_ofDigitChars cs (10 * n + (c.toNat - '0'.toNat))
      rw [hdigit, Bool.true_and, decide_eq_true_iff] at hc
      exact hc (Nat.lt_of_le_of_lt hle hlt)

/-- A number is read from a text that has digits, and nothing but digits, behind a plus sign at most, if they
stand for this number. -/
theorem unsigned?_eq_some {n : UInt32} :
    unsigned? s = some n ↔
      unsignedPart s.toList ≠ [] ∧ (∀ c ∈ unsignedPart s.toList, c.isDigit = true) ∧
        Nat.ofDigitChars 10 (unsignedPart s.toList) 0 = n.toNat := by
  unfold unsigned?
  split
  · rename_i h
    rw [h]
    exact iff_of_false nofun fun h => h.1 rfl
  · rename_i cs hcs
    rw [and_iff_right hcs, Option.map_eq_some_iff]
    constructor
    · rintro ⟨m, hm, rfl⟩
      obtain ⟨hdigits, hvalue, hlt⟩ := (places?_eq_some (by decide)).1 hm
      rw [UInt32.toNat_ofNat_of_lt' hlt]
      exact ⟨hdigits, hvalue⟩
    · rintro ⟨hdigits, hvalue⟩
      exact ⟨n.toNat, (places?_eq_some (by decide)).2 ⟨hdigits, hvalue, n.toNat_lt⟩, UInt32.ofNat_toNat⟩

/-- Digits have no sign that could be taken off. -/
lemma unsignedPart_of_digits (h : ∀ c ∈ cs, c.isDigit = true) : unsignedPart cs = cs := by
  unfold unsignedPart
  split
  · exact absurd (h '+' (List.mem_cons_self ..)) (by decide)
  · rfl

/-- A number is read from its text. -/
lemma unsigned?_toString (n : UInt32) : unsigned? (toString n.toNat) = some n := by
  have hdigits : ∀ c ∈ Nat.toDigits 10 n.toNat, c.isDigit = true :=
    fun c hc => Nat.isDigit_of_mem_toDigits (by decide) (by decide) hc
  rw [unsigned?_eq_some, toList_toString, unsignedPart_of_digits hdigits]
  exact ⟨Nat.toDigits_ne_nil, hdigits, Nat.ofDigitChars_ten_toDigits⟩

/-! ## Writing -/

/-- A text in which a number is written: there are digits and nothing else, and the first is no zero, or the only
one. -/
structure IsNumeral (s : String) : Prop where
  nonempty : s ≠ ""
  digits : ∀ c ∈ s.toList, c.isDigit = true
  leading : s.toList.head? = some '0' → s = "0"

/-- The number that digits stand for. -/
def value (s : String) : Nat := Nat.ofDigitChars 10 s.toList 0

/-- The text of a number stands for it. -/
lemma value_toString (n : Nat) : value (toString n) = n := by
  rw [value, toList_toString, Nat.ofDigitChars_ten_toDigits]

/-- The text of a positive number does not start with a zero. -/
lemma head?_toDigits_ne (hn : 0 < n) : (Nat.toDigits 10 n).head? ≠ some '0' := by
  induction n using Nat.strongRecOn with
  | ind n ih =>
    rcases Nat.lt_or_ge n 10 with hlt | hge
    · rw [Nat.toDigits_of_lt_base hlt, List.head?_cons, Ne, Option.some_inj, Nat.digitChar_eq_zero]
      exact Nat.ne_of_gt hn
    · have hfirst := ih (n / 10) (by omega) (by omega)
      rw [Nat.toDigits_of_base_le (by decide) hge, List.head?_append]
      cases h : (Nat.toDigits 10 (n / 10)).head? with
      | none => exact absurd (List.head?_eq_none_iff.1 h) Nat.toDigits_ne_nil
      | some c => rwa [h] at hfirst

/-- The text of a number is a numeral. -/
lemma isNumeral_toString (n : Nat) : IsNumeral (toString n) where
  nonempty h := by
    have hnil : Nat.toDigits 10 n = [] := by rw [← toList_toString, h, String.toList_empty]
    exact Nat.toDigits_ne_nil hnil
  digits c hc := by
    rw [toList_toString] at hc
    exact Nat.isDigit_of_mem_toDigits (by decide) (by decide) hc
  leading h := by
    rw [toList_toString] at h
    rcases Nat.eq_zero_or_pos n with rfl | hn
    · rfl
    · exact absurd h (head?_toDigits_ne hn)

/-- A numeral is the text of its number. -/
lemma toString_value (h : IsNumeral s) : toString (value s) = s := by
  rw [← String.toList_inj, toList_toString, value]
  cases hs : s.toList with
  | nil => exact absurd (String.toList_eq_nil_iff.1 hs) h.nonempty
  | cons c cs =>
    have hdigits := h.digits
    rw [hs] at hdigits
    obtain ⟨hc, hcs⟩ := List.forall_mem_cons.1 hdigits
    obtain ⟨d, hd, rfl⟩ := exists_digitChar hc
    rcases Nat.eq_zero_or_pos d with rfl | hpos
    · have hzero : s = "0" := h.leading (by rw [hs]; rfl)
      rw [hzero] at hs
      rw [← hs]
      rfl
    · rw [Nat.ofDigitChars_cons_digitChar_of_lt_ten hd, Nat.mul_zero, Nat.zero_add,
        toDigits_ofDigitChars hpos hcs, Nat.toDigits_of_lt_base hd]
      rfl

/-! ## Integers -/

/-- A natural number is written as the integer. -/
lemma toString_natCast (n : Nat) : toString (n : Int) = toString n := rfl

/-- A negative integer is written with a sign before its absolute value. -/
lemma toString_of_neg {i : Int} (h : i < 0) : toString i = "-" ++ toString i.natAbs := by
  have hnatAbs : (-i).toNat = i.natAbs := by omega
  rw [Int.toString_eq_repr, Int.repr_eq_if, if_neg (Int.not_le.2 h), hnatAbs]
  rfl

/-- An integer is written with its sign and its absolute value. -/
lemma toString_int (i : Int) : toString i = (if i < 0 then "-" else "") ++ toString i.natAbs := by
  split
  · rename_i hneg
    exact toString_of_neg hneg
  · rename_i hnonneg
    obtain ⟨n, rfl⟩ := Int.eq_ofNat_of_zero_le (Int.not_lt.1 hnonneg)
    rw [String.empty_append]
    rfl

/-- The text of a natural number is that of no other integer. -/
lemma eq_of_toString_eq {i : Int} (h : toString n = toString i) : i = n := by
  rcases Int.lt_or_le i 0 with hneg | hnonneg
  · have hdigits := (isNumeral_toString n).digits
    rw [h, toString_of_neg hneg, String.toList_append] at hdigits
    exact absurd (hdigits '-' (List.mem_cons_self ..)) (by decide)
  · obtain ⟨m, rfl⟩ := Int.eq_ofNat_of_zero_le hnonneg
    rw [toString_natCast] at h
    rw [← value_toString n, h, value_toString]

/-- No two integers have one text. -/
lemma toString_int_inj {i j : Int} : toString i = toString j ↔ i = j := by
  refine ⟨fun h => ?_, congrArg toString⟩
  rcases Int.lt_or_le i 0 with hi | hi
  · rcases Int.lt_or_le j 0 with hj | hj
    · rw [toString_of_neg hi, toString_of_neg hj, String.append_right_inj, ← toString_natCast,
        ← toString_natCast] at h
      have habs := eq_of_toString_eq h
      omega
    · obtain ⟨n, rfl⟩ := Int.eq_ofNat_of_zero_le hj
      exact eq_of_toString_eq h.symm
  · obtain ⟨n, rfl⟩ := Int.eq_ofNat_of_zero_le hi
    exact (eq_of_toString_eq h).symm

end Text

/-! ## Indices -/

namespace Key

variable {s : String} {n : UInt32}

/-- A string is an index exactly if it is the text of the index. -/
theorem ofString_eq_index : ofString s = .index n ↔ n.toNat ≤ maxIndex ∧ toString n.toNat = s := by
  have hindex : index? s = some n ↔ n.toNat ≤ maxIndex ∧ toString n.toNat = s := by
    rw [index?_eq_some]
    refine and_iff_right_of_imp fun h => ?_
    rw [← h.2]
    exact Text.unsigned?_toString n
  rw [← hindex, ofString]
  cases index? s with
  | none => exact iff_of_false nofun nofun
  | some m => rw [Option.some_inj, Key.index.injEq]

/-- The key of a string that is no index is the string. -/
lemma ofString_eq_string : ofString s = .string s ↔ ∀ n, ofString s ≠ .index n := by
  unfold ofString
  cases index? s with
  | none => exact iff_of_true rfl fun n => nofun
  | some m => exact iff_of_false nofun fun h => h m rfl

/-- The text of an index is the index. -/
lemma ofString_toString (h : n.toNat ≤ maxIndex) : ofString (toString n.toNat) = .index n :=
  ofString_eq_index.2 ⟨h, rfl⟩

/-- The key of a string shows the string, so that no two strings have one key. It is an index exactly if the
string is a numeral of at most `2 ^ 32 - 2`, and then the index is its number. Any other string is kept as it is.
Every such number is the index of its text. -/
theorem ofString_exact :
    (∀ s, (ofString s).text = s) ∧ Function.Injective ofString ∧
    (∀ s (n : UInt32), ofString s = .index n ↔
      Text.IsNumeral s ∧ Text.value s = n.toNat ∧ n.toNat ≤ 2 ^ 32 - 2) ∧
    (∀ s, ofString s = .string s ↔ ¬ (Text.IsNumeral s ∧ Text.value s ≤ 2 ^ 32 - 2)) ∧
    ∀ n : Nat, n ≤ 2 ^ 32 - 2 → ofString (toString n) = .index (UInt32.ofNat n) := by
  have hindex (s : String) (n : UInt32) : ofString s = .index n ↔
      Text.IsNumeral s ∧ Text.value s = n.toNat ∧ n.toNat ≤ 2 ^ 32 - 2 := by
    rw [ofString_eq_index]
    constructor
    · rintro ⟨hle, rfl⟩
      exact ⟨Text.isNumeral_toString _, Text.value_toString _, hle⟩
    · rintro ⟨hs, hvalue, hle⟩
      refine ⟨hle, ?_⟩
      rw [← hvalue]
      exact Text.toString_value hs
  -- In this range a number is the same as a word.
  have htoNat {n : Nat} (hn : n ≤ 2 ^ 32 - 2) : (UInt32.ofNat n).toNat = n :=
    UInt32.toNat_ofNat_of_lt' (Nat.lt_of_le_of_lt hn (by decide))
  refine ⟨text_ofString, fun s t => ofString_inj.1, hindex, fun s => ?_, fun n hn => ?_⟩
  · rw [ofString_eq_string]
    constructor
    · rintro h ⟨hs, hle⟩
      exact h (UInt32.ofNat (Text.value s)) ((hindex s _).2 ⟨hs, (htoNat hle).symm, by rwa [htoNat hle]⟩)
    · intro h n hn
      obtain ⟨hs, hvalue, hle⟩ := (hindex s n).1 hn
      exact h ⟨hs, by rwa [hvalue]⟩
  · have hkey := ofString_toString (n := UInt32.ofNat n) (by rw [htoNat hn]; exact hn)
    rwa [htoNat hn] at hkey

/-- The largest index is the key of its text. -/
theorem ofString_maxIndex : ofString "4294967294" = .index 4294967294 := by
  obtain ⟨-, -, -, -, htoString⟩ := ofString_exact
  exact htoString 4294967294 (by decide)

example : ofString "+7" = .string "+7" := by decide

end Key

end HostBinding
