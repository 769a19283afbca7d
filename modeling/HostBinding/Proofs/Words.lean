import HostBinding.Action
import Mathlib.Data.List.Basic

/-!
# Budgets in machine words

A budget counts in natural numbers, while a machine counts in words of 64 bits: it adds where the sum is a word, takes
the largest word for a product that is none, and never takes more away than there is. Under a limit the two agree after
any number of charges and refunds, so no counter ever wraps, and every charge is exactly what it should be. There is
one exception. A product beyond the largest word is charged as the largest word, and where all words are free, this is
not refused.

* `Word.add?`, `Word.mul`, `Word.sub`: what a machine computes.
* `Meter`: a budget with a limit, in words.
* `Posting.leave_toBudget`: what is posted to a budget has the same effect in words.
* `World.Exact`: how charges and refunds work out.
* `Posting.exact`: the main result.
-/

namespace HostBinding

/-! ## Words -/

namespace Word

variable {x y : UInt64}

/-- The sum of two words, if it is a word: else it wraps and is too small. -/
def add? (x y : UInt64) : Option UInt64 := if x + y < x then none else some (x + y)

/-- The product of two words, or the largest word if the product is none. -/
def mul (x y : UInt64) : UInt64 :=
  if x ≠ 0 ∧ 0xffffffffffffffff / x < y then 0xffffffffffffffff else x * y

/-- The difference of two words, or zero. -/
def sub (x y : UInt64) : UInt64 := if y ≤ x then x - y else 0

/-- A word is no larger than the largest one. -/
lemma toNat_le (x : UInt64) : x.toNat ≤ maxWord := Nat.le_of_lt_succ x.toNat_lt

/-- A sum that is a word does not wrap. -/
lemma toNat_add_of_le (h : x.toNat + y.toNat ≤ maxWord) : (x + y).toNat = x.toNat + y.toNat := by
  rw [UInt64.toNat_add]
  exact Nat.mod_eq_of_lt (Nat.lt_succ_of_le h)

/-- A product that is a word does not wrap. -/
lemma toNat_mul_of_le (h : x.toNat * y.toNat ≤ maxWord) : (x * y).toNat = x.toNat * y.toNat := by
  rw [UInt64.toNat_mul]
  exact Nat.mod_eq_of_lt (Nat.lt_succ_of_le h)

/-- A sum wraps when it is no word. -/
lemma add?_eq (x y : UInt64) : add? x y = if x.toNat + y.toNat ≤ maxWord then some (x + y) else none := by
  have hwraps : x + y < x ↔ ¬ x.toNat + y.toNat ≤ maxWord := by
    have hx := x.toNat_lt
    have hy := y.toNat_lt
    rw [UInt64.lt_iff_toNat_lt, UInt64.toNat_add, maxWord]
    omega
  simp only [add?, hwraps, ite_not]

/-- The check by division finds the products that are no words. -/
lemma div_lt_iff (hx : x ≠ 0) : 0xffffffffffffffff / x < y ↔ maxWord < x.toNat * y.toNat := by
  have hpos : 0 < x.toNat := Nat.pos_of_ne_zero fun h => hx (UInt64.toNat_inj.1 h)
  rw [UInt64.lt_iff_toNat_lt, UInt64.toNat_div, Nat.mul_comm]
  exact Nat.div_lt_iff_lt_mul hpos

/-- A product is cut at the largest word. -/
lemma toNat_mul (x y : UInt64) : (mul x y).toNat = min (x.toNat * y.toNat) maxWord := by
  by_cases hfits : x.toNat * y.toNat ≤ maxWord
  · have hnot : ¬ (x ≠ 0 ∧ 0xffffffffffffffff / x < y) := fun h => Nat.not_lt.2 hfits ((div_lt_iff h.1).1 h.2)
    rw [mul, if_neg hnot, toNat_mul_of_le hfits, Nat.min_eq_left hfits]
  · have hx : x ≠ 0 := by
      rintro rfl
      exact hfits (by simp)
    rw [mul, if_pos ⟨hx, (div_lt_iff hx).2 (Nat.lt_of_not_le hfits)⟩, Nat.min_eq_right (Nat.le_of_not_le hfits)]
    rfl

/-- A difference is cut at zero. -/
lemma toNat_sub (x y : UInt64) : (sub x y).toNat = x.toNat - y.toNat := by
  rw [sub]
  split
  · rename_i h
    exact UInt64.toNat_sub_of_le _ _ h
  · rename_i h
    rw [UInt64.le_iff_toNat_le] at h
    show 0 = _
    omega

end Word

/-! ## Budgets -/

/-- A budget with a limit, in words. -/
structure Meter where
  limit : UInt64
  used : UInt64 := 0

namespace Meter

variable {m : Meter}

/-- The budget that a meter keeps. -/
def toBudget (m : Meter) : Budget := ⟨some m.limit, m.used.toNat⟩

/-- Whether a charge would stay within the limit. -/
def allows (m : Meter) (bytes : UInt64) : Bool := (Word.add? m.used bytes).any fun sum => decide (sum ≤ m.limit)

/-- Charges some bytes. -/
def charge (m : Meter) (bytes : UInt64) : Option Meter :=
  if m.allows bytes then some { m with used := m.used + bytes } else none

/-- Charges `count` things of one size. -/
def chargeMany (m : Meter) (size count : UInt64) : Option Meter := m.charge (Word.mul size count)

/-- Gives bytes back. -/
def refund (m : Meter) (bytes : UInt64) : Meter := { m with used := Word.sub m.used bytes }

/-- The bytes still free. -/
def available (m : Meter) : UInt64 := Word.sub m.limit m.used

/-- A meter allows what its limit has room for. -/
lemma allows_eq_true {n : UInt64} : m.allows n = true ↔ m.used.toNat + n.toNat ≤ m.limit.toNat := by
  rw [allows, Word.add?_eq]
  split
  · rename_i hfits
    show decide (m.used + n ≤ m.limit) = true ↔ _
    rw [decide_eq_true_eq, UInt64.le_iff_toNat_le, Word.toNat_add_of_le hfits]
  -- A sum that is no word is beyond every limit.
  · rename_i hfits
    exact iff_of_false Bool.false_ne_true fun h => hfits (Nat.le_trans h (Word.toNat_le m.limit))

/-- A meter allows what its budget allows. -/
lemma allows_toBudget (m : Meter) (n : UInt64) : m.toBudget.allows n.toNat = m.allows n := by
  rw [Bool.eq_iff_iff, allows_eq_true]
  exact decide_eq_true_iff

/-- A meter charges what its budget charges. -/
lemma charge_toBudget (m : Meter) (n : UInt64) : m.toBudget.charge n.toNat = (m.charge n).map toBudget := by
  rw [Budget.charge, allows_toBudget, charge]
  split
  · rename_i h
    have hfits : m.used.toNat + n.toNat ≤ maxWord := Nat.le_trans (allows_eq_true.1 h) (Word.toNat_le m.limit)
    show some (Budget.mk (some m.limit) (m.used.toNat + n.toNat)) = some ⟨some m.limit, (m.used + n).toNat⟩
    rw [Word.toNat_add_of_le hfits]
  · rfl

/-- A meter charges many things as its budget does. -/
lemma chargeMany_toBudget (m : Meter) (size count : UInt64) :
    m.toBudget.chargeMany size.toNat count.toNat = (m.chargeMany size count).map toBudget := by
  rw [Budget.chargeMany, ← Word.toNat_mul]
  exact m.charge_toBudget _

/-- A meter gives back what its budget gives back. -/
lemma refund_toBudget (m : Meter) (n : UInt64) : m.toBudget.refund n.toNat = (m.refund n).toBudget := by
  show Budget.mk (some m.limit) (m.used.toNat - n.toNat) = ⟨some m.limit, (Word.sub m.used n).toNat⟩
  rw [Word.toNat_sub]

/-- A meter has as much free as its budget. -/
lemma available_toBudget (m : Meter) : m.toBudget.available = some m.available.toNat := by
  show some (m.limit.toNat - m.used.toNat) = some (Word.sub m.limit m.used).toNat
  rw [Word.toNat_sub]

end Meter

/-! ## Postings -/

/-- What may be posted to a budget. -/
inductive Posting
  | charge (bytes : UInt64)
  | chargeMany (size count : UInt64)
  | refund (bytes : UInt64)

namespace Posting

/-- What is posted to the budget of a world. -/
def action : Posting → Action Unit
  | charge n => Action.charge n.toNat
  | chargeMany size count => Action.chargeMany size.toNat count.toNat
  | refund n => Action.refund n.toNat

/-- The world that a posting leaves, whether or not it is granted. -/
def leave (w : World) (r : Posting) : World := (r.action.runIn w).2

/-- The meter that a posting leaves, whether or not it is granted. -/
def count (m : Meter) : Posting → Meter
  | charge n => (m.charge n).getD m
  | chargeMany size count => (m.chargeMany size count).getD m
  | refund n => m.refund n

/-- A charge is taken from the budget of the world, if it is granted. -/
lemma budget_charge (n : Nat) (w : World) :
    ((Action.charge n).runIn w).2.budget = (w.budget.charge n).getD w.budget := by
  rw [Action.runIn_charge, Budget.charge]
  split
  · rfl
  · rfl

/-- Whether a budget is kept in natural numbers or in words, a posting leaves the same of it. -/
lemma leave_toBudget {w : World} {m : Meter} (h : w.budget = m.toBudget) (r : Posting) :
    (leave w r).budget = (count m r).toBudget := by
  cases r with
  | charge n =>
    show ((Action.charge n.toNat).runIn w).2.budget = _
    rw [budget_charge, h, Meter.charge_toBudget, Option.getD_map]
    rfl
  | chargeMany size count =>
    show ((Action.charge (min (size.toNat * count.toNat) maxWord)).runIn w).2.budget = _
    rw [budget_charge, h]
    show (m.toBudget.chargeMany size.toNat count.toNat).getD _ = _
    rw [Meter.chargeMany_toBudget, Option.getD_map]
    rfl
  | refund n =>
    show w.budget.refund n.toNat = _
    rw [h]
    exact m.refund_toBudget n

end Posting

/-! ## What postings do -/

/-- The charges of a world are within its limit. -/
structure World.Limited (w : World) (limit : UInt64) : Prop where
  limit_eq : w.budget.limit = some limit
  within : w.budget.used ≤ limit.toNat

/-- How charges and refunds work out under a limit. Charges that are not granted change nothing. -/
structure World.Exact (w : World) (limit : UInt64) : Prop extends w.Limited limit where
  available : w.budget.available = some (limit.toNat - w.budget.used)
  allows (n : UInt64) : w.budget.allows n.toNat = true ↔ w.budget.used + n.toNat ≤ limit.toNat
  charge (n : UInt64) : (Action.charge n.toNat).runIn w =
    if w.budget.used + n.toNat ≤ limit.toNat then (.ok (), w.spend n.toNat) else (.error .outOfMemory, w)
  /-- A product that is no word is granted if no word is charged yet, and all may be. -/
  chargeMany (size count : UInt64) : (Action.chargeMany size.toNat count.toNat).runIn w =
    if w.budget.used + size.toNat * count.toNat ≤ limit.toNat then
      (.ok (), w.spend (size.toNat * count.toNat))
    else if w.budget.used = 0 ∧ limit.toNat = maxWord then (.ok (), w.spend maxWord)
    else (.error .outOfMemory, w)
  refund (n : UInt64) : (Action.refund n.toNat).runIn w =
    (.ok (), { w with budget := { w.budget with used := w.budget.used - min n.toNat w.budget.used } })

namespace World.Limited

variable {w : World} {limit : UInt64}

/-- A limited world allows what its limit has room for. -/
lemma allows_eq_true (h : w.Limited limit) (n : Nat) :
    w.budget.allows n = true ↔ w.budget.used + n ≤ limit.toNat := by
  rw [Budget.allows, h.limit_eq]
  exact decide_eq_true_iff

/-- A charge is granted just if the limit has room for it. -/
lemma runIn_charge (h : w.Limited limit) (n : Nat) : (Action.charge n).runIn w =
    if w.budget.used + n ≤ limit.toNat then (.ok (), w.spend n) else (.error .outOfMemory, w) := by
  rw [Action.runIn_charge]
  simp only [h.allows_eq_true]

/-- Under a limit charges and refunds work out. -/
lemma works_out (h : w.Limited limit) : w.Exact limit where
  toLimited := h
  available := by
    rw [Budget.available, h.limit_eq]
    rfl
  allows n := h.allows_eq_true n.toNat
  charge n := h.runIn_charge n.toNat
  chargeMany size count := by
    have hlimit := Word.toNat_le limit
    rw [Action.chargeMany_eq, h.runIn_charge]
    by_cases hfits : size.toNat * count.toNat ≤ maxWord
    · rw [Nat.min_eq_left hfits]
      by_cases hroom : w.budget.used + size.toNat * count.toNat ≤ limit.toNat
      · rw [if_pos hroom, if_pos hroom]
      · have hsome : ¬ (w.budget.used = 0 ∧ limit.toNat = maxWord) := by omega
        rw [if_neg hroom, if_neg hroom, if_neg hsome]
    · have hroom : ¬ w.budget.used + size.toNat * count.toNat ≤ limit.toNat := by omega
      have hall : w.budget.used + maxWord ≤ limit.toNat ↔ w.budget.used = 0 ∧ limit.toNat = maxWord := by omega
      rw [Nat.min_eq_right (Nat.le_of_not_le hfits), if_neg hroom]
      simp only [hall]
  refund n := by
    rw [Action.runIn_refund, Budget.refund]
    congr 3
    omega

/-- A charge keeps a world within its limit. -/
lemma charge (h : w.Limited limit) (n : Nat) : ((Action.charge n).runIn w).2.Limited limit := by
  rw [h.runIn_charge]
  split
  · rename_i hroom
    exact ⟨h.limit_eq, hroom⟩
  · exact h

/-- A posting keeps to the limit. -/
lemma leave (h : w.Limited limit) (r : Posting) : (r.leave w).Limited limit := by
  cases r with
  | charge n => exact h.charge n.toNat
  | chargeMany size count => exact h.charge _
  | refund n => exact ⟨h.limit_eq, Nat.le_trans (Nat.sub_le ..) h.within⟩

end World.Limited

/-- After any postings under a limit, the bytes charged so far are the same in words, and within the limit, and so are
the bytes still free; a charge is granted exactly if it stays within the limit, and then adds what is asked for, and a
refund takes away what there is of it. Only a product beyond the largest word is granted as the largest word where all
words may be charged and none is. -/
theorem Posting.exact (w : World) (limit : UInt64) (rs : List Posting) :
    (rs.foldl leave (w.renew (some limit))).Exact limit ∧
      (rs.foldl leave (w.renew (some limit))).budget = (rs.foldl count ⟨limit, 0⟩).toBudget ∧
      (rs.foldl leave (w.renew (some limit))).budget.available =
        some (rs.foldl count ⟨limit, 0⟩).available.toNat := by
  have hrun (rs : List Posting) (v : World) (m : Meter) (hv : v.Limited limit) (hm : v.budget = m.toBudget) :
      (rs.foldl leave v).Limited limit ∧ (rs.foldl leave v).budget = (rs.foldl count m).toBudget := by
    induction rs generalizing v m with
    | nil => exact ⟨hv, hm⟩
    | cons r rs ih => exact ih _ _ (hv.leave r) (leave_toBudget hm r)
  obtain ⟨hlimited, hbudget⟩ := hrun rs (w.renew (some limit)) ⟨limit, 0⟩ ⟨rfl, Nat.zero_le _⟩ rfl
  refine ⟨hlimited.works_out, hbudget, ?_⟩
  rw [hbudget]
  exact Meter.available_toBudget _

/-- All words may be charged, and more are: `2 ^ 61` things of eight bytes. This is granted, though there is no room. -/
theorem World.excess_granted :
    ¬ (World.renew {} (some 0xffffffffffffffff)).budget.used + 8 * 0x2000000000000000 ≤
      (0xffffffffffffffff : UInt64).toNat ∧
    (Action.chargeMany Cost.word 0x2000000000000000).runIn (World.renew {} (some 0xffffffffffffffff)) =
      (.ok (), (World.renew {} (some 0xffffffffffffffff)).spend maxWord) :=
  ⟨by decide, rfl⟩

end HostBinding
