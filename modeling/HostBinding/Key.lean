import HostBinding.Symbol

/-!
# Property keys

A key is an array index, a string or a symbol. A string that spells an index in the one canonical way (no
sign, no leading zero, at most `2 ^ 32 - 2`) is that index.

* `Text.unsigned?`: the number of 32 bits that a text stands for. A plus sign and zeros may stand in front.
* `Key.ofString`: the canonical key of a string.
* `Key.text_ofString`: canonical keys keep the text of their strings.
* `Key.order`: the order in which keys are listed.
* `Key.order_perm`: listing loses and invents nothing.
-/

namespace HostBinding

namespace Text

/-- The number that has the places of `n` and, behind them, decimal digits. -/
def places? (n : Nat) : List Char → Option Nat
  | [] => some n
  | c :: cs =>
    let m := 10 * n + (c.toNat - '0'.toNat)
    if c.isDigit && decide (m < UInt32.size) then places? m cs else none

/-- The characters behind a plus sign, if there is one. -/
def unsignedPart : List Char → List Char
  | '+' :: cs => cs
  | cs => cs

/-- The number of a text, which has at least one digit. -/
def unsigned? (s : String) : Option UInt32 :=
  match unsignedPart s.toList with
  | [] => none
  | cs => (places? 0 cs).map UInt32.ofNat

end Text

/-- A property key. -/
inductive Key where
  | string (s : String)
  | index (n : UInt32)
  | symbol (s : Symbol)
deriving DecidableEq, Repr

namespace Key

/-- The text of a key. -/
def text : Key → String
  | string s => s
  | index n => toString n.toNat
  | symbol s => s.text

/-- The largest index that a string can spell, `2 ^ 32 - 2`. -/
def maxIndex : Nat := 0xfffffffe

/-- The index that a string spells canonically: the number that it stands for, if that is written in the same
way. -/
def index? (s : String) : Option UInt32 :=
  (Text.unsigned? s).filter fun n => decide (n.toNat ≤ maxIndex) && toString n.toNat == s

/-- The key of a string. -/
def ofString (s : String) : Key :=
  match index? s with
  | some n => index n
  | none => string s

/-- The key of a string that is given away: unless it spells an index, it is kept as it is. -/
def ofOwned (s : String) : Key :=
  match ofString s with
  | string _ => string s
  | key => key

/-- Whether a key is an index. -/
def isIndex : Key → Bool
  | index _ => true
  | _ => false

/-- Whether a key is a string. -/
def isString : Key → Bool
  | string _ => true
  | _ => false

/-- Whether a key is a symbol. -/
def isSymbol : Key → Bool
  | symbol _ => true
  | _ => false

/-- The position of an index key among the indices. -/
def rank : Key → Nat
  | index n => n.toNat
  | _ => 0

/-- Keys as they are listed: indices ascending, then strings, then symbols, the last two in the order in
which they come. -/
def order (keys : List Key) : List Key :=
  (keys.filter isIndex).mergeSort (fun a b => decide (a.rank ≤ b.rank))
    ++ (keys.filter isString ++ keys.filter isSymbol)

/-- The list of keys without repetitions: the first occurrence of each stays. -/
def union (keys more : List Key) : List Key :=
  more.foldl (fun ks k => if k ∈ ks then ks else ks ++ [k]) keys

/-- A key is in a union if it is in either part. -/
theorem mem_union {keys more : List Key} {k : Key} : k ∈ union keys more ↔ k ∈ keys ∨ k ∈ more := by
  induction more generalizing keys with
  | nil => simp [union]
  | cons m more ih =>
    rw [union, List.foldl_cons, ← union, ih]
    split <;> grind

/-- A string spells an index if it is the one way to write the number that it stands for. -/
theorem index?_eq_some {s : String} {n : UInt32} :
    index? s = some n ↔ Text.unsigned? s = some n ∧ n.toNat ≤ maxIndex ∧ toString n.toNat = s := by
  rw [index?, Option.filter_eq_some_iff, Bool.and_eq_true, decide_eq_true_iff, beq_iff_eq]

/-- The text of the canonical key of a string is the string. -/
theorem text_ofString (s : String) : (ofString s).text = s := by
  unfold ofString
  split
  · rename_i n h
    exact (index?_eq_some.1 h).2.2
  · rfl

/-- Different strings have different keys. -/
theorem ofString_inj {s t : String} : ofString s = ofString t ↔ s = t := by
  constructor
  · intro h
    rw [← text_ofString s, h, text_ofString]
  · rintro rfl
    rfl

/-- Every key is of exactly one of the three kinds, so splitting by kind is a rearrangement. -/
theorem perm_split (keys : List Key) :
    (keys.filter isIndex ++ (keys.filter isString ++ keys.filter isSymbol)).Perm keys := by
  induction keys with
  | nil => exact .nil
  | cons k r ih =>
    cases k with
    | index n => exact ih.cons (index n)
    | string s => exact List.perm_middle.trans (ih.cons (string s))
    | symbol s =>
      refine .trans (.append_left _ List.perm_middle) ?_
      exact List.perm_middle.trans (ih.cons (symbol s))

/-- Listing is a rearrangement. -/
theorem order_perm (keys : List Key) : (order keys).Perm keys :=
  .trans (.append_right _ (List.mergeSort_perm _ _)) (perm_split keys)

/-- Listing changes no membership. -/
theorem mem_order {key : Key} {keys : List Key} : key ∈ order keys ↔ key ∈ keys := (order_perm keys).mem_iff

end Key

end HostBinding
