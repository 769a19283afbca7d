/-!
# The heap budget

Everything the engine keeps for a script is charged, in bytes, before it is made. A charge beyond the limit
is refused and changes nothing. Sizes and counts are machine words of 64 bits: a product that does not fit
is charged as the largest word.

The counter is a natural number. Under a limit it stays within the limit, and so it is a word. A heap without a
limit is taken to stay below `2 ^ 64` bytes: some results on builds and runs name this as a condition, and the others
are meant with it.

* `Budget.allows_mono`: a smaller charge is allowed where a larger one is.
* `Budget.allows_add`: charges in a row are allowed where their sum is.
* `Cost`: the bytes that each kind of thing takes.
-/

namespace HostBinding

/-- The largest machine word, `2 ^ 64 - 1`. -/
def maxWord : Nat := 0xffffffffffffffff

/-- Bytes charged so far, and the most that may be charged. -/
structure Budget where
  limit : Option UInt64 := none
  used : Nat := 0
deriving DecidableEq, Repr, Inhabited

namespace Budget

/-- Whether a charge would stay within the limit. -/
def allows (b : Budget) (bytes : Nat) : Bool :=
  match b.limit with
  | some m => decide (b.used + bytes ≤ m.toNat)
  | none => true

/-- Charges some bytes. -/
def charge (b : Budget) (bytes : Nat) : Option Budget :=
  if b.allows bytes then some { b with used := b.used + bytes } else none

/-- Charges `count` things of one size. -/
def chargeMany (b : Budget) (size count : Nat) : Option Budget :=
  b.charge (min (size * count) maxWord)

/-- Gives bytes back. -/
def refund (b : Budget) (bytes : Nat) : Budget := { b with used := b.used - bytes }

/-- The bytes still free under a limit. -/
def available (b : Budget) : Option Nat := b.limit.map fun m => m.toNat - b.used

/-- A smaller charge is allowed where a larger one is. -/
theorem allows_mono {b : Budget} {m n : Nat} (h : m ≤ n) (hn : b.allows n = true) :
    b.allows m = true := by
  unfold allows at hn ⊢
  split at hn
  · rename_i limit _
    rw [decide_eq_true_eq] at hn ⊢
    omega
  · rfl

/-- Two charges in a row are allowed where their sum is. -/
theorem allows_add (b : Budget) (m n : Nat) :
    { b with used := b.used + m }.allows n = b.allows (m + n) := by
  unfold allows
  cases b.limit with
  | none => rfl
  | some limit => simp only [Nat.add_assoc]

end Budget

namespace Cost

/-- The bytes of one slot of a prototype. -/
def slot : Nat := 112

/-- The bytes of one shared template. -/
def template : Nat := 48

/-- The bytes of one function object. -/
def function : Nat := 136

/-- The bytes of a string, apart from its text. -/
def string : Nat := 24

/-- The bytes of one external object. -/
def external : Nat := 168

/-- The bytes of one property in an object's own table. -/
def property : Nat := 48

/-- The bytes of one machine word. -/
def word : Nat := 8

end Cost

end HostBinding
