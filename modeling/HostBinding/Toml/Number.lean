import HostBinding.Toml.Token

/-!
# TOML numbers

Integers are decimal, or hexadecimal, octal or binary after `0x`, `0o` or `0b`; single underscores may stand
between digits. A decimal number has no leading zeros. Integers have 64 bits; floating-point numbers must be
finite as doubles.

* `Toml.integer?`: the value of an integer.
* `Toml.number`: the number that starts with a word.
-/

namespace HostBinding

namespace Toml

/-- The value of a digit to some base. -/
def digit? (radix : Nat) (c : Char) : Option Nat := do
  let d ← hexDigit? c
  if d < radix then some d else none

/-- How far a run of digits has come. -/
structure Run where
  /-- Nothing has been read. -/
  start : Bool := true
  /-- The first digit was a zero. -/
  zero : Bool := false
  /-- The last character was an underscore. -/
  gap : Bool := false

/-- A run of digits without its underscores, and what follows it. -/
def digits (radix : Nat) (leadingZeros : Bool) : Run → List Char → Option (List Nat × List Char)
  | s, [] => if s.start || s.gap then none else some ([], [])
  | s, c :: cs =>
    match digit? radix c with
    | some d =>
      if !s.start && s.zero && !leadingZeros then none
      else
        (digits radix leadingZeros ⟨false, s.zero || (s.start && d == 0), false⟩ cs).map fun (ds, r) =>
          (d :: ds, r)
    | none =>
      if c = '_' ∧ s.start then none
      else if c = '_' ∧ !s.gap then digits radix leadingZeros ⟨false, s.zero, true⟩ cs
      else if s.start || s.gap then none
      else some ([], c :: cs)

/-- A run of digits that may have a minus sign. -/
def signedDigits (leadingZeros : Bool) (cs : List Char) : Option (Bool × List Nat × List Char) :=
  if cs.take 1 == ['-'] then (digits 10 leadingZeros {} (cs.drop 1)).map fun (ds, r) => (true, ds, r)
  else (digits 10 leadingZeros {} cs).map fun (ds, r) => (false, ds, r)

/-- The number that some digits give. -/
def ofDigits (radix : Nat) (ds : List Nat) : Nat := ds.foldl (fun n d => radix * n + d) 0

/-- An integer that fits into 64 bits. -/
def fitting? (i : Int) : Option Int :=
  if Int64.minValue.toInt ≤ i ∧ i ≤ Int64.maxValue.toInt then some i else none

/-- The value of an unsigned integer to some base, which must take all characters. -/
def unsigned? (radix : Nat) (cs : List Char) : Option Int :=
  match digits radix true {} cs with
  | some (ds, []) => fitting? (ofDigits radix ds)
  | _ => none

/-- The value of a decimal integer, which must take all characters. -/
def decimal? (cs : List Char) : Option Int :=
  match signedDigits false cs with
  | some (negative, ds, []) =>
    let n : Int := ofDigits 10 ds
    fitting? (if negative then -n else n)
  | _ => none

/-- The value of an integer. -/
def integer? : List Char → Option Int
  | '0' :: 'x' :: cs => unsigned? 16 cs
  | '0' :: 'o' :: cs => unsigned? 8 cs
  | '0' :: 'b' :: cs => unsigned? 2 cs
  | cs => decimal? cs

/-- Whether `m * 10 ^ e` rounds to a finite double: whether it is less than the number half-way between the
largest double and the next power of two. Very large and very small sizes are told apart by the number of
digits, before any power is taken. -/
def isFiniteDouble (m : Nat) (e : Int) : Bool :=
  let size : Int := (Nat.toDigits 10 m).length + e
  if m = 0 ∨ size < 0 then true
  else if 400 < size then false
  else decide (m * Nat.pow 10 e.toNat < (1 <<< 1024 - 1 <<< 970) * Nat.pow 10 (-e).toNat)

/-- An exponent: the rest of the word after the letter or, if the word ends with the letter, an optional plus
sign and the next word. -/
def exponent (after : List Char) (ts : List Token) : Option (Int × List Token) :=
  match after with
  | [] =>
    let ts := match ts with
      | .plus :: r => r
      | r => r
    match ts with
    | .word w :: r =>
      match digits 10 true {} w.toList with
      | some (ds, []) => some (ofDigits 10 ds, r)
      | _ => none
    | _ => none
  | cs =>
    match signedDigits true cs with
    | some (negative, ds, []) =>
      let n : Int := ofDigits 10 ds
      some (if negative then -n else n, ts)
    | _ => none

/-- A floating-point number of a whole part, a fraction, and a rest that must be empty or an exponent; the
tokens after it if it is finite. -/
def floatRest (whole fraction : List Nat) (rest : List Char) (ts : List Token) : Option (List Token) := do
  let (e, ts) ←
    match rest with
    | [] => some (0, ts)
    | c :: cs => if c = 'e' ∨ c = 'E' then exponent cs ts else none
  if isFiniteDouble (ofDigits 10 (whole ++ fraction)) (e - fraction.length) then some ts else none

/-- A number: either the value of an integer or, for a floating-point number, nothing. -/
inductive Numeral where
  | integer (i : Int)
  | float
deriving DecidableEq, Repr

/-- The number that starts with a word, and the tokens after it. -/
def number (w : String) (ts : List Token) : Option (Numeral × List Token) :=
  let cs := w.toList
  let based := cs.take 2 == ['0', 'x'] || cs.take 2 == ['0', 'o'] || cs.take 2 == ['0', 'b']
  if !based && (cs.contains 'e' || cs.contains 'E') then do
    let (_, whole, rest) ← signedDigits false cs
    let ts ← floatRest whole [] rest ts
    return (.float, ts)
  else
    match !based, ts with
    | true, .period :: .word after :: ts => do
      let (_, whole, rest) ← signedDigits false cs
      let (fraction, rest') ← digits 10 true {} after.toList
      let ts ← if rest.isEmpty then floatRest whole fraction rest' ts else none
      return (.float, ts)
    | true, .period :: _ => none
    | _, _ =>
      if ["inf", "-inf", "nan", "-nan"].contains w then some (.float, ts)
      else (integer? cs).map fun i => (.integer i, ts)

end Toml

end HostBinding
