import HostBinding.Number
import HostBinding.Symbol
import HostBinding.Text.Printable

/-!
# Script values

A value is undefined, null, a boolean, a string, a symbol, a number, or an object known by its number.

* `Value.identical`: equality within one kind; objects and symbols by identity.
* `Value.same`, `Value.strictlyEqual`: equality by value, which differ only on not-a-number.
* `Text.quoted`: a string between double quotes, with an escape for every character that would not show as itself.
* `Value.text`, `Value.debugText`: the two texts of a value; the text of an object is a parameter.
-/

namespace HostBinding

namespace Text

/-- The lower-case hexadecimal digits of a number. -/
def hex (n : Nat) : String := String.ofList (Nat.toDigits 16 n)

/-- A character inside double quotes. -/
def escape (c : Char) : String :=
  if c = '\x00' then "\\0"
  else if c = '\t' then "\\t"
  else if c = '\n' then "\\n"
  else if c = '\r' then "\\r"
  else if c = '"' then "\\\""
  else if c = '\\' then "\\\\"
  else if isPrintable c then String.singleton c
  else "\\u\x7b" ++ hex c.toNat ++ "\x7d"

/-- A string between double quotes. -/
def quoted (s : String) : String := "\"" ++ String.join (s.toList.map escape) ++ "\""

end Text

/-- The number under which the world keeps an object. -/
structure ObjectId where
  index : Nat
deriving DecidableEq, Repr, Inhabited

/-- A script value. -/
inductive Value where
  | undefined
  | null
  | boolean (b : Bool)
  | string (s : String)
  | symbol (s : Symbol)
  | number (n : Number)
  | object (o : ObjectId)
deriving DecidableEq, Repr

namespace Value

instance : Inhabited Value := ⟨undefined⟩

/-- An integer as a value. -/
def ofInt64 (i : Int64) : Value := number (.integer i)

/-- The object of an object value. -/
def toObject? : Value → Option ObjectId
  | object o => some o
  | _ => none

/-- Whether a value is undefined or null. -/
def isNullish : Value → Bool
  | undefined => true
  | null => true
  | _ => false

/-- Equality within one kind. -/
def identical : Value → Value → Bool
  | undefined, undefined => true
  | null, null => true
  | boolean a, boolean b => a == b
  | string a, string b => a == b
  | symbol a, symbol b => a == b
  | number a, number b => a.identical b
  | object a, object b => a == b
  | _, _ => false

/-- Equality by value, with the meaning of `strict` on numbers. -/
def compare (strict : Bool) : Value → Value → Bool
  | undefined, undefined => true
  | null, null => true
  | boolean a, boolean b => a == b
  | string a, string b => a == b
  | symbol a, symbol b => a == b
  | number a, number b => a.same strict b
  | object a, object b => a == b
  | _, _ => false

/-- Equality by value. -/
def same (a b : Value) : Bool := a.compare false b

/-- Equality by value in which not-a-number differs from itself. -/
def strictlyEqual (a b : Value) : Bool := a.compare true b

/-- The text of a value. -/
def text (objectText : ObjectId → String) : Value → String
  | undefined => "undefined"
  | null => "null"
  | boolean b => "bool(" ++ (if b then "true" else "false") ++ ")"
  | string s => "\"" ++ s ++ "\""
  | symbol s => s.text
  | number n => n.text
  | object o => objectText o

/-- The text of a value for diagnostics, which names its kind and quotes strings. -/
def debugText (objectText : ObjectId → String) : Value → String
  | undefined => "JsValue::Undefined"
  | null => "JsValue::Null"
  | boolean b => "JsValue::Boolean(" ++ (if b then "true" else "false") ++ ")"
  | string s => "JsValue::String(" ++ Text.quoted s ++ ")"
  | symbol s => "JsValue::Symbol(" ++ s.text ++ ")"
  | number n => "JsValue::Number(" ++ n.debugText ++ ")"
  | object o => "JsValue::Object(" ++ objectText o ++ ")"

/-- Equality of values is symmetric. -/
theorem same_comm (a b : Value) : a.same b = b.same a := by
  unfold same
  cases a <;> cases b <;> first | rfl | exact BEq.comm | exact Number.same_comm _ _ _

end Value

end HostBinding
