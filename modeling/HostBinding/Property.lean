import HostBinding.Value

/-!
# Properties

A property is a value with three attributes: whether it can be written, is listed by enumeration, and can be
deleted or redefined.
-/

namespace HostBinding

/-- The attributes of a property. -/
structure Attributes where
  writable : Bool
  enumerable : Bool
  configurable : Bool
deriving DecidableEq, Repr

namespace Attributes

/-- Everything is allowed. -/
def all : Attributes := ⟨true, true, true⟩

/-- Nothing is allowed. -/
def none : Attributes := ⟨false, false, false⟩

/-- The attributes of built-in methods: hidden from enumeration. -/
def method : Attributes := ⟨true, false, true⟩

instance : Inhabited Attributes := ⟨all⟩

/-- Three letters, each a dash if the attribute is missing. -/
def text (a : Attributes) : String :=
  String.ofList [if a.writable then 'w' else '-', if a.enumerable then 'e' else '-',
    if a.configurable then 'c' else '-']

end Attributes

/-- A property of an object. -/
structure Property where
  value : Value
  attributes : Attributes
deriving DecidableEq, Repr

namespace Property

/-- A property with all attributes. -/
def ofValue (v : Value) : Property := ⟨v, .all⟩

/-- Equal values under equal attributes. -/
def same (p q : Property) : Bool := p.value.same q.value && p.attributes == q.attributes

end Property

end HostBinding
