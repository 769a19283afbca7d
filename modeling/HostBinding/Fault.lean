import HostBinding.Key

/-!
# Faults

Why an operation on script objects fails. A fault names its cause; the text that a script sees is made from
it in one place.

* `Fault.kind`: the kind of exception a script sees.
* `Fault.message`: its text.
-/

namespace HostBinding

/-- The kinds of exceptions. -/
inductive FaultKind where
  | referenceError
  | typeError
  | rangeError
  | outOfMemory
  | internalError
  | invalidPrototype
deriving DecidableEq, Repr

/-- A broken rule of the engine itself. -/
inductive Breach where
  /-- A level of a definition table binds a key twice. -/
  | duplicateKey (key : Key) (slot : Nat)
  /-- A build made another number of slots than it had counted. -/
  | miscount (built counted : Nat)
  /-- A template points outside its prototype. -/
  | nestedOffset (offset slot slots : Nat)
  /-- An operation on external objects met another object. -/
  | notExternal
deriving DecidableEq, Repr

/-- The reasons for which an operation fails. -/
inductive Fault where
  /-- A charge went beyond the budget. -/
  | outOfMemory
  /-- An instance of nothing was asked for. -/
  | invalidPrototype
  /-- A rule of the engine was broken. -/
  | breach (b : Breach)
  /-- A property of undefined or null was read. -/
  | unreadable (key : Key) (holder : String)
  /-- The value of a property was used as a method, but is no function. -/
  | notMethod (key : Key)
  /-- A value was called, but is no function. -/
  | notFunction (callee : String)
  /-- An object was used as a key. -/
  | objectAsKey
  /-- No resolver provides a global name. -/
  | notDefined (name : String)
  /-- The host failed with an exception of its own. -/
  | raised (kind : FaultKind) (detail : String)
deriving DecidableEq, Repr

/-- What a breach says. -/
def Breach.text : Breach → String
  | duplicateKey key slot => "duplicate binding '" ++ key.text ++ "' in slot " ++ toString slot
  | miscount built counted =>
    "built " ++ toString built ++ " slots, counted " ++ toString counted
  | nestedOffset offset slot slots =>
    "nested offset " ++ toString offset ++ " from slot " ++ toString slot
      ++ " is outside a prototype of " ++ toString slots ++ " slots"
  | notExternal => "external object operation on a non-external object"

namespace Fault

/-- The kind of exception. -/
def kind : Fault → FaultKind
  | outOfMemory => .outOfMemory
  | invalidPrototype => .invalidPrototype
  | breach _ => .internalError
  | unreadable _ _ => .typeError
  | notMethod _ => .typeError
  | notFunction _ => .typeError
  | objectAsKey => .typeError
  | notDefined _ => .referenceError
  | raised k _ => k

/-- What the exception says beyond its kind. -/
def detail : Fault → String
  | outOfMemory => ""
  | invalidPrototype => ""
  | breach b => b.text
  | unreadable key holder => "cannot read property '" ++ key.text ++ "' of " ++ holder
  | notMethod key => "'" ++ key.text ++ "' is not a function"
  | notFunction callee => callee ++ " is not a function"
  | objectAsKey => "cannot use an object as a property key"
  | notDefined name => name ++ " is not defined"
  | raised _ d => d

/-- The text of an exception of a kind. -/
def wording (k : FaultKind) (detail : String) : String :=
  match k with
  | .referenceError => "Uncaught reference error: " ++ detail ++ "."
  | .typeError => "Uncaught type error: " ++ detail ++ "."
  | .rangeError => "Uncaught range error: " ++ detail ++ "."
  | .outOfMemory => "Out of memory"
  | .internalError => "Internal error: " ++ detail
  | .invalidPrototype => "Invalid prototype handle"

/-- The text that a script sees. -/
def message (f : Fault) : String := wording f.kind f.detail

end Fault

end HostBinding
