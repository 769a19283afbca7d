import HostBinding.Key
import HostBinding.Value

/-!
# Calls to the host

What the engine knows of the host: addresses that it stores, compares and hands back, functions known by
number, and the six kinds of requests it makes. A request says all that the host is told; `HostCall.Answer`
is the type of what it gives back.
-/

namespace HostBinding

/-- An address of host data. The engine never looks behind it. -/
structure HostAddress where
  word : UInt64
deriving DecidableEq, Repr, Inhabited

namespace HostAddress

/-- The address of nothing. -/
def null : HostAddress := ⟨0⟩

/-- Whether this is the address of nothing. -/
def isNull (p : HostAddress) : Bool := p == null

/-- The text of an address, in lower-case hexadecimal. -/
def text (p : HostAddress) : String := "HostPtr(0x" ++ Text.hex p.word.toNat ++ ")"

end HostAddress

/-- A function of the host: one of its own, by number, or an inert stand-in that answers nothing. -/
inductive HostFunction where
  | placeholder
  | hosted (number : Nat)
deriving DecidableEq, Repr

/-- The ways in which the engine calls a host function. -/
inductive Convention where
  /-- A method called by a script. -/
  | method
  /-- The value of a property, asked for on first read. -/
  | handler
  /-- Reads and writes of keys that nothing else binds. -/
  | catchAll
  /-- The keys that a catch-all answers for. -/
  | enumerator
deriving DecidableEq, Repr

/-- The name of a convention in messages. -/
def Convention.name : Convention → String
  | method => "method"
  | handler => "handler"
  | catchAll => "catch-all"
  | enumerator => "enumerator"

/-- A request to the host. -/
inductive HostCall where
  /-- Calls a method for the host data behind `this`, if there is any. -/
  | method (f : Nat) (host : Option HostAddress) (magic : Int32) (args : List Value)
  /-- Asks for the value of a property. -/
  | handler (f : Nat) (host : HostAddress) (magic : Int32)
  /-- Reads a key, or writes it if a value is given. -/
  | catchAll (f : Nat) (host : HostAddress) (key : Key) (write : Option Value)
  /-- Asks for the keys of a catch-all. -/
  | enumerator (f : Nat) (host : HostAddress)
  /-- Asks a resolver whether it provides a global name. -/
  | claims (resolver : Nat) (name : String)
  /-- Asks a resolver for the value of a global name. -/
  | resolve (resolver : Nat) (name : String)
deriving DecidableEq, Repr

/-- What the host answers. A catch-all without an answer knows no such key on a read, and did not take the
value on a write. -/
@[reducible] def HostCall.Answer : HostCall → Type
  | method _ _ _ _ => Value
  | handler _ _ _ => Value
  | catchAll _ _ _ _ => Option Value
  | enumerator _ _ => List Key
  | claims _ _ => Bool
  | resolve _ _ => Value

end HostBinding
