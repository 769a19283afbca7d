import HostBinding.Object

/-!
# Globals

Names that a host provides to all scripts. Resolvers claim names and make their values; the first claimant
in the order of registration is asked, and the value it gives is kept.

* `Resolver`: a table of host data to wrap, or a resolver of the host's own.
* `Globals`: the resolvers, and the names resolved so far.
-/

namespace HostBinding

/-- Host data to be wrapped by a prototype under a global name. -/
structure Exposure where
  prototype : Prototype
  host : HostAddress
  shared : Bool

/-- A provider of global names. -/
inductive Resolver where
  /-- Wraps host data on first use. -/
  | exposing (name : String) (bindings : OrderedMap String Exposure)
  /-- Asks the host. -/
  | hosted (name : String) (number : Nat)

instance : Inhabited Resolver := ⟨.exposing "" ∅⟩

namespace Resolver

/-- What the resolver is called. -/
def name : Resolver → String
  | exposing n _ => n
  | hosted n _ => n

end Resolver

/-- A resolved name: its value, and the position of the resolver that made it. -/
structure Resolved where
  value : Value
  resolver : Nat
deriving DecidableEq, Repr

/-- The global names of one evaluation context. The number tells contexts apart. -/
structure Globals where
  number : Nat := 0
  resolvers : Array Resolver := #[]
  resolved : OrderedMap String Resolved := ∅

namespace Globals

instance : Inhabited Globals := ⟨{}⟩

/-- The value of a name that has been resolved. -/
def value? (g : Globals) (name : String) : Option Value := (g.resolved.find? name).map (·.value)

/-- Whether a name has been resolved. -/
def isResolved (g : Globals) (name : String) : Bool := g.resolved.contains name

/-- Registers a resolver behind the others. -/
def add (g : Globals) (r : Resolver) : Globals := { g with resolvers := g.resolvers.push r }

/-- Keeps the value of a name. -/
def keep (g : Globals) (name : String) (r : Resolved) : Globals :=
  { g with resolved := g.resolved.insert name r }

end Globals

end HostBinding
