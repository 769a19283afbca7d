import HostBinding.External

/-!
# Looking up globals

A name is resolved once: the first resolver that claims it makes the value, which is kept. A resolver that
fails leaves the name as it was.

* `Globals.has`: whether a name is resolved or claimed.
* `Globals.lookup`: the value of a name.
-/

namespace HostBinding

namespace Resolver

/-- Whether the resolver provides a name. -/
def claims (r : Resolver) (name : String) : Dialogue Bool :=
  match r with
  | exposing _ bindings => return bindings.contains name
  | hosted _ n => Dialogue.ask (.claims n name)

/-- Makes the value of a name. -/
def resolve (r : Resolver) (name : String) : Dialogue Value :=
  match r with
  | exposing _ bindings =>
    match bindings.find? name with
    | some b => External.wrap (some b.prototype) b.host b.shared
    | none => Dialogue.fail (.notDefined name)
  | hosted _ n => Dialogue.ask (.resolve n name)

end Resolver

namespace Globals

/-- The first of some resolvers that claims a name, with its position counted from `i`. -/
def claimant (name : String) (i : Nat) : List Resolver → Dialogue (Option (Nat × Resolver))
  | [] => return none
  | r :: rs => do
    if ← r.claims name then return some (i, r)
    else claimant name (i + 1) rs

/-- Whether a name is resolved or claimed. -/
def has (name : String) : Dialogue Bool := do
  let g := (← get).globals
  if g.isResolved name then return true
  else
    let c ← claimant name 0 g.resolvers.toList
    return c.isSome

/-- Keeps the value of a name, unless the context that asked for it has been replaced since. -/
def record (number : Nat) (name : String) (r : Resolved) : Action Unit :=
  modify fun w =>
    if w.globals.number = number then { w with globals := w.globals.keep name r } else w

/-- The value of a name. -/
def lookup (name : String) : Dialogue Value := do
  let g := (← get).globals
  match g.value? name with
  | some v => return v
  | none =>
    match ← claimant name 0 g.resolvers.toList with
    | none => Dialogue.fail (.notDefined name)
    | some (i, r) => do
      let v ← r.resolve name
      record g.number name ⟨v, i⟩
      return v

end Globals

end HostBinding
