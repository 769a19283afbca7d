import HostBinding.SetupError
import HostBinding.OrderedMap

/-!
# Tables of host functions

The functions a host offers to manifests, by name, with a name space for each convention. A table for
inspection has a stand-in for every name.

* `HostTable.find`: the function of a name.
-/

namespace HostBinding

/-- Host functions by convention and name. -/
structure HostTable where
  functions : OrderedMap (Convention × String) HostFunction := ∅
  /-- Whether unknown names stand for inert functions. -/
  permissive : Bool := false

namespace HostTable

instance : Inhabited HostTable := ⟨{}⟩

/-- The table in which every name is a stand-in. -/
def standIns : HostTable := { permissive := true }

/-- Registers a function; a later one of the same name takes its place. -/
def register (t : HostTable) (c : Convention) (name : String) (f : HostFunction) : HostTable :=
  { t with functions := t.functions.insert (c, name) f }

/-- Whether a function is registered. -/
def has (t : HostTable) (c : Convention) (name : String) : Bool := t.functions.contains (c, name)

/-- The function of a name. -/
def find (t : HostTable) (c : Convention) (name : String) : Except SetupError HostFunction :=
  match t.functions.find? (c, name) with
  | some f => .ok f
  | none => if t.permissive then .ok .placeholder else .error (.unknownFunction c name)

/-- The function of a name that may be left out. -/
def find? (t : HostTable) (c : Convention) : Option String → Except SetupError (Option HostFunction)
  | some name => (t.find c name).map some
  | none => .ok none

end HostTable

end HostBinding
