import HostBinding.HostCall
import HostBinding.Property

/-!
# Definition tables

What a host exposes: an ordered table of named entries. An entry is a method, a literal, a property whose
value the host computes, or a nested namespace with a table of its own. A table may have hooks: a catch-all
for keys outside the table, and an enumerator for the keys that the catch-all answers for.

* `Definition.slotCount`: how many tables there are in a definition, the nested ones included.
-/

namespace HostBinding

/-- The hooks of a namespace. -/
structure Hooks where
  catchAll : Option HostFunction := none
  enumerator : Option HostFunction := none
deriving DecidableEq, Repr, Inhabited

namespace Definition

/-- The content of an entry that is no namespace. -/
inductive Leaf where
  | method (f : HostFunction) (magic : Int32)
  | literal (text : String)
  | dynamic (f : HostFunction) (magic : Int32)
deriving DecidableEq, Repr

/-- The attributes of an entry that does not name them. -/
def Leaf.attributes : Leaf → Attributes
  | method _ _ => .method
  | literal _ => .all
  | dynamic _ _ => .all

/-- An entry of a definition table. -/
inductive Entry where
  | leaf (key : Key) (attributes : Attributes) (content : Leaf)
  | nested (key : Key) (attributes : Attributes) (hooks : Hooks) (entries : List Entry)

instance : Inhabited Entry := ⟨.leaf (.string "") .all (.literal "")⟩

namespace Entry

/-- The key that an entry binds. -/
def key : Entry → Key
  | leaf k _ _ => k
  | nested k _ _ _ => k

/-- The attributes of an entry. -/
def attributes : Entry → Attributes
  | leaf _ a _ => a
  | nested _ a _ _ => a

/-- The entry with other attributes. -/
def withAttributes (a : Attributes) : Entry → Entry
  | leaf k _ c => leaf k a c
  | nested k _ h es => nested k a h es

end Entry

mutual

/-- The number of tables inside one entry. -/
def Entry.slotCount : Entry → Nat
  | .leaf _ _ _ => 0
  | .nested _ _ _ entries => 1 + nestedCount entries

/-- The number of tables inside some entries. -/
def nestedCount : List Entry → Nat
  | [] => 0
  | e :: es => e.slotCount + nestedCount es

end

end Definition

/-- A definition table with its hooks. -/
structure Definition where
  entries : List Definition.Entry := []
  hooks : Hooks := {}

namespace Definition

instance : Inhabited Definition := ⟨{}⟩

/-- The number of tables: this one, and those nested in it. -/
def slotCount (d : Definition) : Nat := 1 + nestedCount d.entries

end Definition

end HostBinding
