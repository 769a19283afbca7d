import HostBinding.Definition
import HostBinding.Fault
import HostBinding.OrderedMap

/-!
# Prototypes

A definition is built once into a prototype: an array of slots, one for each table, the root first. A slot
holds the shared templates of its keys; a nested namespace is a template that says how many slots further
on the namespace lies. Prototypes never change, and all instances share them.

* `Prototype.child`: the slot that a nested template leads to.
* `Prototype.layout`: the slots as text, one line for each template.
-/

namespace HostBinding

namespace Template

/-- What a template stands for. -/
inductive Content where
  /-- A value that is there from the start. -/
  | value (v : Value)
  /-- A value that the host computes on first read. -/
  | dynamic (f : HostFunction) (magic : Int32)
  /-- The namespace that lies `offset` slots further on. -/
  | nested (offset : Nat)
deriving DecidableEq, Repr

/-- Whether a value has to be made before it can be read. -/
def Content.isDeferred : Content → Bool
  | value _ => false
  | dynamic _ _ => true
  | nested _ => true

end Template

/-- A shared template of a property. -/
structure Template where
  attributes : Attributes
  content : Template.Content
deriving DecidableEq, Repr

/-- One namespace of a prototype. -/
structure Slot where
  templates : OrderedMap Key Template
  /-- The attributes of the property under which the namespace is found. -/
  attributes : Attributes
  hooks : Hooks

instance : Inhabited Slot := ⟨⟨∅, .all, {}⟩⟩

/-- A built definition. The number tells prototypes apart. -/
structure Prototype where
  number : Nat
  slots : Array Slot

namespace Prototype

instance : Inhabited Prototype := ⟨⟨0, #[]⟩⟩

/-- The prototype without slots, of which there are no instances. -/
def null : Prototype := default

/-- The number of slots. -/
def size (p : Prototype) : Nat := p.slots.size

/-- The slot at a position. -/
def slot (p : Prototype) (index : Nat) (h : index < p.slots.size) : Slot := p.slots[index]

/-- The slot to which a template with `offset` in the slot `index` leads. -/
def child (p : Prototype) (index offset : Nat) : Except Fault { i : Nat // i < p.slots.size } :=
  if h : 0 < offset ∧ index + offset < p.slots.size then .ok ⟨index + offset, h.2⟩
  else .error (.breach (.nestedOffset offset index p.size))

/-- What a template is, as text; `index` is the slot it belongs to. -/
def contentText (index : Nat) : Template.Content → String
  | .value (.object _) => "method"
  | .value v => "value " ++ v.text (fun _ => "")
  | .dynamic _ magic => "dynamic magic=" ++ toString magic.toInt
  | .nested offset => "object -> slot " ++ toString (index + offset) ++ " (+" ++ toString offset ++ ")"

/-- The line of a template. -/
def templateLine (index : Nat) (entry : Key × Template) : String :=
  "  " ++ entry.1.text ++ " [" ++ entry.2.attributes.text ++ "] "
    ++ contentText index entry.2.content ++ "\n"

/-- The lines of a slot. -/
def slotLines (slot : Slot) (index : Nat) : String :=
  "slot " ++ toString index ++ " [" ++ slot.attributes.text ++ "]"
    ++ (if slot.hooks.catchAll.isSome then " catch-all" else "")
    ++ (if slot.hooks.enumerator.isSome then " enumerator" else "") ++ "\n"
    ++ String.join (slot.templates.entries.map (templateLine index))

/-- The slots as text. -/
def layout (p : Prototype) : String :=
  "prototype: " ++ toString p.size ++ " slot(s)\n"
    ++ String.join ((p.slots.toList.zipIdx).map fun e => slotLines e.1 e.2)

/-- A nested template leads further on, and stays inside. -/
theorem child_eq_ok {p : Prototype} {index offset : Nat} {i : { i : Nat // i < p.slots.size }}
    (h : p.child index offset = .ok i) : i.1 = index + offset ∧ 0 < offset := by
  unfold child at h
  split at h
  · rename_i hc
    cases h
    exact ⟨rfl, hc.1⟩
  · cases h

end Prototype

end HostBinding
