import HostBinding.Action

/-!
# Building prototypes

A definition table becomes a prototype: its own slot first, then the slots of its nested tables, each
followed by those nested in it. All slots are charged before the first one is made; then each entry is
charged as it is reached. Nothing is given back if the build fails further on.

* `Build.level`: the templates of one table, and the slots below it.
* `Build.finish`: the last check, on the number of slots.
* `Definition.build`: the prototype of a definition.
-/

namespace HostBinding

namespace Build

open Definition

/-- A table in progress: its templates so far, and the finished slots of the tables nested in it. -/
structure Level where
  templates : OrderedMap Key Template := ∅
  below : Array Slot := #[]

instance : Inhabited Level := ⟨{}⟩

/-- Checks that a key is new in the table of slot `index`, and charges its template. -/
def enter (index : Nat) (l : Level) (key : Key) : Action Unit := do
  if l.templates.contains key then throw (.breach (.duplicateKey key index))
  Action.charge Cost.template

/-- What the template of a leaf stands for. Methods become functions here, once for all instances. -/
def leaf (key : Key) : Leaf → Action Template.Content
  | .method f magic => do
    Action.charge Cost.function
    let o ← Action.allocate { kind := .function ⟨key.text, f, magic⟩ }
    return .value (.object o)
  | .literal text => do
    Action.charge (Cost.string + text.utf8ByteSize)
    return .value (.string text)
  | .dynamic f magic => return .dynamic f magic

mutual

/-- Adds one entry to the table of slot `index`. -/
def entry (index : Nat) (l : Level) : Entry → Action Level
  | .leaf key attributes content => do
    enter index l key
    let c ← leaf key content
    return { l with templates := l.templates.insert key ⟨attributes, c⟩ }
  | .nested key attributes hooks entries => do
    enter index l key
    let offset := l.below.size + 1
    let inner ← level (index + offset) {} entries
    return {
      templates := l.templates.insert key ⟨attributes, .nested offset⟩
      below := l.below.push ⟨inner.templates, attributes, hooks⟩ ++ inner.below }

/-- Adds entries to the table of slot `index`, in order. -/
def level (index : Nat) (l : Level) : List Entry → Action Level
  | [] => return l
  | e :: es => do
    let l' ← entry index l e
    level index l' es

end

/-- Makes a prototype of some slots, which must be as many as were counted. -/
def finish (counted : Nat) (slots : Array Slot) : Action Prototype := do
  if slots.size ≠ counted then throw (.breach (.miscount slots.size counted))
  Action.newPrototype slots

end Build

namespace Definition

/-- Builds a prototype; the root slot gets the attributes `root`. -/
def build (d : Definition) (root : Attributes) : Action Prototype := do
  Action.chargeMany Cost.slot d.slotCount
  let l ← Build.level 0 {} d.entries
  Build.finish d.slotCount (#[⟨l.templates, root, d.hooks⟩] ++ l.below)

end Definition

end HostBinding
