import HostBinding.Dialogue

/-!
# Wrappers around host data

The properties of a wrapper are found in its own table, then among the templates of its slot, then through
the catch-all. A template that stands for a namespace or for a computed value is materialized on first read:
the value is made, charged, and kept in the own table, where later reads find it. A write to a templated key
puts a plain own property in front of the template. Deleting a templated key hides the template on this
wrapper only.

* `External.wrap`: wraps host data by the root slot of a prototype.
* `External.materialize`: the first read of a template.
* `External.read`, `External.write`, `External.erase`, `External.has`, `External.describe`,
  `External.keys`, `External.enumerableKeys`: the operations on wrappers.
-/

namespace HostBinding

namespace External

/-- Charges and adds a wrapper. -/
def create (e : External) : Action ObjectId := do
  Action.charge Cost.external
  Action.allocate { kind := .external e }

/-- Wraps host data by the root slot of a prototype, which must have one. -/
def wrap (p : Option Prototype) (host : HostAddress) (shared : Bool) : Action Value :=
  match p with
  | none => throw .invalidPrototype
  | some p =>
    if h : 0 < p.slots.size then do
      let o ← create { prototype := p, slot := 0, host := host, shared := shared, slot_lt := h }
      return .object o
    else throw .invalidPrototype

/-- Keeps a materialized value, for which `charged` bytes have been charged. If the key has come to have an
own property in the meantime, that one stays and the charge is given back. -/
def keep (o : ObjectId) (key : Key) (p : Property) (charged : Nat) : Action Value := do
  let x ← Action.object o
  match x.external?, x.properties.find? key with
  | none, _ => do
    Action.refund charged
    throw (.breach .notExternal)
  | some _, some kept => do
    Action.refund charged
    return kept.value
  | some _, none => do
    Action.update o (x.put key p)
    return p.value

/-- Makes and keeps the wrapper of a nested namespace: the same host data, seen through the slot that lies
`offset` further on. The property gets the attributes of that slot. -/
def materializeNested (o : ObjectId) (key : Key) (offset : Nat) (host : HostAddress) : Action Value := do
  let (_, e) ← Action.external o
  let child ← Action.lift (e.prototype.child e.slot offset)
  let attributes := (e.prototype.slot child.1 child.2).attributes
  Action.charge Cost.property
  let inner ←
    try
      create { prototype := e.prototype, slot := child.1, host := host, shared := e.shared,
               slot_lt := child.2 }
    catch f =>
      Action.refund Cost.property
      throw f
  keep o key ⟨.object inner, attributes⟩ (Cost.property + Cost.external)

/-- Charges and keeps a value that the host computed. -/
def keepComputed (o : ObjectId) (key : Key) (v : Value) (attributes : Attributes) : Action Value := do
  Action.charge Cost.property
  keep o key ⟨v, attributes⟩ Cost.property

/-- The first read of a template of `o`. The host data is that of the receiver; a receiver without any reads
undefined, and nothing is kept. -/
def materialize (o : ObjectId) (key : Key) (t : Template) (receiver : Value) : Dialogue Value := do
  match (← get).host? receiver with
  | none => return .undefined
  | some host =>
    match t.content with
    | .value v => return v
    | .nested offset => materializeNested o key offset host
    | .dynamic f magic => do
      let v ← Dialogue.callHandler f host magic
      keepComputed o key v t.attributes

/-- Puts a plain own property in front of a template, without asking the host. -/
def overwrite (o : ObjectId) (key : Key) (attributes : Attributes) (v : Value) : Action Bool := do
  Action.charge Cost.property
  let (x, _) ← Action.external o
  Action.update o (x.put key ⟨v, attributes⟩)
  return true

/-- Makes a new own property with all attributes. The charge stays if the property is refused. -/
def defineNew (o : ObjectId) (key : Key) (v : Value) : Action Bool := do
  Action.charge Cost.property
  let (x, _) ← Action.external o
  Action.commit o (x.define key (.ofValue v))

/-- Reads a property for a receiver. -/
def read (o : ObjectId) (key : Key) (receiver : Value) : Dialogue Value := do
  let (x, e) ← Action.external o
  match search x.properties e key with
  | .own p => return p.value
  | .template ⟨_, .value v⟩ => return v
  | .template t => materialize o key t receiver
  | .dynamic f =>
    match (← get).host? receiver with
    | some host => do
      let v ← Dialogue.callCatchAll f host key none
      return v.getD .undefined
    | none => return .undefined
  | .absent => return .undefined

/-- Writes a property, and says whether the write was accepted. A new key goes to the catch-all first. -/
def write (o : ObjectId) (key : Key) (v : Value) : Dialogue Bool := do
  let (x, e) ← Action.external o
  match search x.properties e key with
  | .own _ => Action.commit o (x.assign key v)
  | .template t => if t.attributes.writable then overwrite o key t.attributes v else return false
  | .dynamic f =>
    if x.extensible then do
      match ← Dialogue.callCatchAll f e.host key (some v) with
      | some _ => return true
      | none => defineNew o key v
    else return false
  | .absent => if x.extensible then defineNew o key v else return false

/-- Deletes a property, and says whether that was accepted. -/
def erase (o : ObjectId) (key : Key) : Action Bool := do
  let (x, e) ← Action.external o
  let configurable :=
    match search x.properties e key with
    | .own p => p.attributes.configurable
    | .template t => t.attributes.configurable
    | .dynamic _ => true
    | .absent => true
  if configurable then
    let e' := if e.view.templates.contains key then e.delete key else e
    Action.update o { x.withExternal e' with properties := x.properties.erase key }
  return configurable

/-- Whether a wrapper has a property. -/
def has (o : ObjectId) (key : Key) : Dialogue Bool := do
  let (x, e) ← Action.external o
  match search x.properties e key with
  | .own _ => return true
  | .template _ => return true
  | .dynamic f => do
    let v ← Dialogue.callCatchAll f e.host key none
    return v.isSome
  | .absent => return false

/-- The property under a key. A template is materialized first, so that the property has its value. -/
def describe (o : ObjectId) (key : Key) : Dialogue (Option Property) := do
  let (x, e) ← Action.external o
  match search x.properties e key with
  | .own p => return some p
  | .template ⟨attributes, .value v⟩ => return some ⟨v, attributes⟩
  | .template t => do
    let _ ← materialize o key t (.object o)
    let (x', _) ← Action.external o
    return x'.properties.find? key
  | .dynamic f => do
    let v ← Dialogue.callCatchAll f e.host key none
    return v.map .ofValue
  | .absent => return none

/-- The keys that the enumerator of a wrapper's slot reports. -/
def reportedKeys (e : External) : Dialogue (List Key) :=
  match e.view.hooks.enumerator with
  | some f => Dialogue.callEnumerator f e.host
  | none => return []

/-- The keys of a wrapper: those bound here, then those that the enumerator reports besides. -/
def keys (o : ObjectId) : Dialogue (List Key) := do
  let (x, e) ← Action.external o
  let more ← reportedKeys e
  return Key.order (Key.union (boundKeys x.properties e) more)

/-- Whether a bound key is listed by enumeration. -/
def isEnumerable (properties : OrderedMap Key Property) (e : External) (key : Key) : Bool :=
  match properties.find? key with
  | some p => p.attributes.enumerable
  | none => (e.template? key).any (·.attributes.enumerable)

/-- The keys of a wrapper that enumeration visits. Those that the enumerator reports count among them. -/
def enumerableKeys (o : ObjectId) : Dialogue (List Key) := do
  let (x, e) ← Action.external o
  let more ← reportedKeys e
  return Key.order (Key.union ((boundKeys x.properties e).filter (isEnumerable x.properties e)) more)

end External

end HostBinding
