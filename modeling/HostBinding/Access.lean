import HostBinding.External
import HostBinding.Value.Key

/-!
# Property access

What scripts do with values: read, write, delete and list properties, follow paths, call functions. A read
walks from an object to its ancestors; the first wrapper on the way answers for the rest of it.

* `World.seek`: where such a walk ends.
* `Access.get`, `Access.set`, `Access.delete`, `Access.has`, `Access.own`, `Access.keys`,
  `Access.enumerableKeys`, `Access.setParent`: the operations on objects.
* `Access.read`, `Access.method`, `Access.path`, `Access.call`, `Access.invoke`: the operations on values.
-/

namespace HostBinding

/-- Where a walk along the ancestors ends. -/
inductive Sought where
  /-- At an own property. -/
  | own (p : Property)
  /-- At a wrapper, which answers by its own rules. -/
  | wrapper (o : ObjectId)
  /-- At the last ancestor. -/
  | missing

namespace World

/-- Looks a key up along some objects. -/
def seek (w : World) (key : Key) : List ObjectId → Sought
  | [] => .missing
  | o :: os =>
    match (w.object o).external?, (w.object o).properties.find? key with
    | some _, _ => .wrapper o
    | none, some p => .own p
    | none, none => w.seek key os

end World

namespace Access

/-- Reads a property of an object for a receiver. -/
def get (o : ObjectId) (key : Key) (receiver : Value) : Dialogue Value := do
  let w ← MonadState.get
  match w.seek key (w.lineage o) with
  | .own p => return p.value
  | .wrapper o' => External.read o' key receiver
  | .missing => return .undefined

/-- Reads a property of a value, which is its own receiver. -/
def read (v : Value) (key : Key) : Dialogue Value := do
  match v with
  | .object o => get o key v
  | .undefined => Dialogue.fail (.unreadable key ((← MonadState.get).text v))
  | .null => Dialogue.fail (.unreadable key ((← MonadState.get).text v))
  | _ => return .undefined

/-- The function of a value, if it is one. -/
def function? (w : World) (v : Value) : Option Function := do
  let o ← v.toObject?
  (w.object o).function?

/-- Reads a property that must be a function if it is there. -/
def method (v : Value) (key : Key) : Dialogue Value := do
  let f ← read v key
  if f.isNullish then return .undefined
  else if (function? (← MonadState.get) f).isSome then return f
  else Dialogue.fail (.notMethod key)

/-- Follows keys from a value. -/
def follow (v : Value) : List Key → Dialogue Value
  | [] => return v
  | k :: ks => do
    let v' ← read v k
    follow v' ks

/-- Reads a dotted path from a value. -/
def path (v : Value) (p : String) : Dialogue Value := follow v (Key.ofPath p)

/-- Writes an own property of an object that is no wrapper. A new key is charged, also if it is refused. -/
def setOwn (o : ObjectId) (key : Key) (v : Value) : Action Bool := do
  let x ← Action.object o
  if (x.properties.find? key).isNone then Action.charge Cost.property
  Action.commit o (x.assign key v)

/-- Writes a property of an object, and says whether the write was accepted. -/
def set (o : ObjectId) (key : Key) (v : Value) : Dialogue Bool := do
  let x ← Action.object o
  match x.external? with
  | some _ => External.write o key v
  | none => setOwn o key v

/-- Deletes a property of an object, and says whether that was accepted. -/
def delete (o : ObjectId) (key : Key) : Action Bool := do
  let x ← Action.object o
  match x.external? with
  | some _ => External.erase o key
  | none => Action.commit o (x.remove key)

/-- Whether an object or one of its ancestors has a property. -/
def has (o : ObjectId) (key : Key) : Dialogue Bool := do
  let w ← MonadState.get
  match w.seek key (w.lineage o) with
  | .own _ => return true
  | .wrapper o' => External.has o' key
  | .missing => return false

/-- An own property of an object. -/
def own (o : ObjectId) (key : Key) : Dialogue (Option Property) := do
  let x ← Action.object o
  match x.external? with
  | some _ => External.describe o key
  | none => return x.properties.find? key

/-- The own keys of an object. -/
def keys (o : ObjectId) : Dialogue (List Key) := do
  let x ← Action.object o
  match x.external? with
  | some _ => External.keys o
  | none => return x.ownKeys

/-- The own keys of an object that enumeration visits. -/
def enumerableKeys (o : ObjectId) : Dialogue (List Key) := do
  let x ← Action.object o
  match x.external? with
  | some _ => External.enumerableKeys o
  | none => return x.enumerableKeys

/-- Gives an object another parent, and says whether that was accepted. Wrappers have none, and no object may
become its own ancestor. -/
def setParent (o : ObjectId) (parent : Option ObjectId) : Action Bool := do
  let w ← MonadState.get
  let x := w.object o
  if x.external?.isSome then return parent.isNone
  else if parent.any (fun p => decide (o ∈ w.lineage p)) || !x.extensible then return false
  else
    Action.update o { x with parent := parent }
    return true

/-- Calls a function. The host is told the host data behind `this`. -/
def call (f this : Value) (args : List Value) : Dialogue Value := do
  let w ← MonadState.get
  match function? w f with
  | some g => Dialogue.callMethod g.body (w.host? this) g.magic args
  | none => Dialogue.fail (.notFunction (w.text f))

/-- Calls the function under a key of a value, with the value as `this`. -/
def invoke (v : Value) (key : Key) (args : List Value) : Dialogue Value := do
  let f ← read v key
  call f v args

/-! ## Wrappers answer for themselves -/

section

variable {w : World} {o : ObjectId} {e : External}

/-- A wrapper answers for itself, so a walk that starts at one ends there. -/
theorem seek_lineage (hx : (w.object o).external? = some e) (key : Key) :
    w.seek key (w.lineage o) = .wrapper o := by
  rw [World.lineage, World.ancestors, World.seek, hx]

/-- A walk ends at a wrapper only if there is one. -/
theorem external_of_seek {key : Key} {os : List ObjectId} (h : w.seek key os = .wrapper o) :
    ∃ e, (w.object o).external? = some e := by
  induction os with
  | nil => cases h
  | cons o' os ih =>
    unfold World.seek at h
    split at h
    · cases h
      exact ⟨_, by assumption⟩
    · cases h
    · exact ih h

/-- A read is one of the wrapper where the walk along the ancestors ends. -/
theorem start_get_of_seek {o' : ObjectId} {key : Key} (hs : w.seek key (w.lineage o') = .wrapper o)
    (receiver : Value) : (get o' key receiver).start w = (External.read o key receiver).start w := by
  rw [get, Dialogue.start_get_bind, hs]

/-- A read of a wrapper is a read by the wrapper. -/
theorem start_get (hx : (w.object o).external? = some e) (key : Key) (receiver : Value) :
    (get o key receiver).start w = (External.read o key receiver).start w :=
  start_get_of_seek (seek_lineage hx key) receiver

/-- A write to a wrapper is a write by the wrapper. -/
theorem start_set (hx : (w.object o).external? = some e) (key : Key) (v : Value) :
    (set o key v).start w = (External.write o key v).start w := by
  rw [set, Dialogue.start_bind, Dialogue.start_lift, Action.runIn_object, Turn.bind, hx]

/-- A deletion on a wrapper is one by the wrapper. -/
theorem runIn_delete (hx : (w.object o).external? = some e) (key : Key) :
    (delete o key).runIn w = (External.erase o key).runIn w := by
  rw [delete, Action.runIn_bind, Action.runIn_object]
  dsimp only
  rw [hx]

/-- Whether a wrapper has a key is for the wrapper to say. -/
theorem start_has (hx : (w.object o).external? = some e) (key : Key) :
    (has o key).start w = (External.has o key).start w := by
  rw [has, Dialogue.start_get_bind, seek_lineage hx]

/-- The own property of a wrapper is what the wrapper describes. -/
theorem start_own (hx : (w.object o).external? = some e) (key : Key) :
    (own o key).start w = (External.describe o key).start w := by
  rw [own, Dialogue.start_bind, Dialogue.start_lift, Action.runIn_object, Turn.bind, hx]

/-- The keys of a wrapper are what the wrapper lists. -/
theorem start_keys (hx : (w.object o).external? = some e) :
    (keys o).start w = (External.keys o).start w := by
  rw [keys, Dialogue.start_bind, Dialogue.start_lift, Action.runIn_object, Turn.bind, hx]

/-- The enumerable keys of a wrapper are what the wrapper lists. -/
theorem start_enumerableKeys (hx : (w.object o).external? = some e) :
    (enumerableKeys o).start w = (External.enumerableKeys o).start w := by
  rw [enumerableKeys, Dialogue.start_bind, Dialogue.start_lift, Action.runIn_object, Turn.bind, hx]

end

/-! ## Writes to other objects -/

/-- A write to an object that is no wrapper goes to its own table, without the host. -/
theorem start_set_plain {w : World} {o : ObjectId} (hx : (w.object o).external? = none) (key : Key) (v : Value) :
    (set o key v).start w = .done ((setOwn o key v).runIn w).1 ((setOwn o key v).runIn w).2 := by
  rw [set, Dialogue.start_bind, Dialogue.start_lift, Action.runIn_object, Turn.bind, hx]
  rfl

/-- A new key is charged before the object is asked whether it takes it. -/
theorem runIn_setOwn (o : ObjectId) (key : Key) (v : Value) (w : World) :
    (setOwn o key v).runIn w =
      match (w.object o).properties.find? key with
      | some _ => (Action.commit o ((w.object o).assign key v)).runIn w
      | none =>
        if w.budget.allows Cost.property then
          (Action.commit o ((w.object o).assign key v)).runIn (w.spend Cost.property)
        else (.error .outOfMemory, w) := by
  rw [setOwn, Action.runIn_bind, Action.runIn_object]
  dsimp only
  cases (w.object o).properties.find? key with
  | some p => rfl
  | none =>
    dsimp only [Option.isNone_none]
    rw [if_pos rfl, Action.runIn_charge_bind]

end Access

end HostBinding
