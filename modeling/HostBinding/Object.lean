import HostBinding.Prototype

/-!
# Objects

An object has a table of own properties, may refuse new ones, and may have a parent from which it inherits.
Beyond that it is ordinary, a function, or a wrapper around host data that also shows the templates of a
prototype's slot.

* `Object.define`, `Object.assign`, `Object.remove`: changes of the own table, which may be refused.
* `External.search`: where the lookup of a key in a wrapper ends.
-/

namespace HostBinding

/-- A function that scripts can call. -/
structure Function where
  name : String
  body : HostFunction
  magic : Int32
deriving DecidableEq, Repr

/-- A wrapper around host data. -/
structure External where
  prototype : Prototype
  /-- The slot whose templates the wrapper shows. -/
  slot : Nat
  host : HostAddress
  /-- Noted for the surrounding engine; without effect here. -/
  shared : Bool
  /-- The keys whose templates were deleted on this wrapper. -/
  deleted : List Key := []
  slot_lt : slot < prototype.slots.size

/-- What an object is besides its own table. -/
inductive Kind where
  | ordinary
  | function (f : Function)
  | external (e : External)

/-- An object. -/
structure Object where
  kind : Kind
  properties : OrderedMap Key Property := ∅
  extensible : Bool := true
  parent : Option ObjectId := none

namespace Object

instance : Inhabited Object := ⟨{ kind := .ordinary }⟩

/-- The wrapper part of an object. -/
def external? (o : Object) : Option External :=
  match o.kind with
  | .external e => some e
  | _ => none

/-- The function part of an object. -/
def function? (o : Object) : Option Function :=
  match o.kind with
  | .function f => some f
  | _ => none

/-- The object with another wrapper part. -/
def withExternal (o : Object) (e : External) : Object := { o with kind := .external e }

/-- The object with `p` under `key` in its own table. -/
def put (o : Object) (key : Key) (p : Property) : Object :=
  { o with properties := o.properties.insert key p }

/-- Whether a property may take the place of `current`. One that is not configurable keeps its attributes,
and its value too unless it is writable. -/
def replaces (current next : Property) : Bool :=
  current.attributes.configurable
    || (current.attributes == next.attributes && (current.attributes.writable || current.same next))

/-- Defines or redefines an own property. `none` if it is refused. -/
def define (o : Object) (key : Key) (p : Property) : Option Object :=
  match o.properties.find? key with
  | none => if o.extensible then some (o.put key p) else none
  | some current => if replaces current p then some (o.put key p) else none

/-- Writes an own property, and makes it if it is new. `none` if it is refused. -/
def assign (o : Object) (key : Key) (v : Value) : Option Object :=
  match o.properties.find? key with
  | some current =>
    if current.attributes.writable then some (o.put key { current with value := v }) else none
  | none => o.define key (.ofValue v)

/-- Removes an own property. `none` if it is refused. -/
def remove (o : Object) (key : Key) : Option Object :=
  match o.properties.find? key with
  | none => some o
  | some current =>
    if current.attributes.configurable then some { o with properties := o.properties.erase key } else none

/-- Refuses new properties from now on. -/
def close (o : Object) : Object := { o with extensible := false }

/-- The own keys as they are listed. -/
def ownKeys (o : Object) : List Key := Key.order o.properties.keys

/-- The own keys whose properties are enumerable. -/
def enumerableKeys (o : Object) : List Key :=
  o.ownKeys.filter fun k => (o.properties.find? k).any (·.attributes.enumerable)

/-- The text of an object. -/
def text (o : Object) : String :=
  match o.kind with
  | .ordinary => "[object Object]"
  | .function f => "function " ++ f.name ++ "() \x7b [native code] \x7d"
  | .external e => "[object External(" ++ e.host.text ++ ")]"

end Object

namespace External

/-- The slot that a wrapper shows. -/
def view (e : External) : Slot := e.prototype.slot e.slot e.slot_lt

/-- The template under a key, unless it was deleted here. -/
def template? (e : External) (key : Key) : Option Template :=
  if key ∈ e.deleted then none else e.view.templates.find? key

/-- The wrapper on which the template under a key is deleted. -/
def delete (e : External) (key : Key) : External :=
  if key ∈ e.deleted then e else { e with deleted := e.deleted ++ [key] }

/-- A deletion does not change the prototype. -/
@[simp] theorem prototype_delete (e : External) (key : Key) : (e.delete key).prototype = e.prototype := by
  unfold delete
  split <;> rfl

/-- A deletion does not change the slot. -/
@[simp] theorem slot_delete (e : External) (key : Key) : (e.delete key).slot = e.slot := by
  unfold delete
  split <;> rfl

/-- A deletion does not change the host data. -/
@[simp] theorem host_delete (e : External) (key : Key) : (e.delete key).host = e.host := by
  unfold delete
  split <;> rfl

/-- A deletion does not change who owns the host data. -/
@[simp] theorem shared_delete (e : External) (key : Key) : (e.delete key).shared = e.shared := by
  unfold delete
  split <;> rfl

/-- A deleted key is listed once, however often it is deleted. -/
theorem deleted_delete (e : External) (key : Key) :
    (e.delete key).deleted = if key ∈ e.deleted then e.deleted else e.deleted ++ [key] := by
  unfold delete
  split <;> rfl

/-- A deletion adds one key to those deleted before. -/
theorem mem_deleted_delete {e : External} {key k : Key} :
    k ∈ (e.delete key).deleted ↔ k ∈ e.deleted ∨ k = key := by
  rw [deleted_delete]
  split
  · grind
  · rw [List.mem_append, List.mem_singleton]

/-- Where a lookup ends. -/
inductive Found where
  /-- An own property. -/
  | own (p : Property)
  /-- A shared template. -/
  | template (t : Template)
  /-- The catch-all answers for the key. -/
  | dynamic (f : HostFunction)
  /-- Nothing answers for the key. -/
  | absent

/-- Looks a key up: first in the own table, then among the templates; a catch-all answers for what was
never bound, but not for what was deleted. -/
def search (properties : OrderedMap Key Property) (e : External) (key : Key) : Found :=
  match properties.find? key with
  | some p => .own p
  | none =>
    if key ∈ e.deleted then .absent
    else
      match e.view.templates.find? key with
      | some t => .template t
      | none =>
        match e.view.hooks.catchAll with
        | some f => .dynamic f
        | none => .absent

section

variable {properties : OrderedMap Key Property} {e : External} {key : Key}

/-- An own property is found first. -/
theorem search_own (e : External) {p : Property} (h : properties.find? key = some p) :
    search properties e key = .own p := by
  rw [search, h]

/-- A deleted template is not found. -/
theorem search_deleted (h : properties.find? key = none) (hd : key ∈ e.deleted) :
    search properties e key = .absent := by
  rw [search, h]
  exact if_pos hd

/-- A template is found where there is no own property, and the key is not deleted. -/
theorem search_template {t : Template} (h : properties.find? key = none) (hd : key ∉ e.deleted)
    (ht : e.view.templates.find? key = some t) : search properties e key = .template t := by
  rw [search, h]
  dsimp only
  rw [if_neg hd, ht]

/-- An own property that is found is in the table. -/
theorem search_eq_own {p : Property} (h : search properties e key = .own p) :
    properties.find? key = some p := by
  unfold search at h
  split at h
  · cases h
    assumption
  · split at h
    · cases h
    · split at h
      · cases h
      · split at h <;> cases h

/-- A template that is found is in the slot, not deleted, and not behind an own property. -/
theorem search_eq_template {t : Template} (h : search properties e key = .template t) :
    properties.find? key = none ∧ key ∉ e.deleted ∧ e.view.templates.find? key = some t := by
  unfold search at h
  split at h
  · cases h
  · split at h
    · cases h
    · split at h
      · cases h
        exact ⟨by assumption, by assumption, by assumption⟩
      · split at h <;> cases h

/-- A catch-all is found only for keys without property and template. -/
theorem search_eq_dynamic {f : HostFunction} (h : search properties e key = .dynamic f) :
    properties.find? key = none ∧ e.view.templates.find? key = none := by
  unfold search at h
  split at h
  · cases h
  · split at h
    · cases h
    · split at h
      · cases h
      · exact ⟨by assumption, by assumption⟩

/-- Nothing is found for keys that are deleted or unknown. -/
theorem search_eq_absent (h : search properties e key = .absent) :
    properties.find? key = none ∧ (key ∈ e.deleted ∨ e.view.templates.find? key = none) := by
  unfold search at h
  split at h
  · cases h
  · split at h
    · exact ⟨by assumption, .inl (by assumption)⟩
    · split at h
      · cases h
      · exact ⟨by assumption, .inr (by assumption)⟩

end

/-- The keys bound by the slot or the own table: those of templates that are not deleted, or that came back
as own properties, in the order of the definition, then the other own keys. -/
def boundKeys (properties : OrderedMap Key Property) (e : External) : List Key :=
  Key.union (e.view.templates.keys.filter fun k => decide (k ∉ e.deleted) || properties.contains k)
    properties.keys

end External

end HostBinding
