import HostBinding.Access
import Mathlib.Tactic.Lemma

/-!
# Operations on wrappers, case by case

What the parts of the operations on wrappers do to the world, each as one equation. A charge that was given
back leaves no trace.

* `External.runIn_create`, `External.runIn_wrap`, `External.runIn_materializeNested`,
  `External.runIn_keepComputed`: making wrappers and keeping values.
* `External.runIn_overwrite`, `External.runIn_defineNew`, `External.runIn_erase`: writing and deleting.
-/

namespace HostBinding

variable {w : World} {o : ObjectId} {key : Key} {e : External} {v : Value} {attributes : Attributes}

/-- Bytes that are spent in turn add up. -/
lemma World.spend_spend (w : World) (m n : Nat) : (w.spend m).spend n = w.spend (m + n) := by
  simp only [World.spend, Nat.add_assoc]

namespace External

/-- A wrapper is charged and made. -/
lemma runIn_create (e : External) (w : World) :
    (create e).runIn w =
      if w.budget.allows Cost.external then
        (.ok ⟨w.objects.size⟩, ((w.spend Cost.external).allocate { kind := .external e }).2)
      else (.error .outOfMemory, w) := by
  rw [create, Action.runIn_charge_bind]
  rfl

/-- Host data are wrapped by a new wrapper, which is charged. Nothing happens for want of a prototype or of
room. -/
lemma runIn_wrap (p : Option Prototype) (host : HostAddress) (shared : Bool) (w : World) :
    (∃ f, (f = .invalidPrototype ∨ f = .outOfMemory) ∧ (wrap p host shared).runIn w = (.error f, w)) ∨
      ∃ (q : Prototype) (hq : 0 < q.slots.size), p = some q ∧
        (wrap p host shared).runIn w = (.ok (.object ⟨w.objects.size⟩),
          ((w.spend Cost.external).allocate
            { kind := .external { prototype := q, slot := 0, host := host, shared := shared,
                                  slot_lt := hq } }).2) := by
  cases p with
  | none => exact .inl ⟨_, .inl rfl, rfl⟩
  | some q =>
    rw [wrap]
    by_cases hq : 0 < q.slots.size
    · rw [dif_pos hq, Action.runIn_bind, runIn_create]
      by_cases hb : w.budget.allows Cost.external = true
      · rw [if_pos hb]
        exact .inr ⟨q, hq, rfl, rfl⟩
      · rw [if_neg hb]
        exact .inl ⟨_, .inr rfl, rfl⟩
    · rw [dif_neg hq]
      exact .inl ⟨_, .inl rfl, rfl⟩

/-- A value is kept where there is no property yet. Where there is one, it stays, and the charge is given
back. -/
lemma runIn_keep (hx : (w.object o).external? = some e) (p : Property) (n : Nat) :
    (keep o key p n).runIn (w.spend n) =
      match (w.object o).properties.find? key with
      | some kept => (.ok kept.value, w)
      | none => (.ok p.value, (w.spend n).update o ((w.object o).put key p)) := by
  rw [keep, Action.runIn_bind, Action.runIn_object]
  dsimp only
  rw [World.object_spend, hx]
  cases (w.object o).properties.find? key with
  | some kept =>
    dsimp only
    rw [Action.runIn_bind, Action.runIn_refund, World.refund_spend]
    rfl
  | none => rfl

/-- A computed value is charged and kept, unless there is a property by now. -/
lemma runIn_keepComputed (hx : (w.object o).external? = some e) :
    (keepComputed o key v attributes).runIn w =
      if w.budget.allows Cost.property then
        match (w.object o).properties.find? key with
        | some kept => (.ok kept.value, w)
        | none => (.ok v, (w.spend Cost.property).update o ((w.object o).put key ⟨v, attributes⟩))
      else (.error .outOfMemory, w) := by
  rw [keepComputed, Action.runIn_charge_bind, runIn_keep hx]

/-- Nothing is charged for a nested namespace that cannot be found. -/
lemma runIn_materializeNested_of_error {offset : Nat} {host : HostAddress} {f : Fault}
    (hx : (w.object o).external? = some e) (hc : e.prototype.child e.slot offset = .error f) :
    (materializeNested o key offset host).runIn w = (.error f, w) := by
  rw [materializeNested, Action.runIn_bind, Action.runIn_external, hx]
  dsimp only
  rw [Action.runIn_bind, Action.runIn_lift, hc]

/-- The object of a nested namespace is charged and made before it is kept. -/
lemma runIn_materializeNested_keep {offset : Nat} {host : HostAddress}
    {child : { i : Nat // i < e.prototype.slots.size }} (hx : (w.object o).external? = some e)
    (hc : e.prototype.child e.slot offset = .ok child) :
    (materializeNested o key offset host).runIn w =
      if w.budget.allows (Cost.property + Cost.external) then
        (keep o key ⟨.object ⟨w.objects.size⟩, (e.prototype.slot child.1 child.2).attributes⟩
          (Cost.property + Cost.external)).runIn ((w.allocate
            { kind := .external { prototype := e.prototype, slot := child.1, host := host,
                                  shared := e.shared, slot_lt := child.2 } }).2.spend
              (Cost.property + Cost.external))
      else (.error .outOfMemory, w) := by
  rw [materializeNested, Action.runIn_bind, Action.runIn_external, hx]
  dsimp only
  rw [Action.runIn_bind, Action.runIn_lift, hc]
  dsimp only
  rw [Action.runIn_bind, Action.runIn_charge]
  by_cases hp : w.budget.allows Cost.property = true
  · rw [if_pos hp]
    dsimp only
    rw [Action.runIn_bind, Action.runIn_tryCatch, runIn_create, World.allows_spend, World.spend_spend]
    by_cases hb : w.budget.allows (Cost.property + Cost.external) = true
    · rw [if_pos hb, if_pos hb]
      rfl
    -- The charge for the property is given back when the wrapper cannot be charged.
    · rw [if_neg hb, if_neg hb]
      dsimp only
      rw [Action.runIn_bind, Action.runIn_refund, World.refund_spend]
      rfl
  · rw [if_neg hp, if_neg fun hb => hp (Budget.allows_mono (Nat.le_add_right _ _) hb)]

/-- The object of a nested namespace is charged, made and kept where there is no property yet. -/
lemma runIn_materializeNested {offset : Nat} {host : HostAddress}
    {child : { i : Nat // i < e.prototype.slots.size }} (hx : (w.object o).external? = some e)
    (hk : (w.object o).properties.find? key = none)
    (hc : e.prototype.child e.slot offset = .ok child) :
    (materializeNested o key offset host).runIn w =
      if w.budget.allows (Cost.property + Cost.external) then
        (.ok (.object ⟨w.objects.size⟩), (((w.spend Cost.property).spend Cost.external).allocate
          { kind := .external { prototype := e.prototype, slot := child.1, host := host,
                                shared := e.shared, slot_lt := child.2 } }).2.update o
            ((w.object o).put key
              ⟨.object ⟨w.objects.size⟩, (e.prototype.slot child.1 child.2).attributes⟩))
      else (.error .outOfMemory, w) := by
  have hobject (y : Object) : (w.allocate y).2.object o = w.object o :=
    World.object_allocate_of_lt y (World.index_lt_of_external hx)
  rw [runIn_materializeNested_keep hx hc, runIn_keep (by rwa [hobject]), hobject, hk, World.spend_spend]
  rfl

/-- Where there is a property, a namespace is opened for nothing: the charge is given back, and nobody gets to
know the wrapper. -/
lemma runIn_materializeNested_of_property {offset : Nat} {host : HostAddress} {p : Property}
    {child : { i : Nat // i < e.prototype.slots.size }} (hx : (w.object o).external? = some e)
    (hk : (w.object o).properties.find? key = some p)
    (hc : e.prototype.child e.slot offset = .ok child) :
    (materializeNested o key offset host).runIn w =
      if w.budget.allows (Cost.property + Cost.external) then
        (.ok p.value, (w.allocate
          { kind := .external { prototype := e.prototype, slot := child.1, host := host,
                                shared := e.shared, slot_lt := child.2 } }).2)
      else (.error .outOfMemory, w) := by
  have hobject (y : Object) : (w.allocate y).2.object o = w.object o :=
    World.object_allocate_of_lt y (World.index_lt_of_external hx)
  rw [runIn_materializeNested_keep hx hc, runIn_keep (by rwa [hobject]), hobject, hk]

/-- A template is covered by a property. -/
lemma runIn_overwrite (hx : (w.object o).external? = some e) :
    (overwrite o key attributes v).runIn w =
      if w.budget.allows Cost.property then
        (.ok true, (w.spend Cost.property).update o ((w.object o).put key ⟨v, attributes⟩))
      else (.error .outOfMemory, w) := by
  rw [overwrite, Action.runIn_charge_bind, Action.runIn_bind, Action.runIn_external, World.object_spend, hx]
  rfl

/-- A property is charged and defined. The charge stays if it is refused. -/
lemma runIn_defineNew (hx : (w.object o).external? = some e) :
    (defineNew o key v).runIn w =
      if w.budget.allows Cost.property then
        match (w.object o).define key (.ofValue v) with
        | some x => (.ok true, (w.spend Cost.property).update o x)
        | none => (.ok false, w.spend Cost.property)
      else (.error .outOfMemory, w) := by
  rw [defineNew, Action.runIn_charge_bind, Action.runIn_bind, Action.runIn_external, World.object_spend, hx]
  dsimp only
  cases (w.object o).define key (.ofValue v) with
  | some x => rfl
  | none => rfl

/-- A new own property makes no object. -/
lemma size_defineNew (hx : (w.object o).external? = some e) :
    ((defineNew o key v).runIn w).2.objects.size = w.objects.size := by
  rw [runIn_defineNew hx]
  split
  · split
    · exact World.size_update _ o _
    · rfl
  · rfl

/-- Whether a key may be deleted. -/
def Found.configurable : Found → Bool
  | .own p => p.attributes.configurable
  | .template t => t.attributes.configurable
  | .dynamic _ => true
  | .absent => true

/-- A wrapper after a key was deleted on it. -/
def without (x : Object) (e : External) (key : Key) : Object :=
  { x.withExternal (if e.view.templates.contains key then e.delete key else e) with
    properties := x.properties.erase key }

/-- A key is deleted where that is allowed. -/
lemma runIn_erase (hx : (w.object o).external? = some e) :
    (erase o key).runIn w =
      if (search (w.object o).properties e key).configurable then
        (.ok true, w.update o (without (w.object o) e key))
      else (.ok false, w) := by
  rw [erase, Action.runIn_bind, Action.runIn_external, hx]
  dsimp only
  cases search (w.object o).properties e key with
  | own p =>
    dsimp only [Found.configurable]
    by_cases hc : p.attributes.configurable = true <;> simp only [hc] <;> rfl
  | template t =>
    dsimp only [Found.configurable]
    by_cases hc : t.attributes.configurable = true <;> simp only [hc] <;> rfl
  | dynamic f => rfl
  | absent => rfl

end External

end HostBinding
