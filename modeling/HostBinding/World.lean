import HostBinding.Budget
import HostBinding.Globals

/-!
# The world

All that outlives an operation: the budget, the globals, and the objects, which are known by number.

* `World.object_update`: what a changed object reads as, and that the others stay.
* `World.object_allocate`: a new object takes a number that no object had.
* `World.lineage`: an object, its parent, and so on.
-/

namespace HostBinding

/-- The state of the engine. -/
structure World where
  budget : Budget := {}
  globals : Globals := {}
  objects : Array Object := #[]
  /-- How many prototypes have been numbered. -/
  prototypes : Nat := 0
  /-- How many symbols have been numbered. -/
  symbols : Nat := 0

namespace World

instance : Inhabited World := ⟨{}⟩

/-- An object. A number that was never given out reads as an empty ordinary object. -/
def object (w : World) (o : ObjectId) : Object := w.objects.getD o.index default

/-- The world in which `o` is another object. -/
def update (w : World) (o : ObjectId) (x : Object) : World :=
  { w with objects := w.objects.setIfInBounds o.index x }

/-- The world with one more object, and its number. -/
def allocate (w : World) (x : Object) : ObjectId × World :=
  (⟨w.objects.size⟩, { w with objects := w.objects.push x })

/-- The world in which some bytes more are charged. -/
def spend (w : World) (bytes : Nat) : World :=
  { w with budget := { w.budget with used := w.budget.used + bytes } }

/-- The world with one more symbol. -/
def newSymbol (w : World) (description : String) : Symbol × World :=
  (.fresh w.symbols description, { w with symbols := w.symbols + 1 })

/-- The world with a fresh evaluation context: a budget of its own and no globals. -/
def renew (w : World) (limit : Option UInt64) : World :=
  { w with budget := { limit := limit }, globals := { number := w.globals.number + 1 } }

/-- The host data behind a value. -/
def host? (w : World) (v : Value) : Option HostAddress := do
  let o ← v.toObject?
  let e ← (w.object o).external?
  return e.host

/-- The text of a value. -/
def text (w : World) (v : Value) : String := v.text fun o => (w.object o).text

/-- The type of a value, as scripts name it. -/
def typeName (w : World) : Value → String
  | .undefined => "undefined"
  | .null => "null"
  | .boolean _ => "boolean"
  | .string _ => "string"
  | .symbol _ => "symbol"
  | .number _ => "number"
  | .object o => if (w.object o).function?.isSome then "function" else "object"

/-- The first `n` objects on the way from `o` to its ancestors. -/
def ancestors (w : World) : Nat → ObjectId → List ObjectId
  | 0, _ => []
  | n + 1, o =>
    o :: match (w.object o).parent with
      | some p => w.ancestors n p
      | none => []

/-- An object and its ancestors, nearest first. Without a cycle there are no more of them than objects. -/
def lineage (w : World) (o : ObjectId) : List ObjectId := w.ancestors (w.objects.size + 1) o

/-- A charge changes no object. -/
@[simp] theorem object_spend (w : World) (n : Nat) (o : ObjectId) : (w.spend n).object o = w.object o :=
  rfl

/-- Charges may be made in any order. -/
theorem spend_comm (w : World) (m n : Nat) : (w.spend m).spend n = (w.spend n).spend m := by
  simp only [spend, Nat.add_right_comm]

/-- Changing an object adds none. -/
@[simp] theorem size_update (w : World) (o : ObjectId) (x : Object) :
    (w.update o x).objects.size = w.objects.size :=
  Array.size_setIfInBounds

/-- One object more has been made. -/
@[simp] theorem size_allocate (w : World) (x : Object) :
    (w.allocate x).2.objects.size = w.objects.size + 1 :=
  Array.size_push x

/-- A number that was never given out reads as an empty ordinary object. -/
theorem object_of_not_lt {w : World} {o : ObjectId} (h : ¬ o.index < w.objects.size) :
    w.object o = default := by
  rw [object, Array.getD_eq_getD_getElem?, Array.getElem?_eq_none (Nat.not_lt.1 h)]
  rfl

/-- An object of another kind than the default was made at some time. -/
theorem index_lt_of_kind {w : World} {o : ObjectId} (h : (w.object o).kind ≠ .ordinary) :
    o.index < w.objects.size := by
  by_cases hi : o.index < w.objects.size
  · exact hi
  · rw [object_of_not_lt hi] at h
    exact absurd rfl h

/-- A wrapper was made at some time. -/
theorem index_lt_of_external {w : World} {o : ObjectId} {e : External}
    (h : (w.object o).external? = some e) : o.index < w.objects.size := by
  apply index_lt_of_kind
  intro hk
  rw [Object.external?, hk] at h
  cases h

/-- The host data behind an object is that of its wrapper part. -/
theorem host?_object_eq_map (w : World) (o : ObjectId) :
    w.host? (.object o) = (w.object o).external?.map (·.host) := by
  show (do let e ← (w.object o).external?; return e.host) = _
  cases (w.object o).external? <;> rfl

/-- The host data behind a wrapper. -/
theorem host?_object {w : World} {o : ObjectId} {e : External}
    (h : (w.object o).external? = some e) : w.host? (.object o) = some e.host := by
  rw [host?_object_eq_map, h]
  rfl

/-- There is no host data behind an object that is no wrapper. -/
theorem host?_of_plain {w : World} {o : ObjectId} (h : (w.object o).external? = none) :
    w.host? (.object o) = none := by
  rw [host?_object_eq_map, h]
  rfl

/-- A charge that is given back was none. -/
theorem refund_spend (w : World) (n : Nat) :
    { w.spend n with budget := (w.spend n).budget.refund n } = w := by
  simp only [spend, Budget.refund, Nat.add_sub_cancel]

/-- A new object takes the next number. -/
@[simp] theorem allocate_fst (w : World) (x : Object) : (w.allocate x).1 = ⟨w.objects.size⟩ := rfl

/-- After a charge, another one is allowed where both together were. -/
theorem allows_spend (w : World) (m n : Nat) :
    (w.spend m).budget.allows n = w.budget.allows (m + n) :=
  w.budget.allows_add m n

/-- A changed object reads as what it was changed to, and the others stay. -/
theorem object_update (w : World) (o o' : ObjectId) (x : Object) (h : o.index < w.objects.size) :
    (w.update o x).object o' = if o = o' then x else w.object o' := by
  obtain ⟨i⟩ := o
  obtain ⟨j⟩ := o'
  by_cases e : i = j
  · subst e
    simp [object, update, Array.getD_eq_getD_getElem?, h]
  · simp [object, update, Array.getD_eq_getD_getElem?, e]

/-- A new object reads as what it was made as, and the others stay. -/
theorem object_allocate (w : World) (o : ObjectId) (x : Object) (h : o.index ≤ w.objects.size) :
    (w.allocate x).2.object o = if o = (w.allocate x).1 then x else w.object o := by
  obtain ⟨i⟩ := o
  by_cases e : i = w.objects.size
  · subst e
    simp [object, allocate, Array.getD_eq_getD_getElem?]
  · have hi : i < w.objects.size := Nat.lt_of_le_of_ne h e
    simp [object, allocate, Array.getD_eq_getD_getElem?, Array.getElem?_push, e]

/-- A new object leaves those that there were. -/
theorem object_allocate_of_lt {w : World} {o : ObjectId} (x : Object) (h : o.index < w.objects.size) :
    (w.allocate x).2.object o = w.object o := by
  have hne : o ≠ ⟨w.objects.size⟩ := by
    rintro rfl
    exact Nat.lt_irrefl _ h
  rw [object_allocate w o x (Nat.le_of_lt h), allocate_fst, if_neg hne]

/-- Beyond the objects that there were, there is the new one, and no other. -/
theorem object_allocate_of_not_lt {w : World} {o : ObjectId} (x : Object) (h : ¬ o.index < w.objects.size) :
    (w.allocate x).2.object o = x ∨ (w.allocate x).2.object o = default := by
  by_cases e : o.index = w.objects.size
  · left
    rw [object_allocate w o x (Nat.le_of_eq e), allocate_fst, if_pos]
    rw [← e]
  · right
    apply object_of_not_lt
    rw [size_allocate]
    omega

/-- An object that there is not cannot be changed. -/
theorem update_of_not_lt {w : World} {o : ObjectId} (x : Object) (h : ¬ o.index < w.objects.size) :
    w.update o x = w := by
  rw [update, Array.setIfInBounds, dif_neg h]

/-- A change of one object leaves the others. -/
theorem object_update_of_ne {w : World} {o o' : ObjectId} (x : Object) (h : o' ≠ o) :
    (w.update o x).object o' = w.object o' := by
  by_cases ho : o.index < w.objects.size
  · rw [object_update w o o' x ho, if_neg fun e => h e.symm]
  · rw [update_of_not_lt x ho]

end World

end HostBinding
