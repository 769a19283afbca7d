import HostBinding.World

/-!
# Actions

Computations on the world that do not involve the host. They may fail; what they did to the world before
they failed stays.

* `Action.charge`, `Action.refund`: changes of the budget.
* `Action.allocate`, `Action.update`, `Action.commit`: changes of the objects.
* `Action.runIn_bind`, and one lemma `runIn_...` for each of these: how an action runs in a world.
-/

namespace HostBinding

/-- A computation on the world without calls to the host. -/
abbrev Action := ExceptT Fault (StateM World)

namespace Action

variable {α : Type}

/-- The outcome of an action in a world, and the world it leaves. -/
def runIn (a : Action α) (w : World) : Except Fault α × World := a w

/-- Charges some bytes. -/
def charge (bytes : Nat) : Action Unit := do
  match (← get).budget.charge bytes with
  | some b => modify fun w => { w with budget := b }
  | none => throw .outOfMemory

/-- Charges `count` things of one size. -/
def chargeMany (size count : Nat) : Action Unit := do
  match (← get).budget.chargeMany size count with
  | some b => modify fun w => { w with budget := b }
  | none => throw .outOfMemory

/-- Gives bytes back. -/
def refund (bytes : Nat) : Action Unit :=
  modify fun w => { w with budget := w.budget.refund bytes }

/-- An object. -/
def object (o : ObjectId) : Action Object := return (← get).object o

/-- An object that must be a wrapper, and its wrapper part. -/
def external (o : ObjectId) : Action (Object × External) := do
  let x ← object o
  match x.external? with
  | some e => return (x, e)
  | none => throw (.breach .notExternal)

/-- Changes an object. -/
def update (o : ObjectId) (x : Object) : Action Unit := modify fun w => w.update o x

/-- Puts a change of an object into the world, and says whether there was one. -/
def commit (o : ObjectId) : Option Object → Action Bool
  | some x => do
    update o x
    return true
  | none => return false

/-- The value of a computation that may fail, or its fault. -/
def lift : Except Fault α → Action α
  | .ok a => return a
  | .error f => throw f

/-- Adds an object. -/
def allocate (x : Object) : Action ObjectId := modifyGet fun w => w.allocate x

/-- Makes a prototype of some slots. -/
def newPrototype (slots : Array Slot) : Action Prototype :=
  modifyGet fun w => (⟨w.prototypes, slots⟩, { w with prototypes := w.prototypes + 1 })

variable {β : Type}

/-- A result leaves the world as it is. -/
@[simp] theorem runIn_pure (a : α) (w : World) : (pure a : Action α).runIn w = (.ok a, w) := rfl

/-- A failure leaves the world as it is. -/
@[simp] theorem runIn_throw (f : Fault) (w : World) :
    (throw f : Action α).runIn w = (.error f, w) := rfl

/-- An action may see the whole world. -/
@[simp] theorem runIn_get (w : World) : (get : Action World).runIn w = (.ok w, w) := rfl

/-- A change of the world always succeeds. -/
@[simp] theorem runIn_modify (f : World → World) (w : World) :
    (modify f : Action Unit).runIn w = (.ok (), f w) := rfl

/-- Looking at an object changes nothing. -/
@[simp] theorem runIn_object (o : ObjectId) (w : World) :
    (object o).runIn w = (.ok (w.object o), w) := rfl

/-- Giving bytes back always succeeds. -/
@[simp] theorem runIn_refund (n : Nat) (w : World) :
    (refund n).runIn w = (.ok (), { w with budget := w.budget.refund n }) := rfl

/-- Changing an object always succeeds, even if there is none of that number. -/
@[simp] theorem runIn_update (o : ObjectId) (x : Object) (w : World) :
    (update o x).runIn w = (.ok (), w.update o x) := rfl

/-- A new object is not charged here; whoever makes it charges for it. -/
@[simp] theorem runIn_allocate (x : Object) (w : World) :
    (allocate x).runIn w = (.ok (w.allocate x).1, (w.allocate x).2) := rfl

/-- A prototype gets the next number. -/
@[simp] theorem runIn_newPrototype (slots : Array Slot) (w : World) :
    (newPrototype slots).runIn w =
      (.ok ⟨w.prototypes, slots⟩, { w with prototypes := w.prototypes + 1 }) := rfl

/-- A computation that may fail does not touch the world. -/
@[simp] theorem runIn_lift (r : Except Fault α) (w : World) : (lift r).runIn w = (r, w) := by
  cases r <;> rfl

/-- An action goes on in the world that its first part leaves, unless that part fails. -/
theorem runIn_bind (a : Action α) (f : α → Action β) (w : World) :
    (a >>= f).runIn w = match a.runIn w with
      | (.ok x, w') => (f x).runIn w'
      | (.error e, w') => (.error e, w') := by
  show (StateT.bind a (ExceptT.bindCont f)) w = _
  unfold runIn StateT.bind
  rcases a w with ⟨_ | x, w'⟩ <;> rfl

/-- A composed action succeeds when both of its parts do. -/
theorem runIn_bind_eq_ok {a : Action α} {f : α → Action β} {w w' : World} {y : β} :
    (a >>= f).runIn w = (.ok y, w') ↔
      ∃ x v, a.runIn w = (.ok x, v) ∧ (f x).runIn v = (.ok y, w') := by
  rw [runIn_bind]
  constructor
  · intro h
    split at h
    · rename_i x v ha
      exact ⟨x, v, ha, h⟩
    · cases h
  · rintro ⟨x, v, ha, h⟩
    rw [ha]
    exact h

/-- A composed action fails when one of its parts does. -/
theorem runIn_bind_eq_error {a : Action α} {f : α → Action β} {w w' : World} {e : Fault} :
    (a >>= f).runIn w = (.error e, w') ↔
      a.runIn w = (.error e, w') ∨ ∃ x v, a.runIn w = (.ok x, v) ∧ (f x).runIn v = (.error e, w') := by
  rw [runIn_bind]
  constructor
  · intro h
    split at h
    · rename_i x v ha
      exact .inr ⟨x, v, ha, h⟩
    · rename_i e' v ha
      cases h
      exact .inl ha
  · rintro (ha | ⟨x, v, ha, h⟩)
    · rw [ha]
    · rw [ha]
      exact h

/-- What was done to the world before a failure is still done when the failure is handled. -/
theorem runIn_tryCatch (a : Action α) (f : Fault → Action α) (w : World) :
    (tryCatch a f).runIn w = match a.runIn w with
      | (.ok x, w') => (.ok x, w')
      | (.error e, w') => (f e).runIn w' := by
  show (ExceptT.tryCatch a f : ExceptT Fault (StateM World) α) w = _
  unfold ExceptT.tryCatch ExceptT.mk
  show (StateT.bind a _ : StateM World _) w = _
  unfold runIn StateT.bind
  rcases a w with ⟨_ | x, w'⟩ <;> rfl

/-- A charge is made where it is allowed, and else nothing happens. -/
theorem runIn_charge (n : Nat) (w : World) :
    (charge n).runIn w =
      if w.budget.allows n then (.ok (), w.spend n) else (.error .outOfMemory, w) := by
  rw [charge, runIn_bind, runIn_get]
  dsimp only
  by_cases h : w.budget.allows n = true
  · rw [Budget.charge, if_pos h, if_pos h]
    rfl
  · rw [Budget.charge, if_neg h, if_neg h]
    rfl

/-- An action that begins with a charge goes on where the charge is allowed. -/
theorem runIn_charge_bind (n : Nat) (f : Unit → Action α) (w : World) :
    (charge n >>= f).runIn w =
      if w.budget.allows n then (f ()).runIn (w.spend n) else (.error .outOfMemory, w) := by
  rw [runIn_bind, runIn_charge]
  by_cases h : w.budget.allows n = true
  · rw [if_pos h, if_pos h]
  · rw [if_neg h, if_neg h]

/-- Things of one size are charged as one, up to the largest word. -/
theorem chargeMany_eq (size count : Nat) :
    chargeMany size count = charge (min (size * count) maxWord) :=
  rfl

/-- An object that is no wrapper breaks a rule of the engine where a wrapper is needed. -/
theorem runIn_external (o : ObjectId) (w : World) :
    (external o).runIn w = match (w.object o).external? with
      | some e => (.ok (w.object o, e), w)
      | none => (.error (.breach .notExternal), w) := by
  rw [external, runIn_bind, runIn_object]
  dsimp only
  cases (w.object o).external? <;> rfl

/-- A change of an object is made if there is one, and that is what is said. -/
theorem runIn_commit (o : ObjectId) (x : Option Object) (w : World) :
    (commit o x).runIn w = match x with
      | some x => (.ok true, w.update o x)
      | none => (.ok false, w) := by
  cases x <;> rfl

/-- A change of an object adds no object. -/
theorem size_commit (o : ObjectId) (x : Option Object) (w : World) :
    ((commit o x).runIn w).2.objects.size = w.objects.size := by
  cases x with
  | some x => exact World.size_update w o x
  | none => rfl

end Action

end HostBinding
