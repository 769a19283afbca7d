import HostBinding.Build
import Mathlib.Tactic.Lemma

/-!
# Worlds that grow

What a build leaves in the world, whether it succeeds or not: the objects that there were, as they were, and
functions behind them. A build only charges, makes functions and numbers a prototype, so what holds of these three
steps, and of steps in a row, holds of every build.

* `Composes`: a relation of worlds that holds for parts in a row if it holds for each of them.
* `Action.Obeys`: an action leads to related worlds, whether it succeeds or not.
* `Build.Admits`, `Build.Admits.obeys_build`: a relation that all steps of a build obey is one that builds obey.
* `World.Enlarges`, `Build.enlarges_build`: no object changes, and new ones are plain. Builds do so.
-/

namespace HostBinding

variable {α β : Type} {w v w' : World}

/-! ## Actions that obey a relation -/

/-- A relation of worlds that holds for parts in a row if it holds for each of them. -/
structure Composes (R : World → World → Prop) : Prop where
  refl : ∀ w, R w w
  trans : ∀ {u v w}, R u v → R v w → R u w

/-- An action leads from each world to a related one, whether it succeeds or not. -/
def Action.Obeys (R : World → World → Prop) (a : Action α) : Prop := ∀ w, R w (a.runIn w).2

namespace Composes

variable {R : World → World → Prop} (hR : Composes R)

include hR

/-- A result costs nothing. -/
lemma obeys_pure (x : α) : (pure x : Action α).Obeys R := hR.refl

/-- A failure leaves the world as it is. -/
lemma obeys_throw (f : Fault) : (throw f : Action α).Obeys R := hR.refl

/-- A composed action obeys what both of its parts obey. -/
lemma obeys_bind {a : Action α} {f : α → Action β} (h : a.Obeys R) (hf : ∀ x, (f x).Obeys R) :
    (a >>= f).Obeys R := by
  intro w
  have ha := h w
  rw [Action.runIn_bind]
  rcases hrun : a.runIn w with ⟨_ | x, v⟩
  · rw [hrun] at ha
    exact ha
  · rw [hrun] at ha
    exact hR.trans ha (hf x v)

end Composes

/-! ## Builds -/

namespace Build

open Definition HostBinding.Action

/-- A relation that holds across each step of a build: a charge, a new function, and the number of a prototype. -/
structure Admits (R : World → World → Prop) : Prop extends Composes R where
  spend : ∀ {w n}, w.budget.allows n = true → R w (w.spend n)
  function : ∀ w f, R w (w.allocate { kind := .function f }).2
  prototype : ∀ w, R w { w with prototypes := w.prototypes + 1 }

namespace Admits

variable {R : World → World → Prop} (hR : Admits R)

include hR

/-- A charge is made or refused. -/
lemma obeys_charge (n : Nat) : (charge n).Obeys R := by
  intro w
  rw [runIn_charge]
  split
  · rename_i hb
    exact hR.spend hb
  · exact hR.refl w

/-- The content of a leaf takes a charge and a function at most. -/
lemma obeys_leaf (key : Key) (c : Leaf) : (leaf key c).Obeys R := by
  cases c with
  | method f magic =>
    exact hR.obeys_bind (hR.obeys_charge _) fun _ =>
      hR.obeys_bind (fun w => hR.function w _) fun _ => hR.obeys_pure _
  | literal text => exact hR.obeys_bind (hR.obeys_charge _) fun _ => hR.obeys_pure _
  | dynamic f magic => exact hR.obeys_pure _

/-- An entry is refused or charged. -/
lemma obeys_enter (index : Nat) (l : Level) (key : Key) : (enter index l key).Obeys R := by
  unfold enter
  cases l.templates.contains key with
  | true => exact hR.obeys_bind (hR.obeys_throw _) fun _ => hR.obeys_charge _
  | false => exact hR.obeys_charge _

mutual

/-- An entry takes the steps of its leaf, or of the table nested in it. -/
lemma obeys_entry (index : Nat) (l : Level) (e : Entry) : (entry index l e).Obeys R := by
  cases e with
  | leaf key a c =>
    rw [entry]
    exact hR.obeys_bind (hR.obeys_enter index l key) fun _ =>
      hR.obeys_bind (hR.obeys_leaf key c) fun _ => hR.obeys_pure _
  | nested key a h es =>
    rw [entry]
    exact hR.obeys_bind (hR.obeys_enter index l key) fun _ =>
      hR.obeys_bind (obeys_level _ _ es) fun _ => hR.obeys_pure _

/-- A table takes the steps of its entries. -/
lemma obeys_level (index : Nat) (l : Level) (es : List Entry) : (level index l es).Obeys R := by
  cases es with
  | nil =>
    rw [level]
    exact hR.obeys_pure l
  | cons e es =>
    rw [level]
    exact hR.obeys_bind (obeys_entry index l e) fun l' => obeys_level index l' es

end

/-- A build obeys what its steps obey. -/
theorem obeys_build (d : Definition) (root : Attributes) : (d.build root).Obeys R := by
  apply hR.obeys_bind (hR.obeys_charge _)
  intro _
  apply hR.obeys_bind (hR.obeys_level 0 {} d.entries)
  intro l
  unfold finish
  split
  · exact hR.obeys_bind (hR.obeys_throw _) fun _ => hR.prototype
  · exact hR.prototype

end Admits

end Build

/-! ## Plain objects -/

/-- An object without a parent that is no wrapper and has no properties. -/
structure Object.Plain (x : Object) : Prop where
  external : x.external? = none
  parent : x.parent = none
  properties : x.properties = ∅

/-- The objects that there were are what they were, and new ones are plain. -/
structure World.Enlarges (w w' : World) : Prop where
  size : w.objects.size ≤ w'.objects.size
  objects : ∀ o, o.index < w.objects.size → w'.object o = w.object o
  plain : ∀ o, ¬ o.index < w.objects.size → (w'.object o).Plain

/-- An empty ordinary object is plain. -/
lemma Object.plain_default : (default : Object).Plain := ⟨rfl, rfl, rfl⟩

namespace World

/-- An object that was never made reads as a plain one. -/
lemma plain_of_not_lt {o : ObjectId} (ho : ¬ o.index < w.objects.size) : (w.object o).Plain := by
  rw [object_of_not_lt ho]
  exact Object.plain_default

namespace Enlarges

/-- Whatever happens beside the objects enlarges a world. -/
lemma of_objects (h : w'.objects = w.objects) : w.Enlarges w' := by
  have hobject (o : ObjectId) : w'.object o = w.object o := by rw [World.object, World.object, h]
  refine ⟨Nat.le_of_eq (congrArg Array.size h).symm, fun o _ => hobject o, fun o ho => ?_⟩
  rw [hobject o]
  exact plain_of_not_lt ho

/-- A world enlarges itself. -/
lemma refl (w : World) : w.Enlarges w := of_objects rfl

/-- What is plain in a world stays as it is in a larger one, and so is plain there. -/
lemma trans (h : w.Enlarges v) (h' : v.Enlarges w') : w.Enlarges w' := by
  refine ⟨Nat.le_trans h.size h'.size, fun o ho => ?_, fun o ho => ?_⟩
  · rw [h'.objects o (Nat.lt_of_lt_of_le ho h.size), h.objects o ho]
  · by_cases hv : o.index < v.objects.size
    · rw [h'.objects o hv]
      exact h.plain o ho
    · exact h'.plain o hv

/-- A new plain object enlarges a world. -/
lemma allocate {x : Object} (hx : x.Plain) : w.Enlarges (w.allocate x).2 := by
  refine ⟨?_, fun o ho => object_allocate_of_lt x ho, fun o ho => ?_⟩
  · rw [size_allocate]
    exact Nat.le_succ _
  · rcases object_allocate_of_not_lt x ho with h | h
    · rw [h]
      exact hx
    · rw [h]
      exact Object.plain_default

/-- A function is plain, and the other steps of a build make no objects. -/
lemma admits : Build.Admits World.Enlarges where
  refl := .refl
  trans := .trans
  spend _ := .of_objects rfl
  function _ _ := .allocate ⟨rfl, rfl, rfl⟩
  prototype _ := .of_objects rfl

end Enlarges

end World

/-- A build makes functions at most, whether it succeeds or not. -/
theorem Build.enlarges_build (d : Definition) (root : Attributes) : (d.build root).Obeys World.Enlarges :=
  World.Enlarges.admits.obeys_build d root

end HostBinding
