import HostBinding.Proofs.Contract
import HostBinding.Proofs.Layout

/-!
# The budget covers what there is

No run charges more than the limit, and all that a run has made and that is charged for is covered by what was
charged: the prototypes that were built, the wrappers, and the properties. A charge that is given back is
never one for something that stays.

* `World.held`: the bytes of the wrappers and the properties that there are.
* `World.Charges`: what a part of an operation does to the budget.
* `Change.charges`, `Guarantee.charges`, `Run.charges`: every change does, so every part does, so every run
  does.
* `Run.budget_covers`: the main result.
-/

namespace HostBinding

variable {T : ObjectId → Key → Prop} {U : Set Prototype} {w v w' : World} {o : ObjectId}

/-! ## What is held -/

/-- The bytes of an object that are charged: those of a wrapper, and those of its properties. -/
def Object.held (x : Object) : Nat :=
  (if x.external?.isSome then Cost.external else 0) + Cost.property * x.properties.size

/-- The bytes of all objects that are charged. -/
def World.held (w : World) : Nat := (w.objects.toList.map Object.held).sum

namespace Object

variable {x x' : Object}

/-- An object that is no wrapper and has no properties holds nothing. -/
lemma held_eq_zero (hx : x.external? = none) (hp : x.properties = ∅) : x.held = 0 := by
  rw [held, hx, hp]
  rfl

/-- What an object holds depends on its kind and its properties only. -/
lemma held_congr (hk : x.kind = x'.kind) (hp : x.properties = x'.properties) : x.held = x'.held := by
  rw [held, held, external?, external?, hk, hp]

/-- A revised object holds as much more as it has more properties. -/
lemma Revises.held_le {key : Key} {n : Nat} (h : Revises key x x')
    (hn : x'.properties.size ≤ x.properties.size + n) : x'.held ≤ x.held + Cost.property * n := by
  have hsome : x'.external?.isSome = x.external?.isSome := by
    cases hx : x.external? with
    | none => rw [h.plain hx]
    | some e =>
      obtain ⟨e', he', -⟩ := h.external e hx
      rw [he']
      rfl
  have hsize := Nat.mul_le_mul_left Cost.property hn
  rw [Nat.mul_add] at hsize
  rw [held, held, hsome]
  omega

end Object

namespace World

/-- The sum of a measure over all objects. -/
def total (f : Object → Nat) (w : World) : Nat := (w.objects.toList.map f).sum

/-- Putting an object in the place of another one changes a sum by the difference. -/
lemma sum_map_set {l : List Object} {i : Nat} (f : Object → Nat) (hi : i < l.length) (x : Object) :
    ((l.set i x).map f).sum + f l[i] = (l.map f).sum + f x := by
  have hl : l = l.take i ++ l[i] :: l.drop (i + 1) := by
    rw [List.getElem_cons_drop, List.take_append_drop]
  have hset : l.set i x = l.take i ++ x :: l.drop (i + 1) := by
    rw [List.set_eq_take_append_cons_drop, if_pos hi]
  have hsum (y : Object) : ((l.take i ++ y :: l.drop (i + 1)).map f).sum =
      ((l.take i).map f).sum + f y + ((l.drop (i + 1)).map f).sum := by
    rw [List.map_append, List.map_cons, List.sum_append, List.sum_cons, Nat.add_assoc]
  have hbefore := (congrArg (fun l => (l.map f).sum) hl).trans (hsum l[i])
  rw [hset, hbefore, hsum]
  omega

/-- A change of one object moves a sum by what it does to that object. -/
lemma total_update (f : Object → Nat) (ho : o.index < w.objects.size) (x : Object) :
    (w.update o x).total f + f (w.object o) = w.total f + f x := by
  have h := sum_map_set (l := w.objects.toList) (i := o.index) f ho x
  rw [total, total, update, Array.toList_setIfInBounds, object, Array.getD_eq_getD_getElem?,
    Array.getElem?_eq_getElem ho]
  exact h

/-- A new object adds its own share to a sum. -/
lemma total_allocate (f : Object → Nat) (w : World) (x : Object) :
    (w.allocate x).2.total f = w.total f + f x := by
  rw [total, total, allocate, Array.toList_push, List.map_append, List.sum_append]
  rfl

/-- A change of one object moves what is held by what it does to that object. -/
lemma held_update (ho : o.index < w.objects.size) (x : Object) :
    (w.update o x).held + (w.object o).held = w.held + x.held :=
  total_update Object.held ho x

/-- A new object adds what it holds. -/
lemma held_allocate (w : World) (x : Object) : (w.allocate x).2.held = w.held + x.held :=
  total_allocate Object.held w x

/-- What a build leaves behind adds nothing to what is held: functions are no wrappers and have no properties. -/
lemma held_grown (w : World) (n : Nat) (fs : List Function) : (w.grown n fs).held = w.held := by
  have hfs : ((fs.map fun f => ({ kind := .function f } : Object)).map Object.held).sum = 0 := by
    apply List.sum_eq_zero_iff_forall_eq_nat.2
    intro n hn
    rw [List.map_map, List.mem_map] at hn
    obtain ⟨f, -, rfl⟩ := hn
    exact Object.held_eq_zero rfl rfl
  rw [held, held, grown, Array.toList_append, List.map_append, List.sum_append, List.toList_toArray, hfs,
    Nat.add_zero]

/-- What happens to the budget: the limit stays, what was charged stays charged, no charge goes beyond the
limit, and what is held in addition is charged. -/
structure Charges (w w' : World) : Prop where
  limit : w'.budget.limit = w.budget.limit
  used : w.budget.used ≤ w'.budget.used
  within : ∀ b, w.budget.limit = some b → w.budget.used ≤ b.toNat → w'.budget.used ≤ b.toNat
  held : w'.held + w.budget.used ≤ w.held + w'.budget.used

namespace Charges

/-- Where nothing happens, nothing is charged. -/
lemma refl (w : World) : w.Charges w := ⟨rfl, Nat.le_refl _, fun _ _ h => h, Nat.le_refl _⟩

/-- The accounts of two stretches add up. -/
lemma trans (h : w.Charges v) (h' : v.Charges w') : w.Charges w' where
  limit := h'.limit.trans h.limit
  used := Nat.le_trans h.used h'.used
  within b hb hu := h'.within b (h.limit.trans hb) (h.within b hb hu)
  held := by
    have hheld := h.held
    have hheld' := h'.held
    omega

/-- Bytes that are charged within the limit. -/
lemma spend {n : Nat} (hn : w.budget.allows n = true) : w.Charges (w.spend n) where
  limit := rfl
  used := Nat.le_add_right _ _
  within b hb _ := by
    rw [Budget.allows, hb, decide_eq_true_eq] at hn
    exact hn
  held := by
    show w.held + w.budget.used ≤ w.held + (w.budget.used + n)
    omega

/-- Objects may change where no more is held than was charged for. -/
lemma objects {n : Nat} (hn : 0 < n → w.budget.allows n = true)
    (hbudget : w'.budget = (w.spend n).budget) (hheld : w'.held ≤ w.held + n) : w.Charges w' := by
  have hspend : w.Charges (w.spend n) := by
    rcases Nat.eq_zero_or_pos n with rfl | hpos
    · exact .refl w
    · exact .spend (hn hpos)
  refine ⟨?_, ?_, ?_, ?_⟩
  · rw [hbudget]
    exact hspend.limit
  · rw [hbudget]
    exact hspend.used
  · rw [hbudget]
    exact hspend.within
  · rw [hbudget]
    show w'.held + w.budget.used ≤ w.held + (w.budget.used + n)
    omega

end Charges

end World

/-! ## Changes and parts of operations -/

/-- All changes charge for what they add. -/
lemma Change.charges (h : Change T U w w') : w.Charges w' := by
  cases h with
  | spend n h => exact .spend h
  | globals g hg => exact ⟨rfl, Nat.le_refl _, fun _ _ h => h, Nat.le_refl _⟩
  | prototype => exact ⟨rfl, Nat.le_refl _, fun _ _ h => h, Nat.le_refl _⟩
  | make x hx hp =>
    have hheld := w.held_allocate x
    rw [Object.held_eq_zero hx hp] at hheld
    exact .objects (n := 0) nofun rfl hheld.le
  | wrap e hd hp h => exact .objects (fun _ => h) rfl ((w.spend Cost.external).held_allocate _).le
  | revise o key x n ht hx hn h =>
    refine .objects (n := Cost.property * n) (fun hpos => h ?_) rfl ?_
    · exact Nat.pos_of_mul_pos_left hpos
    · by_cases ho : o.index < w.objects.size
      · have hupdate := World.held_update (w := w.spend (Cost.property * n)) ho x
        have hrevised := hx.revises.held_le hn
        rw [World.object_spend] at hupdate
        have hsame : (w.spend (Cost.property * n)).held = w.held := rfl
        omega
      -- A number that was never given out holds nothing, but the charge stays.
      · rw [World.update_of_not_lt (w := w.spend (Cost.property * n)) x ho]
        exact Nat.le_add_right _ _
  | relink o x hk hp =>
    refine .objects (n := 0) nofun rfl ?_
    by_cases ho : o.index < w.objects.size
    · have hupdate := World.held_update ho x
      rw [Object.held_congr hk hp] at hupdate
      omega
    · rw [World.update_of_not_lt x ho]
      exact Nat.le_add_right _ _

/-- All changes keep accounts, and so do changes in a row. -/
lemma Chain.charges (h : Chain T U w w') : w.Charges w' := by
  induction h with
  | refl => exact .refl w
  | tail _ hc ih => exact ih.trans hc.charges

/-- The cost of the prototype that was built, where an event is the end of a build that succeeded. -/
def Event.cost : Event → Nat
  | ⟨.build d _, _, .returned (.ok (.prototype _))⟩ => d.cost
  | _ => 0

/-- A part of an operation charges for what it makes, prototypes included, as long as the bytes that are
charged fit a machine word. -/
lemma Guarantee.cost_le {e : Event} (hg : Guarantee e.op e.began w e.halt w')
    (hw : w'.budget.used ≤ maxWord) :
    e.cost + w'.held + w.budget.used ≤ w.held + w'.budget.used := by
  unfold Event.cost
  split
  · rename_i d root began p
    obtain ⟨-, -, -, rfl⟩ := Definition.build_eq_ok.1 (hg.fact p rfl)
    have hheld := w.held_grown d.charge (Definition.functions d.entries)
    have hcost := Definition.charge_eq_cost (d := d) (Nat.le_trans (Nat.le_add_left _ _) hw)
    show d.cost + (w.grown d.charge (Definition.functions d.entries)).held + w.budget.used ≤
      w.held + (w.budget.used + d.charge)
    omega
  · have hheld := hg.chain.charges.held
    omega

/-! ## Runs -/

variable {m m' : Machine} {es : List Event}

/-- A run keeps accounts. -/
lemma Run.charges (hm : m.Sound Guarantee) (h : Run m es m') : m.world.Charges m'.world := by
  induction h with
  | nil m => exact .refl m.world
  | cons hstep _ ih =>
    obtain ⟨hg, hm'⟩ := contract_guarantee.step hm hstep
    exact hg.chain.charges.trans (ih hm')

/-- A run charges for what it makes. -/
lemma Run.cost_le (hm : m.Sound Guarantee) (h : Run m es m') (hw : m'.world.budget.used ≤ maxWord) :
    (es.map Event.cost).sum + m'.world.held + m.world.budget.used ≤
      m.world.held + m'.world.budget.used := by
  induction h with
  | nil m =>
    rw [List.map_nil, List.sum_nil]
    omega
  | cons hstep hrun ih =>
    -- The first part must not have been cut off, and it was not, since charges only add up.
    obtain ⟨hg, hm'⟩ := contract_guarantee.step hm hstep
    have hfirst := hg.cost_le (Nat.le_trans (hrun.charges hm').used hw)
    have hrest := ih hm' hw
    rw [List.map_cons, List.sum_cons]
    omega

/-- No run charges more than the limit. What was charged covers the costs of all prototypes that were built,
all wrappers and all properties, as long as the bytes that are charged fit a machine word. -/
theorem Run.budget_covers {limit : Option UInt64} (h : Run (.fresh limit) es m) :
    (∀ b, limit = some b → m.world.budget.used ≤ b.toNat) ∧
      (m.world.budget.used < 2 ^ 64 →
        (es.map Event.cost).sum + m.world.held ≤ m.world.budget.used) := by
  have hsound : (Machine.fresh limit).Sound Guarantee := Machine.sound_fresh limit
  refine ⟨fun b hb => (h.charges hsound).within b hb (Nat.zero_le _), fun hw => ?_⟩
  have hcost := h.cost_le hsound (Nat.le_of_lt_succ hw)
  have hheld : (Machine.fresh limit).world.held = 0 := rfl
  rw [hheld, Nat.zero_add] at hcost
  exact hcost

/-- A prototype and an instance of it, with not a byte left over. -/
theorem fileSystem_covered : ∃ es m, Run (.fresh (some 1067)) es m ∧
    (es.map Event.cost).sum + m.world.held = 1067 ∧ m.world.budget.used = 1067 := by
  have hbuild := (Definition.build_eq_ok (d := Definition.fileSystem) (a := .all)
    (w := (Machine.fresh (some 1067)).world)).2 ⟨by decide, by decide, rfl, rfl⟩
  have h := Run.cons (.build [] hbuild) (.cons
    (.start _ [] (.instantiate (some ⟨0, ((Definition.fileSystem.root .all).slots 0).toArray⟩) ⟨1⟩ false))
    (.nil _))
  obtain ⟨hle, hcovers⟩ := h.budget_covers
  refine ⟨_, _, h, rfl, ?_⟩
  exact Nat.le_antisymm (hle _ rfl) (hcovers (by decide))

end HostBinding
