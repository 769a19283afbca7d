import HostBinding.Proofs.Growth
import HostBinding.Proofs.Guarantee
import Mathlib.Data.List.Nodup
import Mathlib.Data.List.Perm.Subperm
import Mathlib.Order.WellFounded

/-!
# Ancestors

The way from an object to its parent, and on to the parent of that, never leads back. So each of the loops
that follow it comes to an end and passes an object at most once: that of a read, that of a test for a
property, and that of the test whether an object may get another parent. The last one relies on what it is
there to keep.

* `World.Grounded`: parents are objects that there are, and the way from parent to parent ends.
* `World.Walks`: a loop along the ancestors, with no bound on its length.
* `World.Grounded.exists_walks`, `World.Walks.nodup`: such loops end, and pass an object at most once.
* `World.Walks.seek_eq`, `World.Grounded.mem_lineage`: what they find is what operations find.
* `World.Grounded.adopt`: an object may get a parent of which it is no ancestor.
* `Access.runIn_setParent`: when an object gets another parent.
-/

namespace HostBinding

variable {w v w' : World} {o p : ObjectId} {key : Key} {e : External}

namespace World

/-- An object has a parent. -/
def Parent (w : World) (o p : ObjectId) : Prop := (w.object o).parent = some p

/-- Parents are objects that there are, and the way from parent to parent ends. -/
structure Grounded (w : World) : Prop where
  known : ∀ o p, w.Parent o p → p.index < w.objects.size
  wellFounded : WellFounded fun p o => w.Parent o p

/-- The loop from an object to its ancestors that stops at the first object for which `stop` holds, or behind
the last ancestor: the objects that it passes, and the one at which it stops. -/
inductive Walks (w : World) (stop : ObjectId → Prop) :
    ObjectId → List ObjectId → Option ObjectId → Prop where
  | stopped {o : ObjectId} (h : stop o) : Walks w stop o [o] (some o)
  | last {o : ObjectId} (h : ¬ stop o) (hp : (w.object o).parent = none) : Walks w stop o [o] none
  | next {o p : ObjectId} {os : List ObjectId} {r : Option ObjectId} (h : ¬ stop o) (hp : w.Parent o p)
    (hw : Walks w stop p os r) : Walks w stop o (o :: os) r

/-- Where a read or a test for a property stops: at a wrapper, and at an own property. -/
def Meets (w : World) (key : Key) (o : ObjectId) : Prop :=
  (w.object o).external? ≠ none ∨ (w.object o).properties.find? key ≠ none

/-- What is found at the object where the loop of a read stops, if there is one. -/
def sought (w : World) (key : Key) : Option ObjectId → Sought
  | none => .missing
  | some o => w.seek key [o]

/-- An object may not get a parent that is the object itself or one of those whose ancestor it is, and none
at all if it refuses changes. -/
def RefusesParent (w : World) (o : ObjectId) (parent : Option ObjectId) : Prop :=
  (∃ p, parent = some p ∧ Relation.ReflTransGen w.Parent p o) ∨ (w.object o).extensible = false

/-- The ancestors of an object are those of its parent, after the object itself. -/
lemma ancestors_of_parent (hp : w.Parent o p) (n : Nat) :
    w.ancestors (n + 1) o = o :: w.ancestors n p := by
  rw [ancestors, show (w.object o).parent = some p from hp]

/-- A search ends at an object at which a read stops. -/
lemma seek_of_meets (h : w.Meets key o) (os : List ObjectId) : w.seek key (o :: os) = w.seek key [o] := by
  rw [seek, seek]
  cases hx : (w.object o).external? with
  | some e => rfl
  | none =>
    cases hk : (w.object o).properties.find? key with
    | some q => rfl
    | none => exact (h.elim (fun h => h hx) fun h => h hk).elim

/-- A search goes on behind an object at which a read does not stop. -/
lemma seek_of_not_meets (h : ¬ w.Meets key o) (os : List ObjectId) :
    w.seek key (o :: os) = w.seek key os := by
  have hx : (w.object o).external? = none := by
    by_contra hx
    exact h (.inl hx)
  have hk : (w.object o).properties.find? key = none := by
    by_contra hk
    exact h (.inr hk)
  rw [seek, hx, hk]

/-- The world in which an object has another parent, and which is the same otherwise. -/
structure Reparented (w : World) (o : ObjectId) (parent : Option ObjectId) (w' : World) : Prop where
  own : w'.object o = { w.object o with parent := parent }
  others : ∀ a, a ≠ o → w'.object a = w.object a
  size : w'.objects.size = w.objects.size
  rest : { w' with objects := w.objects } = w

/-- A new parent is all that an update by one changes. -/
lemma reparented_update (ho : o.index < w.objects.size) (parent : Option ObjectId) :
    w.Reparented o parent (w.update o { w.object o with parent := parent }) where
  own := by rw [object_update w o o _ ho, if_pos rfl]
  others _ ha := object_update_of_ne _ ha
  size := size_update w o _
  rest := rfl

/-! ## Ways that end -/

namespace Grounded

/-- The way from parent to parent never leads back. -/
lemma acyclic (h : w.Grounded) (o : ObjectId) : ¬ Relation.TransGen w.Parent o o := by
  intro ho
  have hswap := Relation.transGen_swap.2 ho
  exact h.wellFounded.transGen.asymmetric o o hswap hswap

/-- Every loop along the ancestors comes to an end. -/
lemma exists_walks (h : w.Grounded) (stop : ObjectId → Prop) (o : ObjectId) :
    ∃ os r, w.Walks stop o os r := by
  induction o using h.wellFounded.induction with
  | _ o ih =>
    by_cases hs : stop o
    · exact ⟨_, _, .stopped hs⟩
    · cases hp : (w.object o).parent with
      | none => exact ⟨_, _, .last hs hp⟩
      | some p =>
        obtain ⟨os, r, hw⟩ := ih p hp
        exact ⟨_, _, .next hs hp hw⟩

end Grounded

/-- Objects of which none is listed twice are no more than there are. -/
lemma length_le_size {os : List ObjectId} (hnodup : os.Nodup) (hlt : ∀ a ∈ os, a.index < w.objects.size) :
    os.length ≤ w.objects.size := by
  have hinj : Function.Injective ObjectId.index := by
    rintro ⟨i⟩ ⟨j⟩ rfl
    rfl
  have hsub : os.map ObjectId.index ⊆ List.range w.objects.size := by
    intro i hi
    obtain ⟨a, ha, rfl⟩ := List.mem_map.1 hi
    exact List.mem_range.2 (hlt a ha)
  have hle := (List.subperm_of_subset (hnodup.map hinj) hsub).length_le
  rwa [List.length_map, List.length_range] at hle

namespace Walks

variable {stop : ObjectId → Prop} {os : List ObjectId} {r : Option ObjectId}

/-- A loop passes ancestors only. -/
lemma reflTransGen (h : w.Walks stop o os r) {x : ObjectId} (hx : x ∈ os) :
    Relation.ReflTransGen w.Parent o x := by
  induction h with
  | stopped h =>
    rw [List.mem_singleton.1 hx]
  | last h hp =>
    rw [List.mem_singleton.1 hx]
  | next h hp hw ih =>
    rcases List.mem_cons.1 hx with rfl | hx
    · exact .refl
    · exact .head hp (ih hx)

/-- A loop passes an object at most once. -/
lemma nodup (hg : w.Grounded) (h : w.Walks stop o os r) : os.Nodup := by
  induction h with
  | stopped h => exact List.nodup_singleton _
  | last h hp => exact List.nodup_singleton _
  | next h hp hw ih =>
    exact List.nodup_cons.2 ⟨fun ho => hg.acyclic _ (.head' hp (hw.reflTransGen ho)), ih⟩

/-- Behind its first object, a loop passes objects that there are. -/
lemma tail_lt (hg : w.Grounded) (h : w.Walks stop o os r) : ∀ x ∈ os.tail, x.index < w.objects.size := by
  induction h with
  | stopped h => exact fun _ hx => (List.not_mem_nil hx).elim
  | last h hp => exact fun _ hx => (List.not_mem_nil hx).elim
  | @next o p os r h hp hw ih =>
    intro x hx
    have hp' := hg.known o p hp
    cases hw with
    | stopped h => rwa [List.mem_singleton.1 hx]
    | last h hp => rwa [List.mem_singleton.1 hx]
    | next h hp hw =>
      rcases List.mem_cons.1 hx with rfl | hx
      · exact hp'
      · exact ih x hx

/-- A loop is no longer than there are objects, apart from the one at which it starts. -/
lemma length_le (hg : w.Grounded) (h : w.Walks stop o os r) : os.length ≤ w.objects.size + 1 := by
  have hle := length_le_size (h.nodup hg).tail (h.tail_lt hg)
  rw [List.length_tail] at hle
  omega

/-- A loop that never stops passes all ancestors. -/
lemma mem_of_reflTransGen (h : w.Walks stop o os none) {x : ObjectId}
    (hx : Relation.ReflTransGen w.Parent o x) : x ∈ os ∧ ¬ stop x := by
  generalize hr : none = r at h
  induction h with
  | stopped h => cases hr
  | last h hp =>
    cases hx.cases_head with
    | inl he =>
      subst he
      exact ⟨List.mem_singleton_self _, h⟩
    | inr hx =>
      obtain ⟨p, hp', -⟩ := hx
      cases hp.symm.trans hp'
  | next h hp hw ih =>
    rcases hx.cases_head with rfl | ⟨p, hp', hx⟩
    · exact ⟨List.mem_cons_self .., h⟩
    · cases hp.symm.trans hp'
      exact (ih hx hr).imp_left (List.mem_cons_of_mem _)

/-- A loop stops at an ancestor for which `stop` holds. -/
lemma stop_of_some {x : ObjectId} (h : w.Walks stop o os (some x)) :
    stop x ∧ Relation.ReflTransGen w.Parent o x := by
  generalize hr : some x = r at h
  induction h with
  | stopped h =>
    cases hr
    exact ⟨h, .refl⟩
  | last h hp => cases hr
  | next h hp hw ih => exact (ih hr).imp_right (.head hp)

/-- A loop that never stops passes what is listed as the way to the ancestors. -/
lemma ancestors_eq (h : w.Walks (fun _ => False) o os r) {n : Nat} (hn : os.length ≤ n) :
    w.ancestors n o = os := by
  induction h generalizing n with
  | stopped h => exact h.elim
  | last h hp =>
    cases n with
    | zero => cases hn
    | succ n => rw [ancestors, hp]
  | next h hp hw ih =>
    cases n with
    | zero => cases hn
    | succ n => rw [ancestors_of_parent hp, ih (Nat.le_of_succ_le_succ hn)]

/-- What the loop of a read finds is what is found on the way to the ancestors. -/
lemma seek_eq (h : w.Walks (w.Meets key) o os r) {n : Nat} (hn : os.length ≤ n) :
    w.seek key (w.ancestors n o) = w.sought key r := by
  induction h generalizing n with
  | stopped h =>
    cases n with
    | zero => cases hn
    | succ n => exact seek_of_meets h _
  | last h hp =>
    cases n with
    | zero => cases hn
    | succ n =>
      rw [ancestors, hp, seek_of_not_meets h]
      rfl
  | next h hp hw ih =>
    cases n with
    | zero => cases hn
    | succ n => rw [ancestors_of_parent hp, seek_of_not_meets h, ih (Nat.le_of_succ_le_succ hn)]

end Walks

namespace Grounded

/-- What is listed as the way to the ancestors is all of it. -/
lemma mem_lineage (hg : w.Grounded) {x : ObjectId} :
    x ∈ w.lineage o ↔ Relation.ReflTransGen w.Parent o x := by
  obtain ⟨os, r, h⟩ := hg.exists_walks (fun _ => False) o
  rw [lineage, h.ancestors_eq (h.length_le hg)]
  constructor
  · exact h.reflTransGen
  · cases r with
    | none => exact fun hx => (h.mem_of_reflTransGen hx).1
    | some p => exact h.stop_of_some.1.elim

/-- An ancestor of an object that there is, is one, too. -/
lemma lt_of_reflTransGen (hg : w.Grounded) {x : ObjectId} (h : Relation.ReflTransGen w.Parent o x)
    (ho : o.index < w.objects.size) : x.index < w.objects.size := by
  cases h with
  | refl => exact ho
  | tail _ hp => exact hg.known _ _ hp

/-! ## What changes ways -/

/-- An object may get a parent of which it is no ancestor. -/
lemma adopt (hg : w.Grounded) (hsize : w.objects.size ≤ w'.objects.size)
    (hothers : ∀ a, a ≠ o → (w'.object a).parent = (w.object a).parent)
    (hown : ∀ p, w'.Parent o p → p.index < w.objects.size ∧ ¬ Relation.ReflTransGen w.Parent p o) :
    w'.Grounded := by
  have hparent {a b : ObjectId} (ha : a ≠ o) (h : w'.Parent a b) : w.Parent a b :=
    (hothers a ha).symm.trans h
  refine ⟨fun a b h => ?_, ⟨fun a => ?_⟩⟩
  · by_cases ha : a = o
    · subst ha
      exact Nat.lt_of_lt_of_le (hown b h).1 hsize
    · exact Nat.lt_of_lt_of_le (hg.known a b (hparent ha h)) hsize
  -- Where the way does not come past `o`, it is what it was; so it ends for the parent of `o`, and for all.
  · have hfar (a : ObjectId) : ¬ Relation.ReflTransGen w.Parent a o →
        Acc (fun b a => w'.Parent a b) a := by
      induction a using hg.wellFounded.induction with
      | _ a ih =>
        intro hao
        have ha : a ≠ o := by
          rintro rfl
          exact hao .refl
        refine ⟨a, fun b hb => ?_⟩
        have hb := hparent ha hb
        exact ih b hb fun h => hao (.head hb h)
    have hacc : Acc (fun b a => w'.Parent a b) o := ⟨o, fun b hb => hfar b (hown b hb).2⟩
    induction a using hg.wellFounded.induction with
    | _ a ih =>
      by_cases ha : a = o
      · subst ha
        exact hacc
      · exact ⟨a, fun b hb => ih b (hparent ha hb)⟩

end Grounded

/-- No object is lost or gets another parent, and new objects have none. -/
structure Kin (w w' : World) : Prop where
  size : w.objects.size ≤ w'.objects.size
  parent : ∀ o, (w'.object o).parent = (w.object o).parent

namespace Kin

/-- A world has the parents that it has. -/
lemma refl (w : World) : w.Kin w := ⟨Nat.le_refl _, fun _ => rfl⟩

/-- Parents that stay through two stretches stay through both. -/
lemma trans (h : w.Kin v) (h' : v.Kin w') : w.Kin w' :=
  ⟨Nat.le_trans h.size h'.size, fun o => (h'.parent o).trans (h.parent o)⟩

/-- Parents stay where no object changes. -/
lemma of_objects (h : w'.objects = w.objects) : w.Kin w' := by
  refine ⟨Nat.le_of_eq (congrArg Array.size h).symm, fun o => ?_⟩
  rw [World.object, World.object, h]

/-- Parents stay where an object changes in another respect. -/
lemma update {x : Object} (hx : x.parent = (w.object o).parent) : w.Kin (w.update o x) := by
  refine ⟨Nat.le_of_eq (size_update w o x).symm, fun a => ?_⟩
  by_cases ha : a = o
  · subst ha
    by_cases ho : a.index < w.objects.size
    · rw [object_update w a a x ho, if_pos rfl]
      exact hx
    · rw [update_of_not_lt x ho]
  · rw [object_update_of_ne x ha]

/-- Parents stay where an object without a parent is made. -/
lemma allocate {x : Object} (hx : x.parent = none) : w.Kin (w.allocate x).2 := by
  refine ⟨?_, fun a => ?_⟩
  · rw [size_allocate]
    exact Nat.le_succ _
  · by_cases ha : a.index < w.objects.size
    · rw [object_allocate_of_lt x ha]
    · rw [object_of_not_lt ha]
      rcases object_allocate_of_not_lt x ha with h | h
      · rw [h]
        exact hx
      · rw [h]

/-- Where parents stay, the ways to the ancestors do. -/
lemma grounded (h : w.Kin w') (hg : w.Grounded) : w'.Grounded := by
  have hparent : w'.Parent = w.Parent := by
    funext a b
    rw [Parent, Parent, h.parent a]
  refine ⟨fun a b hb => ?_, ?_⟩
  · rw [hparent] at hb
    exact Nat.lt_of_lt_of_le (hg.known a b hb) h.size
  · rw [hparent]
    exact hg.wellFounded

end Kin

/-- What a build leaves behind changes no parent. -/
lemma Enlarges.kin (h : w.Enlarges w') : w.Kin w' := by
  refine ⟨h.size, fun o => ?_⟩
  by_cases ho : o.index < w.objects.size
  · rw [h.objects o ho]
  · rw [(h.plain o ho).parent, (plain_of_not_lt ho).parent]

end World

/-! ## Another parent -/

namespace Access

/-- A wrapper has no parent, and gets none. -/
lemma runIn_setParent_external (hx : (w.object o).external? = some e) (parent : Option ObjectId) :
    (setParent o parent).runIn w = (.ok parent.isNone, w) := by
  rw [setParent, Action.runIn_bind, Action.runIn_get]
  dsimp only
  rw [if_pos]
  · rfl
  · rw [hx]
    rfl

/-- Any other object gets the parent, unless that is refused. -/
lemma runIn_setParent (hg : w.Grounded) (hx : (w.object o).external? = none) (parent : Option ObjectId) :
    (w.RefusesParent o parent → (setParent o parent).runIn w = (.ok false, w)) ∧
      (¬ w.RefusesParent o parent →
        (setParent o parent).runIn w = (.ok true, w.update o { w.object o with parent := parent })) := by
  have hrefuses : (parent.any (fun p => decide (o ∈ w.lineage p)) || !(w.object o).extensible) = true ↔
      w.RefusesParent o parent := by
    rw [Bool.or_eq_true, Bool.not_eq_true', Option.any_eq_true, World.RefusesParent]
    simp only [decide_eq_true_eq, hg.mem_lineage]
  rw [setParent, Action.runIn_bind, Action.runIn_get]
  dsimp only
  rw [if_neg]
  · constructor
    · intro h
      rw [if_pos (hrefuses.2 h)]
      rfl
    · intro h
      rw [if_neg (mt hrefuses.1 h)]
      rfl
  · rw [hx]
    exact Bool.false_ne_true

end Access

end HostBinding
