import HostBinding.Proofs.Ancestry
import HostBinding.Proofs.Handling

/-!
# Parents in runs

Only two operations give an object a parent: the one that makes ordinary objects, and the one that is there to
change parents. All others leave every object its parent, whatever the host does in between. So the ways to the
ancestors end in all that a run leads to.

* `World.Kin.admits`, `World.Kin.admits_aside`: neither what is done under a key changes a parent, nor what the
  operations beside reads and writes do.
* `Kindred`: a part of an operation that changes no parent.
* `Operation.ensures_kin`: which operations consist of such parts.
* `Fosters`, `contract_fosters`: what an operation does to the ways to the ancestors.
* `Run.ancestry`: the main result.
-/

namespace HostBinding

variable {α β : Type} {w v w' : World} {o : ObjectId} {key : Key} {e : External}

/-! ## Operations that change no parent -/

/-- A part that changes no parent. -/
def Kindred (w : World) (_ : Halt α) (w' : World) : Prop := w.Kin w'

/-- Parents that stay in parts stay in the whole. -/
lemma World.Kin.composes : Composes World.Kin := ⟨.refl, .trans⟩

/-- A removal changes no parent. -/
lemma Object.parent_remove {x x' : Object} (h : x.remove key = some x') : x'.parent = x.parent := by
  rcases eq_of_remove h with rfl | rfl
  · rfl
  · rfl

/-- A change of an object changes no parent if it does not change that of the object. -/
lemma Action.kin_commit {x : Option Object} (hx : ∀ y, x = some y → y.parent = (w.object o).parent) :
    w.Kin ((commit o x).runIn w).2 := by
  rw [runIn_commit]
  cases x with
  | some y => exact .update (hx y rfl)
  | none => exact .refl w

/-- What is done under a key of an object changes no parent. -/
lemma World.Kin.admits (o : ObjectId) (key : Key) : External.Admits World.Kin o key fun _ => True where
  toComposes := World.Kin.composes
  spend _ _ := .of_objects rfl
  allocate _ _ _ _ := .allocate rfl
  put _ _ _ := .update rfl
  allows _ _ := trivial

/-- The operations aside change no parent. -/
lemma World.Kin.admits_aside : Operation.Admits World.Kin where
  toComposes := World.Kin.composes
  enlarges h := h.kin
  wrapper _ _ _ := .allocate rfl
  close _ _ := .update rfl

/-- A deletion, on whatever object, changes no parent. -/
lemma Access.kin_delete (o : ObjectId) (key : Key) (w : World) : w.Kin ((delete o key).runIn w).2 := by
  cases hx : (w.object o).external? with
  | some e =>
    rw [runIn_delete hx, External.runIn_erase hx]
    split
    · exact .update rfl
    · exact .refl w
  | none =>
    rw [delete, Action.runIn_bind, Action.runIn_object]
    dsimp only
    rw [hx]
    exact Action.kin_commit fun _ h => Object.parent_remove h

namespace Operation

/-- The operations that give an object a parent, or take it away. -/
def Reparents : Operation → Prop
  | setParent _ _ => True
  | makeOrdinary _ => True
  | _ => False

/-- The parent that an operation gives to an object. -/
def adopts : Operation → Option ObjectId
  | setParent _ parent => parent
  | makeOrdinary parent => parent
  | _ => none

/-- A read changes no parent. -/
lemma kindred_read {op : Operation} (hop : op.IsRead) (w : World) : (op.dialogue.start w).Ensures Kindred w := by
  rcases hop.exists_reading w with ⟨o, key, e, -, hx, h⟩ | ⟨r, hr⟩
  · exact ((World.Kin.admits o key).ensures_reading hx h).mono fun _ _ _ h => h fun _ _ _ => trivial
  · rw [hr]
    exact .refl w

/-- No other operation changes the parent of an object. -/
lemma ensures_kin (op : Operation) (hop : ¬ op.Reparents) (w : World) :
    (op.dialogue.start w).Ensures Kindred w := by
  cases op with
  | get o key receiver => exact kindred_read (.get o key receiver) w
  | own o key => exact kindred_read (.own o key) w
  | set o key x => exact Dialogue.ensures_map ((World.Kin.admits o key).ensures_set x w) fun _ _ _ h => h
  | delete o key => exact Dialogue.ensures_map_lift (R := World.Kin) (Access.kin_delete o key w)
  | setParent o parent => exact (hop trivial).elim
  | makeOrdinary parent => exact (hop trivial).elim
  | _ => exact World.Kin.admits_aside.ensures (by trivial) w

end Operation

/-- What an operation guarantees for each part, with what it does to parents: if it gives one, that is an
object that there is. -/
structure Fosters (op : Operation) (began w : World) (out : Halt Reply) (w' : World) : Prop extends
    Guarantee op began w out w' where
  grounded : (∀ p, op.adopts = some p → p.index < began.objects.size) → w.Grounded → w'.Grounded

/-- A change of the parent leaves ways that end. -/
lemma World.Grounded.setParent (hg : w.Grounded) (parent : Option ObjectId)
    (hp : ∀ p, parent = some p → p.index < w.objects.size) :
    ((Access.setParent o parent).runIn w).2.Grounded := by
  cases hx : (w.object o).external? with
  | some e =>
    rw [Access.runIn_setParent_external hx]
    exact hg
  | none =>
    obtain ⟨hrefused, hset⟩ := Access.runIn_setParent hg hx parent
    by_cases h : w.RefusesParent o parent
    · rw [hrefused h]
      exact hg
    · rw [hset h]
      dsimp only
      by_cases ho : o.index < w.objects.size
      · apply hg.adopt (o := o) (Nat.le_of_eq (size_update w o _).symm)
        · exact fun a ha => by rw [object_update_of_ne _ ha]
        · intro p hparent
          rw [Parent, object_update w o o _ ho, if_pos rfl] at hparent
          exact ⟨hp p hparent, fun hpo => h (.inl ⟨p, hparent, hpo⟩)⟩
      · rw [update_of_not_lt _ ho]
        exact hg

/-- A new object leaves ways that end, if its parent is there. -/
lemma World.Grounded.allocate (hg : w.Grounded) {x : Object}
    (hp : ∀ p, x.parent = some p → p.index < w.objects.size) : (w.allocate x).2.Grounded := by
  have hobject := object_allocate w ⟨w.objects.size⟩ x (Nat.le_refl _)
  apply hg.adopt (o := ⟨w.objects.size⟩)
  · rw [size_allocate]
    exact Nat.le_succ _
  · intro a ha
    by_cases hlt : a.index < w.objects.size
    · rw [object_allocate_of_lt x hlt]
    · rw [object_of_not_lt hlt, object_of_not_lt]
      rw [size_allocate]
      intro h
      have hsize : a.index = w.objects.size := by omega
      cases a
      cases hsize
      exact ha rfl
  · intro p hparent
    rw [Parent, hobject, allocate_fst, if_pos rfl] at hparent
    have hlt := hp p hparent
    exact ⟨hlt, fun h => Nat.lt_irrefl _ (hg.lt_of_reflTransGen h hlt)⟩

/-- All operations leave ways that end. -/
theorem contract_fosters : Contract Fosters where
  start op w := by
    have hguarantee := contract_guarantee.start op w
    by_cases hop : op.Reparents
    · cases op with
      | setParent o parent =>
        have hset := Dialogue.ensures_map_lift (f := Reply.flag) (a := Access.setParent o parent)
          (R := fun u u' => u = w ∧ u' = ((Access.setParent o parent).runIn w).2) ⟨rfl, rfl⟩
        apply (hguarantee.and hset).mono
        rintro u out u' ⟨h, rfl, rfl⟩
        exact ⟨h, fun hp hg => hg.setParent parent hp⟩
      | makeOrdinary parent => exact ⟨hguarantee, fun hp hg => hg.allocate hp⟩
      | _ => exact hop.elim
    · exact (hguarantee.and (op.ensures_kin hop w)).mono fun u out u' h => ⟨h.1, fun _ => h.2.grounded⟩
  world_extends _ _ _ _ _ h := h.chain.world_extends
  refuse op began w f := ⟨contract_guarantee.refuse op began w f, fun _ hg => hg⟩

section

variable {m m' : Machine} {es : List Event}

/-- Where all parents that are given are objects that there are, the ways from parent to parent end. -/
theorem Run.grounded (hm : m.Sound Fosters) (h : Run m es m')
    (hes : ∀ ev ∈ es, ∀ p, ev.op.adopts = some p → p.index < ev.began.objects.size)
    (hg : m.world.Grounded) : m'.world.Grounded := by
  induction h with
  | nil m => exact hg
  | cons hstep _ ih =>
    obtain ⟨hf, hm'⟩ := contract_fosters.step hm hstep
    obtain ⟨hev, hes⟩ := List.forall_mem_cons.1 hes
    exact ih hm' hes (hf.grounded hev hg)

/-- In a fresh machine there is no way at all. -/
lemma World.grounded_fresh (limit : Option UInt64) : (Machine.fresh limit).world.Grounded := by
  have hnone (o p : ObjectId) : ¬ (Machine.fresh limit).world.Parent o p := by
    rw [Parent, object_of_not_lt (Nat.not_lt_zero _)]
    exact fun h => by cases h
  exact ⟨fun o p h => (hnone o p h).elim, ⟨fun o => ⟨o, fun p h => (hnone o p h).elim⟩⟩⟩

/-- In all that a run leads to, the way from parent to parent never leads back. Whatever a loop along it
looks for, it ends, and passes no object twice. That of a read and that of a test for a property find what the
engine finds, and so does that of the test for another parent. An object that is no wrapper gets every parent
of which it is no ancestor, unless it refuses changes, and nothing else changes; a wrapper gets none. -/
theorem Run.ancestry {limit : Option UInt64} (h : Run (.fresh limit) es m)
    (hes : ∀ ev ∈ es, ∀ p, ev.op.adopts = some p → p.index < ev.began.objects.size) :
    (∀ o, ¬ Relation.TransGen m.world.Parent o o) ∧
      (∀ stop o, ∃ os r, m.world.Walks stop o os r ∧ os.Nodup) ∧
      (∀ key o os r, m.world.Walks (m.world.Meets key) o os r →
        m.world.seek key (m.world.lineage o) = m.world.sought key r) ∧
      (∀ o p os r, m.world.Walks (· = o) p os r → (o ∈ m.world.lineage p ↔ r = some o)) ∧
      ∀ o parent, o.index < m.world.objects.size →
        ∃ b w', (Access.setParent o parent).runIn m.world = (.ok b, w') ∧
          match (m.world.object o).external? with
          | some _ => b = parent.isNone ∧ w' = m.world
          | none => (b = false ↔ m.world.RefusesParent o parent) ∧ (b = false → w' = m.world) ∧
            (b = true → m.world.Reparented o parent w') := by
  have hg := h.grounded (Machine.sound_fresh limit) hes (World.grounded_fresh limit)
  refine ⟨hg.acyclic, fun stop o => ?_, fun key o os r hw => hw.seek_eq (hw.length_le hg),
    fun o p os r hw => ?_, fun o parent ho => ?_⟩
  · obtain ⟨os, r, hw⟩ := hg.exists_walks stop o
    exact ⟨os, r, hw, hw.nodup hg⟩
  · rw [hg.mem_lineage]
    -- A walk that is not stopped meets all ancestors, and the object is none of them.
    cases r with
    | none => exact ⟨fun hp => absurd rfl (hw.mem_of_reflTransGen hp).2, fun hr => by cases hr⟩
    | some a =>
      obtain ⟨rfl, hp⟩ := hw.stop_of_some
      exact ⟨fun _ => rfl, fun _ => hp⟩
  · cases hx : (m.world.object o).external? with
    | some e => exact ⟨_, _, Access.runIn_setParent_external hx parent, rfl, rfl⟩
    | none =>
      obtain ⟨hrefused, hset⟩ := Access.runIn_setParent hg hx parent
      by_cases hp : m.world.RefusesParent o parent
      · exact ⟨false, _, hrefused hp, iff_of_true rfl hp, fun _ => rfl, fun hb => by cases hb⟩
      · exact ⟨true, _, hset hp, iff_of_false (by decide) hp, (by cases ·),
          fun _ => World.reparented_update ho parent⟩

end

/-- The world with two objects, one of which is the parent of the other one. -/
def family : World :=
  ((World.allocate {} { kind := .ordinary }).2.allocate { kind := .ordinary, parent := some ⟨0⟩ }).2

/-- The child may not become the parent of its parent. -/
theorem family_ancestry : ∃ es, Run (.fresh none) es ⟨family, []⟩ ∧ family.Parent ⟨1⟩ ⟨0⟩ ∧
    (Access.setParent ⟨0⟩ (some ⟨1⟩)).runIn family = (.ok false, family) := by
  have h₁ : Step (.fresh none) ⟨.makeOrdinary none, _, _⟩
      ⟨(World.allocate {} { kind := .ordinary }).2, []⟩ := .of_start_done rfl
  have h₂ : Step ⟨(World.allocate {} { kind := .ordinary }).2, []⟩ ⟨.makeOrdinary (some ⟨0⟩), _, _⟩
      ⟨family, []⟩ := .of_start_done rfl
  have hrun := Run.cons h₁ (.cons h₂ (.nil _))
  refine ⟨_, hrun, rfl, ?_⟩
  obtain ⟨-, -, -, -, hset⟩ := hrun.ancestry (by simp [Operation.adopts])
  obtain ⟨b, w', heq, hrefused, hw', -⟩ := hset ⟨0⟩ (some ⟨1⟩) (by decide)
  have hb : b = false := hrefused.2 (.inl ⟨_, rfl, .single rfl⟩)
  rw [heq, hw' hb, hb]

end HostBinding
