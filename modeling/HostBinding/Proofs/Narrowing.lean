import HostBinding.Proofs.Kinship

/-!
# Keys of closed objects

A closed object takes no new keys. Each part of an operation leaves it closed, with no key that it did not have
before. To keep the value of a template, or to cover the template, makes a property without looking whether the
object is closed, but the key is one of the object already, as long as it is not deleted in between.

* `Object.Masks`: the keys that were deleted on an object.
* `Object.Narrows`, `World.Narrows`: a closed object stays closed and gets no keys.
* `World.Narrows.admits`, `World.Narrows.admits_aside`: what is done under a key gets it none, where the key is one of
  the object, nor do the operations beside reads and writes.
* `Reading.narrows`: reads get it no keys, unless the key was deleted while the host was asked.
* `Abides`, `contract_abides`: what an operation does to the keys of an object.
-/

namespace HostBinding

variable {α β : Type} {D : Key → Prop} {w v w' : World} {o a : ObjectId} {key : Key} {e : External}

/-! ## Keys -/

namespace Object

/-- The key was deleted on a wrapper. -/
def Masks (x : Object) (key : Key) : Prop := ∃ e, x.external? = some e ∧ key ∈ e.deleted

/-- An object that goes on as another one: a closed one stays closed and gets no keys. No key is deleted that is
not in `D`. -/
structure Narrows (D : Key → Prop) (x x' : Object) : Prop where
  closed : x.extensible = false → x'.extensible = false
  bound : x.extensible = false → ∀ key, x'.Binds key → x.Binds key
  masked : ∀ key, x'.Masks key → x.Masks key ∨ D key

variable {x x' x'' : Object} {p : Property} {y : Value}

/-- On a wrapper the keys are masked that it keeps as deleted. -/
lemma masks_iff (hx : x.external? = some e) : x.Masks key ↔ key ∈ e.deleted := by
  rw [Masks, hx]
  simp

/-- An object that is no wrapper masks no key. -/
lemma not_masks_of_plain (hx : x.external? = none) (key : Key) : ¬ x.Masks key := by
  rintro ⟨e, he, -⟩
  cases hx.symm.trans he

namespace Narrows

/-- An object goes on as itself. -/
lemma refl (x : Object) : Narrows D x x := ⟨id, fun _ _ => id, fun _ => .inl⟩

/-- Going on composes. -/
lemma trans (h : Narrows D x x') (h' : Narrows D x' x'') : Narrows D x x'' where
  closed hx := h'.closed (h.closed hx)
  bound hx key hk := h.bound hx key (h'.bound (h.closed hx) key hk)
  masked key hk := (h'.masked key hk).elim (h.masked key) .inr

/-- The keys that may get deleted can be more. -/
lemma mono {D' : Key → Prop} (h : Narrows D x x') (hD : ∀ key, D key → D' key) : Narrows D' x x' where
  closed := h.closed
  bound := h.bound
  masked key hk := (h.masked key hk).imp_right (hD key)

/-- An object of the same kind, which has no properties under new keys if it is closed. -/
lemma of_kind (hkind : x'.kind = x.kind) (hclosed : x.extensible = false → x'.extensible = false)
    (hbound : x.extensible = false → ∀ key, x'.properties.find? key ≠ none → x.Binds key) :
    Narrows D x x' := by
  have hexternal : x'.external? = x.external? := by rw [external?, external?, hkind]
  refine ⟨hclosed, fun hx key hk => ?_, fun key hk => .inl ?_⟩
  · rcases hk with hk | ht
    · exact hbound hx key hk
    · rw [hexternal] at ht
      exact .inr ht
  · rwa [Masks, hexternal] at hk

/-- An object of the same kind with the same properties. -/
lemma of_properties (hkind : x'.kind = x.kind) (hclosed : x.extensible = false → x'.extensible = false)
    (hp : x'.properties = x.properties) : Narrows D x x' := by
  refine of_kind hkind hclosed fun _ key hk => .inl ?_
  rwa [← hp]

/-- An own property may be put where the object is open or binds the key. -/
lemma put (h : x.extensible = false → x.Binds key) (p : Property) : Narrows D x (x.put key p) := by
  refine of_kind rfl id fun hx k hk => ?_
  by_cases he : key = k
  · subst he
    exact h hx
  · rw [Object.put, OrderedMap.find?_insert, if_neg he] at hk
    exact .inl hk

/-- An assignment that the object accepts gets it no key if it is closed. -/
lemma assign (h : x.assign key y = some x') : Narrows D x x' := by
  obtain ⟨q, rfl⟩ := eq_put_of_assign h
  exact put (binds_of_assign h) q

/-- A definition that the object accepts gets it no key if it is closed. -/
lemma define (h : x.define key p = some x') : Narrows D x x' := by
  rw [eq_put_of_define h]
  exact put (binds_of_define h) p

/-- Without a property an object binds no more keys. -/
lemma erase (x : Object) (key : Key) : Narrows D x { x with properties := x.properties.erase key } := by
  refine of_kind rfl id fun _ k hk => .inl ?_
  dsimp only at hk
  rw [OrderedMap.find?_erase] at hk
  split at hk
  · exact absurd rfl hk
  · exact hk

/-- A removal that the object accepts gets it no key. -/
lemma remove (h : x.remove key = some x') : Narrows D x x' := by
  rcases eq_of_remove h with rfl | rfl
  · exact refl x'
  · exact erase x key

/-- A key that is deleted on a wrapper is the only one that is. -/
lemma without (hx : x.external? = some e) (hD : D key) : Narrows D x (External.without x e key) := by
  obtain ⟨e', he', hpersists⟩ := (External.revises_without hx key).external e hx
  refine ⟨id, fun hclosed k hk => ?_, fun k hk => ?_⟩
  · rcases hk with hk | ⟨e₁, he₁, ht⟩
    · exact (erase (D := D) x key).bound hclosed k (.inl hk)
    · cases he'.symm.trans he₁
      exact .inr ⟨e, hx, hpersists.template?_ne_none ht⟩
  · obtain ⟨e₁, he₁, hd⟩ := hk
    rw [masks_iff hx]
    cases he₁
    split at hd
    · rcases External.mem_deleted_delete.1 hd with hd | rfl
      · exact .inl hd
      · exact .inr hD
    · exact .inl hd

/-- A number that was never given out may become any object on which nothing was deleted. -/
lemma of_default (h : ∀ key, ¬ x.Masks key) : Narrows D default x :=
  ⟨fun hopen => absurd hopen (by decide), fun hopen => absurd hopen (by decide),
    fun key hk => absurd hk (h key)⟩

end Narrows

end Object

namespace World

/-- A world that goes on as another one, in which a closed object has got no keys. -/
def Narrows (w : World) (o : ObjectId) (D : Key → Prop) (w' : World) : Prop :=
  (w.object o).Narrows D (w'.object o)

namespace Narrows

/-- A world goes on as itself. -/
lemma refl (w : World) : w.Narrows o D w := Object.Narrows.refl _

/-- Going on composes. -/
lemma trans (h : w.Narrows o D v) (h' : v.Narrows o D w') : w.Narrows o D w' := Object.Narrows.trans h h'

/-- Going on is reflexive and transitive. -/
lemma composes : Composes fun w w' => w.Narrows o D w' := ⟨refl, trans⟩

/-- Where no object is changed the world goes on. -/
lemma of_objects (h : w'.objects = w.objects) : w.Narrows o D w' := by
  rw [Narrows, World.object, World.object, h]
  exact .refl _

/-- If another object is changed, there is nothing to show. -/
lemma update {x : Object} (h : a = o → (w.object a).Narrows D x) : w.Narrows o D (w.update a x) := by
  by_cases ha : o = a
  · subst ha
    by_cases ho : o.index < w.objects.size
    · rw [Narrows, object_update w o o x ho, if_pos rfl]
      exact h rfl
    · rw [update_of_not_lt x ho]
      exact refl w
  · rw [Narrows, object_update_of_ne x ha]
    exact .refl _

/-- Committing an object that goes on as the old one lets the world go on. -/
lemma commit {x : Option Object} (h : ∀ y, x = some y → a = o → (w.object a).Narrows D y) :
    w.Narrows o D ((Action.commit a x).runIn w).2 := by
  rw [Action.runIn_commit]
  cases x with
  | some y => exact update (h y rfl)
  | none => exact refl w

/-- A new object that masks no key is no matter to the old ones. -/
lemma allocate {x : Object} (hx : ∀ key, ¬ x.Masks key) : w.Narrows o D (w.allocate x).2 := by
  by_cases ho : o.index < w.objects.size
  · rw [Narrows, object_allocate_of_lt x ho]
    exact .refl _
  · rw [Narrows, object_of_not_lt ho]
    rcases object_allocate_of_not_lt x ho with h | h
    · rw [h]
      exact .of_default hx
    · rw [h]
      exact .refl _

end Narrows

/-- A world that is enlarged goes on. -/
lemma Enlarges.narrows (h : w.Enlarges w') : w.Narrows o D w' := by
  by_cases ho : o.index < w.objects.size
  · rw [Narrows, h.objects o ho]
    exact .refl _
  · rw [Narrows, object_of_not_lt ho]
    exact .of_default (Object.not_masks_of_plain (h.plain o ho).external)

end World

/-! ## Wrappers -/

/-- On a new wrapper nothing is deleted. -/
lemma External.not_masks_new (h : e.deleted = []) (key : Key) : ¬ { kind := .external e : Object }.Masks key := by
  rw [Object.masks_iff rfl, h]
  exact List.not_mem_nil

/-- What is done under a key of an object gets a closed one no keys, if the key is one of it where a property is put. -/
lemma World.Narrows.admits (o : ObjectId) (D : Key → Prop) (a : ObjectId) (key : Key) :
    External.Admits (fun w w' => w.Narrows o D w') a key
      fun x => a = o → x.extensible = false → x.Binds key where
  toComposes := World.Narrows.composes
  spend _ _ := .of_objects rfl
  allocate _ _ he _ := .allocate (External.not_masks_new he)
  put _ p hx := .update fun ha => .put (hx ha) p
  allows _ hx _ := hx

/-- The operations aside get no object a key. -/
lemma World.Narrows.admits_aside (o : ObjectId) (D : Key → Prop) :
    Operation.Admits fun w w' => w.Narrows o D w' where
  toComposes := World.Narrows.composes
  enlarges h := h.narrows
  wrapper _ _ he := .allocate (External.not_masks_new he)
  close _ _ := .update fun _ => .of_properties rfl (fun _ => rfl) rfl

/-- A part that gets a closed object no keys. -/
def Narrowing (o : ObjectId) (D : Key → Prop) (w : World) (_ : Halt α) (w' : World) : Prop := w.Narrows o D w'

/-- A dialogue without requests narrows what its action narrows. -/
lemma Dialogue.narrowing_map_lift {f : α → β} {b : Action α} (h : w.Narrows o D (b.runIn w).2) :
    ((f <$> (liftM b : Dialogue α)).start w).Ensures (Narrowing o D) w :=
  ensures_map_lift (R := fun w w' => w.Narrows o D w') h

/-- A read gets a closed object no keys, unless the key is one of the object that was deleted since. -/
lemma Reading.narrows {b : Option HostAddress} {t : Turn α} (hx : (w.object a).external? = some e)
    (h : Reading e w a key b t) :
    t.Ensures (fun u _ u' => (a = o → (u.object o).Masks key → (w.object o).Masks key) → u.Narrows o D u')
      w := by
  apply ((World.Narrows.admits o D a key).ensures_reading hx h).mono
  intro u _ u' h hmasks
  refine h fun hu t hs ha _ => ?_
  subst ha
  -- The template was not deleted when the read was started, so it is there still.
  obtain ⟨e', he', hpersists⟩ := hu.external a e hx
  obtain ⟨-, hd, ht⟩ := External.search_eq_template hs
  rw [← hpersists.view] at ht
  exact Object.binds_of_template he'
    (fun hm => hd ((Object.masks_iff hx).1 (hmasks rfl ((Object.masks_iff he').2 hm)))) ht

/-! ## Operations -/

namespace Access

/-- A deletion masks the key that is deleted and gets the object none. -/
lemma narrows_delete (hD : a = o → D key) : w.Narrows o D ((delete a key).runIn w).2 := by
  cases hx : (w.object a).external? with
  | some e =>
    rw [runIn_delete hx, External.runIn_erase hx]
    split
    · exact .update fun ha => .without hx (hD ha)
    · exact .refl w
  | none =>
    rw [delete, Action.runIn_bind, Action.runIn_object]
    dsimp only
    rw [hx]
    exact .commit fun _ h _ => .remove h

/-- A new parent gets no object a key. -/
lemma narrows_setParent (a : ObjectId) (parent : Option ObjectId) (w : World) :
    w.Narrows o D ((setParent a parent).runIn w).2 := by
  rw [setParent, Action.runIn_bind, Action.runIn_get]
  dsimp only
  split
  · exact .refl w
  · split
    · exact .refl w
    · exact .update fun _ => .of_properties rfl id rfl

end Access

namespace Operation

/-- The operations that do not read get a closed object no keys, and only a deletion deletes one. -/
lemma ensures_narrowing (op : Operation) (hop : ¬ op.IsRead) (o : ObjectId) (w : World) :
    (op.dialogue.start w).Ensures (Narrowing o fun key => op = .delete o key) w := by
  cases op with
  -- Reads are left out: what they may do depends on what was deleted since they were started.
  | get a key receiver => exact (hop (.get a key receiver)).elim
  | own a key => exact (hop (.own a key)).elim
  | set a key x =>
    exact Dialogue.ensures_map ((World.Narrows.admits o _ a key).ensures_set x w) fun _ _ _ h => h
  | delete a key =>
    apply Dialogue.narrowing_map_lift
    apply Access.narrows_delete
    rintro rfl
    rfl
  | setParent a parent => exact Dialogue.narrowing_map_lift (Access.narrows_setParent a parent w)
  | makeOrdinary parent => exact World.Narrows.allocate (Object.not_masks_of_plain rfl)
  | _ => exact (World.Narrows.admits_aside o _).ensures (by trivial) w

/-- A read gets a closed object no key, unless the key that is read was deleted since the read was started. -/
lemma IsRead.ensures_narrows {op : Operation} (hop : op.IsRead) (o : ObjectId) (w : World) :
    (op.dialogue.start w).Ensures (fun u _ u' =>
      (∀ key, op.reads w o key → (u.object o).Masks key → (w.object o).Masks key) → u.Narrows o D u') w := by
  rcases hop.exists_reading w with ⟨a, key, e, hr, hx, h⟩ | ⟨r, hr⟩
  · apply (h.narrows hx).mono
    intro u out u' hnarrows hmasks
    refine hnarrows fun ha => hmasks key ?_
    rwa [← ha]
  · rw [hr]
    exact fun _ => .refl w

end Operation

/-- What an operation guarantees for each part, with what it does to the keys of an object: unless a key was
deleted that it reads, it gets a closed object no keys. -/
structure Abides (o : ObjectId) (op : Operation) (began w : World) (out : Halt Reply) (w' : World) : Prop
    extends Guarantee op began w out w' where
  narrows : (∀ key, op.reads began o key → (w.object o).Masks key → (began.object o).Masks key) →
    w.Narrows o (fun key => op = .delete o key) w'

/-- The engine and a host that fails keep to it. -/
theorem contract_abides (o : ObjectId) : Contract (Abides o) where
  start op w := by
    have hguarantee := contract_guarantee.start op w
    by_cases hop : op.IsRead
    · exact (hguarantee.and (hop.ensures_narrows o w)).mono fun u out u' h => ⟨h.1, h.2⟩
    · exact (hguarantee.and (op.ensures_narrowing hop o w)).mono fun u out u' h => ⟨h.1, fun _ => h.2⟩
  world_extends _ _ _ _ _ h := h.chain.world_extends
  refuse op began w f := ⟨contract_guarantee.refuse op began w f, fun _ => .refl w⟩

end HostBinding
