import HostBinding.Proofs.Wrapper

/-!
# Edits of objects

The engine touches an object under one key at a time and in a few ways only: it keeps the value of a
template, covers a template, and writes, defines or removes a property. An edit says in which of these ways
and under which conditions, so what follows for an edit of one object follows for all that the engine does.

* `External.Persists`: a wrapper that is still the same, apart from more deleted keys.
* `Object.Settled`: the template under a key is out of use.
* `Object.Edit`: what the engine does to an object under a key.
* `Object.Edit.revises`: an edit leaves the other keys alone, and settles its own.
* `Property.Frozen`, `Property.Frozen.edit`: a property that can neither be written nor deleted is not edited.
-/

namespace HostBinding

variable {key : Key}

/-! ## Wrappers that stay -/

/-- The value of the own property under a key. -/
def Object.valueAt (x : Object) (key : Key) : Option Value := (x.properties.find? key).map (·.value)

/-- The value of a property that was put. -/
lemma Object.valueAt_put (x : Object) (key : Key) (p : Property) :
    (x.put key p).valueAt key = some p.value := by
  rw [valueAt, put, OrderedMap.find?_insert, if_pos rfl]
  rfl

/-- There is no value where a property was removed. -/
lemma Object.valueAt_erase (x : Object) (key : Key) :
    { x with properties := x.properties.erase key }.valueAt key = none := by
  rw [valueAt, OrderedMap.find?_erase, if_pos rfl]
  rfl

/-- A wrapper that is still the same, apart from more deleted keys. -/
structure External.Persists (e e' : External) : Prop where
  prototype : e'.prototype = e.prototype
  slot : e'.slot = e.slot
  host : e'.host = e.host
  shared : e'.shared = e.shared
  deleted : ∀ k ∈ e.deleted, k ∈ e'.deleted

/-- A template is there if the slot has it, and it is not deleted. -/
lemma External.template?_ne_none_iff {e : External} :
    e.template? key ≠ none ↔ key ∉ e.deleted ∧ e.view.templates.find? key ≠ none := by
  unfold template?
  split
  · rename_i hd
    exact iff_of_false (fun h => h rfl) fun h => h.1 hd
  · rename_i hd
    exact (and_iff_right hd).symm

namespace External.Persists

variable {e e' e'' : External}

/-- A wrapper is still the same as itself. -/
lemma refl (e : External) : e.Persists e := ⟨rfl, rfl, rfl, rfl, fun _ h => h⟩

/-- A wrapper that is the same through two stretches is so through both. -/
lemma trans (h : e.Persists e') (h' : e'.Persists e'') : e.Persists e'' where
  prototype := h'.prototype.trans h.prototype
  slot := h'.slot.trans h.slot
  host := h'.host.trans h.host
  shared := h'.shared.trans h.shared
  deleted k hk := h'.deleted k (h.deleted k hk)

/-- A wrapper that is still the same shows the same slot. -/
lemma view (h : e.Persists e') : e'.view = e.view := by
  obtain ⟨p, i, host, shared, deleted, hi⟩ := e
  obtain ⟨p', i', host', shared', deleted', hi'⟩ := e'
  obtain rfl : p' = p := h.prototype
  obtain rfl : i' = i := h.slot
  rfl

/-- No deleted template comes back. -/
lemma template?_ne_none (h : e.Persists e') (ht : e'.template? key ≠ none) : e.template? key ≠ none := by
  rw [template?_ne_none_iff, h.view] at ht
  exact template?_ne_none_iff.2 ⟨fun hd => ht.1 (h.deleted key hd), ht.2⟩

/-- A wrapper stays when a key is deleted on it. -/
lemma delete (e : External) (key : Key) : e.Persists (e.delete key) where
  prototype := e.prototype_delete key
  slot := e.slot_delete key
  host := e.host_delete key
  shared := e.shared_delete key
  deleted _ hk := mem_deleted_delete.2 (.inl hk)

end External.Persists

/-! ## Settled keys -/

/-- The template under a key, if there is one, is out of use: there is an own property, or the template is
deleted. -/
def Object.Settled (x : Object) (key : Key) : Prop :=
  x.properties.find? key ≠ none ∨
    ∀ e, x.external? = some e → key ∈ e.deleted ∨ e.view.templates.find? key = none

/-- An object that differs from another one under one key only, which is settled in it. -/
structure Object.Revises (key : Key) (x x' : Object) : Prop where
  others : ∀ k, k ≠ key → x'.properties.find? k = x.properties.find? k
  external : ∀ e, x.external? = some e → ∃ e', x'.external? = some e' ∧ e.Persists e'
  plain : x.external? = none → x'.external? = none
  settled : x'.Settled key

namespace Object

variable {x x' : Object}

/-- A key stays settled where neither its property nor the wrapper is lost. -/
lemma Settled.of_persists (h : x.Settled key)
    (hp : x'.properties.find? key = x.properties.find? key)
    (he : ∀ e', x'.external? = some e' → ∃ e, x.external? = some e ∧ e.Persists e') :
    x'.Settled key := by
  rcases h with h | h
  · left
    rwa [hp]
  · right
    intro e' he'
    obtain ⟨e, hx, hpers⟩ := he e' he'
    rw [hpers.view]
    exact (h e hx).imp_left (hpers.deleted key)

/-- A key with an own property is out of use. -/
lemma settled_put (x : Object) (key : Key) (p : Property) : (x.put key p).Settled key := by
  left
  rw [put, OrderedMap.find?_insert, if_pos rfl]
  exact Option.some_ne_none p

/-- An object that is no wrapper has no templates that could be in use. -/
lemma settled_of_plain (hx : x.external? = none) (key : Key) : x.Settled key := by
  right
  intro e he
  cases hx.symm.trans he

/-- A wrapper of a revised object was a wrapper before. -/
lemma Revises.exists_external {e' : External} (h : Revises key x x') (he' : x'.external? = some e') :
    ∃ e, x.external? = some e ∧ e.Persists e' := by
  cases hx : x.external? with
  | none =>
    rw [h.plain hx] at he'
    cases he'
  | some e =>
    obtain ⟨e₁, he₁, hp⟩ := h.external e hx
    cases he₁.symm.trans he'
    exact ⟨e, rfl, hp⟩

/-- A property that is put changes one key only. -/
lemma revises_put (x : Object) (key : Key) (p : Property) : Revises key x (x.put key p) where
  others k hk := by rw [put, OrderedMap.find?_insert, if_neg fun e => hk e.symm]
  external e he := ⟨e, he, .refl e⟩
  plain h := h
  settled := x.settled_put key p

/-- A property that is removed from an object that is no wrapper changes one key only. -/
lemma revises_erase (hx : x.external? = none) (key : Key) :
    Revises key x { x with properties := x.properties.erase key } where
  others k hk := by
    dsimp only
    rw [OrderedMap.find?_erase, if_neg fun e => hk e.symm]
  external e he := by cases hx.symm.trans he
  plain h := h
  settled := settled_of_plain (x := { x with properties := x.properties.erase key }) hx key

end Object

namespace External

variable {e : External}

/-- A key is settled when it was deleted on a wrapper. -/
lemma settled_without (x : Object) (e : External) (key : Key) : (without x e key).Settled key := by
  right
  rintro _ ⟨⟩
  by_cases hc : e.view.templates.contains key = true
  · left
    rw [if_pos hc]
    exact mem_deleted_delete.2 (.inr rfl)
  · right
    rw [if_neg hc]
    exact Option.not_isSome_iff_eq_none.1 hc

/-- A wrapper on which a key was deleted differs under this key only. -/
lemma revises_without {x : Object} (hx : x.external? = some e) (key : Key) :
    x.Revises key (without x e key) where
  others k hk := by
    show (x.properties.erase key).find? k = _
    rw [OrderedMap.find?_erase, if_neg fun h => hk h.symm]
  external e' he' := by
    cases hx.symm.trans he'
    refine ⟨_, rfl, ?_⟩
    split
    · exact .delete e key
    · exact .refl e
  plain h := by
    rw [h] at hx
    cases hx
  settled := settled_without x e key

/-- The attributes of the property that a template becomes: for a namespace those of its slot, else those of
the template. -/
def attributesOf (e : External) (t : Template) : Attributes :=
  match t.content with
  | .nested offset =>
    match e.prototype.child e.slot offset with
    | .ok ⟨i, hi⟩ => (e.prototype.slot i hi).attributes
    | .error _ => t.attributes
  | _ => t.attributes

/-- A namespace is kept under the attributes of its slot. -/
lemma attributesOf_nested {a : Attributes} {offset : Nat} {child : { i : Nat // i < e.prototype.slots.size }}
    (h : e.prototype.child e.slot offset = .ok child) :
    e.attributesOf ⟨a, .nested offset⟩ = (e.prototype.slot child.1 child.2).attributes := by
  rw [attributesOf]
  dsimp only
  rw [h]

end External

/-! ## Edits -/

namespace Object

/-- What the engine does to an object under a key. -/
inductive Edit (key : Key) (x : Object) : Object → Prop where
  /-- The value of a template is kept. The template may have been deleted while the value was made. -/
  | keep {e : External} {t : Template} (v : Value) (hx : x.external? = some e)
    (hk : x.properties.find? key = none) (ht : e.view.templates.find? key = some t)
    (hd : t.content.isDeferred = true) : Edit key x (x.put key ⟨v, e.attributesOf t⟩)
  /-- A template is covered by a property. -/
  | cover {e : External} {t : Template} (v : Value) (hx : x.external? = some e)
    (hk : x.properties.find? key = none) (hn : key ∉ e.deleted)
    (ht : e.view.templates.find? key = some t) (hw : t.attributes.writable = true) :
    Edit key x (x.put key ⟨v, t.attributes⟩)
  /-- A property gets another value. -/
  | assign {p : Property} (v : Value) (hk : x.properties.find? key = some p)
    (hw : p.attributes.writable = true) : Edit key x (x.put key { p with value := v })
  /-- A property is defined where no template is in use. -/
  | define {x' : Object} (v : Value)
    (hs : ∀ e, x.external? = some e → key ∈ e.deleted ∨ e.view.templates.find? key = none)
    (hx : x.define key (.ofValue v) = some x') : Edit key x x'
  /-- A key is deleted on a wrapper. -/
  | erase {e : External} (hx : x.external? = some e)
    (hc : (External.search x.properties e key).configurable = true) : Edit key x (External.without x e key)
  /-- A property of an object that is no wrapper is removed. -/
  | remove {p : Property} (hx : x.external? = none) (hk : x.properties.find? key = some p)
    (hc : p.attributes.configurable = true) : Edit key x { x with properties := x.properties.erase key }

variable {x x' : Object}

/-- A definition that is accepted puts the property. -/
lemma eq_put_of_define {p : Property} (h : x.define key p = some x') : x' = x.put key p := by
  unfold define at h
  split at h
  · split at h
    · exact (Option.some.inj h).symm
    · cases h
  · split at h
    · exact (Option.some.inj h).symm
    · cases h

/-- An assignment that is accepted puts a property. -/
lemma eq_put_of_assign {v : Value} (h : x.assign key v = some x') : ∃ p, x' = x.put key p := by
  unfold assign at h
  split at h
  · split at h
    · exact ⟨_, (Option.some.inj h).symm⟩
    · cases h
  · exact ⟨_, eq_put_of_define h⟩

/-- A removal that is accepted takes the property away, if there is one. -/
lemma eq_of_remove (h : x.remove key = some x') :
    x' = x ∨ x' = { x with properties := x.properties.erase key } := by
  unfold remove at h
  split at h
  · exact .inl (Option.some.inj h).symm
  · split at h
    · exact .inr (Option.some.inj h).symm
    · cases h

/-- A property that is defined with a value has it. -/
lemma valueAt_of_define {v : Value} (h : x.define key (.ofValue v) = some x') : x'.valueAt key = some v := by
  rw [eq_put_of_define h]
  exact x.valueAt_put key _

/-- An edit leaves the other keys alone, and settles its own. -/
lemma Edit.revises (h : Edit key x x') : Revises key x x' := by
  cases h with
  | keep v hx hk ht hd => exact x.revises_put key _
  | cover v hx hk hn ht hw => exact x.revises_put key _
  | assign v hk hw => exact x.revises_put key _
  | define v hs hx =>
    rw [eq_put_of_define hx]
    exact x.revises_put key _
  | erase hx hc => exact External.revises_without hx key
  | remove hx hk hc => exact revises_erase hx key

/-- An edit adds one property at most. -/
lemma Edit.size_le (h : Edit key x x') : x'.properties.size ≤ x.properties.size + 1 := by
  have herase := Nat.le_succ_of_le (OrderedMap.size_erase_le x.properties key)
  cases h with
  | keep v hx hk ht hd => exact OrderedMap.size_insert_le _ _ _
  | cover v hx hk hn ht hw => exact OrderedMap.size_insert_le _ _ _
  | assign v hk hw => exact OrderedMap.size_insert_le _ _ _
  | define v hs hx =>
    rw [eq_put_of_define hx]
    exact OrderedMap.size_insert_le _ _ _
  | erase hx hc => exact herase
  | remove hx hk hc => exact herase

end Object

/-! ## Frozen properties -/

/-- A property that can neither be written nor deleted. -/
structure Property.Frozen (p : Property) : Prop where
  writable : p.attributes.writable = false
  configurable : p.attributes.configurable = false

namespace Property.Frozen

variable {x x' : Object} {p q : Property}

/-- Only a property that is the same takes the place of a frozen one. -/
lemma replaces (hp : p.Frozen) (q : Property) : Object.replaces p q = p.same q := by
  rw [Object.replaces, hp.configurable, hp.writable, Bool.false_or, Bool.false_or, Property.same, Bool.and_left_comm,
    Bool.and_self]

/-- A frozen property is defined again only as what it is. -/
lemma define_ne_none (hp : p.Frozen) (hk : x.properties.find? key = some p) (q : Property) :
    x.define key q ≠ none ↔ p.same q = true := by
  rw [Object.define, hk, ← hp.replaces q]
  dsimp only
  split
  · rename_i h
    exact iff_of_true (Option.some_ne_none _) h
  · rename_i h
    exact iff_of_false (fun hne => hne rfl) h

/-- A frozen property takes no other value. -/
lemma assign (hp : p.Frozen) (hk : x.properties.find? key = some p) (v : Value) : x.assign key v = none := by
  rw [Object.assign, hk]
  dsimp only
  rw [hp.writable]
  rfl

/-- A frozen property is not removed. -/
lemma remove (hp : p.Frozen) (hk : x.properties.find? key = some p) : x.remove key = none := by
  rw [Object.remove, hk]
  dsimp only
  rw [hp.configurable]
  rfl

/-- No edit is one of a frozen property. -/
lemma edit (hp : p.Frozen) (hk : x.properties.find? key = some p) {k : Key} (h : x.Edit k x') :
    x'.properties.find? key = some p := by
  by_cases hkey : key = k
  · subst hkey
    cases h with
    | keep v hx hk' ht hd => cases hk.symm.trans hk'
    | cover v hx hk' hn ht hw => cases hk.symm.trans hk'
    | assign v hk' hw =>
      cases hk.symm.trans hk'
      cases hp.writable.symm.trans hw
    -- A property that is defined here has all attributes.
    | define v hs hx =>
      have hsame := (hp.define_ne_none hk _).1 (hx ▸ Option.some_ne_none _)
      have hattributes : p.attributes = .all := beq_iff_eq.1 (Bool.and_eq_true_iff.1 hsame).2
      have hw := hp.writable
      rw [hattributes] at hw
      cases hw
    | erase hx hc =>
      rw [External.search_own _ hk] at hc
      cases hp.configurable.symm.trans hc
    | remove hx hk' hc =>
      cases hk.symm.trans hk'
      cases hp.configurable.symm.trans hc
  · rw [← hk]
    exact h.revises.others key hkey

section

variable {w : World} {o : ObjectId} (hp : p.Frozen) (hk : (w.object o).properties.find? key = some p)

include hp hk

/-- Every write is refused, and changes nothing. -/
lemma start_set (v : Value) : (Access.set o key v).start w = .done (.ok false) w := by
  have hcommit : (Action.commit o ((w.object o).assign key v)).runIn w = (.ok false, w) := by
    rw [hp.assign hk, Action.runIn_commit]
  cases hx : (w.object o).external? with
  | some e =>
    rw [Access.start_set hx, External.write, Dialogue.start_external_bind hx]
    dsimp only
    rw [External.search_own e hk]
    dsimp only
    rw [Dialogue.start_lift, hcommit]
  | none =>
    rw [Access.start_set_plain hx, Access.runIn_setOwn, hk]
    dsimp only
    rw [hcommit]

/-- Every deletion is refused, and changes nothing. -/
lemma runIn_delete : (Access.delete o key).runIn w = (.ok false, w) := by
  cases hx : (w.object o).external? with
  | some e =>
    rw [Access.runIn_delete hx, External.runIn_erase hx, External.search_own e hk, External.Found.configurable,
      hp.configurable]
    rfl
  | none =>
    rw [Access.delete, Action.runIn_bind, Action.runIn_object]
    dsimp only
    rw [hx, hp.remove hk]
    rfl

end

end Property.Frozen

end HostBinding
