import HostBinding.Proofs.Integrity

/-!
# Attributes are those of the definition

A property of a wrapper that stands for an entry of the definition has the attributes of the entry, whether
it was kept on first read, written since, or is only described. Only where the key was deleted do other
attributes come in. A key whose entry is not configurable is never deleted.

* `Property.Fits`, `External.Respects`, `World.Conforms`: properties that are true to the templates.
* `Object.Edit.conforms`, `Change.conforms`, `Chain.conforms`: edits, and with them all changes, keep them so.
* `World.Regular`, `Run.regular`: what runs keep.
* `Run.attributes_faithful`: the main result.
-/

namespace HostBinding

variable {T : ObjectId → Key → Prop} {U : Set Prototype} {w w' : World} {o : ObjectId} {key : Key}
  {e : External} {t : Template}

/-! ## Properties that are true to their templates -/

/-- A property has the attributes of a template. If it cannot have been written, it was made from the
template. -/
structure Property.Fits (p : Property) (t : Template) : Prop where
  attributes : p.attributes = t.attributes
  deferred : t.attributes.writable = false → t.content.isDeferred = true

/-- What a wrapper makes of the template under a key: it is deleted only if that is allowed, and while it is
not, an own property fits it. -/
structure External.Respects (e : External) (properties : OrderedMap Key Property) (key : Key)
    (t : Template) : Prop where
  kept : t.attributes.configurable = false → key ∉ e.deleted
  fits : key ∉ e.deleted → ∀ p, properties.find? key = some p → p.Fits t

/-- A wrapper respects all of its templates. -/
def Object.Conforms (x : Object) : Prop :=
  ∀ e key t, x.external? = some e → e.view.templates.find? key = some t → e.Respects x.properties key t

/-- All wrappers respect all of their templates. -/
def World.Conforms (w : World) : Prop := ∀ o, (w.object o).Conforms

namespace External

/-- A key may be deleted where its template says so. -/
lemma Respects.configurable_search {properties : OrderedMap Key Property}
    (h : e.Respects properties key t) (ht : e.view.templates.find? key = some t) (hd : key ∉ e.deleted) :
    (search properties e key).configurable = t.attributes.configurable := by
  cases hk : properties.find? key with
  | some p =>
    have hp := h.fits hd p hk
    rw [search_own e hk, ← hp.attributes]
    rfl
  | none =>
    rw [search_template hk hd ht]
    rfl

/-- In a linked prototype, what a template becomes has its attributes. -/
lemma attributesOf_of_linked (hl : e.prototype.Linked) (ht : e.view.templates.find? key = some t) :
    e.attributesOf t = t.attributes := by
  obtain ⟨a, c⟩ := t
  cases c with
  | value v => rfl
  | dynamic f magic => rfl
  | nested offset =>
    obtain ⟨child, hc, ha⟩ := hl e.slot e.slot_lt key _ offset ht rfl
    rw [attributesOf_nested hc]
    exact ha

end External

namespace Object

variable {x x' : Object}

/-- An object that is no wrapper has no templates to be true to. -/
lemma conforms_of_plain (hx : x.external? = none) : x.Conforms := by
  intro e k t he
  cases hx.symm.trans he

/-- Whether an object is true to its templates depends on its kind and its properties only. -/
lemma Conforms.congr (hx : x.Conforms) (hk : x'.kind = x.kind) (hp : x'.properties = x.properties) :
    x'.Conforms := by
  intro e k t he ht
  rw [external?, hk] at he
  rw [hp]
  exact hx e k t he ht

/-- A property that is put fits the template under its key, if there is one in use. -/
lemma Conforms.put {p : Property} (hx : x.Conforms)
    (hp : ∀ e t, x.external? = some e → e.view.templates.find? key = some t → key ∉ e.deleted → p.Fits t) :
    (x.put key p).Conforms := by
  intro e k t he ht
  have hr := hx e k t he ht
  refine ⟨hr.kept, fun hd q hq => ?_⟩
  rw [Object.put, OrderedMap.find?_insert] at hq
  split at hq
  · rename_i hkey
    subst hkey
    cases hq
    exact hp e t he ht hd
  · exact hr.fits hd q hq

/-- Where a key may be deleted, templates that must stay do. -/
lemma Conforms.without (hx : x.Conforms) (he : x.external? = some e)
    (hc : (External.search x.properties e key).configurable = true) :
    (External.without x e key).Conforms := by
  rintro e' k t ⟨⟩ ht
  have hpers : e.Persists (if e.view.templates.contains key then e.delete key else e) := by
    split
    · exact .delete e key
    · exact .refl e
  rw [hpers.view] at ht
  have hr := hx e k t he ht
  refine ⟨fun ha hd => ?_, fun hd p hp => ?_⟩
  · have hk := hr.kept ha
    have hkey : k = key := by
      split at hd
      · exact (External.mem_deleted_delete.1 hd).resolve_left hk
      · exact absurd hd hk
    subst hkey
    rw [hr.configurable_search ht hk, ha] at hc
    cases hc
  · have hp' : (x.properties.erase key).find? k = some p := hp
    rw [OrderedMap.find?_erase] at hp'
    split at hp'
    · cases hp'
    · exact hr.fits (fun hd' => hd (hpers.deleted k hd')) p hp'

/-- An edit respects the templates. -/
lemma Edit.conforms (h : x.Edit key x') (hl : ∀ e, x.external? = some e → e.prototype.Linked)
    (hx : x.Conforms) : x'.Conforms := by
  cases h with
  | keep v he hk ht hd =>
    apply hx.put
    intro e' t' he' ht' _
    cases he.symm.trans he'
    cases ht.symm.trans ht'
    exact ⟨External.attributesOf_of_linked (hl _ he) ht, fun _ => hd⟩
  | cover v he hk hn ht hw =>
    apply hx.put
    intro e' t' he' ht' _
    cases he.symm.trans he'
    cases ht.symm.trans ht'
    -- What is written over was writable, so nothing is claimed of its value.
    refine ⟨rfl, fun hw' => ?_⟩
    rw [hw] at hw'
    cases hw'
  | assign v hk hw =>
    apply hx.put
    intro e' t' he' ht' hd
    have hp := (hx e' key t' he' ht').fits hd _ hk
    exact ⟨hp.attributes, hp.deferred⟩
  | define v hs hd =>
    rw [eq_put_of_define hd]
    apply hx.put
    intro e' t' he' ht' hd'
    -- A new key is one that was deleted or has no template, and then nothing is claimed.
    rcases hs e' he' with h | h
    · exact absurd h hd'
    · cases h.symm.trans ht'
  | erase he hc => exact hx.without he hc
  | remove he hk hc => exact conforms_of_plain (x := { x with properties := x.properties.erase key }) he

end Object

/-! ## Changes -/

/-- Where prototypes are linked, a change keeps all wrappers true to their templates. -/
lemma Change.conforms (h : Change T U w w') (hl : w.Linked) (hc : w.Conforms) : w'.Conforms := by
  intro o
  by_cases ho : o.index < w.objects.size
  · rcases h.object ho with ⟨k, -, hx⟩ | ⟨hk, hp⟩
    · exact hx.conforms (fun e he => hl _ (World.mem_inUse he)) (hc o)
    · exact (hc o).congr hk hp
  -- A new wrapper has neither properties nor deleted keys.
  · obtain ⟨hp, hd⟩ := h.object_new ho
    intro e k t he ht
    refine ⟨fun _ => ?_, fun _ p hk => ?_⟩
    · rw [(hd e he).1]
      exact List.not_mem_nil
    · rw [hp] at hk
      cases hk

/-- Changes in a row leave wrappers true to their templates, if the prototypes are linked. -/
lemma Chain.conforms (h : Chain T U w w') (hl : ∀ p ∈ w.inUse ∪ U, p.Linked) (hc : w.Conforms) :
    w'.Conforms := by
  induction h with
  | refl => exact hc
  | tail hw h ih =>
    have hlinked := fun p hp => hl p (Chain.inUse_subset hw hp)
    exact h.conforms hlinked ih

/-! ## Runs -/

/-- All prototypes in use were built, and all wrappers are true to their templates. -/
structure World.Regular (w : World) : Prop where
  built : w.Built
  conforms : w.Conforms

variable {m m' : Machine} {es : List Event} {limit : Option UInt64}

section

variable {op : Operation} {began : World} {out : Halt Reply} (hop : ∀ p ∈ op.brings, p.IsBuilt)
  (hg : Guarantee op began w out w') (hb : began.Regular) (hw : w.Regular)

include hop hb hw

/-- All prototypes are linked that are in use, or that an operation brings into use. -/
lemma Operation.uses_linked : ∀ p ∈ w.inUse ∪ op.uses began, p.Linked := by
  rintro p (hp | hp)
  · exact hw.built.linked p hp
  · exact (hb.built.uses hop p hp).linked

include hg

/-- An operation leaves a regular world regular. -/
lemma Guarantee.regular : w'.Regular :=
  ⟨hg.built hop hb.built hw.built, hg.chain.conforms (Operation.uses_linked hop hb hw) hw.conforms⟩

end

/-- A fresh machine is regular, since nothing is in use. -/
lemma Machine.regular_fresh (limit : Option UInt64) : (Machine.fresh limit).Always World.Regular := by
  refine ⟨⟨World.built_fresh limit, fun o => ?_⟩, fun _ hp => absurd hp List.not_mem_nil⟩
  rw [World.object_of_not_lt (Nat.not_lt_zero _)]
  exact Object.conforms_of_plain rfl

/-- Where only prototypes are brought in that were built, a run keeps the world regular. -/
lemma Run.regular (hm : m.Sound Guarantee) (hr : m.Always World.Regular) (h : Run m es m')
    (hes : ∀ e ∈ es, ∀ p ∈ e.op.brings, p.IsBuilt) : m'.Always World.Regular :=
  h.always contract_guarantee (fun _ _ _ _ _ hop hg hb hw => Guarantee.regular hop hg hb hw) hm hes hr

/-- An entry of the definition from which a wrapper was made, in the namespace that the wrapper shows. -/
def External.HasEntry (e : External) (entry : Definition.Entry) : Prop :=
  ∃ (d : Definition) (a : Attributes) (w w' : World) (path : List Nat) (n : Definition.Node),
    (d.build a).runIn w = (.ok e.prototype, w') ∧ (d.root a).at? path = some n ∧
      (d.root a).index path = e.slot ∧ entry ∈ n.entries

/-- An entry has a template, with its attributes. -/
lemma External.HasEntry.exists_template {entry : Definition.Entry} (h : e.HasEntry entry) :
    ∃ t, e.view.templates.find? entry.key = some t ∧ t.attributes = entry.attributes := by
  obtain ⟨d, a, w, w', path, n, hb, hn, hi, hentry⟩ := h
  obtain ⟨s, hs, -, -, -, htemplates⟩ := Definition.slot_of_build hb hn
  obtain ⟨i, he⟩ := List.mem_iff_getElem?.1 hentry
  obtain ⟨content, ht, -⟩ := htemplates i entry he
  have hview : e.prototype.slots[e.slot]? = some e.view := Array.getElem?_eq_getElem e.slot_lt
  rw [hi, hview] at hs
  cases hs
  exact ⟨_, ht, rfl⟩

/-- Every template of a wrapper is that of an entry. -/
lemma External.exists_entry (hb : e.prototype.IsBuilt) (ht : e.view.templates.find? key = some t) :
    ∃ entry, e.HasEntry entry ∧ entry.key = key := by
  obtain ⟨d, a, w, w', hb⟩ := hb
  have hview : e.prototype.slots[e.slot]? = some e.view := Array.getElem?_eq_getElem e.slot_lt
  obtain ⟨path, n, i, entry, content, hn, hi, hentry, hkey, -⟩ := Definition.exists_of_find? hb hview ht
  exact ⟨entry, ⟨d, a, w, w', path, n, hb, hn, hi, List.mem_of_getElem? hentry⟩, hkey⟩

/-- When a description of a templated key ends, it has the attributes of the template, unless the template is
deleted by then. -/
lemma Step.own_attributes {began : World} {q : Option Property} (hm : m.Sound Guarantee)
    (hr : m.Always World.Regular)
    (h : Step m ⟨.own o key, began, .returned (.ok (.property q))⟩ m')
    (hx : (m.world.object o).external? = some e) (ht : e.view.templates.find? key = some t)
    (hd : ∀ e', (m'.world.object o).external? = some e' → key ∉ e'.deleted) :
    ∃ p, q = some p ∧ p.attributes = t.attributes := by
  obtain ⟨hg, -⟩ := contract_guarantee.step hm h
  have hown : ∀ p ∈ (Operation.own o key).brings, p.IsBuilt := fun _ hp => hp.elim
  have hregular := Guarantee.regular hown hg (hr.step_began h) hr.world
  obtain ⟨e', hx', hpers⟩ := hg.chain.world_extends.external o e hx
  rw [← hpers.view] at ht
  obtain ⟨p, rfl, hp⟩ := (hg.fact q rfl).1 e' t hx' ht (hd e' hx')
  refine ⟨p, rfl, ?_⟩
  -- The description is the own property, or was read off the template.
  rcases hp with hp | hp
  · exact ((hregular.conforms o e' _ t hx' ht).fits (hd e' hx') p hp).attributes
  · exact hp

/-- Every template of a wrapper is that of an entry of the definition. The property under the key of an entry
has the attributes of the entry as long as the key was not deleted, and so has every description of it. Where
they do not allow it, the key is never deleted. -/
theorem Run.attributes_faithful (h : Run (.fresh limit) es m)
    (hes : ∀ e ∈ es, ∀ p ∈ e.op.brings, p.IsBuilt) (hx : (m.world.object o).external? = some e) :
    (∀ key t, e.view.templates.find? key = some t → ∃ entry, e.HasEntry entry ∧ entry.key = key) ∧
    ∀ entry, e.HasEntry entry →
      (entry.key ∉ e.deleted → ∀ p, (m.world.object o).properties.find? entry.key = some p →
        p.attributes = entry.attributes) ∧
      (∀ began q m', Step m ⟨.own o entry.key, began, .returned (.ok (.property q))⟩ m' →
        (∀ e', (m'.world.object o).external? = some e' → entry.key ∉ e'.deleted) →
          ∃ p, q = some p ∧ p.attributes = entry.attributes) ∧
      (entry.attributes.configurable = false → entry.key ∉ e.deleted ∧
        (Access.delete o entry.key).runIn m.world = (.ok false, m.world)) := by
  have hm := contract_guarantee.run (Machine.sound_fresh limit) h
  have hregular := h.regular (Machine.sound_fresh limit) (Machine.regular_fresh limit) hes
  refine ⟨fun key t ht => External.exists_entry (hregular.world.built _ (World.mem_inUse hx)) ht,
    fun entry hentry => ?_⟩
  obtain ⟨t, ht, ha⟩ := hentry.exists_template
  have hrespects := hregular.world.conforms o e _ t hx ht
  refine ⟨fun hd p hp => ?_, fun began q m' hstep hd => ?_, fun hc => ?_⟩
  · rw [← ha]
    exact (hrespects.fits hd p hp).attributes
  · rw [← ha]
    exact hstep.own_attributes hm hregular hx ht hd
  · rw [← ha] at hc
    have hfixed := hrespects.configurable_search ht (hrespects.kept hc)
    rw [hc] at hfixed
    refine ⟨hrespects.kept hc, ?_⟩
    rw [Access.runIn_delete hx, External.runIn_erase hx, hfixed]
    rfl

/-- The first read of a namespace of the instance. -/
def openFileSystem : Event :=
  ⟨.get ⟨1⟩ (.string "fs") (.object ⟨1⟩), fileSystemInstance, .returned (.ok (.value (.object ⟨2⟩)))⟩

/-- A namespace is opened, and next to it there is a literal that is not configurable. -/
theorem fileSystem_attributes : ∃ es m, Run (.fresh none) es m ∧
    (∃ p, (m.world.object ⟨1⟩).properties.find? (.string "fs") = some p ∧ p.attributes = .all) ∧
    (Access.delete ⟨1⟩ (.string "version")).runIn m.world = (.ok false, m.world) := by
  have hopen : Step ⟨fileSystemInstance, []⟩ openFileSystem ⟨_, []⟩ := .of_start_done rfl
  have h := run_fileSystem.trans (.cons hopen (.nil _))
  have hes : ∀ ev ∈ fileSystemEvents ++ [openFileSystem], ∀ p ∈ ev.op.brings, p.IsBuilt :=
    List.forall_mem_append.2 ⟨fun _ => built_of_mem_fileSystemEvents,
      List.forall_mem_singleton.2 fun _ hp => hp.elim⟩
  obtain ⟨-, hfaithful⟩ := h.attributes_faithful (o := ⟨1⟩) hes rfl
  have hversion := hfaithful _ ⟨_, _, _, _, [], _, runIn_fileSystem, rfl, rfl, .head _⟩
  have hfs := hfaithful _ ⟨_, _, _, _, [], _, runIn_fileSystem, rfl, rfl, .tail _ (.head _)⟩
  exact ⟨_, _, h, ⟨_, rfl, hfs.1 List.not_mem_nil _ rfl⟩, (hversion.2.2 rfl).2⟩

end HostBinding
