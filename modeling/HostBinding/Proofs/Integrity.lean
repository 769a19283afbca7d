import HostBinding.Proofs.Contract
import HostBinding.Proofs.Layout

/-!
# No rule of the engine is broken

In a prototype that was built, every nested template leads to a slot. A wrapper shows a slot of such a
prototype as long as no other prototypes are brought in, whatever scripts and hosts do, so that the engine
never finds its own data inconsistent.

* `Prototype.IsBuilt.linked`: the nested templates of a built prototype lead to slots with their attributes.
* `World.Built`: all prototypes in use were built.
* `Guarantee.built`, `Run.built`: every part of an operation keeps it that way, and so does every run.
* `Run.unbroken`: no operation ends with a broken rule, but for a build of a table that binds a key twice.
-/

namespace HostBinding

variable {p : Prototype} {w w' : World} {m : Machine} {es : List Event} {limit : Option UInt64}

/-! ## Prototypes that were built -/

/-- Whether a prototype is the result of a build, of some definition in some world. -/
def Prototype.IsBuilt (p : Prototype) : Prop := ∃ (d : Definition) (a : Attributes) (w w' : World),
  (d.build a).runIn w = (.ok p, w')

/-- The nested templates of a built prototype lead to slots, which have their attributes. -/
lemma Prototype.IsBuilt.linked (h : p.IsBuilt) : p.Linked := by
  obtain ⟨d, a, w, w', h⟩ := h
  intro j hj key t offset ht hc
  have hslot : p.slots[j]? = some (p.slot j hj) := Array.getElem?_eq_getElem hj
  obtain ⟨path, m, i, e, content, hm, rfl, he, rfl, rfl, hpres⟩ := Definition.exists_of_find? h hslot ht
  obtain rfl : content = .nested offset := hc
  match e, hpres with
  | .leaf _ _ (.method _ _), ⟨h, _⟩ => cases h
  | .nested key b hs es, ⟨offset', hlt, h, hl⟩ =>
    cases h
    -- The slot that is reached is that of the namespace which the entry opens.
    have hm' : (d.root a).at? (path ++ [i]) = some ⟨b, hs, es⟩ :=
      (Definition.Node.at?_concat hm).trans (Definition.Node.child?_of_nested he)
    obtain ⟨s, hs', hattributes, -⟩ := Definition.slot_of_build h hm'
    refine ⟨_, hl, ?_⟩
    rw [Array.getElem?_eq_getElem hlt] at hs'
    cases hs'
    exact hattributes

/-- All prototypes in use were built. -/
def World.Built (w : World) : Prop := ∀ p ∈ w.inUse, p.IsBuilt

/-- Prototypes that were built are linked. -/
lemma World.Built.linked (h : w.Built) : w.Linked := fun p hp => (h p hp).linked

/-- What an operation may bring into use it was given, or it was in use when the operation was started. -/
lemma Operation.uses_subset (op : Operation) (began : World) : op.uses began ⊆ op.brings ∪ began.inUse := by
  cases op with
  | global name => exact fun p hp => .inr (.inr hp)
  | _ => exact Set.subset_union_left

/-- Where an operation is given prototypes that were built, it uses no others. -/
lemma World.Built.uses {op : Operation} (h : w.Built) (hop : ∀ p ∈ op.brings, p.IsBuilt) :
    ∀ p ∈ op.uses w, p.IsBuilt :=
  fun p hp => (op.uses_subset w hp).elim (hop p) (h p)

/-- Where only prototypes are brought in that were built, every part of an operation keeps all of them
built. -/
lemma Guarantee.built {op : Operation} {began : World} {out : Halt Reply}
    (hop : ∀ p ∈ op.brings, p.IsBuilt) (hg : Guarantee op began w out w') (hb : began.Built)
    (hw : w.Built) : w'.Built := by
  intro p hp
  rcases hg.chain.inUse_subset hp with hp | hp
  · exact hw p hp
  · exact hb.uses hop p hp

/-! ## Runs -/

/-- A fresh machine has only built prototypes, since it has none. -/
lemma World.built_fresh (limit : Option UInt64) : (Machine.fresh limit).world.Built := by
  rintro p (⟨o, e, he, -⟩ | ⟨r, hr, -⟩)
  · rw [World.object_of_not_lt (Nat.not_lt_zero _)] at he
    cases he
  · exact absurd hr (Array.not_mem_empty r)

/-- Where only prototypes are brought in that were built, all prototypes in use were built, and have been
since the operations were started that wait. -/
lemma Run.built (h : Run (.fresh limit) es m) (hes : ∀ e ∈ es, ∀ p ∈ e.op.brings, p.IsBuilt) :
    m.Always World.Built := by
  have hinit : (Machine.fresh limit).Always World.Built :=
    ⟨World.built_fresh limit, fun _ hp => absurd hp List.not_mem_nil⟩
  exact h.always contract_guarantee (fun _ _ _ _ _ hop hg hb hw => hg.built hop hb hw) (Machine.sound_fresh limit)
    hes hinit

/-- The prototype of `Definition.fileSystem`. -/
def fileSystemPrototype : Prototype := ⟨0, ((Definition.fileSystem.root .all).slots 0).toArray⟩

/-- The world in which the prototype was built, after a function object was made for its method. -/
def fileSystemWorld : World :=
  { World.grown {} Definition.fileSystem.charge (Definition.functions Definition.fileSystem.entries) with
    prototypes := 1 }

/-- The build of the file system succeeds without a limit. -/
lemma runIn_fileSystem :
    (Definition.fileSystem.build .all).runIn {} = (.ok fileSystemPrototype, fileSystemWorld) :=
  Definition.build_eq_ok.2 ⟨by decide, by decide, rfl, rfl⟩

/-- The world with an instance of the prototype. -/
def fileSystemInstance : World :=
  ((fileSystemWorld.spend Cost.external).allocate
    { kind := .external { prototype := fileSystemPrototype, slot := 0, host := ⟨1⟩, shared := false,
                          slot_lt := by decide } }).2

/-- A prototype is built and instantiated. -/
def fileSystemEvents : List Event := [
  ⟨.build Definition.fileSystem .all, {}, .returned (.ok (.prototype fileSystemPrototype))⟩,
  ⟨.instantiate (some fileSystemPrototype) ⟨1⟩ false, fileSystemWorld,
    .returned (.ok (.value (.object ⟨1⟩)))⟩]

/-- The prototype is built and instantiated in two steps. -/
lemma run_fileSystem : Run (.fresh none) fileSystemEvents ⟨fileSystemInstance, []⟩ :=
  .cons (.build [] runIn_fileSystem) (.cons (.of_start_done rfl) (.nil _))

/-- Both steps bring only built prototypes. -/
lemma built_of_mem_fileSystemEvents {e : Event} (he : e ∈ fileSystemEvents) :
    ∀ p ∈ e.op.brings, p.IsBuilt := by
  intro p hp
  rcases List.mem_cons.1 he with rfl | he
  · exact hp.elim
  · obtain rfl := List.mem_singleton.1 he
    cases hp
    exact ⟨_, _, _, _, runIn_fileSystem⟩

/-- Where only prototypes are brought in that were built, every wrapper shows a slot that there is, and its
nested templates lead to slots. No operation ends with a broken rule of the engine, however the host answers,
but for builds of tables that bind a key twice. -/
theorem Run.unbroken (h : Run (.fresh limit) es m) (hes : ∀ e ∈ es, ∀ p ∈ e.op.brings, p.IsBuilt) :
    (∀ o e, (m.world.object o).external? = some e → e.slot < e.prototype.size ∧
      ∀ key t offset, e.view.templates.find? key = some t → t.content = .nested offset →
        ∃ child, e.prototype.child e.slot offset = .ok child) ∧
      ∀ op b, m.Ends op (.error (.breach b)) →
        ∃ d a key slot, op = .build d a ∧ b = .duplicateKey key slot := by
  have hbuilt := h.built hes
  refine ⟨fun o e hx => ⟨e.slot_lt, fun key t offset ht hc => ?_⟩, fun op b hb => ?_⟩
  · obtain ⟨child, hchild, -⟩ := hbuilt.world.linked _ (World.mem_inUse hx) _ e.slot_lt _ _ _ ht hc
    exact ⟨child, hchild⟩
  · obtain ⟨began, w, hbegan, hp⟩ := conduct_performs.ends (conduct_performs.run (Machine.sound_fresh limit) h) hbuilt hb
    have hblameless := hp.blameless hbegan.linked
    cases op with
    | build d a =>
      obtain ⟨key, slot, rfl⟩ := hblameless b rfl
      exact ⟨d, a, key, slot, rfl, rfl⟩
    | _ => exact absurd rfl (hblameless b)

/-- An instance of the prototype is fit to be read. -/
theorem fileSystem_unbroken : ∃ es m, Run (.fresh none) es m ∧
    (∃ e, (m.world.object ⟨1⟩).external? = some e ∧ e.slot < e.prototype.size) ∧
    ∀ key b, ¬ m.Ends (.get ⟨1⟩ key (.object ⟨1⟩)) (.error (.breach b)) := by
  obtain ⟨hslots, hends⟩ := run_fileSystem.unbroken fun _ he => built_of_mem_fileSystemEvents he
  refine ⟨_, _, run_fileSystem, ⟨_, rfl, (hslots ⟨1⟩ _ rfl).1⟩, fun key b hb => ?_⟩
  obtain ⟨d, a, key', slot, hop, -⟩ := hends _ b hb
  cases hop

end HostBinding
