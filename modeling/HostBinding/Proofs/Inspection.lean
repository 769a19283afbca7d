import HostBinding.Proofs.Payment
import HostBinding.Proofs.Validity

/-!
# What inspection shows

A manifest is inspected with a table in which every name is a stand-in. What is shown is what the host will
get: the functions behind the names are all that is different, and nothing depends on them but the result of
their lookup. Resolving looks at the fields of an entry before it looks up its names, and at entries in order,
so a flaw is found in the same place, unless a name is missing before it.

* `SetupError.Previews`: what is found with stand-ins shows what is found with the functions of a host.
* `Definition.inert`: a definition with stand-ins for all its functions.
* `Manifest.toDefinition_previews`: how a manifest is resolved with stand-ins.
* `Build.meet_alike`, `Definition.runIn_build_inert`: how a definition with stand-ins is built.
* `Manifest.inspection_exact`: the main result.
-/

namespace HostBinding

variable {t : HostTable}

/-! ## Previews -/

namespace SetupError

variable {α β γ δ : Type}

/-- A preview of what can be made, up to `f`. An error is previewed unless it says that a name is unknown. -/
inductive Previews (f : α → β) : Except SetupError α → Except SetupError β → Prop
  | made (a : α) : Previews f (.ok a) (.ok (f a))
  | failed (e : SetupError) : Previews f (.error e) (.error e)
  | missed (c : Convention) (name : String) (y : Except SetupError β) :
    Previews f (.error (.unknownFunction c name)) y

namespace Previews

variable {f : α → β} {g : γ → δ} {x x' : Except SetupError α} {y y' : Except SetupError β}

/-- What can be made previews itself. -/
lemma refl (x : Except SetupError α) : Previews (fun a => a) x x := by
  cases x with
  | ok a => exact .made a
  | error e => exact .failed e

/-- Two things that are made in a row are previewed by previews of both. -/
lemma bind {k : α → Except SetupError γ} {k' : β → Except SetupError δ} (h : Previews f x y)
    (hk : ∀ a, Previews g (k a) (k' (f a))) : Previews g (x >>= k) (y >>= k') := by
  cases h with
  | made a => exact hk a
  | failed e => exact .failed e
  | missed c name y => exact .missed c name _

/-- What is made of something is previewed by what is made of its preview. -/
lemma map {i : α → γ} {j : β → δ} (h : Previews f x y) (hij : ∀ a, j (f a) = g (i a)) :
    Previews g (x.map i) (y.map j) := by
  cases h with
  | made a =>
    show Previews g (.ok (i a)) (.ok (j (f a)))
    rw [hij]
    exact .made _
  | failed e => exact .failed e
  | missed c name y => exact .missed c name _

/-- What is tested before does not depend on the table. -/
lemma ite {c : Prop} [Decidable c] (h : Previews f x y) (h' : Previews f x' y') :
    Previews f (if c then x else x') (if c then y else y') := by
  split
  · exact h
  · exact h'

end Previews

end SetupError

open SetupError

/-! ## Stand-ins -/

/-- A function with a stand-in for its body. -/
def Function.inert (f : Function) : Function := { f with body := .placeholder }

/-- Stand-ins for hooks. -/
def Hooks.inert (h : Hooks) : Hooks :=
  ⟨h.catchAll.map fun _ => .placeholder, h.enumerator.map fun _ => .placeholder⟩

/-- A template with a stand-in for its function. -/
def Template.inert : Template → Template
  | ⟨a, .dynamic _ magic⟩ => ⟨a, .dynamic .placeholder magic⟩
  | ⟨a, c⟩ => ⟨a, c⟩

namespace Definition

/-- A leaf with a stand-in for its function. -/
def Leaf.inert : Leaf → Leaf
  | method _ magic => .method .placeholder magic
  | literal text => .literal text
  | dynamic _ magic => .dynamic .placeholder magic

mutual

/-- An entry with stand-ins for all its functions. -/
def Entry.inert : Entry → Entry
  | .leaf k a c => .leaf k a c.inert
  | .nested k a h es => .nested k a h.inert (inertAll es)

/-- Some entries with stand-ins for all their functions. -/
def inertAll : List Entry → List Entry
  | [] => []
  | e :: es => e.inert :: inertAll es

end

/-- A definition with stand-ins for all its functions. -/
def inert (d : Definition) : Definition := ⟨inertAll d.entries, d.hooks.inert⟩

/-- A stand-in has the attributes of the leaf. -/
@[simp] lemma Leaf.attributes_inert (c : Leaf) : c.inert.attributes = c.attributes := by
  cases c
  all_goals rfl

/-- A stand-in costs as much as the leaf. -/
@[simp] lemma Leaf.cost_inert (c : Leaf) : c.inert.cost = c.cost := by
  cases c
  all_goals rfl

/-- A stand-in has the key of the entry. -/
@[simp] lemma Entry.key_inert (e : Entry) : e.inert.key = e.key := by
  cases e
  all_goals rfl

end Definition

/-! ## Resolving with stand-ins -/

namespace HostTable

/-- Every name of a function is known among the stand-ins. -/
lemma find_previews (t : HostTable) (c : Convention) (name : String) :
    Previews (fun _ => .placeholder) (t.find c name) (standIns.find c name) := by
  rw [find]
  split
  · exact .made _
  · split
    · exact .made HostFunction.placeholder
    · exact .missed c name _

/-- A name that may be left out is known among the stand-ins, or left out there, too. -/
lemma find?_previews (t : HostTable) (c : Convention) (name : Option String) :
    Previews (Option.map fun _ => .placeholder) (t.find? c name) (standIns.find? c name) := by
  cases name with
  | none => exact .made none
  | some name => exact (t.find_previews c name).map fun _ => rfl

end HostTable

namespace Manifest

/-- Hooks are previewed by stand-ins. -/
lemma hooks_previews (t : HostTable) (c n : Option String) :
    Previews Hooks.inert (hooks t c n) (hooks .standIns c n) :=
  (t.find?_previews .catchAll c).bind fun _ => (t.find?_previews .enumerator n).bind fun _ => .made _

/-- A method is previewed by one with a stand-in for its function. -/
lemma Entry.methodLeaf_previews (t : HostTable) (e : Entry) :
    Previews Definition.Leaf.inert (e.methodLeaf t) (e.methodLeaf .standIns) := by
  rw [methodLeaf, methodLeaf]
  refine .ite (.failed _) ?_
  split
  · exact (t.find_previews .method _).map fun _ => rfl
  · exact .failed _

/-- A property is previewed by one with a stand-in for its function, if it has any. -/
lemma Entry.propertyLeaf_previews (t : HostTable) (e : Entry) :
    Previews Definition.Leaf.inert (e.propertyLeaf t) (e.propertyLeaf .standIns) := by
  rw [propertyLeaf, propertyLeaf]
  refine .ite (.failed _) (.ite (.failed _) ?_)
  split
  · exact .made (Definition.Leaf.literal _)
  · exact (t.find_previews .handler _).map fun _ => rfl
  · exact .failed _

/-- A leaf gets the same attributes with a stand-in. -/
lemma Entry.leaf_previews {e : Entry} (key : Key) {x y : Except SetupError Definition.Leaf}
    (h : Previews Definition.Leaf.inert x y) :
    Previews Definition.Entry.inert
      (x >>= fun c => .ok (.leaf key (e.attributes c.attributes) c))
      (y >>= fun c => .ok (.leaf key (e.attributes c.attributes) c)) := by
  refine h.bind fun c => ?_
  rw [Definition.Leaf.attributes_inert]
  exact .made _

/-- An entry is previewed by one with stand-ins, if those in it are. -/
lemma resolve_previews (t : HostTable) {e : Entry}
    (he : Previews Definition.inertAll (resolveAll t e.entries) (resolveAll .standIns e.entries)) :
    Previews Definition.Entry.inert (resolve t e) (resolve .standIns e) := by
  rw [resolve_eq, resolve_eq]
  refine (Previews.refl e.key).bind fun key => ?_
  cases e.kind with
  | method => exact Entry.leaf_previews key (e.methodLeaf_previews t)
  | property => exact Entry.leaf_previews key (e.propertyLeaf_previews t)
  | object => exact .ite (.failed _) (he.bind fun _ => (hooks_previews t _ _).bind fun _ => .made _)

/-- Entries are previewed by entries with stand-ins. -/
lemma resolveAll_previews (t : HostTable) (es : List Entry) :
    Previews Definition.inertAll (resolveAll t es) (resolveAll .standIns es) := by
  induction es using levels with
  | nil => exact .made []
  | cons e es he hes => exact (resolve_previews t he).bind fun _ => hes.bind fun _ => .made (_ :: _)

/-- With stand-ins a manifest is resolved to the same definition but for its functions, and it has the same
flaws, unless a name is unknown. -/
lemma toDefinition_previews (t : HostTable) (m : Manifest) :
    Previews Definition.inert (m.toDefinition t) (m.toDefinition .standIns) :=
  (resolveAll_previews t m.entries).bind fun _ => (hooks_previews t _ _).bind fun _ => .made _

end Manifest

/-! ## Demands with stand-ins -/

namespace Build

variable {w w' v v' : World} {f : Fault}

/-- A demand with stand-ins for the functions that it makes. -/
def Demand.inert : Demand → Demand
  | fresh key slot taken => .fresh key slot taken
  | room n made => .room n (made.map Function.inert)

/-- With the same budget, demands with stand-ins are met as far, and what they charge is the same. -/
lemma meet_alike (xs : List Demand) (hb : v.budget = w.budget) :
    (meet (xs.map Demand.inert) v).1 = (meet xs w).1 ∧
      (meet (xs.map Demand.inert) v).2.budget = (meet xs w).2.budget := by
  induction xs generalizing v w with
  | nil => exact ⟨rfl, hb⟩
  | cons x xs ih =>
    have hmet : x.inert.met v = x.met w := by
      cases x with
      | fresh key slot taken => rfl
      | room n made =>
        show v.budget.allows n = w.budget.allows n
        rw [hb]
    have hfault : x.inert.fault = x.fault := by
      cases x
      all_goals rfl
    have hbytes : x.inert.bytes = x.bytes := by
      cases x
      all_goals rfl
    rw [List.map_cons, meet, meet, hmet, hfault]
    split
    · apply ih
      show { v.budget with used := v.budget.used + x.inert.bytes } =
        { w.budget with used := w.budget.used + x.bytes }
      rw [hb, hbytes]
    · exact ⟨rfl, hb⟩

end Build

namespace Definition

open Build

/-- What holds of no entries, of a leaf and some more if it holds of these, and of a namespace and some more if
it holds of its entries and of these, holds of all entries. -/
lemma levels {P : List Entry → Prop} (nil : P []) (leaf : ∀ k a c es, P es → P (.leaf k a c :: es))
    (nested : ∀ k a h inner es, P inner → P es → P (.nested k a h inner :: es)) : ∀ es, P es
  | [] => nil
  | .leaf k a c :: es => leaf k a c es (levels nil leaf nested es)
  | .nested k a h inner :: es =>
    nested k a h inner es (levels nil leaf nested inner) (levels nil leaf nested es)

/-- Stand-ins have the keys of the entries. -/
@[simp] lemma keys_inertAll (es : List Entry) : (inertAll es).map Entry.key = es.map Entry.key := by
  induction es with
  | nil => rfl
  | cons e es ih => rw [inertAll, List.map_cons, List.map_cons, e.key_inert, ih]

/-- Stand-ins have as many tables in them as the entries. -/
@[simp] lemma nestedCount_inertAll (es : List Entry) : nestedCount (inertAll es) = nestedCount es := by
  induction es using levels with
  | nil => rfl
  | leaf k a c es ih => simp only [inertAll, Entry.inert, nestedCount, Entry.slotCount, ih]
  | nested k a h inner es hinner ih =>
    simp only [inertAll, Entry.inert, nestedCount, Entry.slotCount, hinner, ih]

/-- A stand-in needs as many slots as the entry. -/
@[simp] lemma slotCount_inert (e : Entry) : e.inert.slotCount = e.slotCount := by
  cases e with
  | leaf k a c => rfl
  | nested k a h es => rw [Entry.inert, Entry.slotCount, Entry.slotCount, nestedCount_inertAll]

/-- Stand-ins cost as much as the entries. -/
@[simp] lemma entriesCost_inertAll (es : List Entry) : entriesCost (inertAll es) = entriesCost es := by
  induction es using levels with
  | nil => rfl
  | leaf k a c es ih => simp only [inertAll, Entry.inert, entriesCost, Entry.cost, Leaf.cost_inert, ih]
  | nested k a h inner es hinner ih =>
    simp only [inertAll, Entry.inert, entriesCost, Entry.cost, hinner, ih]

/-- Stand-ins make as many functions as the entries. -/
@[simp] lemma length_functions_inertAll (es : List Entry) :
    (functions (inertAll es)).length = (functions es).length := by
  induction es using levels with
  | nil => rfl
  | leaf k a c es ih =>
    cases c
    all_goals simp only [inertAll, Entry.inert, Leaf.inert, functions, Entry.functions, List.length_append, ih,
      List.length_cons, List.length_nil]
  | nested k a h inner es hinner ih =>
    simp only [inertAll, Entry.inert, functions, Entry.functions, List.length_append, hinner, ih]

/-- No table in the stand-ins binds a key twice if none in the entries does. -/
lemma allDistinct_inertAll (es : List Entry) : AllDistinct (inertAll es) ↔ AllDistinct es := by
  induction es using levels with
  | nil => rfl
  | leaf k a c es ih => simp only [inertAll, Entry.inert, AllDistinct, Entry.Distinct, ih]
  | nested k a h inner es hinner ih =>
    simp only [inertAll, Entry.inert, AllDistinct, Entry.Distinct, keys_inertAll, hinner, ih]

variable {d : Definition} {a : Attributes} {w w' : World} {f : Fault} {p : Prototype}

/-- No table of the stand-in binds a key twice if none of the definition does. -/
lemma distinct_inert : d.inert.Distinct ↔ d.Distinct := by
  rw [Distinct, inert, keys_inertAll, allDistinct_inertAll]
  rfl

/-- A build of the stand-in charges as much as one of the definition. -/
lemma charge_inert : d.inert.charge = d.charge := by
  rw [charge, charge, slotCount, slotCount, inert, nestedCount_inertAll, entriesCost_inertAll]

/-- Stand-ins make the demands of the entries, with stand-ins for the functions. -/
lemma levelDemands_inertAll (es : List Entry) : ∀ slot before taken,
    levelDemands slot before taken (inertAll es) = (levelDemands slot before taken es).map Demand.inert := by
  induction es using levels with
  | nil => exact fun _ _ _ => rfl
  | leaf k a c es ih =>
    intro slot before taken
    have hc : c.inert.demands k = (c.demands k).map Demand.inert := by
      cases c
      all_goals rfl
    simp only [inertAll, Entry.inert, levelDemands, Entry.demands, Entry.slotCount, Entry.key, ih, hc,
      List.map_append, List.map_cons, Demand.inert, List.map_nil]
  | nested k a h inner es hinner ih =>
    intro slot before taken
    simp only [inertAll, Entry.inert, levelDemands, Entry.demands, Entry.slotCount, Entry.key,
      nestedCount_inertAll, hinner, ih, List.map_append, List.map_cons, Demand.inert, List.map_nil]

/-- The stand-in makes the demands of the definition, with stand-ins for the functions. -/
lemma demands_inert : d.inert.demands = d.demands.map Demand.inert := by
  rw [demands, demands, slotCount, slotCount, inert, nestedCount_inertAll, levelDemands_inertAll]
  rfl

end Definition

/-! ## Prototypes with stand-ins -/

/-- A slot with stand-ins for the functions of another one. -/
structure Slot.StandsIn (s s' : Slot) : Prop where
  templates : s'.templates.entries = s.templates.entries.map fun x => (x.1, x.2.inert)
  attributes : s'.attributes = s.attributes
  hooks : s'.hooks = s.hooks.inert

/-- Two slots have the same keys in the same order, with the same attributes, and the same hooks are there. -/
structure Slot.LooksLike (s s' : Slot) : Prop where
  keys : s'.templates.keys = s.templates.keys
  flags : (s'.templates.entries.map fun x => x.2.attributes) = s.templates.entries.map fun x => x.2.attributes
  attributes : s'.attributes = s.attributes
  catchAll : s'.hooks.catchAll.isSome = s.hooks.catchAll.isSome
  enumerator : s'.hooks.enumerator.isSome = s.hooks.enumerator.isSome

/-- Two prototypes have the same text, and as many slots, which look alike. -/
structure Prototype.LooksLike (p p' : Prototype) : Prop where
  layout : p'.layout = p.layout
  size : p'.size = p.size
  slots : List.Forall₂ Slot.LooksLike p.slots.toList p'.slots.toList

namespace Slot.StandsIn

variable {s s' : Slot} {l l' : List Slot}

/-- A slot with stand-ins looks like the slot. -/
lemma looksLike (h : s.StandsIn s') : s.LooksLike s' := by
  obtain ⟨ht, ha, hh⟩ := h
  refine ⟨?_, ?_, ha, ?_, ?_⟩
  · rw [OrderedMap.keys, ht, List.map_map]
    rfl
  · rw [ht, List.map_map]
    refine List.map_congr_left fun x _ => ?_
    obtain ⟨k, a, c⟩ := x
    cases c
    all_goals rfl
  · rw [hh, Hooks.inert, Option.isSome_map]
  · rw [hh, Hooks.inert, Option.isSome_map]

/-- A slot with stand-ins has the text of the slot. -/
lemma slotLines_eq (h : s.StandsIn s') (i : Nat) : Prototype.slotLines s' i = Prototype.slotLines s i := by
  have hlooks := h.looksLike
  have hlines : s'.templates.entries.map (Prototype.templateLine i) =
      s.templates.entries.map (Prototype.templateLine i) := by
    rw [h.templates, List.map_map]
    refine List.map_congr_left fun x _ => ?_
    obtain ⟨k, a, c⟩ := x
    cases c
    all_goals rfl
  rw [Prototype.slotLines, Prototype.slotLines, hlooks.attributes, hlooks.catchAll, hlooks.enumerator, hlines]

/-- Slots with stand-ins have the text of the slots. -/
lemma lines_eq (h : List.Forall₂ StandsIn l l') (n : Nat) :
    ((l'.zipIdx n).map fun e => Prototype.slotLines e.1 e.2) =
      (l.zipIdx n).map fun e => Prototype.slotLines e.1 e.2 := by
  induction h generalizing n with
  | nil => rfl
  | cons hs _ ih => rw [List.zipIdx_cons, List.zipIdx_cons, List.map_cons, List.map_cons, hs.slotLines_eq, ih]

/-- A prototype of slots with stand-ins looks like the prototype of the slots. -/
lemma prototype_looksLike (h : List.Forall₂ StandsIn l l') (n : Nat) :
    Prototype.LooksLike ⟨n, l.toArray⟩ ⟨n, l'.toArray⟩ where
  layout := by
    rw [Prototype.layout, Prototype.layout, Prototype.size, Prototype.size, List.size_toArray,
      List.size_toArray, h.length_eq, lines_eq h]
  size := h.length_eq.symm
  slots := h.imp fun _ _ => looksLike

end Slot.StandsIn

namespace Definition

/-- The templates of stand-ins are those of the entries, with stand-ins for the functions. -/
lemma templates_inertAll (es : List Entry) : ∀ id before,
    templates id before (inertAll es) = (templates id before es).map fun x => (x.1, x.2.inert) := by
  induction es with
  | nil => exact fun _ _ => rfl
  | cons e es ih =>
    intro id before
    have hlength : e.inert.functions.length = e.functions.length := by
      have h := length_functions_inertAll [e]
      simpa only [inertAll, functions, List.append_nil] using h
    have hcontent : (⟨e.inert.attributes, e.inert.content id before⟩ : Template) =
        Template.inert ⟨e.attributes, e.content id before⟩ := by
      rcases e with ⟨k, a, _ | _ | _⟩ | ⟨k, a, h, es⟩
      all_goals rfl
    rw [inertAll, templates, templates, ih, hlength, hcontent, e.key_inert, slotCount_inert]
    rfl

/-- The slot of a table of stand-ins stands in for the slot of the table. -/
lemma slot_standsIn {es : List Entry} (hd : (es.map Entry.key).Nodup) (id : Nat) (a : Attributes) (h : Hooks) :
    Slot.StandsIn ⟨.ofList (templates id 0 es), a, h⟩ ⟨.ofList (templates id 0 (inertAll es)), a, h.inert⟩ where
  templates := by
    have hkeys : ((templates id 0 es).map Prod.fst).Nodup := by
      rwa [keys_templates]
    have hkeys' : ((templates id 0 (inertAll es)).map Prod.fst).Nodup := by
      rwa [keys_templates, keys_inertAll]
    rw [OrderedMap.entries_ofList hkeys, OrderedMap.entries_ofList hkeys', templates_inertAll]
  attributes := rfl
  hooks := rfl

/-- The slots below stand-ins stand in for those below the entries. -/
lemma slots_standIn (es : List Entry) (hd : AllDistinct es) : ∀ id,
    List.Forall₂ Slot.StandsIn (slots id es) (slots id (inertAll es)) := by
  induction es using levels with
  | nil => exact fun _ => .nil
  | leaf k a c es ih =>
    intro id
    have h := length_functions_inertAll [.leaf k a c]
    simp only [inertAll, functions, List.append_nil] at h
    rw [inertAll, slots, slots, h]
    exact ih hd.2 _
  | nested k a h inner es hinner ih =>
    obtain ⟨⟨hk, hd'⟩, hd⟩ := hd
    intro id
    have hlength := length_functions_inertAll inner
    rw [inertAll, slots, slots, Entry.inert, Entry.slots, Entry.slots, Entry.functions, Entry.functions, hlength]
    exact List.rel_append (.cons (slot_standsIn hk id a h) (hinner hd' id)) (ih hd _)

end Definition

/-! ## Builds with stand-ins -/

/-- Two builds end alike: with prototypes that look alike, or with the same error. The budgets are the same. -/
inductive Prototype.Alike {ε : Type} : Except ε Prototype × World → Except ε Prototype × World → Prop
  | built {p p' : Prototype} {w w' : World} (hp : p.LooksLike p') (hw : w'.budget = w.budget) :
    Alike (.ok p, w) (.ok p', w')
  | failed {e : ε} {w w' : World} (hw : w'.budget = w.budget) : Alike (.error e, w) (.error e, w')

/-- A definition is built alike with stand-ins. -/
lemma Definition.runIn_build_inert (d : Definition) (a : Attributes) (w : World) :
    Prototype.Alike ((d.build a).runIn w) ((d.inert.build a).runIn w) := by
  rcases hr : (d.build a).runIn w with ⟨f | p, w₁⟩
  · rcases hr' : (d.inert.build a).runIn w with ⟨f' | p', w₂⟩
    · have hmeet := Build.meet_alike d.demands (rfl : w.budget = w.budget)
      rw [← demands_inert, build_meets hr, build_meets hr'] at hmeet
      obtain ⟨⟨⟩, hw⟩ := hmeet
      exact .failed hw
    -- What can be built with stand-ins can be built without them.
    · obtain ⟨hd, hb, -, -⟩ := build_eq_ok.1 hr'
      rw [distinct_inert] at hd
      rw [charge_inert] at hb
      cases hr.symm.trans (build_eq_ok.2 ⟨hd, hb, rfl, rfl⟩)
  · obtain ⟨hd, hb, rfl, rfl⟩ := build_eq_ok.1 hr
    have hslots : List.Forall₂ Slot.StandsIn ((d.root a).slots w.objects.size)
        ((d.inert.root a).slots w.objects.size) :=
      .cons (slot_standsIn hd.1 _ a d.hooks) (slots_standIn d.entries hd.2 _)
    have hr' : (d.inert.build a).runIn w = (.ok _, _) :=
      build_eq_ok.2 ⟨distinct_inert.2 hd, charge_inert.symm ▸ hb, rfl, rfl⟩
    rw [hr']
    refine .built (Slot.StandsIn.prototype_looksLike hslots _) ?_
    rw [charge_inert]
    rfl

namespace Manifest

/-- A manifest is built as its definition is. -/
lemma build_eq_ok {m : Manifest} {d : Definition} {p : Prototype} {w w' : World}
    (h : m.toDefinition t = .ok d) (hb : (d.build .all).runIn w = (.ok p, w')) :
    m.build t w = (.ok p, w') := by
  rw [build, h]
  dsimp only
  rw [hb]

/-- Where both definitions can be made, their builds end alike. -/
lemma build_alike {m : Manifest} {d : Definition} (h : m.toDefinition t = .ok d)
    (h' : m.toDefinition .standIns = .ok d.inert) (w : World) :
    Prototype.Alike (m.build t w) (m.build .standIns w) := by
  have halike := d.runIn_build_inert .all w
  rw [build, build, h, h']
  dsimp only
  generalize (d.build .all).runIn w = x at halike
  generalize (d.inert.build .all).runIn w = y at halike
  cases halike with
  | built hp hw => exact .built hp hw
  | failed hw => exact .failed hw

/-- Inspection shows what a host will get. If its functions are all there, then the manifest is resolved with
stand-ins, too, and is built alike: there is the same error, or the prototypes look alike, and as much is
charged. An entry that the host finds invalid is found by inspection, and what cannot be inspected cannot be
resolved for any host. -/
theorem inspection_exact (m : Manifest) (t : HostTable) (w : World) :
    (∀ d, m.toDefinition t = .ok d →
      (∃ d', m.toDefinition .standIns = .ok d') ∧ Prototype.Alike (m.build t w) (m.build .standIns w)) ∧
    (∀ entry flaw, m.toDefinition t = .error (.invalidEntry entry flaw) →
      m.toDefinition .standIns = .error (.invalidEntry entry flaw)) ∧
    ∀ e, m.toDefinition .standIns = .error e → ∃ e', m.toDefinition t = .error e' := by
  have hpreviews := toDefinition_previews t m
  refine ⟨fun d hd => ?_, fun entry flaw hflaw => ?_, fun e he => ?_⟩
  · have hd' : m.toDefinition .standIns = .ok d.inert := by
      generalize hy : m.toDefinition .standIns = y at hpreviews
      rw [hd] at hpreviews
      cases hpreviews
      rfl
    exact ⟨⟨_, hd'⟩, build_alike hd hd' w⟩
  · generalize hy : m.toDefinition .standIns = y at hpreviews
    rw [hflaw] at hpreviews
    cases hpreviews
    rfl
  · rw [he] at hpreviews
    generalize m.toDefinition t = x at hpreviews
    cases hpreviews with
    | failed e => exact ⟨e, rfl⟩
    | missed c name y => exact ⟨_, rfl⟩

/-- The manifest of a file system is built alike for its host and for an inspection. The two prototypes have the
same text, though the method calls the host in one of them only. -/
theorem fileSystem_inspected : ∃ p p' w w',
    fileSystem.build .fileSystem {} = (.ok p, w) ∧ fileSystem.build .standIns {} = (.ok p', w') ∧
      p'.layout = p.layout ∧ w'.budget = w.budget ∧
      (w.object ⟨0⟩).kind = .function ⟨"open", .hosted 0, 1⟩ ∧
      (w'.object ⟨0⟩).kind = .function ⟨"open", .placeholder, 1⟩ := by
  have hresolved : fileSystem.toDefinition .fileSystem = .ok .fileSystem := rfl
  have hbuilt : (Definition.fileSystem.build .all).runIn {} = (.ok _, _) :=
    Definition.build_eq_ok.2 ⟨by decide, by decide, rfl, rfl⟩
  have hbuilt' : (Definition.fileSystem.inert.build .all).runIn {} = (.ok _, _) :=
    Definition.build_eq_ok.2 ⟨by decide, by decide, rfl, rfl⟩
  obtain ⟨hsame, -, -⟩ := inspection_exact fileSystem .fileSystem {}
  obtain ⟨-, halike⟩ := hsame _ hresolved
  have hfirst := build_eq_ok hresolved hbuilt
  have hsecond := build_eq_ok (t := .standIns) (m := fileSystem) rfl hbuilt'
  rw [hfirst, hsecond] at halike
  cases halike with
  | built hp hw => exact ⟨_, _, _, _, hfirst, hsecond, hp.layout, hw, rfl, rfl⟩

end Manifest

end HostBinding
