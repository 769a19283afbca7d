import HostBinding.Build
import HostBinding.Proofs.Outline

/-!
# Definitions as lists of slots

A build without the machinery: the slots of a definition as a function of the definition and of the number
that the next object gets, and the condition under which a build succeeds.

* `Node.slots`: the slots of a namespace and of those nested in it.
* `Definition.Distinct`: no table binds a key twice.
* `Definition.charge`: what a build charges.
* `build_eq_ok`: when a build succeeds, and what it makes.
-/

namespace HostBinding

/-- The world in which some bytes more are charged and some functions more exist. -/
def World.grown (w : World) (cost : Nat) (fs : List Function) : World :=
  { w with
    budget := { w.budget with used := w.budget.used + cost }
    objects := w.objects ++ (fs.map fun f => ({ kind := .function f } : Object)).toArray }

namespace Definition

/-! ## The pure build -/

mutual

/-- The functions of the methods of an entry, in the order in which a build makes them. -/
def Entry.functions : Entry → List Function
  | .leaf key _ (.method f magic) => [⟨key.text, f, magic⟩]
  | .leaf _ _ (.literal _) => []
  | .leaf _ _ (.dynamic _ _) => []
  | .nested _ _ _ entries => functions entries

/-- The functions of the methods of some entries. -/
def functions : List Entry → List Function
  | [] => []
  | e :: es => e.functions ++ functions es

end

/-- What the template of an entry stands for. The next object gets the number `id`, and `before` slots were
made for earlier entries of the same table. -/
def Entry.content (id before : Nat) : Entry → Template.Content
  | .leaf _ _ (.method _ _) => .value (.object ⟨id⟩)
  | .leaf _ _ (.literal text) => .value (.string text)
  | .leaf _ _ (.dynamic f magic) => .dynamic f magic
  | .nested _ _ _ _ => .nested (before + 1)

/-- The templates of some entries. -/
def templates (id before : Nat) : List Entry → List (Key × Template)
  | [] => []
  | e :: es =>
    (e.key, ⟨e.attributes, e.content id before⟩)
      :: templates (id + e.functions.length) (before + e.slotCount) es

mutual

/-- The slots of the namespaces of an entry. -/
def Entry.slots (id : Nat) : Entry → List Slot
  | .leaf _ _ _ => []
  | .nested _ a h es => ⟨.ofList (templates id 0 es), a, h⟩ :: slots id es

/-- The slots of the namespaces of some entries. -/
def slots (id : Nat) : List Entry → List Slot
  | [] => []
  | e :: es => e.slots id ++ slots (id + e.functions.length) es

end

/-- The slot of a namespace. -/
def Node.slot (id : Nat) (n : Node) : Slot := ⟨.ofList (templates id 0 n.entries), n.attributes, n.hooks⟩

/-- The slots of a namespace and of those nested in it. -/
def Node.slots (id : Nat) (n : Node) : List Slot := n.slot id :: Definition.slots id n.entries

/-! ## Conditions of a build -/

mutual

/-- Whether no table inside an entry binds a key twice. -/
def Entry.Distinct : Entry → Prop
  | .leaf _ _ _ => True
  | .nested _ _ _ es => (es.map Entry.key).Nodup ∧ AllDistinct es

/-- Whether no table inside some entries binds a key twice. -/
def AllDistinct : List Entry → Prop
  | [] => True
  | e :: es => e.Distinct ∧ AllDistinct es

end

/-- Whether no table of a definition binds a key twice. -/
def Distinct (d : Definition) : Prop := (d.entries.map Entry.key).Nodup ∧ AllDistinct d.entries

mutual

/-- Decides whether no table inside an entry binds a key twice. -/
def Entry.decideDistinct : (e : Entry) → Decidable e.Distinct
  | .leaf _ _ _ => .isTrue trivial
  | .nested _ _ _ es => @instDecidableAnd _ _ _ (decideAllDistinct es)

/-- Decides whether no table inside some entries binds a key twice. -/
def decideAllDistinct : (es : List Entry) → Decidable (AllDistinct es)
  | [] => .isTrue trivial
  | e :: es => @instDecidableAnd _ _ e.decideDistinct (decideAllDistinct es)

end

instance (d : Definition) : Decidable d.Distinct :=
  @instDecidableAnd _ _ _ (decideAllDistinct d.entries)

/-- What a build charges for the content of a leaf. -/
def Leaf.cost : Leaf → Nat
  | .method _ _ => Cost.function
  | .literal text => Cost.string + text.utf8ByteSize
  | .dynamic _ _ => 0

mutual

/-- What a build charges for an entry, apart from slots. -/
def Entry.cost : Entry → Nat
  | .leaf _ _ content => Cost.template + content.cost
  | .nested _ _ _ es => Cost.template + entriesCost es

/-- What a build charges for some entries, apart from slots. -/
def entriesCost : List Entry → Nat
  | [] => 0
  | e :: es => e.cost + entriesCost es

end

/-- The cost of a definition: its slots, its templates, and what these stand for. -/
def cost (d : Definition) : Nat := Cost.slot * d.slotCount + entriesCost d.entries

/-- What a build charges: the cost, with the bytes of the slots counted in a machine word. -/
def charge (d : Definition) : Nat := min (Cost.slot * d.slotCount) maxWord + entriesCost d.entries

/-- A build charges its cost at most. -/
lemma charge_le_cost (d : Definition) : d.charge ≤ d.cost :=
  Nat.add_le_add_right (Nat.min_le_left _ _) _

/-- What fits a machine word is charged in full. -/
lemma charge_eq_cost {d : Definition} (h : d.charge ≤ maxWord) : d.charge = d.cost := by
  rw [charge] at h
  rw [charge, cost]
  cases hd : d.entries with
  | nil => rw [slotCount, hd]; rfl
  | cons e es =>
    -- A charge that was cut off fills a machine word, and the first template would not fit beside it.
    have htemplate : 0 < e.cost := by
      cases e with
      | leaf key a c => exact Nat.lt_of_lt_of_le (by decide) (Nat.le_add_right Cost.template c.cost)
      | nested key a hs es => exact Nat.lt_of_lt_of_le (by decide) (Nat.le_add_right Cost.template _)
    rw [hd, entriesCost] at h
    rw [Nat.min_eq_left (by omega)]

end Definition

/-! ## Worlds that grow -/

namespace World

variable {w : World} {b c : Nat} {fs gs : List Function}

/-- A world that grows by nothing stays what it is. -/
lemma grown_zero (w : World) : w.grown 0 [] = w := by
  simp only [grown, Nat.add_zero, List.map_nil, Array.append_empty]

/-- A world that grows twice grows by both. -/
lemma grown_grown : (w.grown b fs).grown c gs = w.grown (b + c) (fs ++ gs) := by
  simp only [grown, Nat.add_assoc, List.map_append, Array.append_assoc, List.append_toArray]

/-- Each new function is one object more. -/
lemma size_grown : (w.grown c fs).objects.size = w.objects.size + fs.length := by
  simp only [grown, Array.size_append, List.size_toArray, List.length_map]

/-- After a build, a charge is allowed where both together were. -/
lemma allows_grown (n : Nat) : (w.grown b fs).budget.allows n = w.budget.allows (b + n) :=
  w.budget.allows_add b n

end World

namespace Action

variable {w w' : World} {n : Nat} {u : Unit}

/-- A charge succeeds where it is allowed. -/
lemma runIn_charge_eq_ok :
    (charge n).runIn w = (.ok u, w') ↔ w.budget.allows n = true ∧ w' = w.grown n [] := by
  have e : w.grown n [] = w.spend n := by
    simp only [World.grown, World.spend, List.map_nil, Array.append_empty]
  rw [runIn_charge, e]
  by_cases h : w.budget.allows n = true
  · simp only [h, if_true, true_and, Prod.mk.injEq]
    exact eq_comm
  · simp only [h, Bool.false_eq_true, if_false, false_and, Prod.mk.injEq, reduceCtorEq]

/-- A charge for many things succeeds where there is room for all of them. -/
lemma runIn_chargeMany_eq_ok {count : Nat} :
    (chargeMany n count).runIn w = (.ok u, w') ↔
      w.budget.allows (min (n * count) maxWord) = true ∧
        w' = w.grown (min (n * count) maxWord) [] := by
  rw [chargeMany_eq, runIn_charge_eq_ok]

end Action

namespace Definition

/-! ## A build is the pure build -/

/-- The content of a leaf is made where its cost is allowed. -/
lemma Leaf.runIn_leaf {key : Key} {a : Attributes} {c : Leaf} {w w' : World} {t : Template.Content}
    (h0 : w.budget.allows 0 = true) :
    (Build.leaf key c).runIn w = (.ok t, w') ↔
      w.budget.allows c.cost = true ∧ t = (Entry.leaf key a c).content w.objects.size 0 ∧
        w' = w.grown c.cost (Entry.leaf key a c).functions := by
  cases c with
  | method f magic =>
    simp only [Build.leaf, Action.runIn_bind_eq_ok, Action.runIn_charge_eq_ok, Action.runIn_allocate,
      Action.runIn_pure, Leaf.cost, Entry.content, Entry.functions]
    constructor
    · rintro ⟨_, v, ⟨hb, rfl⟩, o, v', h, h'⟩
      cases h
      cases h'
      exact ⟨hb, rfl, rfl⟩
    · rintro ⟨hb, rfl, rfl⟩
      exact ⟨(), _, ⟨hb, rfl⟩, _, _, rfl, rfl⟩
  | literal text =>
    simp only [Build.leaf, Action.runIn_bind_eq_ok, Action.runIn_charge_eq_ok, Action.runIn_pure,
      Leaf.cost, Entry.content, Entry.functions]
    constructor
    · rintro ⟨_, v, ⟨hb, rfl⟩, h⟩
      cases h
      exact ⟨hb, rfl, rfl⟩
    · rintro ⟨hb, rfl, rfl⟩
      exact ⟨(), _, ⟨hb, rfl⟩, rfl⟩
  | dynamic f magic =>
    simp only [Build.leaf, Action.runIn_pure, Leaf.cost, Entry.content, Entry.functions,
      World.grown_zero, Prod.mk.injEq, Except.ok.injEq]
    constructor
    · rintro ⟨rfl, rfl⟩
      exact ⟨h0, rfl, rfl⟩
    · rintro ⟨-, rfl, rfl⟩
      exact ⟨rfl, rfl⟩

/-- An entry is let in where its key is new and its template is allowed. -/
lemma runIn_enter {index : Nat} {l : Build.Level} {key : Key} {w w' : World} {u : Unit} :
    (Build.enter index l key).runIn w = (.ok u, w') ↔
      l.templates.contains key = false ∧ w.budget.allows Cost.template = true ∧
        w' = w.grown Cost.template [] := by
  unfold Build.enter
  cases h : l.templates.contains key with
  | true =>
    simp only [if_true, Action.runIn_bind_eq_ok, Action.runIn_throw, Prod.mk.injEq, reduceCtorEq,
      false_and, exists_false, Bool.true_eq_false]
  | false =>
    simp only [Bool.false_eq_true, if_false, true_and]
    exact Action.runIn_charge_eq_ok

/-- A table and a world after some entries were added to the table. -/
structure Added (es : List Entry) (l : Build.Level) (w : World) (l' : Build.Level) (w' : World) :
    Prop where
  world : w' = w.grown (entriesCost es) (functions es)
  templates : l'.templates.entries =
    l.templates.entries ++ Definition.templates w.objects.size l.below.size es
  below : l'.below.toList = l.below.toList ++ slots w.objects.size es

/-- No entries add nothing. -/
lemma Added.nil (l : Build.Level) (w : World) : Added [] l w l w where
  world := w.grown_zero.symm
  templates := (List.append_nil _).symm
  below := (List.append_nil _).symm

mutual

/-- An entry has as many slots as were counted. -/
lemma Entry.length_slots : (e : Entry) → (id : Nat) → (e.slots id).length = e.slotCount
  | .leaf _ _ _, _ => rfl
  | .nested _ _ _ es, id => by
    rw [Entry.slots, Entry.slotCount, List.length_cons, length_slots es id, Nat.add_comm]

/-- Some entries have as many slots as were counted. -/
lemma length_slots : (es : List Entry) → (id : Nat) → (slots id es).length = nestedCount es
  | [], _ => rfl
  | e :: es, id => by
    rw [slots, nestedCount, List.length_append, e.length_slots, length_slots es]

end

/-- The templates of some entries have the keys of the entries, in order. -/
lemma keys_templates (id before : Nat) (es : List Entry) :
    (templates id before es).map Prod.fst = es.map Entry.key := by
  induction es generalizing id before with
  | nil => rfl
  | cons e r ih => simp only [templates, List.map_cons, ih]

/-- An entry adds its key to the table. -/
lemma Added.keys_eq {e : Entry} {l l₁ : Build.Level} {w w₁ : World} (h : Added [e] l w l₁ w₁) :
    l₁.templates.keys = l.templates.keys ++ [e.key] := by
  rw [OrderedMap.keys, h.templates, List.map_append]
  rfl

/-- An entry adds its slots below the table. -/
lemma Added.size_below {e : Entry} {l l₁ : Build.Level} {w w₁ : World} (h : Added [e] l w l₁ w₁) :
    l₁.below.size = l.below.size + e.slotCount := by
  rw [← Array.length_toList, h.below, List.length_append, length_slots, Array.length_toList]
  rfl

/-- An entry was added, and then some more. -/
lemma Added.cons {e : Entry} {es : List Entry} {l l₁ l' : Build.Level} {w w₁ w' : World}
    (h : Added [e] l w l₁ w₁) (h' : Added es l₁ w₁ l' w') : Added (e :: es) l w l' w' := by
  have hw : w₁ = w.grown e.cost e.functions := by
    simpa only [entriesCost, functions, Nat.add_zero, List.append_nil] using h.world
  have hs : w₁.objects.size = w.objects.size + e.functions.length := by rw [hw, World.size_grown]
  have hb : l₁.below.toList = l.below.toList ++ e.slots w.objects.size := by
    simpa only [slots, List.append_nil] using h.below
  refine ⟨?_, ?_, ?_⟩
  · rw [h'.world, hw, World.grown_grown, entriesCost, functions]
  · rw [h'.templates, h.templates, hs, h.size_below, List.append_assoc]
    rfl
  · rw [h'.below, hb, hs, List.append_assoc, slots]

/-- Entries that were added to an empty table have different keys. -/
lemma Added.nodup_keys {es : List Entry} {l : Build.Level} {w w' : World} (h : Added es {} w l w') :
    (es.map Entry.key).Nodup := by
  have ht : l.templates.entries = Definition.templates w.objects.size 0 es := h.templates
  rw [← keys_templates w.objects.size 0 es, ← ht]
  exact l.templates.nodup

/-- An empty table to which some entries were added has their templates. -/
lemma Added.eq_ofList {es : List Entry} {l : Build.Level} {w w' : World} (h : Added es {} w l w') :
    l.templates = .ofList (Definition.templates w.objects.size 0 es) := by
  apply OrderedMap.ext_entries
  rw [OrderedMap.entries_ofList, h.templates]
  · rfl
  · rw [keys_templates]
    exact h.nodup_keys

mutual

/-- What it takes to add an entry, and what comes of it. -/
lemma entry_ok (e : Entry) {index : Nat} {l l' : Build.Level} {w w' : World}
    (h : (Build.entry index l e).runIn w = (.ok l', w')) :
    l.templates.contains e.key = false ∧ e.Distinct ∧ w.budget.allows e.cost = true ∧
      Added [e] l w l' w' := by
  cases e with
  | leaf key a c =>
    rw [Build.entry, Action.runIn_bind_eq_ok] at h
    obtain ⟨_, v, he, h⟩ := h
    obtain ⟨hk, hb, rfl⟩ := runIn_enter.1 he
    obtain ⟨t, v, hc, h⟩ := Action.runIn_bind_eq_ok.1 h
    have h0 : (w.grown Cost.template []).budget.allows 0 = true := by
      rwa [World.allows_grown]
    obtain ⟨hb', rfl, rfl⟩ := (Leaf.runIn_leaf (a := a) h0).1 hc
    cases h
    rw [World.allows_grown] at hb'
    refine ⟨hk, trivial, hb', ?_, ?_, ?_⟩
    · rw [World.grown_grown]
      simp only [entriesCost, functions, Entry.cost, Nat.add_zero, List.append_nil, List.nil_append]
    · rw [OrderedMap.entries_insert_of_not_contains _ hk]
      cases c <;> rfl
    · simp only [slots, Entry.slots, List.append_nil]
  | nested key a hs es =>
    rw [Build.entry, Action.runIn_bind_eq_ok] at h
    obtain ⟨_, v, he, h⟩ := h
    obtain ⟨hk, hb, rfl⟩ := runIn_enter.1 he
    obtain ⟨inner, v, hi, h⟩ := Action.runIn_bind_eq_ok.1 h
    -- The inner table starts empty, so that `level_ok` says all about it, its keys included.
    have h0 : (w.grown Cost.template []).budget.allows 0 = true := by
      rwa [World.allows_grown]
    obtain ⟨hd, hb', hadd⟩ := level_ok es h0 hi
    cases h
    rw [World.allows_grown] at hb'
    refine ⟨hk, ⟨hadd.nodup_keys, hd⟩, hb', ?_, ?_, ?_⟩
    · rw [hadd.world, World.grown_grown]
      simp only [entriesCost, functions, Entry.cost, Entry.functions, Nat.add_zero, List.append_nil,
        List.nil_append]
    · rw [OrderedMap.entries_insert_of_not_contains _ hk]
      rfl
    · have hm : inner.templates = .ofList (templates w.objects.size 0 es) := by
        rw [hadd.eq_ofList, World.size_grown]
        rfl
      have hbel : inner.below.toList = slots w.objects.size es := by
        rw [hadd.below, World.size_grown]
        rfl
      simp only [Array.toList_append, Array.toList_push, hbel, hm, slots, Entry.slots,
        List.append_nil, List.append_assoc, List.singleton_append]

/-- What it takes to add some entries, and what comes of it. -/
lemma level_ok (es : List Entry) {index : Nat} {l l' : Build.Level} {w w' : World}
    (h0 : w.budget.allows 0 = true) (h : (Build.level index l es).runIn w = (.ok l', w')) :
    AllDistinct es ∧ w.budget.allows (entriesCost es) = true ∧ Added es l w l' w' := by
  cases es with
  | nil =>
    rw [Build.level] at h
    cases h
    exact ⟨trivial, h0, .nil l w⟩
  | cons e es =>
    rw [Build.level, Action.runIn_bind_eq_ok] at h
    obtain ⟨l₁, w₁, he, h⟩ := h
    obtain ⟨hk, hd, hb, hadd⟩ := entry_ok e he
    have hw : w₁ = w.grown e.cost e.functions := by
      simpa only [entriesCost, functions, Nat.add_zero, List.append_nil] using hadd.world
    have h0' : w₁.budget.allows 0 = true := by
      rwa [hw, World.allows_grown]
    obtain ⟨hds, hbs, hadds⟩ := level_ok es h0' h
    rw [hw, World.allows_grown] at hbs
    exact ⟨⟨hd, hds⟩, hbs, hadd.cons hadds⟩

end

mutual

/-- An entry can be added where its key is new, its tables bind no key twice and its cost is allowed. -/
lemma exists_entry_ok (index : Nat) (e : Entry) {l : Build.Level} {w : World}
    (hk : l.templates.contains e.key = false) (hd : e.Distinct) (hb : w.budget.allows e.cost = true) :
    ∃ l' w', (Build.entry index l e).runIn w = (.ok l', w') := by
  cases e with
  | leaf key a c =>
    -- There is room for the template and for what comes with it, so also for the template alone.
    have ht : w.budget.allows Cost.template = true := Budget.allows_mono (Nat.le_add_right _ _) hb
    have h0 : (w.grown Cost.template []).budget.allows 0 = true := by
      rwa [World.allows_grown]
    have hc : (w.grown Cost.template []).budget.allows c.cost = true := by
      rwa [World.allows_grown]
    obtain ⟨t, v, hrun⟩ : ∃ t v, (Build.leaf key c).runIn (w.grown Cost.template []) = (.ok t, v) :=
      ⟨_, _, (Leaf.runIn_leaf (a := a) h0).2 ⟨hc, rfl, rfl⟩⟩
    refine ⟨{ l with templates := l.templates.insert key ⟨a, t⟩ }, v, ?_⟩
    rw [Build.entry, Action.runIn_bind_eq_ok]
    exact ⟨(), _, runIn_enter.2 ⟨hk, ht, rfl⟩, Action.runIn_bind_eq_ok.2 ⟨_, _, hrun, rfl⟩⟩
  | nested key a hs es =>
    have ht : w.budget.allows Cost.template = true := Budget.allows_mono (Nat.le_add_right _ _) hb
    have hes : (w.grown Cost.template []).budget.allows (entriesCost es) = true := by
      rwa [World.allows_grown]
    obtain ⟨inner, v, hi⟩ := exists_level_ok (index + (l.below.size + 1)) es (l := {})
      (w := w.grown Cost.template []) hd.1 hd.2 hes
    refine ⟨{
      templates := l.templates.insert key ⟨a, .nested (l.below.size + 1)⟩
      below := l.below.push ⟨inner.templates, a, hs⟩ ++ inner.below }, v, ?_⟩
    rw [Build.entry, Action.runIn_bind_eq_ok]
    exact ⟨(), _, runIn_enter.2 ⟨hk, ht, rfl⟩, Action.runIn_bind_eq_ok.2 ⟨_, _, hi, rfl⟩⟩

/-- Entries can be added where their keys are new and differ, their tables bind no key twice and their cost
is allowed. -/
lemma exists_level_ok (index : Nat) (es : List Entry) {l : Build.Level} {w : World}
    (hk : (l.templates.keys ++ es.map Entry.key).Nodup) (hd : AllDistinct es)
    (hb : w.budget.allows (entriesCost es) = true) :
    ∃ l' w', (Build.level index l es).runIn w = (.ok l', w') := by
  cases es with
  | nil => exact ⟨l, w, by rw [Build.level]; rfl⟩
  | cons e es =>
    -- The keys that are left stay new, since the table has grown by the first one only.
    have hnew : l.templates.contains e.key = false := by
      rw [Bool.eq_false_iff, Ne, OrderedMap.contains_iff_mem_keys]
      intro he
      exact (List.nodup_append.1 hk).2.2 _ he _ (List.mem_cons_self ..) rfl
    obtain ⟨l₁, w₁, he⟩ := exists_entry_ok index e hnew hd.1
      (Budget.allows_mono (Nat.le_add_right _ _) hb)
    have hadd := (entry_ok e he).2.2.2
    have hk' : (l₁.templates.keys ++ es.map Entry.key).Nodup := by
      rw [hadd.keys_eq, List.append_assoc]
      exact hk
    have hb' : w₁.budget.allows (entriesCost es) = true := by
      rw [hadd.world, World.allows_grown]
      exact hb
    obtain ⟨l', w', h⟩ := exists_level_ok index es hk' hd.2 hb'
    exact ⟨l', w', by rw [Build.level]; exact Action.runIn_bind_eq_ok.2 ⟨l₁, w₁, he, h⟩⟩

end

/-- A namespace has as many slots as it has namespaces in it. -/
lemma Node.length_slots (id : Nat) (n : Node) : (n.slots id).length = n.size := by
  rw [Node.slots, List.length_cons, Definition.length_slots, Node.size, Nat.add_comm]

/-- The slots that a build has in hand in the end are those of the whole definition. -/
lemma Added.slots_eq {d : Definition} {a : Attributes} {l : Build.Level} {w w' : World}
    (h : Added d.entries {} w l w') :
    #[⟨l.templates, a, d.hooks⟩] ++ l.below = ((d.root a).slots w.objects.size).toArray := by
  have hb : l.below = (Definition.slots w.objects.size d.entries).toArray := by
    rw [← l.below.toArray_toList, h.below]
    rfl
  rw [h.eq_ofList, hb, List.append_toArray]
  rfl

/-- The count of slots comes out right, and the prototype is made. -/
lemma Added.finish_eq {d : Definition} {a : Attributes} {c : Nat} {l : Build.Level} {w w' : World}
    (h : Added d.entries {} (w.grown c []) l w') :
    (Build.finish d.slotCount (#[⟨l.templates, a, d.hooks⟩] ++ l.below)).runIn w' =
      (.ok ⟨w.prototypes, ((d.root a).slots w.objects.size).toArray⟩,
        { w.grown (c + entriesCost d.entries) (functions d.entries) with
          prototypes := w.prototypes + 1 }) := by
  have hsize : ((d.root a).slots w.objects.size).toArray.size = d.slotCount := by
    rw [List.size_toArray, Node.length_slots]
    rfl
  have hs := h.slots_eq (a := a)
  rw [World.size_grown, List.length_nil, Nat.add_zero] at hs
  rw [hs, Build.finish, hsize, if_neg (fun h => h rfl), Action.runIn_newPrototype, h.world,
    World.grown_grown]
  rfl

/-- A build succeeds exactly when no table binds a key twice and the charge is allowed; it makes the slots
and functions of the definition, and charges neither more nor less. -/
theorem build_eq_ok {d : Definition} {a : Attributes} {w w' : World} {p : Prototype} :
    (d.build a).runIn w = (.ok p, w') ↔
      d.Distinct ∧ w.budget.allows d.charge = true ∧
        p = ⟨w.prototypes, ((d.root a).slots w.objects.size).toArray⟩ ∧
        w' = { w.grown d.charge (functions d.entries) with prototypes := w.prototypes + 1 } := by
  unfold build
  simp only [Action.runIn_bind_eq_ok, Action.runIn_chargeMany_eq_ok]
  constructor
  · rintro ⟨_, v, ⟨hb, rfl⟩, l, v, hl, h⟩
    have h0 : (w.grown (min (Cost.slot * d.slotCount) maxWord) []).budget.allows 0 = true := by
      rwa [World.allows_grown]
    obtain ⟨hd, hc, hadd⟩ := level_ok d.entries h0 hl
    rw [World.allows_grown] at hc
    rw [hadd.finish_eq] at h
    cases h
    exact ⟨⟨hadd.nodup_keys, hd⟩, hc, rfl, rfl⟩
  · rintro ⟨hd, hb, rfl, rfl⟩
    have hb' : (w.grown (min (Cost.slot * d.slotCount) maxWord) []).budget.allows
        (entriesCost d.entries) = true := by
      rwa [World.allows_grown]
    obtain ⟨l, v, hl⟩ := exists_level_ok 0 d.entries (l := {}) hd.1 hd.2 hb'
    have hadd := (level_ok d.entries (Budget.allows_mono (Nat.zero_le _) hb') hl).2.2
    exact ⟨(), _, ⟨Budget.allows_mono (Nat.le_add_right _ _) hb, rfl⟩, l, v, hl, hadd.finish_eq⟩

/-- A build succeeds where no key comes twice and there is room, and leaves the room that it does not need. -/
lemma exists_build_ok {d : Definition} (a : Attributes) {w : World} {n : Nat} (hd : d.Distinct)
    (hb : w.budget.allows (d.cost + n) = true) :
    ∃ p w', (d.build a).runIn w = (.ok p, w') ∧ w'.budget.allows n = true := by
  have hc : w.budget.allows (d.charge + n) = true :=
    Budget.allows_mono (Nat.add_le_add_right d.charge_le_cost n) hb
  refine ⟨_, _, build_eq_ok.2 ⟨hd, Budget.allows_mono (Nat.le_add_right _ n) hc, rfl, rfl⟩, ?_⟩
  rwa [World.allows_grown]

end Definition

end HostBinding
