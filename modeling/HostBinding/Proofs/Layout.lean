import HostBinding.Proofs.Payment

/-!
# The layout of a prototype

Where a build puts the namespaces of a definition, and what their slots hold. A path through the definition
leads to a namespace, the number of that namespace is its slot, and the templates of the slot are the entries
of the namespace, one for one.

* `Node.slots_at`: the slot of the namespace at a path.
* `Presents`: what the template of an entry must be.
* `Faithful`: what it means for a prototype to be a definition laid out flat.
* `build_faithful`: every prototype that is built is the definition laid out flat.
-/

namespace HostBinding

namespace Definition

/-! ## Parts of the pure build -/

/-- One for a method, nothing for other entries. -/
def Entry.makes : Entry → Nat
  | .leaf _ _ (.method _ _) => 1
  | .leaf _ _ (.literal _) => 0
  | .leaf _ _ (.dynamic _ _) => 0
  | .nested _ _ _ _ => 0

mutual

/-- The weight of an entry in methods is the number of its functions. -/
lemma Entry.weight_makes : (e : Entry) → e.weight Entry.makes = e.functions.length
  | .leaf _ _ (.method _ _) => rfl
  | .leaf _ _ (.literal _) => rfl
  | .leaf _ _ (.dynamic _ _) => rfl
  | .nested _ _ _ es => by
    rw [Entry.weight, Entry.functions, Entry.makes, weight_makes es, Nat.zero_add]

/-- The weight of some entries in methods is the number of their functions. -/
lemma weight_makes : (es : List Entry) → weight Entry.makes es = (functions es).length
  | [] => rfl
  | e :: es => by rw [weight, functions, List.length_append, e.weight_makes, weight_makes es]

end

/-- The functions of entries in a row. -/
lemma functions_append (es fs : List Entry) : functions (es ++ fs) = functions es ++ functions fs := by
  induction es with
  | nil => rfl
  | cons e r ih => rw [List.cons_append, functions, functions, ih, List.append_assoc]

/-- The slots of entries in a row, of which the later ones take the later numbers. -/
lemma slots_append (id : Nat) (es fs : List Entry) :
    slots id (es ++ fs) = slots id es ++ slots (id + weight Entry.makes es) fs := by
  induction es generalizing id with
  | nil => rfl
  | cons e r ih =>
    rw [List.cons_append, slots, slots, ih, weight, e.weight_makes, List.append_assoc, Nat.add_assoc]

/-- A list is what stands before one of its items, the item, and what stands behind it. -/
lemma take_cons_drop {es : List Entry} {i : Nat} {e : Entry} (h : es[i]? = some e) :
    es = es.take i ++ e :: es.drop (i + 1) := by
  obtain ⟨hi, rfl⟩ := List.getElem?_eq_some_iff.1 h
  rw [← List.drop_eq_getElem_cons hi, List.take_append_drop]

/-- The slots of an entry stand behind those of the earlier ones. -/
lemma slots_split {es : List Entry} {i : Nat} {e : Entry} (h : es[i]? = some e) (id : Nat) :
    ∃ rest, slots id es =
      slots id (es.take i) ++ (e.slots (id + weight Entry.makes (es.take i)) ++ rest) := by
  refine ⟨slots (id + weight Entry.makes (es.take i) + e.functions.length) (es.drop (i + 1)), ?_⟩
  conv_lhs => rw [take_cons_drop h]
  rw [slots_append, slots]

/-- The functions of an entry stand behind those of the earlier ones. -/
lemma functions_split {es : List Entry} {i : Nat} {e : Entry} (h : es[i]? = some e) :
    ∃ rest, functions es = functions (es.take i) ++ (e.functions ++ rest) := by
  refine ⟨functions (es.drop (i + 1)), ?_⟩
  conv_lhs => rw [take_cons_drop h]
  rw [functions_append, functions]

/-- The template of the entry at a position. -/
lemma templates_getElem? {es : List Entry} {i : Nat} {e : Entry} (h : es[i]? = some e)
    (id before : Nat) :
    (templates id before es)[i]? = some (e.key, ⟨e.attributes,
      e.content (id + weight Entry.makes (es.take i)) (before + nestedCount (es.take i))⟩) := by
  induction es generalizing i id before with
  | nil => cases h
  | cons x r ih =>
    cases i with
    | zero => cases h; rfl
    | succ i =>
      rw [templates, List.getElem?_cons_succ, ih h]
      simp only [List.take_succ_cons, weight, nestedCount, Entry.weight_makes, Nat.add_assoc]

/-- Where no table binds a key twice, the table nested in an entry does not. -/
lemma AllDistinct.of_mem {es inner : List Entry} (h : AllDistinct es) {key a hs}
    (he : .nested key a hs inner ∈ es) : (inner.map Entry.key).Nodup ∧ AllDistinct inner := by
  induction es with
  | nil => cases he
  | cons e r ih =>
    rcases List.mem_cons.1 he with rfl | he
    · exact h.1
    · exact ih h.2 he

namespace Node

variable {n m c : Node} {i : Nat} {path : List Nat}

/-- The slot of the namespace at a path. The functions of its methods come after those of all methods before
it. -/
lemma slots_at (id : Nat) (hm : n.at? path = some m) :
    (n.slots id)[n.index path]? = some (m.slot (id + number Entry.makes n.entries path)) := by
  induction path generalizing n id with
  | nil => cases hm; rfl
  | cons i is ih =>
    obtain ⟨c, hc, hm⟩ := at?_cons_eq_some.1 hm
    obtain ⟨key, he⟩ := child?_eq_some hc
    have hlen : (Definition.slots id (n.entries.take i)).length = nestedCount (n.entries.take i) :=
      Definition.length_slots _ _
    have hlt : c.index is < (c.slots (id + weight Entry.makes (n.entries.take i))).length := by
      rw [length_slots]
      exact index_lt hm
    -- The slots of the entry on the path stand between those of the earlier and those of the later entries.
    obtain ⟨rest, hs⟩ := slots_split he id
    rw [index_cons hc, slots, Nat.add_right_comm, List.getElem?_cons_succ, hs,
      List.getElem?_append_right (by omega), hlen, Nat.add_sub_cancel_left,
      List.getElem?_append_left (by exact hlt)]
    apply (ih _ hm).trans
    simp only [number, he, Entry.makes, Entry.entries, Nat.add_zero, Nat.add_assoc]

/-- The functions of a namespace are a part of those of the namespace around it. -/
lemma functions_at (hm : n.at? path = some m) {j : Nat} {f : Function}
    (hf : (functions m.entries)[j]? = some f) :
    (functions n.entries)[number Entry.makes n.entries path + j]? = some f := by
  induction path generalizing n with
  | nil =>
    cases hm
    rw [number, Nat.zero_add]
    exact hf
  | cons i is ih =>
    obtain ⟨c, hc, hm⟩ := at?_cons_eq_some.1 hm
    obtain ⟨key, he⟩ := child?_eq_some hc
    have h := ih hm
    have hlt := (List.getElem?_eq_some_iff.1 h).1
    obtain ⟨rest, hs⟩ := functions_split he
    simp only [number, he, Entry.makes, Entry.entries, Nat.add_zero, weight_makes]
    rw [hs, Nat.add_assoc, List.getElem?_append_right (by omega), Nat.add_sub_cancel_left,
      Entry.functions, List.getElem?_append_left hlt]
    exact h

/-- In no namespace of a definition with distinct keys is a key bound twice. -/
lemma nodup_keys_at (hn : (n.entries.map Entry.key).Nodup) (hd : AllDistinct n.entries)
    (hm : n.at? path = some m) : (m.entries.map Entry.key).Nodup := by
  induction path generalizing n with
  | nil => cases hm; exact hn
  | cons i is ih =>
    obtain ⟨c, hc, hm⟩ := at?_cons_eq_some.1 hm
    obtain ⟨key, he⟩ := child?_eq_some hc
    obtain ⟨hk, hds⟩ := AllDistinct.of_mem hd (List.mem_of_getElem? he)
    exact ih hk hds hm

end Node

/-! ## Faithful prototypes -/

/-- The paths to the methods in a namespace. -/
def Node.methods (n : Node) : Set (List Nat) :=
  { q | ∃ path m i key a f magic, q = path ++ [i] ∧ n.at? path = some m ∧
    m.entries[i]? = some (.leaf key a (.method f magic)) }

/-- The content of a template is what the entry says that opens it or is named by it: a literal its text, a
method its function object, with the name, function and tag of the method, a computed property its function
and tag, a namespace the way to the slot of the namespace. The entry has the position `i` in the namespace at
`path`, and `functions` gives the function objects of the methods. -/
def Presents (n : Node) (functions : List Nat → ObjectId) (p : Prototype) (w : World) (path : List Nat)
    (i : Nat) : Entry → Template.Content → Prop
  | .leaf _ _ (.literal text), c => c = .value (.string text)
  | .leaf key _ (.method f magic), c =>
    c = .value (.object (functions (path ++ [i]))) ∧
      w.object (functions (path ++ [i])) = { kind := .function ⟨key.text, f, magic⟩ }
  | .leaf _ _ (.dynamic f magic), c => c = .dynamic f magic
  | .nested _ _ _ _, c =>
    ∃ offset h, c = .nested offset ∧
      p.child (n.index path) offset = .ok ⟨n.index (path ++ [i]), h⟩

/-- A template of a slot leads to another slot. -/
def Leads (p : Prototype) (i : Nat) (key : Key) (j : Nat) : Prop :=
  ∃ slot attributes offset h, p.slots[i]? = some slot ∧
    slot.templates.find? key = some ⟨attributes, .nested offset⟩ ∧ p.child i offset = .ok ⟨j, h⟩

/-- A prototype is a definition laid out flat, with the attributes `a` for the first slot. The namespaces of
the definition are given by paths, and `Node.index` puts them into slots. The methods, too, are given by
paths, and `functions` gives their function objects. -/
structure Faithful (d : Definition) (a : Attributes) (functions : List Nat → ObjectId) (p : Prototype)
    (w : World) : Prop where
  /-- There are as many slots as the definition counts. -/
  size : p.size = d.slotCount
  /-- Each slot belongs to exactly one namespace. -/
  bijective : Set.BijOn (d.root a).index {path | ((d.root a).at? path).isSome} (Set.Iio p.size)
  /-- The outermost namespace has the first slot. -/
  root : (d.root a).index [] = 0
  /-- A nested namespace comes after the one around it and the earlier ones beside it. -/
  child : ∀ path m i c, (d.root a).at? path = some m → m.child? i = some c →
    (d.root a).index (path ++ [i]) =
      (d.root a).index path + 1 + ((m.entries.take i).map Entry.slotCount).sum
  /-- The slot of a namespace has its attributes and hooks, its keys in the order of the definition, and
  under each key what the entry says. -/
  slot : ∀ path m, (d.root a).at? path = some m → ∃ s, p.slots[(d.root a).index path]? = some s ∧
    s.attributes = m.attributes ∧ s.hooks = m.hooks ∧ s.templates.keys = m.entries.map Entry.key ∧
    ∀ i e, m.entries[i]? = some e → ∃ content,
      s.templates.find? e.key = some ⟨e.attributes, content⟩ ∧
        Presents (d.root a) functions p w path i e content
  /-- Each method has a function object of its own. -/
  methods : Set.InjOn functions (d.root a).methods
  /-- Exactly one template leads to each slot but the first, from a slot further up. -/
  owner : ∀ j, 0 < j → j < p.size → ∃ i key, i < j ∧ Leads p i key j ∧
    ∀ i' key', Leads p i' key' j → i' = i ∧ key' = key

/-- The number of nested tables is the sum over the entries. -/
lemma nestedCount_eq_sum (es : List Entry) : nestedCount es = (es.map Entry.slotCount).sum := by
  induction es with
  | nil => rfl
  | cons e r ih => rw [nestedCount, List.map_cons, List.sum_cons, ih]

end Definition

/-- The functions of a build take the next numbers. -/
lemma World.object_grown {w : World} {c j : Nat} {fs : List Function} {f : Function}
    (h : fs[j]? = some f) : (w.grown c fs).object ⟨w.objects.size + j⟩ = { kind := .function f } := by
  rw [World.object, World.grown, Array.getD_eq_getD_getElem?, Array.getElem?_append_right (by simp)]
  simp [h]

namespace Definition

variable {d : Definition} {a : Attributes} {w w' : World} {p : Prototype}

/-- The slot of a namespace has the keys of its entries. -/
lemma Node.keys_slot {m : Node} (hk : (m.entries.map Entry.key).Nodup) (id : Nat) :
    (m.slot id).templates.keys = m.entries.map Entry.key := by
  rw [← keys_templates id 0] at hk ⊢
  rw [OrderedMap.keys, Node.slot, OrderedMap.entries_ofList hk]

/-- The template of the entry at a position, found under its key. -/
lemma Node.find?_slot {m : Node} (hk : (m.entries.map Entry.key).Nodup) {i : Nat} {e : Entry}
    (he : m.entries[i]? = some e) (id : Nat) :
    (m.slot id).templates.find? e.key = some ⟨e.attributes,
      e.content (id + weight Entry.makes (m.entries.take i)) (nestedCount (m.entries.take i))⟩ := by
  apply OrderedMap.find?_of_mem
  have h := templates_getElem? he id 0
  rw [Nat.zero_add] at h
  rw [← keys_templates id 0] at hk
  rw [Node.slot, OrderedMap.entries_ofList hk]
  exact List.mem_of_getElem? h

variable {n m : Node} {path : List Nat} {i : Nat} {e : Entry}

/-- The function object of the method at a path, where the first method gets the number `id`. -/
def Node.function (n : Node) (id : Nat) (path : List Nat) : ObjectId :=
  ⟨id + (number Entry.makes n.entries path - 1)⟩

/-- Different methods get different function objects. -/
lemma Node.injOn_function (n : Node) (id : Nat) : Set.InjOn (n.function id) n.methods := by
  rintro _ ⟨q, m, i, key, b, f, magic, rfl, hm, he⟩ _ ⟨q', m', i', key', b', f', magic', rfl, hm', he'⟩ h
  -- Each method weighs one, so no two of them have as many methods before them.
  have hc := Node.counted_concat Entry.makes hm he Nat.one_pos
  have hc' := Node.counted_concat Entry.makes hm' he' Nat.one_pos
  have hn := Node.number_concat Entry.makes hm he
  have hn' := Node.number_concat Entry.makes hm' he'
  rw [function, function, ObjectId.mk.injEq] at h
  rw [Entry.makes] at hn hn'
  exact number_inj hc hc' (by omega)

/-- The content that the pure build gives an entry is what the entry says. -/
lemma presents_content (hm : (d.root a).at? path = some m) (he : m.entries[i]? = some e)
    (hp : p = ⟨w.prototypes, ((d.root a).slots w.objects.size).toArray⟩)
    (hw : w' = { w.grown d.charge (functions d.entries) with prototypes := w.prototypes + 1 }) :
    Presents (d.root a) ((d.root a).function w.objects.size) p w' path i e (e.content
      (w.objects.size + number Entry.makes d.entries path + weight Entry.makes (m.entries.take i))
      (nestedCount (m.entries.take i))) := by
  match e, he with
  | .leaf key b (.literal text), _ => rfl
  | .leaf key b (.dynamic f magic), _ => rfl
  | .leaf key b (.method f magic), he =>
    -- The path of the method counts the method itself, its number does not.
    have hn := Node.number_concat Entry.makes hm he
    have ho : (d.root a).function w.objects.size (path ++ [i]) = ⟨w.objects.size +
        (number Entry.makes d.entries path + weight Entry.makes (m.entries.take i))⟩ := by
      rw [Node.function, hn, Entry.makes, ← Nat.add_assoc, Nat.add_sub_cancel]
      rfl
    obtain ⟨rest, hs⟩ := functions_split he
    have hf : (functions m.entries)[weight Entry.makes (m.entries.take i)]? =
        some ⟨key.text, f, magic⟩ := by
      rw [hs, weight_makes, List.getElem?_append_right (Nat.le_refl _), Nat.sub_self]
      rfl
    refine ⟨?_, ?_⟩
    · rw [ho, Nat.add_assoc]
      rfl
    · subst hw
      rw [ho]
      exact World.object_grown (c := d.charge) (Node.functions_at hm hf)
  | .nested key b hs es, he =>
    -- The offset is relative, so that the slot is reached from that of the namespace around it.
    have hc := Node.child?_of_nested he
    have hm' : (d.root a).at? (path ++ [i]) = some ⟨b, hs, es⟩ := (Node.at?_concat hm).trans hc
    have hi := Node.index_concat hm hc
    have hlt := Node.index_lt hm'
    have hsize : p.slots.size = (d.root a).size := by
      rw [hp, List.size_toArray, Node.length_slots]
    have hlt' : (d.root a).index path + (nestedCount (m.entries.take i) + 1) < p.slots.size := by
      omega
    have hidx : (d.root a).index path + (nestedCount (m.entries.take i) + 1) =
        (d.root a).index (path ++ [i]) := by omega
    refine ⟨nestedCount (m.entries.take i) + 1, by omega, rfl, ?_⟩
    rw [Prototype.child, dif_pos ⟨Nat.succ_pos _, hlt'⟩]
    simp only [hidx]

/-- A template that leads somewhere is that of a nested namespace, and leads to its slot. -/
lemma Presents.leads {fs : List Nat → ObjectId} {content : Template.Content} {offset j : Nat}
    (h : Presents n fs p w path i e content) (hc : content = .nested offset) {hj : j < p.slots.size}
    (hl : p.child (n.index path) offset = .ok ⟨j, hj⟩) :
    (∃ key b hs es, e = .nested key b hs es) ∧ n.index (path ++ [i]) = j := by
  subst hc
  match e, h with
  | .leaf _ _ (.method _ _), ⟨h, _⟩ => cases h
  | .nested key b hs es, ⟨offset', hlt, h, hl'⟩ =>
    cases h
    rw [hl'] at hl
    cases hl
    exact ⟨⟨key, b, hs, es, rfl⟩, rfl⟩

/-- Every slot of a built prototype holds the entries of its namespace. -/
lemma slot_of_build (h : (d.build a).runIn w = (.ok p, w')) (hm : (d.root a).at? path = some m) :
    ∃ s, p.slots[(d.root a).index path]? = some s ∧ s.attributes = m.attributes ∧
      s.hooks = m.hooks ∧ s.templates.keys = m.entries.map Entry.key ∧
      ∀ i e, m.entries[i]? = some e → ∃ content,
        s.templates.find? e.key = some ⟨e.attributes, content⟩ ∧
          Presents (d.root a) ((d.root a).function w.objects.size) p w' path i e content := by
  obtain ⟨hd, -, hp, hw⟩ := build_eq_ok.1 h
  have hk := Node.nodup_keys_at (n := d.root a) hd.1 hd.2 hm
  refine ⟨m.slot (w.objects.size + number Entry.makes d.entries path), ?_, rfl, rfl,
    m.keys_slot hk _, ?_⟩
  · rw [hp, List.getElem?_toArray]
    exact Node.slots_at w.objects.size hm
  · intro i e he
    exact ⟨_, Node.find?_slot hk he _, presents_content hm he hp hw⟩

/-- A build makes as many slots as there are namespaces. -/
lemma size_of_build (h : (d.build a).runIn w = (.ok p, w')) : p.size = (d.root a).size := by
  obtain ⟨-, -, hp, -⟩ := build_eq_ok.1 h
  rw [Prototype.size, hp, List.size_toArray, Node.length_slots]

/-- The template of a nested table leads to its slot. -/
lemma leads_of_child (h : (d.build a).runIn w = (.ok p, w')) (hm : (d.root a).at? path = some m)
    {key b hs es} (he : m.entries[i]? = some (.nested key b hs es)) :
    Leads p ((d.root a).index path) key ((d.root a).index (path ++ [i])) := by
  obtain ⟨s, hs, -, -, -, htemplates⟩ := slot_of_build h hm
  obtain ⟨content, hfind, offset, hlt, rfl, hl⟩ := htemplates i _ he
  exact ⟨s, _, offset, hlt, hs, hfind, hl⟩

/-- A template of a slot is that of the entry which binds its key in the namespace of the slot. -/
lemma exists_of_find? (h : (d.build a).runIn w = (.ok p, w')) {j : Nat} {s : Slot} {key : Key} {t : Template}
    (hs : p.slots[j]? = some s) (ht : s.templates.find? key = some t) :
    ∃ path m i e content, (d.root a).at? path = some m ∧ (d.root a).index path = j ∧
      m.entries[i]? = some e ∧ e.key = key ∧ t = ⟨e.attributes, content⟩ ∧
      Presents (d.root a) ((d.root a).function w.objects.size) p w' path i e content := by
  have hj : j < (d.root a).size := by
    rw [← size_of_build h]
    exact (Array.getElem?_eq_some_iff.1 hs).1
  obtain ⟨path, m, hm, rfl⟩ := Node.exists_path hj
  obtain ⟨s', hs', -, -, hkeys, htemplates⟩ := slot_of_build h hm
  cases hs.symm.trans hs'
  have hmem : key ∈ s.templates.keys := by
    rw [← OrderedMap.contains_iff_mem_keys, OrderedMap.contains, ht]
    rfl
  rw [hkeys, List.mem_map] at hmem
  obtain ⟨e, he, rfl⟩ := hmem
  obtain ⟨i, he⟩ := List.mem_iff_getElem?.1 he
  obtain ⟨content, ht', hpres⟩ := htemplates i e he
  cases ht.symm.trans ht'
  exact ⟨path, m, i, e, content, hm, rfl, he, rfl, rfl, hpres⟩

/-- A template that leads to a slot is that of the entry which opens the namespace of the slot. -/
lemma exists_of_leads (h : (d.build a).runIn w = (.ok p, w')) {j k : Nat} {key : Key}
    (hl : Leads p j key k) : ∃ path m i b hs es, (d.root a).at? path = some m ∧
      (d.root a).index path = j ∧ m.entries[i]? = some (.nested key b hs es) ∧
      (d.root a).index (path ++ [i]) = k := by
  obtain ⟨s, attributes, offset, hk, hs, ht, hchild⟩ := hl
  obtain ⟨path, m, i, e, content, hm, rfl, he, rfl, ht, hpres⟩ := exists_of_find? h hs ht
  cases ht
  obtain ⟨⟨key, b, hs, es, rfl⟩, hi⟩ := hpres.leads rfl hchild
  exact ⟨path, m, i, b, hs, es, hm, rfl, he, hi⟩

/-- Exactly one template leads to each slot but the first, from a slot further up. -/
lemma exists_owner (h : (d.build a).runIn w = (.ok p, w')) {j : Nat} (hj0 : 0 < j) (hj : j < p.size) :
    ∃ i key, i < j ∧ Leads p i key j ∧ ∀ i' key', Leads p i' key' j → i' = i ∧ key' = key := by
  rw [size_of_build h] at hj
  obtain ⟨path, m, hm, rfl⟩ := Node.exists_path hj
  have hne : path ≠ [] := by
    rintro rfl
    exact Nat.lt_irrefl 0 hj0
  obtain ⟨q, b, i, rfl, hq, hc⟩ := Node.exists_parent hm hne
  obtain ⟨key, he⟩ := Node.child?_eq_some hc
  refine ⟨(d.root a).index q, key, ?_, leads_of_child h hq he, ?_⟩
  · rw [Node.index_concat hq hc]
    omega
  · intro j' key' hl
    obtain ⟨q', b', i', c, hs, es, hq', rfl, he', hi'⟩ := exists_of_leads h hl
    have hm' := (Node.at?_concat hq').trans (Node.child?_of_nested he')
    have hpath := Node.index_inj hm' hm hi'
    obtain ⟨rfl, hii⟩ := List.append_inj' hpath rfl
    cases hii
    cases hq.symm.trans hq'
    cases he.symm.trans he'
    exact ⟨rfl, rfl⟩

/-- Every prototype that is built is the definition laid out flat, and no build fails for a wrong count of
slots. -/
theorem build_faithful (d : Definition) (a : Attributes) (w : World) :
    (∀ built counted, ((d.build a).runIn w).1 ≠ .error (.breach (.miscount built counted))) ∧
      ∀ p w', (d.build a).runIn w = (.ok p, w') → ∃ functions, Faithful d a functions p w' := by
  refine ⟨?_, ?_⟩
  · intro built counted h
    obtain h | ⟨key, slot, h⟩ := build_error (Prod.ext h rfl)
    · cases h
    · cases h
  · intro p w' h
    refine ⟨(d.root a).function w.objects.size, size_of_build h, ?_, rfl, ?_,
      fun path m hm => slot_of_build h hm, Node.injOn_function _ _, fun j hj0 hj => exists_owner h hj0 hj⟩
    · rw [size_of_build h]
      exact Node.index_bijOn _
    · intro path m i c hm hc
      rw [Node.index_concat hm hc, nestedCount_eq_sum]

/-- A definition with a literal, two nested namespaces and one inside them, a computed property, a method and
hooks. -/
def fileSystem : Definition where
  entries := [
    .leaf (.string "version") .none (.literal "1.0"),
    .nested (.string "fs") .all {} [
      .leaf (.string "open") .method (.method (.hosted 0) 1),
      .nested (.string "stat") .method {} [.leaf (.string "size") .all (.dynamic (.hosted 0) 2)]],
    .nested (.string "env") .all { catchAll := some (.hosted 0), enumerator := some (.hosted 0) } []]

/-- `build_faithful` with a heap of which not a byte is left over. -/
theorem fileSystem_faithful : ∃ p w', (fileSystem.build .all).runIn (({} : World).renew (some 899)) =
    (.ok p, w') ∧ ∃ functions, Faithful fileSystem .all functions p w' := by
  have h := (build_eq_ok (d := fileSystem) (a := .all) (w := ({} : World).renew (some 899))).2
    ⟨by decide, by decide, rfl, rfl⟩
  exact ⟨_, _, h, (build_faithful fileSystem .all _).2 _ _ h⟩

end Definition

end HostBinding
