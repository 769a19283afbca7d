import HostBinding.Proofs.Effect

/-!
# Ways to functions

Some keys lead from a wrapper to a function object: the last one is the key of a method, and those before it
open namespaces. A part of the way may be open already, from there on it leads through the prototype. Writes
and deletions of its keys may block a way. Reads do not, as long as they are for the host data of the wrappers:
they open more of it, and what they open carries the same host data.

* `Definition.Within`, `Prototype.Way`, `World.Way`: keys that lead through a definition, a prototype, and a
  world.
* `Definition.Within.way`: the keys that lead to a method lead to its function object in the built prototype.
* `Guarantee.retains`: what neither reads nor changes a key leaves the place where its lookup ends.
* `World.Respects`, `Course`: an event that does not disturb a way, and a run of such events.
* `Step.way`, `Course.way`: the way is still there after a step, and after a run.
* `World.Way.follow`: who has room for it can go the way.
-/

namespace HostBinding

variable {T : ObjectId → Key → Prop} {U : Set Prototype} {w w' : World} {o g c : ObjectId} {key : Key}
  {keys : List Key} {e : External} {host : HostAddress} {p : Prototype} {m m' : Machine} {ev : Event}

/-! ## Ways through definitions and prototypes -/

/-- Some keys lead from a table to a nested one: each is the key of an entry that opens a namespace. -/
inductive Definition.Within : List Entry → List Key → List Entry → Prop
  | here (es : List Entry) : Within es [] es
  | into {es inner there : List Entry} {key : Key} {a : Attributes} {hs : Hooks} {keys : List Key}
    (he : .nested key a hs inner ∈ es) (h : Within inner keys there) : Within es (key :: keys) there

/-- Some keys lead from a slot of a prototype to a function object. -/
inductive Prototype.Way (p : Prototype) (g : ObjectId) : Nat → List Key → Prop
  /-- The last one is the key of a method. -/
  | method {i : Nat} {slot : Slot} {key : Key} {a : Attributes} (hs : p.slots[i]? = some slot)
    (ht : slot.templates.find? key = some ⟨a, .value (.object g)⟩) : Way p g i [key]
  /-- The keys before it open namespaces. -/
  | into {i j : Nat} {key : Key} {keys : List Key} (hl : Definition.Leads p i key j) (h : Way p g j keys) :
    Way p g i (key :: keys)

/-- The keys that lead to a method of a definition lead to its function object in the built prototype. The
function object has the name, the function and the tag of the method. -/
lemma Definition.Within.way {d : Definition} {a b : Attributes} {es there : List Entry} {path : List Nat}
    {n : Node} {f : HostFunction} {magic : Int32} (hw : Within es keys there)
    (h : (d.build a).runIn w = (.ok p, w')) (he : .leaf key b (.method f magic) ∈ there)
    (hn : (d.root a).at? path = some n) (hes : n.entries = es) :
    ∃ g, p.Way g ((d.root a).index path) (keys ++ [key]) ∧
      w'.object g = { kind := .function ⟨key.text, f, magic⟩ } := by
  induction hw generalizing path n with
  | here es =>
    subst hes
    obtain ⟨i, hi⟩ := List.mem_iff_getElem?.1 he
    obtain ⟨s, hs, -, -, -, htemplates⟩ := slot_of_build h hn
    obtain ⟨content, hfind, rfl, hg⟩ := htemplates i _ hi
    exact ⟨_, .method hs hfind, hg⟩
  | into hnested _ ih =>
    subst hes
    obtain ⟨i, hi⟩ := List.mem_iff_getElem?.1 hnested
    obtain ⟨g, hway, hg⟩ := ih he ((Node.at?_concat hn).trans (Node.child?_of_nested hi)) rfl
    exact ⟨g, .into (leads_of_child h hn hi) hway, hg⟩

namespace External

/-- A wrapper shows the slot that it is for. -/
lemma view_eq {s : Slot} (h : e.prototype.slots[e.slot]? = some s) : e.view = s := by
  obtain ⟨hi, rfl⟩ := Array.getElem?_eq_some_iff.1 h
  rfl

/-- The template at the beginning of a way is that of the method if the way ends there, and else that of a
namespace from which the way goes on. -/
lemma way_cases (h : e.prototype.Way g e.slot (key :: keys)) :
    (keys = [] ∧ ∃ a, e.view.templates.find? key = some ⟨a, .value (.object g)⟩) ∨
      ∃ a offset child, e.view.templates.find? key = some ⟨a, .nested offset⟩ ∧
        e.prototype.child e.slot offset = .ok child ∧ e.prototype.Way g child.1 keys := by
  cases h with
  | method hs ht =>
    rw [← view_eq hs] at ht
    exact .inl ⟨rfl, _, ht⟩
  | into hl h =>
    obtain ⟨s, a, offset, hj, hs, ht, hchild⟩ := hl
    rw [← view_eq hs] at ht
    exact .inr ⟨a, offset, _, ht, hchild, h⟩

/-- No computed property is on a way. -/
lemma not_dynamic_of_way (h : e.prototype.Way g e.slot (key :: keys)) (a : Attributes) (f : HostFunction)
    (magic : Int32) : e.view.templates.find? key ≠ some ⟨a, .dynamic f magic⟩ := by
  rcases way_cases h with ⟨-, b, ht⟩ | ⟨b, offset, child, ht, -, -⟩
  · rw [ht]
    rintro ⟨⟩
  · rw [ht]
    rintro ⟨⟩

end External

/-- A way has at least one key. -/
lemma Prototype.Way.exists_cons {i : Nat} (h : p.Way g i keys) : ∃ key rest, keys = key :: rest := by
  cases h with
  | method hs ht => exact ⟨_, _, rfl⟩
  | into hl h => exact ⟨_, _, rfl⟩

/-! ## Lookups that are left alone -/

/-- A wrapper is still the same, and the lookup of a key in it ends where it did. -/
def Object.Retains (key : Key) (x x' : Object) : Prop :=
  ∀ e, x.external? = some e → ∃ e', x'.external? = some e' ∧ e.Persists e' ∧
    External.search x'.properties e' key = External.search x.properties e key

/-- Where a lookup ends depends on the own property, on the template, and on whether that is deleted. -/
lemma External.search_congr {x x' : OrderedMap Key Property} {e' : External}
    (hk : x'.find? key = x.find? key) (hv : e'.view = e.view) (hd : key ∈ e'.deleted ↔ key ∈ e.deleted) :
    search x' e' key = search x e key := by
  unfold search
  rw [hk, hv]
  simp only [hd]

/-- A lookup that ends at an own property finds its value. -/
lemma Object.valueAt_of_own {x : Object} {q : Property}
    (hs : External.search x.properties e key = .own q) : x.valueAt key = some q.value := by
  rw [valueAt, External.search_eq_own hs, Option.map_some]

namespace Object.Retains

variable {x x' x'' : Object} {k : Key}

/-- A lookup in the same object ends the same. -/
lemma refl (key : Key) (x : Object) : x.Retains key x := fun e he => ⟨e, he, .refl e, rfl⟩

/-- Lookups that end the same do so in a row. -/
lemma trans (h : x.Retains key x') (h' : x'.Retains key x'') : x.Retains key x'' := by
  intro e he
  obtain ⟨e', he', hp, hs⟩ := h e he
  obtain ⟨e'', he'', hp', hs'⟩ := h' e' he'
  exact ⟨e'', he'', hp.trans hp', hs'.trans hs⟩

/-- A lookup sees the kind and the own properties only. -/
lemma of_eq (hk : x'.kind = x.kind) (hp : x'.properties = x.properties) : x.Retains key x' := by
  intro e he
  rw [hp]
  exact ⟨e, by rwa [external?, hk], .refl e, rfl⟩

/-- A property under another key is no matter. -/
lemma put (hk : key ≠ k) (x : Object) (q : Property) : x.Retains key (x.put k q) :=
  fun e he => ⟨e, he, .refl e, External.search_congr ((x.revises_put k q).others key hk) rfl Iff.rfl⟩

/-- The deletion of another key is no matter. -/
lemma without (hk : key ≠ k) (hx : x.external? = some e) : x.Retains key (External.without x e k) := by
  intro e' he'
  cases hx.symm.trans he'
  have hd : key ∈ (if e.view.templates.contains k then e.delete k else e).deleted ↔ key ∈ e.deleted := by
    split
    · rw [External.mem_deleted_delete, or_iff_left hk]
    · rfl
  obtain ⟨_, ⟨⟩, hp⟩ := (External.revises_without hx k).external e hx
  exact ⟨_, rfl, hp, External.search_congr ((External.revises_without hx k).others key hk) hp.view hd⟩

end Object.Retains

/-- An edit leaves the lookups of other keys alone. -/
lemma Object.Edit.retains {x x' : Object} {k : Key} (h : x.Edit k x') (hk : key ≠ k) : x.Retains key x' := by
  cases h with
  | keep v hx hn ht hd => exact .put hk x _
  | cover v hx hn hd ht hw => exact .put hk x _
  | assign v hq hw => exact .put hk x _
  | define v hs hx =>
    rw [eq_put_of_define hx]
    exact .put hk x _
  | erase hx hc => exact .without hk hx
  | remove hx hq hc =>
    intro e he
    cases hx.symm.trans he

/-- A change leaves the lookup of a key as it is that it does not touch. -/
lemma Change.retains (h : Change T U w w') (ht : ¬ T o key) : (w.object o).Retains key (w'.object o) := by
  intro e he
  rcases h.object (World.index_lt_of_external he) with ⟨k, hk, hx⟩ | ⟨hk, hp⟩
  · exact hx.retains (by rintro rfl; exact ht hk) e he
  · exact Object.Retains.of_eq hk hp e he

/-- Changes in a row leave the lookup of a key as it is that they do not touch. -/
lemma Chain.retains (h : Chain T U w w') (ht : ¬ T o key) : (w.object o).Retains key (w'.object o) := by
  induction h with
  | refl => exact .refl key _
  | tail _ hc ih => exact ih.trans (hc.retains ht)

/-- What is neither a read nor an accepted write or deletion of a key leaves the place where its lookup ends. -/
lemma Guarantee.retains (hg : Guarantee ev.op ev.began w ev.halt w') (hr : ¬ ev.op.reads ev.began o key)
    (he : ¬ ev.Accepted o key) : (w.object o).Retains key (w'.object o) := by
  by_cases ht : ev.op.touches ev.began o key
  · rw [World.object, World.object, hg.objects_eq hr he ht]
    exact .refl key _
  · exact hg.chain.retains ht

/-! ## Ways through a world -/

/-- A wrapper around host data, with a way through its prototype by some keys from its slot to a function
object. -/
structure World.Offers (w : World) (host : HostAddress) (g : ObjectId) (keys : List Key) (o : ObjectId)
    (e : External) : Prop where
  external : (w.object o).external? = some e
  host : e.host = host
  way : e.prototype.Way g e.slot keys

/-- Some keys lead from a wrapper around host data to a function object. -/
inductive World.Way (w : World) (host : HostAddress) (g : ObjectId) : List Key → ObjectId → Prop
  /-- The way leads through the prototype. -/
  | closed {o : ObjectId} {e : External} {t : Template} {key : Key} {keys : List Key}
    (ho : w.Offers host g (key :: keys) o e)
    (hs : External.search (w.object o).properties e key = .template t) : Way w host g (key :: keys) o
  /-- The first namespace is open, and the way leads on from its wrapper. -/
  | opened {o c : ObjectId} {e : External} {q : Property} {key : Key} {keys : List Key}
    (ho : w.Offers host g (key :: keys) o e)
    (hs : External.search (w.object o).properties e key = .own q) (hv : q.value = .object c)
    (h : Way w host g keys c) : Way w host g (key :: keys) o

namespace World

variable (key : Key) (q : Property) (i : External)

/-- The wrapper gets the property of the namespace. -/
lemma object_opened_self (hx : (w.object o).external? = some e) :
    (w.opened o key q i).object o = (w.object o).put key q := by
  have ho := index_lt_of_external hx
  rw [opened, object_update _ o o _ (by rw [size_allocate]; exact Nat.lt_succ_of_lt ho), if_pos rfl]

/-- The namespace gets a new wrapper without own properties. -/
lemma object_opened_new (hx : (w.object o).external? = some e) :
    (w.opened o key q i).object ⟨w.objects.size⟩ = { kind := .external i } := by
  have hne : (⟨w.objects.size⟩ : ObjectId) ≠ o := by
    rintro rfl
    exact Nat.lt_irrefl _ (index_lt_of_external hx)
  rw [opened, object_update_of_ne _ hne]
  exact (object_allocate (w.spend (Cost.property + Cost.external)) _ _ (Nat.le_refl _)).trans (if_pos rfl)

/-- The other objects are left as they are. -/
lemma object_opened_of_ne (hc : c.index < w.objects.size) (hne : c ≠ o) :
    (w.opened o key q i).object c = w.object c := by
  rw [opened, object_update_of_ne _ hne]
  exact object_allocate_of_lt (w := w.spend (Cost.property + Cost.external)) _ hc

/-- There is one more object. -/
lemma size_opened (w : World) (o : ObjectId) : (w.opened o key q i).objects.size = w.objects.size + 1 := by
  rw [opened, size_update, size_allocate]
  rfl

variable {key : Key}

/-- A wrapper offers a way as long as it is there. -/
lemma Offers.of_persists {e' : External} (h : w.Offers host g keys o e)
    (hx : (w'.object o).external? = some e') (hp : e.Persists e') : w'.Offers host g keys o e' := by
  refine ⟨hx, hp.host.trans h.host, ?_⟩
  rw [hp.prototype, hp.slot]
  exact h.way

/-- A wrapper without properties and deletions is at the beginning of the ways that it offers. -/
lemma Offers.fresh (h : w.Offers host g keys o e) (hd : e.deleted = [])
    (hp : (w.object o).properties = ∅) : w.Way host g keys o := by
  obtain ⟨key, rest, rfl⟩ := h.way.exists_cons
  have hk : (w.object o).properties.find? key = none := by
    rw [hp]
    rfl
  have hnot : key ∉ e.deleted := by
    rw [hd]
    exact List.not_mem_nil
  obtain ⟨t, ht⟩ : ∃ t, e.view.templates.find? key = some t := by
    rcases External.way_cases h.way with ⟨-, a, ht⟩ | ⟨a, offset, child, ht, -, -⟩
    · exact ⟨_, ht⟩
    · exact ⟨_, ht⟩
  exact .closed h (External.search_template hk hnot ht)

variable {a : Attributes} {child : { i : Nat // i < e.prototype.slots.size }}

/-- A way leads on from the wrapper of a namespace that is opened for the host data of the wrapper around
it. -/
lemma Offers.way_inner (h : w.Offers host g (key :: keys) o e) (hw : e.prototype.Way g child.1 keys) :
    (w.opened o key ⟨.object ⟨w.objects.size⟩, a⟩ (e.inner child.2 host)).Way host g keys
      ⟨w.objects.size⟩ := by
  have hnew := object_opened_new key ⟨.object ⟨w.objects.size⟩, a⟩ (e.inner child.2 host) h.external
  refine Offers.fresh (e := e.inner child.2 host) ⟨?_, rfl, hw⟩ rfl ?_
  · rw [hnew]
    rfl
  · rw [hnew]

/-- A way is still there when its first namespace is opened for the host data of the wrapper. -/
lemma Offers.way_opened (h : w.Offers host g (key :: keys) o e) (hw : e.prototype.Way g child.1 keys) :
    (w.opened o key ⟨.object ⟨w.objects.size⟩, a⟩ (e.inner child.2 host)).Way host g (key :: keys) o := by
  have hself := object_opened_self key ⟨.object ⟨w.objects.size⟩, a⟩ (e.inner child.2 host) h.external
  refine .opened (h.of_persists ?_ (.refl e)) (External.search_own e (p := ⟨.object ⟨w.objects.size⟩, a⟩) ?_)
    rfl (h.way_inner hw)
  · rw [hself]
    exact h.external
  · rw [hself, Object.put, OrderedMap.find?_insert, if_pos rfl]

end World

/-- A namespace of a wrapper is opened, or nothing happens for want of room. -/
lemma External.runIn_open {a : Attributes} {offset : Nat} {child : { i : Nat // i < e.prototype.slots.size }}
    (hx : (w.object o).external? = some e)
    (hs : search (w.object o).properties e key = .template ⟨a, .nested offset⟩)
    (hc : e.prototype.child e.slot offset = .ok child) (host : HostAddress) :
    (materializeNested o key offset host).runIn w =
      if w.budget.allows (Cost.property + Cost.external) then
        (.ok (.object ⟨w.objects.size⟩), w.opened o key
          ⟨.object ⟨w.objects.size⟩, (e.prototype.slot child.1 child.2).attributes⟩ (e.inner child.2 host))
      else (.error .outOfMemory, w) := by
  rw [runIn_materializeNested hx (search_eq_template hs).1 hc, World.spend_spend]
  rfl

/-- A way is still there when its first namespace is to be opened, whether there is room for that or not. -/
lemma World.Offers.way_materializeNested {a : Attributes} {offset : Nat}
    (h : w.Offers host g (key :: keys) o e)
    (hs : External.search (w.object o).properties e key = .template ⟨a, .nested offset⟩) :
    ((External.materializeNested o key offset host).runIn w).2.Way host g (key :: keys) o := by
  obtain ⟨-, -, ht⟩ := External.search_eq_template hs
  rcases External.way_cases h.way with ⟨-, a', ht'⟩ | ⟨a', offset', child, ht', hc, hrest⟩
  · cases ht.symm.trans ht'
  · cases ht.symm.trans ht'
    rw [External.runIn_open h.external hs hc]
    split
    · exact h.way_opened hrest
    · exact .closed h hs

/-! ## What keeps a way -/

/-- The operation reads for no host data but those of `o`. A read with `o` itself as the receiver does so. -/
def Operation.ReadsFor (op : Operation) (began : World) (o : ObjectId) : Prop :=
  ∀ b, op.behalf began = some b → began.host? (.object o) = some b

/-- An event does not disturb the way by some keys from an object: it is no accepted write or deletion of the
first key, if it reads the first key then for the host data of the object, and it does not disturb the rest of
the way where that is open. -/
def World.Respects (w : World) (ev : Event) : List Key → ObjectId → Prop
  | [], _ => True
  | key :: keys, o => ¬ ev.Accepted o key ∧ (ev.op.reads ev.began o key → ev.op.ReadsFor ev.began o) ∧
    ∀ c, (w.object o).valueAt key = some (.object c) → w.Respects ev keys c

/-- A run in which no step disturbs the way by some keys from `r`. -/
inductive Course (keys : List Key) (r : ObjectId) : Machine → Machine → Prop
  | nil (m : Machine) : Course keys r m m
  | cons {m m' m'' : Machine} {ev : Event} (h : Step m ev m') (hr : m.world.Respects ev keys r)
    (hrest : Course keys r m' m'') : Course keys r m m''

/-- A course is a run. -/
lemma Course.run {r : ObjectId} (h : Course keys r m m') : ∃ es, Run m es m' := by
  induction h with
  | nil m => exact ⟨[], .nil m⟩
  | cons hstep _ _ ih =>
    obtain ⟨es, hrun⟩ := ih
    exact ⟨_, .cons hstep hrun⟩

/-- A step that reads a key at which there is no computed property leaves the world as it is, or opens a
namespace for the host data of the receiver. -/
lemma Step.world_of_reads (hb : m.Begun) (h : Step m ev m') (hr : ev.op.reads ev.began o key)
    (hx : (m.world.object o).external? = some e)
    (hn : ∀ a f magic, e.view.templates.find? key ≠ some ⟨a, .dynamic f magic⟩) :
    m'.world = m.world ∨ ∃ a offset b,
      External.search (m.world.object o).properties e key = .template ⟨a, .nested offset⟩ ∧
      ev.began = m.world ∧ ev.op.behalf ev.began = some b ∧
      m'.world = ((External.materializeNested o key offset b).runIn m.world).2 := by
  cases h with
  | start w ps op =>
    rw [Machine.land_op, Machine.land_began] at hr ⊢
    have hread := Operation.reading hr hx
    generalize op.dialogue.start w = t at hread ⊢
    cases hread with
    | idle r => exact .inl rfl
    | forwarded q next h => exact .inl rfl
    | opened hb hs r => exact .inr ⟨_, _, _, hs, rfl, hb, rfl⟩
    | computed hb hs next h => exact absurd (External.search_eq_template hs).2.2 (hn _ _ _)
    | blank hb hs r => exact absurd (External.search_eq_template hs).2.2 (hn _ _ _)
  | answer w q ps y =>
    rw [Machine.land_op, Machine.land_began] at hr
    obtain ⟨e₀, hx₀, hresumes⟩ := (hb.asked q (List.mem_cons_self ..)).resumes hr
    cases hresumes with
    | forwarded hnext =>
      obtain ⟨r, hr⟩ := hnext y w
      dsimp only
      rw [hr]
      exact .inl rfl
    | computed hhost ht hnext =>
      -- The wrapper is the one for which the read was started, so there would be a computed property.
      obtain ⟨e', hx', hpers⟩ := (hb.ordered _ (List.mem_cons_self ..)).external o e₀ hx₀
      cases hx.symm.trans hx'
      rw [← hpers.view] at ht
      exact absurd ht (hn _ _ _)
  | refuse w q ps f => exact .inl rfl

/-- A step that reads the first key of a way does not disturb it if it reads for the host data of the wrapper. -/
lemma Step.way_of_reads (hb : m.Begun) (h : Step m ev m') (hr : ev.op.reads ev.began o key)
    (hfor : ev.op.ReadsFor ev.began o) (ho : m.world.Offers host g (key :: keys) o e)
    (hw : m.world.Way host g (key :: keys) o) : m'.world.Way host g (key :: keys) o := by
  rcases h.world_of_reads hb hr ho.external (External.not_dynamic_of_way ho.way) with
    hsame | ⟨a, offset, b, hs, hbegan, hbehalf, hopened⟩
  · rwa [hsame]
  · have hhost := hfor b hbehalf
    rw [hbegan, World.host?_object ho.external, ho.host] at hhost
    cases hhost
    rw [hopened]
    exact ho.way_materializeNested hs

/-- A way is still there after a step that does not disturb it. -/
lemma Step.way (hm : m.Sound Guarantee) (hb : m.Begun) (h : Step m ev m') (hw : m.world.Way host g keys o)
    (hr : m.world.Respects ev keys o) : m'.world.Way host g keys o := by
  have hg := (contract_guarantee.step hm h).1
  -- The induction is on the way: what is done to a namespace that is open concerns the rest of it.
  induction hw with
  | @closed o e t key keys ho hs =>
    obtain ⟨haccepted, hfor, -⟩ := hr
    by_cases hreads : ev.op.reads ev.began o key
    · exact h.way_of_reads hb hreads (hfor hreads) ho (.closed ho hs)
    · obtain ⟨e', hx, hp, hsearch⟩ := hg.retains hreads haccepted e ho.external
      exact .closed (ho.of_persists hx hp) (hsearch.trans hs)
  | @opened o c e q key keys ho hs hv hw ih =>
    obtain ⟨haccepted, hfor, hrest⟩ := hr
    by_cases hreads : ev.op.reads ev.began o key
    · exact h.way_of_reads hb hreads (hfor hreads) ho (.opened ho hs hv hw)
    · obtain ⟨e', hx, hp, hsearch⟩ := hg.retains hreads haccepted e ho.external
      have hvalue := Object.valueAt_of_own hs
      rw [hv] at hvalue
      exact .opened (ho.of_persists hx hp) (hsearch.trans hs) hv (ih (hrest c hvalue))

/-- A way is still there after a run that does not disturb it. -/
theorem Course.way {r : ObjectId} (hm : m.Sound Guarantee) (hb : m.Begun) (h : Course keys r m m')
    (hw : m.world.Way host g keys r) : m'.world.Way host g keys r := by
  induction h with
  | nil m => exact hw
  | cons hstep hr _ ih => exact ih (contract_guarantee.step hm hstep).2 (hstep.begun hm hb) (hstep.way hm hb hw hr)

/-! ## Going the way -/

/-- How many of some namespaces, each inside the one before, are not open yet. -/
def World.unopened (w : World) : List Key → ObjectId → Nat
  | [], _ => 0
  | key :: keys, o =>
    match (w.object o).valueAt key with
    | some (.object c) => w.unopened keys c
    | _ => keys.length + 1

/-- There are no more namespaces to open than there are keys. -/
lemma World.unopened_le (w : World) (keys : List Key) (o : ObjectId) : w.unopened keys o ≤ keys.length := by
  induction keys generalizing o with
  | nil => exact Nat.le_refl 0
  | cons key keys ih =>
    rw [unopened]
    split
    · exact Nat.le_succ_of_le (ih _)
    · exact Nat.le_refl _

/-- At a template neither its namespace is open nor one behind it. -/
lemma World.unopened_of_template {t : Template}
    (hs : External.search (w.object o).properties e key = .template t) :
    w.unopened (key :: keys) o = keys.length + 1 := by
  rw [unopened, Object.valueAt, (External.search_eq_template hs).1]
  rfl

/-- Behind an open namespace the wrapper in it tells how many are not open. -/
lemma World.unopened_of_own {q : Property} (hs : External.search (w.object o).properties e key = .own q)
    (hv : q.value = .object c) : w.unopened (key :: keys) o = w.unopened keys c := by
  rw [unopened, Object.valueAt_of_own hs, hv]

namespace Access

/-- Following keys is reading the first one and following the others. -/
lemma start_follow_cons {v v' : Value} (h : (read v key).start w = .done (.ok v') w') (keys : List Key) :
    (follow v (key :: keys)).start w = (follow v' keys).start w' := by
  rw [follow, Dialogue.start_bind, h]
  rfl

/-- What is there is read at once. -/
lemma start_read_value {v : Value} (hx : (w.object o).external? = some e)
    (hv : (External.search (w.object o).properties e key).value? = some v) :
    (read (.object o) key).start w = .done (.ok v) w :=
  start_get_value hx hv _

/-- A namespace is opened for the host data of the wrapper when it is read. -/
lemma start_read_nested {a : Attributes} {offset : Nat} (hx : (w.object o).external? = some e)
    (hs : External.search (w.object o).properties e key = .template ⟨a, .nested offset⟩) :
    (read (.object o) key).start w = .done ((External.materializeNested o key offset e.host).runIn w).1
      ((External.materializeNested o key offset e.host).runIn w).2 :=
  start_get_nested ⟨hx, hs, rfl⟩ (World.host?_object hx)

end Access

/-- All wrappers on a way bear the host data of the first one. -/
lemma World.Way.exists_external (h : w.Way host g keys o) :
    ∃ e, (w.object o).external? = some e ∧ e.host = host := by
  cases h with
  | closed ho hs => exact ⟨_, ho.external, ho.host⟩
  | opened ho hs hv hrest => exact ⟨_, ho.external, ho.host⟩

/-- What is read at the end of a way is the function object. -/
lemma World.Way.start_read (h : w.Way host g [key] o) :
    (Access.read (.object o) key).start w = .done (.ok (.object g)) w := by
  cases h with
  | closed ho hs =>
    rcases External.way_cases ho.way with ⟨-, a, ht⟩ | ⟨a, offset, child, -, -, hrest⟩
    · cases (External.search_eq_template hs).2.2.symm.trans ht
      exact Access.start_read_value ho.external (by rw [hs]; rfl)
    · obtain ⟨_, _, ⟨⟩⟩ := hrest.exists_cons
  | opened ho hs hv hrest => cases hrest

/-- The first namespace of a way can be opened by who has room for it. -/
lemma World.Offers.start_read {t : Template} (h : w.Offers host g (key :: keys) o e) (hk : keys ≠ [])
    (hs : External.search (w.object o).properties e key = .template t)
    (hb : w.budget.allows (Cost.property + Cost.external) = true) :
    ∃ q i, q.value = .object ⟨w.objects.size⟩ ∧
      (Access.read (.object o) key).start w = .done (.ok q.value) (w.opened o key q i) ∧
      (w.opened o key q i).Way host g keys ⟨w.objects.size⟩ := by
  obtain ⟨-, -, ht⟩ := External.search_eq_template hs
  rcases External.way_cases h.way with ⟨hnil, -⟩ | ⟨a, offset, child, ht', hc, hrest⟩
  · exact absurd hnil hk
  · cases ht.symm.trans ht'
    have hread := Access.start_read_nested h.external hs
    rw [External.runIn_open h.external hs hc, if_pos hb, h.host] at hread
    exact ⟨⟨.object ⟨w.objects.size⟩, _⟩, _, rfl, hread, h.way_inner hrest⟩

/-- Who has room for the namespaces that are not open yet can go a way up to its last key, without asking the
host. Objects that are no wrappers are still what they were then. -/
lemma World.Way.follow (h : w.Way host g (keys ++ [key]) o)
    (hb : w.budget.allows (w.unopened keys o * (Cost.property + Cost.external)) = true) :
    ∃ c w', (Access.follow (.object o) keys).start w = .done (.ok (.object c)) w' ∧
      w'.Way host g [key] c ∧
      ∀ o', o'.index < w.objects.size → (w.object o').external? = none → w'.object o' = w.object o' := by
  induction keys generalizing w o with
  | nil => exact ⟨o, w, rfl, h, fun _ _ _ => rfl⟩
  | cons k ks ih =>
    cases h with
    | @closed _ e t _ _ ho hs =>
      -- The first namespace costs as much as each of those behind it, of which none is open yet.
      rw [unopened_of_template hs, Nat.succ_mul, Nat.add_comm] at hb
      have hfirst := Budget.allows_mono (Nat.le_add_right _ _) hb
      have hne := List.append_ne_nil_of_right_ne_nil ks (List.cons_ne_nil key [])
      obtain ⟨q, i, hq, hread, hway⟩ := ho.start_read hne hs hfirst
      have hrest : (w.opened o k q i).budget.allows
          ((w.opened o k q i).unopened ks ⟨w.objects.size⟩ * (Cost.property + Cost.external)) = true := by
        rw [← allows_spend] at hb
        exact Budget.allows_mono (Nat.mul_le_mul_right _ (unopened_le _ _ _)) hb
      obtain ⟨c, w', hfollow, hlast, hkeeps⟩ := ih hway hrest
      refine ⟨c, w', ?_, hlast, fun o' hlt hplain => ?_⟩
      · rw [hq] at hread
        rw [Access.start_follow_cons hread, hfollow]
      · have hother : o' ≠ o := by
          rintro rfl
          cases hplain.symm.trans ho.external
        have hobject := object_opened_of_ne k q i hlt hother
        rw [hkeeps o' ?_ (by rwa [hobject]), hobject]
        rw [size_opened]
        exact Nat.lt_succ_of_lt hlt
    | @opened _ c e q _ _ ho hs hv hrest =>
      have hread : (Access.read (.object o) k).start w = .done (.ok (.object c)) w := by
        apply Access.start_read_value ho.external
        rw [hs, External.Found.value?, hv]
      rw [unopened_of_own hs hv] at hb
      obtain ⟨c', w', hfollow, hlast, hkeeps⟩ := ih hrest hb
      exact ⟨c', w', by rw [Access.start_follow_cons hread, hfollow], hlast, hkeeps⟩

end HostBinding
