import HostBinding.Proofs.Accounting
import HostBinding.Proofs.Ledger
import Mathlib.Algebra.BigOperators.Fin
import Mathlib.Algebra.Order.BigOperators.Group.List

/-!
# What is still to be made

Reads charge for what templates stand for, and for nothing else. What all reads together can still charge is
known in advance: so much for each template that is neither covered nor deleted, and, where it stands for a
namespace, so much for all that lies below. Reads pay it off, writes and deletions can only lower it, and an
instance adds what its prototype stands for, which the definition tells.

* `Prototype.dues`, `Object.dues`, `World.dues`: what is still to be charged for templates.
* `World.Effect.dues_le`, `World.Effect.bill_add_dues`: nothing raises it, and reads lower it by what they
  charge.
* `World.Concluded`: a key under which nothing is to be made any more.
* `Definition.lazyCount`, `Definition.dues_of_build`: what a prototype stands for.
-/

namespace HostBinding

variable {c : Tariff} {w v w' : World} {o : ObjectId} {key : Key} {e : External} {reads : Bool}

/-- Sums over a table, the terms of which differ for one key only. -/
lemma OrderedMap.sum_map_of_ne {κ α : Type} [DecidableEq κ] {m : OrderedMap κ α} {k : κ} {x : α}
    {f g : κ × α → Nat} (hk : m.find? k = some x) (hfg : ∀ entry, entry.1 ≠ k → f entry = g entry) :
    (m.entries.map f).sum + g (k, x) = (m.entries.map g).sum + f (k, x) := by
  have hnodup := m.nodup
  obtain ⟨l, r, heq⟩ := List.append_of_mem (mem_of_find? hk)
  rw [heq, List.map_append, List.map_cons, List.nodup_middle, List.nodup_cons, List.mem_append,
    not_or] at hnodup
  obtain ⟨⟨hkl, hkr⟩, -⟩ := hnodup
  have hl : l.map f = l.map g := by
    refine List.map_congr_left fun entry he => hfg entry ?_
    rintro rfl
    exact hkl (List.mem_map_of_mem (f := Prod.fst) (a := entry) he)
  have hr : r.map f = r.map g := by
    refine List.map_congr_left fun entry he => hfg entry ?_
    rintro rfl
    exact hkr (List.mem_map_of_mem (f := Prod.fst) (a := entry) he)
  simp only [heq, List.map_append, List.map_cons, List.sum_append, List.sum_cons, hl, hr]
  omega

/-! ## What templates stand for -/

namespace Prototype

/-- What is charged for all that the templates of a slot stand for, namespaces with all that lies below. -/
def dues (c : Tariff) (p : Prototype) (index : Nat) : Nat :=
  match p.slots[index]? with
  | none => 0
  | some s => (s.templates.entries.map fun entry =>
      match entry.2.content with
      | .value _ => 0
      | .dynamic _ _ => c.property
      | .nested offset =>
        if _h : 0 < offset ∧ index + offset < p.slots.size then
          c.property + c.wrapper + p.dues c (index + offset)
        else 0).sum
termination_by p.slots.size - index

/-- What is charged for what a template stands for. A namespace that is not there cannot be opened. -/
def due (c : Tariff) (p : Prototype) (index : Nat) : Template.Content → Nat
  | .value _ => 0
  | .dynamic _ _ => c.property
  | .nested offset =>
    if 0 < offset ∧ index + offset < p.slots.size then c.property + c.wrapper + p.dues c (index + offset)
    else 0

/-- The dues of a slot are those of its templates. -/
lemma dues_eq {p : Prototype} {index : Nat} {s : Slot} (hs : p.slots[index]? = some s) :
    p.dues c index = (s.templates.entries.map fun entry => p.due c index entry.2.content).sum := by
  rw [dues, hs]
  rfl

end Prototype

/-! ## Wrappers -/

open scoped Classical in
/-- What is still to be charged for a template of a wrapper: nothing if it is out of use. -/
noncomputable def Object.due (c : Tariff) (x : Object) (e : External) (entry : Key × Template) : Nat :=
  if x.Settled entry.1 then 0 else e.prototype.due c e.slot entry.2.content

/-- What is still to be charged for the templates of an object. -/
noncomputable def Object.dues (c : Tariff) (x : Object) : Nat :=
  match x.external? with
  | some e => (e.view.templates.entries.map (x.due c e)).sum
  | none => 0

/-- What is still to be charged for all templates. -/
noncomputable def World.dues (c : Tariff) (w : World) : Nat := w.total (Object.dues c)

/-- A lookup ends at a template that is in use. -/
lemma External.not_settled_of_search {x : Object} {t : Template} (hx : x.external? = some e)
    (hs : search x.properties e key = .template t) : ¬ x.Settled key := by
  obtain ⟨hk, hd, ht⟩ := search_eq_template hs
  rintro (h | h)
  · exact h hk
  · rcases h e hx with h | h
    · exact hd h
    · cases ht.symm.trans h

namespace Object

variable {x x' : Object}

/-- Nothing is due in an object that is no wrapper. -/
lemma dues_of_plain (hx : x.external? = none) : x.dues c = 0 := by
  rw [dues, hx]

/-- The dues of a wrapper are those of the templates of its slot. -/
lemma dues_of_external (hx : x.external? = some e) :
    x.dues c = (e.view.templates.entries.map (x.due c e)).sum := by
  rw [dues, hx]

/-- Nothing is due under a key that is settled. -/
lemma due_of_settled {t : Template} (hs : x.Settled key) : x.due c e (key, t) = 0 := if_pos hs

/-- Under a key that is not settled all is due that its template stands for. -/
lemma due_of_not_settled {t : Template} (hs : ¬ x.Settled key) :
    x.due c e (key, t) = e.prototype.due c e.slot t.content := if_neg hs

/-- For a new wrapper, all that its slot stands for is still to be charged. -/
lemma dues_new (he : e.deleted = []) : dues c { kind := .external e } = e.prototype.dues c e.slot := by
  rw [Prototype.dues_eq (Array.getElem?_eq_getElem e.slot_lt)]
  apply congrArg List.sum
  apply List.map_congr_left
  rintro ⟨k, t⟩ ht
  apply if_neg
  rintro (h | h)
  · exact h rfl
  · rcases h e rfl with h | h
    · rw [he] at h
      cases h
    · cases (OrderedMap.find?_of_mem ht).symm.trans h

/-- A key that is settled stays so. -/
lemma Revises.settled_of {k : Key} (h : x.Revises key x') (hs : x.Settled k) : x'.Settled k := by
  by_cases hk : k = key
  · subst hk
    exact h.settled
  · exact hs.of_persists (h.others k hk) fun _ he' => h.exists_external he'

/-- What is done to an object under a key makes no template due. -/
lemma Revises.dues_le (h : x.Revises key x') : x'.dues c ≤ x.dues c := by
  cases hx : x.external? with
  | none =>
    rw [dues_of_plain (h.plain hx)]
    exact Nat.zero_le _
  | some e =>
    obtain ⟨e', hx', hpers⟩ := h.external e hx
    rw [dues_of_external hx, dues_of_external hx', hpers.view]
    apply List.sum_le_sum
    rintro ⟨k, t⟩ _
    by_cases hs' : x'.Settled k
    · rw [due_of_settled hs']
      exact Nat.zero_le _
    · rw [due_of_not_settled hs', due_of_not_settled fun hs => hs' (h.settled_of hs), hpers.prototype,
        hpers.slot]

/-- Putting a property settles no other key. -/
lemma settled_put_of_ne {k : Key} (hk : k ≠ key) (p : Property) : (x.put key p).Settled k ↔ x.Settled k := by
  rw [Settled, Settled, put, OrderedMap.find?_insert, if_neg (Ne.symm hk)]
  rfl

/-- With a property that covers a template, what was due for the template is no longer due. -/
lemma dues_put {t : Template} (hx : x.external? = some e)
    (hs : External.search x.properties e key = .template t) (p : Property) :
    (x.put key p).dues c + e.prototype.due c e.slot t.content = x.dues c := by
  obtain ⟨-, -, ht⟩ := External.search_eq_template hs
  have hx' : (x.put key p).external? = some e := hx
  -- The sums differ in the term of the template alone.
  have hsum := OrderedMap.sum_map_of_ne ht (f := (x.put key p).due c e) (g := x.due c e)
    fun entry hne => by rw [due, due, settled_put_of_ne hne]
  rw [due_of_settled (x.settled_put key p),
    due_of_not_settled (External.not_settled_of_search hx hs)] at hsum
  rw [dues_of_external hx, dues_of_external hx']
  exact hsum

end Object

/-! ## Worlds -/

namespace World

/-- A total is a sum over the store. -/
lemma total_eq_sum (f : Object → Nat) (w : World) :
    w.total f = ∑ i ∈ Finset.range w.objects.size, f (w.object ⟨i⟩) := by
  rw [total, ← Fin.sum_univ_fun_getElem, Finset.sum_range]
  apply Finset.sum_congr rfl
  intro i _
  rw [object, Array.getD_eq_getD_getElem?, Array.getElem?_eq_getElem i.2]
  rfl

/-- Nothing is due in a world without wrappers. -/
lemma dues_eq_zero (h : ∀ o, (w.object o).external? = none) : w.dues c = 0 := by
  rw [dues, total_eq_sum]
  exact Finset.sum_eq_zero fun i _ => Object.dues_of_plain (h ⟨i⟩)

/-- Objects that are no wrappers do not count. -/
lemma Calm.dues (h : w.Calm w') : w'.dues c = w.dues c := by
  rw [World.dues, World.dues, total_eq_sum, total_eq_sum]
  calc ∑ i ∈ Finset.range w'.objects.size, (w'.object ⟨i⟩).dues c
      = ∑ i ∈ Finset.range w.objects.size, (w'.object ⟨i⟩).dues c := by
        refine (Finset.sum_subset (Finset.range_mono h.size) fun i _ hi => ?_).symm
        exact Object.dues_of_plain (h.plain ⟨i⟩ fun hlt => hi (Finset.mem_range.2 hlt))
    _ = ∑ i ∈ Finset.range w.objects.size, (w.object ⟨i⟩).dues c :=
        Finset.sum_congr rfl fun i hi => by rw [h.objects ⟨i⟩ (Finset.mem_range.1 hi)]

/-- What is done to a wrapper makes no template due. -/
lemma dues_update_le {x : Object} (hx : (w.object o).external? = some e) (h : (w.object o).Revises key x) :
    (w.update o x).dues c ≤ w.dues c := by
  have hupdate := total_update (Object.dues c) (index_lt_of_external hx) x
  have hle := h.dues_le (c := c)
  rw [World.dues, World.dues]
  omega

/-- A property that covers a template pays for it. -/
lemma dues_update_put {t : Template} (hx : (w.object o).external? = some e)
    (hs : External.search (w.object o).properties e key = .template t) (p : Property) :
    (w.update o ((w.object o).put key p)).dues c + e.prototype.due c e.slot t.content = w.dues c := by
  have hupdate := total_update (Object.dues c) (index_lt_of_external hx) ((w.object o).put key p)
  have hput := Object.dues_put (c := c) hx hs p
  rw [World.dues, World.dues]
  omega

/-- A new wrapper adds what its slot stands for. -/
lemma dues_allocate (w : World) (he : e.deleted = []) :
    (w.allocate { kind := .external e }).2.dues c = w.dues c + e.prototype.dues c e.slot := by
  rw [World.dues, total_allocate, Object.dues_new he]
  rfl

/-- Where a namespace is opened, what lies below it is due on the new wrapper from then on. -/
lemma dues_opened {a : Attributes} {offset : Nat} {child : { i : Nat // i < e.prototype.slots.size }}
    (hx : (w.object o).external? = some e)
    (hs : External.search (w.object o).properties e key = .template ⟨a, .nested offset⟩)
    (hc : e.prototype.child e.slot offset = .ok child) (p : Property) (host : HostAddress) :
    c.property + c.wrapper + (w.opened o key p (e.inner child.2 host)).dues c = w.dues c := by
  obtain ⟨hslot, hoffset⟩ := Prototype.child_eq_ok hc
  have hdue : e.prototype.due c e.slot (.nested offset) =
      c.property + c.wrapper + e.prototype.dues c child.1 := by
    rw [Prototype.due, if_pos ⟨hoffset, hslot ▸ child.2⟩, hslot]
  obtain ⟨v, hv⟩ : ∃ v, v = ((w.spend (Cost.property + Cost.external)).allocate
    { kind := .external (e.inner child.2 host) }).2 := ⟨_, rfl⟩
  have hobject : v.object o = w.object o := by
    rw [hv]
    exact object_allocate_of_lt (w := w.spend (Cost.property + Cost.external)) _ (index_lt_of_external hx)
  have hnew : v.dues c = w.dues c + e.prototype.dues c child.1 := by
    rw [hv, dues_allocate _ rfl]
    rfl
  have hput := dues_update_put (c := c) (w := v) (by rwa [hobject]) (by rwa [hobject]) p
  rw [hobject, hdue, hnew] at hput
  rw [opened, ← hv]
  omega

namespace Effect

/-- No operation makes a template due. -/
lemma dues_le (h : w.Effect reads o key w') : w'.dues c ≤ w.dues c := by
  cases h with
  | calm h => exact h.dues.le
  | filled hv hx hk hr =>
    rw [← hv.dues]
    exact dues_update_le (w := World.spend _ _) (hv.external hx) (Object.revises_put _ _ _)
  | opened hx hs hc =>
    rw [← dues_opened (c := c) hx hs hc]
    exact Nat.le_add_left _ _
  | replaced hr hx hk => exact dues_update_le hx (Object.revises_put _ _ _)
  | erased hr hx => exact dues_update_le hx (External.revises_without hx key)

/-- A read pays off what it charges. -/
lemma bill_add_dues (h : w.Effect true o key w') : w.bill c w' + w'.dues c = w.dues c := by
  cases h with
  | calm h => rw [h.bill, h.dues, Nat.zero_add]
  | @filled v e p hv hx hk hr =>
    obtain ⟨a, f, magic, hs⟩ := hr rfl
    have hentries := entries_filled (hv.external hx) key p
    have hwrappers := wrappers_filled (hv.external hx) key p
    rw [hv.entries] at hentries
    rw [hv.wrappers] at hwrappers
    rw [← hv.object hx] at hs
    rw [bill_of_filled (not_mem_entries hk) hentries hwrappers, ← hv.dues, Nat.add_comm]
    exact dues_update_put (w := v.spend Cost.property) (hv.external hx) hs p
  | opened hx hs hc =>
    obtain ⟨hk, -, -⟩ := External.search_eq_template hs
    rw [bill_of_opened (not_mem_entries hk) w.not_mem_wrappers (entries_opened hx _ _ _)
      (wrappers_opened hx _ _ _)]
    exact dues_opened hx hs hc _ _
  | replaced hr hx hk => cases hr
  | erased hr hx => cases hr

end Effect

/-- So it is with reads in a row. -/
lemma bill_add_dues_of_reads (h : Relation.ReflTransGen Reading w w') : w.bill c w' + w'.dues c = w.dues c := by
  induction h with
  | refl => rw [(Calm.refl w).bill, Nat.zero_add]
  | tail hreads hread ih =>
    obtain ⟨hgrows, -⟩ := balanced_of_reads hreads
    obtain ⟨o, key, heffect⟩ := hread
    rw [hgrows.bill_trans heffect.grows, Nat.add_assoc, heffect.bill_add_dues, ih]

end World

/-- With an instance, all that its prototype stands for comes to be due. -/
lemma External.dues_wrap {p : Prototype} {host : HostAddress} {shared : Bool} {x : Value}
    (hrun : (wrap (some p) host shared).runIn w = (.ok x, w')) : w'.dues c = w.dues c + p.dues c 0 := by
  rcases runIn_wrap (some p) host shared w with ⟨f, -, heq⟩ | ⟨q, hq, ⟨⟩, heq⟩
  · rw [heq] at hrun
    cases hrun
  · rw [heq] at hrun
    cases hrun
    rw [World.dues_allocate _ rfl]
    rfl

/-! ## Keys under which nothing is to be made -/

/-- A key of a wrapper under which nothing is to be made any more: the template, if there is one that stands
for something, is out of use. -/
structure World.Concluded (w : World) (o : ObjectId) (key : Key) : Prop where
  wrapper : o ∈ w.wrappers
  settled : w.Deferred o key → (w.object o).Settled key

namespace World

/-- A key that has an own property is concluded. -/
lemma concluded_of_entry (h : (o, key) ∈ w.entries) : w.Concluded o key :=
  ⟨h.1, fun _ => .inl (Option.isSome_iff_ne_none.1 h.2)⟩

/-- Nothing is made under a key that is concluded. -/
lemma Concluded.not_template {t : Template} (h : w.Concluded o key) (hx : (w.object o).external? = some e)
    (hs : External.search (w.object o).properties e key = .template t) : t.content.isDeferred = false := by
  rw [← Bool.not_eq_true]
  intro hd
  obtain ⟨-, -, ht⟩ := External.search_eq_template hs
  exact External.not_settled_of_search hx hs (h.settled ⟨e, t, hx, ht, hd⟩)

/-- A key stays concluded where its object stays as it is. -/
lemma Concluded.of_object (h : w.Concluded o key) (hobject : w'.object o = w.object o) :
    w'.Concluded o key := by
  refine ⟨?_, ?_⟩
  · rw [mem_wrappers_iff, hobject]
    exact h.wrapper
  · rw [Deferred, hobject]
    exact h.settled

/-- A key stays concluded where its object is revised. -/
lemma Concluded.of_revises {k : Key} (h : w.Concluded o key)
    (hrevises : (w.object o).Revises k (w'.object o)) : w'.Concluded o key := by
  obtain ⟨e, hx⟩ := Option.isSome_iff_exists.1 h.wrapper
  obtain ⟨e', hx', hpers⟩ := hrevises.external e hx
  refine ⟨mem_wrappers hx', fun hd => hrevises.settled_of (h.settled ?_)⟩
  obtain ⟨e'', t, hx'', ht, hd⟩ := hd
  cases hx'.symm.trans hx''
  rw [hpers.view] at ht
  exact ⟨e, t, hx, ht, hd⟩

/-- A key stays concluded when bytes are spent. -/
lemma Concluded.spend (h : w.Concluded o key) (n : Nat) : (w.spend n).Concluded o key :=
  ⟨h.wrapper, h.settled⟩

/-- A key stays concluded when an object is made. -/
lemma Concluded.allocate (h : w.Concluded o key) (x : Object) : (w.allocate x).2.Concluded o key := by
  obtain ⟨e, hx⟩ := Option.isSome_iff_exists.1 h.wrapper
  exact h.of_object (object_allocate_of_lt x (index_lt_of_external hx))

/-- A key stays concluded when an object is revised in the store. -/
lemma Concluded.update {o' : ObjectId} {k : Key} {x : Object} (h : w.Concluded o key)
    (hx : (w.object o').Revises k x) : (w.update o' x).Concluded o key := by
  by_cases ho : o = o'
  · subst ho
    obtain ⟨e, he⟩ := Option.isSome_iff_exists.1 h.wrapper
    apply h.of_revises (k := k)
    rwa [object_update w o o x (index_lt_of_external he), if_pos rfl]
  · exact h.of_object (object_update_of_ne x ho)

/-- What is concluded stays so, whatever is done. -/
lemma Effect.concluded {reads : Bool} {o' : ObjectId} {k : Key} (h : w.Effect reads o' k w')
    (hc : w.Concluded o key) : w'.Concluded o key := by
  obtain ⟨e, hx⟩ := Option.isSome_iff_exists.1 hc.wrapper
  cases h with
  | calm h => exact hc.of_object (h.object hx)
  | filled hv hx' hk hr =>
    have hcv := hc.of_object (hv.object hx)
    exact (hcv.spend Cost.property).update (Object.revises_put _ _ _)
  | opened hx' hs hchild =>
    apply ((hc.spend _).allocate _).update
    rw [object_allocate_of_lt]
    · exact Object.revises_put _ _ _
    · exact index_lt_of_external hx'
  | replaced hr hx' hk => exact hc.update (Object.revises_put _ _ _)
  | erased hr hx' => exact hc.update (External.revises_without hx' _)

/-- A read gives no property to a key that is concluded. -/
lemma Effect.entry_of_concluded {o' : ObjectId} {k : Key} (h : w.Effect true o' k w')
    (hc : w.Concluded o key) (hentry : (o, key) ∈ w'.entries) : (o, key) ∈ w.entries := by
  cases h with
  | calm h => rwa [h.entries] at hentry
  | filled hv hx hk hr =>
    rw [entries_filled (hv.external hx), hv.entries] at hentry
    rcases hentry with heq | hentry
    · cases heq
      obtain ⟨a, f, magic, hs⟩ := hr rfl
      cases hc.not_template hx hs
    · exact hentry
  | opened hx hs hchild =>
    rw [entries_opened hx] at hentry
    rcases hentry with heq | hentry
    · cases heq
      cases hc.not_template hx hs
    · exact hentry
  | replaced hr hx hk => cases hr
  | erased hr hx => cases hr

/-- A read of a key that is concluded is free. -/
lemma Effect.budget_of_concluded (h : w.Effect true o key w') (hc : w.Concluded o key) :
    w'.budget = w.budget := by
  cases h with
  | calm h => exact h.budget
  | filled hv hx hk hr =>
    obtain ⟨a, f, magic, hs⟩ := hr rfl
    cases hc.not_template hx hs
  | opened hx hs hchild => cases hc.not_template hx hs
  | replaced hr hx hk => cases hr
  | erased hr hx => cases hr

/-- Reads in a row conclude nothing the less. -/
lemma concluded_of_reads (h : Relation.ReflTransGen Reading w w') (hc : w.Concluded o key) :
    w'.Concluded o key ∧ ((o, key) ∈ w'.entries → (o, key) ∈ w.entries) := by
  induction h with
  | refl => exact ⟨hc, id⟩
  | tail _ hread ih =>
    obtain ⟨hmid, hentry⟩ := ih
    obtain ⟨o', k, heffect⟩ := hread
    exact ⟨heffect.concluded hmid, fun h => hentry (heffect.entry_of_concluded hmid h)⟩

end World

/-! ## Definitions -/

namespace Definition

/-- One for a property that has to be made before it can be read, a namespace included. -/
def Entry.lazies : Entry → Nat
  | .leaf _ _ (.method _ _) => 0
  | .leaf _ _ (.literal _) => 0
  | .leaf _ _ (.dynamic _ _) => 1
  | .nested _ _ _ _ => 1

/-- The number of properties in a definition, nested ones included, that have to be made before they can be
read. -/
def lazyCount (d : Definition) : Nat := weight Entry.lazies d.entries

variable {p : Prototype}

mutual

/-- What is due for the template of an entry, where the slots of its namespaces are in their places. -/
lemma Entry.due_content : (e : Entry) → e.Distinct → (i id before : Nat) →
    (∀ j < e.slotCount, p.slots[i + 1 + before + j]? = (e.slots id)[j]?) →
    p.due c i (e.content id before) = c.property * e.weight Entry.lazies + c.wrapper * e.slotCount
  | .leaf _ _ (.method _ _), _, _, _, _, _ => rfl
  | .leaf _ _ (.literal _), _, _, _, _, _ => rfl
  | .leaf _ _ (.dynamic _ _), _, _, _, _, _ => (Nat.mul_one _).symm
  | .nested _ a h es, hd, i, id, before, hslots => by
    -- The slot of the namespace is the next one, and those inside it follow.
    have hhead : p.slots[i + (before + 1)]? = some ⟨.ofList (templates id 0 es), a, h⟩ := by
      have hfirst := hslots 0 (by rw [Entry.slotCount]; omega)
      rwa [Nat.add_zero, Nat.add_assoc, Nat.add_comm 1] at hfirst
    have hnodup : ((templates id 0 es).map Prod.fst).Nodup := by
      rw [keys_templates]
      exact hd.1
    have hinner := dues_templates es hd.2 (i + (before + 1)) id 0 fun j hj => by
      have hrest := hslots (j + 1) (by rw [Entry.slotCount]; omega)
      rw [Entry.slots, List.getElem?_cons_succ] at hrest
      rw [← hrest]
      congr 1
      omega
    have hlt : i + (before + 1) < p.slots.size := by
      by_contra hge
      rw [Array.getElem?_eq_none (Nat.not_lt.1 hge)] at hhead
      cases hhead
    rw [Entry.content, Prototype.due, if_pos ⟨Nat.succ_pos _, hlt⟩, Prototype.dues_eq hhead,
      OrderedMap.entries_ofList hnodup, hinner, Entry.weight, Entry.slotCount, Entry.lazies, Nat.mul_add,
      Nat.mul_add, Nat.mul_one, Nat.mul_one]
    omega

/-- What is due for the templates of a table. -/
lemma dues_templates : (es : List Entry) → AllDistinct es → (i id before : Nat) →
    (∀ j < nestedCount es, p.slots[i + 1 + before + j]? = (slots id es)[j]?) →
    ((templates id before es).map fun entry => p.due c i entry.2.content).sum =
      c.property * weight Entry.lazies es + c.wrapper * nestedCount es
  | [], _, _, _, _, _ => rfl
  | e :: es, hd, i, id, before, hslots => by
    have hentry := e.due_content hd.1 i id before fun j hj => by
      rw [hslots j (by rw [nestedCount]; omega), slots,
        List.getElem?_append_left (by rwa [e.length_slots])]
    have hrest := dues_templates es hd.2 i (id + e.functions.length) (before + e.slotCount) fun j hj => by
      have hlater := hslots (e.slotCount + j) (by rw [nestedCount]; omega)
      rw [slots, List.getElem?_append_right (by rw [e.length_slots]; omega), e.length_slots,
        Nat.add_sub_cancel_left] at hlater
      rw [← hlater]
      congr 1
      omega
    rw [templates, List.map_cons, List.sum_cons, hrest, hentry, weight, nestedCount, Nat.mul_add,
      Nat.mul_add]
    omega

end

/-- What a prototype stands for is what the definition says: a property for each that has to be made, and a
wrapper for each namespace. -/
theorem dues_of_build {d : Definition} {a : Attributes} (h : (d.build a).runIn w = (.ok p, w')) :
    p.dues c 0 = c.property * d.lazyCount + c.wrapper * nestedCount d.entries := by
  obtain ⟨hd, -, rfl, -⟩ := build_eq_ok.1 h
  have hnodup : ((templates w.objects.size 0 d.entries).map Prod.fst).Nodup := by
    rw [keys_templates]
    exact hd.1
  have htemplates := dues_templates (c := c) (p := ⟨w.prototypes, ((d.root a).slots w.objects.size).toArray⟩)
    d.entries hd.2 0 w.objects.size 0 fun j _ => by
      rw [List.getElem?_toArray, Node.slots, Nat.add_comm (0 + 1 + 0), List.getElem?_cons_succ]
      rfl
  rw [← OrderedMap.entries_ofList hnodup] at htemplates
  exact (Prototype.dues_eq rfl).trans htemplates

end Definition

end HostBinding
