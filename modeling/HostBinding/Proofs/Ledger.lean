import HostBinding.Proofs.Effect
import Mathlib.Data.Set.Card
import Mathlib.Data.Set.Finite.Lattice

/-!
# The ledger

What is charged on the way from one world to another, read off what there is on wrappers before and after: so
much for each key that has come to have an own property, and so much for each new wrapper. The budget grows by
just that. Keys that are lost are not paid back, so that the bill of a longer way is drawn up step by step.

* `Tariff`: what is asked for a property and for a wrapper.
* `World.entries`, `World.wrappers`: what there is on wrappers.
* `World.bill`: what is charged on the way from one world to another.
* `World.Grows`, `World.Grows.bill_trans`: where nothing is lost, the bills add up.
* `World.Balanced`: the budget has grown by the bill.
* `World.Effect.balanced`, `World.balanced_of_reads`, `External.balanced_wrap`: it does, in all that is done.
-/

namespace HostBinding

variable {w v w' : World} {o : ObjectId} {key : Key} {e : External} {reads : Bool}

/-- What is asked for a property in the own table of a wrapper, and for a wrapper. -/
structure Tariff where
  property : Nat
  wrapper : Nat

/-- What is asked in bytes of the heap. -/
def Tariff.heap : Tariff := ⟨Cost.property, Cost.external⟩

namespace World

/-- The wrappers that there are. -/
def wrappers (w : World) : Set ObjectId := { o | (w.object o).external?.isSome = true }

/-- The keys that have own properties on wrappers. -/
def entries (w : World) : Set (ObjectId × Key) :=
  { a | a.1 ∈ w.wrappers ∧ ((w.object a.1).properties.find? a.2).isSome = true }

/-- What is charged on the way from one world to another: for each key that has an own property after it and
had none before, and for each wrapper that there was not before. -/
noncomputable def bill (c : Tariff) (w w' : World) : Nat :=
  c.property * (w'.entries \ w.entries).ncard + c.wrapper * (w'.wrappers \ w.wrappers).ncard

/-- Nothing is lost: wrappers stay, and so do their properties. -/
structure Grows (w w' : World) : Prop where
  entries : w.entries ⊆ w'.entries
  wrappers : w.wrappers ⊆ w'.wrappers

/-- The budget has grown by what was to be charged. -/
def Balanced (w w' : World) : Prop := w'.budget.used = w.budget.used + w.bill .heap w'

/-! ## What there is -/

/-- What it is to be a wrapper. -/
lemma mem_wrappers_iff : o ∈ w.wrappers ↔ (w.object o).external?.isSome = true := Iff.rfl

/-- What it is to be a key with an own property on a wrapper. -/
lemma mem_entries_iff : (o, key) ∈ w.entries ↔
    o ∈ w.wrappers ∧ ((w.object o).properties.find? key).isSome = true := Iff.rfl

/-- An object with a wrapper part is a wrapper. -/
lemma mem_wrappers (hx : (w.object o).external? = some e) : o ∈ w.wrappers :=
  Option.isSome_iff_exists.2 ⟨e, hx⟩

/-- There are finitely many wrappers. -/
lemma finite_wrappers (w : World) : w.wrappers.Finite := by
  refine ((Set.finite_lt_nat w.objects.size).image ObjectId.mk).subset fun o ho => ?_
  obtain ⟨e, hx⟩ := Option.isSome_iff_exists.1 ho
  exact ⟨o.index, index_lt_of_external hx, rfl⟩

/-- There are finitely many own properties on wrappers. -/
lemma finite_entries (w : World) : w.entries.Finite := by
  refine (w.finite_wrappers.biUnion fun o _ =>
    (w.object o).properties.keys.finite_toSet.image (Prod.mk o)).subset ?_
  rintro ⟨o, k⟩ ⟨ho, hk⟩
  exact Set.mem_biUnion ho ⟨k, (OrderedMap.contains_iff_mem_keys _ k).1 hk, rfl⟩

/-- A key without an own property is not counted. -/
lemma not_mem_entries (hk : (w.object o).properties.find? key = none) : (o, key) ∉ w.entries := by
  rintro ⟨-, h⟩
  rw [hk] at h
  cases h

/-- A wrapper that changes stays one, and the others stay. -/
lemma wrappers_update {x : Object} (hx : (w.object o).external? = some e) (hx' : x.external?.isSome = true) :
    (w.update o x).wrappers = w.wrappers := by
  ext o'
  rw [mem_wrappers_iff, mem_wrappers_iff, object_update w o o' x (index_lt_of_external hx)]
  split
  · subst o'
    rw [hx, hx']
    rfl
  · rfl

/-- A property makes no wrapper. -/
lemma wrappers_put (hx : (w.object o).external? = some e) (key : Key) (p : Property) :
    (w.update o ((w.object o).put key p)).wrappers = w.wrappers :=
  wrappers_update hx (mem_wrappers hx)

/-- A property that is put on a wrapper is there, with those that there are. -/
lemma entries_put (hx : (w.object o).external? = some e) (key : Key) (p : Property) :
    (w.update o ((w.object o).put key p)).entries = insert (o, key) w.entries := by
  ext ⟨o', k⟩
  rw [mem_entries_iff, wrappers_put hx, Set.mem_insert_iff, Prod.mk.injEq,
    object_update w o o' _ (index_lt_of_external hx), mem_entries_iff]
  by_cases ho : o = o'
  · subst ho
    have hmem := mem_wrappers hx
    rw [if_pos rfl, Object.put, OrderedMap.find?_insert]
    by_cases hk : key = k
    · simp only [hk, hmem, if_pos, Option.isSome_some, and_self, true_or]
    · simp only [hk, Ne.symm hk, if_false, and_false, false_or]
  · simp only [ho, Ne.symm ho, if_false, false_and, false_or]

/-- A deletion adds nothing. -/
lemma entries_without (hx : (w.object o).external? = some e) :
    (w.update o (External.without (w.object o) e key)).entries ⊆ w.entries := by
  rintro ⟨o', k⟩ ⟨ho', hk⟩
  rw [wrappers_update hx rfl] at ho'
  refine ⟨ho', ?_⟩
  rw [object_update w o o' _ (index_lt_of_external hx)] at hk
  split at hk
  · subst o'
    dsimp only [External.without] at hk ⊢
    rw [OrderedMap.find?_erase] at hk
    split at hk
    · cases hk
    · exact hk
  · exact hk

/-- A new object reads as what it was made as, and all other numbers read as before. -/
lemma object_allocate_eq (w : World) (o : ObjectId) (x : Object) :
    (w.allocate x).2.object o = if o = ⟨w.objects.size⟩ then x else w.object o := by
  by_cases ho : o.index ≤ w.objects.size
  · exact object_allocate w o x ho
  · have hne : o ≠ ⟨w.objects.size⟩ := by
      rintro rfl
      exact ho (Nat.le_refl _)
    rw [if_neg hne, object_of_not_lt (w := w) (by omega), object_of_not_lt]
    rw [size_allocate]
    omega

/-- A new wrapper is one wrapper more. -/
lemma wrappers_allocate (w : World) (e : External) :
    (w.allocate { kind := .external e }).2.wrappers = insert ⟨w.objects.size⟩ w.wrappers := by
  ext o
  rw [Set.mem_insert_iff, mem_wrappers_iff, mem_wrappers_iff, object_allocate_eq]
  by_cases ho : o = ⟨w.objects.size⟩
  · rw [if_pos ho]
    exact iff_of_true rfl (.inl ho)
  · rw [if_neg ho]
    exact (or_iff_right ho).symm

/-- A new wrapper has no own properties. -/
lemma entries_allocate (w : World) (e : External) :
    (w.allocate { kind := .external e }).2.entries = w.entries := by
  ext ⟨o, k⟩
  rw [mem_entries_iff, mem_entries_iff, mem_wrappers_iff, mem_wrappers_iff, object_allocate_eq]
  by_cases ho : o = ⟨w.objects.size⟩
  · -- There was no object of this number, and the new one has no properties.
    have hnone : w.object o = default := by
      apply object_of_not_lt
      rw [ho]
      exact Nat.lt_irrefl _
    rw [if_pos ho, hnone]
    exact iff_of_false (fun h => by cases h.2) (fun h => by cases h.2)
  · rw [if_neg ho]

/-- The next number is not that of a wrapper yet. -/
lemma not_mem_wrappers (w : World) : ⟨w.objects.size⟩ ∉ w.wrappers := by
  have hnone : w.object ⟨w.objects.size⟩ = default := object_of_not_lt (Nat.lt_irrefl _)
  rw [mem_wrappers_iff, hnone]
  exact Bool.false_ne_true

namespace Calm

/-- In a calm world the wrappers are what they were. -/
lemma external?_eq (h : w.Calm w') (o : ObjectId) : (w'.object o).external? = (w.object o).external? := by
  by_cases ho : o.index < w.objects.size
  · rw [h.objects o ho]
  · rw [h.plain o ho, object_of_not_lt ho]
    rfl

/-- In a calm world there are the same wrappers. -/
lemma wrappers (h : w.Calm w') : w'.wrappers = w.wrappers := by
  ext o
  rw [mem_wrappers_iff, mem_wrappers_iff, h.external?_eq]

/-- In a calm world there are the same own properties. -/
lemma entries (h : w.Calm w') : w'.entries = w.entries := by
  ext ⟨o, k⟩
  rw [mem_entries_iff, mem_entries_iff, h.wrappers]
  refine and_congr_right fun ho => ?_
  obtain ⟨e, hx⟩ := Option.isSome_iff_exists.1 ho
  rw [h.object hx]

end Calm

/-! ## Bills -/

variable {c : Tariff}

/-- Nothing is charged where nothing has been added. -/
lemma bill_eq_zero (he : w'.entries ⊆ w.entries) (hw : w'.wrappers ⊆ w.wrappers) : w.bill c w' = 0 := by
  rw [bill, Set.sdiff_eq_empty.2 he, Set.sdiff_eq_empty.2 hw, Set.ncard_empty, Set.ncard_empty, Nat.mul_zero,
    Nat.mul_zero]

/-- Nothing is billed in a calm world. -/
lemma Calm.bill (h : w.Calm w') : w.bill c w' = 0 := bill_eq_zero h.entries.le h.wrappers.le

/-- One new property is billed as one. -/
lemma bill_of_filled {a : ObjectId × Key} (ha : a ∉ w.entries) (he : w'.entries = insert a w.entries)
    (hw : w'.wrappers = w.wrappers) : w.bill c w' = c.property := by
  rw [bill, he, hw, Set.insert_sdiff_eq_singleton ha, Set.sdiff_self, Set.ncard_singleton]
  simp only [Set.ncard_empty, Nat.mul_one, Nat.mul_zero, Nat.add_zero]

/-- A new property with a new wrapper is billed as both. -/
lemma bill_of_opened {a : ObjectId × Key} (ha : a ∉ w.entries) (ho : o ∉ w.wrappers)
    (he : w'.entries = insert a w.entries) (hw : w'.wrappers = insert o w.wrappers) :
    w.bill c w' = c.property + c.wrapper := by
  rw [bill, he, hw, Set.insert_sdiff_eq_singleton ha, Set.insert_sdiff_eq_singleton ho,
    Set.ncard_singleton, Set.ncard_singleton, Nat.mul_one, Nat.mul_one]

/-- One new wrapper is billed as one. -/
lemma bill_of_wrapped (ho : o ∉ w.wrappers) (he : w'.entries = w.entries)
    (hw : w'.wrappers = insert o w.wrappers) : w.bill c w' = c.wrapper := by
  rw [bill, he, hw, Set.insert_sdiff_eq_singleton ho, Set.sdiff_self, Set.ncard_singleton]
  simp only [Set.ncard_empty, Nat.mul_one, Nat.mul_zero, Nat.zero_add]

/-- Where nothing is lost, a longer way costs what its parts cost. -/
lemma Grows.bill_trans (h : w.Grows v) (h' : v.Grows w') : w.bill c w' = w.bill c v + v.bill c w' := by
  have hentries : (w'.entries \ w.entries).ncard =
      (w'.entries \ v.entries).ncard + (v.entries \ w.entries).ncard := by
    rw [← Set.sdiff_union_sdiff_cancel h'.entries h.entries]
    apply Set.ncard_union_eq _ w'.finite_entries.sdiff v.finite_entries.sdiff
    exact Set.disjoint_sdiff_left.mono_right Set.sdiff_subset
  have hwrappers : (w'.wrappers \ w.wrappers).ncard =
      (w'.wrappers \ v.wrappers).ncard + (v.wrappers \ w.wrappers).ncard := by
    rw [← Set.sdiff_union_sdiff_cancel h'.wrappers h.wrappers]
    apply Set.ncard_union_eq _ w'.finite_wrappers.sdiff v.finite_wrappers.sdiff
    exact Set.disjoint_sdiff_left.mono_right Set.sdiff_subset
  rw [bill, bill, bill, hentries, hwrappers, Nat.mul_add, Nat.mul_add]
  omega

/-- A world loses nothing by staying what it is. -/
lemma Grows.refl (w : World) : w.Grows w := ⟨Set.Subset.rfl, Set.Subset.rfl⟩

/-- What is not lost in two stretches is not lost in both. -/
lemma Grows.trans (h : w.Grows v) (h' : v.Grows w') : w.Grows w' :=
  ⟨h.entries.trans h'.entries, h.wrappers.trans h'.wrappers⟩

/-- A calm world owes nothing. -/
lemma Calm.balanced (h : w.Calm w') : w.Balanced w' := by
  rw [Balanced, h.budget, h.bill, Nat.add_zero]

/-- A property that is charged and put is one entry more. -/
lemma entries_filled (hx : (w.object o).external? = some e) (key : Key) (p : Property) :
    (w.filled o key p).entries = insert (o, key) w.entries :=
  entries_put (w := w.spend Cost.property) hx key p

/-- A property that is charged and put makes no wrapper. -/
lemma wrappers_filled (hx : (w.object o).external? = some e) (key : Key) (p : Property) :
    (w.filled o key p).wrappers = w.wrappers :=
  wrappers_put (w := w.spend Cost.property) hx key p

section

variable (hx : (w.object o).external? = some e) (key : Key) (p : Property) (i : External)

include hx

/-- A wrapper that is there before another one is made changes as it would without. -/
lemma exists_opened :
    ∃ v : World, (v.object o).external? = some e ∧ v.entries = w.entries ∧
      v.wrappers = insert ⟨w.objects.size⟩ w.wrappers ∧
      w.opened o key p i = v.update o ((v.object o).put key p) := by
  have hobject : ((w.spend (Cost.property + Cost.external)).allocate { kind := .external i }).2.object o =
      w.object o :=
    object_allocate_of_lt (w := w.spend (Cost.property + Cost.external)) _ (index_lt_of_external hx)
  refine ⟨_, ?_, entries_allocate (w.spend (Cost.property + Cost.external)) i,
    wrappers_allocate (w.spend (Cost.property + Cost.external)) i, ?_⟩
  · rwa [hobject]
  · rw [hobject, opened]

/-- A namespace that is opened is one entry more. -/
lemma entries_opened : (w.opened o key p i).entries = insert (o, key) w.entries := by
  obtain ⟨v, hv, hentries, -, heq⟩ := exists_opened hx key p i
  rw [heq, entries_put hv, hentries]

/-- A namespace that is opened is one wrapper more. -/
lemma wrappers_opened : (w.opened o key p i).wrappers = insert ⟨w.objects.size⟩ w.wrappers := by
  obtain ⟨v, hv, -, hwrappers, heq⟩ := exists_opened hx key p i
  rw [heq, wrappers_put hv, hwrappers]

end

/-- A property that is written over was there before. -/
lemma entries_replaced {q : Property} (hx : (w.object o).external? = some e)
    (hk : (w.object o).properties.find? key = some q) (p : Property) :
    (w.update o ((w.object o).put key p)).entries = w.entries := by
  rw [entries_put hx]
  apply Set.insert_eq_of_mem
  rw [mem_entries_iff, hk]
  exact ⟨mem_wrappers hx, rfl⟩

namespace Effect

/-- What happens is charged. -/
lemma balanced (h : w.Effect reads o key w') : w.Balanced w' := by
  cases h with
  | calm h => exact h.balanced
  | filled hv hx hk hr =>
    have hentries := entries_filled (hv.external hx) key
    have hwrappers := wrappers_filled (hv.external hx) key
    rw [hv.entries] at hentries
    rw [hv.wrappers] at hwrappers
    rw [Balanced, bill_of_filled (not_mem_entries hk) (hentries _) (hwrappers _), ← hv.budget]
    rfl
  | opened hx hs hc =>
    obtain ⟨hk, -, -⟩ := External.search_eq_template hs
    rw [Balanced, bill_of_opened (not_mem_entries hk) w.not_mem_wrappers (entries_opened hx _ _ _)
      (wrappers_opened hx _ _ _)]
    rfl
  | replaced hr hx hk =>
    rw [Balanced, bill_eq_zero (entries_replaced hx hk _).le (wrappers_put hx _ _).le]
    rfl
  | erased hr hx =>
    rw [Balanced, bill_eq_zero (entries_without hx) (wrappers_update hx rfl).le]
    rfl

/-- What is done to a key that has an own property is free. -/
lemma budget_of_entry (h : w.Effect reads o key w') (hentry : (o, key) ∈ w.entries) :
    w'.budget = w.budget := by
  cases h with
  | calm h => exact h.budget
  | filled hv hx hk hr => exact absurd hentry (not_mem_entries hk)
  | opened hx hs hc =>
    obtain ⟨hk, -, -⟩ := External.search_eq_template hs
    exact absurd hentry (not_mem_entries hk)
  | replaced hr hx hk => rfl
  | erased hr hx => rfl

/-- A read takes nothing away. -/
lemma grows (h : w.Effect true o key w') : w.Grows w' := by
  cases h with
  | calm h => exact ⟨h.entries.ge, h.wrappers.ge⟩
  | filled hv hx hk hr =>
    refine ⟨?_, ?_⟩
    · rw [entries_filled (hv.external hx), hv.entries]
      exact Set.subset_insert _ _
    · rw [wrappers_filled (hv.external hx), hv.wrappers]
  | opened hx hs hc =>
    refine ⟨?_, ?_⟩
    · rw [entries_opened hx]
      exact Set.subset_insert _ _
    · rw [wrappers_opened hx]
      exact Set.subset_insert _ _
  | replaced hr hx hk => cases hr
  | erased hr hx => cases hr

end Effect

/-- So it is with reads in a row. -/
lemma balanced_of_reads (h : Relation.ReflTransGen Reading w w') : w.Grows w' ∧ w.Balanced w' := by
  induction h with
  | refl => exact ⟨.refl w, (Calm.refl w).balanced⟩
  | tail _ hread ih =>
    obtain ⟨hgrows, hbalanced⟩ := ih
    obtain ⟨o, key, heffect⟩ := hread
    refine ⟨hgrows.trans heffect.grows, ?_⟩
    rw [Balanced, heffect.balanced, hbalanced, hgrows.bill_trans heffect.grows, Nat.add_assoc]

end World

/-- An instance is charged as one wrapper. -/
lemma External.balanced_wrap (p : Option Prototype) (host : HostAddress) (shared : Bool) (w : World) :
    w.Balanced ((wrap p host shared).runIn w).2 := by
  rcases runIn_wrap p host shared w with ⟨f, -, hrun⟩ | ⟨q, hq, -, hrun⟩
  · rw [hrun]
    exact (World.Calm.refl w).balanced
  · rw [hrun, World.Balanced, World.bill_of_wrapped w.not_mem_wrappers
      (World.entries_allocate (w.spend Cost.external) _) (World.wrappers_allocate (w.spend Cost.external) _)]
    rfl

end HostBinding
