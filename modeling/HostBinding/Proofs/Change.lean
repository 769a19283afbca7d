import HostBinding.Proofs.Edit
import Mathlib.Data.Set.Basic
import Mathlib.Logic.Relation

/-!
# Changes of the world

The engine changes the world in a few ways only. What an operation does between two requests to the host is a
chain of them, and whatever every change keeps, every operation keeps.

* `World.Extends`: wrappers stay what they are.
* `World.inUse`: the prototypes of the wrappers, and those that resolvers expose.
* `Change`: one change, where `T` says which properties may be written or removed, and `U` which prototypes
  may come into use.
* `Chain`: changes in a row.
* `Change.world_extends`, `Change.settled`, `Change.unaffected`, `Change.frozen`, `Change.inUse_subset`: what a
  change keeps.
-/

namespace HostBinding

variable {T : ObjectId → Key → Prop} {U : Set Prototype} {w v w' : World} {o : ObjectId} {key : Key}

/-! ## Worlds that go on -/

/-- No object is lost, and wrappers stay what they are. -/
structure World.Extends (w w' : World) : Prop where
  size : w.objects.size ≤ w'.objects.size
  external : ∀ o e, (w.object o).external? = some e →
    ∃ e', (w'.object o).external? = some e' ∧ e.Persists e'

namespace World.Extends

/-- A world goes on as itself. -/
lemma refl (w : World) : w.Extends w := ⟨Nat.le_refl _, fun _ e h => ⟨e, h, .refl e⟩⟩

/-- What stays through two stretches stays through both. -/
lemma trans (h : w.Extends v) (h' : v.Extends w') : w.Extends w' := by
  refine ⟨Nat.le_trans h.size h'.size, fun o e he => ?_⟩
  obtain ⟨e', he', hp⟩ := h.external o e he
  obtain ⟨e'', he'', hp'⟩ := h'.external o e' he'
  exact ⟨e'', he'', hp.trans hp'⟩

/-- What is no wrapper becomes none, and a wrapper stays the same one. -/
lemma update {x : Object} (hx : x.external? = (w.object o).external?) : w.Extends (w.update o x) := by
  refine ⟨Nat.le_of_eq (World.size_update w o x).symm, fun a e he => ⟨e, ?_, .refl e⟩⟩
  by_cases ha : a = o
  · subst ha
    rw [World.object_update w a a x (World.index_lt_of_external he), if_pos rfl, hx]
    exact he
  · rwa [World.object_update_of_ne x ha]

end World.Extends

/-- Only an object that was made has properties. -/
lemma World.index_lt_of_own {p : Property} (hk : (w.object o).properties.find? key = some p) :
    o.index < w.objects.size := by
  by_contra ho
  rw [World.object_of_not_lt ho] at hk
  cases hk

/-! ## Prototypes in use -/

/-- The prototypes by which a resolver wraps host data. -/
def Resolver.exposed : Resolver → Set Prototype
  | exposing _ bindings => { p | ∃ name b, bindings.find? name = some b ∧ b.prototype = p }
  | hosted _ _ => ∅

/-- The prototypes that the resolvers expose. -/
def Globals.exposed (g : Globals) : Set Prototype := { p | ∃ r ∈ g.resolvers, p ∈ r.exposed }

/-- The prototypes of the wrappers, and those that resolvers expose. -/
def World.inUse (w : World) : Set Prototype :=
  { p | ∃ o e, (w.object o).external? = some e ∧ e.prototype = p } ∪ w.globals.exposed

/-- The prototype of a wrapper is in use. -/
lemma World.mem_inUse {e : External} (hx : (w.object o).external? = some e) : e.prototype ∈ w.inUse :=
  .inl ⟨o, e, hx, rfl⟩

/-! ## Changes -/

/-- One change of the world. Properties are written and removed only where `T` holds, and only the prototypes
in `U` come into use. -/
inductive Change (T : ObjectId → Key → Prop) (U : Set Prototype) (w : World) : World → Prop where
  /-- Some bytes are charged. -/
  | spend (n : Nat) (h : w.budget.allows n = true) : Change T U w (w.spend n)
  /-- An object that is no wrapper is made. -/
  | make (x : Object) (hx : x.external? = none) (hp : x.properties = ∅) : Change T U w (w.allocate x).2
  /-- A wrapper is charged and made. -/
  | wrap (e : External) (hd : e.deleted = []) (hp : e.prototype ∈ w.inUse ∪ U)
    (h : w.budget.allows Cost.external = true) :
    Change T U w ((w.spend Cost.external).allocate { kind := .external e }).2
  /-- A property is written or removed, and charged if there are more properties then. -/
  | revise (o : ObjectId) (key : Key) (x : Object) (n : Nat) (ht : T o key)
    (hx : (w.object o).Edit key x) (hn : x.properties.size ≤ (w.object o).properties.size + n)
    (h : 0 < n → w.budget.allows (Cost.property * n) = true) :
    Change T U w ((w.spend (Cost.property * n)).update o x)
  /-- An object gets another parent, or refuses new properties. -/
  | relink (o : ObjectId) (x : Object) (hk : x.kind = (w.object o).kind)
    (hp : x.properties = (w.object o).properties) : Change T U w (w.update o x)
  /-- The globals change. -/
  | globals (g : Globals) (hg : g.exposed ⊆ w.globals.exposed ∪ U) : Change T U w { w with globals := g }
  /-- A prototype is numbered. -/
  | prototype : Change T U w { w with prototypes := w.prototypes + 1 }

/-- Changes in a row. -/
abbrev Chain (T : ObjectId → Key → Prop) (U : Set Prototype) : World → World → Prop :=
  Relation.ReflTransGen (Change T U)

namespace Change

/-- What a change does to an object that there was: it is edited under one key, or keeps its kind and its
properties. -/
lemma object (h : Change T U w w') (ho : o.index < w.objects.size) :
    (∃ k, T o k ∧ (w.object o).Edit k (w'.object o)) ∨
      (w'.object o).kind = (w.object o).kind ∧ (w'.object o).properties = (w.object o).properties := by
  cases h with
  | spend n h => exact .inr ⟨rfl, rfl⟩
  | globals g hg => exact .inr ⟨rfl, rfl⟩
  | prototype => exact .inr ⟨rfl, rfl⟩
  | make x hx hp =>
    rw [World.object_allocate_of_lt x ho]
    exact .inr ⟨rfl, rfl⟩
  | wrap e hd hp h =>
    have hobject := World.object_allocate_of_lt (w := w.spend Cost.external) { kind := .external e } ho
    rw [hobject, World.object_spend]
    exact .inr ⟨rfl, rfl⟩
  -- Only a revision touches a key, and only in the object that is revised.
  | revise o' k x n ht hx hn h =>
    by_cases he : o = o'
    · subst he
      have hobject := World.object_update (w.spend (Cost.property * n)) o o x ho
      rw [hobject, if_pos rfl]
      exact .inl ⟨k, ht, hx⟩
    · rw [World.object_update_of_ne x he]
      exact .inr ⟨rfl, rfl⟩
  | relink o' x hk hp =>
    by_cases he : o = o'
    · subst he
      rw [World.object_update _ o o x ho, if_pos rfl]
      exact .inr ⟨hk, hp⟩
    · rw [World.object_update_of_ne x he]
      exact .inr ⟨rfl, rfl⟩

/-- No change loses an object. -/
lemma size_le (h : Change T U w w') : w.objects.size ≤ w'.objects.size := by
  cases h with
  | spend n h => exact Nat.le_refl _
  | globals g hg => exact Nat.le_refl _
  | prototype => exact Nat.le_refl _
  | make x hx hp =>
    rw [World.size_allocate]
    exact Nat.le_succ _
  | wrap e hd hp h =>
    rw [World.size_allocate]
    exact Nat.le_succ _
  | revise o' k x n ht hx hn h =>
    exact Nat.le_of_eq (World.size_update (w.spend (Cost.property * n)) o' x).symm
  | relink o' x hk hp => exact Nat.le_of_eq (World.size_update w o' x).symm

/-- Wrappers stay what they are. -/
lemma world_extends (h : Change T U w w') : w.Extends w' := by
  refine ⟨h.size_le, fun o e he => ?_⟩
  rcases h.object (World.index_lt_of_external he) with ⟨k, -, hx⟩ | ⟨hk, -⟩
  · exact hx.revises.external e he
  · refine ⟨e, ?_, .refl e⟩
    rw [Object.external?, hk]
    exact he

/-- A settled key of a wrapper stays settled. -/
lemma settled {e : External} (h : Change T U w w') (he : (w.object o).external? = some e)
    (hs : (w.object o).Settled key) : (w'.object o).Settled key := by
  rcases h.object (World.index_lt_of_external he) with ⟨k, -, hx⟩ | ⟨hk, hp⟩
  -- An edit settles its own key, and leaves the others.
  · by_cases hkey : key = k
    · subst hkey
      exact hx.revises.settled
    · exact hs.of_persists (hx.revises.others key hkey) fun e' he' => hx.revises.exists_external he'
  · refine hs.of_persists (by rw [hp]) fun e' he' => ⟨e', ?_, .refl e'⟩
    rw [Object.external?, ← hk]
    exact he'

/-- Where nothing may be written, the property stays. -/
lemma unaffected (h : Change T U w w') (ho : o.index < w.objects.size) (ht : ¬ T o key) :
    (w'.object o).properties.find? key = (w.object o).properties.find? key := by
  rcases h.object ho with ⟨k, hk, hx⟩ | ⟨-, hp⟩
  · apply hx.revises.others key
    rintro rfl
    exact ht hk
  · rw [hp]

/-- A frozen property stays as it is. -/
lemma frozen {p : Property} (h : Change T U w w') (hp : p.Frozen)
    (hk : (w.object o).properties.find? key = some p) : (w'.object o).properties.find? key = some p := by
  rcases h.object (World.index_lt_of_own hk) with ⟨k, -, hedit⟩ | ⟨-, hproperties⟩
  · exact hp.edit hk hedit
  · rwa [hproperties]

/-- What a change does to a number that was never given out: it may get an object without properties. A new
wrapper has no deleted keys, and shows a prototype that is in use or may come into use. -/
lemma object_new (h : Change T U w w') (ho : ¬ o.index < w.objects.size) :
    (w'.object o).properties = ∅ ∧
      ∀ e, (w'.object o).external? = some e → e.deleted = [] ∧ e.prototype ∈ w.inUse ∪ U := by
  -- Only wrappers have something to say about their prototype.
  have hnone (x : Object) (hx : x.external? = none) (e : External) (he : x.external? = some e) :
      e.deleted = [] ∧ e.prototype ∈ w.inUse ∪ U := by cases hx.symm.trans he
  cases h with
  | spend n h =>
    rw [World.object_spend, World.object_of_not_lt ho]
    exact ⟨rfl, hnone _ rfl⟩
  | globals g hg =>
    rw [World.object_of_not_lt (w := { w with globals := g }) ho]
    exact ⟨rfl, hnone _ rfl⟩
  | prototype =>
    rw [World.object_of_not_lt (w := { w with prototypes := w.prototypes + 1 }) ho]
    exact ⟨rfl, hnone _ rfl⟩
  | make x hx hp =>
    rcases World.object_allocate_of_not_lt x ho with h | h
    · rw [h]
      exact ⟨hp, hnone x hx⟩
    · rw [h]
      exact ⟨rfl, hnone _ rfl⟩
  | wrap e hd hp h =>
    rcases World.object_allocate_of_not_lt (w := w.spend Cost.external) { kind := .external e } ho with h | h
    · rw [h]
      refine ⟨rfl, ?_⟩
      rintro _ ⟨⟩
      exact ⟨hd, hp⟩
    · rw [h]
      exact ⟨rfl, hnone _ rfl⟩
  | revise o' k x n ht hx hn h =>
    have hsize : ¬ o.index < ((w.spend (Cost.property * n)).update o' x).objects.size := by
      rwa [World.size_update]
    rw [World.object_of_not_lt hsize]
    exact ⟨rfl, hnone _ rfl⟩
  | relink o' x hk hp =>
    have hsize : ¬ o.index < (w.update o' x).objects.size := by
      rwa [World.size_update]
    rw [World.object_of_not_lt hsize]
    exact ⟨rfl, hnone _ rfl⟩

/-- Only globals that are changed expose other prototypes. -/
lemma exposed_subset (h : Change T U w w') : w'.globals.exposed ⊆ w.globals.exposed ∪ U := by
  cases h with
  | globals g hg => exact hg
  | spend n h => exact Set.subset_union_left
  | prototype => exact Set.subset_union_left
  | make x hx hp => exact Set.subset_union_left
  | wrap e hd hp h => exact Set.subset_union_left
  | revise o' k x n ht hx hn h => exact Set.subset_union_left
  | relink o' x hk hp => exact Set.subset_union_left

/-- No prototype comes into use but those that may. -/
lemma inUse_subset (h : Change T U w w') : w'.inUse ⊆ w.inUse ∪ U := by
  rintro p (⟨o, e', he', rfl⟩ | hp)
  · by_cases ho : o.index < w.objects.size
    · rcases h.object ho with ⟨k, -, hx⟩ | ⟨hk, -⟩
      · obtain ⟨e, he, hpers⟩ := hx.revises.exists_external he'
        rw [hpers.prototype]
        exact .inl (World.mem_inUse he)
      · have he : (w.object o).external? = some e' := by rwa [Object.external?, ← hk]
        exact .inl (World.mem_inUse he)
    · exact ((h.object_new ho).2 e' he').2
  · exact (h.exposed_subset hp).imp_left .inr

/-- What may be written or come into use under a condition may be so under a weaker one. -/
lemma mono {T' : ObjectId → Key → Prop} {U' : Set Prototype} (hT : ∀ o k, T o k → T' o k) (hU : U ⊆ U')
    (h : Change T U w w') : Change T' U' w w' := by
  cases h with
  | spend n h => exact .spend n h
  | globals g hg => exact .globals g (hg.trans (Set.union_subset_union_right _ hU))
  | prototype => exact .prototype
  | make x hx hp => exact .make x hx hp
  | wrap e hd hp h => exact .wrap e hd (Set.union_subset_union_right _ hU hp) h
  | revise o k x n ht hx hn h => exact .revise o k x n (hT o k ht) hx hn h
  | relink o x hk hp => exact .relink o x hk hp

end Change

/-! ## Chains of changes -/

namespace Chain

/-- More may be written, and more may come into use, than is. -/
lemma mono {T' : ObjectId → Key → Prop} {U' : Set Prototype} (hT : ∀ o k, T o k → T' o k) (hU : U ⊆ U')
    (h : Chain T U w w') : Chain T' U' w w' := by
  induction h with
  | refl => exact .refl
  | tail _ hc ih => exact ih.tail (hc.mono hT hU)

/-- Changes in a row lose no object. -/
lemma world_extends (h : Chain T U w w') : w.Extends w' := by
  induction h with
  | refl => exact .refl w
  | tail _ hc ih => exact ih.trans hc.world_extends

/-- A key that is out of use stays so. -/
lemma settled {e : External} (h : Chain T U w w') (he : (w.object o).external? = some e)
    (hs : (w.object o).Settled key) : (w'.object o).Settled key := by
  induction h with
  | refl => exact hs
  | tail hw hc ih =>
    obtain ⟨e', he', -⟩ := (world_extends hw).external o e he
    exact hc.settled he' ih

/-- A property that may not be written stays as it is. -/
lemma unaffected (h : Chain T U w w') (ho : o.index < w.objects.size) (ht : ¬ T o key) :
    (w'.object o).properties.find? key = (w.object o).properties.find? key := by
  induction h with
  | refl => rfl
  | tail hw hc ih =>
    exact (hc.unaffected (Nat.lt_of_lt_of_le ho (world_extends hw).size) ht).trans ih

/-- A frozen property stays as it is. -/
lemma frozen {p : Property} (h : Chain T U w w') (hp : p.Frozen)
    (hk : (w.object o).properties.find? key = some p) : (w'.object o).properties.find? key = some p := by
  induction h with
  | refl => exact hk
  | tail _ hc ih => exact hc.frozen hp ih

/-- Only what may come into use comes into use. -/
lemma inUse_subset (h : Chain T U w w') : w'.inUse ⊆ w.inUse ∪ U := by
  induction h with
  | refl => exact Set.subset_union_left
  | tail _ hc ih => exact hc.inUse_subset.trans (Set.union_subset ih Set.subset_union_right)

end Chain

end HostBinding
