import HostBinding.Proofs.Listing
import Mathlib.Data.List.Basic

/-!
# Enumerable keys

Enumeration visits the bound keys whose attributes say so, and what the enumerator reports. A key that the
enumerator reports counts as enumerable, whatever its attributes say. Apart from such keys, and from keys of
deleted templates that are reported all the same, enumeration visits what a listing lists, less the keys that
are not enumerable, in the same order.

* `External.attributes?`: the attributes of a bound key.
* `External.visible`: the keys that are enumerable by themselves.
* `Key.filter_union`, `Key.filter_order`: what is left out can be left out first.
* `Access.enumeration_exact`: the main result.
-/

namespace HostBinding

variable {σ : Type} {w w' : World} {o : ObjectId} {key : Key} {e : External} {h : Host σ} {s s' : σ}
  {properties : OrderedMap Key Property} {more ks ls : List Key} {a : Attributes}

namespace External

/-- The attributes of a bound key: those of its own property, or else those of its template. -/
def attributes? (properties : OrderedMap Key Property) (e : External) (key : Key) : Option Attributes :=
  match properties.find? key with
  | some p => some p.attributes
  | none => (e.template? key).map (·.attributes)

/-- Whether a key is enumerable by itself: a bound key by its attributes, another key unless its template was
deleted here. -/
def visible (properties : OrderedMap Key Property) (e : External) (key : Key) : Bool :=
  match attributes? properties e key with
  | some a => a.enumerable
  | none => decide (key ∉ e.deleted ∨ key ∉ e.view.templates.keys)

/-- The keys that have attributes are those that are bound. -/
lemma isSome_attributes?_iff : (attributes? properties e key).isSome = true ↔ key ∈ boundKeys properties e := by
  rw [mem_boundKeys, ← OrderedMap.contains_iff_mem_keys, ← OrderedMap.contains_iff_mem_keys, attributes?,
    OrderedMap.contains, OrderedMap.contains]
  cases properties.find? key with
  | some p => simp
  | none => by_cases hd : key ∈ e.deleted <;> simp [template?, hd]

/-- Whether a bound key is enumerable is said by its attributes. -/
lemma isEnumerable_eq (h : attributes? properties e key = some a) :
    isEnumerable properties e key = a.enumerable := by
  rw [attributes?] at h
  rw [isEnumerable]
  cases hk : properties.find? key with
  | some p =>
    rw [hk] at h
    cases h
    rfl
  | none =>
    rw [hk] at h
    obtain ⟨t, ht, rfl⟩ := Option.map_eq_some_iff.1 h
    dsimp only
    rw [ht]
    rfl

/-- A bound key is visible when enumeration visits it. -/
lemma visible_eq_isEnumerable (hkey : key ∈ boundKeys properties e) :
    visible properties e key = isEnumerable properties e key := by
  obtain ⟨a, ha⟩ := Option.isSome_iff_exists.1 (isSome_attributes?_iff.2 hkey)
  rw [isEnumerable_eq ha, visible, ha]

end External

/-! ## Leaving keys out -/

namespace Key

/-- Keys may be left out before or after others are added. -/
lemma filter_union (f : Key → Bool) (ks more : List Key) :
    (union ks more).filter f = union (ks.filter f) (more.filter f) := by
  induction more generalizing ks with
  | nil => rfl
  | cons k more ih =>
    rw [union, List.foldl_cons, ← union, ih]
    by_cases hf : f k = true
    · have hmem : k ∈ ks.filter f ↔ k ∈ ks := by
        rw [List.mem_filter]
        exact and_iff_left hf
      rw [List.filter_cons_of_pos hf, union, union, List.foldl_cons]
      by_cases hk : k ∈ ks
      · rw [if_pos hk, if_pos (hmem.2 hk)]
      · rw [if_neg hk, if_neg (mt hmem.1 hk), List.filter_append, List.filter_cons_of_pos hf,
          List.filter_nil]
    · rw [List.filter_cons_of_neg hf]
      split
      · rfl
      · rw [List.filter_append, List.filter_cons_of_neg hf, List.filter_nil, List.append_nil]

/-- Keys may be left out before or after all are put in order. -/
lemma filter_order (f : Key → Bool) (ks : List Key) : (order ks).filter f = order (ks.filter f) := by
  have hindices : ((ks.filter isIndex).mergeSort fun a b => decide (a.rank ≤ b.rank)).filter f =
      ((ks.filter f).filter isIndex).mergeSort fun a b => decide (a.rank ≤ b.rank) := by
    -- Both are in ascending order and have the same keys, and indices of one rank are the same key.
    refine List.Perm.eq_of_pairwise ?_ ((pairwise_mergeSort_rank _).filter f) (pairwise_mergeSort_rank _) ?_
    · intro a b ha hb hab hba
      rw [decide_eq_true_eq] at hab hba
      exact rank_injective_of_isIndex (isIndex_of_mem_mergeSort a (List.mem_filter.1 ha).1)
        (isIndex_of_mem_mergeSort b hb) (Nat.le_antisymm hab hba)
    · rw [List.filter_comm isIndex f]
      exact ((List.mergeSort_perm _ _).filter f).trans (List.mergeSort_perm _ _).symm
  rw [order, order, List.filter_append, List.filter_append, hindices, List.filter_comm isString f,
    List.filter_comm isSymbol f]

end Key

/-! ## What enumeration visits -/

/-- The keys of a wrapper that enumeration visits when its enumerator reports `more`. -/
def World.enumeration (w : World) (o : ObjectId) (more : List Key) : List Key :=
  match (w.object o).external? with
  | some e => Key.order (Key.union ((Access.bound w o).filter
      (External.isEnumerable (w.object o).properties e)) more)
  | none => []

namespace Access

/-- Enumeration is of the world in which it began, with what the enumerator reports. -/
lemma run_enumerableKeys (hx : (w.object o).external? = some e)
    (hmore : (External.reportedKeys e).run h w s = (.ok more, w', s')) :
    (enumerableKeys o).run h w s = (.ok (w.enumeration o more), w', s') := by
  rw [Dialogue.run, start_enumerableKeys hx, External.enumerableKeys, Dialogue.start_external_bind hx,
    ← Dialogue.run]
  dsimp only
  rw [Dialogue.run_bind, hmore, World.enumeration, bound_of_external hx, hx]
  rfl

/-- The enumeration of a wrapper, with its wrapper part at hand. -/
lemma enumeration_of_external (hx : (w.object o).external? = some e) (more : List Key) :
    w.enumeration o more = Key.order (Key.union ((bound w o).filter
      (External.isEnumerable (w.object o).properties e)) more) := by
  rw [World.enumeration, hx]

/-- Enumeration visits the keys that are enumerable, and those that are reported. -/
lemma mem_enumeration (hx : (w.object o).external? = some e) :
    key ∈ w.enumeration o more ↔
      (key ∈ bound w o ∧ External.isEnumerable (w.object o).properties e key = true) ∨ key ∈ more := by
  rw [enumeration_of_external hx, Key.mem_order, Key.mem_union, List.mem_filter]

/-- Apart from the keys that are not enumerable by themselves, enumeration visits what a listing lists. -/
lemma filter_enumeration (hx : (w.object o).external? = some e) (more : List Key) :
    (w.enumeration o more).filter (External.visible (w.object o).properties e) =
      (w.listing o more).filter (External.visible (w.object o).properties e) := by
  have hbound : ((bound w o).filter (External.isEnumerable (w.object o).properties e)).filter
      (External.visible (w.object o).properties e) =
        (bound w o).filter (External.visible (w.object o).properties e) := by
    rw [List.filter_filter]
    refine List.filter_congr fun k hk => ?_
    rw [bound_of_external hx] at hk
    rw [External.visible_eq_isEnumerable hk, Bool.and_self]
  rw [enumeration_of_external hx, World.listing, Key.filter_order, Key.filter_order, Key.filter_union,
    Key.filter_union, hbound]

/-- Enumeration visits a bound key if its attributes say so or the enumerator reports it, and another key, of
no deleted template, if the enumerator reports it. Apart from the reported keys that are not enumerable by
themselves, it visits what a listing lists, less the keys that are not enumerable, and in the same order. -/
theorem enumeration_exact (h : Host σ) (hx : (w.object o).external? = some e) :
    (∀ s more w' s', (External.reportedKeys e).run h w s = (.ok more, w', s') →
      (keys o).run h w s = (.ok (w.listing o more), w', s') ∧
        (enumerableKeys o).run h w s = (.ok (w.enumeration o more), w', s')) ∧
    ∀ more,
      (∀ k a, External.attributes? (w.object o).properties e k = some a →
        (k ∈ w.enumeration o more ↔ a.enumerable = true ∨ k ∈ more)) ∧
      (∀ k, External.attributes? (w.object o).properties e k = none →
        k ∉ e.deleted ∨ k ∉ e.view.templates.keys → (k ∈ w.enumeration o more ↔ k ∈ more)) ∧
      (w.enumeration o more).filter (External.visible (w.object o).properties e) =
        (w.listing o more).filter (External.visible (w.object o).properties e) ∧
      ((∀ k ∈ more, External.visible (w.object o).properties e k = true) →
        w.enumeration o more = (w.listing o more).filter (External.visible (w.object o).properties e)) := by
  refine ⟨fun s more w' s' hmore => ⟨run_keys hx hmore, run_enumerableKeys hx hmore⟩, fun more =>
    ⟨fun k a ha => ?_, fun k hnone _ => ?_, filter_enumeration hx more, fun hmore => ?_⟩⟩
  · have hk := External.isSome_attributes?_iff.1 (Option.isSome_iff_exists.2 ⟨a, ha⟩)
    rw [← bound_of_external hx] at hk
    rw [mem_enumeration hx, External.isEnumerable_eq ha, and_iff_right hk]
  -- A key without attributes is not bound, and can only be listed because it is reported.
  · have hk : k ∉ bound w o := by
      rw [bound_of_external hx, ← External.isSome_attributes?_iff, hnone]
      exact Bool.false_ne_true
    rw [mem_enumeration hx]
    exact or_iff_right fun hb => hk hb.1
  · rw [← filter_enumeration hx, List.filter_eq_self.2]
    intro k hk
    rcases (mem_enumeration hx).1 hk with ⟨hb, henumerable⟩ | hreported
    · rw [bound_of_external hx] at hb
      rw [External.visible_eq_isEnumerable hb, henumerable]
    · exact hmore k hreported

end Access

/-- Enumeration visits the title of a shelf, which is enumerable, and a page, which is only reported. -/
theorem shelf_enumeration_exact :
    (Access.enumerableKeys ⟨0⟩).run (.reporting [.string "page"]) shelfWorld () =
      (.ok [.string "title", .string "page"], shelfWorld, ()) := by
  obtain ⟨hruns, hkeys⟩ :=
    Access.enumeration_exact (w := shelfWorld) (o := ⟨0⟩) (.reporting [.string "page"]) rfl
  obtain ⟨-, -, -, hlisting⟩ := hkeys [.string "page"]
  rw [(hruns () _ _ _ rfl).2, hlisting (by decide), World.listing, Key.order_of_filter_isIndex rfl]
  rfl

/-- Enumeration visits the code of a shelf when the enumerator reports it, although it is not enumerable. -/
theorem shelf_code_visited : (∃ es, Run (.fresh none) es ⟨shelfWorld, []⟩) ∧
    ((shelf.slot 0 (by decide)).templates.find? (.string "code")).map (·.attributes.enumerable) = some false ∧
    (Access.enumerableKeys ⟨0⟩).run (.reporting [.string "code"]) shelfWorld () =
      (.ok [.string "title", .string "code"], shelfWorld, ()) := by
  refine ⟨⟨_, .cons (.start _ _ (.instantiate (some shelf) ⟨1⟩ false)) (.nil _)⟩, rfl, ?_⟩
  rw [Access.run_enumerableKeys rfl rfl, Access.enumeration_of_external rfl,
    Key.order_of_filter_isIndex rfl]
  rfl

end HostBinding
