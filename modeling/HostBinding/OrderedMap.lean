/-!
# Ordered maps

A finite map that keeps its keys in the order in which they were first inserted. Writing a key that is
already there changes its value in place; erasing a key closes the gap. The invariant that no key occurs
twice is part of the type, so no operation asks for it.

* `OrderedMap.find?_insert`: a lookup after an insertion.
* `OrderedMap.find?_erase`: a lookup after an erasure.
* `OrderedMap.keys_insert`: an insertion moves no key, and puts a new one last.
* `OrderedMap.keys_erase`: an erasure keeps the order of the other keys.
* `OrderedMap.erase_insert`: an insertion leaves the entries of the other keys as they are.
-/

namespace HostBinding

/-- A finite map in insertion order. -/
structure OrderedMap (κ α : Type) where
  /-- The entries, oldest key first. -/
  entries : List (κ × α)
  /-- No key occurs twice. -/
  nodup : (entries.map Prod.fst).Nodup

namespace OrderedMap

variable {κ α : Type}

/-- The map without entries. -/
def empty : OrderedMap κ α := ⟨[], List.nodup_nil⟩

instance : EmptyCollection (OrderedMap κ α) := ⟨empty⟩

instance : Inhabited (OrderedMap κ α) := ⟨empty⟩

/-- The keys, oldest first. -/
def keys (m : OrderedMap κ α) : List κ := m.entries.map Prod.fst

/-- The number of entries. -/
def size (m : OrderedMap κ α) : Nat := m.entries.length

/-- There are as many keys as entries. -/
theorem length_keys (m : OrderedMap κ α) : m.keys.length = m.size := List.length_map _

/-- A map is the list of its entries. -/
theorem ext_entries {m n : OrderedMap κ α} (h : m.entries = n.entries) : m = n := by
  cases m; cases n; cases h; rfl

variable [DecidableEq κ]

/-- The value under `k` in a list of entries: the first one counts. -/
def lookup (k : κ) : List (κ × α) → Option α
  | [] => none
  | (k', v) :: r => if k' = k then some v else lookup k r

/-- The list of entries with `v` under `k`: in place if `k` is there, at the end if not. -/
def put (k : κ) (v : α) : List (κ × α) → List (κ × α)
  | [] => [(k, v)]
  | (k', v') :: r => if k' = k then (k', v) :: r else (k', v') :: put k v r

/-- The list of entries without those under `k`. -/
def drop (k : κ) : List (κ × α) → List (κ × α)
  | [] => []
  | (k', v) :: r => if k' = k then drop k r else (k', v) :: drop k r

/-- The keys after `put`: the same ones if `k` was among them, else `k` comes last. -/
theorem map_fst_put (k : κ) (v : α) (l : List (κ × α)) :
    (put k v l).map Prod.fst =
      if k ∈ l.map Prod.fst then l.map Prod.fst else l.map Prod.fst ++ [k] := by
  induction l with
  | nil => rfl
  | cons e r ih =>
    obtain ⟨k', v'⟩ := e
    by_cases h : k' = k
    · simp [put, h]
    · have h' : ¬ k = k' := fun e => h e.symm
      by_cases hm : k ∈ r.map Prod.fst
      · simp only [put, if_neg h, List.map_cons, ih, if_pos hm, List.mem_cons, h', false_or]
      · simp only [put, if_neg h, List.map_cons, ih, if_neg hm, List.mem_cons, h', false_or,
          List.cons_append]

/-- The keys after `drop`: those other than `k`, in the same order. -/
theorem map_fst_drop (k : κ) (l : List (κ × α)) :
    (drop k l).map Prod.fst = (l.map Prod.fst).filter (fun k' => decide (k' ≠ k)) := by
  induction l with
  | nil => rfl
  | cons e r ih =>
    obtain ⟨k', v'⟩ := e
    by_cases h : k' = k
    · simp [drop, h, ih]
    · simp [drop, h, ih]

/-- What is dropped may have been put before. -/
theorem drop_put (k : κ) (v : α) (l : List (κ × α)) : drop k (put k v l) = drop k l := by
  induction l with
  | nil => simp [put, drop]
  | cons e r ih => by_cases h : e.1 = k <;> simp [put, drop, h, ih]

/-- Dropping a key again does nothing. -/
theorem drop_drop (k : κ) (l : List (κ × α)) : drop k (drop k l) = drop k l := by
  induction l with
  | nil => rfl
  | cons e r ih => by_cases h : e.1 = k <;> simp [drop, h, ih]

/-- A new key and its value come last. -/
theorem put_of_not_mem {k : κ} {l : List (κ × α)} (v : α) (h : k ∉ l.map Prod.fst) :
    put k v l = l ++ [(k, v)] := by
  induction l with
  | nil => rfl
  | cons e r ih =>
    obtain ⟨k', v'⟩ := e
    rw [List.map_cons, List.mem_cons, not_or] at h
    rw [put, if_neg fun e => h.1 e.symm, ih h.2, List.cons_append]

/-- The value of an entry is found under its key if no key occurs twice. -/
theorem lookup_of_mem {k : κ} {v : α} {l : List (κ × α)} (hl : (l.map Prod.fst).Nodup)
    (h : (k, v) ∈ l) : lookup k l = some v := by
  induction l with
  | nil => cases h
  | cons e r ih =>
    obtain ⟨k', v'⟩ := e
    rw [List.map_cons, List.nodup_cons] at hl
    by_cases hk : k' = k
    · subst hk
      rcases List.mem_cons.1 h with h | h
      · cases h
        rw [lookup, if_pos rfl]
      · exact absurd (List.mem_map_of_mem (f := Prod.fst) h) hl.1
    · rcases List.mem_cons.1 h with h | h
      · cases h
        exact absurd rfl hk
      · rw [lookup, if_neg hk, ih hl.2 h]

/-- A lookup in the list after `put`. -/
theorem lookup_put (k k' : κ) (v : α) (l : List (κ × α)) :
    lookup k' (put k v l) = if k = k' then some v else lookup k' l := by
  induction l with
  | nil => rfl
  | cons e r ih =>
    obtain ⟨j, w⟩ := e
    by_cases hj : j = k <;> by_cases hk : k = k' <;> grind [put, lookup]

/-- A lookup in the list after `drop`. -/
theorem lookup_drop (k k' : κ) (l : List (κ × α)) :
    lookup k' (drop k l) = if k = k' then none else lookup k' l := by
  induction l with
  | nil => simp [drop, lookup]
  | cons e r ih =>
    obtain ⟨j, w⟩ := e
    by_cases hj : j = k <;> by_cases hk : k = k' <;> grind [drop, lookup]

/-- A key has a value exactly when it is listed. -/
theorem lookup_isSome_iff (k : κ) (l : List (κ × α)) :
    (lookup k l).isSome = true ↔ k ∈ l.map Prod.fst := by
  induction l with
  | nil => simp [lookup]
  | cons e r ih =>
    obtain ⟨j, w⟩ := e
    by_cases hj : j = k
    · simp [lookup, hj]
    · have hj' : ¬ k = j := fun e => hj e.symm
      simp only [lookup, if_neg hj, ih, List.map_cons, List.mem_cons, hj', false_or]

/-- The value under `k`. -/
def find? (m : OrderedMap κ α) (k : κ) : Option α := lookup k m.entries

/-- Whether `k` has a value. -/
def contains (m : OrderedMap κ α) (k : κ) : Bool := (m.find? k).isSome

/-- Gives `k` the value `v`. -/
def insert (m : OrderedMap κ α) (k : κ) (v : α) : OrderedMap κ α where
  entries := put k v m.entries
  nodup := by
    rw [map_fst_put]
    split
    · exact m.nodup
    · rename_i h
      refine List.nodup_append.2 ⟨m.nodup, by simp, ?_⟩
      intro a ha b hb e
      rw [List.mem_singleton] at hb
      exact h (hb ▸ e ▸ ha)

/-- Removes `k` and its value. -/
def erase (m : OrderedMap κ α) (k : κ) : OrderedMap κ α where
  entries := drop k m.entries
  nodup := by
    rw [map_fst_drop]
    exact m.nodup.sublist List.filter_sublist

/-- The map of a list of pairs, inserted from left to right. -/
def ofList (l : List (κ × α)) : OrderedMap κ α :=
  l.foldl (fun m e => m.insert e.1 e.2) ∅

/-- A look-up after an insertion. -/
theorem find?_insert (m : OrderedMap κ α) (k k' : κ) (v : α) :
    (m.insert k v).find? k' = if k = k' then some v else m.find? k' :=
  lookup_put k k' v m.entries

/-- A look-up after a removal. -/
theorem find?_erase (m : OrderedMap κ α) (k k' : κ) :
    (m.erase k).find? k' = if k = k' then none else m.find? k' :=
  lookup_drop k k' m.entries

/-- A map contains its keys. -/
theorem contains_iff_mem_keys (m : OrderedMap κ α) (k : κ) : m.contains k = true ↔ k ∈ m.keys :=
  lookup_isSome_iff k m.entries

/-- A look-up fails for keys that are not in the map. -/
theorem find?_eq_none_iff {m : OrderedMap κ α} {k : κ} : m.find? k = none ↔ k ∉ m.keys := by
  rw [← contains_iff_mem_keys, contains, Bool.not_eq_true, Option.isSome_eq_false_iff,
    Option.isNone_iff_eq_none]

/-- A new key comes last, and a key that is there keeps its place. -/
theorem keys_insert (m : OrderedMap κ α) (k : κ) (v : α) :
    (m.insert k v).keys = if k ∈ m.keys then m.keys else m.keys ++ [k] :=
  map_fst_put k v m.entries

/-- The entry of a new key comes last. -/
theorem entries_insert_of_not_contains {m : OrderedMap κ α} {k : κ} (v : α)
    (h : m.contains k = false) : (m.insert k v).entries = m.entries ++ [(k, v)] := by
  refine put_of_not_mem v fun hk => ?_
  rw [← lookup_isSome_iff] at hk
  exact Bool.false_ne_true (h.symm.trans hk)

/-- Each entry is found under its key, since no key comes twice. -/
theorem find?_of_mem {m : OrderedMap κ α} {k : κ} {v : α} (h : (k, v) ∈ m.entries) :
    m.find? k = some v :=
  lookup_of_mem m.nodup h

/-- What is found is an entry. -/
theorem mem_of_find? {m : OrderedMap κ α} {k : κ} {v : α} (h : m.find? k = some v) :
    (k, v) ∈ m.entries := by
  have hk : k ∈ m.keys := (contains_iff_mem_keys m k).1 (by rw [contains, h]; rfl)
  obtain ⟨⟨k', v'⟩, he, rfl⟩ := List.mem_map.1 hk
  cases (find?_of_mem he).symm.trans h
  exact he

/-- The map of a list in which no key occurs twice has the entries of the list. -/
theorem entries_ofList {l : List (κ × α)} (h : (l.map Prod.fst).Nodup) :
    (ofList l).entries = l := by
  suffices ∀ m : OrderedMap κ α, ((m.entries ++ l).map Prod.fst).Nodup →
      (l.foldl (fun m e => m.insert e.1 e.2) m).entries = m.entries ++ l from this ∅ h
  induction l with
  | nil => intro m _; exact (List.append_nil _).symm
  | cons e r ih =>
    intro m hm
    have hk : m.contains e.1 = false := by
      rw [Bool.eq_false_iff, Ne, contains_iff_mem_keys]
      intro hk
      rw [List.map_append, List.nodup_append] at hm
      exact hm.2.2 _ hk _ (List.mem_map_of_mem (List.mem_cons_self ..)) rfl
    have he := entries_insert_of_not_contains e.2 hk
    have hn : (((m.insert e.1 e.2).entries ++ r).map Prod.fst).Nodup := by
      rwa [he, List.append_assoc]
    rw [List.foldl_cons, ih (List.nodup_cons.1 h).2 _ hn, he, List.append_assoc]
    rfl

/-- A removal keeps the order of the other keys. -/
theorem keys_erase (m : OrderedMap κ α) (k : κ) :
    (m.erase k).keys = m.keys.filter (fun k' => decide (k' ≠ k)) :=
  map_fst_drop k m.entries

/-- The entries of the other keys are the same after an insertion, and in the same order. -/
theorem erase_insert (m : OrderedMap κ α) (k : κ) (v : α) : (m.insert k v).erase k = m.erase k :=
  ext_entries (drop_put k v m.entries)

/-- Removing a key again does nothing. -/
theorem erase_erase (m : OrderedMap κ α) (k : κ) : (m.erase k).erase k = m.erase k :=
  ext_entries (drop_drop k m.entries)

/-- An insertion adds one entry at most. -/
theorem size_insert_le (m : OrderedMap κ α) (k : κ) (v : α) : (m.insert k v).size ≤ m.size + 1 := by
  rw [← length_keys, ← length_keys, keys_insert]
  split
  · exact Nat.le_succ _
  · rw [List.length_append]
    exact Nat.le_refl _

/-- An insertion under a key that is there adds no entry. -/
theorem size_insert_of_find? {m : OrderedMap κ α} {k : κ} {u : α} (h : m.find? k = some u) (v : α) :
    (m.insert k v).size = m.size := by
  have hk : k ∈ m.keys := by
    rw [← contains_iff_mem_keys, contains, h]
    rfl
  rw [← length_keys, ← length_keys, keys_insert, if_pos hk]

/-- A removal adds no entry. -/
theorem size_erase_le (m : OrderedMap κ α) (k : κ) : (m.erase k).size ≤ m.size := by
  rw [← length_keys, ← length_keys, keys_erase]
  exact List.length_filter_le _ _

end OrderedMap

end HostBinding
