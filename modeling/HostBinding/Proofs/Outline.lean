import HostBinding.Definition
import Mathlib.Data.Set.Function
import Mathlib.Order.Interval.Set.Defs
import Mathlib.Tactic.Lemma

/-!
# The outline of a definition

The namespaces of a definition are the nodes of a tree. A node is found by its path: the positions of the
entries that lead to it, each in the table above. Entries are counted in the order in which a build meets
them, an entry before those inside it; `number` is the count up to the end of a path, for any way to weigh
entries.

* `Node.at?`: the namespace at a path, with `Node.at?_concat` for one step further down.
* `number_inj`: entries that weigh something have different numbers.
* `Node.index`: the number of a namespace, which is its place among the slots.
* `Node.index_concat`: a nested namespace comes after the one around it and the earlier ones beside it.
* `Node.index_bijOn`: the places of the namespaces are the numbers below the slot count, each taken once.
-/

namespace HostBinding.Definition

/-- The entries inside an entry. -/
def Entry.entries : Entry → List Entry
  | .leaf _ _ _ => []
  | .nested _ _ _ es => es

/-! ## Counting entries -/

mutual

/-- The weight of an entry together with those inside it. -/
def Entry.weight (own : Entry → Nat) : Entry → Nat
  | .leaf k a c => own (.leaf k a c)
  | .nested k a h es => own (.nested k a h es) + weight own es

/-- The weight of some entries together with those inside them. -/
def weight (own : Entry → Nat) : List Entry → Nat
  | [] => 0
  | e :: es => e.weight own + weight own es

end

/-- The weight of the entries up to the end of a path, the last one and those around it included. -/
def number (own : Entry → Nat) (es : List Entry) : List Nat → Nat
  | [] => 0
  | i :: is =>
    match es[i]? with
    | some e => weight own (es.take i) + own e + number own e.entries is
    | none => 0

/-- A path to an entry that weighs something. -/
def Counted (own : Entry → Nat) (es : List Entry) : List Nat → Prop
  | [] => False
  | i :: is => ∃ e, es[i]? = some e ∧ ((is = [] ∧ 0 < own e) ∨ Counted own e.entries is)

variable {own : Entry → Nat}

/-- An entry weighs what it weighs by itself, and what those inside it weigh. -/
lemma Entry.weight_eq (e : Entry) : e.weight own = own e + Definition.weight own e.entries := by
  cases e with
  | leaf k a c => simp only [Entry.weight, Entry.entries, Definition.weight, Nat.add_zero]
  | nested k a h es => simp only [Entry.weight, Entry.entries]

/-- The weights of two tables add up. -/
lemma weight_append (es fs : List Entry) : weight own (es ++ fs) = weight own es + weight own fs := by
  induction es with
  | nil => simp only [List.nil_append, weight, Nat.zero_add]
  | cons e r ih => simp only [List.cons_append, weight, ih, Nat.add_assoc]

/-- The next entry adds its weight to that of the first ones. -/
lemma weight_take_succ {es : List Entry} {i : Nat} {e : Entry} (h : es[i]? = some e) :
    weight own (es.take (i + 1)) = weight own (es.take i) + (own e + weight own e.entries) := by
  rw [List.take_add_one, h, Option.toList_some, weight_append, weight, weight, Nat.add_zero,
    Entry.weight_eq]

/-- More of the first entries weigh no less. -/
lemma weight_take_mono (own : Entry → Nat) (es : List Entry) {i j : Nat} (h : i ≤ j) :
    weight own (es.take i) ≤ weight own (es.take j) := by
  have e : es.take i = (es.take j).take i := by rw [List.take_take, Nat.min_eq_left h]
  rw [e, ← List.take_append_drop i (es.take j), weight_append, List.take_append_drop]
  exact Nat.le_add_right _ _

/-- The first entries weigh no more than all of them. -/
lemma weight_take_le (own : Entry → Nat) (es : List Entry) (i : Nat) : weight own (es.take i) ≤ weight own es := by
  rw [← List.take_append_drop i es, weight_append, List.take_append_drop]
  exact Nat.le_add_right _ _

/-- The number of an entry lies between the weights of the table before and behind its part. -/
lemma Counted.number_bounds {es : List Entry} {i : Nat} {is : List Nat}
    (h : Counted own es (i :: is)) :
    weight own (es.take i) < number own es (i :: is) ∧
      number own es (i :: is) ≤ weight own (es.take (i + 1)) := by
  induction is generalizing es i with
  | nil =>
    obtain ⟨e, he, ⟨-, hw⟩ | h⟩ := h
    · rw [weight_take_succ he]
      simp only [number, he]
      omega
    · exact h.elim
  | cons j js ih =>
    obtain ⟨e, he, ⟨h, -⟩ | h⟩ := h
    · cases h
    · have hj := ih h
      have hle := weight_take_le own e.entries (j + 1)
      rw [weight_take_succ he, number, he]
      dsimp only
      omega

/-- Entries that weigh something have different numbers. -/
lemma number_inj {es : List Entry} {p q : List Nat} (hp : Counted own es p) (hq : Counted own es q)
    (e : number own es p = number own es q) : p = q := by
  induction p generalizing es q with
  | nil => exact hp.elim
  | cons i is ih =>
    cases q with
    | nil => exact hq.elim
    | cons j js =>
      have hi := hp.number_bounds
      have hj := hq.number_bounds
      -- Entries at different positions have their numbers in intervals that do not meet.
      rcases Nat.lt_trichotomy i j with h | h | h
      · have := weight_take_mono own es (show i + 1 ≤ j from h)
        omega
      · subst h
        obtain ⟨x, hx, hp⟩ := hp
        obtain ⟨y, hy, hq⟩ := hq
        cases hx.symm.trans hy
        simp only [number, hx, Nat.add_left_cancel_iff] at e
        rcases hp with ⟨rfl, -⟩ | hp
        · rcases hq with ⟨rfl, -⟩ | hq
          · rfl
          · cases js with
            | nil => exact hq.elim
            -- A path that ends here has the number of the entry, and one that goes on has a larger one.
            | cons k ks =>
              have := hq.number_bounds
              rw [number] at e
              omega
        · rcases hq with ⟨rfl, -⟩ | hq
          · cases is with
            | nil => exact hp.elim
            | cons k ks =>
              have := hp.number_bounds
              rw [number.eq_1] at e
              omega
          · rw [ih hp hq e]
      · have := weight_take_mono own es (show j + 1 ≤ i from h)
        omega

/-! ## Namespaces -/

/-- One for a namespace, nothing for other entries. -/
def Entry.opens : Entry → Nat
  | .leaf _ _ _ => 0
  | .nested _ _ _ _ => 1

mutual

/-- An entry opens as many namespaces as it has slots. -/
lemma Entry.weight_opens : (e : Entry) → e.weight Entry.opens = e.slotCount
  | .leaf _ _ _ => rfl
  | .nested _ _ _ es => by rw [Entry.weight, Entry.slotCount, Entry.opens, weight_opens es]

/-- A table opens as many namespaces as are nested in it. -/
lemma weight_opens : (es : List Entry) → weight Entry.opens es = nestedCount es
  | [] => rfl
  | e :: es => by rw [weight, nestedCount, e.weight_opens, weight_opens es]

end

/-- A namespace of a definition: its table and hooks, and the attributes under which it is found. -/
structure Node where
  attributes : Attributes
  hooks : Hooks
  entries : List Entry

/-- The namespace of a whole definition, with the attributes `a`. -/
def root (d : Definition) (a : Attributes) : Node := ⟨a, d.hooks, d.entries⟩

namespace Node

/-- The namespace that the entry at a position opens. -/
def child? (n : Node) (i : Nat) : Option Node :=
  match n.entries[i]? with
  | some (.nested _ a h es) => some ⟨a, h, es⟩
  | _ => none

/-- The namespace at a path. -/
def at? (n : Node) : List Nat → Option Node
  | [] => some n
  | i :: is =>
    match n.child? i with
    | some c => c.at? is
    | none => none

/-- The number of the namespace at a path; the outermost one has the number 0. -/
def index (n : Node) (path : List Nat) : Nat := number Entry.opens n.entries path

/-- The namespaces in a namespace, itself included. -/
def size (n : Node) : Nat := 1 + nestedCount n.entries

variable {n m c : Node} {i : Nat} {path : List Nat}

/-- A namespace is opened by a nested entry. -/
lemma child?_eq_some (h : n.child? i = some c) :
    ∃ key, n.entries[i]? = some (.nested key c.attributes c.hooks c.entries) := by
  unfold child? at h
  split at h
  · rename_i key a hs es he
    cases h
    exact ⟨key, he⟩
  · cases h

/-- A nested entry opens a namespace. -/
lemma child?_of_nested {key a h es} (he : n.entries[i]? = some (.nested key a h es)) :
    n.child? i = some ⟨a, h, es⟩ := by
  rw [child?, he]

/-- A path leads into a nested namespace first, and on from there. -/
lemma at?_cons_eq_some :
    n.at? (i :: path) = some m ↔ ∃ c, n.child? i = some c ∧ c.at? path = some m := by
  rw [at?]
  cases n.child? i with
  | none => exact ⟨nofun, fun h => by obtain ⟨c, hc, -⟩ := h; cases hc⟩
  | some b =>
    refine ⟨fun h => ⟨b, rfl, h⟩, ?_⟩
    rintro ⟨c, ⟨⟩, h⟩
    exact h

/-- The namespace one step further down. -/
lemma at?_concat (h : n.at? path = some m) : n.at? (path ++ [i]) = m.child? i := by
  induction path generalizing n with
  | nil =>
    cases h
    simp only [List.nil_append, at?]
    cases m.child? i <;> rfl
  | cons j js ih =>
    obtain ⟨c, hc, h⟩ := at?_cons_eq_some.1 h
    rw [List.cons_append, at?, hc]
    exact ih h

/-- A nested namespace is opened by an entry of the one around it. -/
lemma exists_parent (hm : n.at? path = some m) (hp : path ≠ []) :
    ∃ q b i, path = q ++ [i] ∧ n.at? q = some b ∧ b.child? i = some m := by
  induction path generalizing n with
  | nil => exact absurd rfl hp
  | cons i is ih =>
    obtain ⟨c, hc, hm⟩ := at?_cons_eq_some.1 hm
    by_cases his : is = []
    · subst his
      cases hm
      exact ⟨[], n, i, rfl, rfl, hc⟩
    · obtain ⟨q, b, j, rfl, hq, hb⟩ := ih hm his
      exact ⟨i :: q, b, j, rfl, at?_cons_eq_some.2 ⟨c, hc, hq⟩, hb⟩

/-- A nested namespace is numbered after the one around it and the earlier ones beside it. -/
lemma index_cons (h : n.child? i = some c) (path : List Nat) :
    n.index (i :: path) = nestedCount (n.entries.take i) + 1 + c.index path := by
  obtain ⟨key, he⟩ := child?_eq_some h
  simp only [index, number, he, Entry.opens, Entry.entries, weight_opens]

/-- An entry of a namespace comes after what comes before the namespace and the earlier entries in it. -/
lemma number_concat (own : Entry → Nat) {e : Entry} (hm : n.at? path = some m)
    (he : m.entries[i]? = some e) :
    number own n.entries (path ++ [i]) =
      number own n.entries path + (weight own (m.entries.take i) + own e) := by
  induction path generalizing n with
  | nil =>
    cases hm
    simp only [List.nil_append, number, he, Nat.add_zero, Nat.zero_add]
  | cons j js ih =>
    obtain ⟨b, hb, hm⟩ := at?_cons_eq_some.1 hm
    obtain ⟨key, hj⟩ := child?_eq_some hb
    have h := ih hm
    simp only [List.cons_append, number, hj, Entry.entries]
    omega

/-- A nested namespace comes after the one around it and the earlier ones beside it. -/
lemma index_concat (hm : n.at? path = some m) (hc : m.child? i = some c) :
    n.index (path ++ [i]) = n.index path + 1 + nestedCount (m.entries.take i) := by
  obtain ⟨key, he⟩ := child?_eq_some hc
  rw [index, number_concat Entry.opens hm he, weight_opens, Entry.opens, index]
  omega

/-- The path to an entry that weighs something. -/
lemma counted_concat (own : Entry → Nat) {e : Entry} (hm : n.at? path = some m)
    (he : m.entries[i]? = some e) (hw : 0 < own e) : Counted own n.entries (path ++ [i]) := by
  induction path generalizing n with
  | nil =>
    cases hm
    exact ⟨e, he, .inl ⟨rfl, hw⟩⟩
  | cons j js ih =>
    obtain ⟨b, hb, hm⟩ := at?_cons_eq_some.1 hm
    obtain ⟨key, hj⟩ := child?_eq_some hb
    exact ⟨_, hj, .inr (ih hm)⟩

/-- The path to a nested namespace ends at an entry that opens one. -/
lemma counted_opens (hm : n.at? path = some m) (hp : path ≠ []) :
    Counted Entry.opens n.entries path := by
  obtain ⟨q, b, i, rfl, hq, hb⟩ := exists_parent hm hp
  obtain ⟨key, he⟩ := child?_eq_some hb
  exact counted_concat Entry.opens hq he Nat.one_pos

/-- Every namespace has a number below the count of namespaces. -/
lemma index_lt (hm : n.at? path = some m) : n.index path < n.size := by
  cases path with
  | nil => exact Nat.lt_of_lt_of_le Nat.one_pos (Nat.le_add_right _ _)
  | cons i is =>
    have h := (counted_opens hm (List.cons_ne_nil i is)).number_bounds.2
    have hle := weight_take_le Entry.opens n.entries (i + 1)
    rw [weight_opens n.entries] at hle
    rw [index, size]
    omega

/-- Different namespaces have different numbers. -/
lemma index_inj {p q : List Nat} {a b : Node} (hp : n.at? p = some a) (hq : n.at? q = some b)
    (e : n.index p = n.index q) : p = q := by
  -- Only the root has the number zero; the other namespaces are told apart by what comes before them.
  by_cases hp0 : p = []
  · subst hp0
    by_cases hq0 : q = []
    · exact hq0.symm
    · obtain ⟨j, js, rfl⟩ := List.exists_cons_of_ne_nil hq0
      have := (counted_opens hq hq0).number_bounds.1
      simp only [index, number.eq_1] at e
      omega
  · by_cases hq0 : q = []
    · subst hq0
      obtain ⟨i, is, rfl⟩ := List.exists_cons_of_ne_nil hp0
      have := (counted_opens hp hp0).number_bounds.1
      simp only [index] at e
      rw [number.eq_1] at e
      omega
    · exact number_inj (counted_opens hp hp0) (counted_opens hq hq0) e

/-- Among the namespaces nested in a table, the one with a number is in one of the entries. -/
lemma exists_entry {es : List Entry} {j : Nat} (h : j < nestedCount es) :
    ∃ i key a hs inner, es[i]? = some (.nested key a hs inner) ∧
      nestedCount (es.take i) ≤ j ∧ j - nestedCount (es.take i) < 1 + nestedCount inner := by
  induction es generalizing j with
  | nil => exact absurd h (Nat.not_lt_zero j)
  | cons e r ih =>
    by_cases hj : j < e.slotCount
    · cases e with
      | leaf k a c => exact absurd hj (Nat.not_lt_zero j)
      | nested k a hs inner =>
        refine ⟨0, k, a, hs, inner, rfl, Nat.zero_le j, ?_⟩
        simpa only [List.take_zero, nestedCount, Nat.sub_zero, Entry.slotCount] using hj
    · rw [nestedCount] at h
      obtain ⟨i, key, a, hs, inner, he, hle, hlt⟩ := ih (j := j - e.slotCount) (by omega)
      refine ⟨i + 1, key, a, hs, inner, he, ?_, ?_⟩ <;>
        rw [List.take_succ_cons, nestedCount] <;> omega

/-- Every number below the count of namespaces is that of a namespace. -/
lemma exists_path {j : Nat} (h : j < n.size) : ∃ path m, n.at? path = some m ∧ n.index path = j := by
  -- The induction is on the number: the entry that it falls into opens a smaller namespace.
  induction j using Nat.strong_induction_on generalizing n with
  | _ j ih =>
    cases j with
    | zero => exact ⟨[], n, rfl, rfl⟩
    | succ j =>
      obtain ⟨i, key, a, hs, inner, he, hle, hlt⟩ :=
        exists_entry (show j < nestedCount n.entries by rw [size] at h; omega)
      have hc := child?_of_nested he
      obtain ⟨path, m, hm, hi⟩ :=
        ih (j - nestedCount (n.entries.take i)) (by omega) (n := ⟨a, hs, inner⟩) hlt
      refine ⟨i :: path, m, at?_cons_eq_some.2 ⟨_, hc, hm⟩, ?_⟩
      rw [index_cons hc, hi]
      omega

/-- The numbers of the namespaces are those below their count, each taken once. -/
theorem index_bijOn (n : Node) :
    Set.BijOn n.index {path | (n.at? path).isSome} (Set.Iio n.size) := by
  refine ⟨fun p hp => ?_, fun p hp q hq e => ?_, fun j hj => ?_⟩
  · obtain ⟨m, hm⟩ := Option.isSome_iff_exists.1 hp
    exact index_lt hm
  · obtain ⟨a, ha⟩ := Option.isSome_iff_exists.1 hp
    obtain ⟨b, hb⟩ := Option.isSome_iff_exists.1 hq
    exact index_inj ha hb e
  · obtain ⟨path, m, hm, e⟩ := exists_path hj
    exact ⟨path, Option.isSome_iff_exists.2 ⟨m, hm⟩, e⟩

end Node

end HostBinding.Definition
