import HostBinding.Proofs.Materialization
import HostBinding.Proofs.Receiver

/-!
# The order of keys

The keys of a wrapper come from three sources: the templates of its slot, its own table, and its enumerator.
They are listed once each: the indices ascending, then the strings, then the symbols. Among the strings and
among the symbols, the keys with a template come first, in the order of the definition, then the other own keys
in the order in which they were made, then those that the enumerator alone reports.

A key with a template has its place by the definition, whether or not it has an own property by now. So the
listing stays the same when the key is read or written, and when it is deleted and written again. A read may
ask the host, and what the host does to the keys in the meantime shows in the listing.

* `External.sequence`: the keys of a wrapper, by where they come from.
* `External.Listed`: how they are listed.
* `Access.run_keys`: a listing is of the world in which it began.
* `Access.bound_get`, `Access.bound_set`, `Access.bound_delete_set`: what moves no key.
* `Access.listing_exact`: the main result.
-/

namespace HostBinding

variable {σ : Type} {w w' w₁ : World} {o : ObjectId} {key : Key} {e e' : External} {t : Template}
  {properties properties' : OrderedMap Key Property} {s s' : σ} {more ks ls : List Key} {p : Property}
  {receiver : Value} {h : Host σ} {r : Except Fault Value} {a : Attributes}

/-! ## Lists of keys -/

namespace Key

/-- There is nothing to erase where nothing comes twice. -/
lemma eraseDups_of_nodup (h : ks.Nodup) : ks.eraseDups = ks := by
  induction ks with
  | nil => rfl
  | cons k ks ih =>
    rw [List.nodup_cons] at h
    have hk : ks.filter (fun b => !b == k) = ks := by
      rw [List.filter_eq_self]
      rintro b hb
      rw [Bool.not_eq_true', beq_eq_false_iff_ne]
      rintro rfl
      exact h.1 hb
    rw [List.eraseDups_cons, hk, ih h.2]

/-- What is added to a list of keys are the first occurrences of those that are new. -/
lemma union_eq_append (ks more : List Key) :
    union ks more = ks ++ (more.filter fun k => decide (k ∉ ks)).eraseDups := by
  induction more generalizing ks with
  | nil => simp [union]
  | cons k more ih =>
    rw [union, List.foldl_cons, ← union, ih]
    by_cases hk : k ∈ ks
    · rw [if_pos hk, List.filter_cons_of_neg (by simp [hk])]
    · rw [if_neg hk, List.filter_cons_of_pos (by simp [hk]), List.eraseDups_cons, List.filter_filter,
        List.append_assoc]
      simp only [List.mem_append, List.mem_singleton, not_or, Bool.decide_and, List.singleton_append,
        decide_not, beq_eq_decide, Bool.and_comm]

/-- A union has no key twice if its first part has none. -/
lemma nodup_union (h : ks.Nodup) (more : List Key) : (union ks more).Nodup := by
  induction more generalizing ks with
  | nil => exact h
  | cons k more ih =>
    rw [union, List.foldl_cons, ← union]
    apply ih
    split
    · exact h
    · rename_i hk
      exact List.nodup_append.2 ⟨h, by simp, by rintro b hb c hc rfl; simp_all⟩

/-- Keys of one kind are not of another one. -/
lemma filter_eq_nil_of_kind {kind other : Key → Bool} (hks : ∀ k ∈ ks, other k = true)
    (h : ∀ k, other k = true → kind k = false) : ks.filter kind = [] := by
  rw [List.filter_eq_nil_iff]
  intro k hk
  rw [h k (hks k hk)]
  exact Bool.false_ne_true

/-- The keys of one kind are of that kind. -/
lemma kind_of_mem_filter {kind : Key → Bool} : ∀ k ∈ ks.filter kind, kind k = true :=
  fun _ hk => (List.mem_filter.1 hk).2

/-- Sorted indices are indices. -/
lemma isIndex_of_mem_mergeSort :
    ∀ k ∈ (ks.filter isIndex).mergeSort (fun a b => decide (a.rank ≤ b.rank)), isIndex k = true :=
  fun k hk => kind_of_mem_filter k ((List.mergeSort_perm _ _).mem_iff.1 hk)

/-- The indices are listed in ascending order. -/
lemma filter_isIndex_order (ks : List Key) :
    (order ks).filter isIndex =
      (ks.filter isIndex).mergeSort fun a b => decide (a.rank ≤ b.rank) := by
  rw [order, List.filter_append, List.filter_append, List.filter_eq_self.2 isIndex_of_mem_mergeSort,
    filter_eq_nil_of_kind kind_of_mem_filter (by rintro (_ | _ | _) <;> simp [isString, isIndex]),
    filter_eq_nil_of_kind kind_of_mem_filter (by rintro (_ | _ | _) <;> simp [isSymbol, isIndex]),
    List.append_nil, List.append_nil]

/-- The strings are listed in the order in which they come. -/
lemma filter_isString_order (ks : List Key) : (order ks).filter isString = ks.filter isString := by
  rw [order, List.filter_append, List.filter_append, List.filter_eq_self.2 kind_of_mem_filter,
    filter_eq_nil_of_kind isIndex_of_mem_mergeSort (by rintro (_ | _ | _) <;> simp [isString, isIndex]),
    filter_eq_nil_of_kind kind_of_mem_filter (by rintro (_ | _ | _) <;> simp [isSymbol, isString]),
    List.nil_append, List.append_nil]

/-- The symbols are listed in the order in which they come. -/
lemma filter_isSymbol_order (ks : List Key) : (order ks).filter isSymbol = ks.filter isSymbol := by
  have hsymbol : ((ks.filter isSymbol).filter isSymbol) = ks.filter isSymbol :=
    List.filter_eq_self.2 kind_of_mem_filter
  rw [order, List.filter_append, List.filter_append, hsymbol,
    filter_eq_nil_of_kind isIndex_of_mem_mergeSort (by rintro (_ | _ | _) <;> simp [isSymbol, isIndex]),
    filter_eq_nil_of_kind kind_of_mem_filter (by rintro (_ | _ | _) <;> simp [isSymbol, isString]),
    List.nil_append, List.nil_append]

/-- Without indices there is nothing to sort. -/
lemma order_of_filter_isIndex (h : ks.filter isIndex = []) :
    order ks = ks.filter isString ++ ks.filter isSymbol := by
  rw [order, h, List.mergeSort_nil, List.nil_append]

/-- Two indices at one position are the same. -/
lemma rank_injective_of_isIndex {k l : Key} (hk : k.isIndex = true) (hl : l.isIndex = true)
    (h : k.rank = l.rank) : k = l := by
  cases k with
  | index m =>
    cases l with
    | index n => exact congrArg index (UInt32.toNat_inj.1 h)
    | string t => cases hl
    | symbol t => cases hl
  | string t => cases hk
  | symbol t => cases hk

/-- Sorted keys ascend. -/
lemma pairwise_mergeSort_rank (ks : List Key) :
    (ks.mergeSort fun a b => decide (a.rank ≤ b.rank)).Pairwise
      fun a b => decide (a.rank ≤ b.rank) = true := by
  apply List.pairwise_mergeSort
  · intro a b c hab hbc
    rw [decide_eq_true_eq] at hab hbc ⊢
    exact Nat.le_trans hab hbc
  · intro a b
    rw [Bool.or_eq_true, decide_eq_true_eq, decide_eq_true_eq]
    exact Nat.le_total _ _

/-- Indices are listed in ascending order. -/
lemma pairwise_rank_order (h : ks.Nodup) :
    ((order ks).filter isIndex).Pairwise fun a b => a.rank < b.rank := by
  have hsorted : ((order ks).filter isIndex).Pairwise fun a b => decide (a.rank ≤ b.rank) = true := by
    rw [filter_isIndex_order]
    exact pairwise_mergeSort_rank _
  have hnodup : ((order ks).filter isIndex).Nodup := ((order_perm ks).nodup_iff.2 h).filter _
  refine (hsorted.and hnodup).imp_of_mem ?_
  rintro a b ha hb ⟨hle, hne⟩
  rw [List.mem_filter] at ha hb
  rw [decide_eq_true_eq] at hle
  exact Nat.lt_of_le_of_ne hle fun heq => hne (rank_injective_of_isIndex ha.2 hb.2 heq)

/-- Keys are listed by kinds: indices, strings, symbols. -/
lemma order_kinds (ks : List Key) :
    order ks = (order ks).filter isIndex ++ ((order ks).filter isString ++ (order ks).filter isSymbol) := by
  rw [filter_isIndex_order, filter_isString_order, filter_isSymbol_order, order]

end Key

/-! ## Where keys come from -/

namespace External

/-- The keys of a wrapper by where they come from, when its enumerator reports `more`: the bound ones of the
templates, in the order of the definition, then the other own keys in the order in which they were made, then
those that are only reported. -/
def sequence (properties : OrderedMap Key Property) (e : External) (more : List Key) : List Key :=
  (e.view.templates.keys.filter fun k => decide (k ∈ properties.keys ∨ k ∉ e.deleted))
    ++ ((properties.keys.filter fun k => decide (k ∉ e.view.templates.keys))
      ++ (more.filter fun k => decide (k ∉ boundKeys properties e)).eraseDups)

/-- The way in which the keys of a wrapper are listed when its enumerator reports `more`. -/
structure Listed (properties : OrderedMap Key Property) (e : External) (more ks : List Key) : Prop where
  nodup : ks.Nodup
  mem : ∀ k, k ∈ ks ↔
    k ∈ properties.keys ∨ (k ∈ e.view.templates.keys ∧ k ∉ e.deleted) ∨ k ∈ more
  kinds : ks = ks.filter Key.isIndex ++ (ks.filter Key.isString ++ ks.filter Key.isSymbol)
  indices : (ks.filter Key.isIndex).Pairwise fun a b => a.rank < b.rank
  strings : ks.filter Key.isString = (sequence properties e more).filter Key.isString
  symbols : ks.filter Key.isSymbol = (sequence properties e more).filter Key.isSymbol

/-- The keys that are bound here: those with a template, then the others. -/
lemma boundKeys_eq (properties : OrderedMap Key Property) (e : External) :
    boundKeys properties e =
      (e.view.templates.keys.filter fun k => decide (k ∈ properties.keys ∨ k ∉ e.deleted))
        ++ properties.keys.filter fun k => decide (k ∉ e.view.templates.keys) := by
  have hshown : (e.view.templates.keys.filter fun k => decide (k ∉ e.deleted) || properties.contains k) =
      e.view.templates.keys.filter fun k => decide (k ∈ properties.keys ∨ k ∉ e.deleted) := by
    refine List.filter_congr fun k _ => ?_
    rw [Bool.eq_iff_iff, Bool.or_eq_true, decide_eq_true_eq, decide_eq_true_eq,
      OrderedMap.contains_iff_mem_keys]
    exact or_comm
  have hnodup : properties.keys.Nodup := properties.nodup
  rw [boundKeys, hshown, Key.union_eq_append, Key.eraseDups_of_nodup (hnodup.filter _)]
  congr 1
  refine List.filter_congr fun k hk => ?_
  rw [Bool.eq_iff_iff, decide_eq_true_eq, decide_eq_true_eq, List.mem_filter, decide_eq_true_eq, not_and]
  exact ⟨fun h ht => h ht (.inl hk), fun h ht => absurd ht h⟩

/-- A key is bound if it has an own property, or a template that is not deleted. -/
lemma mem_boundKeys {k : Key} :
    k ∈ boundKeys properties e ↔ k ∈ properties.keys ∨ (k ∈ e.view.templates.keys ∧ k ∉ e.deleted) := by
  rw [boundKeys_eq, List.mem_append, List.mem_filter, List.mem_filter, decide_eq_true_eq, decide_eq_true_eq]
  by_cases ht : k ∈ e.view.templates.keys <;> simp [ht]

/-- No key is bound twice. -/
lemma nodup_boundKeys (properties : OrderedMap Key Property) (e : External) :
    (boundKeys properties e).Nodup :=
  Key.nodup_union (e.view.templates.nodup.filter _) _

/-- The keys are listed as they should be. -/
lemma listed (properties : OrderedMap Key Property) (e : External) (more : List Key) :
    Listed properties e more (Key.order (Key.union (boundKeys properties e) more)) := by
  have hnodup := Key.nodup_union (nodup_boundKeys properties e) more
  have hsequence : Key.union (boundKeys properties e) more = sequence properties e more := by
    rw [Key.union_eq_append, sequence, ← List.append_assoc, ← boundKeys_eq]
  refine ⟨(Key.order_perm _).nodup_iff.2 hnodup, fun k => ?_, Key.order_kinds _,
    Key.pairwise_rank_order hnodup, ?_, ?_⟩
  · rw [Key.mem_order, Key.mem_union, mem_boundKeys, or_assoc]
  · rw [Key.filter_isString_order, hsequence]
  · rw [Key.filter_isSymbol_order, hsequence]

/-- The bound keys stay the same when the same templates are bound, and the same other keys were made. -/
lemma boundKeys_congr (hview : e'.view = e.view)
    (hshown : ∀ k ∈ e.view.templates.keys,
      (k ∈ properties'.keys ∨ k ∉ e'.deleted) ↔ (k ∈ properties.keys ∨ k ∉ e.deleted))
    (hmade : (properties'.keys.filter fun k => decide (k ∉ e.view.templates.keys)) =
      properties.keys.filter fun k => decide (k ∉ e.view.templates.keys)) :
    boundKeys properties' e' = boundKeys properties e := by
  rw [boundKeys_eq, boundKeys_eq, hview, hmade]
  congr 1
  refine List.filter_congr fun k hk => ?_
  rw [Bool.eq_iff_iff, decide_eq_true_eq, decide_eq_true_eq]
  exact hshown k hk

/-- A key with a template has its place by the definition. -/
lemma boundKeys_insert (hkey : key ∈ boundKeys properties e) (p : Property) :
    boundKeys (properties.insert key p) e = boundKeys properties e := by
  by_cases hk : key ∈ properties.keys
  · have hkeys : (properties.insert key p).keys = properties.keys := by
      rw [OrderedMap.keys_insert, if_pos hk]
    exact boundKeys_congr rfl (fun k _ => by rw [hkeys]) (by rw [hkeys])
  · obtain ⟨ht, hd⟩ := (mem_boundKeys.1 hkey).resolve_left hk
    have hkeys : (properties.insert key p).keys = properties.keys ++ [key] := by
      rw [OrderedMap.keys_insert, if_neg hk]
    refine boundKeys_congr rfl (fun k _ => ?_) ?_
    · rw [hkeys, List.mem_append, List.mem_singleton]
      by_cases hkk : k = key
      · subst hkk
        simp only [or_true, hd, not_false_eq_true]
      · simp only [hkk, or_false]
    · rw [hkeys, List.filter_append, List.filter_cons_of_neg (by simp [ht]), List.filter_nil,
        List.append_nil]

/-- A deleted key that is bound again is back in the place of its template. -/
lemma boundKeys_restored (ht : key ∈ e.view.templates.keys) (hkey : key ∈ boundKeys properties e)
    (p : Property) :
    boundKeys ((properties.erase key).insert key p) (e.delete key) =
      boundKeys properties e := by
  have hview : (e.delete key).view = e.view := by
    unfold delete
    split <;> rfl
  -- The key is erased and comes back at the end, but it is listed in its place among the templates.
  have herased : key ∉ (properties.erase key).keys := by
    rw [OrderedMap.keys_erase, List.mem_filter]
    simp
  have hkeys : ((properties.erase key).insert key p).keys =
      (properties.keys.filter fun k => decide (k ≠ key)) ++ [key] := by
    rw [OrderedMap.keys_insert, if_neg herased, OrderedMap.keys_erase]
  refine boundKeys_congr hview (fun k hk => ?_) ?_
  · rw [hkeys, List.mem_append, List.mem_singleton, List.mem_filter, decide_eq_true_eq,
      mem_deleted_delete]
    by_cases hkk : k = key
    · subst hkk
      rw [mem_boundKeys] at hkey
      simp only [or_true, true_or, true_iff]
      exact hkey.imp_right And.right
    · simp only [hkk, ne_eq, not_false_eq_true, and_true, or_false]
  · rw [hkeys, List.filter_append, List.filter_filter, List.filter_cons_of_neg (by simp [ht]),
      List.filter_nil, List.append_nil]
    refine List.filter_congr fun k _ => ?_
    by_cases hkk : k = key
    · subst hkk
      simp [ht]
    · simp [hkk]

end External

/-! ## Listings of a world -/

/-- The keys of a wrapper as they are listed when its enumerator reports `more`. -/
def World.listing (w : World) (o : ObjectId) (more : List Key) : List Key :=
  Key.order (Key.union (Access.bound w o) more)

namespace Access

/-- The bound keys of a wrapper, with its wrapper part at hand. -/
lemma bound_of_external (hx : (w.object o).external? = some e) :
    bound w o = External.boundKeys (w.object o).properties e := by
  rw [bound, hx]

/-- An object that stays what it is keeps its bound keys. -/
lemma bound_congr (h : w'.object o = w.object o) : bound w' o = bound w o := by
  rw [bound, bound, h]

/-- A property under a bound key moves no key. -/
lemma bound_put (h : w'.object o = (w.object o).put key p) (hkey : key ∈ bound w o) :
    bound w' o = bound w o := by
  cases hx : (w.object o).external? with
  | none =>
    rw [bound, hx] at hkey
    exact absurd hkey List.not_mem_nil
  | some e =>
    have hx' : (w'.object o).external? = some e := by
      rw [h]
      exact hx
    rw [bound_of_external hx] at hkey ⊢
    rw [bound_of_external hx', h]
    exact External.boundKeys_insert hkey p

/-- A lookup of a bound key ends at an own property or at a template. -/
lemma search_of_bound (hx : (w.object o).external? = some e) (hkey : key ∈ bound w o) :
    (∃ p, External.search (w.object o).properties e key = .own p) ∨
      ∃ t, External.search (w.object o).properties e key = .template t := by
  rw [bound_of_external hx, External.mem_boundKeys] at hkey
  cases hk : (w.object o).properties.find? key with
  | some p => exact .inl ⟨p, External.search_own e hk⟩
  | none =>
    have hnot : key ∉ (w.object o).properties.keys := by
      rw [← OrderedMap.contains_iff_mem_keys, OrderedMap.contains, hk]
      exact Bool.false_ne_true
    obtain ⟨ht, hd⟩ := hkey.resolve_left hnot
    rw [← OrderedMap.contains_iff_mem_keys, OrderedMap.contains, Option.isSome_iff_exists] at ht
    obtain ⟨t, ht⟩ := ht
    exact .inr ⟨t, External.search_template hk hd ht⟩

/-- A listing is of the world in which it began, with what the enumerator reports. -/
lemma run_keys (hx : (w.object o).external? = some e)
    (hmore : (External.reportedKeys e).run h w s = (.ok more, w', s')) :
    (keys o).run h w s = (.ok (w.listing o more), w', s') := by
  rw [Dialogue.run, start_keys hx, External.keys, Dialogue.start_external_bind hx, ← Dialogue.run]
  dsimp only
  rw [Dialogue.run_bind, hmore, World.listing, bound_of_external hx]
  rfl

/-! ## What moves no key -/

/-- A materialization moves no key, if the host moves none. -/
lemma bound_materialize {host : HostAddress} (ht : t.content.isDeferred = true)
    (hhost : w.host? receiver = some host) (hkey : key ∈ bound w o)
    (hidle : bound ((t.consult host).run h w s).2.1 o = bound w o)
    (hrun : (External.materialize o key t receiver).run h w s = (r, w', s')) : bound w' o = bound w o := by
  obtain ⟨x, S, hconsult, -, hsettles⟩ := External.materialize_settles o key ht hhost h hrun
  rw [hconsult] at hidle
  rw [← hidle] at hkey ⊢
  cases r with
  | error f => rw [hsettles.failed f rfl]
  | ok v =>
    cases hk : (S.object o).properties.find? key with
    | some p => exact bound_congr (hsettles.stands v p rfl hk).2.1
    | none =>
      obtain ⟨a, hobject, -⟩ := hsettles.kept v rfl hk
      exact bound_put hobject hkey

/-- A read of a bound key moves no key, if the host moves none when it is asked for the value. -/
lemma bound_get (hx : (w.object o).external? = some e) (hkey : key ∈ bound w o)
    (hidle : ∀ t host, External.search (w.object o).properties e key = .template t →
      w.host? receiver = some host → bound ((t.consult host).run h w s).2.1 o = bound w o)
    (hrun : (get o key receiver).run h w s = (r, w', s')) : bound w' o = bound w o := by
  rcases search_of_bound hx hkey with ⟨p, hs⟩ | ⟨t, hs⟩
  · rw [run_get_value hx (by rw [hs]; rfl)] at hrun
    cases hrun
    rfl
  -- A template with a value is read as it stands. For any other one the host may be asked, which leaves the
  -- keys alone.
  · cases hdeferred : t.content.isDeferred with
    | false =>
      obtain ⟨a, c⟩ := t
      cases c with
      | value v =>
        rw [run_get_value hx (by rw [hs]; rfl)] at hrun
        cases hrun
        rfl
      | nested offset => cases hdeferred
      | dynamic f magic => cases hdeferred
    | true =>
      cases hhost : w.host? receiver with
      | none =>
        obtain ⟨v, hv⟩ := run_get_hostless hx key hhost h s
        cases hrun.symm.trans hv
        rfl
      | some host =>
        rw [run_get_due ⟨hx, hs, hdeferred⟩] at hrun
        exact bound_materialize hdeferred hhost hkey (hidle t host hs hhost) hrun

/-- A write of a bound key moves no key. -/
lemma bound_set {v : Value} {r : Except Fault Bool} (hx : (w.object o).external? = some e)
    (hkey : key ∈ bound w o) (hrun : (set o key v).run h w s = (r, w', s')) : bound w' o = bound w o := by
  have ho := World.index_lt_of_external hx
  rw [Dialogue.run, start_set hx, External.write, Dialogue.start_external_bind hx] at hrun
  dsimp only at hrun
  rcases search_of_bound hx hkey with ⟨p, hs⟩ | ⟨t, hs⟩
  · have hk := External.search_eq_own hs
    rw [hs] at hrun
    dsimp only at hrun
    rw [Dialogue.start_lift, Turn.run, Action.runIn_commit, Object.assign, hk] at hrun
    dsimp only at hrun
    by_cases hwritable : p.attributes.writable = true
    · rw [if_pos hwritable] at hrun
      cases hrun
      exact bound_put (p := { p with value := v }) ((World.object_update w o o _ ho).trans (if_pos rfl)) hkey
    · rw [if_neg hwritable] at hrun
      cases hrun
      rfl
  · rw [hs] at hrun
    dsimp only at hrun
    split at hrun
    · rw [Dialogue.start_lift, Turn.run, External.runIn_overwrite hx] at hrun
      split at hrun
      · cases hrun
        exact bound_put (p := ⟨v, t.attributes⟩)
          ((World.object_update (w.spend Cost.property) o o _ ho).trans (if_pos rfl)) hkey
      · cases hrun
        rfl
    · cases hrun
      rfl

/-- A write that is accepted of a key that nothing answers for makes a property. -/
lemma object_set_absent {v : Value} (hx : (w.object o).external? = some e)
    (hs : External.search (w.object o).properties e key = .absent)
    (hrun : (set o key v).run h w s = (.ok true, w', s')) :
    w'.object o = (w.object o).put key (.ofValue v) := by
  obtain ⟨hk, -⟩ := External.search_eq_absent hs
  rw [Dialogue.run, start_set hx, External.write, Dialogue.start_external_bind hx] at hrun
  dsimp only at hrun
  rw [hs] at hrun
  dsimp only at hrun
  by_cases hext : (w.object o).extensible = true
  · rw [if_pos hext, Dialogue.start_lift, Turn.run, External.runIn_defineNew hx, Object.define, hk] at hrun
    dsimp only at hrun
    rw [if_pos hext] at hrun
    split at hrun
    · cases hrun
      exact (World.object_update (w.spend Cost.property) o o _ (World.index_lt_of_external hx)).trans
        (if_pos rfl)
    · cases hrun
  · rw [if_neg hext] at hrun
    cases hrun

/-- A key with a template that is deleted and written again is back in its place. -/
lemma bound_delete_set {v : Value} (hx : (w.object o).external? = some e)
    (ht : key ∈ e.view.templates.keys) (hkey : key ∈ bound w o)
    (hdelete : (delete o key).runIn w = (.ok true, w₁))
    (hset : (set o key v).run h w₁ s = (.ok true, w', s')) : bound w' o = bound w o := by
  have hcontains : e.view.templates.contains key = true := (OrderedMap.contains_iff_mem_keys _ _).2 ht
  rw [runIn_delete hx, External.runIn_erase hx] at hdelete
  split at hdelete
  · cases hdelete
    have hobject := (World.object_update w o o (External.without (w.object o) e key)
      (World.index_lt_of_external hx)).trans (if_pos rfl)
    have hx₁ : ((w.update o (External.without (w.object o) e key)).object o).external? =
        some (e.delete key) := by
      rw [hobject, External.without, if_pos hcontains]
      rfl
    -- The key is deleted, so that the write makes a new property, which takes the place of the template.
    have hs₁ : External.search ((w.update o (External.without (w.object o) e key)).object o).properties
        (e.delete key) key = .absent := by
      rw [hobject]
      refine External.search_deleted ?_ (External.mem_deleted_delete.2 (.inr rfl))
      exact (OrderedMap.find?_erase ..).trans (if_pos rfl)
    have hput := object_set_absent hx₁ hs₁ hset
    rw [hobject] at hput
    have hx' : (w'.object o).external? = some (e.delete key) := by
      rw [hput, External.without, if_pos hcontains]
      rfl
    rw [bound_of_external hx] at hkey ⊢
    rw [bound_of_external hx', hput]
    exact External.boundKeys_restored ht hkey _
  · cases hdelete

end Access

/-- The listing of a wrapper is the same in two worlds, whatever its enumerator reports. -/
def World.ListsAlike (o : ObjectId) (w w' : World) : Prop := ∀ more, w'.listing o more = w.listing o more

/-- Wrappers with the same bound keys are listed alike. -/
lemma World.listsAlike_of_bound (hb : Access.bound w' o = Access.bound w o) : w.ListsAlike o w' := by
  intro more
  rw [listing, listing, hb]

/-- A wrapper lists its keys as they come from the templates, the own table and the enumerator. A bound key
with a template stays in its place when it is written, when it is deleted and written again, and when it is
read, as long as a host that is asked for the value moves no key itself. -/
theorem Access.listing_exact (h : Host σ) (hx : (w.object o).external? = some e) :
    (∀ s more w' s', (External.reportedKeys e).run h w s = (.ok more, w', s') →
      (keys o).run h w s = (.ok (w.listing o more), w', s')) ∧
    (∀ more, External.Listed (w.object o).properties e more (w.listing o more)) ∧
    ∀ key ∈ e.view.templates.keys, key ∈ bound w o →
      (∀ receiver s r w' s', (get o key receiver).run h w s = (r, w', s') →
        (∀ t host, External.search (w.object o).properties e key = .template t →
          w.host? receiver = some host → bound ((t.consult host).run h w s).2.1 o = bound w o) →
        w.ListsAlike o w') ∧
      (∀ v s r w' s', (set o key v).run h w s = (r, w', s') → w.ListsAlike o w') ∧
      (∀ v s w₁ w' s', (delete o key).runIn w = (.ok true, w₁) →
        (set o key v).run h w₁ s = (.ok true, w', s') → w.ListsAlike o w') := by
  refine ⟨fun s more w' s' hmore => run_keys hx hmore, fun more => ?_, fun key ht hkey => ⟨?_, ?_, ?_⟩⟩
  · rw [World.listing, bound_of_external hx]
    exact External.listed _ e more
  · intro receiver s r w' s' hrun hidle
    exact World.listsAlike_of_bound (bound_get hx hkey hidle hrun)
  · intro v s r w' s' hrun
    exact World.listsAlike_of_bound (bound_set hx hkey hrun)
  · intro v s w₁ w' s' hdelete hset
    exact World.listsAlike_of_bound (bound_delete_set hx ht hkey hdelete hset)

/-- A prototype with a property that enumeration visits, one that it does not, and an enumerator. -/
def shelf : Prototype where
  number := 0
  slots := #[⟨.ofList [(.string "title", ⟨.all, .value (.string "Logic")⟩),
      (.string "code", ⟨.method, .value (.string "L1")⟩)], .all, { enumerator := some (.hosted 0) }⟩]

/-- The world with an instance of the shelf. -/
def shelfWorld : World :=
  ((({} : World).spend Cost.external).allocate
    { kind := .external { prototype := shelf, slot := 0, host := ⟨1⟩, shared := false,
                          slot_lt := by decide } }).2

/-- A host whose enumerators report some keys. -/
def Host.reporting (ks : List Key) : Host Unit := fun q w s =>
  match q with
  | .enumerator _ _ => (.ok ks, w, s)
  | _ => (.error .outOfMemory, w, s)

/-- A shelf lists an index first, then the keys of its templates, then what is reported besides. A title that
is written stays in its place. -/
theorem shelf_listing_exact : ∃ w',
    (Access.set ⟨0⟩ (.string "title") .null).run
      (.reporting [.string "page", .index 3, .string "title"]) shelfWorld () = (.ok true, w', ()) ∧
    (Access.keys ⟨0⟩).run (.reporting [.string "page", .index 3, .string "title"]) w' () =
      (.ok [.index 3, .string "title", .string "code", .string "page"], w', ()) := by
  obtain ⟨w', e', hrun, hx', hmore⟩ : ∃ w' e',
      (Access.set ⟨0⟩ (.string "title") .null).run
        (.reporting [.string "page", .index 3, .string "title"]) shelfWorld () = (.ok true, w', ()) ∧
      (w'.object ⟨0⟩).external? = some e' ∧
      (External.reportedKeys e').run (.reporting [.string "page", .index 3, .string "title"]) w' () =
        (.ok [.string "page", .index 3, .string "title"], w', ()) := ⟨_, _, rfl, rfl, rfl⟩
  obtain ⟨-, -, hstays⟩ := Access.listing_exact (w := shelfWorld) (o := ⟨0⟩)
    (.reporting [.string "page", .index 3, .string "title"]) rfl
  obtain ⟨-, hset, -⟩ := hstays (.string "title") (by decide) (by decide)
  obtain ⟨hkeys, -⟩ := Access.listing_exact (.reporting [.string "page", .index 3, .string "title"]) hx'
  refine ⟨w', hrun, ?_⟩
  rw [hkeys _ _ _ _ hmore, hset _ _ _ _ _ hrun]
  have hindices : (Key.union (Access.bound shelfWorld ⟨0⟩) [.string "page", .index 3, .string "title"]).filter
      Key.isIndex = [.index 3] := by decide
  rw [World.listing, Key.order, hindices, List.mergeSort_singleton]
  rfl

/-- A read by which the host sets another property: the listing has one key more after it. -/
theorem clock_listing_grows : (∃ es, Run (.fresh none) es ⟨clockWorld, []⟩) ∧ ∃ w',
    (Access.keys ⟨0⟩).run (.meddling (.string "tick") .null) clockWorld () =
      (.ok [.string "now"], clockWorld, ()) ∧
    (Access.get ⟨0⟩ (.string "now") (.object ⟨0⟩)).run (.meddling (.string "tick") .null) clockWorld () =
      (.ok (.boolean true), w', ()) ∧
    (Access.keys ⟨0⟩).run (.meddling (.string "tick") .null) w' () =
      (.ok [.string "now", .string "tick"], w', ()) := by
  refine ⟨⟨_, .cons (.start _ _ (.instantiate (some clock) ⟨1⟩ false)) (.nil _)⟩, _, ?_, rfl, ?_⟩
  · rw [Access.run_keys rfl rfl, World.listing, Key.order_of_filter_isIndex rfl]
    rfl
  · rw [Access.run_keys rfl rfl, World.listing, Key.order_of_filter_isIndex rfl]
    rfl

end HostBinding
