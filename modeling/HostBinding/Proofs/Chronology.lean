import HostBinding.Proofs.Enumeration

/-!
# The order of creation

An object that is no wrapper lists its own keys in an order that its history determines: first the indices, ascending,
then the strings, then the symbols, the last two in the order in which the keys were made. A key is made when it is
written while there is no property under it. To write it again, or to be refused, moves no key, and a key that was
deleted and is made again comes last among its kind.

* `Alteration`: what is done to own properties, by the operations and past them.
* `birth`: when a key was made, read off what was done and how it ended.
* `Chronicle`: the history of an object.
* `Dated`: keys in the order in which they were made.
* `Alteration.dialogue_done`: an alteration does not ask the host, and adds or removes its own key only.
* `World.Lists`, `Alteration.Moves`: how keys are listed, and how an alteration moves them.
* `Chronicle.keys_chronological`: the main result.
-/

namespace HostBinding

variable {w w' : World} {o : ObjectId} {ks : List Key} {r : Except Fault Bool}

/-! ## Histories -/

/-- One thing that is done to the own properties of an object: past the operations, or by them. -/
inductive Alteration
  | define (key : Key) (p : Property)
  | assign (key : Key) (v : Value)
  | remove (key : Key)
  | set (key : Key) (v : Value)
  | delete (key : Key)

namespace Alteration

/-- The key that an alteration is about. -/
def key : Alteration → Key
  | define k _ => k
  | assign k _ => k
  | remove k => k
  | set k _ => k
  | delete k => k

/-- Whether an alteration is there to write a property, and not to remove it. -/
def writes : Alteration → Bool
  | define _ _ => true
  | assign _ _ => true
  | remove _ => false
  | set _ _ => true
  | delete _ => false

/-- Changes own properties past the operations, and says whether that was accepted. -/
def amend (o : ObjectId) (f : Object → Option Object) : Action Bool := do
  Action.commit o (f (← Action.object o))

/-- An alteration of an object as it is carried out. -/
def dialogue (o : ObjectId) : Alteration → Dialogue Bool
  | define k p => amend o fun x => x.define k p
  | assign k v => amend o fun x => x.assign k v
  | remove k => amend o fun x => x.remove k
  | set k v => Access.set o k v
  | delete k => Access.delete o k

end Alteration

/-- An alteration that was attempted, and how it ended. -/
structure Attempt where
  alteration : Alteration
  outcome : Except Fault Bool

namespace Attempt

/-- The key that was altered. -/
def key (d : Attempt) : Key := d.alteration.key

/-- Whether a property was to be written, and not to be removed. -/
def writes (d : Attempt) : Bool := d.alteration.writes

/-- Whether the alteration was accepted. -/
def accepted (d : Attempt) : Bool := d.outcome.toOption.getD false

/-- The keys of an object, oldest first, after what was done to it. -/
def arrange (d : Attempt) (ks : List Key) : List Key :=
  if d.accepted then
    if d.writes then if d.key ∈ ks then ks else ks ++ [d.key]
    else ks.filter fun k => decide (k ≠ d.key)
  else ks

variable {d : Attempt}

/-- What is refused moves no key. -/
lemma arrange_of_refused (ha : d.accepted = false) : d.arrange ks = ks := by
  rw [arrange, ha]
  rfl

/-- A write that is accepted adds its key, if that is new. -/
lemma arrange_of_writes (ha : d.accepted = true) (hw : d.writes = true) :
    d.arrange ks = if d.key ∈ ks then ks else ks ++ [d.key] := by
  rw [arrange, if_pos ha, if_pos hw]

/-- A removal that is accepted takes its key out. -/
lemma arrange_of_not_writes (ha : d.accepted = true) (hw : d.writes = false) :
    d.arrange ks = ks.filter fun k => decide (k ≠ d.key) := by
  rw [arrange, if_pos ha, if_neg (Bool.eq_false_iff.1 hw)]

end Attempt

/-- When a key was made, if it is still there: at its latest creation, by what was done and how it ended, the latest
first. Times are counted in alterations. -/
def birth : List Attempt → Key → Option Nat
  | [], _ => none
  | d :: log, k =>
    if d.accepted = true ∧ d.key = k then
      if d.writes then (birth log k).or (some log.length) else none
    else birth log k

/-- What was done to an object that is no wrapper since it was made, the latest first. In the meantime anything may
be done that does not concern its own properties. -/
inductive Chronicle : ObjectId → List Attempt → World → Prop
  | make (w : World) (x : Object) (hx : x.external? = none) (hp : x.properties = ∅) :
    Chronicle (w.allocate x).1 [] (w.allocate x).2
  | alter {o : ObjectId} {log : List Attempt} {w w' : World} {r : Except Fault Bool} (h : Chronicle o log w)
    (a : Alteration) (hdone : (a.dialogue o).start w = .done r w') : Chronicle o (⟨a, r⟩ :: log) w'
  | pause {o : ObjectId} {log : List Attempt} {w w' : World} (h : Chronicle o log w)
    (hsize : w.objects.size ≤ w'.objects.size) (hkind : (w'.object o).kind = (w.object o).kind)
    (hp : (w'.object o).properties = (w.object o).properties) : Chronicle o log w'

/-! ## Dates -/

/-- One key was made before the other. -/
def Earlier (log : List Attempt) (k l : Key) : Prop := ∃ i j, birth log k = some i ∧ birth log l = some j ∧ i < j

/-- Keys in the order in which they were made. -/
structure Dated (log : List Attempt) (ks : List Key) : Prop where
  mem : ∀ k, k ∈ ks ↔ birth log k ≠ none
  past : ∀ k i, birth log k = some i → i < log.length
  ordered : ks.Pairwise (Earlier log)

section

variable {log : List Attempt} {d : Attempt} {k : Key}

/-- What is refused, or done to another key, is no birth. -/
lemma birth_cons_of_not (h : ¬ (d.accepted = true ∧ d.key = k)) : birth (d :: log) k = birth log k := by
  rw [birth, if_neg h]

/-- What is done to another key is no birth. -/
lemma birth_cons_of_ne (h : k ≠ d.key) : birth (d :: log) k = birth log k :=
  birth_cons_of_not fun hd => h hd.2.symm

/-- A write is a birth, if the key is not there yet. -/
lemma birth_cons_of_writes (ha : d.accepted = true) (hw : d.writes = true) :
    birth (d :: log) d.key = (birth log d.key).or (some log.length) := by
  rw [birth, if_pos ⟨ha, rfl⟩, if_pos hw]

/-- A removal ends what was born. -/
lemma birth_cons_of_not_writes (ha : d.accepted = true) (hw : d.writes = false) :
    birth (d :: log) d.key = none := by
  rw [birth, if_pos ⟨ha, rfl⟩, hw]
  rfl

namespace Dated

/-- A new object has no keys. -/
lemma nil : Dated [] [] where
  mem k := by simp [birth]
  past k i h := by cases h
  ordered := .nil

/-- Nothing moves if no key was made and none was removed. -/
lemma of_birth_eq (h : Dated log ks) (hb : ∀ k, birth (d :: log) k = birth log k) : Dated (d :: log) ks where
  mem k := by rw [hb, h.mem]
  past k i hi := by
    rw [hb] at hi
    exact Nat.lt_succ_of_lt (h.past k i hi)
  ordered := h.ordered.imp fun ⟨i, j, hi, hj, hij⟩ => ⟨i, j, (hb _).trans hi, (hb _).trans hj, hij⟩

/-- A key that was made now is the latest. -/
lemma append (h : Dated log ks) (ha : d.accepted = true) (hw : d.writes = true)
    (hnew : d.key ∉ ks) : Dated (d :: log) (ks ++ [d.key]) := by
  have hnone : birth log d.key = none := not_not.1 (mt (h.mem _).2 hnew)
  have hborn : birth (d :: log) d.key = some log.length := by
    rw [birth_cons_of_writes ha hw, hnone]
    rfl
  have hothers (k : Key) (hk : k ∈ ks) : birth (d :: log) k = birth log k :=
    birth_cons_of_ne (ne_of_mem_of_not_mem hk hnew)
  refine ⟨fun k => ?_, fun k i hi => ?_, ?_⟩
  · by_cases hk : k = d.key
    · simp [hk, hborn]
    · simp [hk, birth_cons_of_ne hk, h.mem]
  · by_cases hk : k = d.key
    · rw [hk, hborn] at hi
      cases hi
      exact Nat.lt_succ_self _
    · rw [birth_cons_of_ne hk] at hi
      exact Nat.lt_succ_of_lt (h.past k i hi)
  · refine List.pairwise_append.2 ⟨h.ordered.imp_of_mem ?_, List.pairwise_singleton _ _, ?_⟩
    · rintro k l hk hl ⟨i, j, hi, hj, hij⟩
      exact ⟨i, j, (hothers k hk).trans hi, (hothers l hl).trans hj, hij⟩
    · intro k hk l hl
      obtain ⟨i, hi⟩ := Option.ne_none_iff_exists'.1 ((h.mem k).1 hk)
      rw [List.mem_singleton.1 hl]
      exact ⟨i, _, (hothers k hk).trans hi, hborn, h.past k i hi⟩

/-- The other keys stay in order when a key is removed. -/
lemma filter (h : Dated log ks) (ha : d.accepted = true) (hw : d.writes = false) :
    Dated (d :: log) (ks.filter fun k => decide (k ≠ d.key)) := by
  have hgone : birth (d :: log) d.key = none := birth_cons_of_not_writes ha hw
  refine ⟨fun k => ?_, fun k i hi => ?_, ?_⟩
  · by_cases hk : k = d.key
    · simp [hk, hgone]
    · simp [hk, birth_cons_of_ne hk, h.mem]
  · by_cases hk : k = d.key
    · rw [hk, hgone] at hi
      cases hi
    · rw [birth_cons_of_ne hk] at hi
      exact Nat.lt_succ_of_lt (h.past k i hi)
  · refine (h.ordered.filter _).imp_of_mem ?_
    rintro k l hk hl ⟨i, j, hi, hj, hij⟩
    have hk := of_decide_eq_true (List.mem_filter.1 hk).2
    have hl := of_decide_eq_true (List.mem_filter.1 hl).2
    exact ⟨i, j, (birth_cons_of_ne hk).trans hi, (birth_cons_of_ne hl).trans hj, hij⟩

/-- What is done to an object keeps its keys in the order in which they were made. -/
lemma arrange (h : Dated log ks) (d : Attempt) : Dated (d :: log) (d.arrange ks) := by
  cases ha : d.accepted with
  | false =>
    rw [Attempt.arrange_of_refused ha]
    exact h.of_birth_eq fun k => birth_cons_of_not fun hd => Bool.false_ne_true (ha.symm.trans hd.1)
  | true =>
    cases hw : d.writes with
    | false =>
      rw [Attempt.arrange_of_not_writes ha hw]
      exact h.filter ha hw
    | true =>
      rw [Attempt.arrange_of_writes ha hw]
      split
      -- A key that is there is not made again.
      · rename_i hmem
        refine h.of_birth_eq fun k => ?_
        by_cases hk : k = d.key
        · obtain ⟨i, hi⟩ := Option.ne_none_iff_exists'.1 ((h.mem _).1 hmem)
          rw [hk, birth_cons_of_writes ha hw, hi]
          rfl
        · exact birth_cons_of_ne hk
      · rename_i hnew
        exact h.append ha hw hnew

end Dated

end

/-! ## Alterations -/

namespace Object

variable {x x' : Object} {key : Key}

/-- A property that is put under a new key comes last. -/
lemma keys_put (x : Object) (key : Key) (p : Property) : (x.put key p).properties.keys =
    if key ∈ x.properties.keys then x.properties.keys else x.properties.keys ++ [key] :=
  OrderedMap.keys_insert x.properties key p

/-- A removal takes one key out, if there is anything to remove. -/
lemma keys_of_remove (h : x.remove key = some x') :
    x'.kind = x.kind ∧ x'.properties.keys = x.properties.keys.filter fun k => decide (k ≠ key) := by
  unfold remove at h
  split at h
  -- There is nothing to remove.
  · rename_i hk
    cases h
    refine ⟨rfl, (List.filter_eq_self.2 fun k hmem => decide_eq_true ?_).symm⟩
    exact ne_of_mem_of_not_mem hmem (OrderedMap.find?_eq_none_iff.1 hk)
  · split at h
    · cases h
      exact ⟨rfl, OrderedMap.keys_erase x.properties key⟩
    · cases h

end Object

namespace Alteration

/-- What an alteration does to its object: it keeps its kind, and adds or removes the one key. -/
structure Alters (a : Alteration) (o : ObjectId) (w : World) (r : Except Fault Bool) (w' : World) : Prop where
  size : w'.objects.size = w.objects.size
  kind : (w'.object o).kind = (w.object o).kind
  keys : (w'.object o).properties.keys = Attempt.arrange ⟨a, r⟩ (w.object o).properties.keys

variable {a : Alteration} {v : World}

/-- What is refused alters nothing. -/
lemma Alters.of_refused (hr : Attempt.accepted ⟨a, r⟩ = false) (hobject : v.object o = w.object o)
    (hsize : v.objects.size = w.objects.size) : a.Alters o w r v := by
  refine ⟨hsize, congrArg Object.kind hobject, ?_⟩
  rw [Attempt.arrange_of_refused hr, hobject]

/-- A change that is accepted is put in place, and one that is refused leaves all as it is. -/
lemma Alters.commit (ho : o.index < w.objects.size) (hobject : v.object o = w.object o)
    (hsize : v.objects.size = w.objects.size) {x? : Option Object}
    (hx : ∀ x, x? = some x → x.kind = (w.object o).kind ∧
      x.properties.keys = Attempt.arrange ⟨a, .ok true⟩ (w.object o).properties.keys) :
    a.Alters o w ((Action.commit o x?).runIn v).1 ((Action.commit o x?).runIn v).2 := by
  rw [Action.runIn_commit]
  cases x? with
  | none => exact .of_refused rfl hobject hsize
  | some x =>
    obtain ⟨hkind, hkeys⟩ := hx x rfl
    have hupdate : (v.update o x).object o = x :=
      (World.object_update v o o x (hsize ▸ ho)).trans (if_pos rfl)
    refine ⟨(World.size_update v o x).trans hsize, ?_, ?_⟩
    · rw [hupdate, hkind]
    · rw [hupdate, hkeys]

/-- A property that is put is an alteration that writes. -/
lemma alters_put (hw : a.writes = true) {x : Object} (p : Property) :
    (x.put a.key p).kind = x.kind ∧
      (x.put a.key p).properties.keys = Attempt.arrange ⟨a, .ok true⟩ x.properties.keys := by
  refine ⟨rfl, ?_⟩
  rw [Attempt.arrange_of_writes (d := ⟨a, .ok true⟩) rfl hw]
  exact x.keys_put a.key p

/-- A removal is an alteration that does not write. -/
lemma alters_erase (hw : a.writes = false) {x x' : Object} (h : x.remove a.key = some x') :
    x'.kind = x.kind ∧ x'.properties.keys = Attempt.arrange ⟨a, .ok true⟩ x.properties.keys := by
  obtain ⟨hkind, hkeys⟩ := Object.keys_of_remove h
  refine ⟨hkind, ?_⟩
  rw [Attempt.arrange_of_not_writes (d := ⟨a, .ok true⟩) rfl hw]
  exact hkeys

/-- An alteration past the operations is put into the world if it is accepted. -/
lemma runIn_amend (o : ObjectId) (f : Object → Option Object) (w : World) :
    (amend o f).runIn w = (Action.commit o (f (w.object o))).runIn w := by
  rw [amend, Action.runIn_bind, Action.runIn_object]

/-- An alteration of an object that is no wrapper does not ask the host. -/
lemma dialogue_done (a : Alteration) (hx : (w.object o).external? = none) (ho : o.index < w.objects.size) :
    ∃ r w', (a.dialogue o).start w = .done r w' ∧ a.Alters o w r w' := by
  -- All but writes and deletions from outside are amendments, which charge nothing.
  have hamend (f : Object → Option Object)
      (hf : ∀ x, f (w.object o) = some x → x.kind = (w.object o).kind ∧
        x.properties.keys = Attempt.arrange ⟨a, .ok true⟩ (w.object o).properties.keys) :
      ∃ r w', (liftM (amend o f) : Dialogue Bool).start w = .done r w' ∧ a.Alters o w r w' := by
    rw [Dialogue.start_lift, runIn_amend]
    exact ⟨_, _, rfl, .commit ho rfl rfl hf⟩
  cases a with
  | define k p =>
    refine hamend _ fun x h => ?_
    rw [Object.eq_put_of_define h]
    exact alters_put (a := define k p) rfl p
  | assign k v =>
    refine hamend _ fun x h => ?_
    obtain ⟨p, rfl⟩ := Object.eq_put_of_assign h
    exact alters_put (a := assign k v) rfl p
  | remove k => exact hamend _ fun x h => alters_erase (a := remove k) rfl h
  | set k v =>
    have hassign (x : Object) (h : (w.object o).assign k v = some x) : x.kind = (w.object o).kind ∧
        x.properties.keys = Attempt.arrange ⟨set k v, .ok true⟩ (w.object o).properties.keys := by
      obtain ⟨p, rfl⟩ := Object.eq_put_of_assign h
      exact alters_put (a := set k v) rfl p
    refine ⟨_, _, Access.start_set_plain hx k v, ?_⟩
    rw [Access.runIn_setOwn]
    split
    · exact .commit ho rfl rfl hassign
    · split
      · exact .commit (v := w.spend Cost.property) ho rfl rfl hassign
      · exact .of_refused rfl rfl rfl
  | delete k =>
    have hdelete : (Access.delete o k).runIn w = (Action.commit o ((w.object o).remove k)).runIn w := by
      rw [Access.delete, Action.runIn_bind, Action.runIn_object]
      dsimp only
      rw [hx]
    show ∃ r w', (liftM (Access.delete o k) : Dialogue Bool).start w = .done r w' ∧ _
    rw [Dialogue.start_lift, hdelete]
    exact ⟨_, _, rfl, .commit ho rfl rfl fun x h => alters_erase (a := delete k) rfl h⟩

end Alteration

/-! ## Histories of objects -/

/-- What is known of an object from its history: it is no wrapper, and its keys are in the order in which they were
made. -/
structure World.Keeps (w : World) (o : ObjectId) (log : List Attempt) : Prop where
  index_lt : o.index < w.objects.size
  plain : (w.object o).external? = none
  dated : Dated log (w.object o).properties.keys

variable {log : List Attempt} {a b : Alteration}

/-- What is known of an object from its history is known after one alteration more. -/
lemma World.Keeps.alter (h : w.Keeps o log) (halters : a.Alters o w r w') : w'.Keeps o (⟨a, r⟩ :: log) where
  index_lt := by
    rw [halters.size]
    exact h.index_lt
  plain := by
    rw [Object.external?, halters.kind]
    exact h.plain
  dated := by
    rw [halters.keys]
    exact h.dated.arrange ⟨a, r⟩

/-- Each alteration does to an object what it should. -/
lemma World.Keeps.alters (h : w.Keeps o log) (hdone : (a.dialogue o).start w = .done r w') : a.Alters o w r w' := by
  obtain ⟨r₁, w₁, hdone₁, halters⟩ := a.dialogue_done h.plain h.index_lt
  cases hdone.symm.trans hdone₁
  exact halters

/-- The history of an object tells its keys. -/
lemma Chronicle.keeps (h : Chronicle o log w) : w.Keeps o log := by
  induction h with
  | make w x hx hp =>
    have hobject : (w.allocate x).2.object (w.allocate x).1 = x :=
      (w.object_allocate _ x (Nat.le_refl _)).trans (if_pos rfl)
    refine ⟨?_, ?_, ?_⟩
    · rw [World.size_allocate]
      exact Nat.lt_succ_self _
    · rw [hobject, hx]
    · rw [hobject, hp]
      exact .nil
  | alter _ a hdone ih => exact ih.alter (ih.alters hdone)
  | pause _ hsize hkind hp ih =>
    refine ⟨Nat.lt_of_lt_of_le ih.index_lt hsize, ?_, ?_⟩
    · rw [Object.external?, hkind]
      exact ih.plain
    · rw [hp]
      exact ih.dated

/-! ## Listings -/

/-- One key is listed before the other: indices ascend, strings and symbols come in the order in which they were
made. -/
inductive Key.Precedes (log : List Attempt) : Key → Key → Prop
  | indices {m n : UInt32} (h : m < n) : Precedes log (.index m) (.index n)
  | index_string (n : UInt32) (s : String) : Precedes log (.index n) (.string s)
  | index_symbol (n : UInt32) (s : Symbol) : Precedes log (.index n) (.symbol s)
  | strings {s t : String} (h : Earlier log (.string s) (.string t)) : Precedes log (.string s) (.string t)
  | string_symbol (s : String) (t : Symbol) : Precedes log (.string s) (.symbol t)
  | symbols {s t : Symbol} (h : Earlier log (.symbol s) (.symbol t)) : Precedes log (.symbol s) (.symbol t)

/-- How the own keys of an object are listed. -/
structure World.Lists (w : World) (o : ObjectId) (log : List Attempt) (ks : List Key) : Prop where
  keys : (Access.keys o).start w = .done (.ok ks) w
  enumerable : (Access.enumerableKeys o).start w =
    .done (.ok (ks.filter fun k => ((w.object o).properties.find? k).any (·.attributes.enumerable))) w
  nodup : ks.Nodup
  present : ∀ k, k ∈ ks ↔ (w.object o).properties.find? k ≠ none
  born : ∀ k, k ∈ ks ↔ birth log k ≠ none
  ordered : ks.Pairwise (Key.Precedes log)

/-- How an alteration moves the keys of an object. -/
structure Alteration.Moves (a : Alteration) (r : Except Fault Bool) (ks ks' : List Key) : Prop where
  refused : r ≠ .ok true → ks' = ks
  written : a.writes = true → a.key ∈ ks → ks' = ks
  removed : r = .ok true → a.writes = false → ks' = ks.filter fun k => decide (k ≠ a.key)
  /-- A new key is the last one of its kind, and the others keep their places. -/
  created : r = .ok true → a.writes = true → a.key ∉ ks →
    ks'.filter (fun k => decide (k ≠ a.key)) = ks ∧
      ∀ kind ∈ [Key.isString, Key.isSymbol], ks'.filter kind = ks.filter kind ++ [a.key].filter kind

namespace Key

variable {k : Key}

/-- The keys that are indices. -/
lemma isIndex_iff : k.isIndex = true ↔ ∃ n, k = index n := by cases k <;> simp [isIndex]

/-- The keys that are strings. -/
lemma isString_iff : k.isString = true ↔ ∃ s, k = string s := by cases k <;> simp [isString]

/-- The keys that are symbols. -/
lemma isSymbol_iff : k.isSymbol = true ↔ ∃ s, k = symbol s := by cases k <;> simp [isSymbol]

/-- Strings and symbols are listed in the order in which they come. -/
lemma filter_order_of_kind {kind : Key → Bool} (h : kind ∈ [isString, isSymbol]) (ks : List Key) :
    (order ks).filter kind = ks.filter kind := by
  rcases List.mem_pair.1 h with rfl | rfl
  · exact filter_isString_order ks
  · exact filter_isSymbol_order ks

/-- Keys that are put in order are so for their kinds first, and then by their dates. -/
lemma pairwise_precedes_order (h : Dated log ks) (hnodup : ks.Nodup) : (order ks).Pairwise (Precedes log) := by
  have hindices : ((order ks).filter isIndex).Pairwise (Precedes log) := by
    refine (pairwise_rank_order hnodup).imp_of_mem ?_
    intro k l hk hl hlt
    obtain ⟨m, rfl⟩ := isIndex_iff.1 (List.mem_filter.1 hk).2
    obtain ⟨n, rfl⟩ := isIndex_iff.1 (List.mem_filter.1 hl).2
    exact .indices (UInt32.lt_iff_toNat_lt.2 hlt)
  have hstrings : ((order ks).filter isString).Pairwise (Precedes log) := by
    rw [filter_isString_order]
    refine (h.ordered.filter _).imp_of_mem ?_
    intro k l hk hl hearlier
    obtain ⟨s, rfl⟩ := isString_iff.1 (List.mem_filter.1 hk).2
    obtain ⟨t, rfl⟩ := isString_iff.1 (List.mem_filter.1 hl).2
    exact .strings hearlier
  have hsymbols : ((order ks).filter isSymbol).Pairwise (Precedes log) := by
    rw [filter_isSymbol_order]
    refine (h.ordered.filter _).imp_of_mem ?_
    intro k l hk hl hearlier
    obtain ⟨s, rfl⟩ := isSymbol_iff.1 (List.mem_filter.1 hk).2
    obtain ⟨t, rfl⟩ := isSymbol_iff.1 (List.mem_filter.1 hl).2
    exact .symbols hearlier
  -- Each kind is in order by itself. Between the kinds it is their sequence that counts.
  rw [order_kinds]
  refine List.pairwise_append.2 ⟨hindices, List.pairwise_append.2 ⟨hstrings, hsymbols, ?_⟩, ?_⟩
  · intro k hk l hl
    obtain ⟨s, rfl⟩ := isString_iff.1 (List.mem_filter.1 hk).2
    obtain ⟨t, rfl⟩ := isSymbol_iff.1 (List.mem_filter.1 hl).2
    exact .string_symbol s t
  · intro k hk l hl
    obtain ⟨n, rfl⟩ := isIndex_iff.1 (List.mem_filter.1 hk).2
    rcases List.mem_append.1 hl with hl | hl
    · obtain ⟨s, rfl⟩ := isString_iff.1 (List.mem_filter.1 hl).2
      exact .index_string n s
    · obtain ⟨s, rfl⟩ := isSymbol_iff.1 (List.mem_filter.1 hl).2
      exact .index_symbol n s

end Key

namespace Attempt

/-- What an alteration does to the keys shows in the listing. -/
lemma moves (a : Alteration) (r : Except Fault Bool) (ks : List Key) :
    a.Moves r (Key.order ks) (Key.order (arrange ⟨a, r⟩ ks)) where
  refused hr := by
    have haccepted : accepted ⟨a, r⟩ = false := by
      rcases r with f | _ | _
      · rfl
      · rfl
      · exact absurd rfl hr
    rw [arrange_of_refused haccepted]
  written hw hmem := by
    cases haccepted : accepted ⟨a, r⟩ with
    | false => rw [arrange_of_refused haccepted]
    | true =>
      have harranged : arrange ⟨a, r⟩ ks = ks :=
        (arrange_of_writes haccepted hw).trans (if_pos (Key.mem_order.1 hmem))
      rw [harranged]
  removed hr hw := by
    subst hr
    rw [arrange_of_not_writes (d := ⟨a, .ok true⟩) rfl hw, Key.filter_order]
    rfl
  -- A key that was not there goes last, so the others keep their places in each kind.
  created hr hw hnew := by
    subst hr
    have hnew : a.key ∉ ks := fun h => hnew (Key.mem_order.2 h)
    have hothers : ks.filter (fun k => decide (k ≠ a.key)) = ks :=
      List.filter_eq_self.2 fun k hk => decide_eq_true (ne_of_mem_of_not_mem hk hnew)
    have harranged : arrange ⟨a, .ok true⟩ ks = ks ++ [a.key] :=
      (arrange_of_writes (d := ⟨a, .ok true⟩) rfl hw).trans (if_neg hnew)
    rw [harranged]
    constructor
    · rw [Key.filter_order, List.filter_append, hothers]
      simp
    · intro kind hkind
      rw [Key.filter_order_of_kind hkind, Key.filter_order_of_kind hkind]
      exact List.filter_append ..

end Attempt

namespace World.Keeps

/-- An object with a history is listed by it. -/
lemma lists (h : w.Keeps o log) : w.Lists o log (w.object o).ownKeys where
  keys := by
    rw [Access.keys, Dialogue.start_bind, Dialogue.start_lift, Action.runIn_object, Turn.bind, h.plain]
    rfl
  enumerable := by
    rw [Access.enumerableKeys, Dialogue.start_bind, Dialogue.start_lift, Action.runIn_object, Turn.bind, h.plain]
    rfl
  nodup := (Key.order_perm _).nodup_iff.2 (w.object o).properties.nodup
  present k := by
    rw [Object.ownKeys, Key.mem_order, Ne, OrderedMap.find?_eq_none_iff, not_not]
  born k := by
    rw [Object.ownKeys, Key.mem_order, h.dated.mem]
  ordered := Key.pairwise_precedes_order h.dated (w.object o).properties.nodup

/-- An alteration moves the keys of an object with a history as it should. -/
lemma moves (h : w.Keeps o log) (hdone : (a.dialogue o).start w = .done r w') :
    a.Moves r (w.object o).ownKeys (w'.object o).ownKeys := by
  rw [Object.ownKeys, Object.ownKeys, (h.alters hdone).keys]
  exact Attempt.moves a r _

end World.Keeps

/-- From the making of an object that is no wrapper on, its listing has the keys that are there, once each: the indices
ascending, then the strings, then the symbols, the last two in the order in which they were made the last time, and
enumeration visits the enumerable ones of them in this order. An alteration never asks the host. If it is refused, or
writes a key that is there, it moves no key; if it removes a key, the others stay in their places, and a new key is the
last one of its kind. So is a key that was removed and is made again. -/
theorem Chronicle.keys_chronological (h : Chronicle o log w) :
    w.Lists o log (w.object o).ownKeys ∧
    (∀ a : Alteration, ∃ r w', (a.dialogue o).start w = .done r w') ∧
    (∀ (a : Alteration) (r : Except Fault Bool) (w' : World), (a.dialogue o).start w = .done r w' →
      a.Moves r (w.object o).ownKeys (w'.object o).ownKeys) ∧
    ∀ (a b : Alteration) (w₁ w₂ : World), a.writes = false → b.writes = true → b.key = a.key →
      (a.dialogue o).start w = .done (.ok true) w₁ → (b.dialogue o).start w₁ = .done (.ok true) w₂ →
      ∀ kind ∈ [Key.isString, Key.isSymbol], (w₂.object o).ownKeys.filter kind =
        ((w.object o).ownKeys.filter kind).filter (fun k => decide (k ≠ a.key)) ++ [a.key].filter kind := by
  have hkeeps := h.keeps
  refine ⟨hkeeps.lists, fun a => ?_, fun a r w' hdone => hkeeps.moves hdone, ?_⟩
  · obtain ⟨r, w', hdone, -⟩ := a.dialogue_done hkeeps.plain hkeeps.index_lt
    exact ⟨r, w', hdone⟩
  · intro a b w₁ w₂ ha hb hkey hremove hcreate kind hkind
    have hremoved := (hkeeps.moves hremove).removed rfl ha
    have hgone : b.key ∉ (w₁.object o).ownKeys := by
      rw [hremoved, hkey]
      simp
    obtain ⟨-, hlast⟩ := ((h.alter a hremove).keeps.moves hcreate).created rfl hb hgone
    rw [hlast kind hkind, hremoved, hkey, List.filter_comm]

/-- What is done to an object that gets three keys. -/
def threeKeys : List Attempt :=
  [⟨.assign (.string "a") .null, .ok true⟩, ⟨.define (.index 3) (.ofValue .null), .ok true⟩,
    ⟨.set (.string "b") .undefined, .ok true⟩]

/-- A string that is deleted and made again is listed after the other one. -/
theorem restored_listed : ∃ w w₁ w₂, Chronicle ⟨0⟩ threeKeys w ∧
    (Access.keys ⟨0⟩).start w = .done (.ok [.index 3, .string "b", .string "a"]) w ∧
    ((Alteration.delete (.string "b")).dialogue ⟨0⟩).start w = .done (.ok true) w₁ ∧
    ((Alteration.set (.string "b") .null).dialogue ⟨0⟩).start w₁ = .done (.ok true) w₂ ∧
    (w₂.object ⟨0⟩).ownKeys.filter Key.isString = [.string "a", .string "b"] := by
  obtain ⟨w, w₁, w₂, h, hdelete, hset, hkeys⟩ : ∃ w w₁ w₂, Chronicle ⟨0⟩ threeKeys w ∧
      ((Alteration.delete (.string "b")).dialogue ⟨0⟩).start w = .done (.ok true) w₁ ∧
      ((Alteration.set (.string "b") .null).dialogue ⟨0⟩).start w₁ = .done (.ok true) w₂ ∧
      (w.object ⟨0⟩).properties.keys = [.string "b", .index 3, .string "a"] := by
    have h := Chronicle.make {} { kind := .ordinary } rfl rfl
    have h₁ := h.alter (.set (.string "b") .undefined) rfl
    have h₂ := h₁.alter (.define (.index 3) (.ofValue .null)) rfl
    exact ⟨_, _, _, h₂.alter (.assign (.string "a") .null) rfl, rfl, rfl, rfl⟩
  obtain ⟨hlists, -, -, hlast⟩ := h.keys_chronological
  have hlisting : (w.object ⟨0⟩).ownKeys = [.index 3, .string "b", .string "a"] := by
    have hindices : [Key.string "b", .index 3, .string "a"].filter Key.isIndex = [.index 3] := by decide
    rw [Object.ownKeys, hkeys, Key.order, hindices, List.mergeSort_singleton]
    rfl
  refine ⟨w, w₁, w₂, h, hlisting ▸ hlists.keys, hdelete, hset, ?_⟩
  rw [hlast (.delete (.string "b")) (.set (.string "b") .null) w₁ w₂ rfl rfl rfl hdelete hset _ (by simp), hlisting]
  decide

end HostBinding
