import HostBinding.Proofs.Schema

/-!
# Reading by a schema

The readers of settings and manifests accept exactly the documents that the schema describes. So each key of each
table in a manifest that is accepted is a field, at every depth, and a misspelled key is an error. It is one in
settings as well, but not in the table with the heap settings: there a key that is no field is passed over, and a
limit under a misspelled key is no limit.

* `Collects`: a table is collected field by field.
* `Shape.Reads`: the reader of a shape accepts a value.
* `Shape.reads_iff`: one level of reading.
* `Shape.reads_iff_describes`: a reader accepts what its shape describes.
* `Shape.keys_belong`: the main result.
-/

namespace HostBinding

variable {v w : Toml.Value} {es : Toml.Table} {f : Toml.Form} {k l : String}

/-! ## One after the other -/

/-- A composed reading succeeds if both parts do. -/
lemma isSome_bind_iff {α β : Type} {x : Option α} {g : α → Option β} {p q : Prop} (hx : x.isSome ↔ p)
    (h : ∀ a, (g a).isSome ↔ q) : (x.bind g).isSome ↔ p ∧ q := by
  rw [← hx]
  cases x with
  | none => exact iff_of_false Bool.false_ne_true fun h => Bool.false_ne_true h.1
  | some a => exact (h a).trans (and_iff_right rfl).symm

/-- Everything holds of the items of an empty list. -/
lemma forall_getElem?_nil {α : Type} {Q : Nat → α → Prop} (i : Nat) (b : α) (h : ([] : List α)[i]? = some b) :
    Q i b := by
  cases h

/-- What holds of the items of a list holds of its first and of the others. -/
lemma forall_getElem?_cons {α : Type} {a : α} {as : List α} {Q : Nat → α → Prop} :
    (∀ i b, (a :: as)[i]? = some b → Q i b) ↔ Q 0 a ∧ ∀ i b, as[i]? = some b → Q (i + 1) b := by
  constructor
  · exact fun h => ⟨h 0 a rfl, fun i b hb => h (i + 1) b hb⟩
  · rintro ⟨h0, h⟩ (_ | i) b hb
    · cases hb
      exact h0
    · exact h i b hb

/-! ## Field by field -/

/-- A table is collected field by field: a field is taken if it was not given before and suits, and then it is
given. -/
structure Collects {δ : Type} (step : δ → String × Toml.Value → Option δ) (gives : δ → String → Prop)
    (suits : String × Toml.Value → Prop) : Prop where
  isSome_iff : ∀ d e, (step d e).isSome ↔ ¬ gives d e.1 ∧ suits e
  gives_iff : ∀ {d e d'}, step d e = some d' → ∀ k, gives d' k ↔ gives d k ∨ k = e.1

namespace Collects

variable {δ : Type} {step : δ → String × Toml.Value → Option δ} {gives : δ → String → Prop}
  {suits : String × Toml.Value → Prop} {d d' : δ}

/-- A table is taken if none of its keys was given before, none is given twice, and all fields suit. -/
lemma isSome_foldlM (h : Collects step gives suits) (d : δ) (es : Toml.Table) : (es.foldlM step d).isSome ↔
    (es.map Prod.fst).Nodup ∧ (∀ k ∈ es.map Prod.fst, ¬ gives d k) ∧ ∀ e ∈ es, suits e := by
  induction es generalizing d with
  | nil => simp
  | cons e es ih =>
    rw [List.foldlM_cons, List.map_cons, List.nodup_cons, List.forall_mem_cons, List.forall_mem_cons]
    cases hd : step d e with
    | none =>
      have hnot := (h.isSome_iff d e).not.1 (by rw [hd]; exact Bool.false_ne_true)
      exact ⟨(nomatch ·), fun ⟨_, ⟨hnew, _⟩, hsuits, _⟩ => (hnot ⟨hnew, hsuits⟩).elim⟩
    | some d' =>
      have hsuits := (h.isSome_iff d e).1 (by rw [hd]; rfl)
      refine (ih d').trans ⟨?_, ?_⟩
      · rintro ⟨hnodup, hnew, hall⟩
        refine ⟨⟨fun hmem => ?_, hnodup⟩, ⟨hsuits.1, fun k hk hgives => ?_⟩, hsuits.2, hall⟩
        · exact hnew _ hmem ((h.gives_iff hd _).2 (.inr rfl))
        · exact hnew k hk ((h.gives_iff hd k).2 (.inl hgives))
      · rintro ⟨⟨hmem, hnodup⟩, ⟨-, hnew⟩, -, hall⟩
        refine ⟨hnodup, fun k hk hgives => ?_, hall⟩
        rcases (h.gives_iff hd k).1 hgives with hgives | rfl
        · exact hnew k hk hgives
        · exact hmem hk

/-- A table that is taken gives its keys. -/
lemma gives_foldlM (h : Collects step gives suits) (hes : es.foldlM step d = some d') (k : String) :
    gives d' k ↔ gives d k ∨ k ∈ es.map Prod.fst := by
  induction es generalizing d with
  | nil =>
    cases hes
    simp
  | cons e es ih =>
    rw [List.foldlM_cons] at hes
    obtain ⟨d₁, hd₁, hes⟩ := Option.bind_eq_some_iff.1 hes
    rw [ih hes, h.gives_iff hd₁, List.map_cons, List.mem_cons, or_assoc]

end Collects

namespace Manifest

/-- A field is given once, and by a value that is read. -/
lemma once_eq_some {α : Type} {old new x : Option α} : once old new = some x ↔ old = none ∧ x = new ∧ new.isSome := by
  cases old <;> cases new <;> simp [once, eq_comm]

/-- A field is read if it was not given before, and its value can be read. -/
lemma isSome_map_once {α β : Type} {old new : Option α} {g : Option α → β} :
    ((once old new).map g).isSome ↔ ¬ old.isSome ∧ new.isSome := by
  cases old <;> cases new <;> simp [once]

/-- A draft of an entry gives a key. -/
def Draft.Gives (d : Draft) : String → Prop
  | "name" => d.name.isSome
  | "symbol" => d.symbol.isSome
  | "kind" => d.kind.isSome
  | "value" => d.value.isSome
  | "function" => d.function.isSome
  | "handler" => d.handler.isSome
  | "magic" => d.magic.isSome
  | "writable" => d.writable.isSome
  | "enumerable" => d.enumerable.isSome
  | "configurable" => d.configurable.isSome
  | "catch_all" => d.catchAll.isSome
  | "enumerator" => d.enumerator.isSome
  | "entry" => d.entries.isSome
  | _ => False

/-- The empty draft gives no key. -/
lemma Draft.not_gives_empty (k : String) : ¬ Gives {} k := by
  unfold Gives
  split <;> simp

/-- A field adds its key to those that a draft gives. -/
lemma Draft.gives_of_field? {d d' : Draft} (h : field? d (k, v) = some d') : d'.Gives l ↔ d.Gives l ∨ l = k := by
  unfold field? at h
  split at h
  case h_14 => cases h
  -- The field that is read, against the field that is asked for.
  all_goals
    obtain ⟨x, hx, rfl⟩ := Option.map_eq_some_iff.1 h
    obtain ⟨-, rfl, hnew⟩ := once_eq_some.1 hx
    unfold Gives
    split <;> simp_all

/-- An entry that is complete has a kind. -/
lemma Draft.isSome_finish {d : Draft} : d.finish.isSome ↔ d.Gives "kind" := by
  show _ ↔ d.kind.isSome
  rw [finish]
  cases d.kind with
  | none => exact Iff.rfl
  | some d => exact Iff.rfl

/-- A draft is collected field by field. -/
lemma draft?_eq_foldlM (d : Draft) (es : Toml.Table) : draft? d es = es.foldlM field? d := by
  induction es generalizing d with
  | nil => rfl
  | cons e es ih =>
    rw [draft?, List.foldlM_cons]
    exact congrArg _ (funext ih)

/-- A field of a manifest, added to a draft. -/
def rootField? (d : RootDraft) : String × Toml.Value → Option RootDraft
  | (k, v) =>
    match k with
    | "catch_all" => (once d.catchAll (string? v)).map fun x => { d with catchAll := x }
    | "enumerator" => (once d.enumerator (string? v)).map fun x => { d with enumerator := x }
    | "entry" => (once d.entries (entries? v)).map fun x => { d with entries := x }
    | _ => none

/-- A draft of a manifest gives a key. -/
def RootDraft.Gives (d : RootDraft) : String → Prop
  | "catch_all" => d.catchAll.isSome
  | "enumerator" => d.enumerator.isSome
  | "entry" => d.entries.isSome
  | _ => False

/-- The empty draft of a manifest gives no key. -/
lemma RootDraft.not_gives_empty (k : String) : ¬ Gives {} k := by
  unfold Gives
  split <;> simp

/-- A field adds its key to those that a draft of a manifest gives. -/
lemma RootDraft.gives_of_rootField? {d d' : RootDraft} (h : rootField? d (k, v) = some d') :
    d'.Gives l ↔ d.Gives l ∨ l = k := by
  dsimp only [rootField?] at h
  split at h
  case h_4 => cases h
  all_goals
    obtain ⟨x, hx, rfl⟩ := Option.map_eq_some_iff.1 h
    obtain ⟨-, rfl, hnew⟩ := once_eq_some.1 hx
    unfold Gives
    split <;> simp_all

/-- A draft of a manifest is collected field by field. -/
lemma rootDraft?_eq_foldlM (d : RootDraft) (es : Toml.Table) : rootDraft? d es = es.foldlM rootField? d := by
  induction es generalizing d with
  | nil => rfl
  | cons e es ih =>
    obtain ⟨k, v⟩ := e
    rw [List.foldlM_cons, ← funext ih, rootDraft?.eq_def]
    dsimp only [rootField?]
    split <;> simp_all

end Manifest

namespace Shape

open Manifest (Draft RootDraft string? boolean? magic? kind? entry? entries? items? field? rootField? draft?)

variable {s : Shape} {vs : List Toml.Value}

/-- The reader of a shape accepts a value. -/
def Reads : Shape → Toml.Value → Prop
  | settings, v => ∃ f es, v = .table f es ∧ (Settings.ofTable? es).isSome
  | heap, v => (Settings.heap? v).isSome
  | manifest, v => ∃ f es, v = .table f es ∧ (Manifest.ofTable? es).isSome
  | entries, v => (entries? v).isSome
  | entry, v => entry? v |>.isSome
  | kind, v => (kind? v).isSome
  | text, v => (string? v).isSome
  | flag, v => (boolean? v).isSome
  | magic, v => (magic? v).isSome
  | limit, v => (Settings.limit? v).isSome
  | blank, v => ∃ f, v = .table f []
  | ignored, _ => True

/-! ## Manifests -/

/-- The fields of a manifest are collected as its shape has them. -/
lemma collects_rootField? : Collects rootField? RootDraft.Gives fun e => Due Reads manifest (.key e.1) e.2 where
  isSome_iff d e := by
    obtain ⟨k, v⟩ := e
    dsimp only [rootField?]
    split
    case h_4 =>
      have hnext : manifest.next? (.key k) = none := by
        simp_all [next?, fields, rest?, List.lookup_eq_none_iff]
      exact iff_of_false Bool.false_ne_true fun h => not_due hnext h.2
    all_goals exact Manifest.isSome_map_once.trans (and_congr Iff.rfl (iff_due rfl Iff.rfl))
  gives_iff h _ := RootDraft.gives_of_rootField? h

/-- A table is read as a manifest just if its keys differ and what is in it suits. -/
lemma isSome_ofTable?_manifest :
    (Manifest.ofTable? es).isSome ↔ (es.map Prod.fst).Nodup ∧ Inner Reads manifest (.table f es) := by
  rw [Manifest.ofTable?, Option.isSome_map, Manifest.rootDraft?_eq_foldlM, collects_rootField?.isSome_foldlM,
    inner_table]
  exact and_congr Iff.rfl (and_iff_right fun k _ => RootDraft.not_gives_empty k)

/-- The fields of an entry are collected as its shape has them. -/
lemma collects_field? : Collects field? Draft.Gives fun e => Due Reads entry (.key e.1) e.2 where
  isSome_iff d e := by
    obtain ⟨k, v⟩ := e
    unfold field?
    split
    case h_14 =>
      have hnext : entry.next? (.key k) = none := by
        simp_all [next?, fields, rest?, List.lookup_eq_none_iff]
      exact iff_of_false Bool.false_ne_true fun h => not_due hnext h.2
    all_goals exact Manifest.isSome_map_once.trans (and_congr Iff.rfl (iff_due rfl Iff.rfl))
  gives_iff h _ := Draft.gives_of_field? h

/-- A table is read as an entry just if its keys differ, one is its kind, and what is in it suits. -/
lemma reads_entry_table : entry.Reads (.table f es) ↔
    ((es.map Prod.fst).Nodup ∧ "kind" ∈ es.map Prod.fst) ∧ Inner Reads entry (.table f es) := by
  have hdraft := collects_field?.isSome_foldlM {} es
  show ((draft? {} es).bind Draft.finish).isSome ↔ _
  rw [inner_table, Manifest.draft?_eq_foldlM]
  cases hd : es.foldlM field? ({} : Draft) with
  | none =>
    rw [hd] at hdraft
    exact ⟨(nomatch ·), fun h => nomatch hdraft.2 ⟨h.1.1, fun k _ => Draft.not_gives_empty k, h.2⟩⟩
  | some d =>
    rw [hd] at hdraft
    obtain ⟨hnodup, -, hinner⟩ := hdraft.1 rfl
    refine Draft.isSome_finish.trans ((collects_field?.gives_foldlM hd _).trans ?_)
    exact ⟨fun h => ⟨⟨hnodup, h.resolve_left (Draft.not_gives_empty _)⟩, hinner⟩, fun h => .inr h.1.2⟩

/-- An array is read as an entry just if it has all required items and what is in it suits. -/
lemma reads_entry_array : entry.Reads (.array vs) ↔ 12 ≤ vs.length ∧ Inner Reads entry (.array vs) := by
  rw [inner_array]
  rcases vs with _ | ⟨nm, _ | ⟨sy, _ | ⟨kd, _ | ⟨vl, _ | ⟨fn, _ | ⟨hd, _ | ⟨mg, _ | ⟨wr, _ | ⟨en, _ | ⟨cf, _ |
    ⟨ca, _ | ⟨er, more⟩⟩⟩⟩⟩⟩⟩⟩⟩⟩⟩⟩
  case cons.cons.cons.cons.cons.cons.cons.cons.cons.cons.cons.cons =>
    rw [and_iff_right (by simp)]
    simp only [forall_getElem?_cons]
    rcases more with _ | ⟨v, _ | ⟨w, more⟩⟩
    -- The twelve fields that have to be there, one after the other.
    all_goals iterate 12 refine isSome_bind_iff (iff_due rfl Iff.rfl) fun _ => ?_
    · exact iff_of_true rfl forall_getElem?_nil
    · rw [forall_getElem?_cons]
      exact isSome_bind_iff (iff_due rfl Iff.rfl) fun _ => iff_of_true rfl forall_getElem?_nil
    · exact iff_of_false Bool.false_ne_true fun h => not_due rfl (h 1 w rfl)
  all_goals exact iff_of_false Bool.false_ne_true fun h => absurd h.1 (by simp)

/-- Items are read as entries just if each of them suits. -/
lemma isSome_items? : (items? vs).isSome ↔ ∀ (i : Nat) w, vs[i]? = some w → Due Reads entries (.item i) w := by
  induction vs with
  | nil => exact iff_of_true rfl forall_getElem?_nil
  | cons v vs ih =>
    have hread : (items? (v :: vs)).isSome ↔ Due Reads entries (.item 0) v ∧ (items? vs).isSome ∧ True :=
      isSome_bind_iff (iff_due rfl Iff.rfl) fun _ => isSome_bind_iff Iff.rfl fun _ => iff_true_intro rfl
    rw [hread, and_true, ih, forall_getElem?_cons]
    exact Iff.rfl

/-- The name of a kind is one of those that there are. -/
lemma isSome_ofName? : (Manifest.Kind.ofName? k).isSome ↔ ∃ d : Manifest.Kind, k = d.name := by
  rw [Manifest.Kind.ofName?, List.find?_isSome]
  constructor
  · rintro ⟨d, -, hd⟩
    exact ⟨d, (eq_of_beq hd).symm⟩
  · rintro ⟨d, rfl⟩
    exact ⟨d, by cases d <;> decide, beq_self_eq_true _⟩

/-- A key in a kind is the name of a kind, and nothing stands under it. -/
lemma next?_kind_eq_some : kind.next? (.key k) = some s ↔ s = blank ∧ ∃ d : Manifest.Kind, k = d.name := by
  constructor
  · intro h
    rcases next?_key_eq_some h with hmem | hrest
    · simp only [fields, List.mem_cons, Prod.mk.injEq, List.not_mem_nil, or_false] at hmem
      rcases hmem with ⟨rfl, rfl⟩ | ⟨rfl, rfl⟩ | ⟨rfl, rfl⟩
      · exact ⟨rfl, .method, rfl⟩
      · exact ⟨rfl, .property, rfl⟩
      · exact ⟨rfl, .object, rfl⟩
    · cases hrest
  · rintro ⟨rfl, d, rfl⟩
    cases d <;> rfl

/-- A table is read as a kind just if it is written inline with one key and what is in it suits. -/
lemma isSome_kind?_table : (kind? (.table f es)).isSome ↔
    (∃ k w, Toml.Value.table f es = .table .inline [(k, w)]) ∧ Inner Reads kind (.table f es) := by
  rw [inner_table]
  constructor
  · intro h
    unfold kind? at h
    split at h
    · rename_i heq
      cases heq
    · rename_i k g heq
      cases heq
      obtain ⟨d, rfl⟩ := isSome_ofName?.1 h
      refine ⟨⟨_, _, rfl⟩, fun e he => ?_⟩
      cases List.mem_singleton.1 he
      exact ⟨blank, next?_kind_eq_some.2 ⟨rfl, d, rfl⟩, g, rfl⟩
    · cases h
  · rintro ⟨⟨k, w, ⟨⟩⟩, hinner⟩
    obtain ⟨s, hs, hw⟩ := hinner (k, w) (.head _)
    obtain ⟨rfl, d, rfl⟩ := next?_kind_eq_some.1 hs
    obtain ⟨g, rfl⟩ := hw
    exact isSome_ofName?.2 ⟨d, rfl⟩

/-- A tag is read from the integer that it is. -/
lemma magic?_eq_some {j : Int32} : magic? v = some j ↔ v = .integer j.toInt := by
  cases v with
  | integer i =>
    rw [magic?, Toml.Value.integer.injEq]
    split_ifs with hi
    · rw [Option.some_inj, ← Int32.toInt_inj, Int32.toInt_ofInt_of_le hi.1 (Int.lt_add_one_of_le hi.2)]
    · refine ⟨nofun, ?_⟩
      rintro rfl
      exact (hi ⟨Int32.minValue_le_toInt j, Int32.toInt_le j⟩).elim
  | _ => exact ⟨nofun, nofun⟩

/-- A value is read as a tag just if it is an integer with 32 bits. -/
lemma isSome_magic? : (magic? v).isSome ↔ ∃ j : Int32, v = .integer j.toInt := by
  rw [Option.isSome_iff_exists]
  exact exists_congr fun j => magic?_eq_some

/-! ## Settings -/

/-- A limit is read from the integer that it is. -/
lemma limit?_eq_some {n : UInt64} : Settings.limit? v = some n ↔ v = .integer n.toNat := by
  cases v with
  | integer i =>
    rw [Settings.limit?, Toml.Value.integer.injEq]
    have hn := n.toNat_lt
    split_ifs with hi
    · obtain ⟨m, rfl⟩ := Int.eq_ofNat_of_zero_le hi.1
      have hm : m < 2 ^ 64 := Nat.lt_of_le_of_lt (Int.ofNat_le.1 hi.2) (by decide)
      rw [Option.some_inj, ← UInt64.toNat_inj, Int.toNat_natCast, UInt64.toNat_ofNat_of_lt' hm, Int.ofNat_inj]
    · refine ⟨nofun, ?_⟩
      rintro rfl
      exact (hi ⟨Int.natCast_nonneg _, Int.ofNat_le.2 (Nat.le_of_lt_succ hn)⟩).elim
  | _ => exact ⟨nofun, nofun⟩

/-- A value is read as a limit just if it is an integer with 64 bits and no sign. -/
lemma isSome_limit? : (Settings.limit? v).isSome ↔ ∃ n : UInt64, v = .integer n.toNat := by
  rw [Option.isSome_iff_exists]
  exact exists_congr fun n => limit?_eq_some

/-- A limit is read if it is the only one. -/
lemma heapTable?_limit_eq_some {m : Option UInt64} : Settings.heapTable? (("max_bytes", v) :: es) = some m ↔
    "max_bytes" ∉ es.map Prod.fst ∧ ∃ n, Settings.limit? v = some n ∧ m = some n := by
  have hany : (es.any fun e => e.1 == "max_bytes") = true ↔ "max_bytes" ∈ es.map Prod.fst := by
    rw [List.any_eq_true, List.mem_map]
    exact exists_congr fun e => and_congr Iff.rfl beq_iff_eq
  rw [Settings.heapTable?, if_pos rfl, ← hany]
  cases Settings.limit? v with
  | none => simp
  | some n => cases es.any fun e => e.1 == "max_bytes" <;> simp [eq_comm]

/-- A limit in a table is read just if there is no other one and it suits. -/
lemma isSome_heapTable?_limit : (Settings.heapTable? (("max_bytes", v) :: es)).isSome ↔
    "max_bytes" ∉ es.map Prod.fst ∧ (Settings.limit? v).isSome := by
  rw [Option.isSome_iff_exists, Option.isSome_iff_exists]
  simp only [heapTable?_limit_eq_some, exists_and_left]
  exact and_congr Iff.rfl ⟨fun ⟨_, n, hn, _⟩ => ⟨n, hn⟩, fun ⟨n, hn⟩ => ⟨_, n, hn, rfl⟩⟩

/-- Settings of the heap have one limit at most. What stands under other keys is not looked at. -/
lemma isSome_heapTable? :
    (Settings.heapTable? es).isSome ↔ (es.map Prod.fst).count "max_bytes" ≤ 1 ∧ Inner Reads heap (.table f es) := by
  rw [inner_table]
  induction es with
  | nil => exact iff_of_true rfl ⟨Nat.zero_le 1, fun e he => nomatch he⟩
  | cons e es ih =>
    obtain ⟨k, v⟩ := e
    have hnext := next?_heap k
    rw [List.map_cons, List.forall_mem_cons]
    split_ifs at hnext with hk
    · subst hk
      have hcount : (es.map Prod.fst).count "max_bytes" + 1 ≤ 1 ↔ "max_bytes" ∉ es.map Prod.fst := by
        rw [← List.count_eq_zero]
        omega
      have hlimit : (Settings.limit? v).isSome ↔ Due Reads heap (.key "max_bytes") v := iff_due hnext Iff.rfl
      rw [isSome_heapTable?_limit, List.count_cons_self, hcount, hlimit]
      refine and_congr_right fun hnew => (and_iff_left fun e he => ⟨ignored, ?_, trivial⟩).symm
      rw [next?_heap, if_neg (ne_of_mem_of_not_mem (List.mem_map_of_mem he) hnew)]
    · rw [Settings.heapTable?, if_neg hk, ih, List.count_cons_of_ne hk]
      exact and_congr Iff.rfl (and_iff_right ⟨_, hnext, trivial⟩).symm

/-- An array is read as a heap just if what is in it suits. -/
lemma isSome_heap?_array : (Settings.heap? (.array vs)).isSome ↔ Inner Reads heap (.array vs) := by
  rw [inner_array]
  rcases vs with _ | ⟨v, _ | ⟨w, vs⟩⟩
  · exact iff_of_true rfl forall_getElem?_nil
  · have hlimit : (Settings.limit? v).isSome ↔ Due Reads heap (.item 0) v := iff_due rfl Iff.rfl
    show ((Settings.limit? v).map some).isSome ↔ _
    rw [Option.isSome_map, hlimit, forall_getElem?_cons]
    exact (and_iff_left forall_getElem?_nil).symm
  · exact iff_of_false Bool.false_ne_true fun h => not_due rfl (h 1 w rfl)

/-- A table is read as settings just if its keys differ and what is in it suits. -/
lemma isSome_ofTable?_settings :
    (Settings.ofTable? es).isSome ↔ (es.map Prod.fst).Nodup ∧ Inner Reads settings (.table f es) := by
  rw [inner_table]
  unfold Settings.ofTable?
  split
  · exact iff_of_true rfl ⟨.nil, fun e he => nomatch he⟩
  · rename_i v
    have hheap : (Settings.heap? v).isSome ↔ Due Reads settings (.key "heap") v := iff_due rfl Iff.rfl
    rw [Option.isSome_map, List.forall_mem_singleton, hheap]
    exact (and_iff_right (by simp)).symm
  · rename_i hnil hheap
    refine iff_of_false Bool.false_ne_true fun ⟨hnodup, hinner⟩ => ?_
    have hkeys : ∀ e ∈ es, e.1 = "heap" := fun e he => by
      obtain ⟨s, hs, -⟩ := hinner e he
      exact (next?_settings_eq_some.1 hs).1
    rcases es with _ | ⟨⟨k, v⟩, _ | ⟨⟨l, w⟩, es⟩⟩
    · exact hnil rfl
    · cases hkeys (k, v) (.head _)
      exact hheap v rfl
    · cases hkeys (k, v) (.head _)
      cases hkeys (l, w) (.tail _ (.head _))
      simp at hnodup

/-! ## All shapes -/

/-- Nothing stands inside a value that fits, and so the reader looks no further. -/
lemma reads_iff_of_leaf (h : s.Reads v ↔ s.Fits v) (hleaf : s.Fits v → ∀ st w, ¬ v.Inside st w) :
    s.Reads v ↔ s.Fits v ∧ Inner Reads s v :=
  h.trans ⟨fun hfits => ⟨hfits, inner_of_not_inside (hleaf hfits)⟩, And.left⟩

/-- What is read off tables alone is read off a value if the value is such a table. -/
lemma exists_table_iff {Q R : Toml.Table → Prop}
    (h : ∀ f es, Q es ↔ R es ∧ Inner Reads s (.table f es)) :
    (∃ f es, v = .table f es ∧ Q es) ↔ (∃ f es, v = .table f es ∧ R es) ∧ Inner Reads s v := by
  constructor
  · rintro ⟨f, es, rfl, hes⟩
    obtain ⟨hkeys, hinner⟩ := (h f es).1 hes
    exact ⟨⟨f, es, rfl, hkeys⟩, hinner⟩
  · rintro ⟨⟨f, es, rfl, hkeys⟩, hinner⟩
    exact ⟨f, es, rfl, (h f es).2 ⟨hkeys, hinner⟩⟩

/-- A reader accepts a value if the value is what it has to be, and the values inside it are accepted. -/
lemma reads_iff : s.Reads v ↔ s.Fits v ∧ Inner Reads s v := by
  cases s with
  | settings => exact exists_table_iff fun f es => isSome_ofTable?_settings
  | manifest => exact exists_table_iff fun f es => isSome_ofTable?_manifest
  -- A heap may be a table or an array, and a date is read as a table without keys.
  | heap =>
    cases v with
    | table f es =>
      refine isSome_heapTable?.trans (and_congr ?_ Iff.rfl)
      exact ⟨fun h => .inl ⟨f, es, rfl, h⟩, by rintro (⟨_, _, ⟨⟩, h⟩ | ⟨⟨⟩⟩ | ⟨_, ⟨⟩⟩); exact h⟩
    | array vs => exact isSome_heap?_array.trans (and_iff_right (.inr (.inr ⟨vs, rfl⟩))).symm
    | datetime => exact iff_of_true rfl ⟨.inr (.inl rfl), inner_of_not_inside nofun⟩
    | _ => exact iff_of_false Bool.false_ne_true (by rintro ⟨⟨_, _, ⟨⟩, -⟩ | ⟨⟨⟩⟩ | ⟨_, ⟨⟩⟩, -⟩)
  | entries =>
    cases v with
    | array vs => exact isSome_items?.trans (inner_array.symm.trans (and_iff_right ⟨vs, rfl⟩).symm)
    | _ => exact iff_of_false Bool.false_ne_true (by rintro ⟨⟨_, ⟨⟩⟩, -⟩)
  | entry =>
    cases v with
    | table f es =>
      refine reads_entry_table.trans (and_congr ?_ Iff.rfl)
      exact ⟨fun h => .inl ⟨f, es, rfl, h⟩, by rintro (⟨_, _, ⟨⟩, h⟩ | ⟨_, ⟨⟩, -⟩); exact h⟩
    | array vs =>
      refine reads_entry_array.trans (and_congr ?_ Iff.rfl)
      exact ⟨fun h => .inr ⟨vs, rfl, h⟩, by rintro (⟨_, _, ⟨⟩, -⟩ | ⟨_, ⟨⟩, h⟩); exact h⟩
    | _ => exact iff_of_false Bool.false_ne_true (by rintro ⟨⟨_, _, ⟨⟩, -⟩ | ⟨_, ⟨⟩, -⟩, -⟩)
  | kind =>
    cases v with
    | string t =>
      refine reads_iff_of_leaf (isSome_ofName?.trans ?_) nofun
      exact ⟨fun ⟨d, hd⟩ => .inl ⟨d, congrArg _ hd⟩, by rintro (⟨d, ⟨⟩⟩ | ⟨_, _, ⟨⟩⟩); exact ⟨d, rfl⟩⟩
    | table f es =>
      refine isSome_kind?_table.trans (and_congr ?_ Iff.rfl)
      exact ⟨.inr, by rintro (⟨_, ⟨⟩⟩ | h); exact h⟩
    | _ => exact iff_of_false Bool.false_ne_true (by rintro ⟨⟨_, ⟨⟩⟩ | ⟨_, _, ⟨⟩⟩, -⟩)
  -- The other shapes have nothing inside that is looked at.
  | text => exact reads_iff_of_leaf (by cases v <;> simp [Reads, Fits, string?]) (by rintro ⟨t, rfl⟩; exact nofun)
  | flag => exact reads_iff_of_leaf (by cases v <;> simp [Reads, Fits, boolean?]) (by rintro ⟨b, rfl⟩; exact nofun)
  | magic => exact reads_iff_of_leaf isSome_magic? (by rintro ⟨j, rfl⟩; exact nofun)
  | limit => exact reads_iff_of_leaf isSome_limit? (by rintro ⟨n, rfl⟩; exact nofun)
  | blank => exact reads_iff_of_leaf Iff.rfl (by rintro ⟨f, rfl⟩ _ _ ⟨⟨⟩⟩)
  | ignored => exact iff_of_true trivial ⟨trivial, fun st w _ => ⟨ignored, by cases st <;> rfl, trivial⟩⟩

/-- A reader accepts what its shape describes. -/
lemma reads_iff_describes : s.Reads v ↔ s.Describes v := by
  induction v using Toml.Value.inside_induction generalizing s with
  | h v ih =>
    rw [reads_iff, describes_iff]
    refine and_congr Iff.rfl (forall_congr' fun st => forall_congr' fun w => forall_congr' fun hin => ?_)
    exact exists_congr fun s' => and_congr Iff.rfl (ih st w hin)

/-! ## Documents -/

variable {t : Toml.Table} {n : UInt64} {m : Option UInt64} {c : Settings} {x : String}

/-- The limit that a table sets is the one in it. -/
lemma heapTable?_eq_some (h : Settings.heapTable? es = some m) : m = some n ↔ ("max_bytes", .integer n.toNat) ∈ es := by
  induction es with
  | nil =>
    cases h
    exact iff_of_false nofun nofun
  | cons e es ih =>
    obtain ⟨k, v⟩ := e
    by_cases hk : k = "max_bytes"
    · subst hk
      obtain ⟨hnew, i, hi, rfl⟩ := heapTable?_limit_eq_some.1 h
      constructor
      · rintro ⟨⟩
        rw [limit?_eq_some.1 hi]
        exact .head _
      · intro hmem
        rcases List.mem_cons.1 hmem with heq | hmem
        · cases heq
          exact hi.symm.trans (limit?_eq_some.2 rfl)
        · exact (hnew (List.mem_map_of_mem hmem)).elim
    · rw [Settings.heapTable?, if_neg hk] at h
      rw [ih h, List.mem_cons, or_iff_right]
      rintro ⟨⟩
      exact hk rfl

/-- The limit stands under its key, or it is the first item of an array. -/
lemma heap?_eq_some (h : Settings.heap? v = some m) :
    m = some n ↔ v.Inside (.key "max_bytes") (.integer n.toNat) ∨ v.Inside (.item 0) (.integer n.toNat) := by
  cases v with
  | table f es =>
    rw [heapTable?_eq_some h, Toml.Value.inside_key_iff]
    exact (or_iff_left nofun).symm
  | array vs =>
    rw [Toml.Value.inside_item_iff, or_iff_right nofun]
    rcases vs with _ | ⟨v, _ | ⟨w, vs⟩⟩
    · cases h
      exact iff_of_false nofun nofun
    · obtain ⟨i, hi, rfl⟩ := Option.map_eq_some_iff.1 h
      rw [← hi, limit?_eq_some]
      exact Option.some_inj.symm
    · cases h
  | datetime =>
    cases h
    exact iff_of_false nofun fun h => h.elim nofun nofun
  | _ => cases h

/-- The limit of some settings is the one in the table or the first item of the heap. -/
lemma maxBytes_eq_some (h : Settings.ofTable? t = some c) : c.maxBytes = some n ↔
    (Toml.Value.table .header t).At [.key "heap", .key "max_bytes"] (.integer n.toNat) ∨
      (Toml.Value.table .header t).At [.key "heap", .item 0] (.integer n.toNat) := by
  simp only [Toml.Value.at_cons_iff (p := [_]), Toml.Value.inside_key_iff, ← Toml.Value.inside_iff_at]
  unfold Settings.ofTable? at h
  split at h
  · cases h
    exact iff_of_false nofun (by simp)
  · obtain ⟨m, hm, rfl⟩ := Option.map_eq_some_iff.1 h
    simpa using heap?_eq_some hm
  · cases h

/-- A table describes a manifest just if one is read from it. -/
lemma manifest_describes_iff : manifest.Describes (.table .header t) ↔ ∃ m, Manifest.ofTable? t = some m := by
  rw [← reads_iff_describes, ← Option.isSome_iff_exists]
  exact ⟨by rintro ⟨_, _, ⟨⟩, h⟩; exact h, fun h => ⟨_, _, rfl, h⟩⟩

/-- A table describes settings just if they are read from it. -/
lemma settings_describes_iff : settings.Describes (.table .header t) ↔ ∃ c, Settings.ofTable? t = some c := by
  rw [← reads_iff_describes, ← Option.isSome_iff_exists]
  exact ⟨by rintro ⟨_, _, ⟨⟩, h⟩; exact h, fun h => ⟨_, _, rfl, h⟩⟩

/-- A text is parsed as the manifest that is read from its table. -/
lemma manifest_parse_eq_ok {m : Manifest} (htext : Toml.parse x = some t) :
    Manifest.parse x = .ok m ↔ Manifest.ofTable? t = some m := by
  rw [Manifest.parse, htext, Option.bind_some]
  cases Manifest.ofTable? t <;> simp

/-- A text is parsed as the settings that are read from its table. -/
lemma settings_parse_eq_ok (htext : Toml.parse x = some t) :
    Settings.parse x = .ok c ↔ Settings.ofTable? t = some c := by
  rw [Settings.parse, htext, Option.bind_some]
  cases Settings.ofTable? t <;> simp

/-- A manifest or settings are accepted if the document has at each place what is due there. Then each key of each
table in a manifest, however deep, is a field of the schema at its place, and so is each key of each table in
settings, unless it is a key of the heap settings other than the limit, or stands under one. Such keys are passed
over: the limit is what stands in its own place, and nothing else. -/
theorem keys_belong (t : Toml.Table) :
    ((∃ m, Manifest.ofTable? t = some m) ↔ manifest.Describes (.table .header t)) ∧
    ((∃ c, Settings.ofTable? t = some c) ↔ settings.Describes (.table .header t)) ∧
    (∀ m, Manifest.ofTable? t = some m → ∀ p f es k v,
      (Toml.Value.table .header t).At p (.table f es) → (k, v) ∈ es → k ∈ manifest.keysAt p) ∧
    (∀ c, Settings.ofTable? t = some c →
      (∀ p f es k v, (Toml.Value.table .header t).At p (.table f es) → (k, v) ∈ es →
        k ∈ settings.keysAt p ∨ ∃ l, l ≠ "max_bytes" ∧ [.key "heap", .key l] <+: p ++ [.key k]) ∧
      ∀ n, c.maxBytes = some n ↔
        (Toml.Value.table .header t).At [.key "heap", .key "max_bytes"] (.integer n.toNat) ∨
          (Toml.Value.table .header t).At [.key "heap", .item 0] (.integer n.toNat)) ∧
    ∀ x, Toml.parse x = some t →
      (∀ m, Manifest.parse x = .ok m ↔ Manifest.ofTable? t = some m) ∧
        ∀ c, Settings.parse x = .ok c ↔ Settings.ofTable? t = some c := by
  refine ⟨manifest_describes_iff.symm, settings_describes_iff.symm, ?_, ?_, ?_⟩
  · intro m hm p f es k v hp hk
    rcases mem_keysAt (manifest_describes_iff.2 ⟨m, hm⟩) hp hk with hmem | hignored
    · exact hmem
    · exact (Strict.at? (s := manifest) trivial hignored).elim
  · refine fun c hc => ⟨fun p f es k v hp hk => ?_, fun n => maxBytes_eq_some hc⟩
    exact (mem_keysAt (settings_describes_iff.2 ⟨c, hc⟩) hp hk).imp_right at?_settings_eq_ignored
  · exact fun x htext => ⟨fun m => manifest_parse_eq_ok htext, fun c => settings_parse_eq_ok htext⟩

end Shape

/-! ## Examples -/

/-- The text of a manifest with a method inside an object. -/
def Manifest.nestedText : String := "[[entry]]\nkind=\"object\"\n[[entry.entry]]\nkind=\"method\"\nmagic=7\n"

/-- The document of `Manifest.nestedText`. -/
def Manifest.nestedTable : Toml.Table :=
  [("entry", .array [.table .header [("kind", .string "object"),
    ("entry", .array [.table .header [("kind", .string "method"), ("magic", .integer 7)]])]])]

/-- The text of the manifest has its document. -/
lemma parse_nestedText : Toml.parse Manifest.nestedText = some Manifest.nestedTable := by
  have htokens : Toml.tokenize Manifest.nestedText = some [.leftBracket, .leftBracket, .word "entry", .rightBracket,
      .rightBracket, .newline, .word "kind", .equals, .quoted "object" false, .newline, .leftBracket, .leftBracket,
      .word "entry", .period, .word "entry", .rightBracket, .rightBracket, .newline, .word "kind", .equals,
      .quoted "method" false, .newline, .word "magic", .equals, .word "7", .newline] := by decide +kernel
  rw [Toml.parse, htokens]
  rfl

/-- Settings with a limit. -/
def Settings.limitedText : String := "[heap]\nmax_bytes=4096\n"

/-- The document of `Settings.limitedText`. -/
def Settings.limitedTable : Toml.Table := [("heap", .table .header [("max_bytes", .integer 4096)])]

/-- The text of the settings has its document. -/
lemma parse_limitedText : Toml.parse Settings.limitedText = some Settings.limitedTable := by
  have htokens : Toml.tokenize Settings.limitedText = some [.leftBracket, .word "heap", .rightBracket, .newline,
      .word "max_bytes", .equals, .word "4096", .newline] := by decide +kernel
  rw [Toml.parse, htokens]
  rfl

/-- A key of the inner entry of a manifest is a field, and so is the limit of settings, which is read off its place. -/
theorem nested_keys_belong :
    (∃ m, Manifest.parse Manifest.nestedText = .ok m) ∧
      "magic" ∈ Shape.manifest.keysAt [.key "entry", .item 0, .key "entry", .item 0] ∧
      Settings.parse Settings.limitedText = .ok ⟨some 4096⟩ ∧
      ("max_bytes" ∈ Shape.settings.keysAt [.key "heap"] ∨
        ∃ l, l ≠ "max_bytes" ∧ [.key "heap", .key l] <+: [Toml.Step.key "heap", .key "max_bytes"]) := by
  obtain ⟨-, -, hkeys, -, hmanifest⟩ := Shape.keys_belong Manifest.nestedTable
  obtain ⟨-, -, -, hlimited, hsettings⟩ := Shape.keys_belong Settings.limitedTable
  have hlimit : Settings.ofTable? Settings.limitedTable = some ⟨some 4096⟩ := rfl
  refine ⟨⟨_, ((hmanifest _ parse_nestedText).1 _).2 rfl⟩, ?_, ((hsettings _ parse_limitedText).2 _).2 hlimit, ?_⟩
  · have hinner : (Toml.Value.table .header Manifest.nestedTable).At [.key "entry", .item 0, .key "entry", .item 0]
        (.table .header [("kind", .string "method"), ("magic", .integer 7)]) :=
      .inside (.key (.head _)) (.inside (.item rfl) (.inside (.key (.tail _ (.head _))) (.inside (.item rfl) .here)))
    exact hkeys _ rfl _ _ _ _ _ hinner (.tail _ (.head _))
  · exact (hlimited _ hlimit).1 _ _ _ _ _ (.inside (.key (.head _)) .here) (.head _)

/-- A misspelled limit is accepted, and it is no limit. -/
theorem Settings.misspelled_limit_passed_over :
    Toml.parse "[heap]\nmax_byte=4096\n" = some [("heap", .table .header [("max_byte", .integer 4096)])] ∧
      Settings.parse "[heap]\nmax_byte=4096\n" = .ok {} ∧
      (Toml.Value.table .header [("heap", .table .header [("max_byte", .integer 4096)])]).At [.key "heap"]
        (.table .header [("max_byte", .integer 4096)]) ∧
      "max_byte" ∉ Shape.settings.keysAt [.key "heap"] := by
  have htokens : Toml.tokenize "[heap]\nmax_byte=4096\n" = some [.leftBracket, .word "heap", .rightBracket, .newline,
      .word "max_byte", .equals, .word "4096", .newline] := by decide +kernel
  have hparse : Toml.parse "[heap]\nmax_byte=4096\n" =
      some [("heap", .table .header [("max_byte", .integer 4096)])] := by
    rw [Toml.parse, htokens]
    rfl
  refine ⟨hparse, (Shape.settings_parse_eq_ok hparse).2 rfl, .inside (.key (.head _)) .here, by decide⟩

end HostBinding
