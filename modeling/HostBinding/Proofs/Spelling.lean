import HostBinding.Manifest
import HostBinding.Proofs.Attributes
import HostBinding.Proofs.Numeral
import HostBinding.Value.Key

/-!
# Spellings of keys

A text leads to one key in whatever way it comes in: as a name, as a script value, as the name of a manifest entry,
or as a segment of a path. An integer leads to the key of its text. So what is bound under an index or under a name
is found under each spelling of it. Only the last number of 32 bits, which is no array index, is a key that nothing
spells.

* `Value.toKey_integer`: the key of an integer is that of its text.
* `Key.ofPath_intercalate`: the keys of a path are those of its segments.
* `Key.Spelled`: a text leads to a key in all ways.
* `Key.routes_agree`: the main result.
-/

namespace HostBinding

/-! ## Integers -/

/-- The key of an integer of any size is the key of its text. -/
lemma Value.toKey_integer (i : Int64) : (ofInt64 i).toKey = .ok (.ofString (toString i.toInt)) := by
  rw [ofInt64, toKey]
  split
  · rename_i hi
    obtain ⟨n, hn⟩ := Int.eq_ofNat_of_zero_le hi.1
    rw [hn] at hi ⊢
    have hle : n ≤ Key.maxIndex := Int.ofNat_le.1 hi.2
    have htoNat : (UInt32.ofNat n).toNat = n := UInt32.toNat_ofNat_of_lt' (Nat.lt_of_le_of_lt hle (by decide))
    have hkey := Key.ofString_toString (n := UInt32.ofNat n) (by rwa [htoNat])
    rw [htoNat] at hkey
    rw [Int.toNat_natCast, Text.toString_natCast, hkey]
  -- The text of an index is that of no other integer.
  · rename_i hi
    rw [Key.ofString_eq_string.2]
    intro n hn
    obtain ⟨hle, htext⟩ := Key.ofString_eq_index.1 hn
    rw [Text.eq_of_toString_eq htext] at hi
    exact hi ⟨Int.natCast_nonneg _, Int.ofNat_le.2 hle⟩

namespace Key

variable {s : String}

/-- A text is parsed the same when it is owned. -/
lemma ofOwned_eq (s : String) : ofOwned s = ofString s := by
  unfold ofOwned ofString
  cases index? s with
  | none => rfl
  | some n => rfl

/-! ## Paths -/

/-- A text without a dot is a segment. -/
lemma segments_of_not_mem {cs : List Char} (h : '.' ∉ cs) : segments cs = [cs] := by
  induction cs with
  | nil => rfl
  | cons c cs ih =>
    obtain ⟨hc, hcs⟩ := List.ne_and_not_mem_of_not_mem_cons h
    rw [segments, if_neg hc.symm, ih hcs]

/-- A path without dots has one segment. -/
lemma ofPath_of_not_mem (h : '.' ∉ s.toList) : ofPath s = [ofString s] := by
  rw [ofPath, segments_of_not_mem h, List.map_singleton, String.ofList_toList]

/-- A path that is joined by a dot has the keys of both parts. -/
lemma ofPath_append (p q : String) : ofPath (p ++ "." ++ q) = ofPath p ++ ofPath q := by
  have hjoin : (p ++ "." ++ q).toList = p.toList ++ '.' :: q.toList := by
    rw [String.toList_append, String.toList_append, List.append_assoc]
    rfl
  rw [ofPath, hjoin, segments_append, List.map_append, ofPath, ofPath]

/-- The keys of a path are those of its segments. -/
lemma ofPath_intercalate {ss : List String} (hne : ss ≠ []) (h : ∀ t ∈ ss, '.' ∉ t.toList) :
    ofPath (".".intercalate ss) = ss.map ofString := by
  induction ss with
  | nil => exact absurd rfl hne
  | cons t ss ih =>
    obtain ⟨ht, hss⟩ := List.forall_mem_cons.1 h
    cases ss with
    | nil => rw [String.intercalate_singleton, ofPath_of_not_mem ht, List.map_singleton]
    | cons u us =>
      rw [String.intercalate_cons_cons, ofPath_append, ofPath_of_not_mem ht, ih (List.cons_ne_nil u us) hss]
      rfl

/-! ## All ways from a text to a key -/

/-- A text leads to a key in all ways. -/
structure Spelled (s : String) (key : Key) : Prop where
  name : ofString s = key
  owned : ofOwned s = key
  value : (Value.string s).toKey = .ok key
  entry : ∀ e : Manifest.Entry, e.name = some s → e.symbol = none → e.key = .ok key
  /-- The text is the segment of a path. -/
  segment : ∀ (ss : List String) (i : Nat), (∀ t ∈ ss, '.' ∉ t.toList) → ss[i]? = some s →
    (ofPath (".".intercalate ss))[i]? = some key
  /-- The text is all of a path. -/
  path : '.' ∉ s.toList → ∀ v, Access.path v s = Access.read v key

/-- Every text leads to its key in all ways. -/
lemma spelled (s : String) : Spelled s (ofString s) where
  name := rfl
  owned := ofOwned_eq s
  value := rfl
  entry e hn hs := by rw [Manifest.Entry.key, hn, hs]
  segment ss i h hi := by
    have hne : ss ≠ [] := by
      rintro rfl
      cases hi
    rw [ofPath_intercalate hne h, List.getElem?_map, hi, Option.map_some]
  path h v := by
    rw [Access.path, ofPath_of_not_mem h]
    exact bind_pure _

/-- A text leads to no other key. -/
lemma Spelled.eq {key : Key} (h : Spelled s key) : key = ofString s := h.name.symm

/-- All words but the last are indices. -/
lemma toNat_le_maxIndex_iff {n : UInt32} : n.toNat ≤ maxIndex ↔ n ≠ 0xffffffff := by
  have hlt := n.toNat_lt
  rw [Ne, ← UInt32.toNat_inj, maxIndex]
  show n.toNat ≤ 4294967294 ↔ ¬ n.toNat = 4294967295
  omega

/-- The index of a number leads to the key of its text, unless the number is the last one, which no array index is. -/
lemma spelled_index_iff {n : UInt32} : Spelled (toString n.toNat) (index n) ↔ n ≠ 0xffffffff := by
  rw [← toNat_le_maxIndex_iff]
  constructor
  · intro h
    exact (ofString_eq_index.1 h.name).1
  · intro h
    have hspelled := spelled (toString n.toNat)
    rwa [ofString_toString h] at hspelled

/-- Every text leads to one key in all ways, and every number of 32 bits as an integer leads to the key of its
text. This is the number as an index, unless it is the last one. What a definition binds under a name or under an
index is shown by the wrappers made from it under the key to which the text of the name or of the index leads. -/
theorem routes_agree (s : String) (n : UInt32) :
    Spelled s (ofString s) ∧
    (Value.ofInt64 (Int64.ofNat n.toNat)).toKey = .ok (ofString (toString n.toNat)) ∧
    (Spelled (toString n.toNat) (index n) ↔ n ≠ 0xffffffff) ∧
    ∀ (e : External) (entry : Definition.Entry) (key : Key), e.HasEntry entry → Spelled s key →
      (entry.key = ofString s ∨ n ≠ 0xffffffff ∧ s = toString n.toNat ∧ entry.key = index n) →
      ∃ t, e.view.templates.find? key = some t ∧ t.attributes = entry.attributes := by
  refine ⟨spelled s, ?_, spelled_index_iff, fun e entry key hentry hkey hbound => ?_⟩
  · rw [Value.toKey_integer, Int64.toInt_ofNat_of_lt (Nat.lt_trans n.toNat_lt (by decide)), Text.toString_natCast]
  · have heq : entry.key = key := by
      rcases hbound with hname | ⟨hn, rfl, hnumber⟩
      · rw [hname, hkey.eq]
      · rw [hnumber, (spelled_index_iff.2 hn).eq, hkey.eq]
    rw [← heq]
    exact hentry.exists_template

end Key

/-- A definition that binds a page under its number. -/
def Definition.book : Definition where
  entries := [.leaf (.index 7) .all (.literal "On Keys")]

/-- The prototype of `Definition.book`. -/
def bookPrototype : Prototype := ⟨0, ((Definition.book.root .all).slots 0).toArray⟩

/-- A wrapper made from `Definition.book`. -/
def book : External := { prototype := bookPrototype, slot := 0, host := ⟨1⟩, shared := false, slot_lt := by decide }

/-- The world with this wrapper. -/
def bookWorld : World := (World.allocate {} { kind := .external book }).2

/-- The page that is bound under a number is shown under the key to which the text of the number leads, and found
by a path. -/
theorem book_routes_agree : Key.Spelled "7" (.index 7) ∧
    (∃ t, book.view.templates.find? (.index 7) = some t ∧ t.attributes = .all) ∧
    (Access.path (.object ⟨0⟩) "7").start bookWorld = .done (.ok (.string "On Keys")) bookWorld := by
  have hbuild : (Definition.book.build .all).runIn {} = (.ok bookPrototype, _) :=
    Definition.build_eq_ok.2 ⟨by decide, by decide, rfl, rfl⟩
  have hentry : book.HasEntry (.leaf (.index 7) .all (.literal "On Keys")) :=
    ⟨_, _, _, _, [], _, hbuild, rfl, rfl, .head _⟩
  obtain ⟨-, -, hnumber, hbound⟩ := Key.routes_agree "7" 7
  have hspelled : Key.Spelled "7" (.index 7) := hnumber.2 (by decide)
  refine ⟨hspelled, hbound _ _ _ hentry hspelled (.inr ⟨by decide, rfl, rfl⟩), ?_⟩
  rw [hspelled.path (by decide)]
  rfl

/-- The text of the last number of 32 bits leads to a string, and so does the number as an integer. What is bound
under the number as an index is not found by them. -/
theorem Key.last_number_unspelled :
    toString (0xffffffff : UInt32).toNat = "4294967295" ∧ ofString "4294967295" = string "4294967295" ∧
      (Value.ofInt64 (Int64.ofNat 4294967295)).toKey = .ok (string "4294967295") ∧
      ¬ Spelled "4294967295" (index 0xffffffff) := by
  have hstring : ofString "4294967295" = string "4294967295" := by decide
  refine ⟨rfl, hstring, by decide, fun h => ?_⟩
  cases h.eq.trans hstring

end HostBinding
