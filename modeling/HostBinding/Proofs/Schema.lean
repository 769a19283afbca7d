import HostBinding.Manifest
import HostBinding.Settings
import Mathlib.Data.List.Infix

/-!
# Schemas

What documents may hold, and where. A schema says for each place of a document what is due there: which keys a
table may have, and what stands under them. The keys of a table are the fields of its shape, and there are no
others, except in the table with the heap settings, where all other keys are passed over, with what stands under
them. What has to hold at one place is said of that place alone, and of no order in which a document is read.

* `Toml.Value.At`: a value is at a place of a document.
* `Shape.fields`: the keys that a table may have, and what stands under them.
* `Shape.at?`, `Shape.keysAt`: what is due at a place, and the keys that a table may have there.
* `Shape.Fits`: what has to hold of one value, those inside it left out of account.
* `Shape.Describes`: a document has at each place what is due there.
* `Shape.mem_keysAt`: the keys of a document that is described are fields, or passed over.
-/

namespace HostBinding

/-! ## Places -/

namespace Toml

/-- A step from a value to one inside it. -/
inductive Step where
  | key (k : String)
  | item (i : Nat)
deriving DecidableEq, Repr

namespace Value

/-- A value is inside another, one step away. -/
inductive Inside : Value → Step → Value → Prop
  | key {f : Form} {es : Table} {k : String} {v : Value} (h : (k, v) ∈ es) : Inside (.table f es) (.key k) v
  | item {vs : List Value} {i : Nat} {v : Value} (h : vs[i]? = some v) : Inside (.array vs) (.item i) v

/-- A value is at a place inside another: the steps lead to it. -/
inductive At : Value → List Step → Value → Prop
  | here {v : Value} : At v [] v
  | inside {v w u : Value} {st : Step} {p : List Step} (h : Inside v st w) (hp : At w p u) : At v (st :: p) u

variable {v w u : Value} {st : Step} {p : List Step} {f : Form} {es : Table} {k : String}

/-- What lies inside a value is smaller. -/
lemma Inside.sizeOf_lt (h : Inside v st w) : sizeOf w < sizeOf v := by
  cases h with
  | key h =>
    have := List.sizeOf_lt_of_mem h
    rw [Prod.mk.sizeOf_spec] at this
    rw [table.sizeOf_spec]
    omega
  | item h =>
    have := List.sizeOf_lt_of_mem (List.mem_of_getElem? h)
    rw [array.sizeOf_spec]
    omega

/-- What holds of a value if it holds of all values inside it, holds of all values. -/
theorem inside_induction {P : Value → Prop} (h : ∀ v, (∀ st w, Inside v st w → P w) → P v) (v : Value) : P v :=
  h v fun _ w hin =>
    have := hin.sizeOf_lt
    inside_induction h w
termination_by sizeOf v

/-- Inside a table there is what stands under its keys. -/
lemma inside_key_iff : Inside (.table f es) (.key k) v ↔ (k, v) ∈ es :=
  ⟨fun h => by cases h with | key h => exact h, .key⟩

/-- Inside an array there are its items. -/
lemma inside_item_iff {vs : List Value} {i : Nat} : Inside (.array vs) (.item i) v ↔ vs[i]? = some v :=
  ⟨fun h => by cases h with | item h => exact h, .item⟩

/-- Steps lead to a place through the value behind the first step. -/
lemma at_cons_iff : At v (st :: p) u ↔ ∃ w, Inside v st w ∧ At w p u :=
  ⟨fun h => by cases h with | inside h hp => exact ⟨_, h, hp⟩, fun ⟨_, h, hp⟩ => .inside h hp⟩

/-- A value is inside another just if one step leads to it. -/
lemma inside_iff_at : Inside v st w ↔ At v [st] w :=
  ⟨fun h => .inside h .here, fun h => by cases h with | inside h hp => cases hp; exact h⟩

/-- What stands under a key of a table is one step further. -/
lemma At.key (h : At v p (.table f es)) (hk : (k, u) ∈ es) : At v (p ++ [.key k]) u := by
  generalize hw : Value.table f es = w at h
  induction h with
  | here =>
    subst hw
    exact .inside (.key hk) .here
  | inside hin _ ih => exact .inside hin (ih hw)

end Value

end Toml

/-! ## What is due at a place -/

/-- What is due at a place of a document. -/
inductive Shape where
  | settings
  | heap
  | manifest
  | entries
  | entry
  | kind
  | text
  | flag
  | magic
  | limit
  /-- A table without keys. -/
  | blank
  /-- Anything, since nobody looks at it. -/
  | ignored
deriving DecidableEq, Repr

namespace Shape

/-- The keys that a table may have, in order, and what stands under them. A kind may be written as a table, which
has the name of the kind as its key. -/
def fields : Shape → List (String × Shape)
  | settings => [("heap", heap)]
  | heap => [("max_bytes", limit)]
  | manifest => [("catch_all", text), ("enumerator", text), ("entry", entries)]
  | entry => [("name", text), ("symbol", text), ("kind", kind), ("value", text), ("function", text),
      ("handler", text), ("magic", magic), ("writable", flag), ("enumerable", flag), ("configurable", flag),
      ("catch_all", text), ("enumerator", text), ("entry", entries)]
  | kind => [("method", blank), ("property", blank), ("object", blank)]
  | _ => []

/-- What stands under keys that are no fields, where there may be such keys. -/
def rest? : Shape → Option Shape
  | heap | ignored => some ignored
  | _ => none

/-- The items of an array. Heap settings and entries may be written as the array of the values of their fields, in
order. -/
def item? : Shape → Nat → Option Shape
  | entries, _ => some entry
  | ignored, _ => some ignored
  | heap, i => heap.fields[i]?.map Prod.snd
  | entry, i => entry.fields[i]?.map Prod.snd
  | _, _ => none

/-- What is due one step further. -/
def next? (s : Shape) : Toml.Step → Option Shape
  | .key k => s.fields.lookup k <|> s.rest?
  | .item i => s.item? i

/-- What is due at a place. -/
def at? : Shape → List Toml.Step → Option Shape
  | s, [] => some s
  | s, st :: p => (s.next? st).bind fun s' => s'.at? p

/-- The keys that a table at a place may have as fields. -/
def keysAt (s : Shape) (p : List Toml.Step) : List String :=
  match s.at? p with
  | some s' => s'.fields.map Prod.fst
  | none => []

example : manifest.keysAt [.key "entry", .item 2, .key "entry", .item 0] = ["name", "symbol", "kind", "value",
    "function", "handler", "magic", "writable", "enumerable", "configurable", "catch_all", "enumerator", "entry"] :=
  rfl

/-- What has to hold of a value. The values inside it are left out of account. -/
def Fits : Shape → Toml.Value → Prop
  | settings, v | manifest, v => ∃ f es, v = .table f es ∧ (es.map Prod.fst).Nodup
  -- A date counts as a table without a limit.
  | heap, v =>
    (∃ f es, v = .table f es ∧ (es.map Prod.fst).count "max_bytes" ≤ 1) ∨ v = .datetime ∨ ∃ vs, v = .array vs
  | entries, v => ∃ vs, v = .array vs
  | entry, v =>
    (∃ f es, v = .table f es ∧ (es.map Prod.fst).Nodup ∧ "kind" ∈ es.map Prod.fst) ∨
      -- Only the nested entries may be left out of an array.
      ∃ vs, v = .array vs ∧ 12 ≤ vs.length
  | kind, v => (∃ d : Manifest.Kind, v = .string d.name) ∨ ∃ k w, v = .table .inline [(k, w)]
  | text, v => ∃ t, v = .string t
  | flag, v => ∃ b, v = .boolean b
  | magic, v => ∃ j : Int32, v = .integer j.toInt
  | limit, v => ∃ n : UInt64, v = .integer n.toNat
  | blank, v => ∃ f, v = .table f []
  | ignored, _ => True

/-- A document has at each place what is due there. -/
def Describes (s : Shape) (v : Toml.Value) : Prop := ∀ p w, v.At p w → ∃ s', s.at? p = some s' ∧ s'.Fits w

variable {s s' : Shape} {v w : Toml.Value} {st : Toml.Step} {p q : List Toml.Step} {k : String}
  {P : Shape → Toml.Value → Prop} {f : Toml.Form} {es : Toml.Table}

/-! ## One level -/

/-- Something is due one step further, and a value has what it takes. -/
def Due (P : Shape → Toml.Value → Prop) (s : Shape) (st : Toml.Step) (v : Toml.Value) : Prop :=
  ∃ s', s.next? st = some s' ∧ P s' v

/-- The values inside a value are due there, and have what it takes. -/
def Inner (P : Shape → Toml.Value → Prop) (s : Shape) (v : Toml.Value) : Prop :=
  ∀ st w, v.Inside st w → Due P s st w

/-- Where a shape is due, having it is having what is due. -/
lemma iff_due {q : Prop} (h : s.next? st = some s') (hq : q ↔ P s' v) : q ↔ Due P s st v := by
  rw [hq, Due, h]
  exact ⟨fun hP => ⟨s', rfl, hP⟩, by rintro ⟨_, ⟨⟩, hP⟩; exact hP⟩

/-- Where nothing is due, no value has what is due. -/
lemma not_due (h : s.next? st = none) : ¬ Due P s st v := by
  rintro ⟨s', hs', -⟩
  cases h.symm.trans hs'

/-- What is in a table is what stands under its keys. -/
lemma inner_table : Inner P s (.table f es) ↔ ∀ e ∈ es, Due P s (.key e.1) e.2 :=
  ⟨fun h e he => h _ _ (.key he), fun h st w hin => by cases hin with | key he => exact h _ he⟩

/-- What is in an array is its items. -/
lemma inner_array {vs : List Toml.Value} :
    Inner P s (.array vs) ↔ ∀ (i : Nat) w, vs[i]? = some w → Due P s (.item i) w :=
  ⟨fun h i w hi => h _ _ (.item hi), fun h st w hin => by cases hin with | item hi => exact h _ _ hi⟩

/-- Where nothing is inside, there is nothing to suit. -/
lemma inner_of_not_inside (h : ∀ st w, ¬ v.Inside st w) : Inner P s v := fun st w hin => (h st w hin).elim

/-- A document is described level by level. -/
lemma describes_iff : s.Describes v ↔ s.Fits v ∧ Inner Describes s v := by
  constructor
  · intro h
    constructor
    · obtain ⟨s', hs', hfits⟩ := h [] v .here
      cases hs'
      exact hfits
    · intro st w hin
      obtain ⟨s', hs', -⟩ := h [st] w (.inside hin .here)
      obtain ⟨s₁, hs₁, -⟩ := Option.bind_eq_some_iff.1 hs'
      refine ⟨s₁, hs₁, fun p u hp => ?_⟩
      obtain ⟨s₂, hs₂, hfits⟩ := h (st :: p) u (.inside hin hp)
      rw [at?, hs₁] at hs₂
      exact ⟨s₂, hs₂, hfits⟩
  · rintro ⟨hfits, hinner⟩ p w hp
    cases hp with
    | here => exact ⟨s, rfl, hfits⟩
    | inside hin hp =>
      obtain ⟨s₁, hs₁, hw⟩ := hinner _ _ hin
      obtain ⟨s₂, hs₂, hfits⟩ := hw _ _ hp
      refine ⟨s₂, ?_, hfits⟩
      rw [at?, hs₁]
      exact hs₂

/-! ## Keys -/

/-- What is due at a place is due after the last steps from what is due after the first ones. -/
lemma at?_append : s.at? (p ++ q) = (s.at? p).bind fun s' => s'.at? q := by
  induction p generalizing s with
  | nil => rfl
  | cons st p ih =>
    rw [List.cons_append, at?, at?, Option.bind_assoc]
    exact congrArg _ (funext fun s' => ih)

/-- Under a key that is no field anything may stand. -/
lemma rest?_eq_some (h : s.rest? = some s') : s' = ignored := by
  cases s <;> cases h <;> rfl

/-- What stands under a key stands under a field, or is passed over. -/
lemma next?_key_eq_some (h : s.next? (.key k) = some s') : (k, s') ∈ s.fields ∨ s.rest? = some s' := by
  rw [next?] at h
  cases hl : s.fields.lookup k with
  | none =>
    rw [hl] at h
    exact .inr h
  | some s₁ =>
    rw [hl] at h
    cases h
    obtain ⟨l, r, hfields, -⟩ := List.lookup_eq_some_iff.1 hl
    rw [hfields]
    exact .inl (List.mem_append_right l (.head r))

/-- A key of a document that is described is a field of the schema, or passed over. -/
lemma mem_keysAt (h : s.Describes v) (hp : v.At p (.table f es)) (hk : (k, w) ∈ es) :
    k ∈ s.keysAt p ∨ s.at? (p ++ [.key k]) = some ignored := by
  obtain ⟨s', hs', -⟩ := h _ _ (hp.key hk)
  rw [at?_append] at hs' ⊢
  obtain ⟨s₁, hs₁, hs'⟩ := Option.bind_eq_some_iff.1 hs'
  obtain ⟨s₂, hs₂, hs'⟩ := Option.bind_eq_some_iff.1 hs'
  cases hs'
  rcases next?_key_eq_some hs₂ with hmem | hrest
  · rw [keysAt, hs₁]
    exact .inl (List.mem_map_of_mem hmem)
  · cases rest?_eq_some hrest
    right
    rw [hs₁, Option.bind_some, at?, hs₂]
    rfl

/-- A shape without settings inside it, so that no key is passed over. -/
def Strict : Shape → Prop
  | settings | heap | ignored => False
  | _ => True

/-- A strict shape leads to strict ones. -/
lemma Strict.next? (hs : s.Strict) (h : s.next? st = some s') : s'.Strict := by
  have hfields : ∀ e ∈ s.fields, e.2.Strict := by
    cases s <;> simp [fields, Strict] at hs ⊢
  cases st with
  | key k =>
    rcases next?_key_eq_some h with hmem | hrest
    · exact hfields _ hmem
    · cases s <;> cases hrest <;> exact hs.elim
  | item i =>
    cases s with
    | entries =>
      cases h
      trivial
    | entry =>
      obtain ⟨e, he, rfl⟩ := Option.map_eq_some_iff.1 h
      exact hfields e (List.mem_of_getElem? he)
    | heap | ignored => exact hs.elim
    | _ => cases h

/-- A strict shape has strict ones at all places. -/
lemma Strict.at? (hs : s.Strict) (h : s.at? p = some s') : s'.Strict := by
  induction p generalizing s with
  | nil =>
    cases h
    exact hs
  | cons st p ih =>
    obtain ⟨s₁, hs₁, h⟩ := Option.bind_eq_some_iff.1 h
    exact ih (hs.next? hs₁) h

/-- The heap has its limit, and other keys are passed over. -/
lemma next?_heap (k : String) : heap.next? (.key k) = some (if k = "max_bytes" then limit else ignored) := by
  split_ifs with hk
  · rw [hk]
    rfl
  · rw [next?, fields, List.lookup_cons, beq_false_of_ne hk]
    rfl

/-- Settings have the heap, and no other key. -/
lemma next?_settings_eq_some : settings.next? (.key k) = some s ↔ k = "heap" ∧ s = heap := by
  constructor
  · intro h
    rcases next?_key_eq_some h with hmem | hrest
    · cases List.mem_singleton.1 hmem
      exact ⟨rfl, rfl⟩
    · cases hrest
  · rintro ⟨rfl, rfl⟩
    rfl

/-- A place of settings where nobody looks is under a key of the heap settings other than the limit. -/
lemma at?_settings_eq_ignored (h : settings.at? p = some ignored) :
    ∃ k, k ≠ "max_bytes" ∧ [.key "heap", .key k] <+: p := by
  have hlimit {p : List Toml.Step} : limit.at? p ≠ some ignored := fun h => Strict.at? (s := limit) trivial h
  rcases p with _ | ⟨_ | i, p⟩
  · cases h
  · obtain ⟨s, hs, h⟩ := Option.bind_eq_some_iff.1 h
    obtain ⟨rfl, rfl⟩ := next?_settings_eq_some.1 hs
    rcases p with _ | ⟨k | _ | i, p⟩
    · cases h
    · rw [at?, next?_heap] at h
      split_ifs at h with hk
      · exact (hlimit h).elim
      · exact ⟨k, hk, p, rfl⟩
    · exact (hlimit h).elim
    · cases h
  · cases h

end Shape

end HostBinding
