import HostBinding.Manifest
import HostBinding.Proofs.Layout
import Mathlib.Data.List.Forall2
import Mathlib.Data.Option.Defs

/-!
# Valid manifests

Which manifests a table of host functions accepts, and what definitions they stand for. A manifest is valid if
each of its entries, however deep, has what its kind takes and nothing else, and names only functions that are
registered. These conditions concern one entry at a time, so they are stated for one entry, and say nothing of
the order in which entries are looked at.

* `Manifest.Occurs`: an entry is at some level of a list of entries.
* `Manifest.Entry.Fits`: what has to hold of one entry.
* `Manifest.Valid`: what has to hold of a manifest.
* `Manifest.Entry.Means`, `Manifest.Means`: the definition that an entry, or a manifest, stands for.
* `Manifest.resolveAll_eq_ok`: entries are resolved if they all fit, to what they mean.
* `Manifest.toDefinition_exact`: the main result.
-/

namespace HostBinding

variable {t : HostTable}

/-! ## Lookups -/

/-- Steps that may fail succeed if each does. -/
lemma SetupError.bind_eq_ok {α β : Type} {x : Except SetupError α} {f : α → Except SetupError β} {b : β} :
    (x >>= f) = .ok b ↔ ∃ a, x = .ok a ∧ f a = .ok b := by
  cases x with
  | error e => exact ⟨by rintro ⟨⟩, by rintro ⟨a, ⟨⟩, -⟩⟩
  | ok a => exact ⟨fun h => ⟨a, rfl, h⟩, by rintro ⟨a, ⟨⟩, h⟩; exact h⟩

/-- What is made of a result is a success just if the result is one. -/
lemma SetupError.map_eq_ok {α β : Type} {x : Except SetupError α} {f : α → β} {b : β} :
    x.map f = .ok b ↔ ∃ a, x = .ok a ∧ b = f a := by
  cases x with
  | error e => exact ⟨by rintro ⟨⟩, by rintro ⟨a, ⟨⟩, -⟩⟩
  | ok a => exact ⟨fun h => ⟨a, rfl, (Except.ok.inj h).symm⟩, by rintro ⟨a, ⟨⟩, rfl⟩; rfl⟩

namespace HostTable

variable {c : Convention} {name : String} {f : HostFunction} {o : Option String} {r : Option HostFunction}

/-- The table has the function `f` under a name. -/
def Provides (t : HostTable) (c : Convention) (name : String) (f : HostFunction) : Prop :=
  t.functions.find? (c, name) = some f

/-- A table has a name just if it provides a function under it. -/
lemma has_iff : t.has c name ↔ ∃ f, t.Provides c name f := by
  rw [has, OrderedMap.contains, Option.isSome_iff_exists]
  rfl

/-- There is a function for the name that is given, if one is. -/
lemma exists_rel_iff :
    (∃ r, Option.Rel (t.Provides c) o r) ↔ ∀ name, o = some name → t.has c name := by
  constructor
  · rintro ⟨r, h⟩ name rfl
    cases h with
    | some hf => exact has_iff.2 ⟨_, hf⟩
  · intro h
    cases o with
    | none => exact ⟨none, .none⟩
    | some name =>
      obtain ⟨f, hf⟩ := has_iff.1 (h name rfl)
      exact ⟨some f, .some hf⟩

variable (ht : t.permissive = false)

include ht

/-- A table without stand-ins finds what it has. -/
lemma find_eq_ok : t.find c name = .ok f ↔ t.Provides c name f := by
  rw [find, Provides]
  cases t.functions.find? (c, name) with
  | some g => exact ⟨fun h => congrArg some (Except.ok.inj h), fun h => congrArg Except.ok (Option.some.inj h)⟩
  | none =>
    rw [ht]
    exact ⟨by rintro ⟨⟩, by rintro ⟨⟩⟩

/-- A name that may be missing is found just if its function is provided. -/
lemma find?_eq_ok : t.find? c o = .ok r ↔ Option.Rel (t.Provides c) o r := by
  cases o with
  | none =>
    constructor
    · rintro ⟨⟩
      exact .none
    · rintro ⟨⟩
      rfl
  | some name =>
    rw [find?, SetupError.map_eq_ok]
    constructor
    · rintro ⟨f, hf, rfl⟩
      exact .some ((find_eq_ok ht).1 hf)
    · rintro (hf | _)
      exact ⟨_, (find_eq_ok ht).2 hf, rfl⟩

end HostTable

open SetupError

namespace Manifest

/-! ## Validity -/

/-- An entry is one of a list, or is nested in one of them, at any depth. -/
inductive Occurs (e : Entry) : List Entry → Prop
  | here {es : List Entry} (he : e ∈ es) : Occurs e es
  | inside {es : List Entry} {d : Entry} (hd : d ∈ es) (h : Occurs e d.entries) : Occurs e es

/-- What holds of all entries at all levels holds of those at the first one, and of all below. -/
lemma forall_occurs_cons {P : Entry → Prop} {e : Entry} {es : List Entry} :
    (∀ d, Occurs d (e :: es) → P d) ↔
      (P e ∧ ∀ d, Occurs d e.entries → P d) ∧ ∀ d, Occurs d es → P d := by
  constructor
  · refine fun h => ⟨⟨h e (.here (.head _)), fun d hd => h d (.inside (.head _) hd)⟩, fun d hd => h d ?_⟩
    cases hd with
    | here hd => exact .here (.tail _ hd)
    | inside hd hin => exact .inside (.tail _ hd) hin
  · rintro ⟨⟨he, hin⟩, hes⟩ d (hd | ⟨hd, hd'⟩)
    · rcases List.mem_cons.1 hd with rfl | hd
      · exact he
      · exact hes d (.here hd)
    · rcases List.mem_cons.1 hd with rfl | hd
      · exact hin d hd'
      · exact hes d (.inside hd hd')

/-- Nothing occurs in an empty list. -/
lemma not_occurs_nil {e : Entry} : ¬ Occurs e [] := by
  rintro (h | ⟨h, -⟩)
  all_goals cases h

/-- What holds of no entries, and of an entry and some more if it holds of those nested in it and of the rest,
holds of all entries. -/
lemma levels {P : List Entry → Prop} (nil : P []) (cons : ∀ e es, P e.entries → P es → P (e :: es)) :
    ∀ es, P es
  | [] => nil
  | ⟨_, _, _, _, _, _, _, _, _, _, _, _, entries⟩ :: es =>
    cons _ es (levels nil cons entries) (levels nil cons es)

namespace Entry

/-- An entry has either a name or a symbol, and the symbol is well known. -/
structure Named (e : Entry) : Prop where
  one : (e.name.isSome ∧ e.symbol = none) ∨ (e.name = none ∧ e.symbol.isSome)
  wellKnown : ∀ s, e.symbol = some s → ∃ k : WellKnown, k.name = s

/-- An entry has neither nested entries nor hooks. -/
structure Plain (e : Entry) : Prop where
  entries : e.entries = []
  catchAll : e.catchAll = none
  enumerator : e.enumerator = none

/-- What a method takes: a registered function. -/
structure MethodFields (t : HostTable) (e : Entry) : Prop where
  function : ∃ name, e.function = some name ∧ t.has .method name
  value : e.value = none
  handler : e.handler = none
  plain : e.Plain

/-- What a property takes: either a value or a registered handler. -/
structure PropertyFields (t : HostTable) (e : Entry) : Prop where
  source : (e.value.isSome ∧ e.handler = none) ∨
    (e.value = none ∧ ∃ name, e.handler = some name ∧ t.has .handler name)
  function : e.function = none
  plain : e.Plain

/-- What an object takes: nested entries, and hooks that are registered. -/
structure ObjectFields (t : HostTable) (e : Entry) : Prop where
  value : e.value = none
  handler : e.handler = none
  function : e.function = none
  catchAll : ∀ name, e.catchAll = some name → t.has .catchAll name
  enumerator : ∀ name, e.enumerator = some name → t.has .enumerator name

/-- What an entry takes, by its kind. -/
def Fields (t : HostTable) (e : Entry) : Prop :=
  match e.kind with
  | .method => e.MethodFields t
  | .property => e.PropertyFields t
  | .object => e.ObjectFields t

/-- An entry has a key, and what its kind takes. Its nested entries are left out of account. -/
structure Fits (t : HostTable) (e : Entry) : Prop where
  named : e.Named
  fields : e.Fields t

end Entry

/-- All entries of a manifest fit, and its own hooks are registered. -/
structure Valid (t : HostTable) (m : Manifest) : Prop where
  entries : ∀ e, Occurs e m.entries → e.Fits t
  catchAll : ∀ name, m.catchAll = some name → t.has .catchAll name
  enumerator : ∀ name, m.enumerator = some name → t.has .enumerator name

/-! ## Meaning -/

namespace Entry

/-- The key that an entry stands for: the canonical one of its name, or its well-known symbol. -/
inductive Names (e : Entry) : Key → Prop
  | name {n : String} (hn : e.name = some n) (hs : e.symbol = none) : Names e (.ofString n)
  | symbol {k : WellKnown} (hn : e.name = none) (hs : e.symbol = some k.name) :
    Names e (.symbol (.wellKnown k))

/-- The attributes that an entry gives, and for those that it does not give the ones of its kind. -/
structure Flags (e : Entry) (default a : Attributes) : Prop where
  writable : a.writable = e.writable.getD default.writable
  enumerable : a.enumerable = e.enumerable.getD default.enumerable
  configurable : a.configurable = e.configurable.getD default.configurable

end Entry

/-- The hooks that are named, and no others. -/
structure Hooked (t : HostTable) (catchAll enumerator : Option String) (h : Hooks) : Prop where
  catchAll : Option.Rel (t.Provides .catchAll) catchAll h.catchAll
  enumerator : Option.Rel (t.Provides .enumerator) enumerator h.enumerator

/-- The definition entry that an entry stands for. The nested entries stand for the nested entries, in order. -/
inductive Entry.Means (t : HostTable) : Entry → Definition.Entry → Prop
  | method {e : Entry} {k : Key} {a : Attributes} {name : String} {f : HostFunction}
    (hkind : e.kind = .method) (hk : e.Names k) (ha : e.Flags .method a) (hname : e.function = some name)
    (hf : t.Provides .method name f) : Means t e (.leaf k a (.method f e.magic))
  | literal {e : Entry} {k : Key} {a : Attributes} {text : String}
    (hkind : e.kind = .property) (hk : e.Names k) (ha : e.Flags .all a) (htext : e.value = some text) :
    Means t e (.leaf k a (.literal text))
  | dynamic {e : Entry} {k : Key} {a : Attributes} {name : String} {f : HostFunction}
    (hkind : e.kind = .property) (hk : e.Names k) (ha : e.Flags .all a) (hname : e.handler = some name)
    (hf : t.Provides .handler name f) : Means t e (.leaf k a (.dynamic f e.magic))
  | object {e : Entry} {k : Key} {a : Attributes} {h : Hooks} {ds : List Definition.Entry}
    (hkind : e.kind = .object) (hk : e.Names k) (ha : e.Flags .all a)
    (hh : Hooked t e.catchAll e.enumerator h) (hds : List.Forall₂ (Means t) e.entries ds) :
    Means t e (.nested k a h ds)

/-- The definition that a manifest stands for. -/
structure Means (t : HostTable) (m : Manifest) (d : Definition) : Prop where
  entries : List.Forall₂ (Entry.Means t) m.entries d.entries
  hooks : Hooked t m.catchAll m.enumerator d.hooks

/-! ## Keys, attributes and hooks -/

/-- What is not there is nothing. -/
lemma isSome_eq_false_iff {α : Type} {x : Option α} : x.isSome = false ↔ x = none := by
  rw [Option.isSome_eq_false_iff, Option.isNone_iff_eq_none]

namespace Entry

variable {e : Entry} {k : Key} {a : Attributes}

/-- A well-known symbol is found by its name. -/
lemma wellKnown_ofName?_eq_some {s : String} {k : WellKnown} :
    WellKnown.ofName? s = some k ↔ s = k.name := by
  constructor
  · intro h
    exact (eq_of_beq (List.find?_some (p := fun k : WellKnown => k.name == s) h)).symm
  · rintro rfl
    exact WellKnown.ofName?_name k

/-- An entry has the key that it names. -/
lemma key_eq_ok : e.key = .ok k ↔ e.Names k := by
  constructor
  · intro h
    rw [key] at h
    split at h
    · rename_i n hn hs
      cases h
      exact .name hn hs
    · rename_i s hn hs
      split at h
      · rename_i k hk
        cases h
        exact .symbol hn (hs.trans (congrArg some (wellKnown_ofName?_eq_some.1 hk)))
      · cases h
    · cases h
    · cases h
  · rintro (⟨hn, hs⟩ | ⟨hn, hs⟩)
    · rw [key, hn, hs]
    · rw [key, hn, hs]
      dsimp only
      rw [WellKnown.ofName?_name]

/-- An entry is named just if it names a key. -/
lemma named_iff : e.Named ↔ ∃ k, e.Names k := by
  constructor
  · rintro ⟨⟨hn, hs⟩ | ⟨hn, hs⟩, hk⟩
    · obtain ⟨n, hn⟩ := Option.isSome_iff_exists.1 hn
      exact ⟨_, .name hn hs⟩
    · obtain ⟨s, hs⟩ := Option.isSome_iff_exists.1 hs
      obtain ⟨k, rfl⟩ := hk s hs
      exact ⟨_, .symbol hn hs⟩
  · rintro ⟨k, ⟨hn, hs⟩ | ⟨hn, hs⟩⟩
    · exact ⟨.inl ⟨Option.isSome_of_mem hn, hs⟩, fun s h => by cases hs.symm.trans h⟩
    · exact ⟨.inr ⟨hn, Option.isSome_of_mem hs⟩, fun s h => ⟨_, Option.some.inj (hs.symm.trans h)⟩⟩

/-- The flags of an entry are its attributes. -/
lemma flags_iff {default : Attributes} : e.Flags default a ↔ a = e.attributes default := by
  constructor
  · rintro ⟨hw, he, hc⟩
    cases a
    cases hw
    cases he
    cases hc
    rfl
  · rintro rfl
    exact ⟨rfl, rfl, rfl⟩

/-- An entry is plain just if the check for nested entries and hooks fails. -/
lemma plain_iff : e.Plain ↔ (!e.entries.isEmpty || e.hasHooks) = false := by
  rw [hasHooks, Bool.or_eq_false_iff, Bool.or_eq_false_iff, Bool.not_eq_false', List.isEmpty_iff,
    isSome_eq_false_iff, isSome_eq_false_iff]
  exact ⟨fun h => ⟨h.entries, h.catchAll, h.enumerator⟩, fun ⟨he, hc, hn⟩ => ⟨he, hc, hn⟩⟩

end Entry

/-- Nothing occurs in a plain entry. -/
lemma Entry.Plain.forall_occurs {P : Entry → Prop} {e : Entry} (h : e.Plain) (d : Entry)
    (hd : Occurs d e.entries) : P d := by
  rw [h.entries] at hd
  exact (not_occurs_nil hd).elim

/-- There are hooks for some names just if all of them are registered. -/
lemma exists_hooked_iff {c n : Option String} :
    (∃ h, Hooked t c n h) ↔
      (∀ name, c = some name → t.has .catchAll name) ∧ ∀ name, n = some name → t.has .enumerator name := by
  rw [← HostTable.exists_rel_iff, ← HostTable.exists_rel_iff]
  constructor
  · rintro ⟨h, hc, hn⟩
    exact ⟨⟨_, hc⟩, ⟨_, hn⟩⟩
  · rintro ⟨⟨f, hf⟩, ⟨g, hg⟩⟩
    exact ⟨⟨f, g⟩, hf, hg⟩

/-! ## Valid manifests mean something -/

/-- Every entry that fits means something, if those nested in it do. -/
lemma Entry.Fits.exists_means {e : Entry} (h : e.Fits t)
    (hnested : ∃ ds, List.Forall₂ (Entry.Means t) e.entries ds) : ∃ d, e.Means t d := by
  obtain ⟨hnamed, hfields⟩ := h
  obtain ⟨k, hk⟩ := named_iff.1 hnamed
  rw [Fields] at hfields
  cases hkind : e.kind with
  | method =>
    rw [hkind] at hfields
    obtain ⟨name, hname, hhas⟩ := hfields.function
    obtain ⟨f, hf⟩ := HostTable.has_iff.1 hhas
    exact ⟨_, .method hkind hk (flags_iff.2 rfl) hname hf⟩
  | property =>
    rw [hkind] at hfields
    rcases hfields.source with ⟨hvalue, -⟩ | ⟨-, name, hname, hhas⟩
    · obtain ⟨text, htext⟩ := Option.isSome_iff_exists.1 hvalue
      exact ⟨_, .literal hkind hk (flags_iff.2 rfl) htext⟩
    · obtain ⟨f, hf⟩ := HostTable.has_iff.1 hhas
      exact ⟨_, .dynamic hkind hk (flags_iff.2 rfl) hname hf⟩
  | object =>
    rw [hkind] at hfields
    obtain ⟨ds, hds⟩ := hnested
    obtain ⟨hs, hhs⟩ := exists_hooked_iff.2 ⟨hfields.catchAll, hfields.enumerator⟩
    exact ⟨_, .object hkind hk (flags_iff.2 rfl) hhs hds⟩

/-- Entries that fit, at every level, have a meaning. -/
lemma exists_means (es : List Entry) (h : ∀ e, Occurs e es → e.Fits t) :
    ∃ ds, List.Forall₂ (Entry.Means t) es ds := by
  induction es using levels with
  | nil => exact ⟨[], .nil⟩
  | cons e es he hes =>
    obtain ⟨⟨hfits, hnested⟩, hall⟩ := forall_occurs_cons.1 h
    obtain ⟨d, hd⟩ := hfits.exists_means (he hnested)
    obtain ⟨ds, hds⟩ := hes hall
    exact ⟨d :: ds, .cons hd hds⟩

/-- A valid manifest has a meaning. -/
lemma Valid.exists_means {m : Manifest} (h : m.Valid t) : ∃ d, m.Means t d := by
  obtain ⟨ds, hds⟩ := Manifest.exists_means m.entries h.entries
  obtain ⟨hs, hhs⟩ := exists_hooked_iff.2 ⟨h.catchAll, h.enumerator⟩
  exact ⟨⟨ds, hs⟩, hds, hhs⟩

/-! ## Entries -/

/-- An entry is resolved as its kind says. -/
lemma resolve_eq (t : HostTable) (e : Entry) : resolve t e = e.key >>= fun key =>
    match e.kind with
    | .method => e.methodLeaf t >>= fun c => .ok (.leaf key (e.attributes c.attributes) c)
    | .property => e.propertyLeaf t >>= fun c => .ok (.leaf key (e.attributes c.attributes) c)
    | .object =>
      if e.value.isSome || e.handler.isSome || e.function.isSome then .error (e.invalid .objectExtras)
      else resolveAll t e.entries >>= fun ds => hooks t e.catchAll e.enumerator >>= fun h =>
        .ok (.nested key (e.attributes .all) h ds) := by
  cases e
  rw [resolve]
  rfl

/-- Some entries are resolved to some definition entries if they all fit, at every level, and this is what they
mean. -/
def Resolved (t : HostTable) (es : List Entry) : Prop :=
  ∀ ds, resolveAll t es = .ok ds ↔ (∀ e, Occurs e es → e.Fits t) ∧ List.Forall₂ (Entry.Means t) es ds

variable (ht : t.permissive = false)

include ht

/-- The hooks are found just if they are those that are named. -/
lemma hooks_eq_ok {c n : Option String} {h : Hooks} : hooks t c n = .ok h ↔ Hooked t c n h := by
  rw [hooks, bind_eq_ok]
  constructor
  · rintro ⟨f, hf, h⟩
    obtain ⟨g, hg, ⟨⟩⟩ := bind_eq_ok.1 h
    exact ⟨(HostTable.find?_eq_ok ht).1 hf, (HostTable.find?_eq_ok ht).1 hg⟩
  · rintro ⟨hf, hg⟩
    exact ⟨_, (HostTable.find?_eq_ok ht).2 hf, bind_eq_ok.2 ⟨_, (HostTable.find?_eq_ok ht).2 hg, rfl⟩⟩

namespace Entry

variable {e : Entry} {c : Definition.Leaf}

/-- A method is made just if its fields are in order, from its function and tag. -/
lemma methodLeaf_eq_ok : e.methodLeaf t = .ok c ↔ e.MethodFields t ∧
    ∃ name f, e.function = some name ∧ t.Provides .method name f ∧ c = .method f e.magic := by
  have hextras : (e.value.isSome || e.handler.isSome || !e.entries.isEmpty || e.hasHooks) = false ↔
      (e.value = none ∧ e.handler = none) ∧ e.Plain := by
    rw [Bool.or_assoc, Bool.or_eq_false_iff, ← plain_iff, Bool.or_eq_false_iff, isSome_eq_false_iff,
      isSome_eq_false_iff]
  constructor
  · intro h
    rw [methodLeaf] at h
    split at h
    · cases h
    · rename_i hif
      obtain ⟨⟨hvalue, hhandler⟩, hplain⟩ := hextras.1 (Bool.eq_false_of_not_eq_true hif)
      split at h
      · rename_i name hname
        obtain ⟨f, hf, rfl⟩ := map_eq_ok.1 h
        have hf := (HostTable.find_eq_ok ht).1 hf
        exact ⟨⟨⟨name, hname, HostTable.has_iff.2 ⟨f, hf⟩⟩, hvalue, hhandler, hplain⟩,
          name, f, hname, hf, rfl⟩
      · cases h
  · rintro ⟨⟨-, hvalue, hhandler, hplain⟩, name, f, hname, hf, rfl⟩
    rw [methodLeaf, hextras.2 ⟨⟨hvalue, hhandler⟩, hplain⟩, if_neg Bool.false_ne_true, hname]
    exact map_eq_ok.2 ⟨f, (HostTable.find_eq_ok ht).2 hf, rfl⟩

/-- A property is made just if its fields are in order, from its text or its handler. -/
lemma propertyLeaf_eq_ok : e.propertyLeaf t = .ok c ↔ e.PropertyFields t ∧
    ((∃ text, e.value = some text ∧ c = .literal text) ∨
      ∃ name f, e.handler = some name ∧ t.Provides .handler name f ∧ c = .dynamic f e.magic) := by
  -- Nested entries and hooks are refused in two checks, which together say that the entry is plain.
  have hextras : (e.function.isSome || !e.entries.isEmpty || e.hasHooks) = false ↔
      e.function = none ∧ e.Plain := by
    rw [Bool.or_assoc, Bool.or_eq_false_iff, ← plain_iff, isSome_eq_false_iff]
  constructor
  · intro h
    rw [propertyLeaf] at h
    split at h
    · cases h
    · rename_i hif
      split at h
      · cases h
      · rename_i hif'
        obtain ⟨hfunction, hplain⟩ := hextras.1 (Bool.or_eq_false_iff.2
          ⟨Bool.eq_false_of_not_eq_true hif, Bool.eq_false_of_not_eq_true hif'⟩)
        split at h
        · rename_i text hvalue hhandler
          cases h
          exact ⟨⟨.inl ⟨Option.isSome_of_mem hvalue, hhandler⟩, hfunction, hplain⟩, .inl ⟨text, hvalue, rfl⟩⟩
        · rename_i name hvalue hname
          obtain ⟨f, hf, rfl⟩ := map_eq_ok.1 h
          have hf := (HostTable.find_eq_ok ht).1 hf
          exact ⟨⟨.inr ⟨hvalue, name, hname, HostTable.has_iff.2 ⟨f, hf⟩⟩, hfunction, hplain⟩,
            .inr ⟨name, f, hname, hf, rfl⟩⟩
        · cases h
  · rintro ⟨⟨hsource, hfunction, hplain⟩, hc⟩
    obtain ⟨hif, hif'⟩ := Bool.or_eq_false_iff.1 (hextras.2 ⟨hfunction, hplain⟩)
    rw [propertyLeaf, hif, hif', if_neg Bool.false_ne_true, if_neg Bool.false_ne_true]
    rcases hc with ⟨text, hvalue, rfl⟩ | ⟨name, f, hname, hf, rfl⟩
    · rcases hsource with ⟨-, hhandler⟩ | ⟨hvalue', -⟩
      · rw [hvalue, hhandler]
      · cases hvalue'.symm.trans hvalue
    · rcases hsource with ⟨-, hhandler⟩ | ⟨hvalue, -⟩
      · cases hhandler.symm.trans hname
      · rw [hvalue, hname]
        exact map_eq_ok.2 ⟨f, (HostTable.find_eq_ok ht).2 hf, rfl⟩

end Entry

variable {e : Entry}

/-- A method is resolved to what it means, if it fits. -/
lemma resolve_method (hkind : e.kind = .method) (d : Definition.Entry) :
    resolve t e = .ok d ↔ (e.Fits t ∧ ∀ e', Occurs e' e.entries → e'.Fits t) ∧ e.Means t d := by
  rw [resolve_eq, bind_eq_ok, hkind]
  constructor
  · rintro ⟨k, hk, h⟩
    have hk := Entry.key_eq_ok.1 hk
    obtain ⟨c, hc, ⟨⟩⟩ := bind_eq_ok.1 h
    obtain ⟨hfields, name, f, hname, hf, rfl⟩ := (Entry.methodLeaf_eq_ok ht).1 hc
    refine ⟨⟨⟨Entry.named_iff.2 ⟨k, hk⟩, ?_⟩, hfields.plain.forall_occurs⟩,
      .method hkind hk (Entry.flags_iff.2 rfl) hname hf⟩
    rwa [Entry.Fields, hkind]
  · rintro ⟨⟨⟨-, hfields⟩, -⟩, hmeans⟩
    rw [Entry.Fields, hkind] at hfields
    rcases hmeans with ⟨-, hk, ha, hname, hf⟩ | ⟨hkind', _⟩ | ⟨hkind', _⟩ | ⟨hkind', _⟩
    · obtain rfl := Entry.flags_iff.1 ha
      exact ⟨_, Entry.key_eq_ok.2 hk,
        bind_eq_ok.2 ⟨_, (Entry.methodLeaf_eq_ok ht).2 ⟨hfields, _, _, hname, hf, rfl⟩, rfl⟩⟩
    all_goals cases hkind.symm.trans hkind'

/-- A property is resolved to what it means, if it fits. -/
lemma resolve_property (hkind : e.kind = .property) (d : Definition.Entry) :
    resolve t e = .ok d ↔ (e.Fits t ∧ ∀ e', Occurs e' e.entries → e'.Fits t) ∧ e.Means t d := by
  rw [resolve_eq, bind_eq_ok, hkind]
  constructor
  · rintro ⟨k, hk, h⟩
    have hk := Entry.key_eq_ok.1 hk
    obtain ⟨c, hc, ⟨⟩⟩ := bind_eq_ok.1 h
    obtain ⟨hfields, hsource⟩ := (Entry.propertyLeaf_eq_ok ht).1 hc
    refine ⟨⟨⟨Entry.named_iff.2 ⟨k, hk⟩, ?_⟩, hfields.plain.forall_occurs⟩, ?_⟩
    · rwa [Entry.Fields, hkind]
    · rcases hsource with ⟨text, htext, rfl⟩ | ⟨name, f, hname, hf, rfl⟩
      · exact .literal hkind hk (Entry.flags_iff.2 rfl) htext
      · exact .dynamic hkind hk (Entry.flags_iff.2 rfl) hname hf
  · rintro ⟨⟨⟨-, hfields⟩, -⟩, hmeans⟩
    rw [Entry.Fields, hkind] at hfields
    rcases hmeans with ⟨hkind', _⟩ | ⟨-, hk, ha, htext⟩ | ⟨-, hk, ha, hname, hf⟩ | ⟨hkind', _⟩
    · cases hkind.symm.trans hkind'
    · obtain rfl := Entry.flags_iff.1 ha
      exact ⟨_, Entry.key_eq_ok.2 hk,
        bind_eq_ok.2 ⟨_, (Entry.propertyLeaf_eq_ok ht).2 ⟨hfields, .inl ⟨_, htext, rfl⟩⟩, rfl⟩⟩
    · obtain rfl := Entry.flags_iff.1 ha
      exact ⟨_, Entry.key_eq_ok.2 hk, bind_eq_ok.2
        ⟨_, (Entry.propertyLeaf_eq_ok ht).2 ⟨hfields, .inr ⟨_, _, hname, hf, rfl⟩⟩, rfl⟩⟩
    · cases hkind.symm.trans hkind'

/-- An object is resolved if it fits, and its nested entries are resolved. -/
lemma resolve_object (hkind : e.kind = .object) (he : Resolved t e.entries) (d : Definition.Entry) :
    resolve t e = .ok d ↔ (e.Fits t ∧ ∀ e', Occurs e' e.entries → e'.Fits t) ∧ e.Means t d := by
  -- One check covers the three fields that an object must not have.
  have hextras : (e.value.isSome || e.handler.isSome || e.function.isSome) = false ↔
      e.value = none ∧ e.handler = none ∧ e.function = none := by
    rw [Bool.or_eq_false_iff, Bool.or_eq_false_iff, isSome_eq_false_iff, isSome_eq_false_iff,
      isSome_eq_false_iff, and_assoc]
  rw [resolve_eq, bind_eq_ok, hkind]
  dsimp only
  constructor
  · rintro ⟨k, hk, h⟩
    have hk := Entry.key_eq_ok.1 hk
    split at h
    · cases h
    · rename_i hif
      obtain ⟨hvalue, hhandler, hfunction⟩ := hextras.1 (Bool.eq_false_of_not_eq_true hif)
      obtain ⟨ds, hds, h⟩ := bind_eq_ok.1 h
      obtain ⟨hs, hhs, ⟨⟩⟩ := bind_eq_ok.1 h
      obtain ⟨hnested, hds⟩ := (he ds).1 hds
      have hhs := (hooks_eq_ok ht).1 hhs
      obtain ⟨hcatchAll, henumerator⟩ := exists_hooked_iff.1 ⟨hs, hhs⟩
      refine ⟨⟨⟨Entry.named_iff.2 ⟨k, hk⟩, ?_⟩, hnested⟩, .object hkind hk (Entry.flags_iff.2 rfl) hhs hds⟩
      rw [Entry.Fields, hkind]
      exact ⟨hvalue, hhandler, hfunction, hcatchAll, henumerator⟩
  · rintro ⟨⟨⟨-, hfields⟩, hnested⟩, hmeans⟩
    rw [Entry.Fields, hkind] at hfields
    rcases hmeans with ⟨hkind', _⟩ | ⟨hkind', _⟩ | ⟨hkind', _⟩ | ⟨-, hk, ha, hhs, hds⟩
    · cases hkind.symm.trans hkind'
    · cases hkind.symm.trans hkind'
    · cases hkind.symm.trans hkind'
    · obtain rfl := Entry.flags_iff.1 ha
      refine ⟨_, Entry.key_eq_ok.2 hk, ?_⟩
      rw [hextras.2 ⟨hfields.value, hfields.handler, hfields.function⟩, if_neg Bool.false_ne_true]
      exact bind_eq_ok.2 ⟨_, (he _).2 ⟨hnested, hds⟩, bind_eq_ok.2 ⟨_, (hooks_eq_ok ht).2 hhs, rfl⟩⟩

/-- An entry is resolved if it fits, and those nested in it are resolved. -/
lemma resolve_eq_ok (he : Resolved t e.entries) (d : Definition.Entry) :
    resolve t e = .ok d ↔ (e.Fits t ∧ ∀ e', Occurs e' e.entries → e'.Fits t) ∧ e.Means t d := by
  cases hkind : e.kind with
  | method => exact resolve_method ht hkind d
  | property => exact resolve_property ht hkind d
  | object => exact resolve_object ht hkind he d

/-! ## Manifests -/

/-- Entries are resolved to what they mean, if they all fit. -/
lemma resolveAll_eq_ok (es : List Entry) : Resolved t es := by
  induction es using levels with
  | nil =>
    intro ds
    constructor
    · rintro ⟨⟩
      exact ⟨fun e h => (not_occurs_nil h).elim, .nil⟩
    · rintro ⟨-, ⟨⟩⟩
      rfl
  | cons e es he hes =>
    intro ds
    rw [resolveAll, bind_eq_ok, forall_occurs_cons]
    constructor
    · rintro ⟨d, hd, h⟩
      obtain ⟨ds, hds, ⟨⟩⟩ := bind_eq_ok.1 h
      obtain ⟨hfits, hmeans⟩ := (resolve_eq_ok ht he d).1 hd
      obtain ⟨hall, hmeansAll⟩ := (hes ds).1 hds
      exact ⟨⟨hfits, hall⟩, .cons hmeans hmeansAll⟩
    · rintro ⟨⟨hfits, hall⟩, hmeans⟩
      cases hmeans with
      | cons hmeans hmeansAll =>
        exact ⟨_, (resolve_eq_ok ht he _).2 ⟨hfits, hmeans⟩,
          bind_eq_ok.2 ⟨_, (hes _).2 ⟨hall, hmeansAll⟩, rfl⟩⟩

/-- A manifest is resolved to what it means, if it is valid. -/
lemma toDefinition_eq_ok {m : Manifest} {d : Definition} :
    m.toDefinition t = .ok d ↔ m.Valid t ∧ m.Means t d := by
  rw [toDefinition, bind_eq_ok]
  constructor
  · rintro ⟨ds, hds, h⟩
    obtain ⟨hs, hhs, ⟨⟩⟩ := bind_eq_ok.1 h
    obtain ⟨hfits, hmeans⟩ := (resolveAll_eq_ok ht m.entries ds).1 hds
    have hhs := (hooks_eq_ok ht).1 hhs
    obtain ⟨hcatchAll, henumerator⟩ := exists_hooked_iff.1 ⟨hs, hhs⟩
    exact ⟨⟨hfits, hcatchAll, henumerator⟩, hmeans, hhs⟩
  · rintro ⟨hvalid, hmeans, hhs⟩
    exact ⟨_, (resolveAll_eq_ok ht m.entries _).2 ⟨hvalid.entries, hmeans⟩,
      bind_eq_ok.2 ⟨_, (hooks_eq_ok ht).2 hhs, rfl⟩⟩

/-- A table without stand-ins accepts the valid manifests and no others, and a manifest that it accepts is
resolved to the definition that it stands for: the same entries in the same order at each level, with the
functions that the table has for the names. -/
theorem toDefinition_exact (m : Manifest) :
    ((∃ d, m.toDefinition t = .ok d) ↔ m.Valid t) ∧
      ∀ d, m.toDefinition t = .ok d ↔ m.Valid t ∧ m.Means t d := by
  refine ⟨⟨?_, fun h => ?_⟩, fun d => toDefinition_eq_ok ht⟩
  · rintro ⟨d, hd⟩
    exact ((toDefinition_eq_ok ht).1 hd).1
  · obtain ⟨d, hd⟩ := h.exists_means
    exact ⟨d, (toDefinition_eq_ok ht).2 ⟨h, hd⟩⟩

end Manifest

/-! ## An example -/

/-- The functions that a host offers for `Manifest.fileSystem`. -/
def HostTable.fileSystem : HostTable :=
  (((({} : HostTable).register .method "open" (.hosted 0)).register .handler "size" (.hosted 0)).register
    .catchAll "env" (.hosted 0)).register .enumerator "env" (.hosted 0)

/-- The manifest of `Definition.fileSystem`. -/
def Manifest.fileSystem : Manifest where
  entries := [
    { (default : Entry) with
      name := some "version", value := some "1.0"
      writable := some false, enumerable := some false, configurable := some false },
    { (default : Entry) with
      name := some "fs", kind := .object
      entries := [
        { (default : Entry) with name := some "open", kind := .method, function := some "open", magic := 1 },
        { (default : Entry) with
          name := some "stat", kind := .object, enumerable := some false
          entries := [{ (default : Entry) with name := some "size", handler := some "size", magic := 2 }] }] },
    { (default : Entry) with
      name := some "env", kind := .object, catchAll := some "env", enumerator := some "env" }]

/-- The manifest is valid for a host that offers its functions, and not for a host that offers none. -/
theorem Manifest.fileSystem_exact :
    HostTable.fileSystem.permissive = false ∧ Manifest.fileSystem.Valid .fileSystem ∧
      Manifest.fileSystem.Means .fileSystem .fileSystem ∧ ¬ Manifest.fileSystem.Valid {} := by
  have hresolved : Manifest.fileSystem.toDefinition .fileSystem = .ok .fileSystem := rfl
  obtain ⟨hvalid, hmeans⟩ := ((toDefinition_exact rfl Manifest.fileSystem).2 _).1 hresolved
  refine ⟨rfl, hvalid, hmeans, fun h => ?_⟩
  obtain ⟨d, hd⟩ := (toDefinition_exact rfl Manifest.fileSystem).1.2 h
  cases hd

end HostBinding
