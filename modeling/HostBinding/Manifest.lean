import HostBinding.Build
import HostBinding.HostTable
import HostBinding.Toml.Document

/-!
# Manifests

A definition table written in TOML. Entries name the host functions they need; resolving a manifest looks the
names up in a table of host functions and checks that each entry has what its kind takes and nothing else.

* `Manifest.ofTable?`: the manifest of a table. Keys that manifests do not have are errors at every level.
* `Manifest.toDefinition`: the definition that a manifest stands for.
* `Manifest.build`: its prototype.
-/

namespace HostBinding

namespace Manifest

/-- The kinds of entries. -/
inductive Kind where
  | method
  | property
  | object
deriving DecidableEq, Repr

namespace Kind

/-- The name of a kind. -/
def name : Kind → String
  | method => "method"
  | property => "property"
  | object => "object"

/-- The kind with a name. -/
def ofName? (s : String) : Option Kind := [method, property, object].find? (·.name == s)

end Kind

/-- An entry of a manifest. -/
structure Entry where
  name : Option String
  symbol : Option String
  kind : Kind
  value : Option String
  function : Option String
  handler : Option String
  magic : Int32
  writable : Option Bool
  enumerable : Option Bool
  configurable : Option Bool
  catchAll : Option String
  enumerator : Option String
  entries : List Entry

instance : Inhabited Entry :=
  ⟨⟨none, none, .property, none, none, none, 0, none, none, none, none, none, []⟩⟩

end Manifest

/-- A manifest. -/
structure Manifest where
  catchAll : Option String := none
  enumerator : Option String := none
  entries : List Manifest.Entry := []

namespace Manifest

instance : Inhabited Manifest := ⟨{}⟩

/-! ## Reading -/

/-- The fields of an entry read so far. -/
structure Draft where
  name : Option String := none
  symbol : Option String := none
  kind : Option Kind := none
  value : Option String := none
  function : Option String := none
  handler : Option String := none
  magic : Option Int32 := none
  writable : Option Bool := none
  enumerable : Option Bool := none
  configurable : Option Bool := none
  catchAll : Option String := none
  enumerator : Option String := none
  entries : Option (List Entry) := none

instance : Inhabited Draft := ⟨{}⟩

/-- The entry of a draft, which must have a kind. -/
def Draft.finish (d : Draft) : Option Entry := do
  let kind ← d.kind
  return {
    name := d.name, symbol := d.symbol, kind := kind, value := d.value, function := d.function
    handler := d.handler, magic := d.magic.getD 0, writable := d.writable
    enumerable := d.enumerable, configurable := d.configurable, catchAll := d.catchAll
    enumerator := d.enumerator, entries := d.entries.getD [] }

/-- A string. -/
def string? : Toml.Value → Option String
  | .string s => some s
  | _ => none

/-- A boolean. -/
def boolean? : Toml.Value → Option Bool
  | .boolean b => some b
  | _ => none

/-- An integer of 32 bits. -/
def magic? : Toml.Value → Option Int32
  | .integer i =>
    if Int32.minValue.toInt ≤ i ∧ i ≤ Int32.maxValue.toInt then some (Int32.ofInt i) else none
  | _ => none

/-- A kind: its name, or an inline table with its name as the only key and an empty table under it. -/
def kind? : Toml.Value → Option Kind
  | .string s => Kind.ofName? s
  | .table .inline [(s, .table _ [])] => Kind.ofName? s
  | _ => none

/-- A field that has not been read before. -/
def once {α : Type} (old : Option α) (new : Option α) : Option (Option α) :=
  match old, new with
  | none, some a => some (some a)
  | _, _ => none

mutual

/-- An entry: a table, or the values of all fields in order, of which the nested entries may be left out. -/
def entry? : Toml.Value → Option Entry
  | .table _ fields => do
    let d ← draft? {} fields
    d.finish
  | .array (nm :: sy :: kd :: vl :: fn :: hd :: mg :: wr :: en :: cf :: ca :: er :: more) => do
    let d : Draft := {
      name := some (← string? nm), symbol := some (← string? sy), kind := some (← kind? kd)
      value := some (← string? vl), function := some (← string? fn)
      handler := some (← string? hd), magic := some (← magic? mg)
      writable := some (← boolean? wr), enumerable := some (← boolean? en)
      configurable := some (← boolean? cf), catchAll := some (← string? ca)
      enumerator := some (← string? er) }
    match more with
    | [] => d.finish
    | [v] => do
      let es ← entries? v
      Draft.finish { d with entries := some es }
    | _ => none
  | _ => none

/-- The fields of an entry, added to a draft. -/
def draft? (d : Draft) : Toml.Table → Option Draft
  | [] => some d
  | f :: fs => do
    let d' ← field? d f
    draft? d' fs

/-- One field of an entry, added to a draft. No field is given twice, and there are no others. -/
def field? (d : Draft) : String × Toml.Value → Option Draft
  | (k, v) =>
    match k with
    | "name" => (once d.name (string? v)).map fun x => { d with name := x }
    | "symbol" => (once d.symbol (string? v)).map fun x => { d with symbol := x }
    | "kind" => (once d.kind (kind? v)).map fun x => { d with kind := x }
    | "value" => (once d.value (string? v)).map fun x => { d with value := x }
    | "function" => (once d.function (string? v)).map fun x => { d with function := x }
    | "handler" => (once d.handler (string? v)).map fun x => { d with handler := x }
    | "magic" => (once d.magic (magic? v)).map fun x => { d with magic := x }
    | "writable" => (once d.writable (boolean? v)).map fun x => { d with writable := x }
    | "enumerable" => (once d.enumerable (boolean? v)).map fun x => { d with enumerable := x }
    | "configurable" => (once d.configurable (boolean? v)).map fun x => { d with configurable := x }
    | "catch_all" => (once d.catchAll (string? v)).map fun x => { d with catchAll := x }
    | "enumerator" => (once d.enumerator (string? v)).map fun x => { d with enumerator := x }
    | "entry" => (once d.entries (entries? v)).map fun x => { d with entries := x }
    | _ => none

/-- A list of entries. -/
def entries? : Toml.Value → Option (List Entry)
  | .array items => items? items
  | _ => none

/-- The entries of some values. -/
def items? : List Toml.Value → Option (List Entry)
  | [] => some []
  | v :: vs => do
    let e ← entry? v
    let es ← items? vs
    return e :: es

end

/-- The fields of a manifest read so far: its hooks, and its entries if there were any. -/
structure RootDraft where
  catchAll : Option String := none
  enumerator : Option String := none
  entries : Option (List Entry) := none

/-- The fields of a manifest, added to a draft. -/
def rootDraft? (d : RootDraft) : Toml.Table → Option RootDraft
  | [] => some d
  | (k, v) :: fs => do
    let d' ←
      match k with
      | "catch_all" => (once d.catchAll (string? v)).map fun x => { d with catchAll := x }
      | "enumerator" => (once d.enumerator (string? v)).map fun x => { d with enumerator := x }
      | "entry" => (once d.entries (entries? v)).map fun x => { d with entries := x }
      | _ => none
    rootDraft? d' fs

/-- The manifest of a table. -/
def ofTable? (t : Toml.Table) : Option Manifest :=
  (rootDraft? {} t).map fun d => ⟨d.catchAll, d.enumerator, d.entries.getD []⟩

/-- The manifest of a text. -/
def parse (text : String) : Except SetupError Manifest :=
  match (Toml.parse text).bind ofTable? with
  | some m => .ok m
  | none => .error .malformed

/-! ## Resolving -/

namespace Entry

/-- What messages call an entry. -/
def label (e : Entry) : String := (e.name <|> e.symbol).getD "<unnamed>"

/-- An error about an entry. -/
def invalid (e : Entry) (flaw : EntryFlaw) : SetupError := .invalidEntry e.label flaw

/-- The key of an entry: of its name, or its well-known symbol. -/
def key (e : Entry) : Except SetupError Key :=
  match e.name, e.symbol with
  | some n, none => .ok (.ofString n)
  | none, some s =>
    match WellKnown.ofName? s with
    | some k => .ok (.symbol (.wellKnown k))
    | none => .error (e.invalid (.unknownSymbol s))
  | some _, some _ => .error (e.invalid .nameAndSymbol)
  | none, none => .error (e.invalid .noName)

/-- Whether an entry has hooks. -/
def hasHooks (e : Entry) : Bool := e.catchAll.isSome || e.enumerator.isSome

/-- The attributes of an entry, where those it does not give are `default`. -/
def attributes (e : Entry) (default : Attributes) : Attributes where
  writable := e.writable.getD default.writable
  enumerable := e.enumerable.getD default.enumerable
  configurable := e.configurable.getD default.configurable

/-- The content of a method entry. -/
def methodLeaf (e : Entry) (t : HostTable) : Except SetupError Definition.Leaf :=
  if e.value.isSome || e.handler.isSome || !e.entries.isEmpty || e.hasHooks then
    .error (e.invalid .methodExtras)
  else
    match e.function with
    | some name => (t.find .method name).map fun f => .method f e.magic
    | none => .error (e.invalid .methodWithoutFunction)

/-- The content of a property entry. -/
def propertyLeaf (e : Entry) (t : HostTable) : Except SetupError Definition.Leaf :=
  if e.function.isSome || !e.entries.isEmpty then .error (e.invalid .propertyExtras)
  else if e.hasHooks then .error (e.invalid .hooksOnProperty)
  else
    match e.value, e.handler with
    | some s, none => .ok (.literal s)
    | none, some name => (t.find .handler name).map fun f => .dynamic f e.magic
    | _, _ => .error (e.invalid .valueOrHandler)

end Entry

/-- The hooks of some names. -/
def hooks (t : HostTable) (catchAll enumerator : Option String) : Except SetupError Hooks := do
  let c ← t.find? .catchAll catchAll
  let e ← t.find? .enumerator enumerator
  return ⟨c, e⟩

mutual

/-- The definition entry that an entry stands for. -/
def resolve (t : HostTable) : Entry → Except SetupError Definition.Entry
  | ⟨nm, sy, kind, vl, fn, hd, mg, wr, en, cf, ca, er, entries⟩ =>
    let e : Entry := ⟨nm, sy, kind, vl, fn, hd, mg, wr, en, cf, ca, er, entries⟩
    do
    let key ← e.key
    match kind with
    | .method => do
      let c ← e.methodLeaf t
      return .leaf key (e.attributes c.attributes) c
    | .property => do
      let c ← e.propertyLeaf t
      return .leaf key (e.attributes c.attributes) c
    | .object =>
      if vl.isSome || hd.isSome || fn.isSome then .error (e.invalid .objectExtras)
      else do
        let es ← resolveAll t entries
        let h ← hooks t ca er
        return .nested key (e.attributes .all) h es

/-- The definition entries of some entries, in order. -/
def resolveAll (t : HostTable) : List Entry → Except SetupError (List Definition.Entry)
  | [] => .ok []
  | e :: es => do
    let d ← resolve t e
    let ds ← resolveAll t es
    return d :: ds

end

/-- The definition that a manifest stands for. -/
def toDefinition (m : Manifest) (t : HostTable) : Except SetupError Definition := do
  let es ← resolveAll t m.entries
  let h ← hooks t m.catchAll m.enumerator
  return ⟨es, h⟩

/-- Resolves a manifest and builds its prototype, in a world that only a build changes. -/
def build (m : Manifest) (t : HostTable) (w : World) : Except SetupError Prototype × World :=
  match m.toDefinition t with
  | .error e => (.error e, w)
  | .ok d =>
    match (d.build .all).runIn w with
    | (.ok p, w') => (.ok p, w')
    | (.error f, w') => (.error (.build f), w')

end Manifest

end HostBinding
