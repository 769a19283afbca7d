import HostBinding.Budget
import HostBinding.SetupError
import HostBinding.Toml.Document

/-!
# Settings

The settings of an engine are a document with at most one table, `heap`, whose `max_bytes` limits the budget. The
document has no other keys; other keys of the table are passed over.

* `Settings.ofTable?`: the settings of a table.
* `Settings.parse`: the settings of a text.
-/

namespace HostBinding

/-- The settings of an engine. -/
structure Settings where
  /-- The most bytes that may be charged. -/
  maxBytes : Option UInt64 := none
deriving DecidableEq, Repr

namespace Settings

instance : Inhabited Settings := ⟨{}⟩

/-- A limit in bytes. -/
def limit? : Toml.Value → Option UInt64
  | .integer i => if 0 ≤ i ∧ i ≤ maxWord then some (UInt64.ofNat i.toNat) else none
  | _ => none

/-- The heap settings: a limit, given once. -/
def heapTable? : Toml.Table → Option (Option UInt64)
  | [] => some none
  | (k, v) :: r =>
    if k = "max_bytes" then
      match limit? v, r.any (fun e => e.1 == "max_bytes") with
      | some m, false => some (some m)
      | _, _ => none
    else heapTable? r

/-- The value of the heap settings: a table, or its values in order. A date counts as a table without a limit. -/
def heap? : Toml.Value → Option (Option UInt64)
  | .table _ entries => heapTable? entries
  | .datetime => some none
  | .array [] => some none
  | .array [v] => (limit? v).map some
  | _ => none

/-- The settings of a table. -/
def ofTable? : Toml.Table → Option Settings
  | [] => some {}
  | [("heap", v)] => (heap? v).map fun m => { maxBytes := m }
  | _ => none

/-- The settings of a text. -/
def parse (text : String) : Except SetupError Settings :=
  match (Toml.parse text).bind ofTable? with
  | some c => .ok c
  | none => .error .malformed

end Settings

end HostBinding
