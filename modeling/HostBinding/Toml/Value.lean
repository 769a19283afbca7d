/-!
# TOML values

A document is a table. Tables keep the order and the repetitions of their keys, because a reader may have to
object to a repetition. Of a floating-point number and of a date only the kind is kept.

* `Toml.Table`: the entries of a table.
-/

namespace HostBinding

namespace Toml

/-- How a table is written. -/
inductive Form where
  /-- Between braces. -/
  | inline
  /-- By dotted keys. -/
  | dotted
  /-- Under a header. -/
  | header
deriving DecidableEq, Repr

/-- A value. -/
inductive Value where
  | string (s : String)
  | integer (i : Int)
  | float
  | boolean (b : Bool)
  | datetime
  | array (items : List Value)
  | table (form : Form) (entries : List (String × Value))

instance : Inhabited Value := ⟨.float⟩

/-- The entries of a table, in order. -/
abbrev Table : Type := List (String × Value)

end Toml

end HostBinding
