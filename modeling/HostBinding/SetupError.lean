import HostBinding.Fault
import HostBinding.HostCall

/-!
# Setup errors

Why settings or a manifest cannot be used.

* `SetupError.message`: the text of an error.
-/

namespace HostBinding

/-- What is wrong with an entry of a manifest. -/
inductive EntryFlaw where
  | unknownSymbol (symbol : String)
  | nameAndSymbol
  | noName
  | methodExtras
  | methodWithoutFunction
  | propertyExtras
  | hooksOnProperty
  | valueOrHandler
  | objectExtras
deriving DecidableEq, Repr

namespace EntryFlaw

/-- The text of a flaw. -/
def text : EntryFlaw → String
  | unknownSymbol s => "'" ++ s ++ "' is not a well-known symbol"
  | nameAndSymbol => "both name and symbol given"
  | noName => "missing name or symbol"
  | methodExtras => "a method only takes 'function' and 'magic'"
  | methodWithoutFunction => "method without 'function'"
  | propertyExtras => "a property takes either 'value' or 'handler'"
  | hooksOnProperty => "'catch_all' and 'enumerator' belong on objects"
  | valueOrHandler => "a property takes exactly one of 'value' or 'handler'"
  | objectExtras => "an object only takes nested entries"

end EntryFlaw

/-- Why settings or a manifest cannot be used. -/
inductive SetupError where
  /-- The file cannot be read, for the reason that the system gives. -/
  | unreadable (path reason : String)
  /-- The text is no TOML document of the right shape. -/
  | malformed
  /-- A function that nobody registered. -/
  | unknownFunction (convention : Convention) (name : String)
  /-- An entry that contradicts itself. -/
  | invalidEntry (entry : String) (flaw : EntryFlaw)
  /-- The prototype cannot be built. -/
  | build (f : Fault)
deriving DecidableEq, Repr

namespace SetupError

/-- The text of an error. What is malformed is not said. -/
def message : SetupError → String
  | unreadable path reason => "cannot read " ++ path ++ ": " ++ reason
  | malformed => "malformed TOML: "
  | unknownFunction c name => "unknown " ++ c.name ++ " function '" ++ name ++ "'"
  | invalidEntry entry flaw => "invalid entry '" ++ entry ++ "': " ++ flaw.text
  | build f => f.message

end SetupError

end HostBinding
