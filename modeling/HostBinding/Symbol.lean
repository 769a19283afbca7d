/-!
# Symbols

A symbol is a name that nothing else equals: two symbols made apart differ, whatever their descriptions.
Four of them are known to every script by a spelled-out name.
-/

namespace HostBinding

/-- The symbols every script knows. -/
inductive WellKnown where
  | hasInstance
  | iterator
  | toPrimitive
  | toStringTag
deriving DecidableEq, Repr

namespace WellKnown

/-- The spelled-out name, which is also the description. -/
def name : WellKnown → String
  | hasInstance => "Symbol.hasInstance"
  | iterator => "Symbol.iterator"
  | toPrimitive => "Symbol.toPrimitive"
  | toStringTag => "Symbol.toStringTag"

/-- All of them. -/
def all : List WellKnown := [hasInstance, iterator, toPrimitive, toStringTag]

/-- The well-known symbol with a spelled-out name. -/
def ofName? (name : String) : Option WellKnown := all.find? (·.name == name)

/-- Each well-known symbol is found by its name. -/
theorem ofName?_name (s : WellKnown) : ofName? s.name = some s := by cases s <;> decide

end WellKnown

/-- A symbol. Symbols made by a script or a host are told apart by their number. -/
inductive Symbol where
  | wellKnown (s : WellKnown)
  | fresh (number : Nat) (description : String)
deriving DecidableEq, Repr

namespace Symbol

/-- What the symbol was made with. -/
def description : Symbol → String
  | wellKnown s => s.name
  | fresh _ d => d

/-- The text of a symbol. -/
def text (s : Symbol) : String := "Symbol(" ++ s.description ++ ")"

end Symbol

end HostBinding
