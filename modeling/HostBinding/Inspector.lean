import HostBinding.Settings
import HostBinding.Manifest

/-!
# The manifest inspector

A command that shows which prototype a manifest would get, and what it would cost, without its host.

* `Inspector.Command.ofArguments`: what a command line asks for.
* `Inspector.Command.outcome`: what it answers, given the contents of files.
-/

namespace HostBinding

namespace Inspector

/-- What a command leaves: its exit code and its two outputs. -/
structure Outcome where
  code : UInt32
  output : String := ""
  errors : String := ""
deriving DecidableEq, Repr

/-- The usage text. -/
def usage : String :=
  "just-bind - binding manifest inspector\n\nUsage:\n"
    ++ "  just-bind <manifest.toml>                          Print the prototype layout\n"
    ++ "  just-bind --config <engine.toml> <manifest.toml>   Use an engine config\n"

/-- What a command line asks for. -/
inductive Command where
  | help
  | misuse
  | inspect (config : Option String) (manifest : String)
deriving DecidableEq, Repr

/-- The command of some arguments. -/
def Command.ofArguments : List String → Command
  | [a] => if a = "-h" ∨ a = "--help" then .help else .inspect none a
  | [a, config, manifest] =>
    if a = "-c" ∨ a = "--config" then .inspect (some config) manifest else .misuse
  | _ => .misuse

/-- The contents of files: the text of a path, or why it cannot be read. -/
abbrev Files : Type := String → Except String String

/-- Reads a file and makes something of its text. -/
def load {α : Type} (files : Files) (path : String) (parse : String → Except SetupError α) :
    Except SetupError α :=
  match files path with
  | .ok text => parse text
  | .error reason => .error (.unreadable path reason)

/-- The message of an error on a line of its own. -/
def failure (label : String) (e : SetupError) : Outcome :=
  { code := 1
    errors := label ++ ": " ++ e.message ++ (if e = .malformed then "" else "\n") }

/-- The layout of a manifest under some settings. -/
def report (s : Settings) (m : Manifest) : Outcome :=
  match m.build .standIns { budget := { limit := s.maxBytes } } with
  | (.ok p, w) =>
    { code := 0
      output := p.layout ++ "heap: " ++ toString w.budget.used ++ " bytes charged\n" }
  | (.error e, _) => failure "Build error" e

/-- What a command answers. The settings are read before the manifest. -/
def Command.outcome (files : Files) : Command → Outcome
  | help => { code := 0, errors := usage }
  | misuse => { code := 1, errors := usage }
  | inspect config manifest =>
    let settings : Except SetupError Settings :=
      match config with
      | some path => load files path Settings.parse
      | none => .ok {}
    match settings with
    | .error e => failure "Config error" e
    | .ok s =>
      match load files manifest Manifest.parse with
      | .error e => failure "Manifest error" e
      | .ok m => report s m

end Inspector

end HostBinding
