import HostBinding.Inspector

/-!
# The command line

Reads the files that a command names, and prints what the inspector answers.
-/

namespace HostBinding

namespace Inspector

/-- The text of a file, or why it cannot be read. -/
def readText (path : String) : IO (Except String String) := do
  try
    let bytes ← IO.FS.readBinFile path
    match String.fromUTF8? bytes with
    | some s => return .ok s
    | none => return .error "stream did not contain valid UTF-8"
  catch e =>
    match e with
    | .noFileOrDirectory .. => return .error "No such file or directory (os error 2)"
    | .permissionDenied .. => return .error "Permission denied (os error 13)"
    | .inappropriateType _ 21 _ => return .error "Is a directory (os error 21)"
    | .inappropriateType .. => return .error "Not a directory (os error 20)"
    | .invalidArgument .. => return .error "File name too long (os error 36)"
    | e => return .error (toString e)

/-- The paths that a command reads. -/
def Command.paths : Command → List String
  | inspect config manifest => config.toList ++ [manifest]
  | _ => []

end Inspector

end HostBinding

open HostBinding.Inspector in
/-- Runs the inspector. -/
def main (args : List String) : IO UInt32 := do
  let command := Command.ofArguments args
  let texts ← command.paths.mapM fun path => return (path, ← readText path)
  let files : Files := fun path =>
    match texts.find? (·.1 == path) with
    | some (_, r) => r
    | none => .error "No such file or directory (os error 2)"
  let o := command.outcome files
  IO.print o.output
  IO.eprint o.errors
  return o.code
