import LuaReflow.Command.Run

/-!
# The command-line program

The program reflows the Lua source at the path it is given and writes it to standard output.
This is the thin outer layer: it reads the arguments, opens the normalised path, and writes
what `Command.respond` decides; everything else is pure.
-/

namespace LuaReflow

/-- The error number an IO error carries, whichever sign it was stored with: a code from
`2147483648` up is a negative number kept in 32 bits. -/
def errorNumber (code : UInt32) : Nat :=
  if code.toNat ≥ 2147483648 then 4294967296 - code.toNat else code.toNat

/-- What opening `path` for reading finds on the file system. -/
def readEntry (path : String) : IO Entry := do
  try
    let bytes ← IO.FS.readBinFile path
    pure (.file bytes.toList)
  catch e =>
    pure <| match e with
      | .noFileOrDirectory .. => .missing
      | .inappropriateType _ code _ =>
        if errorNumber code = 21 then .unreadable "is a directory" else .unreadable "Not a directory"
      | .invalidArgument _ code _ =>
        if errorNumber code = 36 then .nameTooLong else .unreadable (toString e)
      | .permissionDenied .. => .unreadable "permission denied"
      | e => .unreadable (toString e)

end LuaReflow

/-- Runs the command on the process's arguments and returns its exit status. -/
def main (args : List String) : IO UInt32 := do
  let request := LuaReflow.Request.ofArguments args
  let entry ← match LuaReflow.Command.pathToOpen? request with
    | some path => LuaReflow.readEntry (LuaReflow.Path.normalize path)
    | none => pure .missing
  match LuaReflow.Command.respond request entry with
  | .ok outcome =>
    IO.print outcome.stdout
    IO.eprint outcome.stderr
    pure outcome.exit.toUInt32
  | .error abort =>
    IO.eprintln (LuaReflow.Command.programName ++ ": " ++ abort.message)
    pure 1
