import LuaReflow.Reflow
import LuaReflow.Source.Decode
import LuaReflow.Source.Tree
import LuaReflow.Command.Arguments

/-!
# Running the command

The command reflows one source file and writes the result to standard output, only once the
whole pipeline has succeeded. Every failure writes one diagnostic line to standard error
instead, the program's name, a colon and the message, and exits with status 1:

* a path that names nothing: ``cannot open file `path`: no such file``;
* a path that cannot be read: ``cannot open file `path`: reason``, such as `is a directory`;
* bytes that are not UTF-8: ``cannot open file `path`: not valid UTF-8 (reason)``;
* a lexical or layout error, named after the path as it was given.

A command line that cannot be read exits with status 2 after the usage line; asking for help
writes the help text and exits with status 0. A path holding a NUL character cannot be given
to the file system at all: that aborts the run, with no outcome (`Abort`).

## Main definitions

* `Outcome`: exit status and the two output streams.
* `Abort`: an error that ends a run without an outcome.
* `Command.sourceOf`: the source text of what a path names.
* `Command.respond`, `Command.run`: the outcome of a request and of an argument list.
-/

namespace LuaReflow

/-- What a run of the command produces. -/
structure Outcome where
  /-- The exit status. -/
  exit : Nat
  /-- What is written to standard output. -/
  stdout : String
  /-- What is written to standard error. -/
  stderr : String
  deriving DecidableEq, Repr

/-- An error the command does not handle: the run ends without an outcome. -/
inductive Abort where
  /-- The path holds a NUL character, which no file-system call accepts. -/
  | nulInPath
  deriving DecidableEq, Repr

/-- The text of an abort. -/
def Abort.message : Abort → String
  | .nulInPath => "embedded null byte"

namespace Command

/-- The name the program calls itself in its messages. -/
def programName : String := "luaflow"

/-- The version shown at the end of the help text. -/
def version : String := "0.1.0"

/-- The usage line, shown before every usage error and at the top of the help text. -/
def usage : String := "usage: " ++ programName ++ " [-h] path\n"

/-- The help text. -/
def helpText : String :=
  usage ++ "\nReflow a Lua source file: one statement per line, tab indentation.\n\n" ++
    "positional arguments:\n  path        source file to reflow\n\n" ++
    "options:\n  -h, --help  show this help message and exit\n\n" ++
    programName ++ " " ++ version ++ "\n"

/-- The message of a path that cannot be opened as a source. -/
def cannotOpen (path reason : String) : String :=
  "cannot open file `" ++ path ++ "`: " ++ reason

/-- The source text of what `path` names, or the message of why there is none. -/
def sourceOf (path : String) : Entry → Except String String
  | .missing => .error (cannotOpen path "no such file")
  | .unreadable reason => .error (cannotOpen path reason)
  | .file bytes =>
    match Source.read bytes with
    | .error fault => .error (cannotOpen path ("not valid UTF-8 (" ++ fault.reason ++ ")"))
    | .ok text => .ok text

/-- A failure: one diagnostic line on standard error and status 1. -/
def failure (message : String) : Outcome := ⟨1, "", programName ++ ": " ++ message ++ "\n"⟩

/-- The outcome of reflowing the source at `path`, which names `entry`. -/
def reflowEntry (path : String) (entry : Entry) : Outcome :=
  match sourceOf path entry with
  | .error message => failure message
  | .ok source =>
    match reflow {} path source with
    | .error e => failure e.message
    | .ok out => ⟨0, out, ""⟩

/-- The outcome of a request, or its abort; `entry` is what the requested path names. -/
def respond (request : Request) (entry : Entry) : Except Abort Outcome :=
  match request with
  | .reflow path =>
    if path.contains '\x00' then .error .nulInPath else .ok (reflowEntry path entry)
  | .help => .ok ⟨0, helpText, ""⟩
  | .usageError message =>
    .ok ⟨2, "", usage ++ programName ++ ": error: " ++ message ++ "\n"⟩

/-- The path a request opens: its path, unless it holds a NUL character. -/
def pathToOpen? (request : Request) : Option String :=
  request.path?.filter fun path => !path.contains '\x00'

/-- The outcome of an argument list, or its abort, where `lookup` tells what a path names. -/
def run (args : List String) (lookup : String → Entry) : Except Abort Outcome :=
  let request := Request.ofArguments args
  respond request (((pathToOpen? request).map lookup).getD .missing)

end Command

end LuaReflow
