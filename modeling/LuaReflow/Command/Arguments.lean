import LuaReflow.Text.Quote
import LuaReflow.Text.Digit

/-!
# The command line

The command takes one positional argument, the path of the source, and one option, `-h` or
`--help`. Each argument string is read on its own first:

* the first `--` is a marker: every argument after it is a positional value;
* `-h`, `--help`, and every prefix of `--help` of at least three characters ask for help;
* what follows `-h` (or `-h=`) is an argument given to help, read as a cluster: each leading
  `h` is the help option once more, and if anything else is left, help refuses it as an
  argument it does not take. So `-hh` and `-h=h` ask for help, while `-hx`, `-hh=1` and `-h=`
  are refused; `--help=` and its prefixes refuse whatever follows the `=`;
* an empty string, `-` alone, a negative number such as `-1`, `-.5` or `-١` (digits of any
  script), a string with a space, and every string not starting with `-` are values;
* anything else starting with `-` is an option the command does not have.

Then the arguments are consumed from left to right. Asking for help or a refused argument
ends the reading at once. The first value (together with a `--` marker right before or
after it) is the path; every other value, and every unknown option, is left over. At the end
a missing path is reported first, then the left-over arguments.

## Main definitions

* `Request`: what the command line asks for.
* `Reading`, `Reading.ofArgument`: how one argument string reads.
* `Request.ofArguments`: the request of an argument list.
-/

namespace LuaReflow

/-- What the command line asks for. -/
inductive Request where
  /-- Reflow the source at a path. -/
  | reflow (path : String)
  /-- Show the help text. -/
  | help
  /-- Refuse the command line, with the reason. -/
  | usageError (message : String)
  deriving DecidableEq, Repr

/-- How one argument string reads. -/
inductive Reading where
  /-- A positional value. -/
  | value
  /-- The first `--`: every argument after it is a value. -/
  | marker
  /-- An option the command does not have. -/
  | unknown
  /-- A request for help. -/
  | help
  /-- An argument given to the help option, which takes none. -/
  | refused (argument : String)
  deriving DecidableEq, Repr

namespace Reading

/-- Whether the characters are one or more decimal digits, of any script. -/
def allDigits (cs : List Char) : Bool := !cs.isEmpty && cs.all Text.isDecimalDigit

/-- Whether the characters after a leading `-` make a negative number: digits, or digits, a
point and digits with at least one digit after the point. A final line feed is allowed. -/
def isNegativeNumber (rest : List Char) : Bool :=
  let body := if rest.getLast? = some '\n' then rest.dropLast else rest
  allDigits body ||
    (match body.span (· != '.') with
     | (before, '.' :: after) => before.all Text.isDecimalDigit && allDigits after
     | _ => false)

/-- How an option string reads when it names no option: a value if it looks like a negative
number or holds a space, else an unknown option. -/
def fallback (cs : List Char) : Reading :=
  if isNegativeNumber cs.tail || cs.contains ' ' then .value else .unknown

/-- How an argument given to `-h` reads: each leading `h` is the help option once more, and
whatever else is left (even nothing, when the argument was empty from the start) is refused. -/
def helpCluster : List Char → Reading
  | ['h'] => .help
  | 'h' :: rest => helpCluster rest
  | cs => .refused (String.ofList cs)

/-- How an argument string before the marker reads. -/
def ofArgument (s : String) : Reading :=
  match s.toList with
  | '-' :: rest =>
    if s = "-h" || s = "--help" then .help
    else if rest.isEmpty then .value
    else
      let (name, tail) := s.toList.span (· != '=')
      let given := !tail.isEmpty
      let argument := String.ofList tail.tail
      if given && name = "-h".toList then helpCluster tail.tail
      else if given && name = "--help".toList then .refused argument
      else
        match rest with
        | '-' :: _ =>
          if name.isPrefixOf "--help".toList then
            (if given then .refused argument else .help)
          else fallback s.toList
        | 'h' :: more => helpCluster more
        | _ => fallback s.toList
  | _ => .value

end Reading

namespace Request

/-- The readings of an argument list: each string with how it reads. -/
def readings : List String → List (String × Reading)
  | [] => []
  | s :: rest =>
    if s = "--" then (s, .marker) :: rest.map fun r => (r, .value)
    else (s, Reading.ofArgument s) :: readings rest

/-- The usage error of a missing path. -/
def missingPath : Request := .usageError "the following arguments are required: path"

/-- Consumes the readings still to come, with the path found so far and the left-over
arguments (latest first). -/
def consume : Option String → List String → List (String × Reading) → Request
  | none, _, [] => missingPath
  | some p, extras, [] =>
    if extras.isEmpty then .reflow p
    else .usageError ("unrecognized arguments: " ++ " ".intercalate extras.reverse)
  | _, _, (_, .help) :: _ => .help
  | _, _, (_, .refused a) :: _ =>
    .usageError ("argument -h/--help: ignored explicit argument " ++ Text.quote a)
  | path, extras, (s, .unknown) :: rest => consume path (s :: extras) rest
  | some p, extras, (s, _) :: rest => consume (some p) (s :: extras) rest
  | none, extras, (s, .value) :: (_, .marker) :: rest => consume (some s) extras rest
  | none, extras, (s, .value) :: rest => consume (some s) extras rest
  | none, extras, (_, .marker) :: (v, _) :: rest => consume (some v) extras rest
  | none, _, [(_, .marker)] => missingPath

/-- The path a request reads, if any. -/
def path? : Request → Option String
  | .reflow path => some path
  | _ => none

/-- The request of an argument list. -/
def ofArguments (args : List String) : Request := consume none [] (readings args)

example : ofArguments ["a.lua"] = .reflow "a.lua" := by decide
example : ofArguments ["--", "-x"] = .reflow "-x" := by decide
example : ofArguments ["a", "b"] = .usageError "unrecognized arguments: b" := by decide
example : ofArguments ["-x"] = missingPath := by decide
example : ofArguments ["-hx"] = .usageError "argument -h/--help: ignored explicit argument 'x'" := by
  decide
example : ofArguments ["-h=h"] = .help := by decide

end Request

end LuaReflow
