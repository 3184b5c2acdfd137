import LuaReflow.Location
import LuaReflow.Text.Quote

/-!
# Lexical errors

A lexical error carries the offset where the scan stopped, a snippet of the source from that
offset, optionally its line and column and the source's file name, and a message.

Its text is `[file:][line:[column:]]message: 'snippet'`, where the location part ends in a
space instead of its trailing colons, the column shows only together with a line, and the
snippet is quoted (`Text.quote`). An empty or missing message falls back to the fault's
default message.

## Main definitions

* `LexFault`: why scanning stopped, with its default message.
* `LexError`: the error record, and `LexError.describe`, its text.
* `LexError.ofFault`: the error of a fault at an offset of a source.
-/

namespace LuaReflow

/-- Why scanning stopped. -/
inductive LexFault where
  /-- A lexical error of no particular kind. -/
  | lexical
  /-- A long string or long comment has no closer of its level. -/
  | unclosedBracket
  /-- No rule matches at the offset. -/
  | unrecognized
  deriving DecidableEq, Repr

/-- The message of a fault when no other is given. -/
def LexFault.defaultMessage : LexFault → String
  | .lexical => "lexical error"
  | .unclosedBracket => "unterminated long bracket"
  | .unrecognized => "unrecognized token"

/-- A located lexical error. -/
structure LexError where
  /-- Why scanning stopped. -/
  fault : LexFault
  /-- The code-point offset where it stopped. -/
  offset : Int
  /-- The source text from the offset, cut to the snippet width. -/
  snippet : String
  /-- The line of the offset, counted from one, if known. -/
  line : Option Int := none
  /-- The column of the offset, counted from one, if known. -/
  column : Option Int := none
  /-- The source file's name; empty when there is none. -/
  sourceFile : String := ""
  /-- A message that replaces the fault's default one, unless it is empty. -/
  customMessage : Option String := none
  deriving DecidableEq, Repr

namespace LexError

/-- The message: the custom one when it is given and not empty, else the default. -/
def message (e : LexError) : String :=
  match e.customMessage with
  | some m => if m.isEmpty then e.fault.defaultMessage else m
  | none => e.fault.defaultMessage

/-- The location part: `file:`, `line:` and, after a line, `column:`; its trailing colons
become one space, and it is empty when there is nothing to show. -/
def locationPart (e : LexError) : String :=
  let file := if e.sourceFile.isEmpty then "" else e.sourceFile ++ ":"
  let place :=
    match e.line with
    | none => ""
    | some l => toString l ++ ":" ++ (e.column.map (fun c => toString c ++ ":")).getD ""
  let part := file ++ place
  if part.isEmpty then "" else String.ofList (part.toList.reverse.dropWhile (· == ':')).reverse ++ " "

/-- The text of the error. -/
def describe (e : LexError) : String :=
  e.locationPart ++ e.message ++ ": " ++ Text.quote e.snippet

/-- The error of `fault` at offset `pos` of `source`, with a snippet of at most `width`
characters and the location of the offset. -/
def ofFault (source : List Char) (width : Nat) (file : String) (fault : LexFault) (pos : Nat) :
    LexError :=
  let loc := Location.ofOffset source pos
  { fault
    offset := pos
    snippet := String.ofList ((source.drop pos).take width)
    line := some loc.line
    column := some loc.column
    sourceFile := file }

example : (ofFault "x = @".toList 50 "" .unrecognized 4).describe = "1:5 unrecognized token: '@'" := by
  decide

end LexError

end LuaReflow
