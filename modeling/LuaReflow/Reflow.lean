import LuaReflow.Config
import LuaReflow.Lexeme.Scan
import LuaReflow.Document
import LuaReflow.Layout

/-!
# Reflow

The whole pipeline: scan the source into tokens, split them into lines, write the lines as a
directive stream and lay it out. Scanning finishes before anything is laid out, and the text
is complete before it is returned, so a failure never yields part of an answer.

## Main definitions

* `ReflowError`: a lexical or a layout error.
* `reflow`: the reflowed text of a source.
-/

namespace LuaReflow

/-- Why a source cannot be reflowed. -/
inductive ReflowError where
  /-- The source cannot be scanned. -/
  | lex (e : LexError)
  /-- The layout would go below depth zero. -/
  | layout (e : RenderError)
  deriving DecidableEq, Repr

/-- The text of a reflow error. -/
def ReflowError.message : ReflowError → String
  | .lex e => e.describe
  | .layout e => e.message

/-- The reflowed text of `source`; errors quote at most the configured number of characters
and name `file` when it is not empty. -/
def reflow (config : FormatConfig) (file : String) (source : String) : Except ReflowError String :=
  match Token.tokenize config.snippetWidth file source with
  | .error e => .error (.lex e)
  | .ok ts =>
    match Layout.render (Document.segment ts) with
    | .error e => .error (.layout e)
    | .ok out => .ok out

end LuaReflow
