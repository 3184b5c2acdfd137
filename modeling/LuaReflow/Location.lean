/-!
# Source locations

Tokens record only a code-point offset; a line number and a column are computed from it when
a diagnostic needs them. Lines are separated by line feeds alone, and both numbers count
from one.

## Main definitions

* `Location.ofOffset`: the location of an offset of any sign and size, after clamping it to
  the text.
* `Location.describe`: `line:column`, preceded by `file:` when there is a file name.
-/

namespace LuaReflow

/-- A position in a source text, with line and column counted from one. -/
structure Location where
  /-- The line, counted from one. -/
  line : Nat
  /-- The column, counted from one. -/
  column : Nat
  /-- The code-point offset, counted from zero. -/
  offset : Nat
  deriving DecidableEq, Repr

namespace Location

/-- The offset `n` moved into `[0, len]`. -/
def clamp (len : Nat) (n : Int) : Nat :=
  min n.toNat len

/-- The location of offset `n` in `source`, after clamping `n` to `[0, source.length]`.
The line is one more than the line feeds before the offset; the column is one more than
the characters between the last of them and the offset. -/
def ofOffset (source : List Char) (n : Int) : Location :=
  let o := clamp source.length n
  let before := source.take o
  { line := before.count '\n' + 1
    column := (before.reverse.takeWhile (· != '\n')).length + 1
    offset := o }

/-- `line:column`, preceded by `file:` when `file` is not empty. -/
def describe (loc : Location) (file : String) : String :=
  let lineColumn := toString loc.line ++ ":" ++ toString loc.column
  if file.isEmpty then lineColumn else file ++ ":" ++ lineColumn

example : ofOffset "local x\n= 1".toList 8 = ⟨2, 1, 8⟩ := by decide
example : ofOffset "ab".toList (-5) = ⟨1, 1, 0⟩ := by decide

end Location

end LuaReflow
