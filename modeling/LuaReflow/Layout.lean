import LuaReflow.Token
import LuaReflow.Text.Blank

/-!
# Layout of a directive stream

The layout writes a directive stream as text, starting at depth zero:

* a `newline` writes a line feed and one tab per level of depth;
* an `indent-increase` deepens by one level, an `indent-decrease` goes one level back;
* every other token, sentinels included, writes its text stripped of blanks and one space;
* one final line feed ends the text.

Going back from depth zero is an error that names the output line it would have happened
before: one more than the newlines written so far.

## Main definitions

* `RenderError`: the refused decrease, and its message.
* `Layout.render`: the text of a directive stream.
-/

namespace LuaReflow

/-- An indent-decrease at depth zero, before the given output line. -/
structure RenderError where
  /-- The output line, counted from one, before which the depth would go negative. -/
  line : Nat
  deriving DecidableEq, Repr

/-- The text of a render error. -/
def RenderError.message (e : RenderError) : String :=
  "indentation depth would go negative before output line " ++ toString e.line

namespace Layout

/-- `n` tabs. -/
def tabs (n : Nat) : String := String.ofList (List.replicate n '\t')

/-- Writes the directives still to come after `out`, at depth `depth`, with `lines` newlines
written so far. -/
def renderFrom (depth lines : Nat) (out : String) : List Token → Except RenderError String
  | [] => .ok (out ++ "\n")
  | d :: ds =>
    match d.tag with
    | .newline => renderFrom depth (lines + 1) (out ++ "\n" ++ tabs depth) ds
    | .indentIncrease => renderFrom (depth + 1) lines out ds
    | .indentDecrease =>
      match depth with
      | 0 => .error ⟨lines + 1⟩
      | depth + 1 => renderFrom depth lines out ds
    | _ => renderFrom depth lines (out ++ Text.strip d.text ++ " ") ds

/-- The text of a directive stream. -/
def render (ds : List Token) : Except RenderError String := renderFrom 0 0 "" ds

end Layout

end LuaReflow
