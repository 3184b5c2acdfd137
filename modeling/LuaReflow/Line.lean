import LuaReflow.Token
import LuaReflow.Text.Blank

/-!
# Logical lines

A logical line is a non-empty run of tokens that the layout writes on one output line: one
statement, one block header, one comment or one blank run. The first token decides how the
line moves the indentation:

* a line that starts with `end`, `else`, `elseif` or `until` sits one level shallower than
  the lines before it (`Line.dedentBefore`);
* the lines after one that starts with `if`, `while`, `repeat`, `else`, `elseif`, `for`,
  `do` or `function`, or that ends with a parameter-list close, sit one level deeper
  (`Line.indentAfter`).

So an `else` or `elseif` line dedents and indents again, with no net change (`Line.delta`).
A line is written as each token's text, stripped, followed by one space (`Line.text`).
-/

namespace LuaReflow

/-- Tags whose line starts a deeper block after it. -/
def Tag.opensBlock : Tag → Bool
  | .ifKw | .whileKw | .repeatKw | .elseKw | .elseifKw | .forKw | .doKw | .functionKw => true
  | _ => false

/-- Tags whose line sits one level shallower than the lines before it. -/
def Tag.closesBlock : Tag → Bool
  | .endKw | .elseKw | .elseifKw | .untilKw => true
  | _ => false

/-- A non-empty run of tokens laid out on one output line. -/
structure Line where
  /-- The first token. -/
  first : Token
  /-- The tokens after the first, in order. -/
  rest : List Token
  deriving DecidableEq, Repr

namespace Line

/-- The tokens of the line, in order. -/
def tokens (l : Line) : List Token := l.first :: l.rest

/-- The last token of the line. -/
def last (l : Line) : Token := l.rest.getLast?.getD l.first

/-- The line sits one level shallower than the lines before it. -/
def dedentBefore (l : Line) : Bool := l.first.tag.closesBlock

/-- The lines after this one sit one level deeper. -/
def indentAfter (l : Line) : Bool :=
  l.first.tag.opensBlock || l.last.tag == .closeParameters

/-- The net change of depth across the line: -1, 0 or 1. -/
def delta (l : Line) : Int :=
  (if l.indentAfter then 1 else 0) - (if l.dedentBefore then 1 else 0)

/-- How a token is written: its text stripped of blanks, then one space. -/
def tokenText (t : Token) : String := Text.strip t.text ++ " "

/-- The line as the layout writes it. -/
def text (l : Line) : String := String.join (l.tokens.map tokenText)

/-- The line whose tokens are `ts`, when `ts` is not empty. -/
def ofList? : List Token → Option Line
  | [] => none
  | t :: ts => some ⟨t, ts⟩

@[simp] theorem tokens_mk (t : Token) (ts : List Token) : (Line.mk t ts).tokens = t :: ts := rfl

end Line

end LuaReflow
