import LuaReflow.Line

/-!
# Splitting tokens into lines

Statement separators are optional in Lua, so line boundaries come from the tags of the
tokens and a little context instead of a parse. Walking the tokens once, a new line starts
before a token when

* its tag always starts a line: `if`, `local`, `repeat`, `else`, `elseif`, `end`, `until`,
  `while`, `for`, `return`, `break`, a comment or a blank run;
* it is `do`, and the current line was not opened by `for` or `while`;
* it is `function`, and the token before it is neither an opening bracket nor `local`;

and the current line ends after a token when

* its tag always ends a line: `then`, `else`, `end`, `repeat`, `do`, `break`, a blank run or a
  comment;
* it is a `)` that closes a function's parameter list;
* it ends an expression and the next token is a word (`close`, `word`, `string` or `number`
  followed by `word`): a statement separator was left out.

A `)` closes a parameter list when the nearest earlier *stopper* (a `close`, a
parameter-list close, or `function`) is `function`. Such a `)` is retagged
`close-parameters`; nothing else about any token changes.

A document is then written as a directive stream: per line, an indent-decrease if the line
dedents, a newline, the line's tokens, and an indent-increase if the lines after it indent.

## Main definitions

* `Document.ofTokens`: the lines of a token list.
* `Document.directives`, `Document.segment`: the directive stream.
-/

namespace LuaReflow

/-- Tags that always start a line. -/
def Tag.startsLine : Tag → Bool
  | .ifKw | .localKw | .repeatKw | .elseKw | .elseifKw | .endKw | .untilKw | .whileKw | .forKw
  | .returnKw | .breakKw | .comment | .blank => true
  | _ => false

/-- Tags that always end a line. -/
def Tag.endsLine : Tag → Bool
  | .thenKw | .elseKw | .endKw | .repeatKw | .doKw | .breakKw | .blank | .comment => true
  | _ => false

/-- Tags of a line that keeps its `do`. -/
def Tag.ownsDo : Tag → Bool
  | .forKw | .whileKw => true
  | _ => false

/-- Tags after which `function` stays on the line. -/
def Tag.bindsFunction : Tag → Bool
  | .opening | .localKw => true
  | _ => false

/-- Tags that stop the search for the `function` of a parameter list. -/
def Tag.isStopper : Tag → Bool
  | .closing | .closeParameters | .functionKw => true
  | _ => false

/-- Pairs of adjacent tags between which a statement separator was left out. -/
def Tag.breaksStatement : Tag → Tag → Bool
  | .closing, .word | .word, .word | .string, .word | .number, .word => true
  | _, _ => false

/-- The lines of a source, in order. -/
structure Document where
  /-- The lines, in order. -/
  lines : List Line
  deriving DecidableEq, Repr

namespace Document

/-- Whether `t` starts a new line after the current line, given latest token first. -/
def startsBefore (current : List Token) (t : Token) : Bool :=
  t.tag.startsLine ||
  (t.tag == .doKw && !((current.getLast?.map (·.tag.ownsDo)).getD false)) ||
  (t.tag == .functionKw && !((current.head?.map (·.tag.bindsFunction)).getD false))

/-- The finished lines (latest first) with the current line (latest token first) added,
unless it is empty. -/
def closeLine (current : List Token) (done : List Line) : List Line :=
  match Line.ofList? current.reverse with
  | some l => l :: done
  | none => done

/-- Splits the tokens still to come into lines, after the lines `done` (latest first) and the
current line `current` (latest token first). `afterFunction` says whether the nearest stopper
so far is `function`. -/
def splitFrom (afterFunction : Bool) (current : List Token) (done : List Line) :
    List Token → List Line
  | [] => (closeLine current done).reverse
  | t :: ts =>
    let (current, done) :=
      if !current.isEmpty && startsBefore current t then ([], closeLine current done)
      else (current, done)
    let closesParameters := t.tag == .closing && t.text == ")" && afterFunction
    let t := if closesParameters then t.retag .closeParameters else t
    let afterFunction := if t.tag.isStopper then t.tag == .functionKw else afterFunction
    let next := (ts.head?.map (·.tag)).getD .finish
    if closesParameters || t.tag.endsLine || t.tag.breaksStatement next then
      splitFrom afterFunction [] (closeLine (t :: current) done) ts
    else
      splitFrom afterFunction (t :: current) done ts

/-- The lines of a token list. -/
def ofTokens (ts : List Token) : Document := ⟨splitFrom false [] [] ts⟩

/-- The directives that lay out one line. -/
def lineDirectives (l : Line) : List Token :=
  (if l.dedentBefore then [Token.synthetic .indentDecrease] else []) ++
    Token.synthetic .newline :: l.tokens ++
    (if l.indentAfter then [Token.synthetic .indentIncrease] else [])

/-- The directive stream of a document. -/
def directives (d : Document) : List Token := d.lines.flatMap lineDirectives

/-- The directive stream of a token list. -/
def segment (ts : List Token) : List Token := (ofTokens ts).directives

end Document

end LuaReflow
