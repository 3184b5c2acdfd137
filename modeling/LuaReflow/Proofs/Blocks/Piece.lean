import LuaReflow.Proofs.Lexeme.Settled
import LuaReflow.Proofs.Document.Boundary
import LuaReflow.Proofs.Layout.Depth

/-!
# The fixed pieces of a block program

A block program is built from fixed pieces of text, with blanks between them: the simple
statements, and the keywords before, between and after the bodies of its blocks. This file
takes each piece as the scan and line splitting see it.

* `Blocks.Piece.lexemes` — the tokens a piece is read as, with offsets counted from its start.
  The scan reads a piece so before a space, a tab or a line feed, and at the end of the source
  (`Blocks.Piece.scanPiece_blank`, `Blocks.Piece.scanPiece_end`); the line comment only before
  a line feed, which ends it.
* `Blocks.Piece.lines` — the lines a piece is cut into. When a statement follows it, the piece is
  cut into these lines, and the walk goes on with no current line and no `function` waiting
  for its parameter list (`Blocks.Piece.splitFrom_tokens_append`).
* `Blocks.Piece.walk_lines` — written at one depth, the lines of a piece that opens a body take
  the depth one level down, those of a piece that closes one a level up, and `else` and
  `elseif` up and down again.
-/

namespace LuaReflow

open List Document

theorem Line.dedentBefore_shift (n : Nat) (l : Line) :
    (l.shift n).dedentBefore = l.dedentBefore := rfl

theorem Line.indentAfter_shift (n : Nat) (l : Line) :
    (l.shift n).indentAfter = l.indentAfter := by
  rcases l with ⟨first, rest⟩
  -- the last token moves with the others and keeps its tag
  have hlast : ((rest.map (Token.shift n)).getLast?.getD (first.shift n)).tag =
      (rest.getLast?.getD first).tag := by
    rw [getLast?_map]
    cases rest.getLast? <;> rfl
  simp only [Line.indentAfter, Line.shift, Line.last, hlast]
  rfl

namespace Blocks

/-- The fixed pieces of text a block program is made of. -/
inductive Piece
  | assignNumber | printCall | localCall | indexAssign | methodCall | longAssign | breakStmt
  | lineComment | blockComment
  | ifThen | elseKw | elseifThen | endKw | whileDo | forNumeric | forGeneric | repeatKw
  | untilC | doKw | functionNamed | functionMethod | localFunction | localAnonymous
  | callAnonymous | endCall
  deriving DecidableEq, Repr

namespace Piece

/-- The text of a piece. -/
def text : Piece → String
  | assignNumber => "x = 1"
  | printCall => "print(x)"
  | localCall => "local y = f(a, b)"
  | indexAssign => "t[1] = 'str'"
  | methodCall => "obj:method(2, \"s\")"
  | longAssign => "s = [==[ long ]] text ]==]"
  | breakStmt => "break"
  | lineComment => "-- note"
  | blockComment => "--[[ block\ncomment ]]"
  | ifThen => "if c then"
  | elseKw => "else"
  | elseifThen => "elseif d then"
  | endKw => "end"
  | whileDo => "while c do"
  | forNumeric => "for i = 1, 10 do"
  | forGeneric => "for k, v in pairs(t) do"
  | repeatKw => "repeat"
  | untilC => "until c"
  | doKw => "do"
  | functionNamed => "function f(a)"
  | functionMethod => "function m.n:o(self, ...)"
  | localFunction => "local function g()"
  | localAnonymous => "local h = function(a, b)"
  | callAnonymous => "call(function()"
  | endCall => "end)"

/-- The characters of a piece. -/
def chars (p : Piece) : List Char := p.text.toList

/-- The tokens a piece is read as, with offsets counted from its start. -/
def lexemes : Piece → List Token
  | assignNumber => [⟨.word, "x", 0⟩, ⟨.assign, "=", 2⟩, ⟨.number, "1", 4⟩]
  | printCall => [⟨.word, "print", 0⟩, ⟨.opening, "(", 5⟩, ⟨.word, "x", 6⟩, ⟨.closing, ")", 7⟩]
  | localCall =>
    [⟨.localKw, "local", 0⟩, ⟨.word, "y", 6⟩, ⟨.assign, "=", 8⟩, ⟨.word, "f", 10⟩,
      ⟨.opening, "(", 11⟩, ⟨.word, "a", 12⟩, ⟨.separator, ",", 13⟩, ⟨.word, "b", 15⟩,
      ⟨.closing, ")", 16⟩]
  | indexAssign =>
    [⟨.word, "t", 0⟩, ⟨.opening, "[", 1⟩, ⟨.number, "1", 2⟩, ⟨.closing, "]", 3⟩,
      ⟨.assign, "=", 5⟩, ⟨.string, "'str'", 7⟩]
  | methodCall =>
    [⟨.word, "obj", 0⟩, ⟨.access, ":", 3⟩, ⟨.word, "method", 4⟩, ⟨.opening, "(", 10⟩,
      ⟨.number, "2", 11⟩, ⟨.separator, ",", 12⟩, ⟨.string, "\"s\"", 14⟩, ⟨.closing, ")", 17⟩]
  | longAssign => [⟨.word, "s", 0⟩, ⟨.assign, "=", 2⟩, ⟨.string, "[==[ long ]] text ]==]", 4⟩]
  | breakStmt => [⟨.breakKw, "break", 0⟩]
  | lineComment => [⟨.comment, "-- note", 0⟩]
  | blockComment => [⟨.comment, "--[[ block\ncomment ]]", 0⟩]
  | ifThen => [⟨.ifKw, "if", 0⟩, ⟨.word, "c", 3⟩, ⟨.thenKw, "then", 5⟩]
  | elseKw => [⟨.elseKw, "else", 0⟩]
  | elseifThen => [⟨.elseifKw, "elseif", 0⟩, ⟨.word, "d", 7⟩, ⟨.thenKw, "then", 9⟩]
  | endKw => [⟨.endKw, "end", 0⟩]
  | whileDo => [⟨.whileKw, "while", 0⟩, ⟨.word, "c", 6⟩, ⟨.doKw, "do", 8⟩]
  | forNumeric =>
    [⟨.forKw, "for", 0⟩, ⟨.word, "i", 4⟩, ⟨.assign, "=", 6⟩, ⟨.number, "1", 8⟩,
      ⟨.separator, ",", 9⟩, ⟨.number, "10", 11⟩, ⟨.doKw, "do", 14⟩]
  | forGeneric =>
    [⟨.forKw, "for", 0⟩, ⟨.word, "k", 4⟩, ⟨.separator, ",", 5⟩, ⟨.word, "v", 7⟩,
      ⟨.inKw, "in", 9⟩, ⟨.word, "pairs", 12⟩, ⟨.opening, "(", 17⟩, ⟨.word, "t", 18⟩,
      ⟨.closing, ")", 19⟩, ⟨.doKw, "do", 21⟩]
  | repeatKw => [⟨.repeatKw, "repeat", 0⟩]
  | untilC => [⟨.untilKw, "until", 0⟩, ⟨.word, "c", 6⟩]
  | doKw => [⟨.doKw, "do", 0⟩]
  | functionNamed =>
    [⟨.functionKw, "function", 0⟩, ⟨.word, "f", 9⟩, ⟨.opening, "(", 10⟩, ⟨.word, "a", 11⟩,
      ⟨.closing, ")", 12⟩]
  | functionMethod =>
    [⟨.functionKw, "function", 0⟩, ⟨.word, "m", 9⟩, ⟨.access, ".", 10⟩, ⟨.word, "n", 11⟩,
      ⟨.access, ":", 12⟩, ⟨.word, "o", 13⟩, ⟨.opening, "(", 14⟩, ⟨.word, "self", 15⟩,
      ⟨.separator, ",", 19⟩, ⟨.vararg, "...", 21⟩, ⟨.closing, ")", 24⟩]
  | localFunction =>
    [⟨.localKw, "local", 0⟩, ⟨.functionKw, "function", 6⟩, ⟨.word, "g", 15⟩,
      ⟨.opening, "(", 16⟩, ⟨.closing, ")", 17⟩]
  | localAnonymous =>
    [⟨.localKw, "local", 0⟩, ⟨.word, "h", 6⟩, ⟨.assign, "=", 8⟩, ⟨.functionKw, "function", 10⟩,
      ⟨.opening, "(", 18⟩, ⟨.word, "a", 19⟩, ⟨.separator, ",", 20⟩, ⟨.word, "b", 22⟩,
      ⟨.closing, ")", 23⟩]
  | callAnonymous =>
    [⟨.word, "call", 0⟩, ⟨.opening, "(", 4⟩, ⟨.functionKw, "function", 5⟩, ⟨.opening, "(", 13⟩,
      ⟨.closing, ")", 14⟩]
  | endCall => [⟨.endKw, "end", 0⟩, ⟨.closing, ")", 3⟩]

/-- The tokens of a piece that starts at offset `pos`. -/
def tokens (p : Piece) (pos : Nat) : List Token := p.lexemes.map (Token.shift pos)

/-- The lines a piece is cut into on its own, offsets counted from its start. -/
def layout (p : Piece) : List Line := (ofTokens p.lexemes).lines

/-- The lines of a piece that starts at offset `pos`. -/
def lines (p : Piece) (pos : Nat) : List Line := p.layout.map (Line.shift pos)

/-- The pieces after which the lines sit one level deeper: the keywords that open a body. -/
def opens : Piece → Bool
  | ifThen | elseKw | elseifThen | whileDo | forNumeric | forGeneric | repeatKw | doKw
  | functionNamed | functionMethod | localFunction | localAnonymous | callAnonymous => true
  | _ => false

/-- The pieces that sit one level shallower than the lines before them: the keywords that close
a body. -/
def closes : Piece → Bool
  | elseKw | elseifThen | endKw | untilC | endCall => true
  | _ => false

/-! ### The scan reads each piece as its lexemes -/

/-- Before a space, a tab or a line feed, a piece is read as its lexemes; the line comment only
before a line feed. -/
theorem scanPiece_blank (p : Piece) {b : Char} (hb : b = ' ' ∨ b = '\t' ∨ b = '\n')
    (hp : p = lineComment → b = '\n') : Token.scanPiece [b] p.chars = some p.lexemes := by
  by_cases hc : p = lineComment
  · subst hc
    obtain rfl := hp rfl
    decide +kernel
  · cases p
    case lineComment => exact absurd rfl hc
    all_goals rcases hb with rfl | rfl | rfl <;> decide +kernel

/-- At the end of the source, a piece is read as its lexemes. -/
theorem scanPiece_end (p : Piece) : Token.scanPiece [] p.chars = some p.lexemes := by
  cases p <;> decide +kernel

/-! ### Line splitting cuts each piece on its own -/

/-- Each piece leaves line splitting ready for the next statement. -/
theorem ready_lexemes (p : Piece) : (Cursor.start []).ready p.lexemes = true := by
  cases p <;> decide

/-- **A piece is cut as on its own.** From an empty line with no `function` waiting, the tokens
of a piece followed by the start of a statement are cut into the piece's lines, and the walk
goes on as it started. -/
theorem splitFrom_tokens_append (p : Piece) (pos : Nat) (done : List Line) {tail : List Token}
    (htail : StartsStatement tail) :
    splitFrom false [] done (p.tokens pos ++ tail) =
      splitFrom false [] ((p.lines pos).reverse ++ done) tail := by
  -- the walk over the piece where it stands is its walk from the start, placed there
  have hplace : (Cursor.start []).place pos done = Cursor.start done := rfl
  have hready : (Cursor.start done).ready (p.tokens pos) = true := by
    rw [← hplace, tokens, Cursor.ready_place]
    exact ready_lexemes p
  have hlayout : p.layout = ((Cursor.start []).run .word p.lexemes).done.reverse :=
    Cursor.lines_of_ready (ready_lexemes p)
  have hdone : ((Cursor.start done).run .word (p.tokens pos)).done =
      (p.lines pos).reverse ++ done := by
    rw [← hplace, tokens, Cursor.run_place, Cursor.place, lines, hlayout, map_reverse,
      reverse_reverse]
  have hcut := Cursor.lines_append_of_ready hready htail
  rw [hdone] at hcut
  exact hcut

/-- Every piece starts with a token that a statement, or the keywords that close a block, can
start with. -/
theorem startsStatement_lexemes (p : Piece) :
    p.lexemes.head?.map (·.tag.startsStatement) = some true := by
  cases p <;> rfl

theorem startsStatement_tokens_append (p : Piece) (pos : Nat) (rest : List Token) :
    StartsStatement (p.tokens pos ++ rest) := by
  intro t ht
  have h := startsStatement_lexemes p
  cases hp : p.lexemes with
  | nil => rw [hp] at h; cases h
  | cons u us =>
    rw [tokens, hp, map_cons, cons_append, head?_cons, Option.mem_some_iff] at ht
    rw [hp, head?_cons, Option.map_some, Option.some.injEq] at h
    rw [← ht, Token.tag_shift]
    exact h

/-- No piece starts with a blank. -/
theorem head_chars_not_blank (p : Piece) : p.chars.head?.map Text.isLexBlank = some false := by
  cases p <;> decide +kernel

/-! ### Each piece keeps its lines at its own depth -/

theorem flagsChain_map_shift (a z : Bool) (ls : List Line) (n : Nat) :
    flagsChain a (ls.map (Line.shift n)) z = flagsChain a ls z := by
  induction ls generalizing a with
  | nil => rfl
  | cons l ls ih =>
    rw [map_cons, flagsChain, flagsChain, Line.dedentBefore_shift, Line.indentAfter_shift, ih]

theorem flagsChain_layout (p : Piece) : flagsChain p.closes p.layout p.opens = true := by
  cases p <;> decide +kernel

/-- Written at the depth `d`, the lines of a piece walk from `d`, or one level below it for a
piece that closes a body, to `d`, or one level below it for a piece that opens one. -/
theorem walk_lines (p : Piece) (pos d : Nat) :
    Walk depthBefore depthAfter (d + p.closes.toNat) ((p.lines pos).map (·, d))
      (d + p.opens.toNat) := by
  have h : flagsChain p.closes (p.lines pos) p.opens = true := by
    rw [lines, flagsChain_map_shift]
    exact flagsChain_layout p
  exact walk_of_flagsChain h d

theorem offset_layout (p : Piece) :
    p.layout.all (fun l => 0 ≤ l.first.offset && l.first.offset < p.chars.length) = true := by
  cases p <;> decide +kernel

/-- Each line of a piece starts within the piece. -/
theorem offset_lines {p : Piece} {pos : Nat} {l : Line} (hl : l ∈ p.lines pos) :
    pos ≤ l.first.offset ∧ l.first.offset < pos + p.chars.length := by
  obtain ⟨l', hl', rfl⟩ := mem_map.1 hl
  have h := List.all_eq_true.1 (offset_layout p) l' hl'
  simp only [Bool.and_eq_true, decide_eq_true_eq] at h
  simp only [Line.shift, Token.shift]
  omega

end Piece

end Blocks

end LuaReflow
