/-!
# Blank characters and stripping

Two sets of white space matter to the reflow tool, and they differ:

* the *lexer's* blanks are the six ASCII characters space, tab, line feed, carriage return,
  form feed and vertical tab (`Text.isLexBlank`); everything else is a character that some
  rule must claim;
* the *layout's* blanks are all characters with the Unicode white-space property together
  with the four information separators U+001C to U+001F (`Text.isBlank`, 29 code points).
  Stripping a token's text removes these from both ends (`Text.strip`).

So a no-break space is stripped from a token's text by the layout, while the lexer refuses it.
-/

namespace LuaReflow.Text

/-- The lexer's blanks: space, tab, line feed, carriage return, form feed, vertical tab. -/
def isLexBlank (c : Char) : Bool :=
  c = ' ' || c = '\t' || c = '\n' || c = '\r' || c = '\x0c' || c = '\x0b'

/-- The layout's blanks, as maximal closed ranges of code points, ascending. -/
def blankRanges : List (Nat × Nat) :=
  [(0x09, 0x0D), (0x1C, 0x20), (0x85, 0x85), (0xA0, 0xA0), (0x1680, 0x1680),
   (0x2000, 0x200A), (0x2028, 0x2029), (0x202F, 0x202F), (0x205F, 0x205F), (0x3000, 0x3000)]

/-- A layout blank: Unicode white space or an information separator. -/
def isBlank (c : Char) : Bool :=
  blankRanges.any fun r => r.1 ≤ c.toNat && c.toNat ≤ r.2

/-- Every lexer blank is a layout blank. -/
theorem isBlank_of_isLexBlank (c : Char) (h : isLexBlank c = true) : isBlank c = true := by
  simp only [isLexBlank, Bool.or_eq_true, decide_eq_true_eq] at h
  rcases h with ((((h | h) | h) | h) | h) | h <;> subst h <;> decide

/-- The characters of `cs` with the layout blanks at both ends removed. -/
def stripList (cs : List Char) : List Char :=
  ((cs.dropWhile isBlank).reverse.dropWhile isBlank).reverse

/-- The text with the layout blanks at both ends removed. -/
def strip (s : String) : String :=
  String.ofList (stripList s.toList)

example : stripList "  x y　\n".toList = ['x', ' ', 'y'] := by decide
example : stripList "​x".toList = ['​', 'x'] := by decide

end LuaReflow.Text
