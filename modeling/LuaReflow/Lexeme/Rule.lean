import LuaReflow.Tag
import LuaReflow.Text.Blank
import LuaReflow.Lexeme.Numeral
import LuaReflow.Lexeme.Bracket

/-!
# The rule chain

At each position the lexer asks a fixed sequence of rules, and the first rule that does not
decline decides (priority, not longest match). A rule sees the character `c` at the position
and the text `r` after it, and answers with a `Claim`:

* it declines;
* a long bracket opens here and never closes, which stops the lexer;
* it takes `c` and the next `extra` characters of `r` as one lexeme, under a tag, or under no
  tag for a run of blanks that is dropped.

Since every lexeme holds at least the character `c`, the lexer always moves on.

The rules, in order: quoted string, long string, comment, blank run, numeral, `...`, `..`,
identifier or keyword, single punctuation, operator, `=`. Several match prefixes of later
ones: `--` comes before `-`, `...` before `..` before `.`, numerals before words, so
`-1` is a numeral and `e5` a word.
-/

namespace LuaReflow

/-- What one rule makes of the text at the current position. -/
inductive Claim where
  /-- The rule does not apply here. -/
  | decline
  /-- A long bracket opens here and never closes. -/
  | unclosed
  /-- The lexeme is the current character and the next `extra` ones; with no tag it is
  dropped. -/
  | take (extra : Nat) (tag : Option Tag)
  deriving DecidableEq, Repr

/-- The rules of the lexer. -/
inductive Rule where
  | quotedString | longString | comment | blankRun | numeral | vararg | concat | identifier
  | punctuation | operator | assign
  deriving DecidableEq, Repr

namespace Rule

/-- The order in which the rules are asked. -/
def order : List Rule :=
  [quotedString, longString, comment, blankRun, numeral, vararg, concat, identifier,
   punctuation, operator, assign]

/-- The length of a quoted body up to and including the closing quote `q`, if it closes.
A backslash takes the character after it, whatever that is. -/
def quoteEnd? (q : Char) : List Char → Option Nat
  | [] => none
  | ['\\'] => none
  | '\\' :: _ :: r => (quoteEnd? q r).map (· + 2)
  | c :: r => if c = q then some 1 else (quoteEnd? q r).map (· + 1)

/-- An ASCII letter, digit or underscore. -/
def isIdentChar (c : Char) : Bool := c.isAlphanum || c = '_'

/-- The words that are operators: `and`, `or`, `not`. -/
def wordOperators : List String := ["and", "or", "not"]

/-- The tag of an identifier: its keyword, `operator` for a word operator, else `word`. -/
def wordTag (w : String) : Tag :=
  match Tag.ofKeyword? w with
  | some t => t
  | none => if wordOperators.contains w then .operator else .word

/-- The tag of a single punctuation character. -/
def punctuationTag? (c : Char) : Option Tag :=
  if c = '.' || c = ':' then some .access
  else if c = ';' || c = ',' then some .separator
  else if c = '[' || c = '{' || c = '(' then some .opening
  else if c = ']' || c = '}' || c = ')' then some .closing
  else none

/-- The operators, tried in this order; two-character ones come before their prefixes. -/
def operators : List (List Char) :=
  ["==", "<=", ">=", "~=", "^", "*", "/", "%", "<", ">", "+", "-", "#"].map String.toList

/-- A rule's claim on the text `c :: r`. -/
def claim : Rule → Char → List Char → Claim
  | quotedString, c, r =>
    if c = '"' || c = '\'' then
      match quoteEnd? c r with
      | some k => .take k (some .string)
      | none => .decline  -- an unclosed quote is left to the later rules
    else .decline
  | longString, c, r =>
    match Bracket.scan (c :: r) with
    | .absent => .decline
    | .unclosed => .unclosed
    | .closed n => .take (n - 1) (some .string)
  | comment, c, r =>
    match c, r with
    | '-', '-' :: body =>
      match Bracket.scan body with
      | .closed n => .take (n + 1) (some .comment)
      | .unclosed => .unclosed
      | .absent => .take (r.takeWhile (· != '\n')).length (some .comment)
    | _, _ => .decline
  | blankRun, c, r =>
    if Text.isLexBlank c then
      let run := r.takeWhile Text.isLexBlank
      .take run.length (if (c :: run).count '\n' ≥ 2 then some .blank else none)
    else .decline
  | numeral, c, r =>
    if Numeral.isRunChar c then
      match Numeral.longestPrefix (c :: r.takeWhile Numeral.isRunChar) with
      | 0 => .decline
      | k + 1 => .take k (some .number)
    else .decline
  | vararg, c, r => if c = '.' && r.take 2 == ['.', '.'] then .take 2 (some .vararg) else .decline
  | concat, c, r => if c = '.' && r.take 1 == ['.'] then .take 1 (some .operator) else .decline
  | identifier, c, r =>
    if isIdentChar c then
      let rest := r.takeWhile isIdentChar
      .take rest.length (some (wordTag (String.ofList (c :: rest))))
    else .decline
  | punctuation, c, _ =>
    match punctuationTag? c with
    | some t => .take 0 (some t)
    | none => .decline
  | operator, c, r =>
    match operators.find? (·.isPrefixOf (c :: r)) with
    | some op => .take (op.length - 1) (some .operator)
    | none => .decline
  | assign, c, _ => if c = '=' then .take 0 (some .assign) else .decline

/-- The claim of the first rule of `rules` that does not decline on `c :: r`. -/
def firstClaim (c : Char) (r : List Char) : List Rule → Claim
  | [] => .decline
  | rule :: rules =>
    match rule.claim c r with
    | .decline => firstClaim c r rules
    | claim => claim

/-- The claim of the rule chain on `c :: r`. -/
def chain (c : Char) (r : List Char) : Claim := firstClaim c r order

example : chain '-' "1 x".toList = .take 1 (some .number) := by decide
example : chain '.' "..".toList = .take 2 (some .vararg) := by decide
example : chain '\'' "open".toList = .decline := by decide

end Rule

end LuaReflow
