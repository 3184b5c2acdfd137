import LuaReflow.Text.Quote

/-!
# Token tags

The closed set of tags a token can carry:

* one tag per block keyword (`if`, `then`, …, `break`);
* the literal and word classes (`string`, `number`, `word`, and `name` for `...`);
* punctuation (`operator`, `access`, `separator`, `open`, `close`, `assign`);
* the formatting units `comment` and `empty` (a blank run holding two or more line feeds);
* `close-parameters`, the `)` that ends a function's parameter list, set by line splitting;
* the context sentinels `^` and `$`, which stand before the first and after the last token;
* the render directives `newline`, `indent-increase` and `indent-decrease`.

Each tag has a fixed spelling (`Tag.spelling`); reading a tag is the inverse lookup
(`Tag.ofSpelling?`), and the block keywords are found from a word by `Tag.ofKeyword?`.
-/

namespace LuaReflow

/-- The tag of a token. Keyword constructors carry the suffix `Kw`. -/
inductive Tag where
  | ifKw | thenKw | elseifKw | elseKw | endKw | forKw | inKw | doKw | repeatKw | untilKw
  | whileKw | functionKw | localKw | returnKw | breakKw
  | string | number | word | vararg
  | operator | access | separator | opening | closing | assign
  | comment | blank
  | closeParameters
  | begin | finish
  | newline | indentIncrease | indentDecrease
  deriving DecidableEq, Repr, Inhabited

namespace Tag

/-- How the tag is written. -/
def spelling : Tag → String
  | ifKw => "if" | thenKw => "then" | elseifKw => "elseif" | elseKw => "else"
  | endKw => "end" | forKw => "for" | inKw => "in" | doKw => "do" | repeatKw => "repeat"
  | untilKw => "until" | whileKw => "while" | functionKw => "function" | localKw => "local"
  | returnKw => "return" | breakKw => "break"
  | string => "string" | number => "number" | word => "word" | vararg => "name"
  | operator => "operator" | access => "access" | separator => "separator"
  | opening => "open" | closing => "close" | assign => "assign"
  | comment => "comment" | blank => "empty"
  | closeParameters => "close-parameters"
  | begin => "^" | finish => "$"
  | newline => "newline" | indentIncrease => "indent-increase" | indentDecrease => "indent-decrease"

/-- The block keywords, each spelt as its keyword. -/
def keywords : List Tag :=
  [ifKw, thenKw, elseifKw, elseKw, endKw, forKw, inKw, doKw, repeatKw, untilKw, whileKw,
   functionKw, localKw, returnKw, breakKw]

/-- Every tag, in declaration order. -/
def all : List Tag :=
  keywords ++
  [string, number, word, vararg, operator, access, separator, opening, closing, assign,
   comment, blank, closeParameters, begin, finish, newline, indentIncrease, indentDecrease]

/-- The tag spelt `s`, if there is one. -/
def ofSpelling? (s : String) : Option Tag :=
  all.find? (·.spelling == s)

/-- The keyword tag of the word `w`, if `w` is a block keyword. -/
def ofKeyword? (w : String) : Option Tag :=
  keywords.find? (·.spelling == w)

/-- The text of the failure to read `s` as a tag. -/
def unknownMessage (s : String) : String :=
  Text.quote s ++ " is not a valid Tag"

/-- Whether the tag is one of the three render directives. -/
def isDirective : Tag → Bool
  | newline | indentIncrease | indentDecrease => true
  | _ => false

/-- Whether the tag is one of the two context sentinels. -/
def isSentinel : Tag → Bool
  | begin | finish => true
  | _ => false

theorem ofSpelling?_spelling (t : Tag) : ofSpelling? t.spelling = some t := by
  cases t <;> decide

example : ofKeyword? "elseif" = some elseifKw ∧ ofKeyword? "and" = none := by decide

end Tag

end LuaReflow
