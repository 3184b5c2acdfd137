import LuaReflow.Text.Printable

/-!
# Quoted text

The quoted form of a text, as diagnostics show a snippet of source or a token's text:

* the text stands between single quotes, unless it holds a single quote and no double
  quote, in which case it stands between double quotes;
* a backslash and the chosen quote are preceded by a backslash;
* tab, line feed and carriage return are written `\t`, `\n`, `\r`;
* other ASCII controls and DEL are written `\xhh`;
* a non-ASCII character stands for itself when it is printable (`Text.isPrintable`), and is
  otherwise written `\xhh` below U+0100, `\uhhhh` below U+10000 and `\Uhhhhhhhh` above,
  with lowercase hexadecimal digits.

## Main definitions

* `Text.quote`: the quoted form of a string.
* `Text.escapeChar`: the written form of one character inside the quotes.
-/

namespace LuaReflow.Text

/-- The lowercase hexadecimal digit of `d < 16`. -/
def hexDigit (d : Nat) : Char :=
  if d < 10 then Char.ofNat (48 + d) else Char.ofNat (87 + d)

/-- The last `width` hexadecimal digits of `n`, most significant first, padded with zeros. -/
def hexDigits : Nat → Nat → List Char
  | 0, _ => []
  | width + 1, n => hexDigits width (n / 16) ++ [hexDigit (n % 16)]

/-- The escape of a code point: a backslash, a letter, then `width` hexadecimal digits. -/
def hexEscape (letter : Char) (width n : Nat) : List Char :=
  '\\' :: letter :: hexDigits width n

/-- How the character `c` is written between the quotes `quote`. -/
def escapeChar (quote c : Char) : List Char :=
  if c = quote || c = '\\' then ['\\', c]
  else if c = '\t' then ['\\', 't']
  else if c = '\n' then ['\\', 'n']
  else if c = '\r' then ['\\', 'r']
  else if c.toNat < 0x20 || c.toNat = 0x7F then hexEscape 'x' 2 c.toNat
  else if c.toNat < 0x7F || isPrintable c then [c]
  else if c.toNat < 0x100 then hexEscape 'x' 2 c.toNat
  else if c.toNat < 0x10000 then hexEscape 'u' 4 c.toNat
  else hexEscape 'U' 8 c.toNat

/-- The quote that delimits `cs`: double only when `cs` holds a single quote and no double. -/
def quoteFor (cs : List Char) : Char :=
  if cs.contains '\'' && !cs.contains '"' then '"' else '\''

/-- The quoted form of a list of characters. -/
def quoteList (cs : List Char) : List Char :=
  let q := quoteFor cs
  q :: cs.flatMap (escapeChar q) ++ [q]

/-- The quoted form of a text. -/
def quote (s : String) : String :=
  String.ofList (quoteList s.toList)

example : quoteList "it's".toList = "\"it's\"".toList := by decide
example : quoteList "a\\\"'".toList = "'a\\\\\"\\''".toList := by decide
example : quoteList "@\x00\x7f".toList = "'@\\x00\\x7f'".toList := by decide

end LuaReflow.Text
