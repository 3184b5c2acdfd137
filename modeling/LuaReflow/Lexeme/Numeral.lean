/-!
# Numerals

A numeral is an optional sign followed by a hexadecimal or a decimal body:

* a hexadecimal body is `0x` or `0X` followed by a hexadecimal mantissa;
* a decimal body is a decimal mantissa, optionally followed by `e` or `E`, an optional sign
  and at least one decimal digit;
* a mantissa over a class of digits is a string of such digits and points holding at most
  one point and at least one digit (`1`, `1.`, `.5`, `1.5`, but not `.`).

Hexadecimal numerals have no exponent, and since `p` is no digit of any class, a binary
exponent ends the numeral before it.

The number rule of the lexer takes the maximal run of characters from the class
`0-9 . + - e E x a-f A-F` and keeps its longest prefix that is a numeral
(`Numeral.longestPrefix`); it declines when no non-empty prefix is one.

## Main definitions

* `Numeral.isLiteral`: whether a whole text is a numeral.
* `Numeral.longestPrefix`: the length of the longest prefix that is a numeral, or 0.
* `Numeral.isRunChar`: the class of characters a numeric run may hold.
-/

namespace LuaReflow.Numeral

/-- An ASCII decimal digit. -/
def isDecimalDigit (c : Char) : Bool := '0' ≤ c && c ≤ '9'

/-- An ASCII hexadecimal digit, in either case. -/
def isHexDigit (c : Char) : Bool :=
  isDecimalDigit c || ('a' ≤ c && c ≤ 'f') || ('A' ≤ c && c ≤ 'F')

/-- A character a numeric run may hold: digits, point, signs, `e`, `E`, `x`, `a`-`f`, `A`-`F`. -/
def isRunChar (c : Char) : Bool :=
  isHexDigit c || c = '.' || c = '+' || c = '-' || c = 'x'

/-- Digits of the class `digit` and points, at most one point, at least one digit. -/
def isMantissa (digit : Char → Bool) (cs : List Char) : Bool :=
  cs.all (fun c => digit c || c = '.') && cs.count '.' ≤ 1 && cs.any digit

/-- An optional sign followed by at least one decimal digit. -/
def isExponent : List Char → Bool
  | '+' :: ds | '-' :: ds => !ds.isEmpty && ds.all isDecimalDigit
  | ds => !ds.isEmpty && ds.all isDecimalDigit

/-- Whether `c` marks a decimal exponent. -/
def isExponentMark (c : Char) : Bool := c = 'e' || c = 'E'

/-- A decimal mantissa, optionally followed by an exponent mark and an exponent. -/
def isDecimal (cs : List Char) : Bool :=
  match cs.span (fun c => !isExponentMark c) with
  | (m, []) => isMantissa isDecimalDigit m
  | (m, _ :: e) => isMantissa isDecimalDigit m && isExponent e

/-- `0x` or `0X` followed by a hexadecimal mantissa. -/
def isHex : List Char → Bool
  | '0' :: 'x' :: m | '0' :: 'X' :: m => isMantissa isHexDigit m
  | _ => false

/-- A hexadecimal or decimal body, unsigned. -/
def isUnsigned (cs : List Char) : Bool := isHex cs || isDecimal cs

/-- Whether the whole text is a numeral: an optional sign, then an unsigned numeral. -/
def isLiteral : List Char → Bool
  | '+' :: cs | '-' :: cs => isUnsigned cs
  | cs => isUnsigned cs

/-- The length of the longest non-empty prefix of `cs` that is a numeral, or 0. -/
def longestPrefix (cs : List Char) : Nat :=
  ((List.range cs.length).reverse.map (· + 1)).find? (fun n => isLiteral (cs.take n)) |>.getD 0

example : isLiteral "0x1.8e".toList = true ∧ isLiteral "1e".toList = false ∧
    isLiteral "-.5".toList = true ∧ isLiteral "0xE-1".toList = false := by decide
example : longestPrefix "1e5e5".toList = 3 ∧ longestPrefix "0x0x".toList = 3 ∧
    longestPrefix "--1".toList = 0 := by decide

end LuaReflow.Numeral
