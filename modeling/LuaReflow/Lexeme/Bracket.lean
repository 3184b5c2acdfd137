/-!
# Long brackets

A long bracket opens with `[`, some number `n` of `=` and `[` (its *level* is `n`), and
closes at the first following `]`, `n` times `=`, `]`. Long strings and long comments are
written this way, and neither nests nor escapes anything.

## Main definitions

* `Bracket.level?`: the level of the opener at the start of a text, if one stands there.
* `Bracket.closer`: the closer of a level.
* `Bracket.scan`: what stands at the start of a text: no opener, an opener that never
  closes, or a whole long bracket of a given length.
-/

namespace LuaReflow

/-- What a text holds at its start, seen as a long bracket. -/
inductive Bracket where
  /-- No opener stands at the start. -/
  | absent
  /-- An opener stands at the start, and its closer never follows. -/
  | unclosed
  /-- A whole long bracket, opener to closer, of this many characters. -/
  | closed (length : Nat)
  deriving DecidableEq, Repr

namespace Bracket

/-- The level of the opener `[`, `=`…, `[` at the start of `cs`, if there is one. -/
def level? : List Char → Option Nat
  | '[' :: r =>
    match r.dropWhile (· == '=') with
    | '[' :: _ => some (r.takeWhile (· == '=')).length
    | _ => none
  | _ => none

/-- The closer of level `n`: `]`, `n` times `=`, `]`. -/
def closer (n : Nat) : List Char := ']' :: List.replicate n '=' ++ [']']

/-- The index of the first occurrence of `pat` in `cs`, if it occurs. -/
def indexOf? (pat : List Char) : List Char → Option Nat
  | [] => if pat.isEmpty then some 0 else none
  | c :: cs => if pat.isPrefixOf (c :: cs) then some 0 else (indexOf? pat cs).map (· + 1)

/-- The long bracket at the start of `cs`: its whole length when it closes. -/
def scan (cs : List Char) : Bracket :=
  match level? cs with
  | none => absent
  | some n =>
    -- the opener is `n + 2` characters long; the closer is searched after it
    match indexOf? (closer n) (cs.drop (n + 2)) with
    | none => unclosed
    | some i => closed (n + 2 + i + (n + 2))

example : scan "[==[ a ]] b ]==] c".toList = closed 16 := by decide
example : scan "[=[ ]]".toList = unclosed ∧ scan "[=".toList = absent := by decide

end Bracket

end LuaReflow
