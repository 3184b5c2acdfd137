import LuaReflow.Token
import LuaReflow.LexError
import LuaReflow.Lexeme.Rule

/-!
# Scanning source text into tokens

The scan walks the source from its first character. At each position the rule chain
(`Rule.chain`) decides: a claimed lexeme becomes one token whose text is exactly that slice
of the source and whose offset is where it starts, a dropped blank run produces nothing, and
the scan goes on after the lexeme. It stops with a fault when no rule claims the position, or
when a long bracket opened there never closes.

Every lexeme holds at least the character at the position, so each round consumes input and
the scan ends after at most as many rounds as the source has characters.

## Main definitions

* `Token.scanFrom`: the scan of a text that starts at a given offset.
* `Token.scan`: the tokens of a source, or the fault and offset where scanning stopped.
* `Token.tokenize`: the same with the fault turned into a located `LexError`.
-/

namespace LuaReflow

namespace Token

/-- The tokens of `cs`, whose first character stands at offset `pos`, after the tokens
`acc` already found (latest first); or the fault and the offset where scanning stopped. -/
def scanFrom (pos : Nat) (acc : List Token) : List Char → Except (LexFault × Nat) (List Token)
  | [] => .ok acc.reverse
  | c :: r =>
    match Rule.chain c r with
    | .decline => .error (.unrecognized, pos)
    | .unclosed => .error (.unclosedBracket, pos)
    | .take extra tag =>
      let lexeme := c :: r.take extra
      let acc := match tag with
        | some t => ⟨t, String.ofList lexeme, pos⟩ :: acc
        | none => acc
      scanFrom (pos + lexeme.length) acc (r.drop extra)
termination_by cs => cs.length
decreasing_by simp only [List.length_drop, List.length_cons]; omega

/-- The tokens of `source`, or the fault and the offset where scanning stopped. -/
def scan (source : List Char) : Except (LexFault × Nat) (List Token) :=
  scanFrom 0 [] source

/-- The tokens of `source`, or the located error where scanning stopped; the error quotes at
most `width` characters of source and names `file` when it is not empty. -/
def tokenize (width : Nat) (file : String) (source : String) : Except LexError (List Token) :=
  let cs := source.toList
  match scan cs with
  | .ok ts => .ok ts
  | .error (fault, pos) => .error (LexError.ofFault cs width file fault pos)

end Token

end LuaReflow
