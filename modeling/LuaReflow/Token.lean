import LuaReflow.Tag

/-!
# Tokens

A token is a tagged slice of source text together with the offset, in code points, where
the slice starts. Synthetic tokens (sentinels and render directives) have empty text and the
offset `-1`; tokens read from outside may carry any offset.

## Main definitions

* `Token.endOffset`: one past the last character, or `-1` for a synthetic token.
* `Token.directive?`: the directive token of a directive tag.
* `Token.describe`: the one-line description used in diagnostics, with the text cut to
  twenty characters.
-/

namespace LuaReflow

/-- A tagged slice of source text starting at `offset`. -/
structure Token where
  /-- What kind of token this is. -/
  tag : Tag
  /-- The source text it covers; empty for sentinels and directives. -/
  text : String
  /-- The code-point offset of its first character, or `-1` for a synthetic token. -/
  offset : Int := -1
  deriving DecidableEq, Repr, Inhabited

namespace Token

/-- The same token under another tag. -/
def retag (t : Token) (tag : Tag) : Token := { t with tag }

/-- The offset one past the last character, or `-1` when the offset is negative. -/
def endOffset (t : Token) : Int :=
  if t.offset < 0 then -1 else t.offset + t.text.length

/-- Whether the token is a render directive. -/
def isDirective (t : Token) : Bool := t.tag.isDirective

/-- Whether the token is a context sentinel. -/
def isSentinel (t : Token) : Bool := t.tag.isSentinel

/-- The synthetic token of a tag: empty text, offset `-1`. -/
def synthetic (tag : Tag) : Token := ⟨tag, "", -1⟩

/-- The directive token of `tag`, when `tag` is a render directive. -/
def directive? (tag : Tag) : Option Token :=
  if tag.isDirective then some (synthetic tag) else none

/-- The text of the failure to make a directive of a tag that is none. -/
def notDirectiveMessage (tag : Tag) : String :=
  Text.quote tag.spelling ++ " is not a render directive"

/-- A text of more than twenty characters cut to its first seventeen and an ellipsis. -/
def shortText (s : String) : String :=
  if s.length > 20 then String.ofList (s.toList.take 17) ++ "..." else s

/-- The one-line description: tag, quoted (shortened) text and offset. -/
def describe (t : Token) : String :=
  "Token(" ++ t.tag.spelling ++ ", " ++ Text.quote (shortText t.text) ++ ", @" ++
    toString t.offset ++ ")"

@[simp] theorem tag_retag (t : Token) (tag : Tag) : (t.retag tag).tag = tag := rfl
@[simp] theorem text_retag (t : Token) (tag : Tag) : (t.retag tag).text = t.text := rfl
@[simp] theorem offset_retag (t : Token) (tag : Tag) : (t.retag tag).offset = t.offset := rfl

example : (Token.mk .closing ")" 5).describe = "Token(close, ')', @5)" := by decide

end Token

end LuaReflow
