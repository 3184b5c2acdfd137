import Mathlib.Data.List.DropRight
import LuaReflow.Text.Blank

/-!
# What stripping keeps

The layout writes each token's text stripped of layout blanks at both ends. Stripping is a
`dropWhile` at the front and an `rdropWhile` at the back (`Text.stripList_eq`), so:

* a text that starts and ends with a character that is no layout blank is kept whole
  (`Text.stripList_cons_eq_self`);
* a run of lexer blanks is stripped to nothing (`Text.stripList_eq_nil_of_lexBlank`);
* a line comment keeps its `--` and loses only its trailing blanks, and a space written after
  it is stripped again (`Text.stripList_dash_dash`, `Text.stripList_dash_dash_space`).
-/

namespace LuaReflow.Text

open List

theorem rdropWhile_cons_of_neg {α : Type} {p : α → Bool} {x : α} (hx : p x = false)
    (l : List α) : (x :: l).rdropWhile p = x :: l.rdropWhile p := by
  -- dropping from the back stops at `x` at the latest
  have hdrop : (l.reverse ++ [x]).dropWhile p = l.reverse.dropWhile p ++ [x] := by
    rw [dropWhile_append]
    split
    · rename_i hnil
      rw [List.isEmpty_iff.1 hnil, nil_append, dropWhile_cons, hx]
      rfl
    · rfl
  rw [rdropWhile, reverse_cons, hdrop, reverse_append]
  rfl

theorem stripList_eq (cs : List Char) : stripList cs = (cs.dropWhile isBlank).rdropWhile isBlank :=
  rfl

theorem stripList_cons_of_not_blank {c : Char} (hc : isBlank c = false) (cs : List Char) :
    stripList (c :: cs) = c :: cs.rdropWhile isBlank := by
  rw [stripList_eq, dropWhile_cons, hc]
  exact rdropWhile_cons_of_neg hc cs

/-- A text that starts and ends with a character that is no layout blank is kept whole. -/
theorem stripList_cons_eq_self {c : Char} {cs : List Char} (hc : isBlank c = false)
    (hlast : ∀ x ∈ cs.getLast?, isBlank x = false) : stripList (c :: cs) = c :: cs := by
  rw [stripList_cons_of_not_blank hc, rdropWhile_eq_self_iff.2]
  intro hne
  rw [hlast _ (getLast?_eq_some_getLast hne)]
  simp

theorem stripList_eq_nil_of_lexBlank {cs : List Char} (h : ∀ x ∈ cs, isLexBlank x = true) :
    stripList cs = [] := by
  rw [stripList_eq, dropWhile_eq_nil_iff.2 (fun x hx => isBlank_of_isLexBlank x (h x hx))]
  rfl

/-- A line comment keeps its `--` and loses only its trailing blanks. -/
theorem stripList_dash_dash (body : List Char) :
    stripList ('-' :: '-' :: body) = '-' :: '-' :: body.rdropWhile isBlank := by
  rw [stripList_cons_of_not_blank (by decide), rdropWhile_cons_of_neg (by decide)]

/-- A space written after a stripped line comment is stripped again. -/
theorem stripList_dash_dash_space (body : List Char) :
    stripList ('-' :: '-' :: (body.rdropWhile isBlank ++ [' '])) =
      '-' :: '-' :: body.rdropWhile isBlank := by
  rw [stripList_dash_dash, rdropWhile_concat_pos isBlank _ ' ' (by decide), rdropWhile_idempotent]

theorem strip_ofList (cs : List Char) : strip (String.ofList cs) = String.ofList (stripList cs) := by
  rw [strip, String.toList_ofList]

end LuaReflow.Text
