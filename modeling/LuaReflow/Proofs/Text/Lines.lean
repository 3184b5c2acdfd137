import Mathlib.Algebra.GroupWithZero.Nat
import Mathlib.Data.List.Basic
import Mathlib.Data.List.Induction
import Mathlib.Order.MinMax
import LuaReflow.Location

/-!
# Lines of a source text and where an offset falls among them

A source text splits at its line feeds into lines, as `List.splitOn '\n'` cuts it; a text with
`k` line feeds has `k + 1` lines, the last of them possibly empty. The text before an offset is
cut the same way (`Text.LineCut`): the finished lines, each ended by its line feed, and the
unfinished line after the last line feed.

Main statement:

* **`Location.ofOffset_places`**: the location of any integer offset clamps it to the text, and
  its line and column place it among the lines of the whole text: the line is one of them, the
  column lies inside it or right after its last character, the offset is the lines before it,
  each with its line feed, plus the characters before the column, and the text before the
  offset holds `line - 1` line feeds and ends in a line of `column - 1` characters.
-/

namespace LuaReflow

namespace Text

open List

/-- A text that holds no line feed splits at its line feeds into itself, and glues onto the
first line of whatever follows it. -/
theorem splitOn_append_of_newline_not_mem {r : List Char} (hr : '\n' ∉ r) (a : List Char) :
    (r ++ a).splitOn '\n' = (a.splitOn '\n').modifyHead (r ++ ·) := by
  induction r with
  | nil =>
    rw [nil_append]
    cases a.splitOn '\n' <;> rfl
  | cons c r ih =>
    have hc : c ≠ '\n' := fun h => hr (h ▸ mem_cons_self)
    rw [cons_append, splitOn_cons_eq_if_modifyHead, if_neg (by simpa using hc),
      ih (fun h => hr (mem_cons_of_mem c h)), modifyHead_modifyHead]
    rfl

/-- The text before an offset, cut at its line feeds: the finished lines, each of which a line
feed ends, and the unfinished line after the last line feed. -/
structure LineCut where
  /-- The lines a line feed ends, in order. -/
  lines : List (List Char)
  /-- The line after the last line feed. -/
  rest : List Char
  lines_free : ∀ l ∈ lines, '\n' ∉ l
  rest_free : '\n' ∉ rest

namespace LineCut

/-- The text that was cut: every finished line followed by its line feed, then the rest. -/
def text (c : LineCut) : List Char :=
  c.lines.flatMap (· ++ ['\n']) ++ c.rest

/-- Every text has a cut. Induction from the back: a line feed finishes the line so far, any
other character extends it. -/
theorem exists_text_eq (t : List Char) : ∃ c : LineCut, c.text = t := by
  induction t using reverseRecOn with
  | nil => exact ⟨⟨[], [], by simp, by simp⟩, rfl⟩
  | append_singleton t x ih =>
    obtain ⟨⟨lines, rest, hlines, hrest⟩, rfl⟩ := ih
    by_cases hx : x = '\n'
    · subst hx
      refine ⟨⟨lines ++ [rest], [], ?_, by simp⟩, by simp [text]⟩
      intro l hl
      rcases mem_append.1 hl with hl | hl
      · exact hlines l hl
      · exact mem_singleton.1 hl ▸ hrest
    · refine ⟨⟨lines, rest ++ [x], hlines, ?_⟩, by simp [text]⟩
      simpa [hrest] using Ne.symm hx

section

variable (c : LineCut)

/-- Finished lines with their line feeds, before any text `t`, split back into those lines and
then the lines of `t`. -/
theorem splitOn_flatMap_append {ls : List (List Char)} (hls : ∀ l ∈ ls, '\n' ∉ l)
    (t : List Char) : (ls.flatMap (· ++ ['\n']) ++ t).splitOn '\n' = ls ++ t.splitOn '\n' := by
  induction ls with
  | nil => simp
  | cons l ls ih =>
    have hl : '\n' ∉ l := hls l mem_cons_self
    rw [flatMap_cons, append_assoc, append_assoc, singleton_append,
      splitOn_append_cons_self_of_not_mem hl, ih (fun l' h => hls l' (mem_cons_of_mem l h)),
      cons_append]

/-- The whole source, split at its line feeds: the finished lines of the cut before an offset,
then the lines of what follows the offset, the first of which continues the unfinished one. -/
theorem splitOn_text_append (a : List Char) :
    (c.text ++ a).splitOn '\n' = c.lines ++ (a.splitOn '\n').modifyHead (c.rest ++ ·) := by
  rw [text, append_assoc, splitOn_flatMap_append c.lines_free,
    splitOn_append_of_newline_not_mem c.rest_free]

/-- The lines of a text, given the cut of one of its prefixes: the finished lines of the cut,
then a line that continues the unfinished one, then the lines after it. -/
theorem exists_splitOn_of_take {t : List Char} {k : Nat} (hc : c.text = t.take k) :
    ∃ first more, t.splitOn '\n' = c.lines ++ (c.rest ++ first) :: more := by
  obtain ⟨first, more, hafter⟩ := exists_cons_of_ne_nil (splitOn_ne_nil '\n' (t.drop k))
  refine ⟨first, more, ?_⟩
  conv_lhs => rw [← take_append_drop k t, ← hc]
  rw [c.splitOn_text_append, hafter, modifyHead_cons]

theorem splitOn_text : c.text.splitOn '\n' = c.lines ++ [c.rest] := by
  simpa using c.splitOn_text_append []

theorem count_text : c.text.count '\n' = c.lines.length := by
  have hlines : ∀ l ∈ c.lines, (l ++ ['\n']).count '\n' = 1 := fun l hl => by
    simp [count_eq_zero_of_not_mem (c.lines_free l hl)]
  have hmap : c.lines.map (count '\n' ∘ (· ++ ['\n'])) = c.lines.map (fun _ => 1) :=
    map_congr_left hlines
  rw [text, count_append, count_flatMap, count_eq_zero_of_not_mem c.rest_free, hmap]
  simp

theorem length_text : c.text.length = (c.lines.map (·.length + 1)).sum + c.rest.length := by
  simp [text, length_flatMap]

/-- Reading the text backwards up to its last line feed gives the unfinished line. -/
theorem takeWhile_reverse_text : c.text.reverse.takeWhile (· != '\n') = c.rest.reverse := by
  have hrest : ∀ x ∈ c.rest.reverse, (x != '\n') = true := fun x hx => by
    have : x ≠ '\n' := fun h => c.rest_free (h ▸ mem_reverse.1 hx)
    simpa using this
  rw [text, reverse_append, takeWhile_append_of_pos hrest]
  -- before the unfinished line the text is empty or ends in a line feed
  rcases eq_nil_or_concat' c.lines with h | ⟨ls, l, h⟩
  · simp [h]
  · simp [h, takeWhile_cons_of_neg]

end

end LineCut

end Text

namespace Location

open List

theorem clamp_le (len : Nat) (n : Int) : clamp len n ≤ len :=
  Nat.min_le_right _ _

theorem clamp_eq (len : Nat) (n : Int) : (clamp len n : Int) = min (max n 0) len := by
  simp only [clamp]
  omega

/-- The line is one more than the finished lines before the offset, and the column one more
than the characters of the unfinished line. -/
theorem ofOffset_of_cut {source : List Char} {n : Int} {c : Text.LineCut}
    (hc : c.text = source.take (clamp source.length n)) :
    (ofOffset source n).line = c.lines.length + 1 ∧
      (ofOffset source n).column = c.rest.length + 1 := by
  simp only [ofOffset, ← hc, c.count_text, c.takeWhile_reverse_text, length_reverse, and_self]

/-- What a location of offset `n` in `source` is: the offset `n` clamped to the text, with a
line and a column that place it among the lines the text splits into at its line feeds. -/
structure Places (source : List Char) (n : Int) (loc : Location) : Prop where
  /-- The offset is `n` clamped to `[0, source.length]`. -/
  offset_eq : (loc.offset : Int) = min (max n 0) source.length
  line_pos : 1 ≤ loc.line
  /-- The line is one of the text's lines. -/
  line_le : loc.line ≤ (source.splitOn '\n').length
  column_pos : 1 ≤ loc.column
  /-- The column lies inside its line or right after the line's last character. -/
  column_le : loc.column ≤ ((source.splitOn '\n').getD (loc.line - 1) []).length + 1
  /-- The offset counts the lines before, each with its line feed, then the characters before
  the column. -/
  offset_eq_sum :
    loc.offset = (((source.splitOn '\n').take (loc.line - 1)).map (·.length + 1)).sum +
      (loc.column - 1)
  /-- The text before the offset holds `line - 1` line feeds. -/
  count_take : (source.take loc.offset).count '\n' = loc.line - 1
  /-- The last line of the text before the offset has `column - 1` characters. -/
  lastLine_take :
    ((source.take loc.offset).splitOn '\n').getLast?.map List.length = some (loc.column - 1)

/-- **Offsets and lines agree.** For every text and every integer offset, of any sign and size,
the location clamps the offset to the text, and its line and column place that offset among the
lines the text splits into at its line feeds. -/
theorem ofOffset_places (source : List Char) (n : Int) :
    Places source n (ofOffset source n) := by
  obtain ⟨c, hc⟩ := Text.LineCut.exists_text_eq (source.take (clamp source.length n))
  obtain ⟨hline, hcolumn⟩ := ofOffset_of_cut hc
  have hoffset : (ofOffset source n).offset = clamp source.length n := rfl
  have hlength : c.text.length = clamp source.length n := by
    rw [hc, length_take_of_le (clamp_le _ _)]
  obtain ⟨first, more, hlines⟩ := c.exists_splitOn_of_take hc
  exact
    { offset_eq := clamp_eq _ _
      line_pos := by omega
      line_le := by simp [hline, hlines]
      column_pos := by omega
      column_le := by simp [hline, hcolumn, hlines]
      offset_eq_sum := by
        rw [hoffset, ← hlength, c.length_text, hlines, hline, hcolumn, Nat.add_sub_cancel,
          Nat.add_sub_cancel, take_left]
      count_take := by rw [hoffset, ← hc, c.count_text, hline, Nat.add_sub_cancel]
      lastLine_take := by
        rw [hoffset, ← hc, c.splitOn_text, getLast?_concat, hcolumn, Nat.add_sub_cancel]
        rfl }

example : ofOffset "ab\n".toList (10 ^ 20) = ⟨2, 1, 3⟩ := by decide

end Location

end LuaReflow
