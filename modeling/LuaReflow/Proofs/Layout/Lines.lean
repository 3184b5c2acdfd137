import LuaReflow.Layout
import LuaReflow.Proofs.Document.Split

/-!
# The layout of a document, line by line

The layout folds a flat directive stream with a depth and a count of the lines written so far;
a document says the same thing line by line. This file shows that the two agree.

Going down the lines from depth `d`, line `i` is written at depth `e i`, the depth before it
less one when it dedents, and the depth after it is `e i`, plus one when it indents
(`writtenDepths`). The directives of one line (an indent-decrease when it dedents, a newline,
its tokens, an indent-increase when it indents) take the layout from the depth before the
line to the depth after it and write one line feed, `e i` tabs and the line's text
(`renderFrom_lineDirectives`), unless the line dedents at depth zero, where the layout stops
with the error naming the line (`renderFrom_lineDirectives_of_dedent`). By induction over the
lines:

* `renderFrom_lines_ok` — when no written depth is negative, the layout is the lines, each
  after a line feed and its depth in tabs, followed by the text already written;
* `renderFrom_lines_error` — otherwise it fails before the first line whose written depth is
  negative, and the error counts that line from one;
* `render_segment_eq` — for a token list in which no token is a directive, the layout of its
  directive stream is the text of its lines written from depth zero, or the error naming the
  first line that would go below depth zero.
-/

namespace LuaReflow

namespace Document

/-- The depths the lines `ls` are written at when the depth before the first is `d`: the depth
before a line, less one when it dedents; the line after it starts one deeper when it
indents. -/
def writtenDepths (d : Int) : List Line → List Int
  | [] => []
  | l :: ls =>
    let e := d - if l.dedentBefore then 1 else 0
    e :: writtenDepths (e + if l.indentAfter then 1 else 0) ls

/-- A line as the layout writes it at depth `e`: a line feed, `e` tabs, the line's text. -/
def writtenLine (l : Line) (e : Int) : String := "\n" ++ Layout.tabs e.toNat ++ l.text

/-- The lines `ls` written one after the other from depth `d`. -/
def linesText (d : Int) (ls : List Line) : String :=
  String.join ((ls.zip (writtenDepths d ls)).map fun p => writtenLine p.1 p.2)

/-- The text of a document's lines laid out from depth zero, with its final line feed. -/
def layoutText (ls : List Line) : String := linesText 0 ls ++ "\n"

theorem linesText_nil (d : Int) : linesText d [] = "" := rfl

theorem linesText_cons (d : Int) (l : Line) (ls : List Line) :
    linesText d (l :: ls) =
      writtenLine l (d - if l.dedentBefore then 1 else 0) ++
        linesText ((d - if l.dedentBefore then 1 else 0) + if l.indentAfter then 1 else 0) ls := by
  simp only [linesText, writtenDepths, List.zip_cons_cons, List.map_cons, String.join_cons]

end Document

namespace Layout

open Document

/-- A token that is no directive is written as its stripped text and a space. -/
theorem renderFrom_content (d n : Nat) (out : String) (t : Token) (ds : List Token)
    (ht : t.tag.isDirective = false) :
    renderFrom d n out (t :: ds) = renderFrom d n (out ++ Line.tokenText t) ds := by
  rw [renderFrom.eq_def]
  dsimp only
  split <;> simp_all [Tag.isDirective, Line.tokenText, String.append_assoc]

theorem renderFrom_tokens (d n : Nat) (out : String) (ts rest : List Token)
    (h : ∀ t ∈ ts, t.tag.isDirective = false) :
    renderFrom d n out (ts ++ rest) = renderFrom d n (out ++ String.join (ts.map Line.tokenText)) rest := by
  induction ts generalizing out with
  | nil => simp
  | cons t ts ih =>
    rw [List.cons_append, renderFrom_content d n out t _ (h t List.mem_cons_self),
      ih _ (fun u hu => h u (List.mem_cons_of_mem t hu))]
    simp [String.append_assoc, String.join_cons]

theorem renderFrom_newline (d n : Nat) (out : String) (ds : List Token) :
    renderFrom d n out (Token.synthetic .newline :: ds) = renderFrom d (n + 1) (out ++ "\n" ++ tabs d) ds := by
  rfl

theorem renderFrom_increase (d n : Nat) (out : String) (ds : List Token) :
    renderFrom d n out (Token.synthetic .indentIncrease :: ds) = renderFrom (d + 1) n out ds := by
  rfl

theorem renderFrom_decrease (d n : Nat) (out : String) (ds : List Token) :
    renderFrom (d + 1) n out (Token.synthetic .indentDecrease :: ds) = renderFrom d n out ds := by
  rfl

theorem renderFrom_decrease_zero (n : Nat) (out : String) (ds : List Token) :
    renderFrom 0 n out (Token.synthetic .indentDecrease :: ds) = .error ⟨n + 1⟩ := by
  rfl

/-- The newline, the tokens and the indent-increase of a line, from the depth the line is
written at. -/
theorem renderFrom_lineBody (l : Line) (hl : ∀ t ∈ l.tokens, t.tag.isDirective = false)
    (e n : Nat) (out : String) (rest : List Token) :
    renderFrom e n out ((Token.synthetic .newline :: l.tokens ++
        (if l.indentAfter then [Token.synthetic .indentIncrease] else [])) ++ rest) =
      renderFrom (e + if l.indentAfter then 1 else 0) (n + 1)
        (out ++ writtenLine l e) rest := by
  rw [List.append_assoc, List.cons_append, renderFrom_newline, renderFrom_tokens _ _ _ _ _ hl]
  have htext : out ++ "\n" ++ tabs e ++ String.join (l.tokens.map Line.tokenText) =
      out ++ writtenLine l e := by
    simp [writtenLine, Line.text, String.append_assoc]
  rw [htext]
  cases l.indentAfter
  · rfl
  · exact renderFrom_increase _ _ _ _

/-- **One line.** From depth `d`, the directives of a line that does not dedent at depth zero
write the line at its depth and leave the depth after it. -/
theorem renderFrom_lineDirectives (l : Line) (hl : ∀ t ∈ l.tokens, t.tag.isDirective = false)
    (d n : Nat) (out : String) (rest : List Token) (hd : l.dedentBefore = true → 0 < d) :
    renderFrom d n out (lineDirectives l ++ rest) =
      renderFrom (d - (if l.dedentBefore then 1 else 0) + if l.indentAfter then 1 else 0) (n + 1)
        (out ++ writtenLine l (d - if l.dedentBefore then 1 else 0)) rest := by
  unfold lineDirectives
  cases hdd : l.dedentBefore
  · simpa using renderFrom_lineBody l hl d n out rest
  · obtain ⟨e, rfl⟩ : ∃ e, d = e + 1 := ⟨d - 1, by have := hd hdd; omega⟩
    simp only [if_true, List.cons_append, Nat.add_sub_cancel]
    rw [renderFrom_decrease, List.nil_append, renderFrom_lineBody l hl]
    simp

/-- A line that dedents at depth zero stops the layout with the error naming it. -/
theorem renderFrom_lineDirectives_of_dedent (l : Line) (hdd : l.dedentBefore = true) (n : Nat)
    (out : String) (rest : List Token) :
    renderFrom 0 n out (lineDirectives l ++ rest) = .error ⟨n + 1⟩ := by
  simp only [lineDirectives, hdd, if_true, List.cons_append]
  exact renderFrom_decrease_zero n out _

/-! ### All lines -/

theorem depth_natCast (l : Line) (d : Nat) (hd : l.dedentBefore = true → 0 < d) :
    ((d - (if l.dedentBefore then 1 else 0) + if l.indentAfter then 1 else 0 : Nat) : Int) =
      ((d : Int) - if l.dedentBefore then 1 else 0) + if l.indentAfter then 1 else 0 := by
  cases hdd : l.dedentBefore
  · cases l.indentAfter <;> simp
  · have := hd hdd
    cases l.indentAfter <;> simp <;> omega

/-- A line whose written depth is not negative does not dedent at depth zero. -/
theorem pos_of_dedent (l : Line) (d : Nat) (h : 0 ≤ (d : Int) - if l.dedentBefore then 1 else 0) :
    l.dedentBefore = true → 0 < d := by
  intro hdd
  rw [hdd, if_pos rfl] at h
  omega

/-- After a line written at a depth that is not negative, the lines are written from the depth
it leaves, a natural number as the layout counts it. -/
theorem writtenDepths_cons_of_nonneg (l : Line) (d : Nat) (ls : List Line)
    (h0 : 0 ≤ (d : Int) - if l.dedentBefore then 1 else 0) :
    writtenDepths d (l :: ls) = ((d : Int) - if l.dedentBefore then 1 else 0) ::
      writtenDepths ((d - (if l.dedentBefore then 1 else 0) +
        if l.indentAfter then 1 else 0 : Nat) : Int) ls := by
  rw [depth_natCast l d (pos_of_dedent l d h0)]
  rfl

variable {ls : List Line} (hls : ∀ l ∈ ls, ∀ t ∈ l.tokens, t.tag.isDirective = false)
include hls

/-- **All lines, no negative depth.** When no line is written below depth zero, the layout of
the lines' directives is the lines at their written depths and the final line feed. -/
theorem renderFrom_lines_ok (d n : Nat) (out : String) (h : ∀ e ∈ writtenDepths d ls, 0 ≤ e) :
    renderFrom d n out (ls.flatMap lineDirectives) = .ok (out ++ linesText d ls ++ "\n") := by
  induction ls generalizing d n out with
  | nil => simp [linesText_nil]; rfl
  | cons l ls ih =>
    have h0 : 0 ≤ (d : Int) - if l.dedentBefore then 1 else 0 := h _ List.mem_cons_self
    have hd := pos_of_dedent l d h0
    -- the lines after the first are written from the depth the first one leaves
    rw [writtenDepths_cons_of_nonneg l d ls h0] at h
    have htail := fun e he => h e (List.mem_cons_of_mem _ he)
    rw [List.flatMap_cons, renderFrom_lineDirectives l (hls l List.mem_cons_self) d n out _ hd,
      ih (fun l' hl' => hls l' (List.mem_cons_of_mem l hl')) _ _ _ htail, linesText_cons,
      depth_natCast l d hd]
    simp only [String.append_assoc]

/-- **All lines, a negative depth.** When some line would be written below depth zero, the
layout fails before the first such line, counted from one after the `n` lines already
written. -/
theorem renderFrom_lines_error (d n : Nat) (out : String) (h : ∃ e ∈ writtenDepths d ls, e < 0) :
    renderFrom d n out (ls.flatMap lineDirectives) =
      .error ⟨n + (writtenDepths d ls).findIdx (· < 0) + 1⟩ := by
  induction ls generalizing d n out with
  | nil => simp [writtenDepths] at h
  | cons l ls ih =>
    by_cases h0 : 0 ≤ (d : Int) - if l.dedentBefore then 1 else 0
    · -- the first line is written; the negative depth comes later
      have hd := pos_of_dedent l d h0
      rw [writtenDepths_cons_of_nonneg l d ls h0] at h ⊢
      have h' : ∃ e ∈ writtenDepths ((d - (if l.dedentBefore then 1 else 0) +
          if l.indentAfter then 1 else 0 : Nat) : Int) ls, e < 0 := by
        obtain ⟨e, he, hneg⟩ := h
        rcases List.mem_cons.1 he with rfl | he
        · omega
        · exact ⟨e, he, hneg⟩
      rw [List.flatMap_cons, renderFrom_lineDirectives l (hls l List.mem_cons_self) d n out _ hd,
        ih (fun l' hl' => hls l' (List.mem_cons_of_mem l hl')) _ _ _ h', List.findIdx_cons]
      have hnot : ¬(((d : Int) - if l.dedentBefore then 1 else 0) < 0) := by omega
      simp only [hnot, decide_false, cond_false]
      congr 2
      omega
    · -- the first line dedents at depth zero
      have hdd : l.dedentBefore = true := by
        cases hdd : l.dedentBefore <;> simp [hdd] at h0 ⊢
      have hzero : d = 0 := by rw [hdd, if_pos rfl] at h0; omega
      subst hzero
      rw [List.flatMap_cons, renderFrom_lineDirectives_of_dedent l hdd]
      simp [writtenDepths, hdd, List.findIdx_cons]

end Layout

namespace Document

variable {ts : List Token} (h : ∀ t ∈ ts, t.tag.isDirective = false)
include h

/-- Line splitting keeps every token's tag or retags it `close-parameters`, so no line holds a
directive. -/
theorem lines_undirected : ∀ l ∈ (ofTokens ts).lines, ∀ u ∈ l.tokens, u.tag.isDirective = false := by
  intro l hl u hu
  obtain ⟨t, ht, hk⟩ := exists_kept_of_mem_ofTokens ts hl hu
  rcases hk with rfl | ⟨_, rfl⟩
  · exact h _ ht
  · rfl

theorem render_segment_of_neg (hneg : ∃ e ∈ writtenDepths 0 (ofTokens ts).lines, e < 0) :
    Layout.render (segment ts) =
      .error ⟨(writtenDepths 0 (ofTokens ts).lines).findIdx (· < 0) + 1⟩ := by
  rw [Layout.render, segment, directives,
    Layout.renderFrom_lines_error (lines_undirected h) 0 0 "" hneg, Nat.zero_add]
  rfl

theorem render_segment_of_nonneg (hnonneg : ∀ e ∈ writtenDepths 0 (ofTokens ts).lines, 0 ≤ e) :
    Layout.render (segment ts) = .ok (layoutText (ofTokens ts).lines) := by
  have hok := Layout.renderFrom_lines_ok (lines_undirected h) 0 0 "" hnonneg
  rw [show ((0 : Nat) : Int) = 0 from rfl, String.empty_append] at hok
  exact hok

/-- A layout that succeeds wrote no line below depth zero, and is the text of the lines. -/
theorem render_segment_ok {out : String} (hok : Layout.render (segment ts) = .ok out) :
    (∀ e ∈ writtenDepths 0 (ofTokens ts).lines, 0 ≤ e) ∧ out = layoutText (ofTokens ts).lines := by
  by_cases hneg : ∃ e ∈ writtenDepths 0 (ofTokens ts).lines, e < 0
  · rw [render_segment_of_neg h hneg] at hok
    cases hok
  · have hnonneg : ∀ e ∈ writtenDepths 0 (ofTokens ts).lines, 0 ≤ e := fun e he => by
      by_contra hlt
      exact hneg ⟨e, he, by omega⟩
    rw [render_segment_of_nonneg h hnonneg] at hok
    exact ⟨hnonneg, (Except.ok.inj hok).symm⟩

end Document

open Document in
/-- **The document and the layout agree.** For tokens none of which is a directive, write
`e i` for the depth line `i` of their document is written at (`writtenDepths`). If some `e i`
is negative, the layout of the directive stream fails with the error naming output line `k`,
the first such line counted from one, and writes nothing; otherwise it is each line after a
line feed and `e i` tabs, then one final line feed. -/
theorem render_segment_eq (ts : List Token) (h : ∀ t ∈ ts, t.tag.isDirective = false) :
    ((∃ e ∈ writtenDepths 0 (ofTokens ts).lines, e < 0) →
      ∃ err, Layout.render (segment ts) = .error err ∧
        err.line = (writtenDepths 0 (ofTokens ts).lines).findIdx (· < 0) + 1 ∧
        err.message = "indentation depth would go negative before output line " ++
          toString ((writtenDepths 0 (ofTokens ts).lines).findIdx (· < 0) + 1)) ∧
    ((∀ e ∈ writtenDepths 0 (ofTokens ts).lines, 0 ≤ e) →
      Layout.render (segment ts) = .ok (layoutText (ofTokens ts).lines)) :=
  ⟨fun hneg => ⟨_, render_segment_of_neg h hneg, rfl, rfl⟩, render_segment_of_nonneg h⟩

open Document in
theorem render_segment_eq_of_lone_end :
    (∀ t ∈ [Token.mk .endKw "end" 0], t.tag.isDirective = false) ∧
    (((∃ e ∈ writtenDepths 0 (ofTokens [Token.mk .endKw "end" 0]).lines, e < 0) →
      ∃ err, Layout.render (segment [Token.mk .endKw "end" 0]) = .error err ∧
        err.line =
          (writtenDepths 0 (ofTokens [Token.mk .endKw "end" 0]).lines).findIdx (· < 0) + 1 ∧
        err.message = "indentation depth would go negative before output line " ++
          toString ((writtenDepths 0 (ofTokens [Token.mk .endKw "end" 0]).lines).findIdx (· < 0) +
            1)) ∧
    ((∀ e ∈ writtenDepths 0 (ofTokens [Token.mk .endKw "end" 0]).lines, 0 ≤ e) →
      Layout.render (segment [Token.mk .endKw "end" 0]) =
        .ok (layoutText (ofTokens [Token.mk .endKw "end" 0]).lines))) :=
  ⟨by decide, render_segment_eq _ (by decide)⟩

end LuaReflow
