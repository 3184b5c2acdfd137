import LuaReflow.Reflow
import LuaReflow.Proofs.Layout.Spaced

/-!
# Reflowing the reflowed text

A reflow that succeeds writes a text that scans back to the tokens of its source
(`reflow_keeps_tokens`): as many, in the same order, with the same tags, each with the same
text, but for a line comment, which comes back as its stripped text and one space, and a
blank-line token, which comes back as the blanks laid out again, still two line feeds among
them. Line splitting reads only tags and the texts of `close` tokens, and the layout only tags
and stripped texts (`LaysOutAlike`), so the output splits into the source's lines, is laid out
the same, and reflows to itself (`reflow_idempotent`).
-/

namespace LuaReflow

open List Document Token

/-- A reflow that succeeds scanned its source and laid out the tokens. -/
theorem reflow_eq_ok {config : FormatConfig} {file source out : String}
    (h : reflow config file source = .ok out) :
    ∃ ts, tokenize config.snippetWidth file source = .ok ts ∧
      Layout.render (segment ts) = .ok out := by
  unfold reflow at h
  split at h
  · cases h
  · rename_i ts hts
    split at h
    · cases h
    · rename_i o ho
      cases h
      exact ⟨ts, hts, ho⟩

theorem eq_ok_of_toOption {ε α : Type} {e : Except ε α} {a : α} (h : e.toOption = some a) :
    e = .ok a := by
  cases e with
  | error => cases h
  | ok b => cases h; rfl

/-- The layout of a scanned token list scans back to tokens `Relexed` from them. -/
theorem scan_layoutText {ts : List Token} (hl : Lexed ts) :
    ∃ ts', scan (layoutText (ofTokens ts).lines).toList = .ok ts' ∧ Forall₂ Relexed ts ts' := by
  obtain ⟨ps, hs, rfl, htext⟩ := layoutText_toList ts
  have hg : Gap [] none ps := .plain (by simp) rfl
  obtain ⟨out, hscan, hrel⟩ := scanFrom_spacedText hs hl hg 0 []
  refine ⟨out, ?_, by simpa using hrel⟩
  rw [scan, htext]
  simpa using hscan

/-- **Reflow keeps the tokens.** When a reflow succeeds, its source and its output both scan,
to tokens that correspond one to one, in order: each with the same tag and the same stripped
text; a line comment as its stripped text and one space; a blank-line token as blanks that
still hold two line feeds; every other token with the same text. -/
theorem reflow_keeps_tokens {config : FormatConfig} {file source out : String}
    (h : reflow config file source = .ok out) (width : Nat) (file' : String) :
    ∃ ts ts', tokenize config.snippetWidth file source = .ok ts ∧
      tokenize width file' out = .ok ts' ∧ Forall₂ Relexed ts ts' := by
  obtain ⟨ts, hts, hrender⟩ := reflow_eq_ok h
  have hl := scan_lexed (tokenize_eq_ok.1 hts)
  obtain ⟨-, rfl⟩ := render_segment_ok (fun t ht => (hl.scanned t ht).isDirective_eq_false)
    hrender
  obtain ⟨ts', hscan, hrel⟩ := scan_layoutText hl
  exact ⟨ts, ts', hts, tokenize_eq_ok.2 hscan, hrel⟩

theorem reflow_keeps_tokens_of_comment_and_blank_line :
    reflow {} "" "x = 1\n\n-- note\n" = .ok "\nx = 1 \n \n-- note \n" ∧
      ∃ ts ts', tokenize 50 "" "x = 1\n\n-- note\n" = .ok ts ∧
        tokenize 50 "" "\nx = 1 \n \n-- note \n" = .ok ts' ∧ Forall₂ Relexed ts ts' :=
  have h := eq_ok_of_toOption (by decide +kernel)
  ⟨h, reflow_keeps_tokens h 50 ""⟩

/-! ### The output is laid out as the source -/

/-- Tokens the layout cannot tell apart: the same tag, the same stripped text, and for a
`close` the same text. -/
def LaysOutAlike (t t' : Token) : Prop :=
  t'.tag = t.tag ∧ Text.strip t'.text = Text.strip t.text ∧ (t.tag = .closing → t'.text = t.text)

theorem splitsAlike_laysOutAlike : SplitsAlike LaysOutAlike where
  tag_eq h := h.1
  text_eq_of_closing h := h.2.2
  retag h := ⟨rfl, h.2.1, fun hc => by cases hc⟩

theorem Token.Relexed.laysOutAlike {t t' : Token} (h : Relexed t t') : LaysOutAlike t t' :=
  ⟨h.tag_eq, h.strip_eq, fun hc => h.text_eq (by rw [hc]; decide) (by simp [isLineComment, hc])⟩

theorem getLast?_getD_rel {R : Token → Token → Prop} {xs ys : List Token} {x y : Token}
    (h : Forall₂ R xs ys) (hxy : R x y) : R (xs.getLast?.getD x) (ys.getLast?.getD y) := by
  induction h generalizing x y with
  | nil => exact hxy
  | cons hab _ ih =>
    rw [getLast?_cons, getLast?_cons, Option.getD_some, Option.getD_some]
    exact ih hab

theorem map_tokenText_congr {us us' : List Token} (h : Forall₂ LaysOutAlike us us') :
    us'.map Line.tokenText = us.map Line.tokenText := by
  induction h with
  | nil => rfl
  | cons hab _ ih => rw [map_cons, map_cons, Line.tokenText, Line.tokenText, hab.2.1, ih]

section Alike

variable {l l' : Line} (h : LineRel LaysOutAlike l l')
include h

theorem Document.LineRel.dedentBefore_eq : l'.dedentBefore = l.dedentBefore := by
  have hfirst := (forall₂_cons.1 h).1
  rw [Line.dedentBefore, Line.dedentBefore, hfirst.1]

theorem Document.LineRel.indentAfter_eq : l'.indentAfter = l.indentAfter := by
  obtain ⟨hfirst, hrest⟩ := forall₂_cons.1 h
  -- the line's last token is related too
  have hlast : LaysOutAlike l.last l'.last := getLast?_getD_rel hrest hfirst
  rw [Line.indentAfter, Line.indentAfter, hfirst.1, hlast.1]

theorem Document.LineRel.text_eq : l'.text = l.text := by
  rw [Line.text, Line.text, map_tokenText_congr h]

end Alike

section Lines

variable {ls ls' : List Line} (h : Forall₂ (LineRel LaysOutAlike) ls ls')
include h

theorem writtenDepths_congr (d : Int) : writtenDepths d ls' = writtenDepths d ls := by
  induction h generalizing d with
  | nil => rfl
  | cons hl _ ih =>
    rw [writtenDepths, writtenDepths, LineRel.dedentBefore_eq hl, LineRel.indentAfter_eq hl, ih]

theorem linesText_congr (d : Int) : linesText d ls' = linesText d ls := by
  induction h generalizing d with
  | nil => rfl
  | cons hl _ ih =>
    rw [linesText_cons, linesText_cons, LineRel.dedentBefore_eq hl, LineRel.indentAfter_eq hl, ih,
      writtenLine, writtenLine, LineRel.text_eq hl]

end Lines

/-- **Reflow is idempotent.** The output of a reflow that succeeds reflows to itself, under
any configuration and file name. -/
theorem reflow_idempotent {config : FormatConfig} {file source out : String}
    (h : reflow config file source = .ok out) (config' : FormatConfig) (file' : String) :
    reflow config' file' out = .ok out := by
  obtain ⟨ts, hts, hrender⟩ := reflow_eq_ok h
  have hl := scan_lexed (tokenize_eq_ok.1 hts)
  obtain ⟨hnonneg, rfl⟩ := render_segment_ok (fun t ht => (hl.scanned t ht).isDirective_eq_false)
    hrender
  obtain ⟨ts', hscan, hrel⟩ := scan_layoutText hl
  -- the output's tokens split into lines laid out as the source's
  have hlines := ofTokens_congr splitsAlike_laysOutAlike (hrel.imp fun _ _ h => h.laysOutAlike)
  have htags : ts'.map Token.tag = ts.map Token.tag :=
    map_tag_eq splitsAlike_laysOutAlike (hrel.imp fun _ _ h => h.laysOutAlike)
  have hdir : ∀ t ∈ ts', t.tag.isDirective = false := by
    intro t ht
    have hmem : t.tag ∈ ts.map Token.tag := htags ▸ mem_map_of_mem ht
    obtain ⟨u, hu, hut⟩ := mem_map.1 hmem
    rw [← hut]
    exact (hl.scanned u hu).isDirective_eq_false
  have hnonneg' : ∀ e ∈ writtenDepths 0 (ofTokens ts').lines, 0 ≤ e := by
    rw [writtenDepths_congr hlines]
    exact hnonneg
  have htext : layoutText (ofTokens ts').lines = layoutText (ofTokens ts).lines := by
    rw [layoutText, layoutText, linesText_congr hlines]
  have hrender' := render_segment_of_nonneg hdir hnonneg'
  rw [htext] at hrender'
  unfold reflow
  rw [tokenize_eq_ok.2 hscan]
  dsimp only
  rw [hrender']

theorem reflow_idempotent_of_nested_blocks :
    reflow {} "" "if a then\nwhile b do f(x) end\nelse\n\n-- c\nend" =
        .ok "\nif a then \n\twhile b do \n\t\tf ( x ) \n\tend \nelse \n\t \n\t-- c \nend \n" ∧
      reflow {} "" "\nif a then \n\twhile b do \n\t\tf ( x ) \n\tend \nelse \n\t \n\t-- c \nend \n" =
        .ok "\nif a then \n\twhile b do \n\t\tf ( x ) \n\tend \nelse \n\t \n\t-- c \nend \n" :=
  have h := eq_ok_of_toOption (by decide +kernel)
  ⟨h, reflow_idempotent h {} ""⟩

end LuaReflow
