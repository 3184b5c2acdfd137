import LuaReflow.Proofs.Lexeme.Scanned

/-!
# The tokens tile the source

A scan reads the source from its first character to its last. Each round claims a lexeme at
the current position, and a run of blanks with fewer than two line feeds is dropped whole. So
the source is the tokens in order, each after a gap of lexer blanks that holds at most one line
feed, and one more such gap at the end (`Token.Tiling`). A blank run with two line feeds is a
token of its own. It follows no gap and no blank follows it, since a run is read as far as the
blanks go.

* `Token.scan_tiling` — every scan that succeeds tiles its source;
* `Token.Tiling.slice`, `Token.Tiling.ordered` — each token's text is the source at its offset,
  and the tokens come in order;
* `Token.Tiling.abuts`, `Token.Tiling.apart` — a blank-line token touches the tokens on both
  sides, and none of them is one;
* **`Token.tokenize_tiles`** — every token list the lexer returns tiles its source, and carries
  none of the tags that only line splitting and the layout give.
-/

namespace LuaReflow

open List

/-- Tags the lexer gives: neither the close of a parameter list, nor a sentinel, nor a render
directive. -/
def Tag.isLexed (t : Tag) : Bool := t != .closeParameters && !t.isSentinel && !t.isDirective

namespace Rule

variable {c : Char} {r : List Char} {k : Nat}

theorem wordTag_isLexed (w : String) : (wordTag w).isLexed = true := by
  cases hk : Tag.ofKeyword? w with
  | some t =>
    have hkw : ∀ t ∈ Tag.keywords, t.isLexed = true := by decide
    rw [wordTag, hk]
    exact hkw t (mem_of_find?_eq_some hk)
  | none =>
    simp only [wordTag, hk]
    split <;> rfl

theorem punctuationTag?_isLexed {t : Tag} (h : punctuationTag? c = some t) : t.isLexed = true := by
  unfold punctuationTag? at h
  split_ifs at h <;> cases h <;> rfl

/-- No rule gives a tag that only line splitting or the layout gives. -/
theorem claim_isLexed {R : Rule} {t : Tag} (h : R.claim c r = .take k (some t)) :
    t.isLexed = true := by
  cases R
  case punctuation =>
    simp only [claim_punctuation] at h
    split at h
    · cases h
      exact punctuationTag?_isLexed ‹_›
    · cases h
  all_goals
    simp only [claim_quotedString, claim_longString, claim_comment, claim_blankRun,
        claim_numeral, claim_vararg, claim_concat, claim_identifier, claim_operator,
        claim_assign] at h
    (repeat' split at h) <;> cases h <;> first | rfl | exact wordTag_isLexed _

theorem chain_isLexed {t : Tag} (h : chain c r = .take k (some t)) : t.isLexed = true := by
  obtain ⟨R, -, hR⟩ := firstClaim_eq_take h
  exact claim_isLexed hR

end Rule

namespace Token

/-- A gap between tokens: lexer blanks only, with at most one line feed. -/
def IsGap (gap : List Char) : Prop :=
  (∀ x ∈ gap, Text.isLexBlank x = true) ∧ gap.count '\n' ≤ 1

/-- `Tiling pos cs ts`: the text `cs`, whose first character stands at offset `pos`, is the
tokens `ts` in order, each after a gap, with one more gap at the end. Each token's text is not
empty and stands at the token's offset. A token is a blank-line token exactly when its text is
lexer blanks only; it then holds two line feeds, follows no gap, and no blank follows it. -/
inductive Tiling : Nat → List Char → List Token → Prop
  /-- Only a gap is left. -/
  | last {pos : Nat} {gap : List Char} (hgap : IsGap gap) : Tiling pos gap []
  /-- A gap, the text of the token `t`, then the rest. -/
  | cons {pos : Nat} {gap rest : List Char} {t : Token} {ts : List Token} (hgap : IsGap gap)
      (hne : t.text.toList ≠ []) (hoff : t.offset = ↑(pos + gap.length))
      (hblank : t.tag = .blank ↔ ∀ x ∈ t.text.toList, Text.isLexBlank x = true)
      (hrun : t.tag = .blank → 2 ≤ t.text.toList.count '\n' ∧ gap = [] ∧
        ∀ d ∈ rest.head?, Text.isLexBlank d = false)
      (htail : Tiling (pos + gap.length + t.text.length) rest ts) :
      Tiling pos (gap ++ t.text.toList ++ rest) (t :: ts)

theorem isGap_nil : IsGap [] := ⟨by simp, by simp⟩

/-- Lexer blanks in front of a text that starts with no blank are no part of it. -/
theorem eq_nil_of_lexBlank {gap rest : List Char} (hgap : ∀ x ∈ gap, Text.isLexBlank x = true)
    (hhead : ∀ d ∈ (gap ++ rest).head?, Text.isLexBlank d = false) : gap = [] := by
  cases gap with
  | nil => rfl
  | cons x xs =>
    have := hhead x rfl
    rw [hgap x mem_cons_self] at this
    cases this

namespace Tiling

/-- A dropped run of blanks, followed by no blank, is the first gap of what follows it. -/
theorem prepend {pos : Nat} {W rest : List Char} {ts : List Token} (hW : IsGap W)
    (hnext : ∀ d ∈ rest.head?, Text.isLexBlank d = false) (h : Tiling (pos + W.length) rest ts) :
    Tiling pos (W ++ rest) ts := by
  cases h with
  | last hgap =>
    obtain rfl := @eq_nil_of_lexBlank _ [] hgap.1 (by simpa using hnext)
    simpa using Tiling.last hW
  | cons hgap hne hoff hblank hrun htail =>
    rename_i gap rest' t ts
    rw [append_assoc] at hnext
    obtain rfl := eq_nil_of_lexBlank hgap.1 hnext
    -- the token starts with no blank, so it is no blank-line token
    have hnb : t.tag ≠ .blank := fun hb => by
      obtain ⟨x, xs, hx⟩ := exists_cons_of_ne_nil hne
      have := hnext x (by simp [hx])
      rw [hblank.1 hb x (by simp [hx])] at this
      cases this
    have hcs : W ++ ([] ++ t.text.toList ++ rest') = W ++ t.text.toList ++ rest' := by simp
    rw [hcs]
    refine .cons hW hne (by simpa using hoff) hblank (fun hb => absurd hb hnb) ?_
    simpa using htail

/-- Each token's text is the source at its offset. -/
theorem slice {pos : Nat} {cs : List Char} {ts : List Token} (h : Tiling pos cs ts) :
    ∀ t ∈ ts, ∃ n : Nat, t.offset = ↑(pos + n) ∧ (cs.drop n).take t.text.length = t.text.toList := by
  induction h with
  | last => simp
  | cons hgap hne hoff hblank hrun htail ih =>
    rename_i pos gap rest t ts
    intro u hu
    rcases mem_cons.1 hu with rfl | hu
    · refine ⟨gap.length, hoff, ?_⟩
      rw [append_assoc, drop_left, ← String.length_toList, take_left]
    · obtain ⟨n, hn, hslice⟩ := ih u hu
      refine ⟨gap.length + t.text.length + n, by rw [hn]; congr 1; omega, ?_⟩
      have hdrop : (gap ++ t.text.toList ++ rest).drop (gap.length + t.text.length + n) =
          rest.drop n := by
        rw [← String.length_toList, ← length_append, ← drop_drop, drop_left]
      rw [hdrop]
      exact hslice

/-- The first token stands at or after the offset the text starts at. -/
theorem le_offset_head {pos : Nat} {cs : List Char} {u : Token} {us : List Token}
    (h : Tiling pos cs (u :: us)) : (pos : Int) ≤ u.offset := by
  cases h with
  | cons _ _ hoff => rw [hoff]; omega

/-- The tokens come in order, each ending before the next one starts. -/
theorem ordered {pos : Nat} {cs : List Char} {ts : List Token} (h : Tiling pos cs ts) :
    ts.IsChain fun t u => t.offset + (t.text.length : Int) ≤ u.offset := by
  induction h with
  | last => exact isChain_nil
  | cons hgap hne hoff hblank hrun htail ih =>
    rename_i pos gap rest t ts
    cases ts with
    | nil => exact isChain_singleton _
    | cons u us =>
      refine isChain_cons_cons.2 ⟨?_, ih⟩
      have := le_offset_head htail
      rw [hoff]
      push_cast at this ⊢
      omega

/-- A blank-line token touches the tokens on both sides: no gap stands between them. -/
theorem abuts {pos : Nat} {cs : List Char} {ts : List Token} (h : Tiling pos cs ts) :
    ts.IsChain fun t u => (t.tag = .blank ∨ u.tag = .blank) → t.offset + (t.text.length : Int) = u.offset := by
  induction h with
  | last => exact isChain_nil
  | cons hgap hne hoff hblank hrun htail ih =>
    rename_i pos gap rest t ts
    cases ts with
    | nil => exact isChain_singleton _
    | cons u us =>
      refine isChain_cons_cons.2 ⟨fun hb => ?_, ih⟩
      cases htail with
      | @cons _ gap' rest' _ _ hgap' hne' hoff' hblank' hrun' =>
        -- the gap before `u` is empty: no blank follows a blank-line `t`, and none precedes a
        -- blank-line `u`
        have hgap'nil : gap' = [] := by
          rcases hb with hb | hb
          · exact @eq_nil_of_lexBlank _ (u.text.toList ++ rest') hgap'.1
              (by rw [← append_assoc]; exact (hrun hb).2.2)
          · exact (hrun' hb).2.1
        rw [hoff', hoff, hgap'nil, length_nil]
        push_cast
        omega

/-- No two blank-line tokens are neighbours. -/
theorem apart {pos : Nat} {cs : List Char} {ts : List Token} (h : Tiling pos cs ts) :
    ts.IsChain fun t u => ¬(t.tag = .blank ∧ u.tag = .blank) := by
  induction h with
  | last => exact isChain_nil
  | cons hgap hne hoff hblank hrun htail ih =>
    rename_i pos gap rest t ts
    cases ts with
    | nil => exact isChain_singleton _
    | cons u us =>
      refine isChain_cons_cons.2 ⟨fun ⟨ht, hu⟩ => ?_, ih⟩
      cases htail with
      | @cons _ gap' rest' _ _ hgap' hne' hoff' hblank' hrun' =>
        -- what follows `t` is the text of `u`, which starts with a blank
        obtain ⟨x, xs, hx⟩ := exists_cons_of_ne_nil hne'
        have hnext := (hrun ht).2.2 x
        rw [(hrun' hu).2.1, hx] at hnext
        have := hnext (by simp)
        rw [hblank'.1 hu x (by simp [hx])] at this
        cases this

/-- A lexeme read at `pos`, before the rest, is the next token, after no gap. -/
theorem cons_lexeme {pos : Nat} {cs rest : List Char} {t : Tag} {ts : List Token} (hne : cs ≠ [])
    (hblank : t = .blank ↔ ∀ x ∈ cs, Text.isLexBlank x = true)
    (hrun : t = .blank → 2 ≤ cs.count '\n' ∧ ∀ d ∈ rest.head?, Text.isLexBlank d = false)
    (htail : Tiling (pos + cs.length) rest ts) :
    Tiling pos (cs ++ rest) (⟨t, String.ofList cs, pos⟩ :: ts) := by
  have h : Tiling pos ([] ++ (String.ofList cs).toList ++ rest) (⟨t, String.ofList cs, pos⟩ :: ts) :=
    @Tiling.cons pos [] rest ⟨t, String.ofList cs, pos⟩ ts isGap_nil (by simpa using hne) (by simp)
      (by simpa using hblank)
      (fun hb => by simpa using hrun hb) (by simpa using htail)
  simpa using h

/-- Each token's text is not empty; a blank-line token holds lexer blanks only, two line feeds
among them, and no other token does. -/
theorem forall_mem {pos : Nat} {cs : List Char} {ts : List Token} (h : Tiling pos cs ts) :
    ∀ t ∈ ts, t.text.toList ≠ [] ∧
      (t.tag = .blank ↔ ∀ x ∈ t.text.toList, Text.isLexBlank x = true) ∧
      (t.tag = .blank → 2 ≤ t.text.toList.count '\n') := by
  induction h with
  | last => simp
  | cons hgap hne hoff hblank hrun htail ih =>
    intro u hu
    rcases mem_cons.1 hu with rfl | hu
    · exact ⟨hne, hblank, fun hb => (hrun hb).1⟩
    · exact ih u hu

end Tiling

/-! ### The scan tiles what it reads -/

/-- **A scan tiles what it reads.** The tokens a scan finds after the tokens `acc` tile the text
it reads. -/
theorem scanFrom_tiling {pos : Nat} {acc : List Token} {cs : List Char} {ts : List Token}
    (h : scanFrom pos acc cs = .ok ts) : ∃ us, ts = acc.reverse ++ us ∧ Tiling pos cs us := by
  fun_induction scanFrom pos acc cs with
  | case1 pos acc =>
    cases h
    exact ⟨[], (append_nil _).symm, .last isGap_nil⟩
  | case2 => cases h
  | case3 => cases h
  | case4 pos acc c r k tag hchain lexeme acc' ih =>
    obtain ⟨us, rfl, hus⟩ := ih h
    cases tag with
    | none =>
      -- only a blank run is dropped, and it holds fewer than two line feeds
      have hc : Text.isLexBlank c = true := by
        cases hc : Text.isLexBlank c
        · obtain ⟨t, ht, -⟩ := chain_tag_of_not_lexBlank hc hchain
          cases ht
        · rfl
      have hrun := chain_of_lexBlank hc r
      rw [hchain] at hrun
      obtain ⟨hk, htag⟩ := Claim.take.inj hrun
      have hcount : ¬(c :: r.takeWhile Text.isLexBlank).count '\n' ≥ 2 := fun h2 => by
        rw [if_pos h2] at htag
        cases htag
      have hW : IsGap (c :: r.take k) := by
        rw [hk, take_length_takeWhile]
        refine ⟨fun x hx => ?_, by omega⟩
        rcases mem_cons.1 hx with rfl | hx
        · exact hc
        · exact mem_takeWhile_imp hx
      refine ⟨us, rfl, ?_⟩
      have hcs : c :: r = (c :: r.take k) ++ r.drop k := by simp
      rw [hcs]
      exact Tiling.prepend hW (blankRun_next hc hchain) hus
    | some t =>
      refine ⟨⟨t, String.ofList (c :: r.take k), pos⟩ :: us, ?_, ?_⟩
      · simp only [acc', lexeme, reverse_cons, append_assoc, singleton_append]
      -- a blank-line token is a blank run, read as far as the blanks go
      have hblank : t = .blank ↔ ∀ x ∈ c :: r.take k, Text.isLexBlank x = true := by
        refine ⟨fun hb => (Rule.chain_blank (hb ▸ hchain)).1, fun hall => ?_⟩
        have hrun := chain_of_lexBlank (hall c mem_cons_self) r
        rw [hchain] at hrun
        obtain ⟨-, htag⟩ := Claim.take.inj hrun
        split at htag
        · exact Option.some.inj htag
        · cases htag
      have hcs : c :: r = (c :: r.take k) ++ r.drop k := by simp
      rw [hcs]
      refine Tiling.cons_lexeme (cons_ne_nil _ _) hblank (fun hb => ?_) hus
      obtain ⟨hall, hcount⟩ := Rule.chain_blank (hb ▸ hchain)
      exact ⟨hcount, blankRun_next (hall c mem_cons_self) hchain⟩

/-- Every scan that succeeds tiles its source. -/
theorem scan_tiling {cs : List Char} {ts : List Token} (h : scan cs = .ok ts) : Tiling 0 cs ts := by
  obtain ⟨us, rfl, hus⟩ := scanFrom_tiling h
  simpa using hus

/-- A scanned token carries a tag the lexer gives. -/
theorem Scanned.isLexed {t : Token} (h : Scanned t) : t.tag.isLexed = true := by
  cases h with
  | blank => rfl
  | lineComment => rfl
  | lexeme _ _ _ hstable => exact Rule.chain_isLexed (hstable ' ' [] rfl)

/-- How the tokens `ts` of a lexer lie on its source `cs`. -/
structure Tiles (cs : List Char) (ts : List Token) : Prop where
  /-- The source is the tokens in order, each after a gap of lexer blanks with at most one line
  feed, and one more such gap at the end. -/
  tiling : Tiling 0 cs ts
  /-- Each text is not empty, and is the source at the token's offset. -/
  slice : ∀ t ∈ ts, t.text ≠ "" ∧
    ∃ n : Nat, t.offset = n ∧ (cs.drop n).take t.text.length = t.text.toList
  /-- Each token ends before the next one starts. -/
  ordered : ts.IsChain fun t u => t.offset + (t.text.length : Int) ≤ u.offset
  /-- A token is a blank-line token exactly when its text is lexer blanks only. -/
  blank_iff : ∀ t ∈ ts, t.tag = .blank ↔ ∀ x ∈ t.text.toList, Text.isLexBlank x = true
  /-- A blank-line token holds two line feeds. -/
  two_newlines : ∀ t ∈ ts, t.tag = .blank → 2 ≤ t.text.toList.count '\n'
  /-- A blank-line token touches the tokens on both sides. -/
  abuts : ts.IsChain fun t u =>
    (t.tag = .blank ∨ u.tag = .blank) → t.offset + (t.text.length : Int) = u.offset
  /-- No two blank-line tokens are neighbours. -/
  apart : ts.IsChain fun t u => ¬(t.tag = .blank ∧ u.tag = .blank)
  /-- No token closes a parameter list, is a sentinel or is a render directive. -/
  lexed : ∀ t ∈ ts, t.tag ≠ .closeParameters ∧ t.tag.isSentinel = false ∧
    t.tag.isDirective = false

theorem Tiling.tiles {cs : List Char} {ts : List Token} (h : Tiling 0 cs ts)
    (hlexed : ∀ t ∈ ts, t.tag.isLexed = true) : Tiles cs ts where
  tiling := h
  slice t ht := by
    obtain ⟨n, hn, hslice⟩ := h.slice t ht
    refine ⟨fun he => (h.forall_mem t ht).1 (by rw [he]; rfl), n, by simpa using hn, hslice⟩
  ordered := h.ordered
  blank_iff t ht := (h.forall_mem t ht).2.1
  two_newlines t ht := (h.forall_mem t ht).2.2
  abuts := h.abuts
  apart := h.apart
  lexed t ht := by
    have := hlexed t ht
    simp only [Tag.isLexed, Bool.and_eq_true, bne_iff_ne, ne_eq, Bool.not_eq_true'] at this
    exact ⟨this.1.1, this.1.2, this.2⟩

/-- **The tokens tile the source.** Every token list the lexer returns lies on its source as
follows: the source is the tokens in order, each after a gap of lexer blanks with at most one
line feed, and one more such gap at the end; each text is not empty and is the source at the
token's offset, and each token ends before the next starts. A token is a blank-line token
exactly when its text is lexer blanks only; such a token holds two line feeds, touches the
tokens on both sides, and neither of them is one. No token closes a parameter list, is a
sentinel or is a render directive. So a stretch of blanks between two other tokens is dropped
when it holds fewer than two line feeds, and is one blank-line token otherwise. -/
theorem tokenize_tiles {width : Nat} {file source : String} {ts : List Token}
    (h : tokenize width file source = .ok ts) : Tiles source.toList ts := by
  have hscan := tokenize_eq_ok.1 h
  exact (scan_tiling hscan).tiles fun t ht => ((scan_lexed hscan).scanned t ht).isLexed

/-- The tokens of `local x = 1`, a blank line, an indented comment and `y`. -/
def blankLineTokens : List Token :=
  [⟨.localKw, "local", 0⟩, ⟨.word, "x", 6⟩, ⟨.assign, "=", 8⟩, ⟨.number, "1", 10⟩,
    ⟨.blank, "\n\n  ", 11⟩, ⟨.comment, "-- note", 15⟩, ⟨.word, "y", 23⟩]

/-- The blank line and the indentation after it are one token, the line feed after the comment
is dropped. -/
theorem tokenize_tiles_blankLine :
    tokenize 20 "" "local x = 1\n\n  -- note\ny" = .ok blankLineTokens ∧
      Tiles "local x = 1\n\n  -- note\ny".toList blankLineTokens :=
  have h : tokenize 20 "" "local x = 1\n\n  -- note\ny" = .ok blankLineTokens := by
    decide +kernel
  ⟨h, tokenize_tiles h⟩

end Token

end LuaReflow
