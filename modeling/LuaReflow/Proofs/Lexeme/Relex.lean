import LuaReflow.Document
import LuaReflow.Proofs.Lexeme.Scanned

/-!
# Scanning the laid-out text again

The layout writes every token as its stripped text followed by one space, and before the first
token of each line a line feed and tabs, its *lead*; after the last line it writes one more
line feed. This file scans such a text (`Token.spacedText`) again and shows that it gives back
the tokens it was written from, each as `Token.Relexed` says:

* a lexeme other than a blank run or a line comment is read again as itself, since the chain
  claims it again whatever blank follows it;
* a line comment is read as its stripped text and the one space after it, since a line feed
  follows that space;
* a blank-line token is read as the blanks around it, which hold its own line feed and the
  next one; a blank run between two other tokens holds at most one line feed and is dropped.

The scan goes token by token (`Token.scanFrom_spacedText`), carrying the blanks read and not
yet tokenized and, after a blank-line token, that token (`Token.Gap`); a blank-line token joins
the gap before it (`Token.Gap.push_blank`).
-/

namespace LuaReflow

open List

namespace Token

/-- A lead the layout writes before a token: nothing inside a line, a line feed and tabs
before the first token of a line. -/
def IsLead (w : List Char) : Prop := w = [] ∨ ∃ n, w = '\n' :: replicate n '\t'

/-- The text the layout writes for tokens, each after its lead: the lead, the stripped text
and one space. -/
def spacedText (ps : List (List Char × Token)) : List Char :=
  ps.flatMap fun p => p.1 ++ Text.stripList p.2.text.toList ++ [' ']

/-- What the layout guarantees of the leads it writes: each is a lead, a token that always
starts a line has one, and so has the token after one that always ends a line. -/
structure Spaced (ps : List (List Char × Token)) : Prop where
  lead : ∀ p ∈ ps, IsLead p.1
  starts : ∀ p ∈ ps, p.2.tag.startsLine = true → p.1 ≠ []
  ends : ps.IsChain fun p q => p.2.tag.endsLine = true → q.1 ≠ []

/-- How a token comes back when the laid-out text is scanned again: with its tag and its
stripped text; a line comment as its stripped text and one space; a blank-line token as the
blanks laid out again, still two line feeds among them; every other token as itself. -/
structure Relexed (t t' : Token) : Prop where
  tag_eq : t'.tag = t.tag
  strip_eq : Text.strip t'.text = Text.strip t.text
  lineComment : t.isLineComment = true → t'.text = Text.strip t.text ++ " "
  blank : t.tag = .blank →
    (∀ x ∈ t'.text.toList, Text.isLexBlank x = true) ∧ 2 ≤ t'.text.toList.count '\n'
  text_eq : t.tag ≠ .blank → t.isLineComment = false → t'.text = t.text

/-- Between two tokens of a rescan: the blanks `P` read and not yet tokenized, and the
blank-line token `pend` they stand for, if any, which the next lead completes. -/
inductive Gap : List Char → Option Token → List (List Char × Token) → Prop
  /-- Blanks within a line, or none. -/
  | plain {P : List Char} {ps : List (List Char × Token)}
      (hP : ∀ x ∈ P, Text.isLexBlank x = true) (hcount : P.count '\n' = 0) : Gap P none ps
  /-- The blanks of a blank-line token, which hold its line feed. -/
  | blank {P : List Char} {b : Token} {ps : List (List Char × Token)}
      (hP : ∀ x ∈ P, Text.isLexBlank x = true) (hb : b.tag = .blank)
      (htext : ∀ x ∈ b.text.toList, Text.isLexBlank x = true) (hcount : 1 ≤ P.count '\n')
      (hnext : ∀ p ∈ ps.head?, p.1 ≠ [] ∧ p.2.tag ≠ .blank) : Gap P (some b) ps

/-! ### Leads and the written text -/

section Leads

variable {w : List Char}

theorem IsLead.lexBlank (h : IsLead w) : ∀ x ∈ w, Text.isLexBlank x = true := by
  rcases h with rfl | ⟨n, rfl⟩
  · simp
  · intro x hx
    rcases mem_cons.1 hx with rfl | hx
    · decide
    · rw [eq_of_mem_replicate hx]
      decide

theorem IsLead.count_le (h : IsLead w) : w.count '\n' ≤ 1 := by
  rcases h with rfl | ⟨n, rfl⟩
  · simp
  · simp [count_replicate]

theorem IsLead.eq_cons (h : IsLead w) (hne : w ≠ []) : ∃ T, w = '\n' :: T ∧ T.count '\n' = 0 := by
  rcases h with rfl | ⟨n, rfl⟩
  · exact absurd rfl hne
  · exact ⟨_, rfl, by simp [count_replicate]⟩

end Leads

theorem spacedText_cons (p : List Char × Token) (ps : List (List Char × Token)) :
    spacedText (p :: ps) = p.1 ++ Text.stripList p.2.text.toList ++ ' ' :: spacedText ps := by
  simp [spacedText]

theorem Spaced.tail {p : List Char × Token} {ps : List (List Char × Token)}
    (h : Spaced (p :: ps)) : Spaced ps :=
  ⟨fun q hq => h.lead q (mem_cons_of_mem p hq), fun q hq => h.starts q (mem_cons_of_mem p hq),
    h.ends.tail⟩

theorem Lexed.tail {t : Token} {ts : List Token} (h : Lexed (t :: ts)) : Lexed ts :=
  ⟨fun u hu => h.scanned u (mem_cons_of_mem t hu), h.apart.tail⟩

/-- After a token that ends its line, the text goes on with a line feed. -/
theorem spacedText_newline {ps : List (List Char × Token)} (hs : Spaced ps)
    (hne : ∀ p ∈ ps.head?, p.1 ≠ []) : ∃ rest, spacedText ps ++ ['\n'] = '\n' :: rest := by
  cases ps with
  | nil => exact ⟨[], rfl⟩
  | cons p ps =>
    obtain ⟨T, hT, -⟩ := (hs.lead p mem_cons_self).eq_cons (hne p rfl)
    refine ⟨T ++ (Text.stripList p.2.text.toList ++ ' ' :: (spacedText ps ++ ['\n'])), ?_⟩
    rw [spacedText_cons, hT]
    simp

/-- After a line comment, the written text goes on with a line feed: the comment ends its line,
so the next token has a lead. -/
theorem spacedText_newline_of_lineComment {w : List Char} {t : Token}
    {ps : List (List Char × Token)} (hs : Spaced ((w, t) :: ps)) (hlc : t.isLineComment = true) :
    ∃ rest, spacedText ps ++ ['\n'] = '\n' :: rest := by
  have hend : t.tag.endsLine = true := by
    simp only [isLineComment, Bool.and_eq_true, beq_iff_eq] at hlc
    rw [hlc.1]
    rfl
  refine spacedText_newline hs.tail fun q hq => ?_
  cases ps with
  | nil => cases hq
  | cons q' ps =>
    obtain rfl : q' = q := Option.some.inj hq
    exact (isChain_cons_cons.1 hs.ends).1 hend

/-! ### The gap between two tokens -/

theorem Gap.lexBlank {P : List Char} {pend : Option Token} {ps : List (List Char × Token)}
    (hg : Gap P pend ps) : ∀ x ∈ P, Text.isLexBlank x = true := by
  cases hg with
  | plain hP => exact hP
  | blank hP => exact hP

/-- After a pending blank-line token, the next token has a lead, which holds a line feed. -/
theorem Gap.count_lead {P w : List Char} {pend : Option Token} {t : Token}
    {ps : List (List Char × Token)} (hg : Gap P pend ((w, t) :: ps)) (hlead : IsLead w) :
    pend.isSome → 1 ≤ w.count '\n' := by
  intro hsome
  cases hg with
  | plain => cases hsome
  | blank _ _ _ _ hnext =>
    obtain ⟨T, rfl, -⟩ := hlead.eq_cons (hnext (w, t) rfl).1
    simp

/-- **A blank-line token joins the gap before it.** Its lead, a line feed and tabs, and the
space written after it are lexer blanks, and the gap then stands for the token, before a token
that has a lead and is no blank-line token. -/
theorem Gap.push_blank {P w : List Char} {t : Token} {ps : List (List Char × Token)}
    (hg : Gap P none ((w, t) :: ps)) (hs : Spaced ((w, t) :: ps))
    (hl : Lexed (((w, t) :: ps).map Prod.snd)) (htb : t.tag = .blank) :
    ∃ T, w = '\n' :: T ∧ (∀ x ∈ t.text.toList, Text.isLexBlank x = true) ∧
      Gap (P ++ '\n' :: T ++ [' ']) (some t) ps := by
  have hlead := hs.lead (w, t) mem_cons_self
  have hw : w ≠ [] := hs.starts (w, t) mem_cons_self (by simp [htb, Tag.startsLine])
  obtain ⟨T, rfl, hT⟩ := hlead.eq_cons hw
  have htext : ∀ x ∈ t.text.toList, Text.isLexBlank x = true := by
    cases hl.scanned t mem_cons_self with
    | blank hblank => exact hblank
    | lineComment => cases htb
    | lexeme hblank => exact absurd htb hblank
  refine ⟨T, rfl, htext, .blank ?_ htb htext (by simp; omega) ?_⟩
  · intro x hx
    simp only [mem_append, mem_singleton] at hx
    rcases hx with (hx | hx) | rfl
    · exact hg.lexBlank x hx
    · exact hlead.lexBlank x hx
    · decide
  · -- the token after a blank line has a lead and is no blank-line token
    intro q hq
    cases ps with
    | nil => cases hq
    | cons q' ps =>
      obtain rfl : q' = q := Option.some.inj hq
      have hend := (isChain_cons_cons.1 hs.ends).1 (by simp [htb, Tag.endsLine])
      refine ⟨hend, fun hqb => ?_⟩
      exact (isChain_cons_cons.1 hl.apart).1 ⟨htb, hqb⟩

/-! ### How each kind of token comes back -/

theorem isLineComment_lexeme {tag : Tag} {c : Char} {r : List Char} {offset : Int}
    (hlong : tag = .comment → (Bracket.level? (r.drop 1)).isSome) :
    isLineComment ⟨tag, String.ofList (c :: r), offset⟩ = false := by
  unfold isLineComment
  by_cases htc : tag = .comment
  · have hsome := hlong htc
    rw [drop_one] at hsome
    simp [htc, hsome]
  · simp [htc]

theorem relexed_lexeme {tag : Tag} {c : Char} {r : List Char} {offset offset' : Int}
    (hblank : tag ≠ .blank) (hlong : tag = .comment → (Bracket.level? (r.drop 1)).isSome) :
    Relexed ⟨tag, String.ofList (c :: r), offset⟩ ⟨tag, String.ofList (c :: r), offset'⟩ where
  tag_eq := rfl
  strip_eq := rfl
  lineComment h := by rw [isLineComment_lexeme hlong] at h; cases h
  blank h := absurd h hblank
  text_eq _ _ := rfl

theorem relexed_lineComment {body : List Char} {offset offset' : Int}
    (hlevel : Bracket.level? body = none) :
    Relexed ⟨.comment, String.ofList ('-' :: '-' :: body), offset⟩
      ⟨.comment, String.ofList ('-' :: '-' :: (body.rdropWhile Text.isBlank ++ [' '])), offset'⟩ where
  tag_eq := rfl
  strip_eq := by
    rw [Text.strip_ofList, Text.strip_ofList, Text.stripList_dash_dash_space,
      Text.stripList_dash_dash]
  lineComment _ := by
    rw [Text.strip_ofList, Text.stripList_dash_dash, ← String.toList_inj]
    simp
  blank h := by cases h
  text_eq _ h := by simp [isLineComment, hlevel] at h

theorem relexed_blank {b : Token} {W : List Char} {offset : Int} (hb : b.tag = .blank)
    (htext : ∀ x ∈ b.text.toList, Text.isLexBlank x = true)
    (hW : ∀ x ∈ W, Text.isLexBlank x = true) (hcount : 2 ≤ W.count '\n') :
    Relexed b ⟨.blank, String.ofList W, offset⟩ where
  tag_eq := hb.symm
  strip_eq := by
    rw [Text.strip_ofList, Text.stripList_eq_nil_of_lexBlank hW, Text.strip,
      Text.stripList_eq_nil_of_lexBlank htext]
  lineComment h := by simp [isLineComment, hb] at h
  blank _ := ⟨by simpa using hW, by simpa using hcount⟩
  text_eq h := absurd hb h

/-! ### One token at a time -/

/-- The blanks before a token, or before the end: read whole, and a blank-line token exactly
when a blank-line token stands for them. -/
theorem scanFrom_gap {P w next : List Char} {pend : Option Token}
    {ps : List (List Char × Token)} (hg : Gap P pend ps) (hw : ∀ x ∈ w, Text.isLexBlank x = true)
    (hwc : w.count '\n' ≤ 1) (hw1 : pend.isSome → 1 ≤ w.count '\n')
    (hnext : ∀ d ∈ next.head?, Text.isLexBlank d = false) (pos : Nat) (acc : List Token) :
    ∃ bs, Forall₂ Relexed pend.toList bs ∧
      scanFrom pos acc (P ++ w ++ next) = scanFrom (pos + (P ++ w).length) (bs.reverse ++ acc) next := by
  have hW : ∀ x ∈ P ++ w, Text.isLexBlank x = true := by
    intro x hx
    rcases mem_append.1 hx with hx | hx
    · exact hg.lexBlank x hx
    · exact hw x hx
  rw [append_assoc, ← append_assoc P, scanFrom_blanks hW hnext, count_append]
  cases hg with
  | plain hP hcount =>
    -- blanks within a line and one lead hold at most one line feed
    refine ⟨[], Forall₂.nil, ?_⟩
    rw [if_neg (by omega)]
    rfl
  | blank hP hb htext hcount hnext' =>
    -- the blank line's own line feed and the next one
    have h1 := hw1 rfl
    refine ⟨[⟨.blank, String.ofList (P ++ w), pos⟩],
      Forall₂.cons (relexed_blank hb htext hW (by rw [count_append]; omega)) Forall₂.nil, ?_⟩
    rw [if_pos (by omega)]
    rfl

/-- A token other than a blank-line token is read again as `Relexed` says, and leaves the
blanks after it within its line. -/
theorem scanFrom_scanned {t : Token} (ht : Scanned t) (htb : t.tag ≠ .blank) {rest : List Char}
    (hrest : t.isLineComment = true → ∃ rest', rest = '\n' :: rest') (pos : Nat)
    (acc : List Token) :
    ∃ t' P' pos', Relexed t t' ∧ (∀ x ∈ P', Text.isLexBlank x = true) ∧ P'.count '\n' = 0 ∧
      scanFrom pos acc (Text.stripList t.text.toList ++ ' ' :: rest) =
        scanFrom pos' (t' :: acc) (P' ++ rest) := by
  cases ht with
  | blank => exact absurd rfl htb
  | @lineComment body offset hnl hlevel =>
    obtain ⟨rest', rfl⟩ := hrest (by simp [isLineComment, hlevel])
    -- the comment is read up to the line feed, so with the space before it
    have hB := rdropWhile_prefix (p := Text.isBlank) (l := body)
    have hchain := Rule.chain_lineComment (fun hm => hnl (hB.subset hm))
      (level?_eq_none_mono hlevel hB) rest'
    have hchain' : Rule.chain '-' (('-' :: (body.rdropWhile Text.isBlank ++ [' '])) ++
        '\n' :: rest') = .take ('-' :: (body.rdropWhile Text.isBlank ++ [' '])).length
          (some .comment) := by
      simpa using hchain
    have h := scanFrom_lexeme hchain' pos acc
    refine ⟨⟨.comment, String.ofList ('-' :: '-' :: (body.rdropWhile Text.isBlank ++ [' '])), pos⟩,
      [], pos + (('-' :: (body.rdropWhile Text.isBlank ++ [' '])).length + 1),
      relexed_lineComment hlevel, by simp, rfl, ?_⟩
    rw [String.toList_ofList, Text.stripList_dash_dash, nil_append]
    simpa using h
  | @lexeme tag c r offset hblank hlong hends hstable =>
    -- the lexeme is written whole and read again whole, and the space after it stays
    refine ⟨⟨tag, String.ofList (c :: r), pos⟩, [' '], pos + (r.length + 1),
      relexed_lexeme hblank hlong, List.all_eq_true.1 rfl, rfl, ?_⟩
    rw [String.toList_ofList, Text.stripList_cons_eq_self hends.1 hends.2]
    exact scanFrom_lexeme (hstable ' ' rest (by decide)) pos acc

/-- A token other than a blank-line token begins with a character that is no lexer blank. -/
theorem head_stripList_scanned {t : Token} (ht : Scanned t) (htb : t.tag ≠ .blank) (s : List Char) :
    ∀ d ∈ (Text.stripList t.text.toList ++ s).head?, Text.isLexBlank d = false := by
  cases ht with
  | blank => exact absurd rfl htb
  | lineComment =>
    intro d hd
    rw [String.toList_ofList, Text.stripList_dash_dash] at hd
    rw [← Option.mem_some_iff.1 hd]
    rfl
  | lexeme _ _ hends =>
    intro d hd
    rw [String.toList_ofList, Text.stripList_cons_eq_self hends.1 hends.2] at hd
    rw [← Option.mem_some_iff.1 hd]
    cases hlb : Text.isLexBlank _
    · rfl
    · rw [Text.isBlank_of_isLexBlank _ hlb] at hends
      cases hends.1

/-! ### The whole text -/

/-- **The laid-out text scans back to its tokens.** From any gap, the rest of the written text
and the final line feed scan to tokens that are `Relexed` from the pending blank-line token and
the tokens still to come. -/
theorem scanFrom_spacedText {ps : List (List Char × Token)} (hs : Spaced ps)
    (hl : Lexed (ps.map Prod.snd)) {P : List Char} {pend : Option Token} (hg : Gap P pend ps)
    (pos : Nat) (acc : List Token) :
    ∃ out, scanFrom pos acc (P ++ spacedText ps ++ ['\n']) = .ok (acc.reverse ++ out) ∧
      Forall₂ Relexed (pend.toList ++ ps.map Prod.snd) out := by
  induction ps generalizing P pend pos acc with
  | nil =>
    -- the final line feed closes the last gap
    have hend : ∀ d ∈ ([] : List Char).head?, Text.isLexBlank d = false := by simp
    obtain ⟨bs, hbs, hscan⟩ := scanFrom_gap (w := ['\n']) hg (List.all_eq_true.1 rfl) (by decide)
      (fun _ => by decide) hend pos acc
    rw [append_nil] at hscan
    refine ⟨bs, ?_, by simpa using hbs⟩
    rw [spacedText, flatMap_nil, append_nil, hscan, scanFrom]
    simp
  | cons p ps ih =>
    obtain ⟨w, t⟩ := p
    have hlead := hs.lead (w, t) mem_cons_self
    have ht : Scanned t := hl.scanned t mem_cons_self
    by_cases htb : t.tag = .blank
    · -- a blank-line token: its lead and space join the gap, which now stands for it
      have hpend : pend = none := by
        cases hg with
        | plain => rfl
        | blank _ _ _ _ hnext => exact absurd htb (hnext (w, t) rfl).2
      subst hpend
      obtain ⟨T, rfl, htext, hg'⟩ := hg.push_blank hs hl htb
      obtain ⟨out, hscan, hrel⟩ := ih hs.tail hl.tail hg' pos acc
      refine ⟨out, ?_, by simpa using hrel⟩
      rw [spacedText_cons, Text.stripList_eq_nil_of_lexBlank htext, ← hscan]
      simp
    · -- any other token: the gap before it, then the token itself
      obtain ⟨bs, hbs, hgap⟩ := scanFrom_gap hg hlead.lexBlank hlead.count_le (hg.count_lead hlead)
        (head_stripList_scanned ht htb (' ' :: (spacedText ps ++ ['\n']))) pos acc
      obtain ⟨t', P', pos', hrel, hP', hcount', htok⟩ :=
        scanFrom_scanned ht htb (spacedText_newline_of_lineComment hs) (pos + (P ++ w).length)
          (bs.reverse ++ acc)
      obtain ⟨out, hscan, hout⟩ := ih hs.tail hl.tail (.plain hP' hcount') pos'
        (t' :: (bs.reverse ++ acc))
      refine ⟨bs ++ t' :: out, ?_, ?_⟩
      · rw [spacedText_cons, show P ++ (w ++ Text.stripList t.text.toList ++ ' ' :: spacedText ps) ++
          ['\n'] = P ++ w ++ (Text.stripList t.text.toList ++ ' ' :: (spacedText ps ++ ['\n'])) by
          simp, hgap, htok, ← append_assoc, hscan]
        simp
      · simpa using rel_append hbs (Forall₂.cons hrel hout)

end Token

end LuaReflow
