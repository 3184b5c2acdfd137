import LuaReflow.Proofs.Lexeme.Faults
import LuaReflow.Proofs.Lexeme.Grammar

/-!
# The lexical classes

Every token the lexer emits is a lexeme of its tag, described as a language rather than by the
rule that read it (`Lexeme`): keywords, names, numerals, quoted and long strings, line and long
comments, operators, punctuation and blank lines. The chain asks its rules in a fixed order and
the first that claims the text decides, so a lexeme is also one that no earlier rule claims at
the same text: a name never starts with a digit, since a numeral is read first; a `-` is no
start of `--`; `.` and `..` are no start of `..` and `...`; a sign or a `.` before a digit starts
a numeral; an operator is the longest one there.

* `Rule.chain_lexeme` — every lexeme the chain claims with a tag is a `Lexeme` of that tag,
  before the text that follows it; one lemma per rule, each taking the declines of the earlier
  rules it needs;
* `Token.scanFrom_claimed` — every token of a scan is a claim of the chain at its offset;
* **`Token.tokenize_lexemes`** — every token of a source is a `Lexeme` of its tag at its offset.
-/

namespace LuaReflow

open List

/-- `Lexeme t w after`: `w` is a lexeme of the tag `t` before the text `after`. Where an earlier
rule of the chain would claim a longer or another lexeme at `w ++ after`, the constructor says
that `after` does not allow it. -/
inductive Lexeme : Tag → List Char → List Char → Prop
  /-- A block keyword, spelt as its tag, that no identifier character continues. -/
  | keyword {t : Tag} {after : List Char} (ht : t ∈ Tag.keywords)
      (hend : ∀ d ∈ after.head?, Rule.isIdentChar d = false) :
      Lexeme t t.spelling.toList after
  /-- A name: a letter or `_`, then letters, digits and `_` as far as they go; neither a keyword
  nor a word operator. -/
  | word {c : Char} {w after : List Char} (hc : c.isAlpha = true ∨ c = '_')
      (hw : ∀ x ∈ w, Rule.isIdentChar x = true)
      (hkw : ∀ t ∈ Tag.keywords, t.spelling.toList ≠ c :: w)
      (hop : String.ofList (c :: w) ∉ Rule.wordOperators)
      (hend : ∀ d ∈ after.head?, Rule.isIdentChar d = false) :
      Lexeme .word (c :: w) after
  /-- A numeral such that no longer prefix of the numeric run there is one. -/
  | number {w after : List Char} (hw : Numeral.Literal w)
      (hmax : ∀ n, w.length < n → n ≤ ((w ++ after).takeWhile Numeral.isRunChar).length →
        ¬Numeral.Literal (((w ++ after).takeWhile Numeral.isRunChar).take n)) :
      Lexeme .number w after
  /-- A quote, a quoted body and the same quote. -/
  | quoted {q : Char} {body after : List Char} (hq : q = '"' ∨ q = '\'')
      (hb : Rule.QuotedBody q body) : Lexeme .string (q :: (body ++ [q])) after
  /-- A long bracket. -/
  | longString {w after : List Char} (hw : Bracket.LongBracket w) : Lexeme .string w after
  /-- `--` and a long bracket. -/
  | longComment {w after : List Char} (hw : Bracket.LongBracket w) :
      Lexeme .comment ('-' :: '-' :: w) after
  /-- `--` and the rest of its line, which opens no long bracket. -/
  | lineComment {body after : List Char} (hnl : '\n' ∉ body)
      (hopen : ∀ n, ¬Bracket.opener n <+: body) (hend : after = [] ∨ after.head? = some '\n') :
      Lexeme .comment ('-' :: '-' :: body) after
  /-- A symbol operator, the longest one there; a `-` that starts no comment, and a sign that
  starts no numeral. -/
  | symbol {w after : List Char} (hw : w ∈ Rule.operators)
      (hlong : ∀ o ∈ Rule.operators, o <+: w ++ after → o.length ≤ w.length)
      (hdash : w = ['-'] → after.head? ≠ some '-')
      (hsign : w = ['+'] ∨ w = ['-'] → ∀ d ∈ after.head?, Numeral.isDecimalDigit d = false) :
      Lexeme .operator w after
  /-- `..`, which starts no `...`. -/
  | concat {after : List Char} (hend : after.head? ≠ some '.') :
      Lexeme .operator ['.', '.'] after
  /-- `and`, `or` or `not`, that no identifier character continues. -/
  | wordOperator {w after : List Char} (hw : String.ofList w ∈ Rule.wordOperators)
      (hend : ∀ d ∈ after.head?, Rule.isIdentChar d = false) : Lexeme .operator w after
  /-- `...`. -/
  | vararg {after : List Char} : Lexeme .vararg ['.', '.', '.'] after
  /-- `.` or `:`; a `.` that starts neither `..` nor a numeral. -/
  | access {c : Char} {after : List Char} (hc : c = '.' ∨ c = ':')
      (hdot : c = '.' →
        after.head? ≠ some '.' ∧ ∀ d ∈ after.head?, Numeral.isDecimalDigit d = false) :
      Lexeme .access [c] after
  /-- `;` or `,`. -/
  | separator {c : Char} {after : List Char} (hc : c = ';' ∨ c = ',') : Lexeme .separator [c] after
  /-- `[`, `{` or `(`. -/
  | opening {c : Char} {after : List Char} (hc : c = '[' ∨ c = '{' ∨ c = '(') :
      Lexeme .opening [c] after
  /-- `]`, `}` or `)`. -/
  | closing {c : Char} {after : List Char} (hc : c = ']' ∨ c = '}' ∨ c = ')') :
      Lexeme .closing [c] after
  /-- `=`, which starts no `==`. -/
  | assign {after : List Char} (hend : after.head? ≠ some '=') : Lexeme .assign ['='] after
  /-- Lexer blanks as far as they go, two line feeds among them. -/
  | blank {w after : List Char} (hw : ∀ x ∈ w, Text.isLexBlank x = true) (hnl : 2 ≤ w.count '\n')
      (hend : ∀ d ∈ after.head?, Text.isLexBlank d = false) : Lexeme .blank w after

/-! ### Numerals read before other lexemes -/

namespace Numeral

/-- An optional sign and decimal digits make a numeral. -/
theorem literal_sign_digits {s ds : List Char} (hs : IsSign s) (hds : IsRun isDecimalDigit ds) :
    Literal (s ++ ds) := by
  have hm : Mantissa isDecimalDigit (ds ++ [] ++ []) := .lead hds (.inl rfl) (by simp)
  have hu : Unsigned (ds ++ [] ++ [] ++ []) := .decimal hm (.inl rfl)
  simp only [append_nil] at hu
  exact .mk hs hu

/-- An optional sign, a point and a decimal digit make a numeral. -/
theorem literal_sign_point_digit {s : List Char} {d : Char} (hs : IsSign s)
    (hd : isDecimalDigit d = true) : Literal (s ++ ['.', d]) := by
  have hm : Mantissa isDecimalDigit ['.', d] := .point ⟨by simp, by simpa using hd⟩
  have hu : Unsigned (['.', d] ++ []) := .decimal hm (.inl rfl)
  rw [append_nil] at hu
  exact .mk hs hu

theorem isDecimalDigit_of_isDigit {c : Char} (h : c.isDigit = true) : isDecimalDigit c = true := by
  simpa [isDecimalDigit, Char.isDigit, Char.le_def] using h

theorem isRunChar_of_isDecimalDigit {c : Char} (h : isDecimalDigit c = true) :
    isRunChar c = true := by
  simp [isRunChar, isHexDigit, h]

/-- A prefix of a text whose characters all belong to a class is a prefix of the run of the
class there. -/
theorem take_takeWhile_eq_of_all {p : Char → Bool} {w l : List Char} (hw : ∀ x ∈ w, p x = true)
    (hpre : w <+: l) : (l.takeWhile p).take w.length = w := by
  induction w generalizing l with
  | nil => simp
  | cons x w ih =>
    obtain ⟨l', rfl⟩ : ∃ l', l = x :: l' := by
      cases l with
      | nil => simp at hpre
      | cons y l' => exact ⟨l', by rw [(cons_prefix_cons.1 hpre).1]⟩
    rw [takeWhile_cons_of_pos (hw x mem_cons_self), length_cons, take_succ_cons,
      ih (fun y hy => hw y (mem_cons_of_mem x hy)) (cons_prefix_cons.1 hpre).2]

/-- When the number rule declines, no numeral made of run characters starts the text. -/
theorem not_literal_of_decline {c : Char} {r w : List Char}
    (hn : Rule.numeral.claim c r = .decline) (hw : Literal w) (hrun : ∀ x ∈ w, isRunChar x = true)
    (hpre : w <+: c :: r) : False := by
  rcases claim_numeral_cases c r with ⟨-, hnone⟩ | ⟨-, k, hk, -⟩
  · apply hnone w.length
    rw [take_takeWhile_eq_of_all hrun hpre]
    exact hw
  · rw [hk] at hn
    cases hn

/-- When the number rule declines, the text starts with no decimal digit. -/
theorem not_digit_of_decline {c : Char} {r : List Char} (hn : Rule.numeral.claim c r = .decline) :
    isDecimalDigit c = false := by
  cases hd : isDecimalDigit c with
  | false => rfl
  | true =>
    have hlit : Literal ([] ++ [c]) := literal_sign_digits (.inl rfl) ⟨by simp, by simpa using hd⟩
    exact (not_literal_of_decline hn hlit (by simpa using isRunChar_of_isDecimalDigit hd)
      (by simp)).elim

/-- When the number rule declines at a sign or a point, no decimal digit follows it. -/
theorem not_digit_after_of_decline {c : Char} {r : List Char}
    (hn : Rule.numeral.claim c r = .decline) (hc : c = '+' ∨ c = '-' ∨ c = '.') :
    ∀ d ∈ r.head?, isDecimalDigit d = false := by
  intro d hdr
  obtain ⟨r', rfl⟩ := head?_eq_some_iff.1 (Option.mem_def.1 hdr)
  cases hd : isDecimalDigit d with
  | false => rfl
  | true =>
    have hrun : ∀ x ∈ [c, d], isRunChar x = true := by
      have hdrun := isRunChar_of_isDecimalDigit hd
      rcases hc with rfl | rfl | rfl <;> simp [hdrun] <;> decide
    -- a sign and a digit, or a point and a digit, is a numeral
    have hlit : Literal [c, d] := by
      rcases hc with rfl | rfl | rfl
      · have : Literal (['+'] ++ [d]) := literal_sign_digits (.inr (.inl rfl)) ⟨by simp, by simpa using hd⟩
        simpa using this
      · have : Literal (['-'] ++ [d]) := literal_sign_digits (.inr (.inr rfl)) ⟨by simp, by simpa using hd⟩
        simpa using this
      · have : Literal ([] ++ ['.', d]) := literal_sign_point_digit (.inl rfl) hd
        simpa using this
    exact (not_literal_of_decline hn hlit hrun (by simp)).elim

end Numeral

namespace Rule

/-! ### One rule at a time -/

section Rules

variable {c : Char} {r : List Char} {k : Nat} {t : Tag}

/-- The character after a run of a class, if any, is not of the class. -/
theorem head?_dropWhile (p : Char → Bool) (l : List Char) :
    ∀ d ∈ (l.dropWhile p).head?, p d = false := by
  intro d hd
  have := head?_dropWhile_not p l
  rw [Option.mem_def.1 hd] at this
  exact this

/-- A quoted string is a quote, a quoted body and the same quote. -/
theorem quotedString_lexeme (h : quotedString.claim c r = .take k (some t)) :
    Lexeme t (c :: r.take k) (r.drop k) := by
  obtain ⟨hq, he, htag⟩ := quotedString_eq_take_iff.1 h
  cases htag
  have hbs : c ≠ '\\' := by rcases hq with rfl | rfl <;> decide
  obtain ⟨b, rest, rfl, hb, rfl⟩ := (quoteEnd?_eq_some_iff hbs).1 he
  have htake : (b ++ c :: rest).take (b.length + 1) = b ++ [c] := by
    rw [take_length_add_append]
    rfl
  rw [htake]
  exact .quoted hq hb

/-- A long string is a long bracket. -/
theorem longString_lexeme (h : longString.claim c r = .take k (some t)) :
    Lexeme t (c :: r.take k) (r.drop k) := by
  obtain ⟨hs, htag⟩ := longString_eq_take_iff.1 h
  cases htag
  rw [← take_succ_cons]
  exact .longString (Bracket.longBracket_of_scan hs)

/-- A comment is `--` and a long bracket, or `--` and the rest of its line. -/
theorem comment_lexeme (h : comment.claim c r = .take k (some t)) :
    Lexeme t (c :: r.take k) (r.drop k) := by
  obtain ⟨rfl, ⟨body, rfl, ⟨n, hs, rfl⟩ | ⟨hs, rfl⟩⟩, htag⟩ := comment_eq_take_iff.1 h
  all_goals cases htag
  · rw [take_succ_cons]
    exact .longComment (Bracket.longBracket_of_scan hs)
  · -- the comment runs to the line feed, and no opener starts after its `--`
    have htake : ('-' :: body).takeWhile (· != '\n') = '-' :: body.takeWhile (· != '\n') :=
      takeWhile_cons_of_pos (by decide)
    have hdrop : ('-' :: body).dropWhile (· != '\n') = body.dropWhile (· != '\n') :=
      dropWhile_cons_of_pos (by decide)
    rw [take_length_takeWhile, Token.drop_length_takeWhile, htake, hdrop]
    refine .lineComment (fun hnl => ?_) (fun n hpre => ?_) ?_
    · simpa using mem_takeWhile_imp hnl
    · have hlevel := Bracket.scan_eq_absent_iff.1 hs
      have hline : body.takeWhile (· != '\n') <+: body := takeWhile_prefix _
      rw [Bracket.level?_eq_some_iff.2 (hpre.trans hline)] at hlevel
      cases hlevel
    · cases hd : body.dropWhile (· != '\n') with
      | nil => exact .inl rfl
      | cons d ds =>
        have := head?_dropWhile (· != '\n') body d (by simp [hd])
        exact .inr (by simpa using this)

/-- A blank line is a run of lexer blanks, read whole, with two line feeds. -/
theorem blankRun_lexeme (h : blankRun.claim c r = .take k (some t)) :
    Lexeme t (c :: r.take k) (r.drop k) := by
  obtain ⟨hc, rfl, htag⟩ := blankRun_eq_take_iff.1 h
  split at htag
  · rename_i hcount
    cases htag
    rw [take_length_takeWhile, Token.drop_length_takeWhile _ r]
    refine .blank (fun x hx => ?_) hcount (head?_dropWhile _ r)
    rcases mem_cons.1 hx with rfl | hx
    · exact hc
    · exact mem_takeWhile_imp hx
  · cases htag

/-- A numeral is the longest numeral prefix of the numeric run. -/
theorem numeral_lexeme (h : numeral.claim c r = .take k (some t)) :
    Lexeme t (c :: r.take k) (r.drop k) := by
  obtain ⟨hc, hl, htag⟩ := numeral_eq_take_iff.1 h
  cases htag
  -- the text is the lexeme and what follows it, and its run is the run there
  have hrun : (c :: r.take k ++ r.drop k).takeWhile Numeral.isRunChar =
      c :: r.takeWhile Numeral.isRunChar := by
    rw [cons_append, take_append_drop, takeWhile_cons_of_pos hc]
  obtain ⟨hle, hlit⟩ := Numeral.longestPrefix_spec hl
  have hkr : k ≤ r.length := by
    have hpre : r.takeWhile Numeral.isRunChar <+: r := takeWhile_prefix _
    have := hpre.length_le
    simp at hle
    omega
  have hw : c :: r.take k = (c :: r.takeWhile Numeral.isRunChar).take (k + 1) := by
    rw [take_succ_cons, ← take_eq_take_takeWhile (by simpa using hle)]
  refine .number ?_ fun n hn hnle => ?_
  · rw [hw, ← Numeral.isLiteral_iff]
    exact hlit
  · rw [hrun] at hnle ⊢
    rw [← Numeral.isLiteral_iff, Numeral.longestPrefix_maximal (by simp at hn ⊢; omega) hnle]
    simp

/-- `...` is the vararg. -/
theorem vararg_lexeme (h : vararg.claim c r = .take k (some t)) :
    Lexeme t (c :: r.take k) (r.drop k) := by
  obtain ⟨rfl, htake, rfl, htag⟩ := vararg_eq_take_iff.1 h
  cases htag
  rw [htake]
  exact .vararg

/-- `..` is the concatenation, when it starts no `...`. -/
theorem concat_lexeme (hv : vararg.claim c r = .decline) (h : concat.claim c r = .take k (some t)) :
    Lexeme t (c :: r.take k) (r.drop k) := by
  obtain ⟨rfl, htake, rfl, htag⟩ := concat_eq_take_iff.1 h
  cases htag
  obtain ⟨r', rfl⟩ : ∃ r', r = '.' :: r' := by
    cases r with
    | nil => simp at htake
    | cons d r' => simp at htake; exact ⟨r', by rw [htake]⟩
  rw [htake, drop_one, tail_cons]
  refine .concat fun hhead => ?_
  -- a third point would make the vararg
  obtain ⟨r'', rfl⟩ := head?_eq_some_iff.1 hhead
  exact vararg_eq_decline_iff.1 hv ⟨rfl, rfl⟩

/-- A name, a keyword or a word operator is an identifier run, read whole; a name never starts
with a digit, which the number rule reads first. -/
theorem identifier_lexeme (hn : numeral.claim c r = .decline)
    (h : identifier.claim c r = .take k (some t)) : Lexeme t (c :: r.take k) (r.drop k) := by
  obtain ⟨hc, rfl, htag⟩ := identifier_eq_take_iff.1 h
  cases htag
  rw [take_length_takeWhile, Token.drop_length_takeWhile _ r]
  have hend := head?_dropWhile isIdentChar r
  unfold wordTag
  cases hk : Tag.ofKeyword? (String.ofList (c :: r.takeWhile isIdentChar)) with
  | some t =>
    -- a keyword, spelt as the run
    have hspell : t.spelling = String.ofList (c :: r.takeWhile isIdentChar) := by
      simpa using find?_some hk
    have hw : c :: r.takeWhile isIdentChar = t.spelling.toList := by
      rw [hspell, String.toList_ofList]
    simp only
    rw [hw]
    exact .keyword (mem_of_find?_eq_some hk) hend
  | none =>
    simp only
    split
    · rename_i hop
      exact .wordOperator (by simpa using hop) hend
    · rename_i hop
      -- a name: no digit first, no keyword, no word operator
      have hdigit : c.isDigit = false := by
        cases hd : c.isDigit with
        | false => rfl
        | true =>
          have := Numeral.not_digit_of_decline hn
          rw [Numeral.isDecimalDigit_of_isDigit hd] at this
          cases this
      have hhead : c.isAlpha = true ∨ c = '_' := by
        rcases isIdentChar_iff.1 hc with ha | hd | hu
        · exact .inl ha
        · rw [hdigit] at hd; cases hd
        · exact .inr hu
      refine .word hhead (fun x hx => mem_takeWhile_imp hx) (fun t ht hspell => ?_)
        (by simpa using hop) hend
      have := find?_eq_none.1 hk t ht
      rw [← hspell, String.ofList_toList] at this
      simp at this

/-- Each punctuation character is its own lexeme; a `.` starts neither `..` nor a numeral. -/
theorem punctuation_lexeme (hn : numeral.claim c r = .decline) (hcat : concat.claim c r = .decline)
    (h : punctuation.claim c r = .take k (some t)) : Lexeme t (c :: r.take k) (r.drop k) := by
  obtain ⟨rfl, t', hp, htag⟩ := punctuation_eq_take_iff.1 h
  cases htag
  rw [take_zero, drop_zero]
  unfold punctuationTag? at hp
  simp only [Bool.or_eq_true, decide_eq_true_eq] at hp
  split_ifs at hp with h1 h2 h3 h4 <;> cases hp
  · refine .access h1 fun hdot => ⟨fun hhead => ?_, ?_⟩
    · -- a second point would make the concatenation
      obtain ⟨r', rfl⟩ := head?_eq_some_iff.1 hhead
      exact concat_eq_decline_iff.1 hcat ⟨hdot, rfl⟩
    · exact Numeral.not_digit_after_of_decline hn (.inr (.inr hdot))
  · exact .separator h2
  · exact .opening (by simpa [or_assoc] using h3)
  · exact .closing (by simpa [or_assoc] using h4)

/-- The operators, longer ones first. -/
theorem operators_pairwise : operators.Pairwise fun a b => b.length ≤ a.length := by
  decide

/-- A symbol operator is the longest operator there; a `-` starts no comment, and a sign no
numeral. -/
theorem operator_lexeme (hcom : comment.claim c r = .decline) (hn : numeral.claim c r = .decline)
    (h : operator.claim c r = .take k (some t)) : Lexeme t (c :: r.take k) (r.drop k) := by
  obtain ⟨op, hf, rfl, htag⟩ := operator_eq_take_iff.1 h
  cases htag
  obtain ⟨-, pre, post, hsplit, hfirst⟩ := find?_eq_some_iff_append.1 hf
  -- the lexeme is the operator itself
  obtain ⟨hop, -, hw⟩ := operator_found hf
  have happ : op ++ r.drop (op.length - 1) = c :: r :=
    calc op ++ r.drop (op.length - 1)
        = (c :: r.take (op.length - 1)) ++ r.drop (op.length - 1) := by rw [hw]
      _ = c :: r := by rw [cons_append, take_append_drop]
  rw [hw]
  refine .symbol hop (fun o ho hpo => ?_) (fun hdash hhead => ?_) (fun hsign => ?_)
  · -- operators before `op` are no prefix, and those after it are no longer
    rw [happ] at hpo
    rw [hsplit] at ho
    have hpw := operators_pairwise
    rw [hsplit, pairwise_append, pairwise_cons] at hpw
    rcases mem_append.1 ho with ho | ho
    · have := hfirst o ho
      rw [Bracket.isPrefixOf_iff.2 hpo] at this
      cases this
    · rcases mem_cons.1 ho with rfl | ho
      · exact le_rfl
      · exact hpw.2.1.1 o ho
  · -- `--` starts a comment
    subst hdash
    obtain ⟨rfl, -⟩ := cons_eq_cons.1 hw.symm
    exact comment_eq_decline_iff.1 hcom ⟨rfl, by simpa using hhead⟩
  · have hc : c = '+' ∨ c = '-' := by
      rcases hsign with rfl | rfl
      · exact .inl (cons_eq_cons.1 hw).1
      · exact .inr (cons_eq_cons.1 hw).1
    have hdrop : r.drop (op.length - 1) = r := by
      rcases hsign with rfl | rfl <;> rfl
    rw [hdrop]
    exact Numeral.not_digit_after_of_decline hn (hc.elim .inl (.inr ∘ .inl))

/-- `=` is the assignment, when it starts no `==`. -/
theorem assign_lexeme (hop : operator.claim c r = .decline)
    (h : assign.claim c r = .take k (some t)) : Lexeme t (c :: r.take k) (r.drop k) := by
  obtain ⟨rfl, rfl, htag⟩ := assign_eq_take_iff.1 h
  cases htag
  rw [take_zero, drop_zero]
  refine .assign fun hhead => ?_
  obtain ⟨r', rfl⟩ := head?_eq_some_iff.1 hhead
  exact operator_ne_decline (by decide : ['=', '='] ∈ operators) (by simp) hop

theorem firstClaim_cons_eq_take {R : Rule} {rules : List Rule} {tag : Option Tag}
    (h : firstClaim c r (R :: rules) = .take k tag) :
    R.claim c r = .take k tag ∨ R.claim c r = .decline ∧ firstClaim c r rules = .take k tag := by
  rw [firstClaim_cons] at h
  cases hR : R.claim c r with
  | decline => rw [hR] at h; exact .inr ⟨rfl, h⟩
  | unclosed => rw [hR] at h; cases h
  | take j tag' => rw [hR] at h; exact .inl h

/-- **The chain claims lexemes.** A lexeme the chain claims with a tag is a lexeme of that tag
before the text that follows it. The rules are asked in the chain's order, and each lexeme
lemma takes the declines of the earlier rules it needs. -/
theorem chain_lexeme (h : chain c r = .take k (some t)) : Lexeme t (c :: r.take k) (r.drop k) := by
  rw [chain_eq] at h
  rcases firstClaim_cons_eq_take h with h | ⟨-, h⟩
  · exact quotedString_lexeme h
  rcases firstClaim_cons_eq_take h with h | ⟨-, h⟩
  · exact longString_lexeme h
  rcases firstClaim_cons_eq_take h with h | ⟨hcom, h⟩
  · exact comment_lexeme h
  rcases firstClaim_cons_eq_take h with h | ⟨-, h⟩
  · exact blankRun_lexeme h
  rcases firstClaim_cons_eq_take h with h | ⟨hn, h⟩
  · exact numeral_lexeme h
  rcases firstClaim_cons_eq_take h with h | ⟨hv, h⟩
  · exact vararg_lexeme h
  rcases firstClaim_cons_eq_take h with h | ⟨hcat, h⟩
  · exact concat_lexeme hv h
  rcases firstClaim_cons_eq_take h with h | ⟨-, h⟩
  · exact identifier_lexeme hn h
  rcases firstClaim_cons_eq_take h with h | ⟨-, h⟩
  · exact punctuation_lexeme hn hcat h
  rcases firstClaim_cons_eq_take h with h | ⟨hop, h⟩
  · exact operator_lexeme hcom hn h
  rcases firstClaim_cons_eq_take h with h | ⟨-, h⟩
  · exact assign_lexeme hop h
  cases h

end Rules

end Rule

namespace Token

/-- Every token of a scan, past the tokens found before it, is a claim of the chain at its
offset: the text there is a character and the rest, the chain claims a lexeme of the token's tag
in it, and the token's text is that lexeme. -/
theorem scanFrom_claimed {pos : Nat} {acc : List Token} {cs : List Char} {ts : List Token}
    (h : scanFrom pos acc cs = .ok ts) :
    ∀ t ∈ ts, t ∈ acc ∨ ∃ n c r k, t.offset = ↑(pos + n) ∧ cs.drop n = c :: r ∧
      t.text = String.ofList (c :: r.take k) ∧ Rule.chain c r = .take k (some t.tag) := by
  fun_induction scanFrom pos acc cs with
  | case1 pos acc =>
    cases h
    intro t ht
    exact .inl (mem_reverse.1 ht)
  | case2 => cases h
  | case3 => cases h
  | case4 pos acc c r k tag hchain lexeme acc' ih =>
    intro u hu
    rcases ih h u hu with hu | ⟨n, c', r', k', hoff, hdrop, htext, hclaim⟩
    · -- a token found before, or the lexeme read here
      cases tag with
      | none => exact .inl hu
      | some t' =>
        rcases mem_cons.1 hu with rfl | hu
        · exact .inr ⟨0, c, r, k, by simp, rfl, rfl, hchain⟩
        · exact .inl hu
    · -- a token found past the lexeme
      have hk := Rule.chain_take_le hchain
      refine .inr ⟨n + (k + 1), c', r', k', ?_, ?_, htext, hclaim⟩
      · rw [hoff]
        simp [lexeme]
        omega
      · rw [show n + (k + 1) = (k + n) + 1 by omega, drop_succ_cons, ← drop_drop, hdrop]

/-- **Every token is a lexeme of its tag.** Every token the lexer returns stands at its offset in
the source, and its text is a lexeme of its tag before the rest of the source: a keyword spelt
as its tag; a name that starts with a letter or `_` and is no keyword or word operator; a numeral
with no longer numeral prefix in its numeric run; a quoted string or a long bracket; `--` and a
long bracket, or `--` and the rest of its line; an operator, the longest one there; `...`; one
punctuation character; a blank line. Where an earlier rule of the chain would claim another
lexeme at the same text, the text after the token rules it out. -/
theorem tokenize_lexemes {width : Nat} {file source : String} {ts : List Token}
    (h : tokenize width file source = .ok ts) :
    ∀ t ∈ ts, ∃ n : Nat, t.offset = n ∧ ∃ after, source.toList.drop n = t.text.toList ++ after ∧
      Lexeme t.tag t.text.toList after := by
  intro t ht
  rcases scanFrom_claimed (tokenize_eq_ok.1 h) t ht with hacc | ⟨n, c, r, k, hoff, hdrop, htext, hclaim⟩
  · cases hacc
  refine ⟨n, by simpa using hoff, r.drop k, ?_, ?_⟩
  · rw [hdrop, htext, String.toList_ofList, cons_append, take_append_drop]
  · rw [htext, String.toList_ofList]
    exact Rule.chain_lexeme hclaim

/-- The tokens of `a..-1 e5`: a name, the concatenation, a signed numeral and a name. -/
theorem tokenize_lexemes_concat :
    tokenize 50 "" "a..-1 e5" = .ok [⟨.word, "a", 0⟩, ⟨.operator, "..", 1⟩, ⟨.number, "-1", 3⟩,
        ⟨.word, "e5", 6⟩] ∧
      ∀ t ∈ [(⟨.word, "a", 0⟩ : Token), ⟨.operator, "..", 1⟩, ⟨.number, "-1", 3⟩, ⟨.word, "e5", 6⟩],
        ∃ n : Nat, t.offset = n ∧ ∃ after, "a..-1 e5".toList.drop n = t.text.toList ++ after ∧
          Lexeme t.tag t.text.toList after :=
  have h : tokenize 50 "" "a..-1 e5" = .ok [⟨.word, "a", 0⟩, ⟨.operator, "..", 1⟩,
      ⟨.number, "-1", 3⟩, ⟨.word, "e5", 6⟩] := by
    decide +kernel
  ⟨h, tokenize_lexemes h⟩

end Token

end LuaReflow
