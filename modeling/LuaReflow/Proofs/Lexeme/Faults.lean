import LuaReflow.Proofs.Lexeme.Language
import LuaReflow.Proofs.Lexeme.Progress
import LuaReflow.Proofs.Lexeme.Scanned
import LuaReflow.Proofs.Lexeme.Settled

/-!
# Where and why the scan stops

A lexical error names the offset where the scan stopped. The rules look ahead without bound (a
numeral's run, a long bracket's search for its closer, a quoted string's search for its quote),
yet none of them decides a lexeme from text past its end. So the text before the offset scans on
its own, and the error is about the offset itself:

* `Rule.claim_decline_take`, `Rule.claim_take_take` — a rule that declines at a text declines at
  each prefix of it, and a rule that claims a lexeme claims it again at each prefix that holds it;
  `Rule.chain_take_take` — so does the chain;
* `Token.scanFrom_error` — a failing scan fails at a character of its text, where the chain finds
  no claim or an unclosed long bracket, and the text before that character scans;
* `Rule.chain_eq_unclosed_iff` — the chain stops at an unclosed long bracket exactly when a long
  bracket, or a long comment's bracket after `--`, opens there and its closer does not follow;
* `Rule.unrecognized_of_chain` — when no rule claims a text, its first character starts no
  lexeme, or it is a `~` without `=`, or it is a quote whose body runs to the end of the text.

* **`Token.tokenize_error_reports_stop`** — every lexical error reports its offset this way
  (`Token.ReportsStop`).
-/

namespace LuaReflow

open List

namespace Rule

/-! ### The rules decide from the text they read -/

section Prefix

variable {c : Char} {r : List Char} {m : Nat}

/-- A word of length `j` that starts a prefix of a text starts the text. -/
theorem take_eq_of_take_take {l w : List Char} {j : Nat} (h : (l.take m).take j = w)
    (hw : w.length = j) : l.take j = w := by
  rw [take_take] at h
  have hj : j ≤ m := by
    have := congrArg length h
    simp at this
    omega
  rwa [Nat.min_eq_left hj] at h

/-- A rule that declines at a text declines at every prefix of it. -/
theorem claim_decline_take {R : Rule} (h : R.claim c r = .decline) (m : Nat) :
    R.claim c (r.take m) = .decline := by
  cases R with
  | quotedString =>
    rw [quotedString_eq_decline_iff] at h ⊢
    intro hq
    cases hk : quoteEnd? c (r.take m) with
    | none => rfl
    | some k =>
      -- a quote that closes within the prefix closes the whole text there
      obtain ⟨-, hkm, -, hfind⟩ := quoteEnd?_take_append hk
      have hkm' : k ≤ m := by simp at hkm; omega
      have hr : (r.take m).take k ++ r.drop k = r := by
        rw [take_take, Nat.min_eq_left hkm', take_append_drop]
      have := hfind (r.drop k)
      rw [hr, h hq] at this
      cases this
  | longString =>
    rw [longString_eq_decline_iff, Bracket.scan_eq_absent_iff] at h ⊢
    -- no opener starts the text, so none starts a prefix of it
    exact Token.level?_eq_none_mono h (cons_prefix_cons.2 ⟨rfl, take_prefix m r⟩)
  | comment =>
    rw [comment_eq_decline_iff] at h ⊢
    rintro ⟨hc, hhead⟩
    -- a prefix that starts with `-` is cut from a text that does
    refine h ⟨hc, ?_⟩
    cases m with
    | zero => simp at hhead
    | succ m =>
      cases r with
      | nil => simp at hhead
      | cons d ds => simpa using hhead
  | blankRun => rwa [blankRun_eq_decline_iff] at h ⊢
  | numeral =>
    rw [numeral_eq_decline_iff] at h ⊢
    intro hc
    -- the run at the prefix is a prefix of the run at the text
    have hrun : c :: (r.take m).takeWhile Numeral.isRunChar <+:
        c :: r.takeWhile Numeral.isRunChar := by
      rw [← take_takeWhile]
      exact cons_prefix_cons.2 ⟨rfl, take_prefix m _⟩
    exact Numeral.longestPrefix_eq_zero_of_prefix (h hc) hrun
  | vararg =>
    rw [vararg_eq_decline_iff] at h ⊢
    -- two points at the prefix are the first two characters of the text
    exact fun ⟨hc, hr⟩ => h ⟨hc, take_eq_of_take_take hr rfl⟩
  | concat =>
    rw [concat_eq_decline_iff] at h ⊢
    exact fun ⟨hc, hr⟩ => h ⟨hc, take_eq_of_take_take hr rfl⟩
  | identifier => rwa [identifier_eq_decline_iff] at h ⊢
  | punctuation => rwa [punctuation_eq_decline_iff] at h ⊢
  | operator =>
    rw [operator_eq_decline_iff, find?_eq_none] at h ⊢
    -- an operator at the start of the prefix stands at the start of the text
    intro o ho hpre
    apply h o ho
    have hp : o <+: c :: r.take m := by simpa using hpre
    simpa using hp.trans (cons_prefix_cons.2 ⟨rfl, take_prefix m r⟩)
  | assign => rwa [assign_eq_decline_iff] at h ⊢

/-- A rule that claims a lexeme claims it again at every prefix of the text that holds it. -/
theorem claim_take_take {R : Rule} {k : Nat} {tag : Option Tag} (h : R.claim c r = .take k tag)
    (hkm : k ≤ m) : R.claim c (r.take m) = .take k tag := by
  cases R with
  | quotedString =>
    obtain ⟨hc, hq, htag⟩ := quotedString_eq_take_iff.1 h
    have e : r.take m = r.take k ++ (r.drop k).take (m - k) := by
      rw [← take_add, Nat.add_sub_cancel' hkm]
    exact quotedString_eq_take_iff.2 ⟨hc, by rw [e, (quoteEnd?_take_append hq).2.2.2], htag⟩
  | longString =>
    obtain ⟨hs, htag⟩ := longString_eq_take_iff.1 h
    have e : c :: r.take m = (c :: r).take (k + 1) ++ ((c :: r).drop (k + 1)).take (m - k) := by
      rw [← take_add, show k + 1 + (m - k) = m + 1 by omega, take_succ_cons]
    exact longString_eq_take_iff.2 ⟨by rw [e, (Bracket.scan_take_append hs).2.2], htag⟩
  | comment =>
    obtain ⟨rfl, ⟨body, rfl, ⟨n, hs, rfl⟩ | ⟨hs, rfl⟩⟩, rfl⟩ := comment_eq_take_iff.1 h
    · obtain ⟨m, rfl⟩ : ∃ m', m = m' + 1 := ⟨m - 1, by omega⟩
      have e : body.take m = body.take n ++ (body.drop n).take (m - n) := by
        rw [← take_add, Nat.add_sub_cancel' (by omega)]
      rw [take_succ_cons, claim_comment_dash, e, (Bracket.scan_take_append hs).2.2]
    · -- the comment's line holds the second `-`, so the prefix starts with it
      have hk1 : 1 ≤ (('-' :: body).takeWhile (· != '\n')).length := by
        rw [takeWhile_cons_of_pos (by decide)]
        simp
      obtain ⟨m, rfl⟩ : ∃ m', m = m' + 1 := ⟨m - 1, by omega⟩
      -- no opener after `--` in the prefix either, and its line ends where the text's does
      have habs : Bracket.scan (body.take m) = .absent :=
        Bracket.scan_eq_absent_iff.2 (Token.level?_eq_none_mono
          (Bracket.scan_eq_absent_iff.1 hs) ⟨body.drop m, take_append_drop m body⟩)
      rw [take_succ_cons, claim_comment_dash, habs, ← take_succ_cons, ← take_takeWhile, length_take,
        Nat.min_eq_right hkm]
  | blankRun =>
    obtain ⟨hc, rfl, rfl⟩ := blankRun_eq_take_iff.1 h
    -- the run stops within the prefix, at the same place
    have hrun : (r.take m).takeWhile Text.isLexBlank = r.takeWhile Text.isLexBlank := by
      rw [← take_takeWhile, take_of_length_le hkm]
    rw [blankRun_eq_take_iff, hrun]
    exact ⟨hc, rfl, rfl⟩
  | numeral =>
    obtain ⟨hc, hl, htag⟩ := numeral_eq_take_iff.1 h
    -- the run at the prefix is the run cut at `m`, which still holds the numeral
    have hspec := (Numeral.longestPrefix_spec hl).1
    have hcut := Numeral.longestPrefix_of_prefix hl
      (cons_prefix_cons.2 ⟨rfl, take_prefix m (r.takeWhile Numeral.isRunChar)⟩)
      (by simp only [length_cons, length_take] at hspec ⊢; omega)
    exact numeral_eq_take_iff.2 ⟨hc, by rw [← take_takeWhile, hcut], htag⟩
  | vararg =>
    obtain ⟨hc, hr, rfl, htag⟩ := vararg_eq_take_iff.1 h
    exact vararg_eq_take_iff.2 ⟨hc, by rw [take_take, Nat.min_eq_left hkm, hr], rfl, htag⟩
  | concat =>
    obtain ⟨hc, hr, rfl, htag⟩ := concat_eq_take_iff.1 h
    exact concat_eq_take_iff.2 ⟨hc, by rw [take_take, Nat.min_eq_left hkm, hr], rfl, htag⟩
  | identifier =>
    obtain ⟨hc, rfl, rfl⟩ := identifier_eq_take_iff.1 h
    have hrun : (r.take m).takeWhile isIdentChar = r.takeWhile isIdentChar := by
      rw [← take_takeWhile, take_of_length_le hkm]
    rw [identifier_eq_take_iff, hrun]
    exact ⟨hc, rfl, rfl⟩
  | punctuation =>
    rw [claim_punctuation] at h ⊢
    exact h
  | operator =>
    obtain ⟨op, hf, rfl, htag⟩ := operator_eq_take_iff.1 h
    have hpre := (operator_found hf).2.1
    -- the operator lies within the prefix, and an operator found there stands in the text
    have hcut : op <+: c :: r.take m := by
      rw [← take_succ_cons]
      exact prefix_take_iff.2 ⟨hpre, by omega⟩
    have hfind : operators.find? (·.isPrefixOf (c :: r.take m)) = some op := by
      refine find?_eq_some_of_imp hf (fun o _ hq => ?_) (by simpa using hcut)
      have hq' : o <+: c :: r.take m := by simpa using hq
      simpa using hq'.trans (cons_prefix_cons.2 ⟨rfl, take_prefix m r⟩)
    exact operator_eq_take_iff.2 ⟨op, hfind, rfl, htag⟩
  | assign =>
    rw [claim_assign] at h ⊢
    exact h

theorem firstClaim_take_take {rules : List Rule} {k : Nat} {tag : Option Tag}
    (h : firstClaim c r rules = .take k tag) (hkm : k ≤ m) :
    firstClaim c (r.take m) rules = .take k tag := by
  induction rules with
  | nil => cases h
  | cons R Rs ih =>
    rw [firstClaim_cons] at h ⊢
    cases hR : R.claim c r with
    | decline =>
      simp only [hR] at h
      simp only [claim_decline_take hR m]
      exact ih h
    | unclosed =>
      simp only [hR] at h
      cases h
    | take j t =>
      simp only [hR] at h
      obtain ⟨rfl, rfl⟩ := Claim.take.inj h
      simp only [claim_take_take hR hkm]

/-- **The chain decides from the lexeme it claims.** A lexeme the chain claims in a text is
claimed the same in every prefix of the text that holds it. -/
theorem chain_take_take {k : Nat} {tag : Option Tag} (h : chain c r = .take k tag) (hkm : k ≤ m) :
    chain c (r.take m) = .take k tag :=
  firstClaim_take_take h hkm

end Prefix

/-! ### Why the chain stops -/

section Stop

variable {c : Char} {r : List Char}

theorem firstClaim_eq_unclosed {rules : List Rule} (h : firstClaim c r rules = .unclosed) :
    ∃ R ∈ rules, R.claim c r = .unclosed := by
  induction rules with
  | nil => cases h
  | cons R Rs ih =>
    rw [firstClaim_cons] at h
    split at h
    · obtain ⟨R', hR', h'⟩ := ih h
      exact ⟨R', mem_cons_of_mem R hR', h'⟩
    · exact ⟨R, mem_cons_self, h⟩

theorem firstClaim_eq_decline {rules : List Rule} (h : firstClaim c r rules = .decline) :
    ∀ R ∈ rules, R.claim c r = .decline := by
  induction rules with
  | nil => simp
  | cons R Rs ih =>
    rw [firstClaim_cons] at h
    cases hR : R.claim c r with
    | decline =>
      rw [hR] at h
      intro R' hR'
      rcases mem_cons.1 hR' with rfl | hR'
      · exact hR
      · exact ih h R' hR'
    | unclosed => rw [hR] at h; cases h
    | take k t => rw [hR] at h; cases h

/-- **The chain stops at an unclosed long bracket** exactly when a long bracket opens at the
text, or `--` and a long bracket do, and the closer of its level does not follow the opener. -/
theorem chain_eq_unclosed_iff :
    chain c r = .unclosed ↔
      Bracket.OpensUnclosed (c :: r) ∨
        ∃ body, c = '-' ∧ r = '-' :: body ∧ Bracket.OpensUnclosed body := by
  constructor
  · intro h
    obtain ⟨R, -, hR⟩ := firstClaim_eq_unclosed h
    rcases claim_unclosed hR with rfl | rfl
    · -- a long string that never closes
      exact .inl (Bracket.scan_eq_unclosed_iff.1 (longString_eq_unclosed_iff.1 hR))
    · -- a long comment that never closes
      obtain ⟨rfl, body, rfl, hs⟩ := comment_eq_unclosed_iff.1 hR
      exact .inr ⟨body, rfl, rfl, Bracket.scan_eq_unclosed_iff.1 hs⟩
  · rintro (hop | ⟨body, rfl, rfl, hop⟩)
    · -- the text starts with `[`, where only the long-string rule applies
      obtain ⟨n, rest, hcr, hrest⟩ := hop
      have hc : c = '[' := by
        simp only [Bracket.opener, cons_append] at hcr
        exact (cons.inj hcr).1
      subst hc
      have h1 : quotedString.claim '[' r = .decline := by simp [claim_quotedString]
      have h2 : longString.claim '[' r = .unclosed :=
        longString_eq_unclosed_iff.2 (Bracket.scan_eq_unclosed_iff.2 ⟨n, rest, hcr, hrest⟩)
      simp only [chain_eq, firstClaim_cons, h1, h2]
    · have h1 : quotedString.claim '-' ('-' :: body) = .decline := by simp [claim_quotedString]
      have h2 : longString.claim '-' ('-' :: body) = .decline :=
        longString_eq_decline_iff.2
          (Bracket.scan_eq_absent_iff.2 (Bracket.level?_cons_of_ne (by decide) _))
      have h3 : comment.claim '-' ('-' :: body) = .unclosed :=
        comment_eq_unclosed_iff.2 ⟨rfl, body, rfl, Bracket.scan_eq_unclosed_iff.2 hop⟩
      simp only [chain_eq, firstClaim_cons, h1, h2, h3]

/-- The punctuation, operator and quote characters some rule starts a lexeme at. -/
def startSymbols : List Char :=
  ['.', ':', ';', ',', '[', ']', '{', '}', '(', ')', '=', '<', '>', '+', '-', '*', '/', '%', '^',
    '#', '\'', '"']

/-- The characters some rule starts a lexeme at: the lexer blanks, ASCII letters and digits, `_`,
and the punctuation, operator and quote characters. -/
def StartsLexeme (c : Char) : Prop :=
  Text.isLexBlank c = true ∨ c.isAlpha = true ∨ c.isDigit = true ∨ c = '_' ∨ c ∈ startSymbols

/-- Why no rule claims the text `c :: r`: `c` starts no lexeme, or it is a `~` without `=` after
it, or it is a quote whose body runs to the end of the text. -/
def Unrecognized (c : Char) (r : List Char) : Prop :=
  ¬StartsLexeme c ∨ (c = '~' ∧ r.head? ≠ some '=') ∨ ((c = '"' ∨ c = '\'') ∧ OpenQuote c r)

theorem isIdentChar_iff : isIdentChar c = true ↔ c.isAlpha = true ∨ c.isDigit = true ∨ c = '_' := by
  show (c.isAlpha || c.isDigit || decide (c = '_')) = true ↔ _
  simp [or_assoc]

/-- Each symbol that starts a lexeme is a quote, a punctuation character, `=` or an operator. -/
theorem startSymbols_claimed :
    startSymbols.all (fun c => c == '"' || c == '\'' || (punctuationTag? c).isSome || c == '=' ||
      operators.contains [c]) = true := by
  decide

/-- An operator at the start of the text is claimed by the operator rule. -/
theorem operator_ne_decline {o : List Char} (ho : o ∈ operators) (hp : o <+: c :: r) :
    operator.claim c r ≠ .decline := by
  rw [Ne, operator_eq_decline_iff, find?_eq_none]
  intro hnone
  have := hnone o ho
  simp [hp] at this

/-- **When no rule claims a text**, its first character starts no lexeme, or it is a `~` without
`=` after it, or it is a quote whose body runs to the end of the text. -/
theorem unrecognized_of_chain (h : chain c r = .decline) : Unrecognized c r := by
  have hall := firstClaim_eq_decline h
  by_cases hq : c = '"' ∨ c = '\''
  · -- a quote the quoted-string rule cannot close
    have hnone := quotedString_eq_decline_iff.1 (hall .quotedString (by decide)) hq
    exact .inr (.inr ⟨hq, quoteEnd?_eq_none_iff.1 hnone⟩)
  by_cases ht : c = '~'
  · -- `~=` is an operator
    subst ht
    refine .inr (.inl ⟨rfl, fun hhead => ?_⟩)
    obtain ⟨r', rfl⟩ := head?_eq_some_iff.1 hhead
    exact operator_ne_decline (by decide : ['~', '='] ∈ operators) (by simp) (hall .operator (by decide))
  refine .inl fun hs => ?_
  -- the blank-run and identifier rules declined, so `c` is no blank and no word character
  have hblank := blankRun_eq_decline_iff.1 (hall .blankRun (by decide))
  have hid := identifier_eq_decline_iff.1 (hall .identifier (by decide))
  rcases hs with hb | ha | hd | hu | hsym
  · rw [hb] at hblank
    cases hblank
  · rw [isIdentChar_iff.2 (.inl ha)] at hid
    cases hid
  · rw [isIdentChar_iff.2 (.inr (.inl hd))] at hid
    cases hid
  · rw [isIdentChar_iff.2 (.inr (.inr hu))] at hid
    cases hid
  · -- a symbol: punctuation, `=` or an operator, since it is no quote
    have hsc := List.all_eq_true.1 startSymbols_claimed c hsym
    simp only [Bool.or_eq_true, beq_iff_eq, List.contains_iff_mem] at hsc
    rcases hsc with (((hq' | hq') | hp) | he) | ho
    · exact hq (.inl hq')
    · exact hq (.inr hq')
    · have := punctuation_eq_decline_iff.1 (hall .punctuation (by decide))
      rw [this] at hp
      cases hp
    · exact assign_eq_decline_iff.1 (hall .assign (by decide)) he
    · exact operator_ne_decline ho (by simp) (hall .operator (by decide))

end Stop

end Rule

namespace Token

/-! ### The offset where the scan stops -/

/-- **A failing scan stops at the first offset it cannot pass.** When the scan of a text from
offset `pos` fails at offset `q`, the chain finds no claim, or an unclosed long bracket, at the
character at `q`, and the text before `q` scans. -/
theorem scanFrom_error {pos : Nat} {acc : List Token} {cs : List Char} {f : LexFault} {q : Nat}
    (h : scanFrom pos acc cs = .error (f, q)) :
    pos ≤ q ∧
      (∃ c r, cs.drop (q - pos) = c :: r ∧
        (f = .unrecognized ∧ Rule.chain c r = .decline ∨
          f = .unclosedBracket ∧ Rule.chain c r = .unclosed)) ∧
      ∃ ts, scanFrom pos acc (cs.take (q - pos)) = .ok ts := by
  fun_induction scanFrom pos acc cs with
  | case1 => cases h
  | case2 pos acc c r hchain =>
    cases h
    exact ⟨le_rfl, ⟨c, r, by simp, .inl ⟨rfl, hchain⟩⟩, acc.reverse, by simp [scanFrom]⟩
  | case3 pos acc c r hchain =>
    cases h
    exact ⟨le_rfl, ⟨c, r, by simp, .inr ⟨rfl, hchain⟩⟩, acc.reverse, by simp [scanFrom]⟩
  | case4 pos acc c r k tag hchain lexeme acc' ih =>
    obtain ⟨hle, ⟨c', r', hdrop, hfault⟩, ts, hts⟩ := ih h
    have hk := Rule.chain_take_le hchain
    have hlen : lexeme.length = k + 1 := by simp [lexeme]; omega
    rw [hlen] at hle hdrop hts
    refine ⟨by omega, ⟨c', r', ?_, hfault⟩, ts, ?_⟩
    · -- the stop lies past the lexeme
      rw [show q - pos = (k + (q - (pos + (k + 1)))) + 1 by omega, drop_succ_cons, ← drop_drop,
        hdrop]
    · -- the text before the stop starts with the same lexeme, read the same
      rw [show q - pos = (q - pos - 1) + 1 by omega, take_succ_cons, scanFrom,
        Rule.chain_take_take hchain (by omega)]
      have htake : (r.take (q - pos - 1)).take k = r.take k := by
        rw [take_take, Nat.min_eq_left (by omega)]
      have hdrop' : (r.take (q - pos - 1)).drop k = (r.drop k).take (q - (pos + (k + 1))) := by
        rw [drop_take]
        congr 1
        omega
      simp only [htake, hdrop', length_cons, length_take, Nat.min_eq_left hk]
      exact hts

/-- What a lexical error of `source` reports about the offset `p` where the scan stopped. -/
structure ReportsStop (width : Nat) (file : String) (source : List Char) (e : LexError) (p : Nat) :
    Prop where
  /-- The error names `p`. -/
  offset_eq : e.offset = p
  /-- `p` is a position of the source. -/
  lt_length : p < source.length
  /-- The source before `p` scans. -/
  prefix_scans : ∃ ts, tokenize width file (String.ofList (source.take p)) = .ok ts
  /-- The snippet is the source from `p`, cut to the width. -/
  snippet_eq : e.snippet = String.ofList ((source.drop p).take width)
  /-- The line is that of `p`. -/
  line_eq : e.line = some (Location.ofOffset source p).line
  /-- The column is that of `p`. -/
  column_eq : e.column = some (Location.ofOffset source p).column
  /-- The error is about an unclosed long bracket exactly when a long bracket, or `--` and a long
  bracket, opens at `p` and the closer of its level does not follow the opener. -/
  unclosed_iff : e.fault = .unclosedBracket ↔ Bracket.OpensUnclosed (source.drop p) ∨
    ∃ rest, source.drop p = '-' :: '-' :: rest ∧ Bracket.OpensUnclosed rest
  /-- Otherwise it is about an unrecognized token, and no rule can start one at `p`. -/
  unrecognized : e.fault ≠ .unclosedBracket →
    e.fault = .unrecognized ∧ ∃ c r, source.drop p = c :: r ∧ Rule.Unrecognized c r

/-- **Lexical errors report the first offset the scan cannot pass.** A lexical error of a source
names an offset inside the source before which the source scans; its snippet is the source from
there, cut to the snippet width, and its line and column are those of the offset. It is an
unclosed-bracket error exactly when a long bracket, or a long comment's bracket after `--`, opens
there and its closer never follows the opener; otherwise it is an unrecognized-token error, and
the character there is one no rule starts a lexeme at, or a `~` without `=` after it, or a quote
whose body runs to the end of the source. -/
theorem tokenize_error_reports_stop {width : Nat} {file source : String} {e : LexError}
    (h : tokenize width file source = .error e) :
    ∃ p : Nat, ReportsStop width file source.toList e p := by
  simp only [tokenize] at h
  cases hs : scan source.toList with
  | ok ts => simp [hs] at h
  | error fp =>
    obtain ⟨f, p⟩ := fp
    simp only [hs, Except.error.injEq] at h
    subst h
    obtain ⟨-, ⟨c, r, hdrop, hfault⟩, ts, hts⟩ := scanFrom_error hs
    rw [Nat.sub_zero] at hdrop hts
    have hlt : p < source.toList.length := by
      have := congrArg length hdrop
      simp at this
      omega
    refine ⟨p, rfl, hlt, ⟨ts, ?_⟩, rfl, rfl, rfl, ?_, fun hne => ?_⟩
    · rw [tokenize_eq_ok, String.toList_ofList]
      exact hts
    · rw [hdrop]
      rcases hfault with ⟨rfl, hchain⟩ | ⟨rfl, hchain⟩
      · -- no claim at all: no long bracket stops the chain there
        simp only [LexError.ofFault, reduceCtorEq, false_iff]
        intro hop
        have hunc := Rule.chain_eq_unclosed_iff.2 (by
          rcases hop with hop | ⟨rest, hcr, hop⟩
          · exact .inl hop
          · obtain ⟨rfl, rfl⟩ := cons.inj hcr
            exact .inr ⟨rest, rfl, rfl, hop⟩)
        rw [hchain] at hunc
        cases hunc
      · simp only [LexError.ofFault, true_iff]
        rcases Rule.chain_eq_unclosed_iff.1 hchain with hop | ⟨body, rfl, rfl, hop⟩
        · exact .inl hop
        · exact .inr ⟨body, rfl, hop⟩
    · rcases hfault with ⟨rfl, hchain⟩ | ⟨rfl, -⟩
      · exact ⟨rfl, c, r, hdrop, Rule.unrecognized_of_chain hchain⟩
      · exact absurd rfl hne

/-- A long comment whose closer never comes: the error names the `--` at offset 6. -/
theorem tokenize_error_reports_stop_longComment :
    tokenize 50 "" "x = 1 --[==[ note ]]" =
        .error ⟨.unclosedBracket, 6, "--[==[ note ]]", some 1, some 7, "", none⟩ ∧
      ∃ p, ReportsStop 50 "" "x = 1 --[==[ note ]]".toList
        ⟨.unclosedBracket, 6, "--[==[ note ]]", some 1, some 7, "", none⟩ p :=
  have h : tokenize 50 "" "x = 1 --[==[ note ]]" =
      .error ⟨.unclosedBracket, 6, "--[==[ note ]]", some 1, some 7, "", none⟩ := by
    decide +kernel
  ⟨h, tokenize_error_reports_stop h⟩

end Token

end LuaReflow
