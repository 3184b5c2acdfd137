import LuaReflow.Proofs.Lexeme.Extent

/-!
# A lexeme followed by a blank is read again as itself

The layout writes every token followed by a space or a line break. For the text it writes to
read back as the same tokens, each token must be claimed again, by the same rule, with the
same tag and length, once whatever followed it in the source is replaced by a blank. That holds
for every lexeme but two kinds: a blank run, which a following blank lengthens, and a line
comment, which runs to the end of its line. The proof goes rule by rule and then along the
chain:

* `Rule.quotedString_eq_take_iff`, …, `Rule.assign_eq_decline_iff` — each rule's claim read
  back as the shape of the text: what it takes, and where it declines;
* `Rule.claim_decline_append` — a rule other than the quoted-string rule that declines on a
  text also declines when the text is cut anywhere and a blank put behind the cut;
* `Rule.claim_take_append` — a rule that claims a lexeme, other than a blank run or a line
  comment, claims it again when the text is cut after the lexeme and a blank put behind it;
* `Rule.chain_take_append` — by first-match priority the chain does the same, since an
  unclosed quote leaves the chain with no claim at all;
* `Rule.chain_lineComment` — a line comment with its trailing blanks cut off, followed by a
  space and a line feed, is read as its text and that one space;
* `Rule.chain_blankRun` — a run of lexer blanks is read whole, and kept as a blank-line token
  exactly when it holds two line feeds.
-/

namespace LuaReflow

open List

/-! ### Character classes by code point -/

theorem Text.toNat_le_of_isLexBlank {c : Char} (h : Text.isLexBlank c = true) : c.toNat ≤ 32 := by
  simp only [Text.isLexBlank, Bool.or_eq_true, decide_eq_true_eq] at h
  rcases h with ((((rfl | rfl) | rfl) | rfl) | rfl) | rfl <;> decide

/-- Printable ASCII characters other than the space are no layout blanks. -/
theorem Text.isBlank_eq_false {c : Char} (h1 : 33 ≤ c.toNat) (h2 : c.toNat ≤ 126) :
    Text.isBlank c = false := by
  simp [Text.isBlank, Text.blankRanges]
  omega

theorem Numeral.toNat_of_isRunChar {c : Char} (h : Numeral.isRunChar c = true) :
    43 ≤ c.toNat ∧ c.toNat ≤ 120 := by
  simp only [Numeral.isRunChar, Numeral.isHexDigit, Numeral.isDecimalDigit, Bool.or_eq_true,
    Bool.and_eq_true, decide_eq_true_eq] at h
  have hv : c.toNat = c.val.toNat := rfl
  rcases h with (((((⟨h1, h2⟩ | ⟨h1, h2⟩) | ⟨h1, h2⟩) | rfl) | rfl) | rfl) | rfl
  · simp only [Char.le_def, UInt32.le_iff_toNat_le] at h1 h2; simp at h1 h2; omega
  · simp only [Char.le_def, UInt32.le_iff_toNat_le] at h1 h2; simp at h1 h2; omega
  · simp only [Char.le_def, UInt32.le_iff_toNat_le] at h1 h2; simp at h1 h2; omega
  all_goals decide

theorem Rule.toNat_of_isIdentChar {c : Char} (h : Rule.isIdentChar c = true) :
    48 ≤ c.toNat ∧ c.toNat ≤ 122 := by
  delta Rule.isIdentChar Char.isAlphanum Char.isAlpha Char.isUpper Char.isLower Char.isDigit at h
  simp only [Bool.or_eq_true, Bool.and_eq_true, decide_eq_true_eq] at h
  have hv : c.toNat = c.val.toNat := rfl
  rcases h with ((⟨h1, h2⟩ | ⟨h1, h2⟩) | ⟨h1, h2⟩) | rfl
  · simp only [ge_iff_le, UInt32.le_iff_toNat_le] at h1 h2; simp at h1 h2; omega
  · simp only [ge_iff_le, UInt32.le_iff_toNat_le] at h1 h2; simp at h1 h2; omega
  · simp only [ge_iff_le, UInt32.le_iff_toNat_le] at h1 h2; simp at h1 h2; omega
  · decide

theorem Rule.toNat_of_mem_operators {o : List Char} (ho : o ∈ Rule.operators) {x : Char}
    (hx : x ∈ o) : 33 ≤ x.toNat ∧ x.toNat ≤ 126 := by
  simp only [Rule.operators, map_cons, map_nil, mem_cons, not_mem_nil, or_false] at ho
  rcases ho with rfl | rfl | rfl | rfl | rfl | rfl | rfl | rfl | rfl | rfl | rfl | rfl | rfl <;>
    simp at hx <;> (try rcases hx with rfl | rfl) <;> decide

/-! A lexer blank lies below every class the rules read a run of, so it ends each such run. -/

theorem Numeral.isRunChar_eq_false_of_isLexBlank {c : Char} (h : Text.isLexBlank c = true) :
    Numeral.isRunChar c = false := by
  have hc := Text.toNat_le_of_isLexBlank h
  cases hrun : Numeral.isRunChar c
  · rfl
  · have := (Numeral.toNat_of_isRunChar hrun).1
    omega

theorem Rule.isIdentChar_eq_false_of_isLexBlank {c : Char} (h : Text.isLexBlank c = true) :
    Rule.isIdentChar c = false := by
  have hc := Text.toNat_le_of_isLexBlank h
  cases hid : Rule.isIdentChar c
  · rfl
  · have := (Rule.toNat_of_isIdentChar hid).1
    omega

theorem Rule.not_mem_operator_of_isLexBlank {c : Char} (h : Text.isLexBlank c = true)
    {o : List Char} (ho : o ∈ Rule.operators) : c ∉ o := fun hm => by
  have := (Rule.toNat_of_mem_operators ho hm).1
  have := Text.toNat_le_of_isLexBlank h
  omega

/-! ### Cutting a text and putting a blank behind the cut -/

theorem head?_take_append_cons {l rest : List Char} {k : Nat} {b x : Char}
    (h : (l.take k ++ b :: rest).head? = some x) : x = b ∨ l.head? = some x := by
  cases k with
  | zero => simp at h; exact .inl h.symm
  | succ k =>
    cases l with
    | nil => simp at h; exact .inl h.symm
    | cons y ys => simp at h; exact .inr (by simp [h])

/-- What the first `n` characters of a cut text are, when they do not reach the blank. -/
theorem take_take_append_cons {l rest xs : List Char} {k n : Nat} {b : Char}
    (h : (l.take k ++ b :: rest).take n = xs) (hb : b ∉ xs) : l.take n = xs := by
  by_cases hn : n ≤ (l.take k).length
  · rw [take_append_of_le_length hn, take_take] at h
    rw [← h]
    congr 1
    simp at hn
    omega
  · exfalso
    apply hb
    rw [← h, take_append, ← Nat.succ_pred_eq_of_pos (by omega : 0 < n - (l.take k).length),
      take_succ_cons]
    exact mem_append_right _ mem_cons_self

theorem prefix_cons_take_append {o r rest : List Char} {c b : Char} {k : Nat}
    (h : o <+: c :: (r.take k ++ b :: rest)) (hb : b ∉ o) : o <+: c :: r := by
  rw [← cons_append] at h
  have hk : r.take k <+: r := take_prefix k r
  exact (prefix_of_prefix_append_cons h hb).trans (cons_prefix_cons.2 ⟨rfl, hk⟩)

/-- The run of a class at a cut text, when the blank is outside the class, is a prefix of the
run at the whole text. -/
theorem takeWhile_take_append_prefix {p : Char → Bool} {b : Char} (hb : p b = false)
    (l rest : List Char) (k : Nat) : (l.take k ++ b :: rest).takeWhile p <+: l.takeWhile p := by
  induction l generalizing k with
  | nil => simp [hb]
  | cons x xs ih =>
    cases k with
    | zero => simp [takeWhile_cons, hb]
    | succ k =>
      rw [take_succ_cons, cons_append, takeWhile_cons, takeWhile_cons]
      split
      · exact cons_prefix_cons.2 ⟨rfl, ih k⟩
      · exact nil_prefix

/-- The run of a class at a lexeme of that class followed by a blank outside it is the
lexeme. -/
theorem takeWhile_append_cons_of_all {p : Char → Bool} {b : Char} (hb : p b = false)
    {xs : List Char} (hxs : ∀ x ∈ xs, p x = true) (rest : List Char) :
    (xs ++ b :: rest).takeWhile p = xs := by
  rw [takeWhile_append_of_pos hxs, takeWhile_cons, hb]
  simp

/-- A run of a class is the start of its text as long as itself. -/
theorem take_length_takeWhile (p : Char → Bool) (r : List Char) :
    r.take (r.takeWhile p).length = r.takeWhile p := by
  have hrun : r.takeWhile p <+: r := takeWhile_prefix p
  exact (prefix_iff_eq_take.1 hrun).symm

/-- The first `j` characters of a text, when the run of a class is that long, are the start
of the run. -/
theorem take_eq_take_takeWhile {p : Char → Bool} {r : List Char} {j : Nat}
    (h : j ≤ (r.takeWhile p).length) : r.take j = (r.takeWhile p).take j := by
  rw [← take_length_takeWhile p r, take_take, Nat.min_eq_left h]

/-! ### A declining rule declines again -/

namespace Bracket

theorem scan_eq_absent_iff {cs : List Char} : scan cs = .absent ↔ level? cs = none := by
  unfold scan
  cases level? cs with
  | none => simp
  | some n =>
    simp only [reduceCtorEq, iff_false]
    split <;> simp

theorem level?_cons_of_ne {c : Char} (hc : c ≠ '[') (r : List Char) : level? (c :: r) = none := by
  cases h : level? (c :: r) with
  | none => rfl
  | some n =>
    have hp := level?_eq_some_iff.1 h
    rw [opener, cons_append, cons_prefix_cons] at hp
    exact absurd hp.1.symm hc

/-- A long bracket the scan reads holds at least its closing `]`. -/
theorem scan_closed_eq_succ {cs : List Char} {n : Nat} (h : scan cs = .closed n) :
    ∃ j, n = j + 1 := by
  have hlast := (scan_take_append h).2.1
  cases n with
  | zero => simp at hlast
  | succ j => exact ⟨j, rfl⟩

end Bracket

namespace Rule

/-! ### Each rule's claim

One equation per rule, so that a proof about one rule reads that rule's claim and nothing
else. -/

theorem claim_quotedString (c : Char) (r : List Char) :
    quotedString.claim c r =
      if c = '"' || c = '\'' then
        match quoteEnd? c r with
        | some k => .take k (some .string)
        | none => .decline
      else .decline := rfl

theorem claim_longString (c : Char) (r : List Char) :
    longString.claim c r =
      match Bracket.scan (c :: r) with
      | .absent => .decline
      | .unclosed => .unclosed
      | .closed n => .take (n - 1) (some .string) := rfl

theorem claim_comment (c : Char) (r : List Char) :
    comment.claim c r =
      match c, r with
      | '-', '-' :: body =>
        match Bracket.scan body with
        | .closed n => .take (n + 1) (some .comment)
        | .unclosed => .unclosed
        | .absent => .take (r.takeWhile (· != '\n')).length (some .comment)
      | _, _ => .decline := rfl

theorem claim_blankRun (c : Char) (r : List Char) :
    blankRun.claim c r =
      if Text.isLexBlank c then
        .take (r.takeWhile Text.isLexBlank).length
          (if (c :: r.takeWhile Text.isLexBlank).count '\n' ≥ 2 then some .blank else none)
      else .decline := rfl

theorem claim_numeral (c : Char) (r : List Char) :
    numeral.claim c r =
      if Numeral.isRunChar c then
        match Numeral.longestPrefix (c :: r.takeWhile Numeral.isRunChar) with
        | 0 => .decline
        | k + 1 => .take k (some .number)
      else .decline := rfl

theorem claim_vararg (c : Char) (r : List Char) :
    vararg.claim c r =
      if c = '.' && r.take 2 == ['.', '.'] then .take 2 (some .vararg) else .decline := rfl

theorem claim_concat (c : Char) (r : List Char) :
    concat.claim c r = if c = '.' && r.take 1 == ['.'] then .take 1 (some .operator) else .decline :=
  rfl

theorem claim_identifier (c : Char) (r : List Char) :
    identifier.claim c r =
      if isIdentChar c then
        .take (r.takeWhile isIdentChar).length
          (some (wordTag (String.ofList (c :: r.takeWhile isIdentChar))))
      else .decline := rfl

theorem claim_punctuation (c : Char) (r : List Char) :
    punctuation.claim c r =
      match punctuationTag? c with
      | some t => .take 0 (some t)
      | none => .decline := rfl

theorem claim_operator (c : Char) (r : List Char) :
    operator.claim c r =
      match operators.find? (·.isPrefixOf (c :: r)) with
      | some op => .take (op.length - 1) (some .operator)
      | none => .decline := rfl

theorem claim_assign (c : Char) (r : List Char) :
    assign.claim c r = if c = '=' then .take 0 (some .assign) else .decline := rfl

theorem firstClaim_nil (c : Char) (r : List Char) : firstClaim c r [] = .decline := rfl

theorem firstClaim_cons (c : Char) (r : List Char) (R : Rule) (rules : List Rule) :
    firstClaim c r (R :: rules) =
      match R.claim c r with
      | .decline => firstClaim c r rules
      | claim => claim := rfl

theorem chain_eq (c : Char) (r : List Char) :
    chain c r =
      firstClaim c r [quotedString, longString, comment, blankRun, numeral, vararg, concat,
        identifier, punctuation, operator, assign] := rfl

/-- The comment rule: `--`, then a long bracket or the rest of the line. -/
theorem claim_comment_eq (c : Char) (r : List Char) :
    comment.claim c r =
      if c = '-' ∧ r.head? = some '-' then
        match Bracket.scan (r.drop 1) with
        | .closed n => .take (n + 1) (some .comment)
        | .unclosed => .unclosed
        | .absent => .take (r.takeWhile (· != '\n')).length (some .comment)
      else .decline := by
  by_cases hc : c = '-'
  · subst hc
    cases r with
    | nil => simp [claim_comment]
    | cons d body =>
      by_cases hd : d = '-'
      · subst hd
        simp [claim_comment]
      · simp [claim_comment, hd]
  · simp [claim_comment, hc]

/-- The comment rule claims only at `--`. -/
theorem eq_dash_of_claim_comment {c : Char} {r : List Char} {cl : Claim}
    (h : comment.claim c r = cl) (hcl : cl ≠ .decline) : c = '-' ∧ ∃ body, r = '-' :: body := by
  rw [claim_comment_eq] at h
  split at h
  · rename_i hcr
    exact ⟨hcr.1, head?_eq_some_iff.1 hcr.2⟩
  · exact absurd h.symm hcl

/-- After `--`, the comment rule reads a long bracket, or the rest of the line. -/
theorem claim_comment_dash (body : List Char) :
    comment.claim '-' ('-' :: body) =
      match Bracket.scan body with
      | .closed n => .take (n + 1) (some .comment)
      | .unclosed => .unclosed
      | .absent => .take (('-' :: body).takeWhile (· != '\n')).length (some .comment) := rfl

/-! ### What a rule takes and where it declines

Each rule's claim, read back as the shape of the text it stands on: when it takes a lexeme, when
it declines and, for the two long-bracket rules, when it stops. A proof about a claim starts from
this shape and does not open the rule again. -/

section Shape

variable {c : Char} {r : List Char} {k : Nat} {tag : Option Tag}

theorem quotedString_eq_take_iff :
    quotedString.claim c r = .take k tag ↔
      (c = '"' ∨ c = '\'') ∧ quoteEnd? c r = some k ∧ tag = some .string := by
  rw [claim_quotedString]
  by_cases hc : c = '"' ∨ c = '\''
  · rw [if_pos (by simpa using hc)]
    cases hq : quoteEnd? c r with
    | none => simp
    | some j => simp [hc, eq_comm]
  · rw [if_neg (by simpa using hc)]
    simp [hc]

theorem longString_eq_take_iff :
    longString.claim c r = .take k tag ↔
      Bracket.scan (c :: r) = .closed (k + 1) ∧ tag = some .string := by
  rw [claim_longString]
  cases hs : Bracket.scan (c :: r) with
  | absent => simp
  | unclosed => simp
  | closed n =>
    -- a whole long bracket holds at least its opener
    obtain ⟨m, rfl⟩ := Bracket.scan_closed_eq_succ hs
    simp [eq_comm]

theorem comment_eq_take_iff :
    comment.claim c r = .take k tag ↔
      c = '-' ∧ (∃ body, r = '-' :: body ∧
        ((∃ n, Bracket.scan body = .closed n ∧ k = n + 1) ∨
          Bracket.scan body = .absent ∧ k = (r.takeWhile (· != '\n')).length)) ∧
        tag = some .comment := by
  constructor
  · intro h
    obtain ⟨rfl, body, rfl⟩ := eq_dash_of_claim_comment h (by simp)
    rw [claim_comment_dash] at h
    cases hs : Bracket.scan body with
    | closed n =>
      simp only [hs, Claim.take.injEq] at h
      exact ⟨rfl, ⟨body, rfl, .inl ⟨n, hs, h.1.symm⟩⟩, h.2.symm⟩
    | unclosed => simp [hs] at h
    | absent =>
      simp only [hs, Claim.take.injEq] at h
      exact ⟨rfl, ⟨body, rfl, .inr ⟨hs, h.1.symm⟩⟩, h.2.symm⟩
  · rintro ⟨rfl, ⟨body, rfl, ⟨n, hs, rfl⟩ | ⟨hs, rfl⟩⟩, rfl⟩
    · rw [claim_comment_dash, hs]
    · rw [claim_comment_dash, hs]

theorem blankRun_eq_take_iff :
    blankRun.claim c r = .take k tag ↔
      Text.isLexBlank c = true ∧ k = (r.takeWhile Text.isLexBlank).length ∧
        tag = if (c :: r.takeWhile Text.isLexBlank).count '\n' ≥ 2 then some .blank else none := by
  rw [claim_blankRun]
  by_cases hc : Text.isLexBlank c = true
  · simp [hc, eq_comm]
  · simp [hc]

theorem numeral_eq_take_iff :
    numeral.claim c r = .take k tag ↔
      Numeral.isRunChar c = true ∧
        Numeral.longestPrefix (c :: r.takeWhile Numeral.isRunChar) = k + 1 ∧
        tag = some .number := by
  rw [claim_numeral]
  by_cases hc : Numeral.isRunChar c = true
  · rw [if_pos hc]
    cases Numeral.longestPrefix (c :: r.takeWhile Numeral.isRunChar) with
    | zero => simp
    | succ j => simp [hc, eq_comm]
  · simp [hc]

theorem vararg_eq_take_iff :
    vararg.claim c r = .take k tag ↔
      c = '.' ∧ r.take 2 = ['.', '.'] ∧ k = 2 ∧ tag = some .vararg := by
  rw [claim_vararg]
  by_cases hcond : c = '.' ∧ r.take 2 = ['.', '.']
  · rw [if_pos (by simp [hcond.1, hcond.2])]
    simp [hcond, eq_comm]
  · rw [if_neg (by simpa using hcond)]
    simp only [reduceCtorEq, false_iff]
    exact fun h => hcond ⟨h.1, h.2.1⟩

theorem concat_eq_take_iff :
    concat.claim c r = .take k tag ↔
      c = '.' ∧ r.take 1 = ['.'] ∧ k = 1 ∧ tag = some .operator := by
  rw [claim_concat]
  by_cases hcond : c = '.' ∧ r.take 1 = ['.']
  · rw [if_pos (by simp [hcond.1, hcond.2])]
    simp [hcond, eq_comm]
  · rw [if_neg (by simpa using hcond)]
    simp only [reduceCtorEq, false_iff]
    exact fun h => hcond ⟨h.1, h.2.1⟩

theorem identifier_eq_take_iff :
    identifier.claim c r = .take k tag ↔
      isIdentChar c = true ∧ k = (r.takeWhile isIdentChar).length ∧
        tag = some (wordTag (String.ofList (c :: r.takeWhile isIdentChar))) := by
  rw [claim_identifier]
  by_cases hc : isIdentChar c = true
  · simp [hc, eq_comm]
  · simp [hc]

theorem punctuation_eq_take_iff :
    punctuation.claim c r = .take k tag ↔ k = 0 ∧ ∃ t, punctuationTag? c = some t ∧ tag = some t := by
  rw [claim_punctuation]
  cases punctuationTag? c with
  | none => simp
  | some t => simp [eq_comm]

theorem operator_eq_take_iff :
    operator.claim c r = .take k tag ↔
      ∃ op, operators.find? (·.isPrefixOf (c :: r)) = some op ∧ k = op.length - 1 ∧
        tag = some .operator := by
  rw [claim_operator]
  cases operators.find? (·.isPrefixOf (c :: r)) with
  | none => simp
  | some op => simp [eq_comm]

/-- The operator the rule finds is one of the operators and stands at the head of the text:
it is `c` and the characters after it, up to its length. -/
theorem operator_found {op : List Char} (hf : operators.find? (·.isPrefixOf (c :: r)) = some op) :
    op ∈ operators ∧ op <+: c :: r ∧ c :: r.take (op.length - 1) = op := by
  have hop : op ∈ operators := mem_of_find?_eq_some hf
  have hpre : op <+: c :: r := by simpa using find?_some hf
  -- no operator is empty, so `op` is `c` and a part of `r`
  have hne : op ≠ [] := by
    rintro rfl
    revert hop
    decide
  refine ⟨hop, hpre, ?_⟩
  rw [← take_succ_cons, Nat.sub_add_cancel (length_pos_iff.2 hne)]
  exact (prefix_iff_eq_take.1 hpre).symm

theorem assign_eq_take_iff :
    assign.claim c r = .take k tag ↔ c = '=' ∧ k = 0 ∧ tag = some .assign := by
  rw [claim_assign]
  by_cases hc : c = '='
  · simp [hc, eq_comm]
  · simp [hc]

theorem quotedString_eq_decline_iff :
    quotedString.claim c r = .decline ↔ (c = '"' ∨ c = '\'') → quoteEnd? c r = none := by
  rw [claim_quotedString]
  by_cases hc : c = '"' ∨ c = '\''
  · rw [if_pos (by simpa using hc)]
    cases quoteEnd? c r <;> simp [hc]
  · rw [if_neg (by simpa using hc)]
    simp [hc]

theorem longString_eq_decline_iff :
    longString.claim c r = .decline ↔ Bracket.scan (c :: r) = .absent := by
  rw [claim_longString]
  cases Bracket.scan (c :: r) <;> simp

theorem longString_eq_unclosed_iff :
    longString.claim c r = .unclosed ↔ Bracket.scan (c :: r) = .unclosed := by
  rw [claim_longString]
  cases Bracket.scan (c :: r) <;> simp

theorem comment_eq_decline_iff :
    comment.claim c r = .decline ↔ ¬(c = '-' ∧ r.head? = some '-') := by
  rw [claim_comment_eq]
  by_cases hcr : c = '-' ∧ r.head? = some '-'
  · rw [if_pos hcr]
    split <;> simp [hcr]
  · simp [hcr]

theorem comment_eq_unclosed_iff :
    comment.claim c r = .unclosed ↔
      c = '-' ∧ ∃ body, r = '-' :: body ∧ Bracket.scan body = .unclosed := by
  constructor
  · intro h
    obtain ⟨rfl, body, rfl⟩ := eq_dash_of_claim_comment h (by simp)
    rw [claim_comment_dash] at h
    refine ⟨rfl, body, rfl, ?_⟩
    revert h
    cases Bracket.scan body <;> simp
  · rintro ⟨rfl, body, rfl, hs⟩
    rw [claim_comment_dash, hs]

theorem blankRun_eq_decline_iff : blankRun.claim c r = .decline ↔ Text.isLexBlank c = false := by
  rw [claim_blankRun]
  cases Text.isLexBlank c <;> simp

theorem numeral_eq_decline_iff :
    numeral.claim c r = .decline ↔
      Numeral.isRunChar c = true → Numeral.longestPrefix (c :: r.takeWhile Numeral.isRunChar) = 0 := by
  rw [claim_numeral]
  by_cases hc : Numeral.isRunChar c = true
  · rw [if_pos hc]
    cases Numeral.longestPrefix (c :: r.takeWhile Numeral.isRunChar) <;> simp [hc]
  · simp [hc]

theorem vararg_eq_decline_iff :
    vararg.claim c r = .decline ↔ ¬(c = '.' ∧ r.take 2 = ['.', '.']) := by
  rw [claim_vararg]
  by_cases hcond : c = '.' ∧ r.take 2 = ['.', '.']
  · rw [if_pos (by simp [hcond.1, hcond.2])]
    simp [hcond]
  · rw [if_neg (by simpa using hcond)]
    simp [hcond]

theorem concat_eq_decline_iff :
    concat.claim c r = .decline ↔ ¬(c = '.' ∧ r.take 1 = ['.']) := by
  rw [claim_concat]
  by_cases hcond : c = '.' ∧ r.take 1 = ['.']
  · rw [if_pos (by simp [hcond.1, hcond.2])]
    simp [hcond]
  · rw [if_neg (by simpa using hcond)]
    simp [hcond]

theorem identifier_eq_decline_iff : identifier.claim c r = .decline ↔ isIdentChar c = false := by
  rw [claim_identifier]
  cases isIdentChar c <;> simp

theorem punctuation_eq_decline_iff : punctuation.claim c r = .decline ↔ punctuationTag? c = none := by
  rw [claim_punctuation]
  cases punctuationTag? c <;> simp

theorem operator_eq_decline_iff :
    operator.claim c r = .decline ↔ operators.find? (·.isPrefixOf (c :: r)) = none := by
  rw [claim_operator]
  cases operators.find? (·.isPrefixOf (c :: r)) <;> simp

theorem assign_eq_decline_iff : assign.claim c r = .decline ↔ c ≠ '=' := by
  rw [claim_assign]
  by_cases hc : c = '=' <;> simp [hc]

end Shape

section Decline

variable {c b : Char} {r : List Char} (k : Nat) (hb : Text.isLexBlank b = true) (rest : List Char)
include hb

theorem longString_decline_append (h : longString.claim c r = .decline) :
    longString.claim c (r.take k ++ b :: rest) = .decline := by
  have hbn := Text.toNat_le_of_isLexBlank hb
  rw [longString_eq_decline_iff, Bracket.scan_eq_absent_iff] at h ⊢
  -- no opener stands at the start, and a blank does not complete one
  have := Bracket.level?_take_append h (k + 1) (b := b)
    (by intro h; subst h; simp at hbn) (by intro h; subst h; simp at hbn) rest
  simpa [take_succ_cons] using this

theorem comment_decline_append (h : comment.claim c r = .decline) :
    comment.claim c (r.take k ++ b :: rest) = .decline := by
  have hbn := Text.toNat_le_of_isLexBlank hb
  rw [comment_eq_decline_iff] at h ⊢
  rintro ⟨hc, hhead⟩
  rcases head?_take_append_cons hhead with rfl | hr
  · simp at hbn
  · exact h ⟨hc, hr⟩

theorem numeral_decline_append (h : numeral.claim c r = .decline) :
    numeral.claim c (r.take k ++ b :: rest) = .decline := by
  have hbrun := Numeral.isRunChar_eq_false_of_isLexBlank hb
  rw [numeral_eq_decline_iff] at h ⊢
  intro hc
  have hrun : c :: (r.take k ++ b :: rest).takeWhile Numeral.isRunChar <+:
      c :: r.takeWhile Numeral.isRunChar :=
    cons_prefix_cons.2 ⟨rfl, takeWhile_take_append_prefix hbrun r rest k⟩
  exact Numeral.longestPrefix_eq_zero_of_prefix (h hc) hrun

theorem vararg_decline_append (h : vararg.claim c r = .decline) :
    vararg.claim c (r.take k ++ b :: rest) = .decline := by
  have hbn := Text.toNat_le_of_isLexBlank hb
  rw [vararg_eq_decline_iff] at h ⊢
  rintro ⟨hc, hr⟩
  exact h ⟨hc, take_take_append_cons hr (by intro hm; simp at hm; subst hm; simp at hbn)⟩

theorem concat_decline_append (h : concat.claim c r = .decline) :
    concat.claim c (r.take k ++ b :: rest) = .decline := by
  have hbn := Text.toNat_le_of_isLexBlank hb
  rw [concat_eq_decline_iff] at h ⊢
  rintro ⟨hc, hr⟩
  exact h ⟨hc, take_take_append_cons hr (by intro hm; simp at hm; subst hm; simp at hbn)⟩

theorem operator_decline_append (h : operator.claim c r = .decline) :
    operator.claim c (r.take k ++ b :: rest) = .decline := by
  rw [operator_eq_decline_iff, find?_eq_none] at h ⊢
  -- an operator found at the cut text would have been found at the whole text
  intro o ho hpre
  apply h o ho
  simpa using prefix_cons_take_append (by simpa using hpre) (not_mem_operator_of_isLexBlank hb ho)

/-- **A declining rule declines again.** Every rule but the quoted-string rule that declines
on a text declines on the text cut anywhere with a blank put behind the cut. -/
theorem claim_decline_append {R : Rule} (hR : R ≠ .quotedString) (h : R.claim c r = .decline) :
    R.claim c (r.take k ++ b :: rest) = .decline := by
  cases R with
  | quotedString => exact absurd rfl hR
  | longString => exact longString_decline_append k hb rest h
  | comment => exact comment_decline_append k hb rest h
  | blankRun => rwa [blankRun_eq_decline_iff] at h ⊢
  | numeral => exact numeral_decline_append k hb rest h
  | vararg => exact vararg_decline_append k hb rest h
  | concat => exact concat_decline_append k hb rest h
  | identifier => rwa [identifier_eq_decline_iff] at h ⊢
  | punctuation => rwa [punctuation_eq_decline_iff] at h ⊢
  | operator => exact operator_decline_append k hb rest h
  | assign => rwa [assign_eq_decline_iff] at h ⊢

end Decline

/-! ### A claiming rule claims the same lexeme again -/

theorem find?_eq_some_of_imp {α : Type} {p q : α → Bool} {l : List α} {x : α}
    (h : l.find? p = some x) (himp : ∀ y ∈ l, q y = true → p y = true) (hx : q x = true) :
    l.find? q = some x := by
  induction l with
  | nil => cases h
  | cons y ys ih =>
    by_cases hpy : p y = true
    · rw [find?_cons_of_pos hpy] at h
      cases h
      exact find?_cons_of_pos hx
    · rw [find?_cons_of_neg hpy] at h
      rw [find?_cons_of_neg (fun hqy => hpy (himp y mem_cons_self hqy))]
      exact ih h (fun z hz => himp z (mem_cons_of_mem y hz))

/-- The operator found at a text is found again when the text is cut anywhere after it and a
blank put behind the cut: an operator ahead of it in the list that matched across the blank
would have matched the whole text. -/
theorem operator_find?_take_append {c b : Char} {r : List Char} {op : List Char} {m : Nat}
    (hb : Text.isLexBlank b = true) (hf : operators.find? (·.isPrefixOf (c :: r)) = some op)
    (hm : op.length - 1 ≤ m) (rest : List Char) :
    operators.find? (·.isPrefixOf (c :: (r.take m ++ b :: rest))) = some op := by
  obtain ⟨-, -, heq⟩ := operator_found hf
  -- the operator ends before the cut
  have hcut : op <+: c :: (r.take m ++ b :: rest) := by
    have hk : r.take (op.length - 1) <+: r := take_prefix _ r
    have hkm : r.take (op.length - 1) <+: r.take m :=
      prefix_take_iff.2 ⟨hk, (length_take_le _ _).trans hm⟩
    rw [← heq]
    exact cons_prefix_cons.2 ⟨rfl, hkm.trans (prefix_append _ _)⟩
  refine find?_eq_some_of_imp hf (fun o ho hq => ?_) (by simpa using hcut)
  simpa using prefix_cons_take_append (by simpa using hq) (not_mem_operator_of_isLexBlank hb ho)

section Take

variable {c b : Char} {r : List Char} {k : Nat} {tag : Option Tag} (rest : List Char)

theorem quotedString_take_append (h : quotedString.claim c r = .take k tag) :
    quotedString.claim c (r.take k ++ b :: rest) = .take k tag := by
  obtain ⟨hc, hq, htag⟩ := quotedString_eq_take_iff.1 h
  exact quotedString_eq_take_iff.2 ⟨hc, (quoteEnd?_take_append hq).2.2.2 _, htag⟩

theorem longString_take_append (h : longString.claim c r = .take k tag) :
    longString.claim c (r.take k ++ b :: rest) = .take k tag := by
  obtain ⟨hs, htag⟩ := longString_eq_take_iff.1 h
  have hfind := (Bracket.scan_take_append hs).2.2 (b :: rest)
  rw [take_succ_cons, cons_append] at hfind
  exact longString_eq_take_iff.2 ⟨hfind, htag⟩

/-- The comment rule claims only comments. -/
theorem comment_tag (h : comment.claim c r = .take k (some t)) : t = .comment :=
  Option.some.inj (comment_eq_take_iff.1 h).2.2

theorem comment_take_append (h : comment.claim c r = .take k tag)
    (hlong : (Bracket.level? (r.drop 1)).isSome) :
    comment.claim c (r.take k ++ b :: rest) = .take k tag := by
  obtain ⟨rfl, ⟨body, rfl, ⟨n, hs, rfl⟩ | ⟨hs, -⟩⟩, rfl⟩ := comment_eq_take_iff.1 h
  · have hfind := (Bracket.scan_take_append hs).2.2 (b :: rest)
    rw [take_succ_cons, cons_append, claim_comment_dash, hfind]
  · -- a line comment: excluded, since an opener stands after `--`
    rw [drop_one, tail_cons, Option.isSome_iff_exists] at hlong
    obtain ⟨m, hm⟩ := hlong
    rw [Bracket.scan_eq_absent_iff, hm] at hs
    cases hs

theorem numeral_take_append (hb : Text.isLexBlank b = true)
    (h : numeral.claim c r = .take k tag) :
    numeral.claim c (r.take k ++ b :: rest) = .take k tag := by
  have hbrun := Numeral.isRunChar_eq_false_of_isLexBlank hb
  obtain ⟨hc, hl, htag⟩ := numeral_eq_take_iff.1 h
  obtain ⟨hle, hlit⟩ := Numeral.longestPrefix_spec hl
  -- the numeral is `c` and the first `k` characters of the run after it
  have hrun : r.take k = (r.takeWhile Numeral.isRunChar).take k :=
    take_eq_take_takeWhile (by simp at hle; omega)
  have hall : ∀ x ∈ r.take k, Numeral.isRunChar x = true := by
    intro x hx
    rw [hrun] at hx
    exact mem_takeWhile_imp (mem_of_mem_take hx)
  have hlen : (r.take k).length = k := by
    rw [hrun, length_take, Nat.min_eq_left (by simp at hle; omega)]
  refine numeral_eq_take_iff.2 ⟨hc, ?_, htag⟩
  rw [takeWhile_append_cons_of_all hbrun hall, Numeral.longestPrefix_of_isLiteral
    (by rw [hrun]; simpa using hlit) (cons_ne_nil _ _), length_cons, hlen]

theorem vararg_take_append (h : vararg.claim c r = .take k tag) :
    vararg.claim c (r.take k ++ b :: rest) = .take k tag := by
  obtain ⟨hc, hr, rfl, htag⟩ := vararg_eq_take_iff.1 h
  exact vararg_eq_take_iff.2 ⟨hc, by simp [hr], rfl, htag⟩

theorem concat_take_append (h : concat.claim c r = .take k tag) :
    concat.claim c (r.take k ++ b :: rest) = .take k tag := by
  obtain ⟨hc, hr, rfl, htag⟩ := concat_eq_take_iff.1 h
  exact concat_eq_take_iff.2 ⟨hc, by simp [hr], rfl, htag⟩

theorem identifier_take_append (hb : Text.isLexBlank b = true)
    (h : identifier.claim c r = .take k tag) :
    identifier.claim c (r.take k ++ b :: rest) = .take k tag := by
  have hbid := isIdentChar_eq_false_of_isLexBlank hb
  obtain ⟨hc, rfl, htag⟩ := identifier_eq_take_iff.1 h
  -- the word is the run of word characters, and the blank ends it again
  have hrun : (r.takeWhile isIdentChar ++ b :: rest).takeWhile isIdentChar =
      r.takeWhile isIdentChar :=
    takeWhile_append_cons_of_all hbid (fun x hx => mem_takeWhile_imp hx) rest
  rw [take_length_takeWhile]
  exact identifier_eq_take_iff.2 ⟨hc, by rw [hrun], by rw [hrun, htag]⟩

theorem operator_take_append (hb : Text.isLexBlank b = true)
    (h : operator.claim c r = .take k tag) :
    operator.claim c (r.take k ++ b :: rest) = .take k tag := by
  obtain ⟨op, hf, rfl, htag⟩ := operator_eq_take_iff.1 h
  exact operator_eq_take_iff.2 ⟨op, operator_find?_take_append hb hf le_rfl rest, rfl, htag⟩

/-- **A claiming rule claims the same lexeme again.** A rule that claims a lexeme with a tag,
other than a blank run or a line comment, claims it again, with the same length and tag, when
the text is cut after the lexeme and a blank put behind the cut. -/
theorem claim_take_append {R : Rule} {t : Tag} (hb : Text.isLexBlank b = true)
    (h : R.claim c r = .take k (some t))
    (hblank : t ≠ .blank) (hlong : t = .comment → (Bracket.level? (r.drop 1)).isSome) :
    R.claim c (r.take k ++ b :: rest) = .take k (some t) := by
  cases R with
  | quotedString => exact quotedString_take_append rest h
  | longString => exact longString_take_append rest h
  | comment => exact comment_take_append rest h (hlong (comment_tag h))
  | blankRun =>
    -- a blank run carries the blank tag or none
    obtain ⟨-, -, htag⟩ := blankRun_eq_take_iff.1 h
    split at htag
    · exact absurd (Option.some.inj htag) hblank
    · cases htag
  | numeral => exact numeral_take_append rest hb h
  | vararg => exact vararg_take_append rest h
  | concat => exact concat_take_append rest h
  | identifier => exact identifier_take_append rest hb h
  | punctuation => simpa [claim_punctuation] using h
  | operator => exact operator_take_append rest hb h
  | assign => simpa [claim_assign] using h

/-- The rules after the quoted-string rule, each claiming as the same rule does again after
the cut, claim as a chain again. -/
theorem firstClaim_take_append {rules : List Rule} {t : Tag} (hq : quotedString ∉ rules)
    (hb : Text.isLexBlank b = true) (h : firstClaim c r rules = .take k (some t))
    (hblank : t ≠ .blank) (hlong : t = .comment → (Bracket.level? (r.drop 1)).isSome) :
    firstClaim c (r.take k ++ b :: rest) rules = .take k (some t) := by
  induction rules with
  | nil => cases h
  | cons R Rs ih =>
    have hR : R ≠ quotedString := fun hR => hq (hR ▸ mem_cons_self)
    rw [firstClaim_cons] at h ⊢
    split at h
    · rename_i hd
      rw [claim_decline_append k hb rest hR hd]
      exact ih (fun hm => hq (mem_cons_of_mem R hm)) h
    · rw [claim_take_append rest hb h hblank hlong]

/-- After a quote character only the quoted-string rule can claim. -/
theorem firstClaim_of_quote (hc : (c = '"' || c = '\'') = true) :
    firstClaim c r [longString, comment, blankRun, numeral, vararg, concat, identifier,
      punctuation, operator, assign] = .decline := by
  simp only [Bool.or_eq_true, decide_eq_true_eq] at hc
  rcases hc with rfl | rfl <;>
    simp [firstClaim_cons, firstClaim_nil, claim_longString, claim_comment, claim_blankRun,
      claim_numeral, claim_vararg, claim_concat, claim_identifier, claim_punctuation, claim_operator,
      claim_assign, Bracket.scan, Bracket.level?, Text.isLexBlank, Numeral.isRunChar,
      Numeral.isHexDigit, Numeral.isDecimalDigit, isIdentChar, punctuationTag?, operators]

/-- **The chain claims the same lexeme again.** A lexeme the rule chain claims with a tag,
other than a blank run or a line comment, is claimed again, with the same length and tag,
when the text is cut right after it and a blank put behind the cut. -/
theorem chain_take_append {t : Tag} (hb : Text.isLexBlank b = true)
    (h : chain c r = .take k (some t)) (hblank : t ≠ .blank)
    (hlong : t = .comment → (Bracket.level? (r.drop 1)).isSome) :
    chain c (r.take k ++ b :: rest) = .take k (some t) := by
  rw [chain_eq, firstClaim_cons] at h ⊢
  split at h
  · rename_i hd
    -- the quoted-string rule declined, and declines again since `c` is no quote
    have hnq : (c = '"' || c = '\'') = false := by
      cases hcq : (c = '"' || c = '\'')
      · rfl
      · rw [firstClaim_of_quote hcq] at h
        cases h
    have hd' : quotedString.claim c (r.take k ++ b :: rest) = .decline := by
      simp only [claim_quotedString, hnq, Bool.false_eq_true, if_false]
    rw [hd']
    exact firstClaim_take_append rest (by decide) hb h hblank hlong
  · rw [quotedString_take_append rest h]

end Take

/-! ### Blank runs and line comments as the layout writes them -/

/-- A lexer blank opens a blank run, which runs as far as the lexer blanks do; it is kept as a
blank-line token exactly when it holds two line feeds. -/
theorem chain_blankRun {W next : List Char} (hc : Text.isLexBlank c = true)
    (hW : ∀ x ∈ W, Text.isLexBlank x = true)
    (hnext : ∀ d ∈ next.head?, Text.isLexBlank d = false) :
    chain c (W ++ next) =
      .take W.length (if (c :: W).count '\n' ≥ 2 then some .blank else none) := by
  have hcn := Text.toNat_le_of_isLexBlank hc
  have hq : (c = '"' || c = '\'') = false := by
    simp only [Bool.or_eq_false_iff, decide_eq_false_iff_not]
    exact ⟨fun h => absurd (h ▸ hcn) (by decide), fun h => absurd (h ▸ hcn) (by decide)⟩
  have hrun : (W ++ next).takeWhile Text.isLexBlank = W := by
    rw [takeWhile_append_of_pos hW]
    cases next with
    | nil => simp
    | cons d ds => simp [hnext d (by simp)]
  -- the three rules before the blank run decline on a blank
  have h1 : quotedString.claim c (W ++ next) = .decline := by simp [claim_quotedString, hq]
  have h2 : longString.claim c (W ++ next) = .decline :=
    longString_eq_decline_iff.2 (Bracket.scan_eq_absent_iff.2
      (Bracket.level?_cons_of_ne (fun h => absurd (h ▸ hcn) (by decide)) _))
  have h3 : comment.claim c (W ++ next) = .decline :=
    comment_eq_decline_iff.2 (fun h => absurd (h.1 ▸ hcn) (by decide))
  have h4 : blankRun.claim c (W ++ next) =
      .take W.length (if (c :: W).count '\n' ≥ 2 then some .blank else none) := by
    simp only [claim_blankRun, hc, if_true, hrun]
  simp only [chain_eq, firstClaim_cons, h1, h2, h3, h4]

/-- A line comment followed by a line feed is read up to the line feed. -/
theorem chain_lineComment_newline {B : List Char} (hnl : '\n' ∉ B)
    (hlevel : Bracket.level? B = none) (rest : List Char) :
    chain '-' ('-' :: B ++ '\n' :: rest) = .take (B.length + 1) (some .comment) := by
  -- no long bracket opens after `--`, since the line feed ends any opener
  have hbody : Bracket.scan (B ++ '\n' :: rest) = .absent := by
    rw [Bracket.scan_eq_absent_iff, ← take_length (l := B)]
    exact Bracket.level?_take_append hlevel _ (by decide) (by decide) _
  have hline : ('-' :: B ++ '\n' :: rest).takeWhile (· != '\n') = '-' :: B := by
    refine takeWhile_append_cons_of_all (by decide) (fun x hx => ?_) rest
    rcases mem_cons.1 hx with rfl | hx
    · decide
    · exact bne_iff_ne.2 (fun h => hnl (h ▸ hx))
  have h1 : quotedString.claim '-' ('-' :: B ++ '\n' :: rest) = .decline := by
    simp [claim_quotedString]
  have h2 : longString.claim '-' ('-' :: B ++ '\n' :: rest) = .decline :=
    longString_eq_decline_iff.2
      (Bracket.scan_eq_absent_iff.2 (Bracket.level?_cons_of_ne (by decide) _))
  have h3 : comment.claim '-' ('-' :: B ++ '\n' :: rest) =
      .take (B.length + 1) (some .comment) := by
    rw [cons_append, claim_comment_dash, hbody, ← cons_append, hline, length_cons]
  simp only [chain_eq, firstClaim_cons, h1, h2, h3]

/-- A line comment cut after its last character that is no layout blank, and followed by a
space and a line feed, is read as its text and that one space. -/
theorem chain_lineComment {B : List Char} (hnl : '\n' ∉ B) (hlevel : Bracket.level? B = none)
    (rest : List Char) :
    chain '-' ('-' :: B ++ ' ' :: '\n' :: rest) = .take (B.length + 2) (some .comment) := by
  -- the space holds no line feed and opens no long bracket, so the comment runs on past it
  have hnl' : '\n' ∉ B ++ [' '] := by simpa using hnl
  have hlevel' : Bracket.level? (B ++ [' ']) = none := by
    have := Bracket.level?_take_append hlevel B.length (b := ' ') (by decide) (by decide) []
    rwa [take_length] at this
  simpa using chain_lineComment_newline hnl' hlevel' rest

end Rule

end LuaReflow
