import LuaReflow.Proofs.Lexeme.Stable
import LuaReflow.Proofs.Text.Strip

/-!
# The shape of a claimed lexeme

What the tag of a claimed lexeme says about its characters:

* the lexeme lies in the text (`Rule.chain_take_le`);
* only the blank-run rule tags a lexeme `blank`, and then every character is a lexer blank
  and two of them are line feeds (`Rule.chain_blank`);
* only the comment rule tags a lexeme `comment`; when no long bracket follows its `--`, the
  lexeme is `--` and the rest of the line (`Rule.chain_lineComment_shape`);
* every other lexeme starts and ends with a character that is no layout blank
  (`Rule.chain_ends`), so stripping keeps it whole.
-/

namespace LuaReflow

open List

namespace Rule

variable {c : Char} {r : List Char} {k : Nat}

/-! ### Which rule claimed a lexeme -/

theorem firstClaim_eq_take {rules : List Rule} {tag : Option Tag}
    (h : firstClaim c r rules = .take k tag) : ∃ R ∈ rules, R.claim c r = .take k tag := by
  induction rules with
  | nil => cases h
  | cons R Rs ih =>
    rw [firstClaim_cons] at h
    split at h
    · obtain ⟨R', hR', h'⟩ := ih h
      exact ⟨R', mem_cons_of_mem R hR', h'⟩
    · exact ⟨R, mem_cons_self, h⟩

theorem wordTag_ne (w : String) :
    wordTag w ≠ .blank ∧ wordTag w ≠ .comment ∧ (wordTag w).isDirective = false := by
  cases hk : Tag.ofKeyword? w with
  | some t =>
    have ht : t ∈ Tag.keywords := mem_of_find?_eq_some hk
    have hkw : ∀ t ∈ Tag.keywords, t ≠ .blank ∧ t ≠ .comment ∧ t.isDirective = false := by
      decide
    rw [wordTag, hk]
    exact hkw t ht
  | none =>
    simp only [wordTag, hk]
    split <;> decide

theorem punctuationTag?_eq_some {t : Tag} (h : punctuationTag? c = some t) :
    (t ≠ .blank ∧ t ≠ .comment ∧ t.isDirective = false) ∧ 33 ≤ c.toNat ∧ c.toNat ≤ 126 := by
  unfold punctuationTag? at h
  simp only [Bool.or_eq_true, decide_eq_true_eq] at h
  split_ifs at h with h1 h2 h3 h4 <;> cases h
  · rcases h1 with rfl | rfl <;> decide
  · rcases h2 with rfl | rfl <;> decide
  · rcases h3 with (rfl | rfl) | rfl <;> decide
  · rcases h4 with (rfl | rfl) | rfl <;> decide

theorem punctuationTag?_ne (c : Char) :
    punctuationTag? c ≠ some .blank ∧ punctuationTag? c ≠ some .comment :=
  ⟨fun h => (punctuationTag?_eq_some h).1.1 rfl, fun h => (punctuationTag?_eq_some h).1.2.1 rfl⟩

/-- Only the blank-run rule tags a lexeme `blank`. -/
theorem eq_blankRun_of_claim {R : Rule} (h : R.claim c r = .take k (some .blank)) :
    R = .blankRun := by
  cases R <;> simp only [claim_quotedString, claim_longString, claim_comment, claim_blankRun,
      claim_numeral, claim_vararg, claim_concat, claim_identifier, claim_punctuation, claim_operator,
      claim_assign] at h <;>
    (repeat' split at h) <;>
    simp_all [wordTag_ne, punctuationTag?_ne]

/-- Only the blank-run rule claims a lexeme to drop. -/
theorem eq_blankRun_of_claim_none {R : Rule} (h : R.claim c r = .take k none) :
    R = .blankRun := by
  cases R <;> simp only [claim_quotedString, claim_longString, claim_comment, claim_blankRun,
      claim_numeral, claim_vararg, claim_concat, claim_identifier, claim_punctuation, claim_operator,
      claim_assign] at h <;>
    (repeat' split at h) <;> simp_all

/-- Only the comment rule tags a lexeme `comment`. -/
theorem eq_comment_of_claim {R : Rule} (h : R.claim c r = .take k (some .comment)) :
    R = .comment := by
  cases R <;> simp only [claim_quotedString, claim_longString, claim_comment, claim_blankRun,
      claim_numeral, claim_vararg, claim_concat, claim_identifier, claim_punctuation, claim_operator,
      claim_assign] at h <;>
    (repeat' split at h) <;>
    simp_all [wordTag_ne, punctuationTag?_ne]

/-- No rule tags a lexeme with a render directive. -/
theorem claim_isDirective {R : Rule} {t : Tag} (h : R.claim c r = .take k (some t)) :
    t.isDirective = false := by
  cases R
  case punctuation =>
    simp only [claim_punctuation] at h
    split at h
    · rename_i t' ht'
      cases h
      exact (punctuationTag?_eq_some ht').1.2.2
    · cases h
  all_goals
    simp only [claim_quotedString, claim_longString, claim_comment, claim_blankRun,
        claim_numeral, claim_vararg, claim_concat, claim_identifier, claim_operator,
        claim_assign] at h
    (repeat' split at h) <;> cases h <;> first | rfl | exact (wordTag_ne _).2.2

theorem chain_isDirective {t : Tag} (h : chain c r = .take k (some t)) : t.isDirective = false := by
  obtain ⟨R, -, hR⟩ := firstClaim_eq_take h
  exact claim_isDirective hR

/-! ### A lexeme lies in the text -/

theorem claim_take_le {R : Rule} {tag : Option Tag} (h : R.claim c r = .take k tag) :
    k ≤ r.length := by
  cases R with
  | quotedString =>
    obtain ⟨-, hq, -⟩ := quotedString_eq_take_iff.1 h
    exact (quoteEnd?_take_append hq).2.1
  | longString =>
    obtain ⟨hs, -⟩ := longString_eq_take_iff.1 h
    have := (Bracket.scan_take_append hs).1
    simp only [length_cons] at this
    omega
  | comment =>
    obtain ⟨-, ⟨body, rfl, ⟨n, hs, rfl⟩ | ⟨-, rfl⟩⟩, -⟩ := comment_eq_take_iff.1 h
    · have := (Bracket.scan_take_append hs).1
      simp only [length_cons]
      omega
    · exact (takeWhile_sublist _).length_le
  | blankRun =>
    obtain ⟨-, rfl, -⟩ := blankRun_eq_take_iff.1 h
    exact (takeWhile_sublist _).length_le
  | numeral =>
    obtain ⟨-, hl, -⟩ := numeral_eq_take_iff.1 h
    have h1 := (Numeral.longestPrefix_spec hl).1
    have h2 := (takeWhile_sublist (l := r) Numeral.isRunChar).length_le
    simp only [length_cons] at h1
    omega
  | vararg =>
    obtain ⟨-, hr, rfl, -⟩ := vararg_eq_take_iff.1 h
    have := congrArg length hr
    simp at this
    omega
  | concat =>
    obtain ⟨-, hr, rfl, -⟩ := concat_eq_take_iff.1 h
    have := congrArg length hr
    simp at this
    omega
  | identifier =>
    obtain ⟨-, rfl, -⟩ := identifier_eq_take_iff.1 h
    exact (takeWhile_sublist _).length_le
  | punctuation =>
    obtain ⟨rfl, -⟩ := punctuation_eq_take_iff.1 h
    exact Nat.zero_le _
  | operator =>
    obtain ⟨op, hf, rfl, -⟩ := operator_eq_take_iff.1 h
    have := (operator_found hf).2.1.length_le
    simp only [length_cons] at this
    omega
  | assign =>
    obtain ⟨-, rfl, -⟩ := assign_eq_take_iff.1 h
    exact Nat.zero_le _

theorem chain_take_le {tag : Option Tag} (h : chain c r = .take k tag) : k ≤ r.length := by
  obtain ⟨R, -, hR⟩ := firstClaim_eq_take h
  exact claim_take_le hR

/-! ### Blank runs and line comments -/

/-- A blank-line lexeme is all lexer blanks and holds two line feeds. -/
theorem chain_blank (h : chain c r = .take k (some .blank)) :
    (∀ x ∈ c :: r.take k, Text.isLexBlank x = true) ∧ 2 ≤ (c :: r.take k).count '\n' := by
  obtain ⟨R, -, hR⟩ := firstClaim_eq_take h
  obtain rfl := eq_blankRun_of_claim hR
  obtain ⟨hc, rfl, hcount⟩ := blankRun_eq_take_iff.1 hR
  -- the lexeme is `c` and the run of blanks after it
  rw [take_length_takeWhile]
  refine ⟨?_, ?_⟩
  · intro x hx
    rcases mem_cons.1 hx with rfl | hx
    · exact hc
    · exact mem_takeWhile_imp hx
  · split at hcount
    · assumption
    · cases hcount

/-- A comment with no long bracket after its `--` is `--` and the rest of its line. -/
theorem chain_lineComment_shape (h : chain c r = .take k (some .comment))
    (hlevel : Bracket.level? (r.drop 1) = none) :
    c = '-' ∧ ∃ body, r = '-' :: body ∧ r.take k = '-' :: body.takeWhile (· != '\n') := by
  obtain ⟨R, -, hR⟩ := firstClaim_eq_take h
  obtain rfl := eq_comment_of_claim hR
  obtain ⟨rfl, ⟨body, rfl, ⟨n, hs, -⟩ | ⟨-, rfl⟩⟩, -⟩ := comment_eq_take_iff.1 hR
  · -- a long bracket: excluded, since no opener stands after `--`
    simp only [drop_one, tail_cons] at hlevel
    rw [Bracket.scan_eq_absent_iff.2 hlevel] at hs
    cases hs
  · refine ⟨rfl, body, rfl, ?_⟩
    rw [take_length_takeWhile, takeWhile_cons]
    simp

/-- A comment with a long bracket after its `--` holds that bracket whole. -/
theorem chain_longComment (h : chain c r = .take k (some .comment))
    (hlong : (Bracket.level? (r.drop 1)).isSome) :
    (Bracket.level? ((r.take k).drop 1)).isSome := by
  obtain ⟨R, -, hR⟩ := firstClaim_eq_take h
  obtain rfl := eq_comment_of_claim hR
  obtain ⟨rfl, ⟨body, rfl, ⟨n, hs, rfl⟩ | ⟨hs, -⟩⟩, -⟩ := comment_eq_take_iff.1 hR
  · -- the lexeme's body is the bracket, which scans as closed on its own
    have hclosed := (Bracket.scan_take_append hs).2.2 []
    rw [append_nil] at hclosed
    rw [take_succ_cons, drop_one, tail_cons]
    cases hl : Bracket.level? (body.take n) with
    | none => rw [Bracket.scan_eq_absent_iff.2 hl] at hclosed; cases hclosed
    | some m => rfl
  · -- a line comment: excluded, since an opener stands after `--`
    simp only [drop_one, tail_cons] at hlong
    obtain ⟨m, hm⟩ := Option.isSome_iff_exists.1 hlong
    rw [Bracket.scan_eq_absent_iff, hm] at hs
    cases hs

/-! ### The ends of a lexeme are not stripped -/

/-- A character no layout blank, and a last character no layout blank when there is one. -/
theorem printable_ends {c : Char} {l : List Char}
    (h : ∀ x ∈ c :: l, 33 ≤ x.toNat ∧ x.toNat ≤ 126) :
    Text.isBlank c = false ∧ ∀ x ∈ l.getLast?, Text.isBlank x = false := by
  refine ⟨Text.isBlank_eq_false (h c mem_cons_self).1 (h c mem_cons_self).2, fun x hx => ?_⟩
  have hmem : x ∈ c :: l := mem_cons_of_mem c (mem_of_getLast? hx)
  exact Text.isBlank_eq_false (h x hmem).1 (h x hmem).2

theorem getLast?_eq_of_cons {c x : Char} {l : List Char} (h : (c :: l).getLast? = some x) :
    ∀ y ∈ l.getLast?, y = x := by
  intro y hy
  rw [getLast?_cons, Option.mem_def.1 hy] at h
  simpa using h

/-- A lexeme with a tag, other than a blank run or a line comment, starts and ends with a
character that is no layout blank. -/
theorem claim_ends {R : Rule} {t : Tag} (h : R.claim c r = .take k (some t))
    (hblank : t ≠ .blank) (hlong : t = .comment → (Bracket.level? (r.drop 1)).isSome) :
    Text.isBlank c = false ∧ ∀ x ∈ (r.take k).getLast?, Text.isBlank x = false := by
  cases R with
  | quotedString =>
    obtain ⟨hc, hq, -⟩ := quotedString_eq_take_iff.1 h
    -- a quoted string ends with its opening quote
    have hcb : Text.isBlank c = false := by
      rcases hc with rfl | rfl <;> decide
    refine ⟨hcb, fun x hx => ?_⟩
    rw [(quoteEnd?_take_append hq).2.2.1, Option.mem_some_iff] at hx
    rw [← hx]
    exact hcb
  | longString =>
    obtain ⟨hs, -⟩ := longString_eq_take_iff.1 h
    have hlast := (Bracket.scan_take_append hs).2.1
    -- a long bracket opens with `[` and closes with `]`
    have hc : c = '[' := by
      by_contra hc
      rw [Bracket.scan_eq_absent_iff.2 (Bracket.level?_cons_of_ne hc r)] at hs
      cases hs
    rw [take_succ_cons] at hlast
    refine ⟨hc ▸ by decide, fun x hx => ?_⟩
    rw [getLast?_eq_of_cons hlast x hx]
    decide
  | comment =>
    obtain ⟨rfl, ⟨body, rfl, ⟨n, hs, rfl⟩ | ⟨hs, -⟩⟩, htag⟩ := comment_eq_take_iff.1 h
    · have hlast := (Bracket.scan_take_append hs).2.1
      refine ⟨by decide, fun x hx => ?_⟩
      rw [take_succ_cons, getLast?_cons, hlast, Option.getD_some, Option.mem_some_iff] at hx
      rw [← hx]
      decide
    · -- a line comment: excluded, since an opener stands after `--`
      simp only [drop_one, tail_cons] at hlong
      obtain ⟨m, hm⟩ := Option.isSome_iff_exists.1 (hlong (Option.some.inj htag))
      rw [Bracket.scan_eq_absent_iff, hm] at hs
      cases hs
  | blankRun =>
    -- a blank run carries the blank tag or none
    obtain ⟨-, -, htag⟩ := blankRun_eq_take_iff.1 h
    split at htag
    · exact absurd (Option.some.inj htag) hblank
    · cases htag
  | numeral =>
    obtain ⟨hc, hl, -⟩ := numeral_eq_take_iff.1 h
    -- a numeral is made of run characters only
    apply printable_ends
    intro x hx
    rcases mem_cons.1 hx with rfl | hx
    · have := Numeral.toNat_of_isRunChar hc
      omega
    · have hle := (Numeral.longestPrefix_spec hl).1
      simp only [length_cons] at hle
      rw [take_eq_take_takeWhile (p := Numeral.isRunChar) (by omega)] at hx
      have := Numeral.toNat_of_isRunChar (mem_takeWhile_imp (mem_of_mem_take hx))
      omega
  | vararg =>
    obtain ⟨rfl, hr, rfl, -⟩ := vararg_eq_take_iff.1 h
    rw [hr]
    refine ⟨by decide, fun x hx => ?_⟩
    simp at hx
    subst hx
    decide
  | concat =>
    obtain ⟨rfl, hr, rfl, -⟩ := concat_eq_take_iff.1 h
    rw [hr]
    refine ⟨by decide, fun x hx => ?_⟩
    simp at hx
    subst hx
    decide
  | identifier =>
    obtain ⟨hc, rfl, -⟩ := identifier_eq_take_iff.1 h
    rw [take_length_takeWhile]
    -- a word is made of word characters only
    apply printable_ends
    intro x hx
    have hid : isIdentChar x = true := by
      rcases mem_cons.1 hx with rfl | hx
      · exact hc
      · exact mem_takeWhile_imp hx
    have := toNat_of_isIdentChar hid
    omega
  | punctuation =>
    obtain ⟨rfl, t', ht', -⟩ := punctuation_eq_take_iff.1 h
    obtain ⟨-, h1, h2⟩ := punctuationTag?_eq_some ht'
    exact ⟨Text.isBlank_eq_false h1 h2, by simp⟩
  | operator =>
    obtain ⟨op, hf, rfl, -⟩ := operator_eq_take_iff.1 h
    -- the lexeme is the operator itself
    obtain ⟨hop, -, heq⟩ := operator_found hf
    apply printable_ends
    rw [heq]
    exact fun x hx => toNat_of_mem_operators hop hx
  | assign =>
    obtain ⟨rfl, rfl, -⟩ := assign_eq_take_iff.1 h
    exact ⟨by decide, by simp⟩

theorem chain_ends {t : Tag} (h : chain c r = .take k (some t)) (hblank : t ≠ .blank)
    (hlong : t = .comment → (Bracket.level? (r.drop 1)).isSome) :
    Text.isBlank c = false ∧ ∀ x ∈ (r.take k).getLast?, Text.isBlank x = false := by
  obtain ⟨R, -, hR⟩ := firstClaim_eq_take h
  exact claim_ends hR hblank hlong

end Rule

end LuaReflow
