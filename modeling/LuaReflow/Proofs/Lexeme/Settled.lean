import Mathlib.Data.List.Find
import LuaReflow.Proofs.Lexeme.Scanned

/-!
# A lexeme is settled before the next blank

The rule chain reads ahead of a lexeme, but never across a lexer blank. A lexeme that the chain
claims in a text `x` followed by a blank `b`, and that ends within `x`, is claimed the same, with
the same length and tag, when `b` is followed by anything at all. So a fixed piece of text can
be scanned once, as it stands before a blank, and the result used wherever the piece stands
before that blank.

* `Numeral.longestPrefix_of_prefix` — a prefix of a run keeps the run's longest numeral when it
  is long enough to hold it;
* `Rule.claim_take_cut` — a rule that claims a lexeme claims it again when the text is cut
  anywhere after the character that follows the lexeme and a blank put behind the cut;
* `Rule.chain_settled` — a lexeme the chain claims in `x ++ [b]` that ends within `x` is
  claimed the same in `x ++ b :: rest`;
* `Token.scanWithin`, `Token.scanFrom_scanWithin` — the lexemes of a piece of text read before
  a blank, and the scan of that piece followed by the blank and any rest.
-/

namespace LuaReflow

open List

/-! ### Runs and numerals cut short -/

/-- Cutting a text at `m` cuts it at `k` first, when `k ≤ m`. -/
theorem take_append_of_le {r s : List Char} {k m : Nat} (h : k ≤ m) :
    r.take m ++ s = r.take k ++ ((r.drop k).take (m - k) ++ s) := by
  rw [← append_assoc, ← take_add, Nat.add_sub_cancel' h]

/-- A run that stops before the cut stops at the same place after it. -/
theorem takeWhile_take_append_of_lt {p : Char → Bool} {r s : List Char} {m : Nat}
    (h : (r.takeWhile p).length < m) (hm : m ≤ r.length) :
    (r.take m ++ s).takeWhile p = r.takeWhile p := by
  induction r generalizing m with
  | nil =>
    simp only [takeWhile_nil, length_nil] at h hm
    omega
  | cons x xs ih =>
    obtain ⟨m, rfl⟩ : ∃ m', m = m' + 1 := ⟨m - 1, by omega⟩
    by_cases hx : p x = true
    · rw [takeWhile_cons_of_pos hx, length_cons] at h
      rw [take_succ_cons, cons_append, takeWhile_cons_of_pos hx, takeWhile_cons_of_pos hx,
        ih (by omega) (by simpa using hm)]
    · rw [take_succ_cons, cons_append, takeWhile_cons_of_neg hx, takeWhile_cons_of_neg hx]

/-- A run that a character outside the class ends is the run of the text before it. -/
theorem takeWhile_append_cons_of_neg {p : Char → Bool} {l rest : List Char} {b : Char}
    (hb : p b = false) : (l ++ b :: rest).takeWhile p = l.takeWhile p := by
  rw [takeWhile_append, takeWhile_cons_of_neg (by simp [hb]), append_nil]
  split
  · rename_i hl
    have hpre : l.takeWhile p <+: l := takeWhile_prefix p
    exact (hpre.eq_of_length hl).symm
  · rfl

/-- A character in the class after a text lengthens the run of a text that is all in the
class. -/
theorem length_takeWhile_append_singleton_ne {p : Char → Bool} {l : List Char} {b : Char}
    (hb : p b = true) : ((l ++ [b]).takeWhile p).length ≠ l.length := by
  intro h
  rw [takeWhile_append] at h
  split at h
  · simp [hb] at h
  · contradiction

namespace Numeral

/-- A run that is no numeral has the longest numeral of the run less its last character. -/
theorem longestPrefix_eq_dropLast {cs : List Char} (h : isLiteral cs = false) :
    longestPrefix cs = longestPrefix cs.dropLast := by
  cases cs using reverseRecOn with
  | nil => rfl
  | append_singleton l x =>
    have hwhole : ¬isLiteral ((l ++ [x]).take (l.length + 1)) = true := by
      rw [take_of_length_le (by simp), h]
      simp
    rw [dropLast_concat, longestPrefix_eq, longestPrefix_eq, length_append, length_singleton,
      range_succ, reverse_append, reverse_singleton, singleton_append, map_cons,
      find?_cons_of_neg (p := fun n => isLiteral ((l ++ [x]).take n)) hwhole]
    -- below the whole run, the candidates read the same characters
    congr 1
    apply find?_congr
    intro n hn
    obtain ⟨-, hle⟩ := mem_candidates.1 hn
    rw [take_append_of_le_length hle]

/-- **A prefix keeps the longest numeral.** A prefix of a run that still holds the run's longest
numeral has the same longest numeral. -/
theorem longestPrefix_of_prefix {cs cs' : List Char} {j : Nat} (h : longestPrefix cs = j + 1)
    (hp : cs' <+: cs) (hj : j + 1 ≤ cs'.length) : longestPrefix cs' = j + 1 := by
  induction cs using reverseRecOn with
  | nil =>
    have h0 : longestPrefix [] = 0 := rfl
    omega
  | append_singleton l x ih =>
    have hle := hp.length_le
    rcases eq_or_ne cs'.length (l ++ [x]).length with hlen | hlen
    · rw [hp.eq_of_length hlen]
      exact h
    · -- the whole run is no numeral, since a shorter prefix is the longest one
      have hlit : isLiteral (l ++ [x]) = false := by
        cases hl : isLiteral (l ++ [x])
        · rfl
        · have := longestPrefix_of_isLiteral hl (by simp)
          omega
      rw [longestPrefix_eq_dropLast hlit, dropLast_concat] at h
      have hp' : cs' <+: l := by
        simp only [length_append, length_singleton] at hle hlen
        exact prefix_of_prefix_length_le hp (prefix_append l [x]) (by omega)
      exact ih h hp'

end Numeral

namespace Rule

/-! ### A claiming rule claims the same lexeme after a later cut -/

section Cut

variable {c b : Char} {r : List Char} {k m : Nat} {tag : Option Tag} (rest : List Char)

theorem quotedString_take_cut (h : quotedString.claim c r = .take k tag) (hkm : k ≤ m) :
    quotedString.claim c (r.take m ++ b :: rest) = .take k tag := by
  obtain ⟨hc, hq, htag⟩ := quotedString_eq_take_iff.1 h
  refine quotedString_eq_take_iff.2 ⟨hc, ?_, htag⟩
  rw [take_append_of_le hkm, (quoteEnd?_take_append hq).2.2.2]

theorem longString_take_cut (h : longString.claim c r = .take k tag) (hkm : k ≤ m) :
    longString.claim c (r.take m ++ b :: rest) = .take k tag := by
  obtain ⟨hs, htag⟩ := longString_eq_take_iff.1 h
  refine longString_eq_take_iff.2 ⟨?_, htag⟩
  rw [take_append_of_le hkm, ← cons_append, ← take_succ_cons]
  exact (Bracket.scan_take_append hs).2.2 _

theorem comment_take_cut (hb : Text.isLexBlank b = true) (h : comment.claim c r = .take k tag)
    (hkm : k < m) (hm : m ≤ r.length) :
    comment.claim c (r.take m ++ b :: rest) = .take k tag := by
  have hbn := Text.toNat_le_of_isLexBlank hb
  obtain ⟨rfl, ⟨body, rfl, ⟨n, hs, rfl⟩ | ⟨hs, rfl⟩⟩, rfl⟩ := comment_eq_take_iff.1 h
  all_goals
    obtain ⟨m, rfl⟩ : ∃ m', m = m' + 1 := ⟨m - 1, by omega⟩
    rw [take_succ_cons, cons_append, claim_comment_dash]
  · -- the long bracket lies before the cut
    rw [take_append_of_le (show n ≤ m by omega), (Bracket.scan_take_append hs).2.2]
  · -- no opener stands after `--`, and the line feed that ends the comment is kept
    have habsent : Bracket.scan (body.take m ++ b :: rest) = .absent := by
      rw [Bracket.scan_eq_absent_iff] at hs ⊢
      exact Bracket.level?_take_append hs m (by intro h; subst h; simp at hbn)
        (by intro h; subst h; simp at hbn) rest
    simp only [habsent]
    rw [← cons_append, ← take_succ_cons, takeWhile_take_append_of_lt hkm hm]

theorem blankRun_take_cut (h : blankRun.claim c r = .take k tag) (hkm : k < m)
    (hm : m ≤ r.length) : blankRun.claim c (r.take m ++ b :: rest) = .take k tag := by
  obtain ⟨hc, rfl, rfl⟩ := blankRun_eq_take_iff.1 h
  rw [blankRun_eq_take_iff, takeWhile_take_append_of_lt hkm hm]
  exact ⟨hc, rfl, rfl⟩

theorem numeral_take_cut (hb : Text.isLexBlank b = true) (h : numeral.claim c r = .take k tag)
    (hkm : k < m) : numeral.claim c (r.take m ++ b :: rest) = .take k tag := by
  have hbrun := Numeral.isRunChar_eq_false_of_isLexBlank hb
  obtain ⟨hc, hl, htag⟩ := numeral_eq_take_iff.1 h
  -- the run after the cut is the run cut short, and it still holds the numeral
  have hrun : (r.take m ++ b :: rest).takeWhile Numeral.isRunChar =
      (r.takeWhile Numeral.isRunChar).take m := by
    rw [takeWhile_append_cons_of_neg hbrun, take_takeWhile]
  have hspec := (Numeral.longestPrefix_spec hl).1
  have hcut := Numeral.longestPrefix_of_prefix hl
    (cons_prefix_cons.2 ⟨rfl, take_prefix m (r.takeWhile Numeral.isRunChar)⟩)
    (by simp only [length_cons, length_take] at hspec ⊢; omega)
  exact numeral_eq_take_iff.2 ⟨hc, by rw [hrun, hcut], htag⟩

theorem vararg_take_cut (h : vararg.claim c r = .take k tag) (hkm : k < m) (hm : m ≤ r.length) :
    vararg.claim c (r.take m ++ b :: rest) = .take k tag := by
  obtain ⟨hc, hr, rfl, htag⟩ := vararg_eq_take_iff.1 h
  refine vararg_eq_take_iff.2 ⟨hc, ?_, rfl, htag⟩
  -- the two characters it looks at lie before the cut
  rw [take_append_of_le_length (by simp; omega), take_take, Nat.min_eq_left (by omega), hr]

theorem concat_take_cut (h : concat.claim c r = .take k tag) (hkm : k < m) (hm : m ≤ r.length) :
    concat.claim c (r.take m ++ b :: rest) = .take k tag := by
  obtain ⟨hc, hr, rfl, htag⟩ := concat_eq_take_iff.1 h
  refine concat_eq_take_iff.2 ⟨hc, ?_, rfl, htag⟩
  rw [take_append_of_le_length (by simp; omega), take_take, Nat.min_eq_left (by omega), hr]

theorem identifier_take_cut (h : identifier.claim c r = .take k tag) (hkm : k < m)
    (hm : m ≤ r.length) : identifier.claim c (r.take m ++ b :: rest) = .take k tag := by
  obtain ⟨hc, rfl, rfl⟩ := identifier_eq_take_iff.1 h
  rw [identifier_eq_take_iff, takeWhile_take_append_of_lt hkm hm]
  exact ⟨hc, rfl, rfl⟩

theorem operator_take_cut (hb : Text.isLexBlank b = true) (h : operator.claim c r = .take k tag)
    (hkm : k ≤ m) : operator.claim c (r.take m ++ b :: rest) = .take k tag := by
  obtain ⟨op, hf, rfl, htag⟩ := operator_eq_take_iff.1 h
  exact operator_eq_take_iff.2 ⟨op, operator_find?_take_append hb hf hkm rest, rfl, htag⟩

/-- **A claiming rule claims the same lexeme after a later cut.** A rule that claims a lexeme
claims it again, with the same length and tag, when the text is cut anywhere after the
character that follows the lexeme and a blank put behind the cut. -/
theorem claim_take_cut {R : Rule} (hb : Text.isLexBlank b = true) (h : R.claim c r = .take k tag)
    (hkm : k < m) (hm : m ≤ r.length) : R.claim c (r.take m ++ b :: rest) = .take k tag := by
  cases R with
  | quotedString => exact quotedString_take_cut rest h (le_of_lt hkm)
  | longString => exact longString_take_cut rest h (le_of_lt hkm)
  | comment => exact comment_take_cut rest hb h hkm hm
  | blankRun => exact blankRun_take_cut rest h hkm hm
  | numeral => exact numeral_take_cut rest hb h hkm
  | vararg => exact vararg_take_cut rest h hkm hm
  | concat => exact concat_take_cut rest h hkm hm
  | identifier => exact identifier_take_cut rest h hkm hm
  | punctuation => simpa [claim_punctuation] using h
  | operator => exact operator_take_cut rest hb h (le_of_lt hkm)
  | assign => simpa [claim_assign] using h

/-- The rules after the quoted-string rule claim as a chain after a later cut. -/
theorem firstClaim_take_cut {rules : List Rule} (hq : quotedString ∉ rules)
    (hb : Text.isLexBlank b = true) (h : firstClaim c r rules = .take k tag) (hkm : k < m)
    (hm : m ≤ r.length) : firstClaim c (r.take m ++ b :: rest) rules = .take k tag := by
  induction rules with
  | nil => cases h
  | cons R Rs ih =>
    have hR : R ≠ quotedString := fun hR => hq (hR ▸ mem_cons_self)
    rw [firstClaim_cons] at h ⊢
    split at h
    · rename_i hd
      rw [claim_decline_append m hb rest hR hd]
      exact ih (fun hm => hq (mem_cons_of_mem R hm)) h
    · rw [claim_take_cut rest hb h hkm hm]

/-- **The chain claims the same lexeme after a later cut.** -/
theorem chain_take_cut (hb : Text.isLexBlank b = true) (h : chain c r = .take k tag)
    (hkm : k < m) (hm : m ≤ r.length) : chain c (r.take m ++ b :: rest) = .take k tag := by
  rw [chain_eq, firstClaim_cons] at h ⊢
  split at h
  · -- the quoted-string rule declined, and declines again since `c` is no quote
    have hnq : (c = '"' || c = '\'') = false := by
      cases hcq : (c = '"' || c = '\'')
      · rfl
      · rw [firstClaim_of_quote hcq] at h
        cases h
    have hd' : quotedString.claim c (r.take m ++ b :: rest) = .decline := by
      simp only [claim_quotedString, hnq, Bool.false_eq_true, if_false]
    rw [hd']
    exact firstClaim_take_cut rest (by decide) hb h hkm hm
  · rw [quotedString_take_cut rest h (le_of_lt hkm)]

end Cut

/-! ### The text up to the next blank settles the lexeme -/

/-- **A line comment is settled by its line feed.** A line comment the chain claims in `x ++ [b]`
up to the end of `x` runs up to a line feed, so `b` is that line feed, and the comment is
claimed the same whatever follows it. -/
theorem chain_lineComment_settled {c b : Char} {x : List Char}
    (h : chain c (x ++ [b]) = .take x.length (some .comment))
    (hlevel : Bracket.level? ((x ++ [b]).drop 1) = none) (rest : List Char) :
    chain c (x ++ b :: rest) = .take x.length (some .comment) := by
  have hx : (x ++ [b]).take x.length = x := take_left' rfl
  obtain ⟨rfl, body, hbody, htake⟩ := chain_lineComment_shape h hlevel
  rw [hx] at htake
  subst htake
  have hsplit : body = body.takeWhile (· != '\n') ++ [b] := by
    rw [cons_append] at hbody
    exact (cons.inj hbody).2.symm
  -- the line of the comment ends where the text does, so at `b`
  have hb' : b = '\n' := by
    by_contra hne
    have hrun : ((body.takeWhile (· != '\n') ++ [b]).takeWhile (· != '\n')).length =
        (body.takeWhile (· != '\n')).length := by
      rw [← hsplit]
    exact length_takeWhile_append_singleton_ne (p := (· != '\n')) (bne_iff_ne.2 hne) hrun
  have hnl : '\n' ∉ body.takeWhile (· != '\n') := fun hm => by
    simpa using mem_takeWhile_imp hm
  have hlevel' : Bracket.level? (body.takeWhile (· != '\n')) = none := by
    rw [hbody, drop_one, tail_cons] at hlevel
    have hpre : body.takeWhile (· != '\n') <+: body := takeWhile_prefix _
    exact Token.level?_eq_none_mono hlevel hpre
  subst hb'
  exact chain_lineComment_newline hnl hlevel' rest

/-- **A lexeme is settled before the next blank.** When the chain claims a lexeme of `x ++ [b]`
that ends within `x`, for a lexer blank `b`, it claims the same lexeme of `x ++ b :: rest`,
whatever `rest` is. -/
theorem chain_settled {c b : Char} {x : List Char} {k : Nat} {tag : Option Tag}
    (hb : Text.isLexBlank b = true) (h : chain c (x ++ [b]) = .take k tag) (hk : k ≤ x.length)
    (rest : List Char) : chain c (x ++ b :: rest) = .take k tag := by
  have hx : (x ++ [b]).take x.length = x := take_left' rfl
  rcases Nat.lt_or_ge k x.length with hlt | hge
  · -- the character after the lexeme belongs to `x`
    have hcut := chain_take_cut rest hb h hlt (by simp)
    rwa [hx] at hcut
  · obtain rfl : k = x.length := le_antisymm hk hge
    obtain ⟨R, -, hR⟩ := firstClaim_eq_take h
    -- a blank run would take the blank `b` too
    have hrun : R ≠ .blankRun := by
      rintro rfl
      obtain ⟨-, hlen, -⟩ := blankRun_eq_take_iff.1 hR
      exact length_takeWhile_append_singleton_ne hb hlen.symm
    cases tag with
    | none => exact absurd (eq_blankRun_of_claim_none hR) hrun
    | some t =>
      by_cases hblank : t = .blank
      · subst hblank
        exact absurd (eq_blankRun_of_claim hR) hrun
      by_cases hline : t = .comment ∧ Bracket.level? ((x ++ [b]).drop 1) = none
      · obtain ⟨rfl, hlevel⟩ := hline
        exact chain_lineComment_settled h hlevel rest
      · have hlong : t = .comment → (Bracket.level? ((x ++ [b]).drop 1)).isSome := by
          intro htc
          cases hl : Bracket.level? ((x ++ [b]).drop 1) with
          | none => exact absurd ⟨htc, hl⟩ hline
          | some n => rfl
        have hcut := chain_take_append rest hb h hblank hlong
        rwa [hx] at hcut

end Rule

namespace Token

/-! ### A piece of text read before a blank -/

/-- The token `t` moved `n` places further into the source. -/
def shift (n : Nat) (t : Token) : Token := { t with offset := t.offset + n }

@[simp] theorem tag_shift (n : Nat) (t : Token) : (t.shift n).tag = t.tag := rfl

@[simp] theorem text_shift (n : Nat) (t : Token) : (t.shift n).text = t.text := rfl

theorem shift_shift (m n : Nat) (t : Token) : (t.shift m).shift n = t.shift (n + m) := by
  simp only [shift, Token.mk.injEq, true_and]
  omega

/-- The lexemes of the piece of text `cs`, with offsets counted from its start, as the scan reads
them when `follow` comes after the piece; `none` when the scan stops there, or when a lexeme
reaches past the piece into `follow`. -/
def scanPiece (follow : List Char) : List Char → Option (List Token)
  | [] => some []
  | c :: r =>
    match Rule.chain c (r ++ follow) with
    | .take extra tag =>
      if extra ≤ r.length then
        (scanPiece follow (r.drop extra)).map fun ts =>
          (match tag with
            | some t => [⟨t, String.ofList (c :: r.take extra), 0⟩]
            | none => []) ++ ts.map (shift (extra + 1))
      else none
    | _ => none
termination_by cs => cs.length
decreasing_by simp only [List.length_drop, List.length_cons]; omega

/-- **A piece is scanned the same wherever it stands.** When every lexeme the chain claims
before `follow` is claimed the same before `F`, a piece whose lexemes all end within it is read
as those lexemes, placed at the piece's offset, and the scan goes on at `F`. -/
theorem scanFrom_scanPiece {follow F : List Char}
    (hsettle : ∀ c r k tag, Rule.chain c (r ++ follow) = .take k tag → k ≤ r.length →
      Rule.chain c (r ++ F) = .take k tag)
    {cs : List Char} {ts : List Token} (h : scanPiece follow cs = some ts) (pos : Nat)
    (acc : List Token) :
    scanFrom pos acc (cs ++ F) =
      scanFrom (pos + cs.length) ((ts.map (shift pos)).reverse ++ acc) F := by
  fun_induction scanPiece follow cs generalizing ts pos acc with
  | case1 =>
    cases h
    simp
  | case2 c r extra tag hchain hle ih =>
    obtain ⟨ts', hts', rfl⟩ := Option.map_eq_some_iff.1 h
    have htake : (r ++ F).take extra = r.take extra := take_append_of_le_length hle
    have hdrop : (r ++ F).drop extra = r.drop extra ++ F := drop_append_of_le_length hle
    have hlen : (c :: r.take extra).length = extra + 1 := by simp; omega
    rw [cons_append, scanFrom, hsettle c r extra tag hchain hle]
    simp only [htake, hdrop, hlen]
    rw [ih hts']
    have hpos : pos + (extra + 1) + (r.drop extra).length = pos + (c :: r).length := by
      simp only [length_drop, length_cons]
      omega
    have hmoved : (ts'.map (shift (extra + 1))).map (shift pos) =
        ts'.map (shift (pos + (extra + 1))) := by
      rw [map_map]
      exact map_congr_left (fun t _ => shift_shift _ _ t)
    rw [hpos, map_append, hmoved, reverse_append, append_assoc]
    cases tag with
    | none => rfl
    | some t => simp [shift]
  | case3 => cases h
  | case4 => cases h

/-- A piece followed by a lexer blank is read as its lexemes, and the scan goes on at the
blank. -/
theorem scanFrom_piece_blank {b : Char} (hb : Text.isLexBlank b = true) {cs : List Char}
    {ts : List Token} (h : scanPiece [b] cs = some ts) (rest : List Char) (pos : Nat)
    (acc : List Token) :
    scanFrom pos acc (cs ++ b :: rest) =
      scanFrom (pos + cs.length) ((ts.map (shift pos)).reverse ++ acc) (b :: rest) :=
  scanFrom_scanPiece (fun _ _ _ _ hc hk => Rule.chain_settled hb hc hk rest) h pos acc

/-- A piece at the end of the source is read as its lexemes, and the scan ends there. -/
theorem scanFrom_piece_end {cs : List Char} {ts : List Token} (h : scanPiece [] cs = some ts)
    (pos : Nat) (acc : List Token) :
    scanFrom pos acc cs = .ok (acc.reverse ++ ts.map (shift pos)) := by
  have hscan := scanFrom_scanPiece (F := []) (fun _ _ _ _ hc _ => hc) h pos acc
  rw [append_nil] at hscan
  rw [hscan, scanFrom, reverse_append, reverse_reverse]

end Token

end LuaReflow
