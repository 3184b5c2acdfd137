import Mathlib.Data.List.Chain
import LuaReflow.Lexeme.Scan
import LuaReflow.Proofs.Lexeme.Shape

/-!
# The tokens a scan produces

Every token the scan produces has one of three shapes (`Token.Scanned`):

* a blank-line token: lexer blanks only, two line feeds among them;
* a line comment: `--` and the rest of its line, with no long bracket after the `--`;
* any other lexeme, which the chain reads again as itself whatever blank follows it, and whose
  first and last characters are no layout blanks.

Two blank-line tokens are never adjacent, since a blank run is read whole. Together these make
a token list `Token.Lexed`, and every scan that succeeds returns one (`Token.scan_lexed`). The
step lemmas `Token.scanFrom_lexeme` and `Token.scanFrom_blanks` say what one round of the scan
does to a lexeme and to a run of blanks.
-/

namespace LuaReflow

open List

namespace Token

/-- Whether a token is a comment that runs to the end of its line: no long bracket opens
after its `--`. -/
def isLineComment (t : Token) : Bool :=
  t.tag == .comment && (Bracket.level? (t.text.toList.drop 2)).isNone

/-- The shapes of the tokens a scan produces. -/
inductive Scanned : Token → Prop
  /-- Lexer blanks only, two line feeds among them. -/
  | blank {text : String} {offset : Int} (hblank : ∀ x ∈ text.toList, Text.isLexBlank x = true)
      (hcount : 2 ≤ text.toList.count '\n') : Scanned ⟨.blank, text, offset⟩
  /-- `--` and the rest of its line, with no long bracket after the `--`. -/
  | lineComment {body : List Char} {offset : Int} (hnl : '\n' ∉ body)
      (hlevel : Bracket.level? body = none) :
      Scanned ⟨.comment, String.ofList ('-' :: '-' :: body), offset⟩
  /-- Read again as itself whatever blank follows, with ends that are no layout blanks. -/
  | lexeme {tag : Tag} {c : Char} {r : List Char} {offset : Int} (hblank : tag ≠ .blank)
      (hlong : tag = .comment → (Bracket.level? (r.drop 1)).isSome)
      (hends : Text.isBlank c = false ∧ ∀ x ∈ r.getLast?, Text.isBlank x = false)
      (hstable : ∀ b rest, Text.isLexBlank b = true →
        Rule.chain c (r ++ b :: rest) = .take r.length (some tag))
      (hplain : tag.isDirective = false) :
      Scanned ⟨tag, String.ofList (c :: r), offset⟩

/-- No scanned token carries a render directive. -/
theorem Scanned.isDirective_eq_false {t : Token} (h : Scanned t) : t.tag.isDirective = false := by
  cases h with
  | blank => rfl
  | lineComment => rfl
  | lexeme _ _ _ _ hplain => exact hplain

/-- A token list as the scan produces it. -/
structure Lexed (ts : List Token) : Prop where
  /-- Every token has one of the three shapes. -/
  scanned : ∀ t ∈ ts, Scanned t
  /-- No two blank-line tokens are adjacent. -/
  apart : ts.IsChain fun t u => ¬(t.tag = .blank ∧ u.tag = .blank)

/-! ### One round of the scan -/

/-- A lexeme the chain claims whole becomes one token, and the scan goes on after it. -/
theorem scanFrom_lexeme {c : Char} {r rest : List Char} {t : Tag}
    (h : Rule.chain c (r ++ rest) = .take r.length (some t)) (pos : Nat) (acc : List Token) :
    scanFrom pos acc (c :: r ++ rest) =
      scanFrom (pos + (r.length + 1)) (⟨t, String.ofList (c :: r), pos⟩ :: acc) rest := by
  rw [cons_append, scanFrom, h]
  simp

/-- A run of lexer blanks is read whole: dropped with fewer than two line feeds, else one
blank-line token. -/
theorem scanFrom_blanks {W next : List Char} (hW : ∀ x ∈ W, Text.isLexBlank x = true)
    (hnext : ∀ d ∈ next.head?, Text.isLexBlank d = false) (pos : Nat) (acc : List Token) :
    scanFrom pos acc (W ++ next) =
      scanFrom (pos + W.length)
        (if W.count '\n' ≥ 2 then ⟨.blank, String.ofList W, pos⟩ :: acc else acc) next := by
  cases W with
  | nil => simp
  | cons c W =>
    have hchain := Rule.chain_blankRun (hW c mem_cons_self)
      (fun x hx => hW x (mem_cons_of_mem c hx)) hnext
    rw [cons_append, scanFrom, hchain]
    by_cases hcount : (c :: W).count '\n' ≥ 2 <;> simp [hcount]

/-! ### The shape of each token -/

theorem level?_eq_none_mono {cs cs' : List Char} (h : Bracket.level? cs = none)
    (hp : cs' <+: cs) : Bracket.level? cs' = none := by
  cases hl : Bracket.level? cs' with
  | none => rfl
  | some n =>
    rw [Bracket.level?_eq_some_iff.2 ((Bracket.level?_eq_some_iff.1 hl).trans hp)] at h
    cases h

/-- Every lexeme the chain claims with a tag has one of the three shapes. -/
theorem scanned_of_chain {c : Char} {r : List Char} {k : Nat} {t : Tag}
    (h : Rule.chain c r = .take k (some t)) (offset : Int) :
    Scanned ⟨t, String.ofList (c :: r.take k), offset⟩ := by
  by_cases hb : t = .blank
  · subst hb
    obtain ⟨hall, hcount⟩ := Rule.chain_blank h
    exact .blank (by simpa using hall) (by simpa using hcount)
  by_cases hl : t = .comment ∧ Bracket.level? (r.drop 1) = none
  · obtain ⟨rfl, hlevel⟩ := hl
    obtain ⟨rfl, body, rfl, htake⟩ := Rule.chain_lineComment_shape h hlevel
    rw [htake]
    refine .lineComment (fun hm => by simpa using mem_takeWhile_imp hm) ?_
    have hline : body.takeWhile (· != '\n') <+: body := takeWhile_prefix _
    exact level?_eq_none_mono (by simpa using hlevel) hline
  -- any other lexeme: a long comment keeps its bracket, and the chain reads it again
  have hlong : t = .comment → (Bracket.level? (r.drop 1)).isSome := fun htc => by
    cases hlv : Bracket.level? (r.drop 1) with
    | none => exact absurd ⟨htc, hlv⟩ hl
    | some n => rfl
  have hlen : (r.take k).length = k := by
    rw [length_take, Nat.min_eq_left (Rule.chain_take_le h)]
  refine .lexeme hb (fun htc => Rule.chain_longComment (htc ▸ h) (hlong htc))
    (Rule.chain_ends h hb hlong) (fun b rest hb' => ?_) (Rule.chain_isDirective h)
  rw [hlen]
  exact Rule.chain_take_append rest hb' h hb hlong

/-! ### The whole scan -/

/-- A lexer blank starts a blank run, read as far as the blanks go. -/
theorem chain_of_lexBlank {c : Char} (hc : Text.isLexBlank c = true) (r : List Char) :
    Rule.chain c r =
      .take (r.takeWhile Text.isLexBlank).length
        (if (c :: r.takeWhile Text.isLexBlank).count '\n' ≥ 2 then some .blank else none) := by
  have hnext : ∀ d ∈ (r.dropWhile Text.isLexBlank).head?, Text.isLexBlank d = false := by
    intro d hd
    have := head?_dropWhile_not Text.isLexBlank r
    rw [Option.mem_def.1 hd] at this
    exact this
  have h := Rule.chain_blankRun (W := r.takeWhile Text.isLexBlank) hc
    (fun x hx => mem_takeWhile_imp hx) hnext
  rwa [takeWhile_append_dropWhile] at h

/-- At any other character, the lexeme has a tag, and it is not `blank`. -/
theorem chain_tag_of_not_lexBlank {c : Char} {r : List Char} {k : Nat} {tag : Option Tag}
    (hc : Text.isLexBlank c = false) (h : Rule.chain c r = .take k tag) :
    ∃ t, tag = some t ∧ t ≠ .blank := by
  obtain ⟨R, -, hR⟩ := Rule.firstClaim_eq_take h
  -- the blank-run rule declines at a character that is no lexer blank
  have hdecl : Rule.blankRun.claim c r = .decline := by simp [Rule.claim_blankRun, hc]
  cases tag with
  | none =>
    obtain rfl := Rule.eq_blankRun_of_claim_none hR
    rw [hdecl] at hR
    cases hR
  | some t =>
    refine ⟨t, rfl, fun htb => ?_⟩
    subst htb
    obtain rfl := Rule.eq_blankRun_of_claim hR
    rw [hdecl] at hR
    cases hR

theorem drop_length_takeWhile (p : Char → Bool) (l : List Char) :
    l.drop (l.takeWhile p).length = l.dropWhile p := by
  have h : (l.takeWhile p ++ l.dropWhile p).drop (l.takeWhile p).length = l.dropWhile p :=
    drop_left
  rwa [takeWhile_append_dropWhile] at h

/-- After a blank run, read whole, comes a character that is no lexer blank. -/
theorem blankRun_next {c : Char} {r : List Char} {k : Nat} {tag : Option Tag}
    (hc : Text.isLexBlank c = true) (h : Rule.chain c r = .take k tag) :
    ∀ d ∈ (r.drop k).head?, Text.isLexBlank d = false := by
  rw [chain_of_lexBlank hc] at h
  obtain ⟨rfl, -⟩ := Claim.take.inj h
  intro d hd
  have := head?_dropWhile_not Text.isLexBlank r
  rw [← drop_length_takeWhile, Option.mem_def.1 hd] at this
  exact this

/-- What the scan keeps true of the tokens found so far (latest first) and the text still to
scan: a blank-line token is followed by a character that is no lexer blank. -/
def ScanInv (acc : List Token) (cs : List Char) : Prop :=
  (∀ t ∈ acc, Scanned t) ∧ acc.IsChain (fun t u => ¬(t.tag = .blank ∧ u.tag = .blank)) ∧
    ∀ t ∈ acc.head?, t.tag = .blank → ∀ d ∈ cs.head?, Text.isLexBlank d = false

section Step

variable {acc : List Token} {c : Char} {r : List Char} {k : Nat}

/-- A round that drops a blank run keeps `ScanInv`. -/
theorem scanInv_drop (hinv : ScanInv acc (c :: r)) (h : Rule.chain c r = .take k none) :
    ScanInv acc (r.drop k) := by
  obtain ⟨hscan, hchain, -⟩ := hinv
  -- only a blank run is dropped
  have hc : Text.isLexBlank c = true := by
    cases hc : Text.isLexBlank c with
    | true => rfl
    | false =>
      obtain ⟨t, ht, -⟩ := chain_tag_of_not_lexBlank hc h
      cases ht
  exact ⟨hscan, hchain, fun _ _ _ => blankRun_next hc h⟩

/-- A round that finds a token keeps `ScanInv`. -/
theorem scanInv_push {t : Tag} (hinv : ScanInv acc (c :: r)) (h : Rule.chain c r = .take k (some t))
    (pos : Nat) : ScanInv (⟨t, String.ofList (c :: r.take k), pos⟩ :: acc) (r.drop k) := by
  obtain ⟨hscan, hchain, hlast⟩ := hinv
  -- a blank-line token starts with a lexer blank, which no blank-line token may precede
  have hc : t = .blank → Text.isLexBlank c = true := fun htb =>
    (Rule.chain_blank (htb ▸ h)).1 c mem_cons_self
  refine ⟨fun u hu => ?_, ?_, fun u hu hub => ?_⟩
  · rcases mem_cons.1 hu with rfl | hu
    · exact scanned_of_chain h pos
    · exact hscan u hu
  · cases acc with
    | nil => exact isChain_singleton _
    | cons a as =>
      refine isChain_cons_cons.2 ⟨fun hab => ?_, hchain⟩
      have := hlast a rfl hab.2 c rfl
      rw [hc hab.1] at this
      cases this
  · obtain rfl : u = ⟨t, String.ofList (c :: r.take k), pos⟩ := by simpa using hu.symm
    exact blankRun_next (hc hub) h

end Step

theorem scanFrom_lexed {pos : Nat} {acc : List Token} {cs : List Char} {ts : List Token}
    (hinv : ScanInv acc cs) (h : scanFrom pos acc cs = .ok ts) : Lexed ts := by
  fun_induction scanFrom pos acc cs with
  | case1 pos acc =>
    cases h
    obtain ⟨hscan, hchain, -⟩ := hinv
    exact ⟨fun t ht => hscan t (mem_reverse.1 ht),
      isChain_reverse.2 (hchain.imp fun _ _ hab => fun h => hab ⟨h.2, h.1⟩)⟩
  | case2 => cases h
  | case3 => cases h
  | case4 pos acc c r k tag hchain lexeme acc' ih =>
    cases tag with
    | none => exact ih (scanInv_drop hinv hchain) h
    | some t => exact ih (scanInv_push hinv hchain pos) h

/-- **Every scan that succeeds returns a lexed token list.** -/
theorem scan_lexed {cs : List Char} {ts : List Token} (h : scan cs = .ok ts) : Lexed ts :=
  scanFrom_lexed ⟨by simp, isChain_nil, by simp⟩ h

theorem tokenize_eq_ok {width : Nat} {file source : String} {ts : List Token} :
    tokenize width file source = .ok ts ↔ scan source.toList = .ok ts := by
  simp only [tokenize]
  split <;> simp_all

end Token

end LuaReflow
