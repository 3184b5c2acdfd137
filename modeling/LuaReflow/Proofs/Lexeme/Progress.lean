import Mathlib.Logic.Relation
import LuaReflow.Lexeme.Scan
import LuaReflow.Proofs.Lexeme.Shape

/-!
# The scan always moves on

The scan is a loop over the source: while the offset is inside the source, it asks the rule
chain at the offset and moves the offset to the end of the lexeme claimed there. This file writes
that loop as a machine (`Token.Loop`, one round of the chain per step `Token.Loop.round`, and
`Token.Loop.run` for a bounded number of rounds) and shows:

* `Rule.claim_cases` — every rule declines, stops at a long bracket that never closes (only the
  long-string and comment rules do), or claims a lexeme that starts at the current character and
  ends inside the source;
* `Token.Loop.round_next` — each round that goes on moves the offset strictly forward and keeps it
  inside the source;
* `Token.Loop.run_eq_scanFrom` — the loop run for as many rounds as characters remain gives the
  answer of the scan.

* **`Token.scan_moves_on`** — the three together for the scan of a whole source, which so ends
  after at most as many rounds as the source has characters.
-/

namespace LuaReflow

open List

namespace Rule

/-- Only the two long-bracket rules stop at an unclosed long bracket. -/
theorem claim_unclosed {R : Rule} {c : Char} {r : List Char} (h : R.claim c r = .unclosed) :
    R = .longString ∨ R = .comment := by
  cases R <;> simp only [claim_quotedString, claim_longString, claim_comment, claim_blankRun,
      claim_numeral, claim_vararg, claim_concat, claim_identifier, claim_punctuation, claim_operator,
      claim_assign] at h <;>
    (repeat' split at h) <;> simp_all

/-- Every rule declines, stops at an unclosed long bracket, or claims a lexeme of the current
character and at most the rest of the text. -/
theorem claim_cases (R : Rule) (c : Char) (r : List Char) :
    R.claim c r = .decline ∨ (R.claim c r = .unclosed ∧ (R = .longString ∨ R = .comment)) ∨
      ∃ k tag, R.claim c r = .take k tag ∧ k ≤ r.length := by
  cases h : R.claim c r with
  | decline => exact .inl rfl
  | unclosed => exact .inr (.inl ⟨rfl, claim_unclosed h⟩)
  | take k tag => exact .inr (.inr ⟨k, tag, rfl, claim_take_le h⟩)

end Rule

namespace Token

/-- A state of the scanning loop: the offset of the next character, and the tokens found so far,
latest first. -/
structure Loop where
  /-- The offset of the next character to read. -/
  pos : Nat
  /-- The tokens found so far, latest first. -/
  acc : List Token

/-- What one round of the loop leads to. -/
inductive Round where
  /-- The loop goes on from this state. -/
  | next (σ : Loop)
  /-- The loop ends with this answer. -/
  | done (answer : Except (LexFault × Nat) (List Token))

namespace Loop

variable {source : List Char}

/-- One round of the loop over `source`: the rule chain's claim at the current offset. A lexeme
moves the offset past itself and is kept as a token unless it is a dropped blank run; no claim,
or a long bracket that never closes, ends the loop with a fault at the offset. At the end of the
source the loop ends with the tokens found. -/
def round (source : List Char) (σ : Loop) : Round :=
  match source.drop σ.pos with
  | [] => .done (.ok σ.acc.reverse)
  | c :: r =>
    match Rule.chain c r with
    | .decline => .done (.error (.unrecognized, σ.pos))
    | .unclosed => .done (.error (.unclosedBracket, σ.pos))
    | .take extra tag =>
      let lexeme := c :: r.take extra
      .next ⟨σ.pos + lexeme.length,
        match tag with
        | some t => ⟨t, String.ofList lexeme, σ.pos⟩ :: σ.acc
        | none => σ.acc⟩

/-- The loop over `source` from `σ`, run for at most `n` rounds of the rule chain: its answer, or
`none` when it needs more rounds. Before each round the loop checks that the offset is still inside
the source. -/
def run (source : List Char) (n : Nat) (σ : Loop) : Option (Except (LexFault × Nat) (List Token)) :=
  if source.length ≤ σ.pos then some (.ok σ.acc.reverse)
  else
    match n, σ.round source with
    | 0, _ => none
    | _ + 1, .done answer => some answer
    | n + 1, .next σ' => run source n σ'

/-- The states the loop passes through from `σ`, one round at a time. -/
def Reaches (source : List Char) (σ τ : Loop) : Prop :=
  Relation.ReflTransGen (fun σ τ => σ.round source = .next τ) σ τ

/-- The round at an offset inside the source, read off the chain's claim there. -/
theorem round_of_drop {σ : Loop} {c : Char} {r : List Char} (h : source.drop σ.pos = c :: r) :
    σ.round source =
      match Rule.chain c r with
      | .decline => .done (.error (.unrecognized, σ.pos))
      | .unclosed => .done (.error (.unclosedBracket, σ.pos))
      | .take extra tag =>
        .next ⟨σ.pos + (c :: r.take extra).length,
          match tag with
          | some t => ⟨t, String.ofList (c :: r.take extra), σ.pos⟩ :: σ.acc
          | none => σ.acc⟩ := by
  rw [round, h]

/-- **A round moves on.** A round that does not end the loop moves the offset strictly forward,
by the length of the lexeme, and not past the end of the source. -/
theorem round_next {σ τ : Loop} (h : σ.round source = .next τ) :
    σ.pos < τ.pos ∧ τ.pos ≤ source.length := by
  cases hd : source.drop σ.pos with
  | nil => simp [round, hd] at h
  | cons c r =>
    rw [round_of_drop hd] at h
    split at h
    · cases h
    · cases h
    · rename_i extra tag hchain
      cases h
      -- the lexeme is `extra + 1` characters long, and the rest of the source holds them
      have hk := Rule.chain_take_le hchain
      have hlen : (source.drop σ.pos).length = r.length + 1 := by rw [hd, length_cons]
      rw [length_drop] at hlen
      simp only [length_cons, length_take, Nat.min_eq_left hk]
      omega

/-- **The offset stays inside the source** in every state the loop reaches from its start. -/
theorem pos_le_of_reaches {σ : Loop} (h : Reaches source ⟨0, []⟩ σ) : σ.pos ≤ source.length := by
  induction h with
  | refl => exact Nat.zero_le _
  | tail _ hround _ => exact (round_next hround).2

/-- The scan from a state goes on as the scan from the state after one round. -/
theorem scanFrom_of_round_next {σ τ : Loop} (h : σ.round source = .next τ) :
    scanFrom σ.pos σ.acc (source.drop σ.pos) = scanFrom τ.pos τ.acc (source.drop τ.pos) := by
  cases hd : source.drop σ.pos with
  | nil => simp [round, hd] at h
  | cons c r =>
    rw [round_of_drop hd] at h
    cases hchain : Rule.chain c r with
    | decline => rw [hchain] at h; cases h
    | unclosed => rw [hchain] at h; cases h
    | take extra tag =>
      rw [hchain] at h
      cases h
      -- the rest after the lexeme is the source after the new offset
      have hrest : source.drop (σ.pos + (c :: r.take extra).length) = r.drop extra := by
        rw [← drop_drop, hd, length_cons, length_take,
          Nat.min_eq_left (Rule.chain_take_le hchain), drop_succ_cons]
      -- both sides keep the token exactly when the claim has a tag
      cases tag <;> simp only [hrest, scanFrom, hchain]

/-- The scan from a state whose round ends the loop gives that round's answer. -/
theorem scanFrom_of_round_done {σ : Loop} {answer : Except (LexFault × Nat) (List Token)}
    (h : σ.round source = .done answer) : scanFrom σ.pos σ.acc (source.drop σ.pos) = answer := by
  cases hd : source.drop σ.pos with
  | nil =>
    simp only [round, hd, Round.done.injEq] at h
    rw [← h, scanFrom]
  | cons c r =>
    rw [round_of_drop hd] at h
    cases hchain : Rule.chain c r with
    | decline =>
      rw [hchain] at h
      cases h
      rw [scanFrom, hchain]
    | unclosed =>
      rw [hchain] at h
      cases h
      rw [scanFrom, hchain]
    | take extra tag =>
      rw [hchain] at h
      cases h

theorem run_of_le {n : Nat} {σ : Loop} (h : source.length ≤ σ.pos) :
    run source n σ = some (.ok σ.acc.reverse) := by
  rw [run.eq_def, if_pos h]

theorem run_succ_of_done {n : Nat} {σ : Loop} {answer : Except (LexFault × Nat) (List Token)}
    (h : ¬source.length ≤ σ.pos) (hround : σ.round source = .done answer) :
    run source (n + 1) σ = some answer := by
  rw [run.eq_def, if_neg h, hround]

theorem run_succ_of_next {n : Nat} {σ τ : Loop} (h : ¬source.length ≤ σ.pos)
    (hround : σ.round source = .next τ) : run source (n + 1) σ = run source n τ := by
  rw [run.eq_def, if_neg h, hround]

/-- **The loop computes the scan.** Run for at least as many rounds as characters remain, the
loop gives the answer of the scan from its state. -/
theorem run_eq_scanFrom (n : Nat) (σ : Loop) (hn : source.length ≤ σ.pos + n) :
    run source n σ = some (scanFrom σ.pos σ.acc (source.drop σ.pos)) := by
  induction n generalizing σ with
  | zero =>
    rw [run_of_le (by omega), drop_of_length_le (by omega), scanFrom]
  | succ n ih =>
    by_cases hend : source.length ≤ σ.pos
    · rw [run_of_le hend, drop_of_length_le hend, scanFrom]
    · -- the round either ends the loop or moves it forward, leaving one round fewer
      cases hround : σ.round source with
      | done answer =>
        rw [run_succ_of_done hend hround, scanFrom_of_round_done hround]
      | next τ =>
        have hpos := (round_next hround).1
        rw [run_succ_of_next hend hround, ih τ (by omega), scanFrom_of_round_next hround]

/-- **The scan always moves on and ends.** Over a source `s`: at every offset, each rule
declines, stops at a long bracket that never closes (only the long-string and comment rules do),
or claims a lexeme whose end lies after the offset and within the source; every round of the
loop moves the offset strictly forward, and the offset stays within the source in every state the
loop reaches; and the loop ends after at most as many rounds of the rule chain as the source has
characters, with the answer of the scan. -/
theorem scan_moves_on (s : List Char) :
    (∀ (R : Rule) (pos : Nat) (c : Char) (r : List Char), s.drop pos = c :: r →
      R.claim c r = .decline ∨ (R.claim c r = .unclosed ∧ (R = .longString ∨ R = .comment)) ∨
        ∃ k tag, R.claim c r = .take k tag ∧ pos < pos + (k + 1) ∧ pos + (k + 1) ≤ s.length) ∧
    (∀ σ τ : Loop, Reaches s ⟨0, []⟩ σ → σ.round s = .next τ →
      σ.pos < τ.pos ∧ τ.pos ≤ s.length) ∧
    (∀ σ : Loop, Reaches s ⟨0, []⟩ σ → σ.pos ≤ s.length) ∧
    run s s.length ⟨0, []⟩ = some (scan s) := by
  refine ⟨fun R pos c r hd => ?_, fun σ τ _ hround => round_next hround,
    fun σ hreach => pos_le_of_reaches hreach, ?_⟩
  · rcases Rule.claim_cases R c r with hdec | hunc | ⟨k, tag, hclaim, hk⟩
    · exact .inl hdec
    · exact .inr (.inl hunc)
    · -- the lexeme's end is the offset, its first character and `k` more
      have hlen : (s.drop pos).length = r.length + 1 := by rw [hd, length_cons]
      rw [length_drop] at hlen
      exact .inr (.inr ⟨k, tag, hclaim, by omega, by omega⟩)
  · rw [run_eq_scanFrom s.length ⟨0, []⟩ (by simp)]
    rfl

/-- The source `x`: at offset 0 the identifier rule claims `x`, the first round moves the offset
from 0 to 1, the end of the source, and the loop ends within one round. -/
theorem scan_moves_on_word :
    (Rule.identifier.claim 'x' [] = .decline ∨
        (Rule.identifier.claim 'x' [] = .unclosed ∧
          (Rule.identifier = .longString ∨ Rule.identifier = .comment)) ∨
        ∃ k tag, Rule.identifier.claim 'x' [] = .take k tag ∧ 0 < 0 + (k + 1) ∧
          0 + (k + 1) ≤ 1) ∧
      ((⟨0, []⟩ : Loop).pos < (⟨1, [⟨.word, "x", 0⟩]⟩ : Loop).pos ∧
        (⟨1, [⟨.word, "x", 0⟩]⟩ : Loop).pos ≤ 1) ∧
      (⟨1, [⟨.word, "x", 0⟩]⟩ : Loop).pos ≤ 1 ∧
      run "x".toList 1 ⟨0, []⟩ = some (scan "x".toList) := by
  have hround : (⟨0, []⟩ : Loop).round "x".toList = .next ⟨1, [⟨.word, "x", 0⟩]⟩ := by rfl
  have hreach : Reaches "x".toList ⟨0, []⟩ ⟨1, [⟨.word, "x", 0⟩]⟩ :=
    Relation.ReflTransGen.single hround
  obtain ⟨hclaim, hstep, hinside, hrun⟩ := scan_moves_on "x".toList
  exact ⟨hclaim .identifier 0 'x' [] rfl, hstep _ _ Relation.ReflTransGen.refl hround,
    hinside _ hreach, hrun⟩

end Loop

end Token

end LuaReflow
