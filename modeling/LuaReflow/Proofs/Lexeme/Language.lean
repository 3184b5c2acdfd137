import Mathlib.Data.List.Infix
import LuaReflow.Proofs.Lexeme.Extent

/-!
# The languages of quoted strings and long brackets

Two rules of the lexer scan ahead for a closing delimiter: a quoted string for its quote, where a
backslash takes the character after it, and a long bracket for the first closer of its level.
This file states what the scans find as languages, without the scans:

* `Rule.QuotedBody` — escapes and characters other than the backslash and the quote;
  `Rule.quoteEnd?_eq_some_iff` — the scan closes exactly after such a body and the quote, and
  `Rule.quoteEnd?_eq_none_iff` — it fails exactly on a body that runs to the end of the text,
  maybe with a lone backslash last (`Rule.OpenQuote`);
* `Bracket.indexOf?_eq_none_iff`, `Bracket.indexOf?_eq_some` — the search for a closer fails
  exactly when the closer does not occur, and otherwise finds its first occurrence;
* `Bracket.LongBracket` — an opener, a middle, and the closer of the opener's level, which
  occurs nowhere earlier; `Bracket.longBracket_of_scan` — a long bracket the scan reads whole is
  one, and `Bracket.scan_eq_unclosed_iff` — the scan stops exactly at an opener whose closer does
  not follow (`Bracket.OpensUnclosed`).
-/

namespace LuaReflow

open List

namespace Rule

/-- The body of a string quoted by `q`: escapes (a backslash and any character) and characters
other than the backslash and `q`. -/
inductive QuotedBody (q : Char) : List Char → Prop
  | nil : QuotedBody q []
  | escape (x : Char) {b : List Char} (hb : QuotedBody q b) : QuotedBody q ('\\' :: x :: b)
  | char {x : Char} {b : List Char} (hx : x ≠ '\\') (hq : x ≠ q) (hb : QuotedBody q b) :
      QuotedBody q (x :: b)

/-- A quoted body that runs to the end of the text without closing: a body, maybe followed by a
lone backslash. -/
def OpenQuote (q : Char) (r : List Char) : Prop :=
  QuotedBody q r ∨ ∃ b, QuotedBody q b ∧ r = b ++ ['\\']

theorem quoteEnd?_escape (q x : Char) (r : List Char) :
    quoteEnd? q ('\\' :: x :: r) = (quoteEnd? q r).map (· + 2) := rfl

/-- Past a quoted body the scan goes on as at the start, the body's length further. -/
theorem quoteEnd?_body_append {q : Char} {b : List Char} (hb : QuotedBody q b) (r : List Char) :
    quoteEnd? q (b ++ r) = (quoteEnd? q r).map (· + b.length) := by
  induction hb with
  | nil => simp
  | @escape x b hb ih =>
    rw [cons_append, cons_append, quoteEnd?_escape, ih]
    cases quoteEnd? q r with
    | none => rfl
    | some j =>
      show some (j + b.length + 2) = some (j + (b.length + 1 + 1))
      exact congrArg some (by omega)
  | @char x b hx hq hb ih =>
    rw [cons_append, quoteEnd?_cons_of_ne hx, if_neg hq, ih]
    cases quoteEnd? q r with
    | none => rfl
    | some j =>
      show some (j + b.length + 1) = some (j + (b.length + 1))
      exact congrArg some (by omega)

/-- **The scan of a quoted string closes after its body.** With a quote that is no backslash,
the scan closes at the `k`-th character exactly when the text is a quoted body, the quote and
anything, and the body is `k - 1` characters long. -/
theorem quoteEnd?_eq_some_iff {q : Char} (hq : q ≠ '\\') {r : List Char} {k : Nat} :
    quoteEnd? q r = some k ↔ ∃ b rest, r = b ++ q :: rest ∧ QuotedBody q b ∧ k = b.length + 1 := by
  constructor
  · intro h
    fun_induction quoteEnd? q r generalizing k with
    | case1 => cases h
    | case2 => cases h
    | case3 x r ih =>
      obtain ⟨j, hj, rfl⟩ := Option.map_eq_some_iff.1 h
      obtain ⟨b, rest, rfl, hb, rfl⟩ := ih hj
      exact ⟨'\\' :: x :: b, rest, rfl, .escape x hb, by simp⟩
    | case4 r =>
      cases h
      exact ⟨[], r, rfl, .nil, rfl⟩
    | case5 c r hb1 hb2 hcq ih =>
      -- a character other than the quote, and no backslash, since a backslash would escape
      have hc : c ≠ '\\' := fun hc => by cases r <;> simp_all
      obtain ⟨j, hj, rfl⟩ := Option.map_eq_some_iff.1 h
      obtain ⟨b, rest, rfl, hb, rfl⟩ := ih hj
      exact ⟨c :: b, rest, rfl, .char hc hcq hb, by simp⟩
  · rintro ⟨b, rest, rfl, hb, rfl⟩
    rw [quoteEnd?_body_append hb, quoteEnd?_cons_of_ne hq, if_pos rfl]
    simp [Nat.add_comm]

/-- **The scan of a quoted string fails on an open body.** The scan finds no closing quote
exactly when the text is a quoted body that runs to its end. -/
theorem quoteEnd?_eq_none_iff {q : Char} {r : List Char} :
    quoteEnd? q r = none ↔ OpenQuote q r := by
  constructor
  · intro h
    fun_induction quoteEnd? q r with
    | case1 => exact .inl .nil
    | case2 => exact .inr ⟨[], .nil, rfl⟩
    | case3 x r ih =>
      rcases ih (Option.map_eq_none_iff.1 h) with hb | ⟨b, hb, rfl⟩
      · exact .inl (.escape x hb)
      · exact .inr ⟨'\\' :: x :: b, .escape x hb, rfl⟩
    | case4 => cases h
    | case5 c r hb1 hb2 hcq ih =>
      have hc : c ≠ '\\' := fun hc => by cases r <;> simp_all
      rcases ih (Option.map_eq_none_iff.1 h) with hb | ⟨b, hb, rfl⟩
      · exact .inl (.char hc hcq hb)
      · exact .inr ⟨c :: b, .char hc hcq hb, rfl⟩
  · rintro (hb | ⟨b, hb, rfl⟩)
    · have h := quoteEnd?_body_append hb []
      rw [append_nil] at h
      rw [h]
      rfl
    · rw [quoteEnd?_body_append hb]
      rfl

end Rule

namespace Bracket

theorem isPrefixOf_iff {pat xs : List Char} : pat.isPrefixOf xs = true ↔ pat <+: xs :=
  isPrefixOf_iff_prefix

theorem indexOf?_cons (pat : List Char) (c : Char) (cs : List Char) :
    indexOf? pat (c :: cs) =
      if pat <+: c :: cs then some 0 else (indexOf? pat cs).map (· + 1) := by
  rw [indexOf?]
  simp only [isPrefixOf_iff]

/-- **The search fails exactly when the pattern does not occur.** -/
theorem indexOf?_eq_none_iff {pat xs : List Char} : indexOf? pat xs = none ↔ ¬pat <:+: xs := by
  induction xs with
  | nil => cases pat <;> simp [indexOf?]
  | cons c cs ih =>
    rw [indexOf?_cons, infix_cons_iff, not_or, ← ih]
    by_cases hp : pat <+: c :: cs
    · simp [hp]
    · simp [hp]

/-- **The search finds the first occurrence.** The text is a part before it, the pattern and a
rest, and in the part followed by the pattern, the pattern occurs only at the end. -/
theorem indexOf?_eq_some {pat xs : List Char} {i : Nat} (hpat : pat ≠ [])
    (h : indexOf? pat xs = some i) :
    ∃ pre post, xs = pre ++ pat ++ post ∧ pre.length = i ∧ ¬pat <:+: (pre ++ pat).dropLast := by
  induction xs generalizing i with
  | nil => simp [indexOf?, hpat] at h
  | cons c cs ih =>
    rw [indexOf?_cons] at h
    split at h
    · -- the pattern stands at the start, and its own text less its last character is shorter
      rename_i hp
      cases h
      obtain ⟨post, hpost⟩ := hp
      refine ⟨[], post, by simp [hpost], rfl, fun hin => ?_⟩
      have hlen := hin.length_le
      rw [nil_append, length_dropLast] at hlen
      have := length_pos_iff.2 hpat
      omega
    · rename_i hp
      obtain ⟨j, hj, rfl⟩ := Option.map_eq_some_iff.1 h
      obtain ⟨pre, post, rfl, rfl, hfirst⟩ := ih hj
      refine ⟨c :: pre, post, by simp, by simp, fun hin => ?_⟩
      -- an occurrence at the start would be a prefix of the whole text
      have hne : pre ++ pat ≠ [] := by simp [hpat]
      rw [cons_append, dropLast_cons_of_ne_nil hne, infix_cons_iff] at hin
      rcases hin with hpre | hin
      · apply hp
        have hdrop : (pre ++ pat).dropLast <+: pre ++ pat := dropLast_prefix _
        have hlast : (pre ++ pat).dropLast <+: pre ++ pat ++ post := hdrop.trans (prefix_append _ _)
        exact hpre.trans (cons_prefix_cons.2 ⟨rfl, hlast⟩)
      · exact hfirst hin

/-- A long bracket: the opener of some level, a middle, and the closer of that level, which
occurs in the middle followed by the closer only at the end. -/
def LongBracket (w : List Char) : Prop :=
  ∃ n mid, w = opener n ++ mid ++ closer n ∧ ¬closer n <:+: (mid ++ closer n).dropLast

/-- An opener stands at the start of the text, and the closer of its level does not follow it. -/
def OpensUnclosed (cs : List Char) : Prop :=
  ∃ n rest, cs = opener n ++ rest ∧ ¬closer n <:+: rest

theorem eq_opener_append {cs : List Char} {n : Nat} (h : level? cs = some n) :
    cs = opener n ++ cs.drop (n + 2) := by
  obtain ⟨rest, hrest⟩ := level?_eq_some_iff.1 h
  rw [← hrest, drop_left' (length_opener n)]

theorem closer_ne_nil (n : Nat) : closer n ≠ [] := by
  simp [closer]

/-- **What the scan reads whole is a long bracket.** -/
theorem longBracket_of_scan {cs : List Char} {n : Nat} (h : scan cs = .closed n) :
    LongBracket (cs.take n) := by
  unfold scan at h
  cases hl : level? cs with
  | none => simp [hl] at h
  | some m =>
    cases hi : indexOf? (closer m) (cs.drop (m + 2)) with
    | none => simp [hl, hi] at h
    | some i =>
      simp only [hl, hi, closed.injEq] at h
      subst h
      obtain ⟨pre, post, hdrop, rfl, hfirst⟩ := indexOf?_eq_some (closer_ne_nil m) hi
      -- the text is the opener, the middle, the closer and the rest
      have hcs : cs = opener m ++ pre ++ closer m ++ post := by
        rw [eq_opener_append hl, hdrop]
        simp
      refine ⟨m, pre, ?_, by simpa using hfirst⟩
      rw [hcs, show opener m ++ pre ++ closer m ++ post = (opener m ++ pre ++ closer m) ++ post by
        simp, take_left']
      simp [length_opener, length_closer]
      omega

/-- **The scan stops exactly at an opener whose closer does not follow.** -/
theorem scan_eq_unclosed_iff {cs : List Char} : scan cs = .unclosed ↔ OpensUnclosed cs := by
  constructor
  · intro h
    unfold scan at h
    cases hl : level? cs with
    | none => simp [hl] at h
    | some m =>
      cases hi : indexOf? (closer m) (cs.drop (m + 2)) with
      | none => exact ⟨m, _, eq_opener_append hl, indexOf?_eq_none_iff.1 hi⟩
      | some i => simp [hl, hi] at h
  · rintro ⟨n, rest, rfl, hrest⟩
    have hl : level? (opener n ++ rest) = some n := level?_eq_some_iff.2 (prefix_append _ _)
    have hdrop : (opener n ++ rest).drop (n + 2) = rest := drop_left' (length_opener n)
    unfold scan
    rw [hl]
    simp only [hdrop, indexOf?_eq_none_iff.2 hrest]

end Bracket

end LuaReflow
