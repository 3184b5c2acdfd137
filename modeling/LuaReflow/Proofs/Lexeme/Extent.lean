import Mathlib.Data.List.TakeWhile
import LuaReflow.Lexeme.Rule

/-!
# How far the scan of a lexeme reads

Several rules of the lexer look ahead from the current position without bound: a numeral
takes the whole run of numeral characters and keeps its longest numeral prefix, a long
bracket searches for its closer, a quoted string for its closing quote. Each of these scans
nevertheless decides from the characters of its own lexeme: cut the text right after the
lexeme and put anything behind it, and the scan finds the same lexeme again. This file proves
that for the scanners the rules share:

* `Numeral.longestPrefix_of_isLiteral`, `Numeral.longestPrefix_eq_zero_of_prefix` — a numeral
  is its own longest numeral prefix, and a run with no numeral prefix has none in any of its
  prefixes;
* `Bracket.level?_eq_some_iff` — an opener is exactly `[`, some `=`, `[` at the start, so a
  character other than `[` and `=` never completes one (`Bracket.level?_take_append`);
* `Bracket.scan_take_append` — a long bracket is found again, with the same length, whatever
  follows its closer, and it ends with `]`;
* `Rule.quoteEnd?_take_append` — a quoted string ends at the same quote whatever follows it.
-/

namespace LuaReflow

open List

/-- A list that is a prefix of `ys`, then `b`, then more, and that does not hold `b`, is a
prefix of `ys`. -/
theorem prefix_of_prefix_append_cons {xs ys zs : List Char} {b : Char}
    (h : xs <+: ys ++ b :: zs) (hb : b ∉ xs) : xs <+: ys := by
  induction ys generalizing xs with
  | nil =>
    cases xs with
    | nil => exact nil_prefix
    | cons x xs =>
      obtain ⟨rfl, -⟩ := cons_prefix_cons.1 h
      exact absurd mem_cons_self hb
  | cons y ys ih =>
    cases xs with
    | nil => exact nil_prefix
    | cons x xs =>
      obtain ⟨rfl, h'⟩ := cons_prefix_cons.1 h
      exact cons_prefix_cons.2 ⟨rfl, ih h' (fun hm => hb (mem_cons_of_mem _ hm))⟩

namespace Numeral

/-- The candidate lengths of `longestPrefix`, longest first. -/
theorem mem_candidates {cs : List Char} {n : Nat} :
    n ∈ (range cs.length).reverse.map (· + 1) ↔ 0 < n ∧ n ≤ cs.length := by
  simp only [mem_map, mem_reverse, mem_range]
  constructor
  · rintro ⟨a, ha, rfl⟩
    omega
  · intro h
    exact ⟨n - 1, by omega, by omega⟩

theorem longestPrefix_eq (cs : List Char) :
    longestPrefix cs =
      (((range cs.length).reverse.map (· + 1)).find? (fun n => isLiteral (cs.take n))).getD 0 :=
  rfl

theorem longestPrefix_spec {cs : List Char} {n : Nat} (h : longestPrefix cs = n + 1) :
    n + 1 ≤ cs.length ∧ isLiteral (cs.take (n + 1)) = true := by
  rw [longestPrefix_eq] at h
  cases hf : ((range cs.length).reverse.map (· + 1)).find? (fun n => isLiteral (cs.take n)) with
  | none =>
    rw [hf, Option.getD_none] at h
    cases h
  | some m =>
    rw [hf, Option.getD_some] at h
    subst h
    exact ⟨(mem_candidates.1 (mem_of_find?_eq_some hf)).2,
      find?_some (p := fun n => isLiteral (cs.take n)) hf⟩

/-- A numeral is its own longest numeral prefix. -/
theorem longestPrefix_of_isLiteral {cs : List Char} (h : isLiteral cs = true) (hne : cs ≠ []) :
    longestPrefix cs = cs.length := by
  obtain ⟨m, hm⟩ : ∃ m, cs.length = m + 1 :=
    ⟨cs.length - 1, by have := length_pos_iff.2 hne; omega⟩
  rw [longestPrefix_eq, hm, range_succ, reverse_append, reverse_singleton, singleton_append, map_cons,
    find?_cons_of_pos]
  · rfl
  · rw [← hm, take_length]
    exact h

theorem longestPrefix_eq_zero_iff {cs : List Char} :
    longestPrefix cs = 0 ↔ ∀ n, 0 < n → n ≤ cs.length → isLiteral (cs.take n) = false := by
  rw [longestPrefix_eq]
  constructor
  · intro h n hn hle
    cases hf : ((range cs.length).reverse.map (· + 1)).find? (fun n => isLiteral (cs.take n)) with
    | none =>
      have := find?_eq_none.1 hf n (mem_candidates.2 ⟨hn, hle⟩)
      simpa using this
    | some m =>
      rw [hf, Option.getD_some] at h
      subst h
      exact absurd (mem_candidates.1 (mem_of_find?_eq_some hf)).1 (Nat.lt_irrefl 0)
  · intro h
    rw [find?_eq_none.2, Option.getD_none]
    intro n hn
    obtain ⟨hpos, hle⟩ := mem_candidates.1 hn
    simp [h n hpos hle]

/-- A run with no numeral prefix has none in any of its prefixes. -/
theorem longestPrefix_eq_zero_of_prefix {cs cs' : List Char} (h : longestPrefix cs = 0)
    (hp : cs' <+: cs) : longestPrefix cs' = 0 := by
  rw [longestPrefix_eq_zero_iff] at h ⊢
  intro n hn hle
  have hlen := hp.length_le
  rw [prefix_iff_eq_take.1 hp, take_take, Nat.min_eq_left hle]
  exact h n hn (by omega)

end Numeral

namespace Bracket

/-- The opener of level `n`: `[`, `n` times `=`, `[`. -/
def opener (n : Nat) : List Char := '[' :: replicate n '=' ++ ['[']

theorem length_opener (n : Nat) : (opener n).length = n + 2 := by
  simp [opener]

theorem mem_opener {n : Nat} {c : Char} (h : c ∈ opener n) : c = '[' ∨ c = '=' := by
  simp only [opener, cons_append, mem_cons, mem_append, mem_replicate] at h
  rcases h with h | ⟨-, h⟩ | h | h
  · exact .inl h
  · exact .inr h
  · exact .inl h
  · cases h

theorem length_closer (n : Nat) : (closer n).length = n + 2 := by
  simp [closer]

theorem level?_eq_some_iff {cs : List Char} {n : Nat} : level? cs = some n ↔ opener n <+: cs := by
  constructor
  · intro h
    cases cs with
    | nil => cases h
    | cons c r =>
      by_cases hc : c = '['
      · subst hc
        simp only [level?] at h
        split at h
        · rename_i rest hdrop
          obtain rfl := Option.some.inj h
          have htake : r.takeWhile (· == '=') = replicate (r.takeWhile (· == '=')).length '=' :=
            eq_replicate_iff.2 ⟨rfl, fun b hb => by simpa using mem_takeWhile_imp hb⟩
          have hr := takeWhile_append_dropWhile (p := (· == '=')) (l := r)
          rw [hdrop, htake] at hr
          rw [← hr]
          exact ⟨rest, by simp [opener]⟩
        · cases h
      · simp [level?, hc] at h
  · rintro ⟨rest, rfl⟩
    have hdrop : (replicate n '=' ++ '[' :: rest).dropWhile (· == '=') = '[' :: rest := by
      rw [dropWhile_append_of_pos (by simp)]
      rfl
    have htake : (replicate n '=' ++ '[' :: rest).takeWhile (· == '=') = replicate n '=' := by
      rw [takeWhile_append_of_pos (by simp)]
      simp
    simp only [opener, cons_append, append_assoc, nil_append, level?, hdrop, htake,
      length_replicate]

/-- A character that is neither `[` nor `=` never completes an opener that the text before it
did not start. -/
theorem level?_take_append {cs : List Char} (h : level? cs = none) (j : Nat) {b : Char}
    (hb1 : b ≠ '[') (hb2 : b ≠ '=') (rest : List Char) : level? (cs.take j ++ b :: rest) = none := by
  cases hl : level? (cs.take j ++ b :: rest) with
  | none => rfl
  | some n =>
    have hb : b ∉ opener n := fun hm => by rcases mem_opener hm with rfl | rfl <;> simp_all
    have hp := prefix_of_prefix_append_cons (level?_eq_some_iff.1 hl) hb
    have hj : cs.take j <+: cs := take_prefix j cs
    rw [level?_eq_some_iff.2 (hp.trans hj)] at h
    cases h

theorem indexOf?_of_prefix {pat xs : List Char} (h : pat <+: xs) : indexOf? pat xs = some 0 := by
  cases xs with
  | nil =>
    rw [eq_nil_of_prefix_nil h]
    rfl
  | cons d ds => simp [indexOf?, h]

/-- The first occurrence of a pattern is found again when the text is cut after it. -/
theorem indexOf?_take_append {pat xs : List Char} {i : Nat} (h : indexOf? pat xs = some i) :
    i + pat.length ≤ xs.length ∧ pat <+: xs.drop i ∧
      ∀ s, indexOf? pat (xs.take (i + pat.length) ++ s) = some i := by
  induction xs generalizing i with
  | nil =>
    simp only [indexOf?] at h
    split at h
    · rename_i hpat
      cases h
      rw [isEmpty_iff.1 hpat]
      refine ⟨by simp, nil_prefix, fun s => ?_⟩
      cases s <;> simp [indexOf?]
    · cases h
  | cons c cs ih =>
    simp only [indexOf?] at h
    split at h
    · -- the pattern stands at the start
      rename_i hpre
      cases h
      have hp : pat <+: c :: cs := by simpa using hpre
      refine ⟨by simpa using hp.length_le, by simpa using hp, fun s => ?_⟩
      rw [Nat.zero_add]
      exact indexOf?_of_prefix (prefix_iff_eq_take.1 hp ▸ prefix_append _ _)
    · rename_i hpre
      obtain ⟨j, hj, rfl⟩ := Option.map_eq_some_iff.1 h
      obtain ⟨hlen, hdrop, hfind⟩ := ih hj
      refine ⟨by simp; omega, by simpa using hdrop, fun s => ?_⟩
      have htake : (c :: cs).take (j + 1 + pat.length) ++ s =
          c :: (cs.take (j + pat.length) ++ s) := by
        rw [show j + 1 + pat.length = (j + pat.length) + 1 by omega, take_succ_cons, cons_append]
      -- the pattern is not at the start of the cut text either: it is long enough to decide
      have hnot : ¬pat <+: c :: (cs.take (j + pat.length) ++ s) := by
        intro hp
        apply hpre
        have hp' : pat <+: c :: cs.take (j + pat.length) := by
          rw [← cons_append] at hp
          exact prefix_of_prefix_length_le hp (prefix_append _ _) (by simp; omega)
        simpa using hp'.trans (by simpa using take_prefix (j + pat.length + 1) (c :: cs))
      rw [htake]
      simp [indexOf?, hnot, hfind s]

theorem getLast?_closer (m : Nat) : (closer m).getLast? = some ']' := by
  simp [closer, getLast?_cons]

/-- **A long bracket decides from its own text.** A long bracket of length `n` lies within
the text, ends with `]`, and is found again, with the same length, when the text is cut after
it and anything follows. -/
theorem scan_take_append {cs : List Char} {n : Nat} (h : scan cs = closed n) :
    n ≤ cs.length ∧ (cs.take n).getLast? = some ']' ∧ ∀ s, scan (cs.take n ++ s) = closed n := by
  unfold scan at h
  cases hl : level? cs with
  | none => simp [hl] at h
  | some m =>
    cases hi : indexOf? (closer m) (cs.drop (m + 2)) with
    | none => simp [hl, hi] at h
    | some i =>
      simp only [hl, hi, closed.injEq] at h
      subst h
      obtain ⟨hlen, hpre, hfind⟩ := indexOf?_take_append hi
      rw [length_closer] at hlen hfind
      rw [length_drop] at hlen
      have hop := level?_eq_some_iff.1 hl
      -- the bracket is its opener, the text up to the closer, and the closer
      have hcloser : ((cs.drop (m + 2)).drop i).take (m + 2) = closer m := by
        have := prefix_iff_eq_take.1 hpre
        rw [length_closer] at this
        exact this.symm
      have htake : cs.take (m + 2 + i + (m + 2)) =
          cs.take (m + 2) ++ (cs.drop (m + 2)).take i ++ closer m := by
        rw [Nat.add_assoc, take_add (l := cs) (i := m + 2),
          take_add (l := cs.drop (m + 2)) (i := i), hcloser, append_assoc]
      refine ⟨by omega, by rw [htake, getLast?_append, getLast?_closer]; rfl, fun s => ?_⟩
      have hop' : opener m <+: cs.take (m + 2 + i + (m + 2)) ++ s :=
        (prefix_take_iff.2 ⟨hop, by rw [length_opener]; omega⟩).trans (prefix_append _ _)
      have hdrop : (cs.take (m + 2 + i + (m + 2)) ++ s).drop (m + 2) =
          (cs.drop (m + 2)).take (i + (m + 2)) ++ s := by
        rw [drop_append_of_le_length (by simp; omega), drop_take]
        congr 2
        omega
      unfold scan
      rw [level?_eq_some_iff.2 hop']
      simp only [hdrop, hfind s]

end Bracket

namespace Rule

theorem quoteEnd?_cons_of_ne {q c : Char} (hc : c ≠ '\\') (s : List Char) :
    quoteEnd? q (c :: s) = if c = q then some 1 else (quoteEnd? q s).map (· + 1) := by
  cases s <;> simp [quoteEnd?, hc]

/-- **A quoted string decides from its own text.** A quoted body that closes at the `k`-th
character lies within the text, ends with the quote, and closes there again when the text is
cut after it and anything follows. -/
theorem quoteEnd?_take_append {q : Char} {r : List Char} {k : Nat} (h : quoteEnd? q r = some k) :
    0 < k ∧ k ≤ r.length ∧ (r.take k).getLast? = some q ∧
      ∀ s, quoteEnd? q (r.take k ++ s) = some k := by
  fun_induction quoteEnd? q r generalizing k with
  | case1 => cases h
  | case2 => cases h
  | case3 c r ih =>
    obtain ⟨j, hj, rfl⟩ := Option.map_eq_some_iff.1 h
    obtain ⟨hpos, hle, hlast, hfind⟩ := ih hj
    refine ⟨by omega, by simp; omega, ?_, fun s => ?_⟩
    · rw [show j + 2 = j + 1 + 1 by omega, take_succ_cons, take_succ_cons, getLast?_cons,
        getLast?_cons, hlast]
      rfl
    · rw [show j + 2 = j + 1 + 1 by omega, take_succ_cons, take_succ_cons, cons_append,
        cons_append, quoteEnd?, hfind s]
      rfl
  | case4 r hb1 hb2 =>
    -- the quote stands first; it is no backslash, since a backslash would escape
    have hq : q ≠ '\\' := fun hq => by cases r <;> simp_all
    cases h
    refine ⟨by omega, by simp, by simp, fun s => ?_⟩
    rw [take_one, head?_cons, Option.toList_some, singleton_append, quoteEnd?_cons_of_ne hq,
      if_pos rfl]
  | case5 c r hb1 hb2 hcq ih =>
    have hc : c ≠ '\\' := fun hc => by cases r <;> simp_all
    obtain ⟨j, hj, rfl⟩ := Option.map_eq_some_iff.1 h
    obtain ⟨hpos, hle, hlast, hfind⟩ := ih hj
    refine ⟨by omega, by simp; omega, ?_, fun s => ?_⟩
    · rw [take_succ_cons, getLast?_cons, hlast]
      rfl
    · rw [take_succ_cons, cons_append, quoteEnd?_cons_of_ne hc, if_neg hcq, hfind s]
      rfl

end Rule

end LuaReflow
