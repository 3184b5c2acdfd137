import Mathlib.Data.Nat.Find
import Mathlib.Data.List.TakeDrop
import LuaReflow.Proofs.Lexeme.Settled

/-!
# The numeral grammar

`Numeral.isLiteral` decides numerals by splitting a text at its sign, its `0x` and its exponent
mark and counting points. This file states the same language as a grammar, production by
production, in the shape of the pattern `[+-]?(hex | decimal)` with

* `hex = 0[xX]([0-9a-fA-F]+ \.? [0-9a-fA-F]* | \.[0-9a-fA-F]+)`,
* `decimal = ([0-9]+ \.? [0-9]* | \.[0-9]+)([eE][+-]?[0-9]+)?`,

and proves the recognizer exact for it (`Numeral.isLiteral_iff`). The longest numeral prefix is
then the greatest length up to the text's whose prefix is a numeral
(`Numeral.longestPrefix_eq_findGreatest`), and the number rule of the lexer takes exactly that
prefix of its run, or declines when no prefix of the run is a numeral
(`Numeral.claim_numeral_cases`).

* **`Numeral.numeral_rule_follows_grammar`** — the three together.
-/

namespace LuaReflow

open List

namespace Numeral

/-- A non-empty run of characters of the class `d`. -/
def IsRun (d : Char → Bool) (w : List Char) : Prop :=
  w ≠ [] ∧ ∀ x ∈ w, d x = true

/-- An optional sign: nothing, `+` or `-`. -/
def IsSign (s : List Char) : Prop :=
  s = [] ∨ s = ['+'] ∨ s = ['-']

/-- A mantissa over the digit class `d`: `d+ \.? d*` or `\. d+`. -/
inductive Mantissa (d : Char → Bool) : List Char → Prop
  /-- Digits, then an optional point and optional digits. -/
  | lead {a dot b : List Char} (ha : IsRun d a) (hdot : dot = [] ∨ dot = ['.'])
      (hb : ∀ x ∈ b, d x = true) : Mantissa d (a ++ dot ++ b)
  /-- A point, then digits. -/
  | point {b : List Char} (hb : IsRun d b) : Mantissa d ('.' :: b)

/-- A decimal exponent: `e` or `E`, an optional sign and decimal digits. -/
inductive Exponent : List Char → Prop
  | mk {e : Char} {sign ds : List Char} (he : e = 'e' ∨ e = 'E') (hsign : IsSign sign)
      (hds : IsRun isDecimalDigit ds) : Exponent (e :: (sign ++ ds))

/-- An unsigned numeral. -/
inductive Unsigned : List Char → Prop
  /-- `0x` or `0X` and a hexadecimal mantissa. -/
  | hex {x : Char} {m : List Char} (hx : x = 'x' ∨ x = 'X') (hm : Mantissa isHexDigit m) :
      Unsigned ('0' :: x :: m)
  /-- A decimal mantissa and an optional exponent. -/
  | decimal {m e : List Char} (hm : Mantissa isDecimalDigit m) (he : e = [] ∨ Exponent e) :
      Unsigned (m ++ e)

/-- A numeral: an optional sign and an unsigned numeral. -/
inductive Literal : List Char → Prop
  | mk {sign w : List Char} (hsign : IsSign sign) (hw : Unsigned w) : Literal (sign ++ w)

/-! ### Mantissas -/

section Mantissa

variable {d : Char → Bool}

theorem count_point_eq_zero (hd : d '.' = false) {a : List Char} (ha : ∀ x ∈ a, d x = true) :
    a.count '.' = 0 :=
  count_eq_zero.2 fun hm => by simp [ha '.' hm] at hd

/-- A mantissa holds digits of its class and points, and starts with one of them. -/
theorem Mantissa.mem {m : List Char} (h : Mantissa d m) : ∀ x ∈ m, d x = true ∨ x = '.' := by
  cases h with
  | lead ha hdot hb =>
    intro x hx
    rcases mem_append.1 hx with hx | hx
    · rcases mem_append.1 hx with hx | hx
      · exact .inl (ha.2 x hx)
      · rcases hdot with rfl | rfl <;> simp_all
    · exact .inl (hb x hx)
  | point hb =>
    intro x hx
    rcases mem_cons.1 hx with rfl | hx
    · exact .inr rfl
    · exact .inl (hb.2 x hx)

theorem Mantissa.ne_nil {m : List Char} (h : Mantissa d m) : m ≠ [] := by
  cases h with
  | lead ha => simp [ha.1]
  | point => simp

/-- Digits of the class on both sides of one point, at least one of them, make a mantissa. -/
theorem mantissa_point {a b : List Char} (ha : ∀ x ∈ a, d x = true) (hb : ∀ x ∈ b, d x = true)
    (hne : a ++ b ≠ []) : Mantissa d (a ++ '.' :: b) := by
  cases a with
  | nil => exact .point ⟨by simpa using hne, hb⟩
  | cons x a =>
    have hm : Mantissa d (x :: a ++ ['.'] ++ b) := .lead ⟨cons_ne_nil x a, ha⟩ (.inr rfl) hb
    simpa using hm

theorem Mantissa.of_isMantissa (hd : d '.' = false) {cs : List Char}
    (h : isMantissa d cs = true) : Mantissa d cs := by
  simp only [isMantissa, Bool.and_eq_true, all_eq_true, Bool.or_eq_true, decide_eq_true_eq,
    any_eq_true] at h
  obtain ⟨⟨hall, hcount⟩, y, hy, hdy⟩ := h
  by_cases hdot : '.' ∈ cs
  · -- one point, with digits of the class on both sides
    obtain ⟨a, b, rfl⟩ := append_of_mem hdot
    have hnone : a.count '.' = 0 ∧ b.count '.' = 0 := by
      simp only [count_append, count_cons_self] at hcount
      omega
    have hdig : ∀ x ∈ a ++ b, d x = true := by
      intro x hx
      have hx' : x ≠ '.' := by
        rintro rfl
        rcases mem_append.1 hx with hx | hx
        · exact count_eq_zero.1 hnone.1 hx
        · exact count_eq_zero.1 hnone.2 hx
      exact (hall x (by simp_all)).resolve_right hx'
    -- the digit `y` is no point, so it stands on one side of it
    have hyab : y ∈ a ++ b := by
      have hy' : y ≠ '.' := by
        rintro rfl
        simp [hd] at hdy
      simpa [hy'] using hy
    exact mantissa_point (fun x hx => hdig x (mem_append_left b hx))
      (fun x hx => hdig x (mem_append_right a hx)) (ne_nil_of_mem hyab)
  · -- no point: digits only
    have hm : Mantissa d (cs ++ [] ++ []) :=
      .lead ⟨ne_nil_of_mem hy, fun x hx => (hall x hx).resolve_right (fun h => hdot (h ▸ hx))⟩
        (.inl rfl) (by simp)
    simpa using hm

theorem isMantissa_iff (hd : d '.' = false) {cs : List Char} :
    isMantissa d cs = true ↔ Mantissa d cs := by
  refine ⟨Mantissa.of_isMantissa hd, fun h => ?_⟩
  simp only [isMantissa, Bool.and_eq_true, all_eq_true, Bool.or_eq_true, decide_eq_true_eq,
    any_eq_true]
  refine ⟨⟨h.mem, ?_⟩, ?_⟩
  · cases h with
    | lead ha hdot hb =>
      simp only [count_append, count_point_eq_zero hd ha.2, count_point_eq_zero hd hb]
      rcases hdot with rfl | rfl <;> simp
    | point hb => simp [count_point_eq_zero hd hb.2]
  · cases h with
    | lead ha =>
      obtain ⟨x, hx⟩ := exists_mem_of_ne_nil _ ha.1
      exact ⟨x, by simp [hx], ha.2 x hx⟩
    | point hb =>
      obtain ⟨x, hx⟩ := exists_mem_of_ne_nil _ hb.1
      exact ⟨x, by simp [hx], hb.2 x hx⟩

end Mantissa

/-! ### Exponents, the two bodies and the sign -/

theorem isDecimalDigit_sign : isDecimalDigit '+' = false ∧ isDecimalDigit '-' = false := by
  decide

theorem toNat_of_isDecimalDigit {c : Char} (h : isDecimalDigit c = true) :
    48 ≤ c.toNat ∧ c.toNat ≤ 57 := by
  simp only [isDecimalDigit, Bool.and_eq_true, decide_eq_true_eq] at h
  have hv : c.toNat = c.val.toNat := rfl
  simp only [Char.le_def, UInt32.le_iff_toNat_le] at h
  simp at h
  omega

theorem isExponent_iff {cs : List Char} :
    isExponent cs = true ↔ ∃ sign ds, IsSign sign ∧ IsRun isDecimalDigit ds ∧ cs = sign ++ ds := by
  constructor
  · intro h
    unfold isExponent at h
    split at h
    · exact ⟨['+'], _, .inr (.inl rfl), by simpa [IsRun] using h, rfl⟩
    · exact ⟨['-'], _, .inr (.inr rfl), by simpa [IsRun] using h, rfl⟩
    · exact ⟨[], _, .inl rfl, by simpa [IsRun] using h, rfl⟩
  · rintro ⟨sign, ds, hsign, ⟨hne, hall⟩, rfl⟩
    rcases hsign with rfl | rfl | rfl
    · -- no sign: the first digit is no sign either
      obtain ⟨x, xs, rfl⟩ := exists_cons_of_ne_nil hne
      have hx := hall x mem_cons_self
      unfold isExponent
      split
      · simp_all [isDecimalDigit_sign]
      · simp_all [isDecimalDigit_sign]
      · simpa using hall
    all_goals simpa [isExponent, hne] using hall

/-- The characters of a decimal mantissa are no exponent marks. -/
theorem Mantissa.not_exponentMark {m : List Char} (h : Mantissa isDecimalDigit m) :
    ∀ x ∈ m, (!isExponentMark x) = true := by
  intro x hx
  rcases h.mem x hx with h | rfl
  · -- a decimal digit lies below the letters
    have hb := toNat_of_isDecimalDigit h
    have he : x ≠ 'e' := by rintro rfl; revert hb; decide
    have hE : x ≠ 'E' := by rintro rfl; revert hb; decide
    simp [isExponentMark, he, hE]
  · decide

theorem isDecimal_iff {cs : List Char} :
    isDecimal cs = true ↔
      ∃ m e, Mantissa isDecimalDigit m ∧ (e = [] ∨ Exponent e) ∧ cs = m ++ e := by
  have hd : isDecimalDigit '.' = false := by decide
  constructor
  · intro h
    unfold isDecimal at h
    rw [span_eq_takeWhile_dropWhile] at h
    have hsplit := takeWhile_append_dropWhile (p := fun c => !isExponentMark c) (l := cs)
    split at h
    · -- no exponent mark
      rename_i m hspan
      simp only [Prod.mk.injEq] at hspan
      obtain ⟨hm, hrest⟩ := hspan
      rw [hm, hrest, append_nil] at hsplit
      exact ⟨m, [], (isMantissa_iff hd).1 h, .inl rfl, by rw [← hsplit, append_nil]⟩
    · -- the first exponent mark starts the exponent
      rename_i m x e hspan
      simp only [Prod.mk.injEq] at hspan
      obtain ⟨hm, hrest⟩ := hspan
      simp only [Bool.and_eq_true] at h
      obtain ⟨sign, ds, hsign, hds, rfl⟩ := isExponent_iff.1 h.2
      have hx : isExponentMark x = true := by
        have := head?_dropWhile_not (fun c => !isExponentMark c) cs
        rw [hrest] at this
        simpa using this
      have hx' : x = 'e' ∨ x = 'E' := by simpa [isExponentMark] using hx
      rw [hm, hrest] at hsplit
      exact ⟨m, _, (isMantissa_iff hd).1 h.1, .inr (.mk hx' hsign hds), hsplit.symm⟩
  · rintro ⟨m, e, hm, he, rfl⟩
    have htake : (m ++ e).takeWhile (fun c => !isExponentMark c) = m ++
        e.takeWhile (fun c => !isExponentMark c) := takeWhile_append_of_pos hm.not_exponentMark
    have hdrop : (m ++ e).dropWhile (fun c => !isExponentMark c) =
        e.dropWhile (fun c => !isExponentMark c) := dropWhile_append_of_pos hm.not_exponentMark
    unfold isDecimal
    rw [span_eq_takeWhile_dropWhile, htake, hdrop]
    rcases he with rfl | ⟨he, hsign, hds⟩
    · simpa using (isMantissa_iff hd).2 hm
    · -- the exponent starts with its mark, which ends the mantissa's run
      rename_i x sign ds
      have hx : (!isExponentMark x) = false := by rcases he with rfl | rfl <;> rfl
      simp only [takeWhile_cons, dropWhile_cons, hx, append_nil, Bool.false_eq_true, if_false,
        Bool.and_eq_true]
      exact ⟨(isMantissa_iff hd).2 hm, isExponent_iff.2 ⟨sign, ds, hsign, hds, rfl⟩⟩

theorem isHex_iff {cs : List Char} :
    isHex cs = true ↔ ∃ x m, (x = 'x' ∨ x = 'X') ∧ Mantissa isHexDigit m ∧ cs = '0' :: x :: m := by
  have hd : isHexDigit '.' = false := by decide
  constructor
  · intro h
    unfold isHex at h
    split at h
    · exact ⟨'x', _, .inl rfl, (isMantissa_iff hd).1 h, rfl⟩
    · exact ⟨'X', _, .inr rfl, (isMantissa_iff hd).1 h, rfl⟩
    · cases h
  · rintro ⟨x, m, hx | hx, hm, rfl⟩ <;> subst hx <;> exact (isMantissa_iff hd).2 hm

theorem isUnsigned_iff {cs : List Char} : isUnsigned cs = true ↔ Unsigned cs := by
  simp only [isUnsigned, Bool.or_eq_true, isHex_iff, isDecimal_iff]
  constructor
  · rintro (⟨x, m, hx, hm, rfl⟩ | ⟨m, e, hm, he, rfl⟩)
    · exact .hex hx hm
    · exact .decimal hm he
  · intro h
    cases h with
    | hex hx hm => exact .inl ⟨_, _, hx, hm, rfl⟩
    | decimal hm he => exact .inr ⟨_, _, hm, he, rfl⟩

/-- An unsigned numeral starts with no sign. -/
theorem Unsigned.head {w : List Char} (h : Unsigned w) : ∀ c ∈ w.head?, c ≠ '+' ∧ c ≠ '-' := by
  intro c hc
  cases h with
  | hex => simp at hc; subst hc; decide
  | decimal hm =>
    obtain ⟨x, xs, hxs⟩ := exists_cons_of_ne_nil hm.ne_nil
    rw [hxs, cons_append, head?_cons, Option.mem_some_iff] at hc
    subst hc
    rcases hm.mem x (by simp [hxs]) with h | rfl
    · exact ⟨fun h' => by simp [h', isDecimalDigit_sign] at h,
        fun h' => by simp [h', isDecimalDigit_sign] at h⟩
    · decide

/-- **The recognizer is exact for the grammar.** -/
theorem isLiteral_iff {cs : List Char} : isLiteral cs = true ↔ Literal cs := by
  constructor
  · intro h
    unfold isLiteral at h
    split at h
    · show Literal (['+'] ++ _)
      exact .mk (.inr (.inl rfl)) (isUnsigned_iff.1 h)
    · show Literal (['-'] ++ _)
      exact .mk (.inr (.inr rfl)) (isUnsigned_iff.1 h)
    · show Literal ([] ++ _)
      exact .mk (.inl rfl) (isUnsigned_iff.1 h)
  · rintro ⟨hsign, hw⟩
    rename_i sign w
    rcases hsign with rfl | rfl | rfl
    · -- no sign: the unsigned numeral starts with none either
      obtain ⟨x, xs, rfl⟩ : ∃ x xs, w = x :: xs := by
        cases hw with
        | hex => exact ⟨_, _, rfl⟩
        | decimal hm =>
          obtain ⟨x, xs, hxs⟩ := exists_cons_of_ne_nil hm.ne_nil
          exact ⟨x, xs ++ _, by rw [hxs, cons_append]⟩
      have hx := hw.head x rfl
      unfold isLiteral
      split
      · simp_all
      · simp_all
      · exact isUnsigned_iff.2 hw
    all_goals exact isUnsigned_iff.2 hw

instance : DecidablePred Literal := fun _ => decidable_of_iff _ isLiteral_iff

theorem not_literal_nil : ¬Literal [] := by
  rw [← isLiteral_iff]
  decide

/-! ### The longest numeral prefix -/

/-- No prefix longer than the longest numeral prefix is a numeral. -/
theorem longestPrefix_maximal {cs : List Char} {n : Nat} (hn : longestPrefix cs < n)
    (hle : n ≤ cs.length) : isLiteral (cs.take n) = false := by
  induction cs using reverseRecOn generalizing n with
  | nil => simp at hle; omega
  | append_singleton l x ih =>
    cases hlit : isLiteral (l ++ [x]) with
    | true =>
      rw [longestPrefix_of_isLiteral hlit (by simp)] at hn
      omega
    | false =>
      -- the whole text is no numeral, and its shorter prefixes are those of `l`
      rw [longestPrefix_eq_dropLast hlit, dropLast_concat] at hn
      simp only [length_append, length_singleton] at hle
      rcases Nat.lt_or_ge n (l.length + 1) with hlt | hge
      · rw [take_append_of_le_length (by omega)]
        exact ih hn (by omega)
      · rw [take_of_length_le (by simp; omega)]
        exact hlit

/-- **The longest numeral prefix** is the greatest length, up to the text's, whose prefix is a
numeral, or 0 when there is none. -/
theorem longestPrefix_eq_findGreatest (cs : List Char) :
    longestPrefix cs = Nat.findGreatest (fun n => 0 < n ∧ Literal (cs.take n)) cs.length := by
  symm
  rw [Nat.findGreatest_eq_iff]
  refine ⟨?_, fun h0 => ?_, fun n hlt hle hlit => ?_⟩
  · cases hl : longestPrefix cs with
    | zero => exact Nat.zero_le _
    | succ k => exact (longestPrefix_spec hl).1
  · obtain ⟨k, hk⟩ := Nat.exists_eq_succ_of_ne_zero h0
    rw [hk]
    exact ⟨Nat.succ_pos k, isLiteral_iff.1 (longestPrefix_spec hk).2⟩
  · have := longestPrefix_maximal hlt hle
    rw [isLiteral_iff.2 hlit.2] at this
    cases this

/-! ### The number rule -/

/-- **The number rule takes the longest numeral of its run.** At a text, the rule declines
exactly when no prefix of the maximal run of numeral characters is a numeral; otherwise it takes,
as a number, the text's prefix as long as the run's longest numeral prefix. -/
theorem claim_numeral_cases (c : Char) (r : List Char) :
    (Rule.numeral.claim c r = .decline ∧
        ∀ n, ¬Literal (((c :: r).takeWhile isRunChar).take n)) ∨
      ((∃ n, Literal (((c :: r).takeWhile isRunChar).take n)) ∧
        ∃ k, Rule.numeral.claim c r = .take k (some .number) ∧
          c :: r.take k = (c :: r).take (longestPrefix ((c :: r).takeWhile isRunChar))) := by
  cases hc : isRunChar c with
  | false =>
    -- no run starts here
    refine .inl ⟨Rule.numeral_eq_decline_iff.2 fun h => absurd h (by simp [hc]), fun n => ?_⟩
    rw [takeWhile_cons_of_neg (by simp [hc]), take_nil]
    exact not_literal_nil
  | true =>
    rw [takeWhile_cons_of_pos hc]
    cases hl : longestPrefix (c :: r.takeWhile isRunChar) with
    | zero =>
      refine .inl ⟨Rule.numeral_eq_decline_iff.2 fun _ => hl, fun n hlit => ?_⟩
      have hnone := longestPrefix_eq_zero_iff.1 hl
      rcases Nat.eq_zero_or_pos n with rfl | hpos
      · exact not_literal_nil (by simpa using hlit)
      · -- a cut beyond the run is the whole run
        have hcut : ∃ m, 0 < m ∧ m ≤ (c :: r.takeWhile isRunChar).length ∧
            (c :: r.takeWhile isRunChar).take n = (c :: r.takeWhile isRunChar).take m := by
          rcases Nat.lt_or_ge (c :: r.takeWhile isRunChar).length n with hlt | hge
          · refine ⟨(c :: r.takeWhile isRunChar).length, by simp, le_rfl, ?_⟩
            rw [take_of_length_le (by omega), take_length]
          · exact ⟨n, hpos, hge, rfl⟩
        obtain ⟨m, hm, hmle, hcut⟩ := hcut
        have := hnone m hm hmle
        rw [← hcut, isLiteral_iff.2 hlit] at this
        cases this
    | succ k =>
      refine .inr ⟨⟨k + 1, isLiteral_iff.1 (longestPrefix_spec hl).2⟩, k,
        Rule.numeral_eq_take_iff.2 ⟨hc, hl, rfl⟩, ?_⟩
      rw [take_succ_cons]

/-- **Numerals are recognized by their grammar.** A text is a numeral exactly when the grammar
`[+-]?(hex | decimal)` derives it; the longest numeral prefix of a text is the greatest length,
up to the text's, whose prefix is a numeral, or 0; and the number rule at a text declines exactly
when no prefix of the maximal run of numeral characters there is a numeral, and otherwise takes
the prefix of the text as long as the run's longest numeral prefix. -/
theorem numeral_rule_follows_grammar :
    (∀ t, isLiteral t = true ↔ Literal t) ∧
    (∀ t, longestPrefix t = Nat.findGreatest (fun n => 0 < n ∧ Literal (t.take n)) t.length) ∧
    ∀ c r,
      (Rule.numeral.claim c r = .decline ∧
          ∀ n, ¬Literal (((c :: r).takeWhile isRunChar).take n)) ∨
        ((∃ n, Literal (((c :: r).takeWhile isRunChar).take n)) ∧
          ∃ k, Rule.numeral.claim c r = .take k (some .number) ∧
            c :: r.take k = (c :: r).take (longestPrefix ((c :: r).takeWhile isRunChar))) :=
  ⟨fun _ => isLiteral_iff, longestPrefix_eq_findGreatest, claim_numeral_cases⟩

example : Literal "-0x.8".toList ∧ ¬Literal "0x".toList ∧ ¬Literal "1e+".toList := by decide

end Numeral

end LuaReflow
