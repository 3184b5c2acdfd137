import LuaReflow.Proofs.Document.Parameters

/-!
# Where the lines start

Line splitting decides where a line starts with one token of lookahead and with what the
current line holds, and the `)` it retags also ends a line. This file states where the lines
of any token list start, position by position, in terms of the input alone, and of the line
that holds the token before:

* `lineStarts`, `lineAt` — the positions, counted in tokens, where the lines of a document
  start, and the line that holds a position;
* `Cursor.Begins` — the lines cut from a cursor begin with its finished lines, then with its
  current line (`Cursor.begins_lines`);
* `Cursor.mem_lineStarts_lines` — a line starts at the next token exactly when the current
  line is empty or the token starts a new one;
* **`lineStarts_iff_boundary_rules`** — a line starts between two tokens exactly when the first
  ends a line, closes a parameter list or ends an expression before a word, or the second
  always starts a line, is a `do` after a line not opened by `for` or `while`, or is a
  `function` after neither an opening bracket nor `local`. So `else`, `end`, `repeat`, `break`,
  comments and blank runs stand alone on their lines, and a `do` stays on a line only when
  `for` or `while` opened it.
-/

namespace LuaReflow.Document

open List

/-- The positions, counted in tokens, where the lines `ls` start, when the first of them starts
at position `n`. -/
def lineStarts : List Line → Nat → List Nat
  | [], _ => []
  | l :: ls, n => n :: lineStarts ls (n + l.tokens.length)

/-- The line of `ls` that holds the token at position `i`, if there is one. -/
def lineAt : List Line → Nat → Option Line
  | [], _ => none
  | l :: ls, i => if i < l.tokens.length then some l else lineAt ls (i - l.tokens.length)

theorem lineStarts_append (ls ms : List Line) (n : Nat) :
    lineStarts (ls ++ ms) n =
      lineStarts ls n ++ lineStarts ms (n + (ls.flatMap Line.tokens).length) := by
  induction ls generalizing n with
  | nil => rfl
  | cons l ls ih => simp [lineStarts, ih, Nat.add_assoc]

/-- The lines `ls` start at `n` or after it, and before their last token. -/
theorem bounds_of_mem_lineStarts {ls : List Line} {n s : Nat} (h : s ∈ lineStarts ls n) :
    n ≤ s ∧ s < n + (ls.flatMap Line.tokens).length := by
  induction ls generalizing n with
  | nil => simp [lineStarts] at h
  | cons l ls ih =>
    -- every line holds at least its first token
    have hpos : 0 < l.tokens.length := by simp [Line.tokens]
    rcases mem_cons.1 h with rfl | h
    · simp only [flatMap_cons, length_append]
      omega
    · have := ih h
      simp only [flatMap_cons, length_append]
      omega

theorem lineAt_append_of_le {ls ms : List Line} {i : Nat}
    (h : (ls.flatMap Line.tokens).length ≤ i) :
    lineAt (ls ++ ms) i = lineAt ms (i - (ls.flatMap Line.tokens).length) := by
  induction ls generalizing i with
  | nil => rfl
  | cons l ls ih =>
    simp only [flatMap_cons, length_append] at h
    rw [cons_append, lineAt, if_neg (by omega), ih (by omega)]
    simp only [flatMap_cons, length_append, Nat.sub_add_eq]

/-! ### The lines a cursor goes on to cut -/

namespace Cursor

/-- The lines `ls` begin with the finished lines of the cursor `c`, and the line after those
begins with its current line, when that is not empty. -/
def Begins (c : Cursor) (ls : List Line) : Prop :=
  ∃ ms, ls = c.done.reverse ++ ms ∧
    (c.current ≠ [] → ∃ m ms', ms = m :: ms' ∧ c.current.reverse <+: m.tokens)

/-- Closing the current line `cur` makes it the next finished line. -/
theorem closeLine_reverse_append (cur : List Token) (done ms : List Line) :
    ∃ ms', (closeLine cur done).reverse ++ ms = done.reverse ++ ms' ∧
      (cur ≠ [] → ∃ m ms'', ms' = m :: ms'' ∧ cur.reverse <+: m.tokens) := by
  cases cur with
  | nil => exact ⟨ms, rfl, fun h => absurd rfl h⟩
  | cons u cur =>
    obtain ⟨l, hl, htok⟩ := closeLine_cons u cur done
    exact ⟨l :: ms, by simp [hl], fun _ => ⟨l, ms, rfl, htok ▸ prefix_refl _⟩⟩

theorem current_push (c : Cursor) (t : Token) :
    (c.push t).current = c.placed t ::
      if (!c.current.isEmpty && startsBefore c.current t) = true then [] else c.current := by
  by_cases hb : (!c.current.isEmpty && startsBefore c.current t) = true <;> simp [push, hb]

theorem done_push (c : Cursor) (t : Token) :
    (c.push t).done =
      if (!c.current.isEmpty && startsBefore c.current t) = true then closeLine c.current c.done
      else c.done := by
  by_cases hb : (!c.current.isEmpty && startsBefore c.current t) = true <;> simp [push, hb]

theorem begins_cut {c : Cursor} {ls : List Line} (h : c.cut.Begins ls) : c.Begins ls := by
  obtain ⟨ms, rfl, -⟩ := h
  exact closeLine_reverse_append c.current c.done ms

theorem begins_push {c : Cursor} {t : Token} {ls : List Line} (h : (c.push t).Begins ls) :
    c.Begins ls := by
  obtain ⟨ms, rfl, hgo⟩ := h
  rw [current_push] at hgo
  rw [done_push]
  split
  · -- the line was cut before `t`: it is the next finished line
    exact closeLine_reverse_append c.current c.done ms
  · -- `t` joined the current line, which still begins the next line
    rename_i hb
    rw [if_neg hb] at hgo
    refine ⟨ms, rfl, fun _ => ?_⟩
    obtain ⟨m, ms', rfl, hpre⟩ := hgo (cons_ne_nil _ _)
    rw [reverse_cons] at hpre
    exact ⟨m, ms', rfl, (prefix_append _ _).trans hpre⟩

theorem begins_step {c : Cursor} {t : Token} {next : Tag} {ls : List Line}
    (h : (c.step t next).Begins ls) : (c.push t).Begins ls := by
  unfold step at h
  split at h
  · exact begins_cut h
  · exact h

/-- The lines cut from a cursor begin with what it holds. -/
theorem begins_lines (c : Cursor) (ys : List Token) : c.Begins (c.lines ys) := by
  induction ys generalizing c with
  | nil =>
    obtain ⟨ms, heq, hgo⟩ := closeLine_reverse_append c.current c.done []
    exact ⟨ms, by rw [lines_nil, ← heq, append_nil], hgo⟩
  | cons t ys ih =>
    rw [lines_cons]
    exact begins_push (begins_step (ih _))

theorem length_pending (cur : List Token) (done : List Line) :
    (pending cur done).length = (done.reverse.flatMap Line.tokens).length + cur.length := by
  simp [pending]

/-- **A line starts at the next token** exactly when the current line is empty or the token
starts a new one. -/
theorem mem_lineStarts_lines (c : Cursor) (t : Token) (ys : List Token) :
    (pending c.current c.done).length ∈ lineStarts (c.lines (t :: ys)) 0 ↔
      c.current = [] ∨ startsBefore c.current t = true := by
  obtain ⟨ms, hls, hgo⟩ : (c.push t).Begins (c.lines (t :: ys)) := by
    rw [lines_cons]
    exact begins_step (begins_lines _ ys)
  obtain ⟨m, ms', rfl, hpre⟩ := hgo (by rw [current_push]; exact cons_ne_nil _ _)
  rw [current_push] at hpre
  rw [hls, lineStarts_append, Nat.zero_add, lineStarts, done_push]
  by_cases hb : (!c.current.isEmpty && startsBefore c.current t) = true
  · -- the current line is cut before `t`, so a line starts at `t`
    have hlen : ((closeLine c.current c.done).reverse.flatMap Line.tokens).length =
        (pending c.current c.done).length := by
      rw [← pending_closeLine]
      simp [pending]
    rw [if_pos hb, hlen]
    simp only [Bool.and_eq_true, Bool.not_eq_true', isEmpty_eq_false_iff] at hb
    simp [hb.2]
  · rw [if_neg hb]
    rw [if_neg hb] at hpre
    by_cases hcur : c.current = []
    · simp [hcur, length_pending]
    · -- `t` joins the current line: the next line starts past it
      have hsb : startsBefore c.current t = false := by
        simpa [isEmpty_eq_false_iff.2 hcur] using hb
      have hm := hpre.length_le
      simp only [reverse_cons, length_append, length_reverse, length_singleton] at hm
      have hpos : 0 < c.current.length := length_pos_iff.2 hcur
      simp only [hcur, hsb, length_pending, mem_append, mem_cons, or_self, Bool.false_eq_true,
        iff_false, not_or]
      refine ⟨fun hs => ?_, by omega, fun hs => ?_⟩
      · have := (bounds_of_mem_lineStarts hs).2
        omega
      · have := (bounds_of_mem_lineStarts hs).1
        omega

/-- When the current line is not empty, the last token the cursor holds stands on a line that
begins with the current line. -/
theorem lineAt_lines (c : Cursor) (ys : List Token) (hne : c.current ≠ []) :
    ∃ m, lineAt (c.lines ys) ((pending c.current c.done).length - 1) = some m ∧
      some m.first = c.current.getLast? := by
  obtain ⟨ms, hls, hgo⟩ := begins_lines c ys
  obtain ⟨m, ms', rfl, ⟨r, hr⟩⟩ := hgo hne
  have hpos : 0 < c.current.length := length_pos_iff.2 hne
  have hm : c.current.length ≤ m.tokens.length := by rw [← hr]; simp
  refine ⟨m, ?_, ?_⟩
  · rw [hls, lineAt_append_of_le (by rw [length_pending]; omega), lineAt, length_pending,
      if_pos (by omega)]
  · have hhead : m.tokens.head? = c.current.reverse.head? := by
      rw [← hr, head?_append_of_ne_nil _ (by simpa using hne)]
    rwa [head?_reverse] at hhead

/-- Walking over one more token ends with one more step. -/
theorem run_concat (c : Cursor) (next : Tag) (xs : List Token) (t : Token) :
    c.run next (xs ++ [t]) = (c.run t.tag xs).step t next := by
  induction xs generalizing c with
  | nil => rfl
  | cons u xs ih =>
    rw [cons_append, run, run, nextTag_append, ih]
    rfl

theorem current_step_eq_nil_iff (c : Cursor) (t : Token) (next : Tag) :
    (c.step t next).current = [] ↔ c.endsAfter t next = true := by
  unfold step
  split
  · simp [cut, *]
  · simp [current_push, *]

/-- A cursor that has read `pre` ends the line after `t`, before a token tagged `next`, exactly
for the documented reasons. -/
theorem endsAfter_of_reads {pre : List Token} {c : Cursor} (h : Reads pre c) (t : Token)
    (next : Tag) :
    c.endsAfter t next =
      (t.tag.endsLine || closesParametersAt (pre ++ [t]) pre.length ||
        t.tag.breaksStatement next) := by
  rw [endsAfter, placed_of_reads h, h.afterFunction_eq, ← closesParametersAt_concat]
  cases closesParametersAt (pre ++ [t]) pre.length
  · simp only [Bool.false_eq_true, if_false, Bool.false_or, Bool.or_false]
  · simp

theorem bindsFunction_placed (c : Cursor) (t : Token) :
    (c.placed t).tag.bindsFunction = t.tag.bindsFunction := by
  unfold placed
  split
  · rename_i h
    simp only [Bool.and_eq_true, beq_iff_eq] at h
    simp [h.1.1, Tag.bindsFunction]
  · rfl

end Cursor

/-! ### Boundaries -/

theorem startsBefore_eq {cur : List Token} {f u t : Token} (hlast : cur.getLast? = some f)
    (hhead : cur.head? = some u) :
    startsBefore cur t = (t.tag.startsLine || (t.tag == .doKw && !f.tag.ownsDo) ||
      (t.tag == .functionKw && !u.tag.bindsFunction)) := by
  simp [startsBefore, hlast, hhead]

/-- The walk over a token list, cut between the tokens at `j` and `j + 1`: a cursor that has
read the tokens before `j` steps over the token at `j`, looking at the tag of the next, and walks
on over the rest. -/
theorem exists_reads_lines_ofTokens {ts : List Token} {j : Nat} (hi : j + 1 < ts.length) :
    ∃ c₀, Cursor.Reads (ts.take j) c₀ ∧
      (ofTokens ts).lines = (c₀.step ts[j] ts[j + 1].tag).lines (ts[j + 1] :: ts.drop (j + 2)) := by
  have hj : j < ts.length := by omega
  have hsplit : ts = (ts.take j ++ [ts[j]]) ++ ts[j + 1] :: ts.drop (j + 2) := by
    rw [← take_succ_eq_append_getElem hj, ← drop_eq_getElem_cons hi, take_append_drop]
  refine ⟨(Cursor.start []).run ts[j].tag (ts.take j), ?_, ?_⟩
  · simpa using Cursor.reads_run Cursor.reads_start ts[j].tag (ts.take j)
  · have h := Cursor.lines_append (Cursor.start []) (ts.take j ++ [ts[j]])
      (ts[j + 1] :: ts.drop (j + 2))
    rw [← hsplit, Cursor.run_concat] at h
    exact h

/-- After its step over the token at `j`, a cursor that has read the tokens before it holds no
line exactly when the line ended there: the token ends lines, closes a parameter list, or ends
an expression before the next token. -/
theorem current_step_eq_nil_iff_of_reads {ts : List Token} {j : Nat} (hi : j + 1 < ts.length)
    {c₀ : Cursor} (h : Cursor.Reads (ts.take j) c₀) :
    (c₀.step ts[j] ts[j + 1].tag).current = [] ↔
      (ts[j].tag.endsLine = true ∨ closesParametersAt ts j = true ∨
        ts[j].tag.breaksStatement ts[j + 1].tag = true) := by
  have hj : j < ts.length := by omega
  -- whether the `)` at `j` closes a parameter list is read off the tokens up to it
  have hcp : closesParametersAt (ts.take j ++ [ts[j]]) (ts.take j).length =
      closesParametersAt ts j := by
    have h := closesParametersAt_append (ts.take j ++ [ts[j]]) (ts.drop (j + 1))
      (i := (ts.take j).length) (by simp [hj])
    rw [← h, ← take_succ_eq_append_getElem hj, take_append_drop, length_take,
      Nat.min_eq_left hj.le]
  rw [Cursor.current_step_eq_nil_iff, Cursor.endsAfter_of_reads h, hcp]
  simp only [Bool.or_eq_true, or_assoc]

/-- **Where a line starts.** Between the tokens at positions `i - 1` and `i`, a line starts
exactly when the first ends a line, closes a parameter list or ends an expression before a
word, or the second always starts a line, is a `do` after a line not opened by `for` or
`while`, or is a `function` after neither an opening bracket nor `local`. -/
theorem mem_lineStarts_ofTokens_iff (ts : List Token) {i : Nat} (h0 : 0 < i)
    (hi : i < ts.length) :
    i ∈ lineStarts (ofTokens ts).lines 0 ↔
      (ts[i - 1].tag.endsLine = true ∨ closesParametersAt ts (i - 1) = true ∨
        ts[i - 1].tag.breaksStatement ts[i].tag = true) ∨
      (ts[i].tag.startsLine = true ∨
        (ts[i].tag = .doKw ∧
          ∃ l, lineAt (ofTokens ts).lines (i - 1) = some l ∧ l.first.tag.ownsDo = false) ∨
        (ts[i].tag = .functionKw ∧ ts[i - 1].tag.bindsFunction = false)) := by
  obtain ⟨j, rfl⟩ : ∃ j, i = j + 1 := ⟨i - 1, by omega⟩
  have hj : j < ts.length := by omega
  simp only [Nat.add_sub_cancel]
  -- the walk up to the token at `j`, then its step there, before the token at `j + 1`
  obtain ⟨c₀, hr₀, hlines⟩ := exists_reads_lines_ofTokens hi
  have hnil := current_step_eq_nil_iff_of_reads hi hr₀
  have hr := Cursor.reads_step hr₀ ts[j] ts[j + 1].tag
  generalize hc : c₀.step ts[j] ts[j + 1].tag = c at hr hlines hnil
  have hlen : (pending c.current c.done).length = j + 1 := by
    rw [hr.pending_eq, length_reclassified, length_append, length_take, length_singleton,
      Nat.min_eq_left hj.le]
  have key := Cursor.mem_lineStarts_lines c ts[j + 1] (ts.drop (j + 2))
  rw [hlen] at key
  rw [hlines, key]
  by_cases ha : ts[j].tag.endsLine = true ∨ closesParametersAt ts j = true ∨
      ts[j].tag.breaksStatement ts[j + 1].tag = true
  · exact iff_of_true (.inl (hnil.2 ha)) (.inl ha)
  · -- the line goes on past the token at `j`: the walk only pushed it
    have hne : c.current ≠ [] := fun h => ha (hnil.1 h)
    have hpush : c = c₀.push ts[j] := by
      rw [← hc, Cursor.step, if_neg]
      rwa [← Cursor.current_step_eq_nil_iff, hc]
    have hhead : c.current.head? = some (c₀.placed ts[j]) := by
      rw [hpush, Cursor.current_push]
      rfl
    obtain ⟨m, hm, hfirst⟩ := Cursor.lineAt_lines c (ts[j + 1] :: ts.drop (j + 2)) hne
    rw [hlen, Nat.add_sub_cancel] at hm
    rw [startsBefore_eq hfirst.symm hhead, Cursor.bindsFunction_placed, hm]
    simp only [ha, hne, false_or, Option.some.injEq, exists_eq_left', Bool.or_eq_true,
      Bool.and_eq_true, beq_iff_eq, Bool.not_eq_true', or_assoc]

/-! ### Tokens alone on their line, and the `do` a line keeps -/

/-- A token whose tag always starts and always ends a line stands alone on its line. -/
theorem tokens_eq_singleton_of_placed {l : Line} (hl : Placed l) {u : Token} (hu : u ∈ l.tokens)
    (hs : u.tag.startsLine = true) (he : u.tag.endsLine = true) : l.tokens = [u] := by
  obtain ⟨f, rest⟩ := l
  -- no token after the first starts a line
  obtain rfl : u = f := by
    rcases mem_cons.1 hu with h | h
    · exact h
    · have := hl.1 u h
      rw [hs] at this
      cases this
  -- no token before the last ends one
  cases rest with
  | nil => rfl
  | cons r rs =>
    have := hl.2 u (by simp [Line.tokens])
    rw [he] at this
    cases this

/-- The tags that always start a line and always end one. -/
theorem startsLine_endsLine_of_mem {tag : Tag}
    (h : tag ∈ [.elseKw, .endKw, .repeatKw, .breakKw, .comment, .blank]) :
    tag.startsLine = true ∧ tag.endsLine = true := by
  simp only [mem_cons, mem_nil_iff, or_false] at h
  rcases h with rfl | rfl | rfl | rfl | rfl | rfl <;> exact ⟨rfl, rfl⟩

/-- In the tokens `xs` of a line, a `do` after the first token follows a first token that keeps
it. -/
def DoKept (xs : List Token) : Prop :=
  ∀ u ∈ xs.tail, u.tag = .doKw → ∀ f ∈ xs.head?, f.tag.ownsDo = true

theorem doKept_concat {xs : List Token} {v : Token} (h : DoKept xs)
    (hv : v.tag = .doKw → xs ≠ [] → ∀ f ∈ xs.head?, f.tag.ownsDo = true) :
    DoKept (xs ++ [v]) := by
  cases xs with
  | nil => simp [DoKept]
  | cons x xs =>
    intro u hu hdo f hf
    rw [cons_append, tail_cons, mem_append, mem_singleton] at hu
    rcases hu with hu | rfl
    · exact h u hu hdo f hf
    · exact hv hdo (cons_ne_nil _ _) f hf

namespace Cursor

/-- The lines of the cursor, finished and current, keep their `do`s. -/
def KeepsDo (c : Cursor) : Prop := DoKept c.current.reverse ∧ ∀ l ∈ c.done, DoKept l.tokens

theorem doKept_closeLine {cur : List Token} {done : List Line} (hcur : DoKept cur.reverse)
    (hdone : ∀ l ∈ done, DoKept l.tokens) : ∀ l ∈ closeLine cur done, DoKept l.tokens := by
  cases cur with
  | nil => exact hdone
  | cons u cur =>
    obtain ⟨l, hl, htok⟩ := closeLine_cons u cur done
    rw [hl]
    intro l' hl'
    rcases mem_cons.1 hl' with rfl | hl'
    · rwa [htok]
    · exact hdone l' hl'

theorem placed_tag_of_doKw {c : Cursor} {t : Token} (h : (c.placed t).tag = .doKw) :
    t.tag = .doKw := by
  unfold placed at h
  split at h
  · simp at h
  · exact h

theorem keepsDo_push {c : Cursor} (h : c.KeepsDo) (t : Token) : (c.push t).KeepsDo := by
  unfold KeepsDo
  rw [current_push, done_push]
  by_cases hb : (!c.current.isEmpty && startsBefore c.current t) = true
  · rw [if_pos hb, if_pos hb]
    exact ⟨by simp [DoKept], doKept_closeLine h.1 h.2⟩
  · rw [if_neg hb, if_neg hb, reverse_cons]
    refine ⟨doKept_concat h.1 fun hdo hne f hf => ?_, h.2⟩
    -- a `do` that joins a line does not start one, so `for` or `while` opened it
    have hcur : c.current ≠ [] := by simpa using hne
    have hsb : startsBefore c.current t = false := by
      simpa [isEmpty_eq_false_iff.2 hcur] using hb
    rw [head?_reverse, Option.mem_def] at hf
    simp only [startsBefore, placed_tag_of_doKw hdo, hf, Option.map_some, Option.getD_some,
      Bool.or_eq_false_iff, Bool.and_eq_false_imp, beq_self_eq_true, Bool.not_eq_false',
      forall_const] at hsb
    exact hsb.1.2

theorem keepsDo_step {c : Cursor} (h : c.KeepsDo) (t : Token) (next : Tag) :
    (c.step t next).KeepsDo := by
  have hp := keepsDo_push h t
  unfold step
  split
  · exact ⟨by simp [cut, DoKept], doKept_closeLine hp.1 hp.2⟩
  · exact hp

theorem doKept_lines {c : Cursor} (h : c.KeepsDo) (ys : List Token) :
    ∀ l ∈ c.lines ys, DoKept l.tokens := by
  induction ys generalizing c with
  | nil =>
    rw [lines_nil]
    intro l hl
    exact doKept_closeLine h.1 h.2 l (mem_reverse.1 hl)
  | cons t ys ih =>
    rw [lines_cons]
    exact ih (keepsDo_step h t _)

end Cursor

/-- A `do` after the first token of its line stands on a line opened by `for` or `while`. -/
theorem first_of_doKw_mem_rest (ts : List Token) {l : Line} (hl : l ∈ (ofTokens ts).lines)
    {u : Token} (hu : u ∈ l.rest) (hdo : u.tag = .doKw) :
    l.first.tag = .forKw ∨ l.first.tag = .whileKw := by
  have hk := Cursor.doKept_lines (c := Cursor.start [])
    ⟨by simp [DoKept, Cursor.start], by simp [Cursor.start]⟩ ts l hl
    u hu hdo l.first rfl
  revert hk
  cases l.first.tag <;> simp [Tag.ownsDo]

/-- **Line boundaries.** For any token list `ts`:

* between the tokens at positions `i - 1` and `i`, a line starts exactly when the first ends a
  line (`then`, `else`, `end`, `repeat`, `do`, `break`, a blank run or a comment), closes a
  parameter list, or ends an expression before a word; or when the second always starts a line
  (`if`, `local`, `repeat`, `else`, `elseif`, `end`, `until`, `while`, `for`, `return`,
  `break`, a comment or a blank run), is a `do` while the line holding the first was not opened
  by `for` or `while`, or is a `function` after neither an opening bracket nor `local`;
* so every `else`, `end`, `repeat`, `break`, comment and blank run is a line by itself;
* and a `do` stays on a line only when `for` or `while` opened it. -/
theorem lineStarts_iff_boundary_rules (ts : List Token) :
    (∀ i (_ : 0 < i) (hi : i < ts.length),
      i ∈ lineStarts (ofTokens ts).lines 0 ↔
        (ts[i - 1].tag.endsLine = true ∨ closesParametersAt ts (i - 1) = true ∨
          ts[i - 1].tag.breaksStatement ts[i].tag = true) ∨
        (ts[i].tag.startsLine = true ∨
          (ts[i].tag = .doKw ∧
            ∃ l, lineAt (ofTokens ts).lines (i - 1) = some l ∧ l.first.tag.ownsDo = false) ∨
          (ts[i].tag = .functionKw ∧ ts[i - 1].tag.bindsFunction = false))) ∧
    (∀ l ∈ (ofTokens ts).lines, ∀ u ∈ l.tokens,
      u.tag ∈ [.elseKw, .endKw, .repeatKw, .breakKw, .comment, .blank] → l.tokens = [u]) ∧
    (∀ l ∈ (ofTokens ts).lines, ∀ u ∈ l.rest, u.tag = .doKw →
      l.first.tag = .forKw ∨ l.first.tag = .whileKw) := by
  refine ⟨fun i h0 hi => mem_lineStarts_ofTokens_iff ts h0 hi, fun l hl u hu htag => ?_,
    fun l hl u hu hdo => first_of_doKw_mem_rest ts hl hu hdo⟩
  obtain ⟨hs, he⟩ := startsLine_endsLine_of_mem htag
  exact tokens_eq_singleton_of_placed (placed_of_mem_ofTokens ts l hl) hu hs he

/-- The tokens of `for i = 1, 2 do x = 1 end`. -/
def forLoop : List Token :=
  [⟨.forKw, "for", 0⟩, ⟨.word, "i", 4⟩, ⟨.assign, "=", 6⟩, ⟨.number, "1", 8⟩,
    ⟨.separator, ",", 9⟩, ⟨.number, "2", 11⟩, ⟨.doKw, "do", 13⟩, ⟨.word, "x", 16⟩,
    ⟨.assign, "=", 18⟩, ⟨.number, "1", 20⟩, ⟨.endKw, "end", 22⟩]

/-- The `do` of a `for` loop stays on the loop's line. -/
theorem lineStarts_iff_boundary_rules_forLoop :
    0 < 6 ∧ 6 < forLoop.length ∧
    (6 ∈ lineStarts (ofTokens forLoop).lines 0 ↔
        (forLoop[6 - 1].tag.endsLine = true ∨ closesParametersAt forLoop (6 - 1) = true ∨
          forLoop[6 - 1].tag.breaksStatement forLoop[6].tag = true) ∨
        (forLoop[6].tag.startsLine = true ∨
          (forLoop[6].tag = .doKw ∧
            ∃ l, lineAt (ofTokens forLoop).lines (6 - 1) = some l ∧ l.first.tag.ownsDo = false) ∨
          (forLoop[6].tag = .functionKw ∧ forLoop[6 - 1].tag.bindsFunction = false))) :=
  ⟨by decide, by decide, (lineStarts_iff_boundary_rules forLoop).1 6 (by decide) (by decide)⟩

example : lineStarts (ofTokens forLoop).lines 0 = [0, 7, 10] := by decide

end LuaReflow.Document
