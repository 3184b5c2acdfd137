import LuaReflow.Proofs.Document.Boundary
import LuaReflow.Proofs.Layout.Lines

/-!
# Which `)` closes a parameter list

Line splitting retags a `)` as the close of a parameter list when the nearest stopper before
it (a `close`, a parameter-list close or `function`) is `function`. The walk reads the tokens
it has already retagged, not the input. A retag turns one stopper into another and never
makes or removes a `function`, so the walk finds the stopper the input has at that place:

* `closesParametersAt`, `reclassified` — the rule read off the input alone;
* `Cursor.reads_run` — a walk over tokens holds them reclassified, and knows whether their
  nearest stopper is `function`;
* **`lines_reclassify`** — the lines of any token list are non-empty, and read in order they
  are the input reclassified; with its directives removed, so is the directive stream of a list
  that holds no directive.
-/

namespace LuaReflow.Document

open List

/-- The tag of the nearest stopper among the tokens `ts`, looking back from their end. -/
def lastStopper? (ts : List Token) : Option Tag :=
  (ts.reverse.find? (·.tag.isStopper)).map (·.tag)

/-- Whether the token at position `i` of `ts` closes a function's parameter list: a `)` tagged
`close` whose nearest earlier stopper is `function`. -/
def closesParametersAt (ts : List Token) (i : Nat) : Bool :=
  match ts[i]? with
  | some t => t.tag == .closing && t.text == ")" && lastStopper? (ts.take i) == some .functionKw
  | none => false

/-- The tokens `ts` with each `)` that closes a parameter list retagged `close-parameters`. -/
def reclassified (ts : List Token) : List Token :=
  ts.mapIdx fun i t => if closesParametersAt ts i then t.retag .closeParameters else t

theorem lastStopper?_concat (ts : List Token) (t : Token) :
    lastStopper? (ts ++ [t]) = if t.tag.isStopper then some t.tag else lastStopper? ts := by
  unfold lastStopper?
  rw [reverse_concat, find?_cons]
  cases t.tag.isStopper <;> rfl

/-- Whether a token closes a parameter list is settled by the tokens up to it. -/
theorem closesParametersAt_append (ts us : List Token) {i : Nat} (hi : i < ts.length) :
    closesParametersAt (ts ++ us) i = closesParametersAt ts i := by
  unfold closesParametersAt
  rw [getElem?_append_left hi, take_append_of_le_length hi.le]

theorem closesParametersAt_concat (ts : List Token) (t : Token) :
    closesParametersAt (ts ++ [t]) ts.length =
      (t.tag == .closing && t.text == ")" && lastStopper? ts == some .functionKw) := by
  simp [closesParametersAt]

/-- Reclassifying one more token keeps what was reclassified before it. -/
theorem reclassified_concat (ts : List Token) (t : Token) :
    reclassified (ts ++ [t]) = reclassified ts ++
      [if closesParametersAt (ts ++ [t]) ts.length then t.retag .closeParameters else t] := by
  rw [reclassified, mapIdx_append, mapIdx_singleton, Nat.zero_add, reclassified]
  congr 1
  refine mapIdx_eq_mapIdx_iff.2 fun i hi => ?_
  rw [closesParametersAt_append ts [t] hi]

@[simp] theorem length_reclassified (ts : List Token) : (reclassified ts).length = ts.length :=
  length_mapIdx

/-! ### What one step of the walk adds -/

namespace Cursor

theorem pending_push (c : Cursor) (t : Token) :
    pending (c.push t).current (c.push t).done = pending c.current c.done ++ [c.placed t] := by
  simp only [push]
  split
  · rw [pending_cons, pending_closeLine]
  · exact pending_cons _ _ _

theorem pending_cut (c : Cursor) : pending c.cut.current c.cut.done = pending c.current c.done :=
  pending_closeLine c.current c.done

/-- One step adds the token, as the walk keeps it, to what the cursor holds. -/
theorem pending_step (c : Cursor) (t : Token) (next : Tag) :
    pending (c.step t next).current (c.step t next).done =
      pending c.current c.done ++ [c.placed t] := by
  unfold step
  split
  · rw [pending_cut, pending_push]
  · exact pending_push c t

theorem afterFunction_step (c : Cursor) (t : Token) (next : Tag) :
    (c.step t next).afterFunction =
      if (c.placed t).tag.isStopper then (c.placed t).tag == .functionKw else c.afterFunction := by
  unfold step
  split <;> rfl

/-- A retag keeps a token a stopper or not, and keeps it `function` or not. -/
theorem placed_isStopper (c : Cursor) (t : Token) :
    (c.placed t).tag.isStopper = t.tag.isStopper ∧
      ((c.placed t).tag == .functionKw) = (t.tag == .functionKw) := by
  unfold placed
  split
  · rename_i h
    simp only [Bool.and_eq_true, beq_iff_eq] at h
    simp [h.1.1, Tag.isStopper]
  · exact ⟨rfl, rfl⟩

/-! ### The walk reads the input -/

/-- The cursor has read the tokens `pre`: it holds them reclassified, and it knows whether their
nearest stopper is `function`. -/
structure Reads (pre : List Token) (c : Cursor) : Prop where
  pending_eq : pending c.current c.done = reclassified pre
  afterFunction_eq : c.afterFunction = (lastStopper? pre == some .functionKw)

theorem reads_start : Reads [] (start []) := ⟨rfl, rfl⟩

section Reads

variable {pre : List Token} {c : Cursor} (h : Reads pre c)
include h

/-- A cursor that has read `pre` keeps the next token `t` as the input rule says. -/
theorem placed_of_reads (t : Token) :
    c.placed t =
      if closesParametersAt (pre ++ [t]) pre.length then t.retag .closeParameters else t := by
  rw [placed, closesParametersAt_concat, h.afterFunction_eq]

theorem reads_step (t : Token) (next : Tag) : Reads (pre ++ [t]) (c.step t next) := by
  constructor
  · rw [pending_step, h.pending_eq, reclassified_concat, placed_of_reads h]
  · -- the nearest stopper moves to `t` exactly when `t` is one, retagged or not
    obtain ⟨hstop, hfun⟩ := placed_isStopper c t
    rw [afterFunction_step, hstop, hfun, lastStopper?_concat, h.afterFunction_eq]
    cases t.tag.isStopper
    · rfl
    · simp

end Reads

/-- **The walk reads the input.** After the tokens `xs`, a cursor that had read `pre` has read
`pre ++ xs`. -/
theorem reads_run {pre : List Token} {c : Cursor} (h : Reads pre c) (next : Tag)
    (xs : List Token) : Reads (pre ++ xs) (c.run next xs) := by
  induction xs generalizing pre c with
  | nil => rwa [append_nil]
  | cons t xs ih =>
    have hrun := ih (reads_step h t (nextTag xs next))
    rw [append_assoc, singleton_append] at hrun
    exact hrun

/-- With no tokens left, the lines cut from a cursor are what it holds. -/
theorem flatMap_lines_nil (c : Cursor) :
    (c.lines []).flatMap Line.tokens = pending c.current c.done := by
  rw [lines_nil, ← pending_closeLine]
  simp [pending]

end Cursor

/-- The lines of a token list are those left after walking over all of it. -/
theorem ofTokens_lines_eq_run (ts : List Token) :
    (ofTokens ts).lines = ((Cursor.start []).run .finish ts).lines [] := by
  have h := Cursor.lines_append (Cursor.start []) ts []
  rw [append_nil] at h
  exact h

/-- Read in order, the tokens of the lines are the input reclassified. -/
theorem flatMap_lines_ofTokens (ts : List Token) :
    (ofTokens ts).lines.flatMap Line.tokens = reclassified ts := by
  have h := Cursor.reads_run Cursor.reads_start .finish ts
  rw [nil_append] at h
  rw [ofTokens_lines_eq_run, Cursor.flatMap_lines_nil, h.pending_eq]

/-- The directives of a line, with the directives removed, are its tokens, when none of them is
a directive. -/
theorem filter_lineDirectives (l : Line) (hl : ∀ u ∈ l.tokens, u.tag.isDirective = false) :
    (lineDirectives l).filter (fun u => !u.isDirective) = l.tokens := by
  have htok : l.tokens.filter (fun u => !u.isDirective) = l.tokens :=
    filter_eq_self.2 fun u hu => by simp [Token.isDirective, hl u hu]
  unfold lineDirectives
  rw [filter_append, filter_append, filter_cons, htok]
  cases l.dedentBefore <;> cases l.indentAfter <;>
    simp [Token.isDirective, Token.synthetic, Tag.isDirective]

/-- **Reclassification.** The lines of any token list are non-empty, and read in order they are
the input with exactly the `)`s that close a parameter list retagged `close-parameters`: a `)`
tagged `close` whose nearest earlier stopper in the input is `function`. Nothing else is
dropped, added, moved or changed. For a list that holds no directive, the directive stream with
its directives removed is that same list. -/
theorem lines_reclassify (ts : List Token) :
    (∀ l ∈ (ofTokens ts).lines, l.tokens ≠ []) ∧
    (ofTokens ts).lines.flatMap Line.tokens = reclassified ts ∧
    ((∀ t ∈ ts, t.tag.isDirective = false) →
      (segment ts).filter (fun u => !u.isDirective) = reclassified ts) := by
  refine ⟨fun l _ => cons_ne_nil _ _, flatMap_lines_ofTokens ts, fun h => ?_⟩
  rw [segment, directives, filter_flatMap, ← flatMap_lines_ofTokens]
  exact flatMap_congr fun l hl => filter_lineDirectives l (lines_undirected h l hl)

/-- The tokens of `call(function(a) f(b) end)`. -/
def anonymousCall : List Token :=
  [⟨.word, "call", 0⟩, ⟨.opening, "(", 4⟩, ⟨.functionKw, "function", 5⟩, ⟨.opening, "(", 13⟩,
    ⟨.word, "a", 14⟩, ⟨.closing, ")", 15⟩, ⟨.word, "f", 17⟩, ⟨.opening, "(", 18⟩,
    ⟨.word, "b", 19⟩, ⟨.closing, ")", 20⟩, ⟨.endKw, "end", 22⟩, ⟨.closing, ")", 25⟩]

theorem lines_reclassify_anonymousCall :
    (∀ t ∈ anonymousCall, t.tag.isDirective = false) ∧
      (segment anonymousCall).filter (fun u => !u.isDirective) = reclassified anonymousCall :=
  ⟨by decide, (lines_reclassify anonymousCall).2.2 (by decide)⟩

/-- Only the `)` after the parameters is retagged: the call's `)` finds that one first. -/
example : (reclassified anonymousCall).map (·.tag) =
    [.word, .opening, .functionKw, .opening, .word, .closeParameters, .word, .opening, .word,
      .closing, .endKw, .closing] := by decide

end LuaReflow.Document
