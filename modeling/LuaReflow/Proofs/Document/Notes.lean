import Mathlib.Algebra.Ring.Int.Defs
import LuaReflow.Proofs.Document.Boundary
import LuaReflow.Proofs.Reflow.Rescan

/-!
# Comments and blank lines between tokens

A comment and a blank-line token, the *notes*, always stand on a line of their own. Put between
the tokens of a list, they cut the line they land in, and what follows them starts a fresh line:
a `do` that stayed on the line of its `for` or `while`, or a `function` that stayed after a
`local` or an opening bracket, then opens a line itself, and that line indents. So notes can push
code to the right, but never to the left.

* `Document.splitFrom_diverge` — two walks over the same tokens, one of which has already cut
  off the older part of its current line, agree from the first line the other one ends on; up to
  there, the first walk's lines are pieces of the other's line (`Document.Diverged`).
* `Document.Refines` — lines cut further, with note lines between them; `refines_insert`: the
  lines of a token list with one note put in refine its lines.
* `Document.Refines.depths` — along a refinement no line is written shallower: a layout that
  never went below depth zero still does not, every token is written at least as deep
  (`Deepened`), and the depth after the last line does not drop.
* `Document.layout_noted` — the same for any notes put between the tokens of a list, the other
  tokens relaid alike (`Noted`), and **`Document.reflow_noted`** for the reflow of a source.
-/

namespace LuaReflow

open List

/-- A note: a comment or a blank-line token, which stands on a line of its own. -/
def Token.IsNote (u : Token) : Prop := u.tag = .comment ∨ u.tag = .blank

theorem Token.IsNote.of_tag_eq {u u' : Token} (hu : u.IsNote) (h : u'.tag = u.tag) : u'.IsNote := by
  rw [Token.IsNote, h]
  exact hu

theorem Tag.startsLine_of_closesBlock {t : Tag} (h : t.closesBlock = true) :
    t.startsLine = true := by
  cases t <;> simp_all [Tag.closesBlock, Tag.startsLine]

/-- A line whose first token does not start lines does not dedent: every token that closes a
block starts a line. -/
theorem Line.dedentBefore_eq_false {l : Line} (h : l.first.tag.startsLine = false) :
    l.dedentBefore = false :=
  Bool.eq_false_iff.2 fun hc => by
    rw [Tag.startsLine_of_closesBlock hc] at h
    cases h

theorem Line.ext_tokens {l l' : Line} (h : l.tokens = l'.tokens) : l = l' := by
  rcases l with ⟨a, as⟩
  rcases l' with ⟨b, bs⟩
  simp only [Line.tokens, cons.injEq] at h
  rw [h.1, h.2]

theorem Line.getLast?_tokens (l : Line) : l.tokens.getLast? = some l.last := by
  simp [Line.tokens, Line.last, getLast?_cons]

theorem LaysOutAlike.refl (t : Token) : LaysOutAlike t t := ⟨rfl, rfl, fun _ => rfl⟩

namespace Document

/-! ### One note -/

section Note

variable {u : Token} (hu : u.IsNote)
include hu

theorem startsLine_of_isNote : u.tag.startsLine = true := by
  rcases hu with h | h <;> rw [h] <;> rfl

/-- A note is a line of its own: it closes the current line, and the walk goes on after it with
an empty line and the same `function` flag. -/
theorem splitFrom_note (af : Bool) (cur : List Token) (done : List Line) (ts : List Token) :
    splitFrom af cur done (u :: ts) = splitFrom af [] (⟨u, []⟩ :: closeLine cur done) ts := by
  rw [splitFrom_of_startsBefore (by simp [startsBefore, startsLine_of_isNote hu]), splitFrom_cons]
  rcases hu with h | h <;> simp [h, Tag.isStopper, Tag.endsLine, closeLine, Line.ofList?]

end Note

theorem closeLine_append (cur : List Token) (done : List Line) :
    closeLine cur done = closeLine cur [] ++ done := by
  unfold closeLine
  split <;> rfl

/-- The lines finished before a walk come first, whatever the walk does after them. -/
theorem splitFrom_done (af : Bool) (cur : List Token) (done : List Line) (ts : List Token) :
    splitFrom af cur done ts = done.reverse ++ splitFrom af cur [] ts := by
  induction ts generalizing af cur done with
  | nil => rw [splitFrom, splitFrom, closeLine_append, reverse_append]
  | cons t ts ih =>
    rw [splitFrom_cons, splitFrom_cons]
    dsimp only
    generalize (if (t.tag == .closing && t.text == ")" && af) = true then
      t.retag .closeParameters else t) = u
    generalize (if u.tag.isStopper = true then u.tag == .functionKw else af) = af'
    by_cases hcut : (!cur.isEmpty && startsBefore cur t) = true
    · simp only [hcut, if_true]
      split
      · rw [ih af' [] (closeLine [u] (closeLine cur done)),
          ih af' [] (closeLine [u] (closeLine cur [])), closeLine_append [u] (closeLine cur done),
          closeLine_append [u] (closeLine cur []), closeLine_append cur done]
        simp
      · rw [ih af' [u] (closeLine cur done), ih af' [u] (closeLine cur []),
          closeLine_append cur done]
        simp
    · simp only [hcut, Bool.false_eq_true, if_false]
      split
      · rw [ih af' [] (closeLine (u :: cur) done), ih af' [] (closeLine (u :: cur) []),
          closeLine_append (u :: cur) done]
        simp
      · rw [ih af' (u :: cur) done]

/-! ### Two walks, one of which cut its line early -/

theorem flatMap_tokens_closeLine (cur : List Token) :
    (closeLine cur []).reverse.flatMap Line.tokens = cur.reverse := by
  simpa [pending] using pending_closeLine cur []

/-- The line closed from the tokens `cur` starts with the oldest of them. -/
theorem startsLine_of_mem_closeLine {cur : List Token}
    (hlast : ∀ v ∈ cur.getLast?, v.tag.startsLine = false) :
    ∀ f ∈ (closeLine cur []).reverse, f.first.tag.startsLine = false := by
  intro f hf
  rw [mem_reverse, closeLine] at hf
  split at hf
  · rename_i l hl
    rw [mem_singleton] at hf
    subst hf
    -- the line's first token is the first of the reversed tokens, the oldest one
    cases hrev : cur.reverse with
    | nil => rw [hrev] at hl; cases hl
    | cons v vs =>
      rw [hrev, Line.ofList?, Option.some.injEq] at hl
      rw [← hl]
      apply hlast
      rw [← head?_reverse, hrev]
      rfl
  · cases hf

/-- The line of the tokens `cur ++ old`, with `old` not empty. -/
theorem closeLine_append_old (cur : List Token) {old : List Token} (hold : old ≠ []) :
    ∃ L, closeLine (cur ++ old) [] = [L] ∧ L.tokens = old.reverse ++ cur.reverse := by
  obtain ⟨u, us, hu⟩ : ∃ u us, cur ++ old = u :: us :=
    exists_cons_of_ne_nil (by simp [hold])
  obtain ⟨L, hL, htok⟩ := closeLine_cons u us []
  refine ⟨L, by rw [hu, hL], ?_⟩
  rw [htok, ← hu, reverse_append]

/-- A walk that starts a new line before `t`, or holds no line, cuts its line before `t`. -/
theorem splitFrom_cut_before {af : Bool} {cur : List Token} {t : Token}
    (h : startsBefore cur t = true ∨ cur = []) (ts : List Token) :
    splitFrom af cur [] (t :: ts) = (closeLine cur []).reverse ++ splitFrom af [] [] (t :: ts) := by
  rcases h with h | rfl
  · rw [splitFrom_of_startsBefore h, splitFrom_done]
  · rfl

theorem Tag.ownsDo_eq_false {t : Tag} (h : t.startsLine = false) : t.ownsDo = false := by
  cases t <;> simp_all [Tag.startsLine, Tag.ownsDo]

/-- Where a walk with the older tokens `old` on its line starts a new line, a walk that has cut
them off starts one too: its line is not opened by `for` or `while`, since its oldest token does
not start lines, and its latest token is the same. -/
theorem startsBefore_of_append {cur old : List Token} {t : Token} (hcur : cur ≠ [])
    (hlast : ∀ v ∈ cur.getLast?, v.tag.startsLine = false)
    (h : startsBefore (cur ++ old) t = true) : startsBefore cur t = true := by
  obtain ⟨v, hv⟩ := Option.ne_none_iff_exists'.1 (mt getLast?_eq_none_iff.1 hcur)
  have hown : v.tag.ownsDo = false := Tag.ownsDo_eq_false (hlast v hv)
  have hhead : (cur ++ old).head? = cur.head? := head?_append_of_ne_nil _ hcur
  simp only [startsBefore, hhead, Bool.or_eq_true, Bool.and_eq_true, beq_iff_eq,
    Bool.not_eq_true'] at h
  simp only [startsBefore, hv, Option.map_some, Option.getD_some, hown, Bool.not_false,
    Bool.and_true, Bool.or_eq_true, Bool.and_eq_true, beq_iff_eq, Bool.not_eq_true']
  tauto

/-- The lines `P` of one walk and `P'` of another have diverged by the tokens `old`: `P` starts
with a line that holds `old` and then the pieces `frags` that `P'` starts with, none of which
starts with a token that starts lines, and from there on both are the same lines. -/
def Diverged (old : List Token) (P P' : List Line) : Prop :=
  ∃ L rest frags, P = L :: rest ∧ P' = frags ++ rest ∧
    L.tokens = old.reverse ++ frags.flatMap Line.tokens ∧
    ∀ f ∈ frags, f.first.tag.startsLine = false

/-- Two walks that close their lines at the same token, one line holding `old` more than the
other, have diverged by `old`. -/
theorem diverged_closeLine {cur old : List Token} (hold : old ≠ [])
    (hlast : ∀ v ∈ cur.getLast?, v.tag.startsLine = false) (rest : List Line) :
    Diverged old ((closeLine (cur ++ old) []).reverse ++ rest)
      ((closeLine cur []).reverse ++ rest) := by
  obtain ⟨L, hL, htok⟩ := closeLine_append_old cur hold
  refine ⟨L, rest, (closeLine cur []).reverse, by rw [hL]; rfl, rfl, ?_,
    startsLine_of_mem_closeLine hlast⟩
  rw [htok, flatMap_tokens_closeLine]

/-- A walk that has closed the tokens `cur` of the line as well: the line closed from them is
one more piece. -/
theorem Diverged.closeLine_append {cur old : List Token} {P P' : List Line}
    (h : Diverged (cur ++ old) P P') (hlast : ∀ v ∈ cur.getLast?, v.tag.startsLine = false) :
    Diverged old P ((closeLine cur []).reverse ++ P') := by
  obtain ⟨L, rest, frags, rfl, rfl, htok, hfrags⟩ := h
  refine ⟨L, rest, (closeLine cur []).reverse ++ frags, rfl, by rw [append_assoc], ?_, ?_⟩
  · rw [htok, flatMap_append, flatMap_tokens_closeLine, reverse_append, append_assoc]
  · intro f hf
    rcases mem_append.1 hf with hf | hf
    · exact startsLine_of_mem_closeLine hlast f hf
    · exact hfrags f hf

/-- One step of two walks that both keep their line before `t`: they retag `t` alike and end
their lines after it alike. -/
theorem diverge_step {t : Token} {ts : List Token}
    (ih : ∀ (af : Bool) (cur old : List Token), old ≠ [] →
      (∀ v ∈ cur.getLast?, v.tag.startsLine = false) →
      Diverged old (splitFrom af (cur ++ old) [] ts) (splitFrom af cur [] ts))
    (af : Bool) {cur old : List Token} (hold : old ≠ [])
    (hlast : ∀ v ∈ cur.getLast?, v.tag.startsLine = false)
    (hkeep : startsBefore (cur ++ old) t = false)
    (hkeep' : (!cur.isEmpty && startsBefore cur t) = false) :
    Diverged old (splitFrom af (cur ++ old) [] (t :: ts)) (splitFrom af cur [] (t :: ts)) := by
  have ht : t.tag.startsLine = false := by
    simp only [startsBefore, Bool.or_eq_false_iff] at hkeep
    exact hkeep.1.1
  have hne : (cur ++ old).isEmpty = false := by simp [hold]
  rw [splitFrom_cons, splitFrom_cons]
  simp only [hne, Bool.not_false, hkeep, Bool.and_false, hkeep', Bool.false_eq_true, if_false]
  -- the retagged token does not start lines either
  have hu : (if (t.tag == .closing && t.text == ")" && af) = true then
      t.retag .closeParameters else t).tag.startsLine = false := by
    split
    · rfl
    · exact ht
  generalize (if (t.tag == .closing && t.text == ")" && af) = true then
    t.retag .closeParameters else t) = u at hu ⊢
  generalize (if u.tag.isStopper = true then u.tag == .functionKw else af) = af'
  have hlast' : ∀ v ∈ (u :: cur).getLast?, v.tag.startsLine = false := by
    intro v hv
    rw [getLast?_cons, Option.mem_some_iff] at hv
    cases hc : cur.getLast? with
    | none => rw [hc, Option.getD_none] at hv; rw [← hv]; exact hu
    | some w => rw [hc, Option.getD_some] at hv; rw [← hv]; exact hlast w hc
  rw [← cons_append]
  split
  · -- both walks end their line after the token
    rw [splitFrom_done af' [] (closeLine (u :: cur ++ old) []),
      splitFrom_done af' [] (closeLine (u :: cur) [])]
    exact diverged_closeLine hold hlast' _
  · exact ih af' (u :: cur) old hold hlast'

/-- **Two walks that differ only in the older part of the current line.** One walk holds the
tokens `cur ++ old` on its current line, latest first, and the other only `cur`: it has cut
`old` off already. Over the same tokens, the first walk's first line is `old` followed by the
lines the second walk cuts up to there, and from there on both cut the same lines. None of
those pieces starts with a token that starts lines. -/
theorem splitFrom_diverge (post : List Token) :
    ∀ (af : Bool) (cur old : List Token), old ≠ [] →
      (∀ v ∈ cur.getLast?, v.tag.startsLine = false) →
      Diverged old (splitFrom af (cur ++ old) [] post) (splitFrom af cur [] post) := by
  induction post with
  | nil =>
    intro af cur old hold hlast
    rw [splitFrom, splitFrom]
    simpa only [append_nil] using diverged_closeLine hold hlast []
  | cons t ts ih =>
    intro af cur old hold hlast
    by_cases hsb : startsBefore (cur ++ old) t = true
    · -- the first walk ends its line before `t`, and so does the second
      have hcut : startsBefore cur t = true ∨ cur = [] := by
        by_cases hcur : cur = []
        · exact .inr hcur
        · exact .inl (startsBefore_of_append hcur hlast hsb)
      rw [splitFrom_cut_before (.inl hsb), splitFrom_cut_before hcut]
      exact diverged_closeLine hold hlast _
    · rw [Bool.not_eq_true] at hsb
      by_cases hearly : (!cur.isEmpty && startsBefore cur t) = true
      · -- only the second walk cuts its line before `t`: it then holds no line at all
        simp only [Bool.and_eq_true, Bool.not_eq_true', List.isEmpty_eq_false_iff] at hearly
        rw [splitFrom_cut_before (.inl hearly.2)]
        exact (@diverge_step t ts ih af [] (cur ++ old) (by simp [hold]) (by simp) hsb rfl
          ).closeLine_append hlast
      · exact diverge_step ih af hold hlast hsb (by simpa using hearly)

/-! ### Lines cut further -/

/-- `ls'` is the lines `ls` with each line cut into consecutive pieces, and lines of one note put
between any of them. A line is kept whole, or a first piece `f` is cut off it and the rest `g`,
which does not start with a token that starts lines, is cut further. -/
inductive Refines : List Line → List Line → Prop
  | nil : Refines [] []
  | note {ls ls' : List Line} {u : Token} (hu : u.IsNote) (h : Refines ls ls') :
      Refines ls (⟨u, []⟩ :: ls')
  | keep {ls ls' : List Line} (l : Line) (h : Refines ls ls') : Refines (l :: ls) (l :: ls')
  | cut {ls ls' : List Line} {l f g : Line} (hl : l.tokens = f.tokens ++ g.tokens)
      (hg : g.first.tag.startsLine = false) (h : Refines (g :: ls) ls') :
      Refines (l :: ls) (f :: ls')

namespace Refines

theorem refl : ∀ ls : List Line, Refines ls ls
  | [] => .nil
  | l :: ls => .keep l (refl ls)

theorem append_left (A : List Line) {ls ls' : List Line} (h : Refines ls ls') :
    Refines (A ++ ls) (A ++ ls') := by
  induction A with
  | nil => exact h
  | cons l A ih => exact .keep l ih

/-- A line made of the tokens of some lines, none of which starts with a token that starts
lines but perhaps the first, is cut into them. -/
theorem pieces {G : Line} {f : Line} {frags : List Line}
    (htok : G.tokens = (f :: frags).flatMap Line.tokens)
    (hfrags : ∀ g ∈ frags, g.first.tag.startsLine = false) {rest rest' : List Line}
    (h : Refines rest rest') : Refines (G :: rest) (f :: frags ++ rest') := by
  induction frags generalizing G f with
  | nil =>
    rw [flatMap_singleton] at htok
    rw [Line.ext_tokens htok]
    exact .keep f h
  | cons g frags ih =>
    -- the rest of `G` after `f` is a line that starts with `g`
    let G' : Line := ⟨g.first, g.rest ++ frags.flatMap Line.tokens⟩
    have htok' : G'.tokens = (g :: frags).flatMap Line.tokens := by
      simp [G', Line.tokens]
    have hcut : G.tokens = f.tokens ++ G'.tokens := by
      rw [htok, htok', flatMap_cons]
    exact .cut hcut (hfrags g mem_cons_self)
      (ih htok' fun g' hg' => hfrags g' (mem_cons_of_mem _ hg'))

/-- A line `L` whose tokens are those of `F` and then of some pieces is refined by `F`, a note,
and the pieces. -/
theorem note_between {L F : Line} {frags : List Line} {u : Token} (hu : u.IsNote)
    (htok : L.tokens = F.tokens ++ frags.flatMap Line.tokens)
    (hfrags : ∀ g ∈ frags, g.first.tag.startsLine = false) (rest : List Line) :
    Refines (L :: rest) (F :: ⟨u, []⟩ :: frags ++ rest) := by
  cases frags with
  | nil =>
    rw [flatMap_nil, append_nil] at htok
    rw [Line.ext_tokens htok]
    exact .keep F (.note hu (refl rest))
  | cons g frags =>
    let G : Line := ⟨g.first, g.rest ++ frags.flatMap Line.tokens⟩
    have hG : G.tokens = (g :: frags).flatMap Line.tokens := by simp [G, Line.tokens]
    refine .cut (g := G) (by rw [htok, hG]) (hfrags g mem_cons_self) (.note hu ?_)
    exact pieces hG (fun g' hg' => hfrags g' (mem_cons_of_mem _ hg')) (refl rest)

end Refines

/-- **One note cuts lines further.** The lines of a token list with a note put in refine the
lines of the list. -/
theorem refines_insert (pre post : List Token) {u : Token} (hu : u.IsNote) :
    Refines (ofTokens (pre ++ post)).lines (ofTokens (pre ++ u :: post)).lines := by
  have hword : u.tag ≠ .word := by rcases hu with h | h <;> rw [h] <;> decide
  have hP := Cursor.lines_append (Cursor.start []) pre post
  have hP' := Cursor.lines_append (Cursor.start []) pre (u :: post)
  rw [Cursor.nextTag, head?_cons, Option.map_some, Option.getD_some,
    Cursor.run_next_ne_word _ hword] at hP'
  change (ofTokens (pre ++ post)).lines = _ at hP
  change (ofTokens (pre ++ u :: post)).lines = _ at hP'
  rw [hP, hP']
  -- the walk over `pre`, and the same walk with its line cut
  generalize hc : (Cursor.start []).run .finish pre = c
  obtain ⟨af, cur, done⟩ := c
  have hnote : Cursor.lines ⟨af, cur, done⟩ (u :: post) =
      (closeLine cur done).reverse ++ ⟨u, []⟩ :: splitFrom af [] [] post := by
    rw [Cursor.lines, splitFrom_note hu, splitFrom_done, reverse_cons, append_assoc]
    rfl
  rw [hnote]
  -- with no line open before the note, the note only comes in between
  have hopen : Refines (splitFrom af [] (closeLine cur done) post)
      ((closeLine cur done).reverse ++ ⟨u, []⟩ :: splitFrom af [] [] post) := by
    rw [splitFrom_done]
    exact Refines.append_left _ (.note hu (.refl _))
  have hcases : (Cursor.start []).run (Cursor.nextTag post .finish) pre = ⟨af, cur, done⟩ ∨
      (Cursor.start []).run (Cursor.nextTag post .finish) pre = ⟨af, [], closeLine cur done⟩ := by
    by_cases hn : Cursor.nextTag post .finish = .word
    · rw [hn]
      rcases Cursor.run_word (Cursor.start []) pre with h | h
      · exact .inl (h.trans hc)
      · exact .inr (by rw [h, hc]; rfl)
    · exact .inl ((Cursor.run_next_ne_word _ hn pre).trans hc)
  rcases hcases with h | h
  · rw [h]
    cases cur with
    | nil => exact hopen
    | cons v vs =>
      -- the note cuts the open line, which the walk without it goes on with
      obtain ⟨L, rest, frags, hL, hfrags, htok, hstart⟩ :=
        splitFrom_diverge post af [] (v :: vs) (cons_ne_nil _ _) (by simp)
      obtain ⟨F, hF, hFtok⟩ := closeLine_cons v vs done
      have hL' : splitFrom af (v :: vs) [] post = L :: rest := hL
      show Refines (splitFrom af (v :: vs) done post) _
      rw [splitFrom_done, hL', hF, hfrags, reverse_cons, append_assoc, singleton_append]
      refine Refines.append_left _ (Refines.note_between hu ?_ hstart rest)
      rw [htok, hFtok]
  · rw [h]
    exact hopen

/-! ### Depths along a refinement -/

/-- A note line neither dedents nor indents. -/
theorem note_flags {u : Token} (hu : u.IsNote) :
    (Line.mk u []).dedentBefore = false ∧ (Line.mk u []).indentAfter = false := by
  rcases hu with h | h <;> simp [Line.dedentBefore, Line.indentAfter, Line.last, h,
    Tag.closesBlock, Tag.opensBlock]

/-- Starting deeper never writes a line below depth zero where starting shallower did not. -/
theorem writtenDepths_nonneg_of_le {ls : List Line} :
    ∀ {d d₂ : Int}, d ≤ d₂ → (∀ e ∈ writtenDepths d ls, 0 ≤ e) →
      ∀ e ∈ writtenDepths d₂ ls, 0 ≤ e := by
  induction ls with
  | nil => simp [writtenDepths]
  | cons l ls ih =>
    intro d d₂ hle hnn
    simp only [writtenDepths, mem_cons, forall_eq_or_imp] at hnn ⊢
    exact ⟨by omega, ih (by omega) hnn.2⟩

section Cut

variable {l f g : Line} (hl : l.tokens = f.tokens ++ g.tokens)
include hl

theorem first_of_cut : l.first = f.first := by
  simpa [Line.tokens] using congrArg head? hl

theorem dedentBefore_of_cut : l.dedentBefore = f.dedentBefore := by
  rw [Line.dedentBefore, Line.dedentBefore, first_of_cut hl]

theorem last_of_cut : l.last = g.last := by
  have h := congrArg getLast? hl
  rwa [getLast?_append_of_ne_nil _ (by simp [Line.tokens]), Line.getLast?_tokens,
    Line.getLast?_tokens, Option.some.injEq] at h

/-- A line cut in two indents no more than its first piece's first token opens a block plus the
second piece indents: the closing parameter bracket that ends it ends the second piece. -/
theorem indent_le_of_cut :
    (if l.indentAfter then 1 else 0 : Int) ≤
      (if f.first.tag.opensBlock then 1 else 0) + (if g.indentAfter then 1 else 0) := by
  rw [Line.indentAfter, Line.indentAfter, first_of_cut hl, last_of_cut hl]
  cases f.first.tag.opensBlock <;> cases g.first.tag.opensBlock <;>
    cases g.last.tag == .closeParameters <;> decide

end Cut

theorem opens_le_indent (f : Line) :
    (if f.first.tag.opensBlock then 1 else 0 : Int) ≤ if f.indentAfter then 1 else 0 := by
  rw [Line.indentAfter]
  cases f.first.tag.opensBlock <;> cases f.last.tag == .closeParameters <;> decide

/-- Each token of the lines `ls` laid out from depth `d`, with the depth its line is written at. -/
def writtenTokens (d : Int) : List Line → List (Token × Int)
  | [] => []
  | l :: ls =>
    let e := d - if l.dedentBefore then 1 else 0
    l.tokens.map (·, e) ++ writtenTokens (e + if l.indentAfter then 1 else 0) ls

/-- Each token is paired with the depth `linesText` writes its line at. -/
theorem writtenTokens_eq_zip (d : Int) (ls : List Line) :
    writtenTokens d ls =
      (ls.zip (writtenDepths d ls)).flatMap fun p => p.1.tokens.map (·, p.2) := by
  induction ls generalizing d with
  | nil => rfl
  | cons l ls ih => rw [writtenTokens, writtenDepths, zip_cons_cons, flatMap_cons, ih]

/-- `qs` is `ps` with notes put in, each other token related by `R` to the token it stands for
and written at least as deep. -/
inductive Deepened (R : Token → Token → Prop) : List (Token × Int) → List (Token × Int) → Prop
  | nil : Deepened R [] []
  | note {ps qs : List (Token × Int)} {u : Token} (e : Int) (hu : u.IsNote)
      (h : Deepened R ps qs) : Deepened R ps ((u, e) :: qs)
  | keep {ps qs : List (Token × Int)} {t t' : Token} {e e' : Int} (ht : R t t') (he : e ≤ e')
      (h : Deepened R ps qs) : Deepened R ((t, e) :: ps) ((t', e') :: qs)

namespace Deepened

theorem append_map (ts : List Token) {e e' : Int} (he : e ≤ e') {ps qs : List (Token × Int)}
    (h : Deepened Eq ps qs) : Deepened Eq (ts.map (·, e) ++ ps) (ts.map (·, e') ++ qs) := by
  induction ts with
  | nil => exact h
  | cons t ts ih => exact .keep rfl he ih

theorem trans {ps qs rs : List (Token × Int)} (h₁ : Deepened Eq ps qs) (h₂ : Deepened Eq qs rs) :
    Deepened Eq ps rs := by
  induction h₂ generalizing ps with
  | nil =>
    cases h₁
    exact .nil
  | note e hu _ ih => exact .note e hu (ih h₁)
  | keep ht he _ ih =>
    subst ht
    -- the token the second list keeps was kept or put in by the first
    cases h₁ with
    | note _ hu h₁ => exact .note _ hu (ih h₁)
    | keep ht' he' h₁ => exact .keep ht' (Int.le_trans he' he) (ih h₁)

end Deepened

/-- Laid out from a deeper start, every token is written deeper. -/
theorem writtenTokens_le (ls : List Line) :
    ∀ {d d₂ : Int}, d ≤ d₂ → Deepened Eq (writtenTokens d ls) (writtenTokens d₂ ls) := by
  induction ls with
  | nil =>
    intro _ _ _
    exact .nil
  | cons l ls ih =>
    intro d d₂ hle
    exact Deepened.append_map l.tokens (by omega) (ih (by omega))

/-- **Refining never writes a line shallower.** When the lines `ls`, laid out from depth `d`,
never go below depth zero, their refinement laid out from any deeper `d'` does not either,
writes every token of `ls` at least as deep, and leaves at least the depth `ls` leaves. -/
theorem Refines.depths {ls ls' : List Line} (h : Refines ls ls') :
    ∀ {d d' : Int}, d ≤ d' → 0 ≤ d → (∀ e ∈ writtenDepths d ls, 0 ≤ e) →
      (∀ e ∈ writtenDepths d' ls', 0 ≤ e) ∧
        d + (ls.map Line.delta).sum ≤ d' + (ls'.map Line.delta).sum ∧
        Deepened Eq (writtenTokens d ls) (writtenTokens d' ls') := by
  induction h with
  | nil =>
    intro d d' hle _ _
    exact ⟨by simp [writtenDepths], by simpa using hle, .nil⟩
  | note hu _ ih =>
    intro d d' hle h0 hnn
    obtain ⟨hnn', hsum, hdeep⟩ := ih hle h0 hnn
    obtain ⟨hD, hI⟩ := note_flags hu
    simp only [writtenDepths, writtenTokens, mem_cons, forall_eq_or_imp, map_cons, sum_cons,
      Line.delta, Line.tokens_mk, map_nil, cons_append, nil_append, hD, hI, Bool.false_eq_true,
      if_false, Int.sub_zero, Int.add_zero, Int.zero_add]
    exact ⟨⟨by omega, hnn'⟩, hsum, .note d' hu hdeep⟩
  | keep l _ ih =>
    intro d d' hle h0 hnn
    simp only [writtenDepths, writtenTokens, mem_cons, forall_eq_or_imp, map_cons, sum_cons,
      Line.delta] at hnn ⊢
    -- the kept line moves both layouts by the same amount
    have hI : (0 : Int) ≤ if l.indentAfter then 1 else 0 := by split <;> decide
    obtain ⟨hnn', hsum, hdeep⟩ := ih (by omega : d - (if l.dedentBefore then 1 else 0) +
        (if l.indentAfter then 1 else 0) ≤ d' - (if l.dedentBefore then 1 else 0) +
        (if l.indentAfter then 1 else 0)) (by omega) hnn.2
    exact ⟨⟨by omega, hnn'⟩, by omega, Deepened.append_map l.tokens (by omega) hdeep⟩
  | @cut ls ls' l f g hl hg _ ih =>
    intro d d' hle h0 hnn
    -- the second piece starts no line, so it does not dedent
    have hgD := Line.dedentBefore_eq_false hg
    have hD := dedentBefore_of_cut hl
    have hcut := indent_le_of_cut hl
    have hopen := opens_le_indent f
    have hO : (0 : Int) ≤ if f.first.tag.opensBlock then 1 else 0 := by split <;> decide
    -- the rest of the line is laid out from where the cut line starts, one deeper when its
    -- first token opens a block
    have ih' := @ih (d - (if f.dedentBefore then 1 else 0) + if f.first.tag.opensBlock then 1 else 0)
      (d' - (if f.dedentBefore then 1 else 0) + if f.indentAfter then 1 else 0)
    simp only [writtenDepths, writtenTokens, mem_cons, forall_eq_or_imp, map_cons, sum_cons,
      Line.delta, hl, map_append, append_assoc, hD, hgD, Bool.false_eq_true, if_false,
      Int.sub_zero] at hnn ih' ⊢
    generalize (if f.dedentBefore then 1 else 0 : Int) = D at *
    generalize (if f.first.tag.opensBlock then 1 else 0 : Int) = O at *
    generalize (if f.indentAfter then 1 else 0 : Int) = I at *
    generalize (if l.indentAfter then 1 else 0 : Int) = Il at *
    generalize (if g.indentAfter then 1 else 0 : Int) = Ig at *
    obtain ⟨hnn', hsum, hdeep⟩ :=
      ih' (by omega) (by omega) ⟨by omega, writtenDepths_nonneg_of_le (by omega) hnn.2⟩
    -- the rest of the cut line is written where the whole line was, or deeper
    have hrest := Deepened.append_map g.tokens (by omega : d - D ≤ d - D + O)
      (writtenTokens_le ls (by omega : d - D + Il ≤ d - D + O + Ig))
    exact ⟨⟨by omega, hnn'⟩, by omega,
      Deepened.append_map f.tokens (by omega) (hrest.trans hdeep)⟩

/-! ### Notes put between tokens -/

/-- The lines `ls'`, laid out from depth zero, sit no shallower than the lines `ls`, when these
never go below depth zero: no line of `ls'` does either, every token of `ls` is written at least
as deep, by a token related by `R`, and the depth after the last line does not drop. -/
def LaidDeeper (R : Token → Token → Prop) (ls ls' : List Line) : Prop :=
  (∀ e ∈ writtenDepths 0 ls, 0 ≤ e) →
    (∀ e ∈ writtenDepths 0 ls', 0 ≤ e) ∧ (ls.map Line.delta).sum ≤ (ls'.map Line.delta).sum ∧
      Deepened R (writtenTokens 0 ls) (writtenTokens 0 ls')

theorem Refines.laidDeeper {ls ls' : List Line} (h : Refines ls ls') : LaidDeeper Eq ls ls' :=
  fun hnn => by simpa using h.depths (Int.le_refl 0) (Int.le_refl 0) hnn

theorem LaidDeeper.trans {ls ls₁ ls' : List Line} (h₁ : LaidDeeper Eq ls ls₁)
    (h₂ : LaidDeeper Eq ls₁ ls') : LaidDeeper Eq ls ls' := by
  intro hnn
  obtain ⟨hnn₁, hsum₁, hdeep₁⟩ := h₁ hnn
  obtain ⟨hnn', hsum₂, hdeep₂⟩ := h₂ hnn₁
  exact ⟨hnn', Int.le_trans hsum₁ hsum₂, hdeep₁.trans hdeep₂⟩

/-- Tokens put in and then each relaid alike are tokens noted with their relaid forms. -/
theorem Deepened.alike {ps qs rs : List (Token × Int)} (h : Deepened Eq ps qs)
    (h₂ : Forall₂ (fun q r : Token × Int => LaysOutAlike q.1 r.1 ∧ r.2 = q.2) qs rs) :
    Deepened LaysOutAlike ps rs := by
  induction h generalizing rs with
  | nil =>
    cases h₂
    exact .nil
  | note e hu _ ih =>
    cases h₂ with
    | cons hr h₂ => exact .note _ (Token.IsNote.of_tag_eq hu hr.1.1) (ih h₂)
  | keep ht he _ ih =>
    subst ht
    cases h₂ with
    | cons hr h₂ => exact .keep hr.1 (by rw [hr.2]; exact he) (ih h₂)

/-- Lines related token by token are written token by token at the same depths. -/
theorem writtenTokens_congr {ls ls' : List Line} (h : Forall₂ (LineRel LaysOutAlike) ls ls') (d : Int) :
    Forall₂ (fun p q : Token × Int => LaysOutAlike p.1 q.1 ∧ q.2 = p.2)
      (writtenTokens d ls) (writtenTokens d ls') := by
  induction h generalizing d with
  | nil => exact .nil
  | cons hl _ ih =>
    rw [writtenTokens, writtenTokens, LineRel.dedentBefore_eq hl, LineRel.indentAfter_eq hl]
    exact rel_append (forall₂_map_left_iff.2 (forall₂_map_right_iff.2
      (hl.imp fun _ _ h => ⟨h, rfl⟩))) (ih _)

theorem map_delta_congr {ls ls' : List Line} (h : Forall₂ (LineRel LaysOutAlike) ls ls') :
    ls'.map Line.delta = ls.map Line.delta := by
  induction h with
  | nil => rfl
  | cons hl _ ih =>
    rw [map_cons, map_cons, Line.delta, Line.delta, LineRel.dedentBefore_eq hl,
      LineRel.indentAfter_eq hl, ih]

theorem LaidDeeper.alike {ls ls₀ ls' : List Line} (h : LaidDeeper Eq ls ls₀)
    (h₂ : Forall₂ (LineRel LaysOutAlike) ls₀ ls') : LaidDeeper LaysOutAlike ls ls' := by
  intro hnn
  obtain ⟨hnn₀, hsum, hdeep⟩ := h hnn
  -- lines related token by token have the same flags, so the same depths
  have hdepths := writtenDepths_congr h₂ 0
  rw [hdepths, map_delta_congr h₂]
  exact ⟨hnn₀, hsum, hdeep.alike (writtenTokens_congr h₂ 0)⟩

/-- `ts'` is `ts` with notes put in, each other token related by `R` to the token it stands for. -/
inductive Noted (R : Token → Token → Prop) : List Token → List Token → Prop
  | nil : Noted R [] []
  | note {ts ts' : List Token} {u : Token} (hu : u.IsNote) (h : Noted R ts ts') :
      Noted R ts (u :: ts')
  | keep {ts ts' : List Token} {t t' : Token} (ht : R t t') (h : Noted R ts ts') :
      Noted R (t :: ts) (t' :: ts')

/-- Notes put in one after the other, each cutting the lines further. -/
theorem Noted.laidDeeper_append {ts ts₀ : List Token} (h : Noted Eq ts ts₀) :
    ∀ pre : List Token, LaidDeeper Eq (ofTokens (pre ++ ts)).lines (ofTokens (pre ++ ts₀)).lines := by
  induction h with
  | nil =>
    intro pre
    exact (Refines.refl _).laidDeeper
  | note hu _ ih =>
    intro pre
    exact (ih pre).trans (refines_insert pre _ hu).laidDeeper
  | @keep ts ts₀ t t' ht _ ih =>
    intro pre
    subst ht
    simpa using ih (pre ++ [t])

/-- Noted tokens are the tokens with notes put in, then each relaid alike. -/
theorem Noted.exists_eq {ts ts' : List Token} (h : Noted LaysOutAlike ts ts') :
    ∃ ts₀, Noted Eq ts ts₀ ∧ Forall₂ LaysOutAlike ts₀ ts' := by
  induction h with
  | nil => exact ⟨[], .nil, .nil⟩
  | @note ts ts' u hu _ ih =>
    obtain ⟨ts₀, h₀, hf⟩ := ih
    exact ⟨u :: ts₀, .note hu h₀, .cons (LaysOutAlike.refl u) hf⟩
  | @keep ts ts' t t' ht _ ih =>
    obtain ⟨ts₀, h₀, hf⟩ := ih
    exact ⟨t :: ts₀, .keep rfl h₀, .cons ht hf⟩

/-- **Notes push code right, never left.** Put notes between the tokens of a list, with the
other tokens relaid alike: when no line of the list is written below depth zero, no line of the
noted list is; each token of the list is written at least as deep as before, and the depth after
the last line does not drop. -/
theorem layout_noted {ts ts' : List Token} (h : Noted LaysOutAlike ts ts') :
    LaidDeeper LaysOutAlike (ofTokens ts).lines (ofTokens ts').lines := by
  obtain ⟨ts₀, h₀, hf⟩ := h.exists_eq
  exact (h₀.laidDeeper_append []).alike (ofTokens_congr splitsAlike_laysOutAlike hf)

/-! ### Reflowing a noted source -/

/-- A reflow that succeeds wrote the lines of its scanned tokens, none below depth zero. -/
theorem reflow_eq_layout {config : FormatConfig} {file source out : String} {ts : List Token}
    (h : reflow config file source = .ok out)
    (hts : Token.tokenize config.snippetWidth file source = .ok ts) :
    (∀ e ∈ writtenDepths 0 (ofTokens ts).lines, 0 ≤ e) ∧ out = layoutText (ofTokens ts).lines := by
  obtain ⟨ts₀, hts₀, hrender⟩ := reflow_eq_ok h
  rw [hts, Except.ok.injEq] at hts₀
  subst hts₀
  have hl := Token.scan_lexed (Token.tokenize_eq_ok.1 hts)
  exact render_segment_ok (fun t ht => (hl.scanned t ht).isDirective_eq_false) hrender

/-- A source whose lines never go below depth zero reflows to their layout. -/
theorem reflow_of_nonneg {config : FormatConfig} {file source : String} {ts : List Token}
    (hts : Token.tokenize config.snippetWidth file source = .ok ts)
    (hnn : ∀ e ∈ writtenDepths 0 (ofTokens ts).lines, 0 ≤ e) :
    reflow config file source = .ok (layoutText (ofTokens ts).lines) := by
  have hl := Token.scan_lexed (Token.tokenize_eq_ok.1 hts)
  unfold reflow
  rw [hts]
  dsimp only
  rw [render_segment_of_nonneg (fun t ht => (hl.scanned t ht).isDirective_eq_false) hnn]

/-- **Notes put in a source that reflows.** When `source` reflows and `source'` scans to its
tokens with notes put in, the others relaid alike, `source'` reflows too; each token of
`source` is written at least as deep, and the depth after the last line does not drop. -/
theorem reflow_noted {config : FormatConfig} {file source source' out : String}
    {ts ts' : List Token} (h : reflow config file source = .ok out)
    (hts : Token.tokenize config.snippetWidth file source = .ok ts)
    (hts' : Token.tokenize config.snippetWidth file source' = .ok ts')
    (hnoted : Noted LaysOutAlike ts ts') :
    reflow config file source' = .ok (layoutText (ofTokens ts').lines) ∧
      Deepened LaysOutAlike (writtenTokens 0 (ofTokens ts).lines)
        (writtenTokens 0 (ofTokens ts').lines) ∧
      ((ofTokens ts).lines.map Line.delta).sum ≤ ((ofTokens ts').lines.map Line.delta).sum := by
  obtain ⟨hnn, -⟩ := reflow_eq_layout h hts
  obtain ⟨hnn', hsum, hdeep⟩ := layout_noted hnoted hnn
  exact ⟨reflow_of_nonneg hts' hnn', hdeep, hsum⟩

end Document

end LuaReflow
