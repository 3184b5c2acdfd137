import LuaReflow.Proofs.Document.Split
import LuaReflow.Proofs.Lexeme.Settled

/-!
# Where one statement ends and the next begins

Line splitting decides where a line ends with one token of lookahead, so a statement whose
last token does not always end a line is cut from the next statement only when that next
token is seen. This file takes the walk apart at such a point.

* `Document.Cursor` — what the walk carries from one token to the next. `Cursor.step` is one
  step of `splitFrom` and `Cursor.run` the steps over a list of tokens, once the tag of the
  token after them is known (`Cursor.lines_append`). Of that tag the last step sees only
  whether it is a word (`Cursor.run_next_ne_word`, `Cursor.run_word`).
* `Cursor.run_place` — the walk does not see where its tokens stand in the source, nor the
  lines finished before it.
* `Cursor.lines_append_of_ready` — a statement, or the keywords that close a block, starts
  with a word, a tag that always starts a line, `do` or `function` (`Tag.startsStatement`).
  When tokens leave the walk ready for one (`Cursor.ready`), what follows them is cut as if
  the walk started afresh there.
-/

namespace LuaReflow

/-- Tags that a statement, or the keywords that close a block, can start with. -/
def Tag.startsStatement (t : Tag) : Bool :=
  t == .word || t.startsLine || t == .doKw || t == .functionKw

/-- A left-out statement separator is seen only before a word. -/
theorem Tag.breaksStatement_of_ne_word (t : Tag) {u : Tag} (h : u ≠ .word) :
    t.breaksStatement u = false := by
  unfold Tag.breaksStatement
  split <;> simp_all

/-- The line `l` moved `n` places further into the source. -/
def Line.shift (n : Nat) (l : Line) : Line := ⟨l.first.shift n, l.rest.map (Token.shift n)⟩

theorem Line.ofList?_map_shift (n : Nat) (ts : List Token) :
    Line.ofList? (ts.map (Token.shift n)) = (Line.ofList? ts).map (Line.shift n) := by
  cases ts <;> rfl

namespace Document

open List

/-- The tokens still to come start a statement, or there are none. -/
def StartsStatement (ts : List Token) : Prop := ∀ t ∈ ts.head?, t.tag.startsStatement = true

@[simp] theorem startsStatement_nil : StartsStatement [] := by simp [StartsStatement]

/-- A token that starts a line closes the current one first. -/
theorem splitFrom_of_startsBefore {af : Bool} {cur : List Token} {done : List Line} {n : Token}
    (h : startsBefore cur n = true) (ns : List Token) :
    splitFrom af cur done (n :: ns) = splitFrom af [] (closeLine cur done) (n :: ns) := by
  cases cur with
  | nil => rfl
  | cons u cur =>
    rw [splitFrom_cons, splitFrom_cons]
    simp [h]

/-- Any start of a statement but a word begins a new line, unless the line is opened by `for`
or `while` (for a `do`) or its last token keeps a `function` on it. -/
theorem startsBefore_of_startsStatement {cur : List Token} {n : Token}
    (hs : n.tag.startsStatement = true) (hw : n.tag ≠ .word)
    (hown : (cur.getLast?.map (·.tag.ownsDo)).getD false = false)
    (hbind : (cur.head?.map (·.tag.bindsFunction)).getD false = false) :
    startsBefore cur n = true := by
  simp only [Tag.startsStatement, Bool.or_eq_true, beq_iff_eq, hw, false_or] at hs
  simp only [startsBefore, Bool.or_eq_true, Bool.and_eq_true, beq_iff_eq, hown, hbind]
  tauto

theorem startsBefore_map_shift (n : Nat) (cur : List Token) (t : Token) :
    startsBefore (cur.map (Token.shift n)) (t.shift n) = startsBefore cur t := by
  simp only [startsBefore, getLast?_map, head?_map, Option.map_map, Function.comp_def,
    Token.tag_shift]

theorem closeLine_map_shift (n : Nat) (cur : List Token) (ls done : List Line) :
    closeLine (cur.map (Token.shift n)) (ls.map (Line.shift n) ++ done) =
      (closeLine cur ls).map (Line.shift n) ++ done := by
  rw [closeLine, closeLine, ← map_reverse, Line.ofList?_map_shift]
  cases Line.ofList? cur.reverse <;> rfl

/-- What line splitting carries from one token to the next. -/
structure Cursor where
  /-- The nearest stopper so far is `function`, so a `)` closes its parameter list. -/
  afterFunction : Bool
  /-- The current line, latest token first. -/
  current : List Token
  /-- The finished lines, latest first. -/
  done : List Line
  deriving DecidableEq, Repr

namespace Cursor

/-- The cursor line splitting starts from, after the lines `done`. -/
def start (done : List Line) : Cursor := ⟨false, [], done⟩

/-- The tag of the first of the tokens `ts`, or `next` when there are none. -/
def nextTag (ts : List Token) (next : Tag) : Tag := (ts.head?.map (·.tag)).getD next

/-- The token `t` as the walk keeps it: a `)` that closes a parameter list is retagged. -/
def placed (c : Cursor) (t : Token) : Token :=
  if t.tag == .closing && t.text == ")" && c.afterFunction then t.retag .closeParameters else t

/-- The cursor with the token `t` added to its line, which is cut first when `t` starts a new
one. -/
def push (c : Cursor) (t : Token) : Cursor :=
  let (current, done) :=
    if !c.current.isEmpty && startsBefore c.current t then ([], closeLine c.current c.done)
    else (c.current, c.done)
  let v := c.placed t
  ⟨if v.tag.isStopper then v.tag == .functionKw else c.afterFunction, v :: current, done⟩

/-- The line ends after the token `t`, when the token after it has tag `next`. -/
def endsAfter (c : Cursor) (t : Token) (next : Tag) : Bool :=
  (t.tag == .closing && t.text == ")" && c.afterFunction) || (c.placed t).tag.endsLine ||
    (c.placed t).tag.breaksStatement next

/-- The cursor `c` with its current line cut. -/
def cut (c : Cursor) : Cursor := ⟨c.afterFunction, [], closeLine c.current c.done⟩

/-- One step of line splitting: the cursor after the token `t`, when the token after it has
tag `next`. -/
def step (c : Cursor) (t : Token) (next : Tag) : Cursor :=
  if c.endsAfter t next then (c.push t).cut else c.push t

/-- The cursor after the tokens `ts`, when the token after them has tag `next`. -/
def run (c : Cursor) (next : Tag) : List Token → Cursor
  | [] => c
  | t :: ts => (c.step t (nextTag ts next)).run next ts

/-- The lines cut from the tokens `ts` still to come, from the cursor `c`. -/
def lines (c : Cursor) (ts : List Token) : List Line :=
  splitFrom c.afterFunction c.current c.done ts

/-- The cursor `c` with its tokens moved `n` places on, after the lines `done`. -/
def place (n : Nat) (done : List Line) (c : Cursor) : Cursor :=
  ⟨c.afterFunction, c.current.map (Token.shift n), c.done.map (Line.shift n) ++ done⟩

theorem nextTag_append (xs ys : List Token) (next : Tag) :
    nextTag (xs ++ ys) next = nextTag xs (nextTag ys next) := by
  cases xs <;> rfl

theorem lines_cons (c : Cursor) (t : Token) (ts : List Token) :
    c.lines (t :: ts) = (c.step t (nextTag ts .finish)).lines ts := by
  rw [lines, splitFrom_cons, step, apply_ite (fun c : Cursor => c.lines ts)]
  rfl

theorem lines_nil (c : Cursor) : c.lines [] = (closeLine c.current c.done).reverse := rfl

/-- **The walk over an append.** The tokens `xs` take the cursor where the tokens after them
start, seeing of those only the first tag. -/
theorem lines_append (c : Cursor) (xs ys : List Token) :
    c.lines (xs ++ ys) = (c.run (nextTag ys .finish) xs).lines ys := by
  induction xs generalizing c with
  | nil => rfl
  | cons t xs ih => rw [cons_append, lines_cons, ih, nextTag_append, run]

/-! ### What the last step sees of the next token -/

theorem step_next_ne_word (c : Cursor) (t : Token) {next : Tag} (h : next ≠ .word) :
    c.step t next = c.step t .finish := by
  have hfinish : Tag.finish ≠ .word := by decide
  simp only [step, endsAfter, Tag.breaksStatement_of_ne_word _ h,
    Tag.breaksStatement_of_ne_word _ hfinish]

/-- Past the last token, a next tag other than a word is as good as none. -/
theorem run_next_ne_word (c : Cursor) {next : Tag} (h : next ≠ .word) (xs : List Token) :
    c.run next xs = c.run .finish xs := by
  induction xs generalizing c with
  | nil => rfl
  | cons t xs ih =>
    cases xs with
    | nil => exact step_next_ne_word c t h
    | cons u us =>
      -- every step but the last sees the tag of a token of the list
      calc c.run next (t :: u :: us) = (c.step t u.tag).run next (u :: us) := rfl
        _ = (c.step t u.tag).run .finish (u :: us) := ih _
        _ = c.run .finish (t :: u :: us) := rfl

theorem endsAfter_word_of_finish {c : Cursor} {t : Token} (h : c.endsAfter t .finish = true) :
    c.endsAfter t .word = true := by
  have hfinish : Tag.finish ≠ .word := by decide
  simp only [endsAfter, Tag.breaksStatement_of_ne_word _ hfinish, Bool.or_false] at h
  simp only [endsAfter, h, Bool.true_or]

/-- Before a word, the last step may cut the line it would otherwise leave open. -/
theorem step_word (c : Cursor) (t : Token) :
    c.step t .word = c.step t .finish ∨ c.step t .word = (c.step t .finish).cut := by
  unfold step
  cases hf : c.endsAfter t .finish with
  | true => exact .inl (by rw [endsAfter_word_of_finish hf])
  | false =>
    cases c.endsAfter t .word with
    | true => exact .inr rfl
    | false => exact .inl rfl

theorem run_word (c : Cursor) (xs : List Token) :
    c.run .word xs = c.run .finish xs ∨ c.run .word xs = (c.run .finish xs).cut := by
  induction xs generalizing c with
  | nil => exact .inl rfl
  | cons t xs ih =>
    cases xs with
    | nil => exact step_word c t
    | cons u us => exact ih (c.step t u.tag)

/-! ### The walk does not see where it stands -/

theorem placed_place (c : Cursor) (t : Token) (n : Nat) (done : List Line) :
    (c.place n done).placed (t.shift n) = (c.placed t).shift n := by
  simp only [placed, place, Token.tag_shift, Token.text_shift, apply_ite (Token.shift n)]
  rfl

theorem endsAfter_place (c : Cursor) (t : Token) (next : Tag) (n : Nat) (done : List Line) :
    (c.place n done).endsAfter (t.shift n) next = c.endsAfter t next := by
  simp only [endsAfter, placed_place, Token.tag_shift, Token.text_shift]
  rfl

theorem push_place (c : Cursor) (t : Token) (n : Nat) (done : List Line) :
    (c.place n done).push (t.shift n) = (c.push t).place n done := by
  simp only [push, placed_place]
  by_cases h : (!c.current.isEmpty && startsBefore c.current t) = true
  · simp only [place, isEmpty_map, startsBefore_map_shift, h, if_true, closeLine_map_shift,
      map_cons, map_nil]
    rfl
  · simp only [place, isEmpty_map, startsBefore_map_shift, h, Bool.false_eq_true, if_false,
      map_cons]
    rfl

theorem cut_place (c : Cursor) (n : Nat) (done : List Line) :
    (c.place n done).cut = c.cut.place n done := by
  simp only [cut, place, closeLine_map_shift, map_nil]

theorem step_place (c : Cursor) (t : Token) (next : Tag) (n : Nat) (done : List Line) :
    (c.place n done).step (t.shift n) next = (c.step t next).place n done := by
  rw [step, step, endsAfter_place, push_place]
  split
  · rw [cut_place]
  · rfl

/-- **Placement.** Moved on in the source and after more finished lines, the walk takes the
same steps. -/
theorem run_place (c : Cursor) (next : Tag) (xs : List Token) (n : Nat) (done : List Line) :
    (c.place n done).run next (xs.map (Token.shift n)) = (c.run next xs).place n done := by
  induction xs generalizing c with
  | nil => rfl
  | cons t xs ih =>
    have hnext : nextTag (xs.map (Token.shift n)) next = nextTag xs next := by
      cases xs <;> rfl
    rw [map_cons, run, run, hnext, step_place, ih]

/-! ### Ready for a statement -/

/-- The tokens `xs` leave the cursor `c` ready for a statement: before a word the walk has cut
the line itself, no `function` waits for its parameter list, and the line left open before
anything else is neither opened by `for` or `while` nor ended by a token that keeps a
`function` on it. -/
def ready (c : Cursor) (xs : List Token) : Bool :=
  let e := c.run .finish xs
  (c.run .word xs).current.isEmpty && !e.afterFunction &&
    !(e.current.getLast?.map (·.tag.ownsDo)).getD false &&
    !(e.current.head?.map (·.tag.bindsFunction)).getD false

theorem ready_place (c : Cursor) (xs : List Token) (n : Nat) (done : List Line) :
    (c.place n done).ready (xs.map (Token.shift n)) = c.ready xs := by
  simp only [ready, run_place]
  simp only [place, isEmpty_map, getLast?_map, head?_map, Option.map_map, Function.comp_def,
    Token.tag_shift]

/-- Before a word, a ready cursor has cut its line: it is the cursor left before anything else,
cut. -/
theorem run_word_of_ready {c : Cursor} {xs : List Token} (h : c.ready xs = true) :
    c.run .word xs = start (closeLine (c.run .finish xs).current (c.run .finish xs).done) := by
  simp only [ready, Bool.and_eq_true, List.isEmpty_iff, Bool.not_eq_true'] at h
  obtain ⟨⟨⟨hword, hfun⟩, -⟩, -⟩ := h
  rcases run_word c xs with heq | heq
  · -- nothing was cut: the line was already empty
    have hcur : (c.run .finish xs).current = [] := heq ▸ hword
    rw [heq, hcur, closeLine_nil, start]
    cases hr : c.run .finish xs
    simp_all
  · rw [heq, cut, start, hfun]

/-- **Cut before a statement.** When the tokens `xs` leave the cursor ready for a statement,
what follows them, if it starts a statement, is cut as if line splitting started afresh after
the lines cut from `xs`. -/
theorem lines_append_of_ready {c : Cursor} {xs ts : List Token} (h : c.ready xs = true)
    (hts : StartsStatement ts) :
    c.lines (xs ++ ts) = (start (c.run .word xs).done).lines ts := by
  have hw := run_word_of_ready h
  simp only [ready, Bool.and_eq_true, Bool.not_eq_true'] at h
  obtain ⟨⟨⟨-, hfun⟩, hown⟩, hbind⟩ := h
  rw [lines_append, hw]
  cases ts with
  | nil => rfl
  | cons n ns =>
    by_cases hn : n.tag = .word
    · -- a word follows: the walk has cut the line before it
      rw [nextTag, head?_cons, Option.map_some, Option.getD_some, hn, hw]
      rfl
    · -- anything else that starts a statement begins a new line
      have hs : startsBefore (c.run .finish xs).current n = true :=
        startsBefore_of_startsStatement (hts n rfl) hn hown hbind
      rw [nextTag, head?_cons, Option.map_some, Option.getD_some, run_next_ne_word c hn, lines,
        hfun, splitFrom_of_startsBefore hs]
      rfl

/-- A ready cursor cuts the tokens `xs` into the lines it holds before a word. -/
theorem lines_of_ready {c : Cursor} {xs : List Token} (h : c.ready xs = true) :
    c.lines xs = (c.run .word xs).done.reverse := by
  have hcut := lines_append_of_ready h startsStatement_nil
  rw [append_nil] at hcut
  exact hcut

end Cursor

end Document

end LuaReflow
