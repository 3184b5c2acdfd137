import Mathlib.Data.List.Forall2
import LuaReflow.Document

/-!
# What line splitting keeps

Splitting a token list into lines walks the tokens once: before each token it may end the
current line, it may retag a `)` as the close of a parameter list, and after the token it may
end the line again. This file proves what that walk keeps, for every token list, whatever its
tags and texts:

* `tokens_ofTokens` — read in order, the tokens of the lines are the input tokens, each one
  unchanged or, for a `close` token, retagged `close-parameters`: nothing is dropped, added or
  moved;
* `placed_of_mem_ofTokens` — a token whose tag always starts a line stands first on its line,
  and one whose tag always ends a line stands last on it;
* `ofTokens_congr` — the cut depends on the tokens only through their tags and the texts of
  their `close` tokens, so two lists that agree there are cut at the same places.
-/

namespace LuaReflow.Document

open List

/-- `u` is `t` as line splitting leaves it: the same token, or a `close` retagged
`close-parameters`. -/
def Kept (t u : Token) : Prop := u = t ∨ (t.tag = .closing ∧ u = t.retag .closeParameters)

/-- A line in which only the first token may be one that always starts a line, and only the
last one that always ends a line. -/
def Placed (l : Line) : Prop :=
  (∀ u ∈ l.rest, u.tag.startsLine = false) ∧ (∀ u ∈ l.tokens.dropLast, u.tag.endsLine = false)

/-- The current line of the walk, latest token first, before it is closed: none of its tokens
ends a line, and only its first token may start one. -/
def OpenLine (cur : List Token) : Prop :=
  (∀ u ∈ cur.dropLast, u.tag.startsLine = false) ∧ (∀ u ∈ cur, u.tag.endsLine = false)

/-! ### One step of the walk -/

theorem splitFrom_cons (af : Bool) (cur : List Token) (done : List Line) (t : Token)
    (ts : List Token) :
    splitFrom af cur done (t :: ts) =
      let cd := if !cur.isEmpty && startsBefore cur t then ([], closeLine cur done) else (cur, done)
      let cp := t.tag == .closing && t.text == ")" && af
      let u := if cp then t.retag .closeParameters else t
      let af' := if u.tag.isStopper then u.tag == .functionKw else af
      if cp || u.tag.endsLine || u.tag.breaksStatement ((ts.head?.map (·.tag)).getD .finish) then
        splitFrom af' [] (closeLine (u :: cd.1) cd.2) ts
      else splitFrom af' (u :: cd.1) cd.2 ts := by
  rw [splitFrom]

theorem ofList?_reverse_cons (u : Token) (cur : List Token) :
    ∃ l, Line.ofList? (u :: cur).reverse = some l ∧ l.tokens = (u :: cur).reverse := by
  cases h : (u :: cur).reverse with
  | nil => simp at h
  | cons v vs => exact ⟨⟨v, vs⟩, rfl, rfl⟩

theorem closeLine_nil (done : List Line) : closeLine [] done = done := rfl

theorem closeLine_cons (u : Token) (cur : List Token) (done : List Line) :
    ∃ l, closeLine (u :: cur) done = l :: done ∧ l.tokens = (u :: cur).reverse := by
  obtain ⟨l, hl, htok⟩ := ofList?_reverse_cons u cur
  exact ⟨l, by rw [closeLine, hl], htok⟩

/-! ### Nothing is dropped, added or moved -/

/-- The tokens of the finished lines and then of the current line, in order. -/
def pending (cur : List Token) (done : List Line) : List Token :=
  done.reverse.flatMap Line.tokens ++ cur.reverse

theorem pending_closeLine (cur : List Token) (done : List Line) :
    pending [] (closeLine cur done) = pending cur done := by
  cases cur with
  | nil => rfl
  | cons u cur =>
    obtain ⟨l, hl, htok⟩ := closeLine_cons u cur done
    simp [pending, hl, htok]

theorem pending_cons (u : Token) (cur : List Token) (done : List Line) :
    pending (u :: cur) done = pending cur done ++ [u] := by
  simp [pending]

theorem kept_retag_of_closing (t : Token) (af : Bool) :
    Kept t (if (t.tag == .closing && t.text == ")" && af) then t.retag .closeParameters else t) := by
  by_cases h : (t.tag == .closing && t.text == ")" && af) = true
  · rw [if_pos h]
    simp only [Bool.and_eq_true, beq_iff_eq] at h
    exact .inr ⟨h.1.1, rfl⟩
  · rw [if_neg h]
    exact .inl rfl

theorem splitFrom_tokens (af : Bool) (cur : List Token) (done : List Line) (ts : List Token) :
    ∃ us, Forall₂ Kept ts us ∧
      (splitFrom af cur done ts).flatMap Line.tokens = pending cur done ++ us := by
  induction ts generalizing af cur done with
  | nil =>
    refine ⟨[], .nil, ?_⟩
    rw [splitFrom, append_nil, ← pending_closeLine]
    simp [pending]
  | cons t ts ih =>
    rw [splitFrom_cons]
    dsimp only
    -- the break before `t` only moves the current line to the finished ones
    generalize hcd : (if !cur.isEmpty && startsBefore cur t then ([], closeLine cur done)
      else (cur, done)) = cd
    have hpend : pending cd.1 cd.2 = pending cur done := by
      split at hcd <;> subst hcd
      · exact pending_closeLine cur done
      · rfl
    have hkept := kept_retag_of_closing t af
    generalize (if (t.tag == .closing && t.text == ")" && af) = true then
      t.retag .closeParameters else t) = u at hkept ⊢
    -- after `u`, the line is closed or kept open; either way `u` follows what was pending
    have hnext : ∀ af' cur' done', pending cur' done' = pending cd.1 cd.2 ++ [u] →
        ∃ us, Forall₂ Kept (t :: ts) us ∧
          (splitFrom af' cur' done' ts).flatMap Line.tokens = pending cur done ++ us := by
      intro af' cur' done' h
      obtain ⟨us, hus, heq⟩ := ih af' cur' done'
      exact ⟨u :: us, .cons hkept hus, by rw [heq, h, hpend, append_assoc, singleton_append]⟩
    split
    · exact hnext _ _ _ (by rw [pending_closeLine, pending_cons])
    · exact hnext _ _ _ (pending_cons u cd.1 cd.2)

/-- **Nothing is dropped, added or moved.** The tokens of the lines, in order, are the input
tokens, each kept or, for a `close`, retagged `close-parameters`. -/
theorem tokens_ofTokens (ts : List Token) :
    ∃ us, Forall₂ Kept ts us ∧ (ofTokens ts).lines.flatMap Line.tokens = us := by
  obtain ⟨us, hus, heq⟩ := splitFrom_tokens false [] [] ts
  exact ⟨us, hus, by simpa [pending, ofTokens] using heq⟩

theorem exists_kept_of_mem {ts us : List Token} (h : Forall₂ Kept ts us) {u : Token}
    (hu : u ∈ us) : ∃ t ∈ ts, Kept t u := by
  induction h with
  | nil => simp at hu
  | cons hk _ ih =>
    rcases mem_cons.1 hu with rfl | hu
    · exact ⟨_, mem_cons_self, hk⟩
    · obtain ⟨t, ht, hkt⟩ := ih hu
      exact ⟨t, mem_cons_of_mem _ ht, hkt⟩

/-- Every token of every line is an input token, kept or retagged. -/
theorem exists_kept_of_mem_ofTokens (ts : List Token) {l : Line} (hl : l ∈ (ofTokens ts).lines)
    {u : Token} (hu : u ∈ l.tokens) : ∃ t ∈ ts, Kept t u := by
  obtain ⟨us, hus, heq⟩ := tokens_ofTokens ts
  exact exists_kept_of_mem hus (heq ▸ mem_flatMap.2 ⟨l, hl, hu⟩)

/-! ### Tokens that always start or end a line -/

theorem openLine_nil : OpenLine [] := ⟨by simp, by simp⟩

/-- A token that joins a current line, and does not start a line unless the line is empty,
leaves only the line's oldest token free to start one. -/
theorem startsLine_dropLast_cons {u : Token} {cur : List Token} (hopen : OpenLine cur)
    (hstart : cur ≠ [] → u.tag.startsLine = false) :
    ∀ v ∈ (u :: cur).dropLast, v.tag.startsLine = false := by
  intro v hv
  cases cur with
  | nil => simp at hv
  | cons w ws =>
    rcases mem_cons.1 (by simpa using hv) with rfl | hv
    · exact hstart (cons_ne_nil w ws)
    · exact hopen.1 v hv

theorem placed_closeLine_cons (u : Token) (cur : List Token) (done : List Line)
    (hopen : OpenLine cur) (hstart : cur ≠ [] → u.tag.startsLine = false)
    (hdone : ∀ l ∈ done, Placed l) : ∀ l ∈ closeLine (u :: cur) done, Placed l := by
  obtain ⟨l, hl, htok⟩ := closeLine_cons u cur done
  rw [hl]
  intro l' hl'
  rcases mem_cons.1 hl' with rfl | hl'
  · constructor
    · -- the tokens after the first are the current line less its first token
      intro v hv
      have hrest : l'.rest = (u :: cur).dropLast.reverse := by
        rw [show l'.rest = l'.tokens.tail from rfl, htok, tail_reverse]
      rw [hrest, mem_reverse] at hv
      exact startsLine_dropLast_cons hopen hstart v hv
    · intro v hv
      exact hopen.2 v (by simpa [htok] using hv)
  · exact hdone l' hl'

theorem placed_closeLine (cur : List Token) (done : List Line) (hopen : OpenLine cur)
    (hdone : ∀ l ∈ done, Placed l) : ∀ l ∈ closeLine cur done, Placed l := by
  cases cur with
  | nil => exact hdone
  | cons u cur =>
    refine placed_closeLine_cons u cur done ⟨?_, ?_⟩ ?_ hdone
    · intro v hv
      cases cur with
      | nil => simp at hv
      | cons w ws => exact hopen.1 v (by simp [hv])
    · exact fun v hv => hopen.2 v (mem_cons_of_mem u hv)
    · intro hne
      cases cur with
      | nil => exact absurd rfl hne
      | cons w ws => exact hopen.1 u (by simp)

theorem openLine_cons (u : Token) (cur : List Token) (hopen : OpenLine cur)
    (hstart : cur ≠ [] → u.tag.startsLine = false) (hend : u.tag.endsLine = false) :
    OpenLine (u :: cur) := by
  refine ⟨startsLine_dropLast_cons hopen hstart, fun v hv => ?_⟩
  rcases mem_cons.1 hv with rfl | hv
  · exact hend
  · exact hopen.2 v hv

theorem tag_retag_of_closing (t : Token) (c : Bool) :
    (if c = true then t.retag .closeParameters else t).tag = t.tag ∨
      (if c = true then t.retag .closeParameters else t).tag = .closeParameters := by
  by_cases h : c = true
  · simp [h]
  · simp [h]

theorem splitFrom_placed (af : Bool) (cur : List Token) (done : List Line) (ts : List Token)
    (hopen : OpenLine cur) (hdone : ∀ l ∈ done, Placed l) :
    ∀ l ∈ splitFrom af cur done ts, Placed l := by
  induction ts generalizing af cur done with
  | nil =>
    rw [splitFrom]
    intro l hl
    exact placed_closeLine cur done hopen hdone l (mem_reverse.1 hl)
  | cons t ts ih =>
    rw [splitFrom_cons]
    dsimp only
    generalize hcd : (if !cur.isEmpty && startsBefore cur t then ([], closeLine cur done)
      else (cur, done)) = cd
    -- after the break, a non-empty current line means `t` does not start a line
    have hcd' : OpenLine cd.1 ∧ (∀ l ∈ cd.2, Placed l) ∧
        (cd.1 ≠ [] → t.tag.startsLine = false) := by
      split at hcd <;> subst hcd
      · exact ⟨openLine_nil, placed_closeLine cur done hopen hdone, fun h => absurd rfl h⟩
      · rename_i hb
        refine ⟨hopen, hdone, fun hne => ?_⟩
        have hs : startsBefore cur t = false := by
          simpa [List.isEmpty_iff, hne] using hb
        simp only [startsBefore, Bool.or_eq_false_iff] at hs
        exact hs.1.1
    obtain ⟨hopen', hdone', hstart⟩ := hcd'
    have hu := tag_retag_of_closing t (t.tag == .closing && t.text == ")" && af)
    generalize (if (t.tag == .closing && t.text == ")" && af) = true then
      t.retag .closeParameters else t) = u at hu ⊢
    have hustart : cd.1 ≠ [] → u.tag.startsLine = false := by
      intro hne
      rcases hu with hu | hu <;> rw [hu]
      · exact hstart hne
      · rfl
    split
    · exact ih _ _ _ openLine_nil (placed_closeLine_cons u cd.1 cd.2 hopen' hustart hdone')
    · rename_i hend
      have hend' : u.tag.endsLine = false := by
        simp only [Bool.or_eq_true, not_or, Bool.not_eq_true] at hend
        exact hend.1.2
      exact ih _ _ _ (openLine_cons u cd.1 hopen' hustart hend') hdone'

/-- **Tokens that always start or end a line stand at its ends.** In every line, no token
after the first has a tag that always starts a line, and no token before the last one whose
tag always ends a line. -/
theorem placed_of_mem_ofTokens (ts : List Token) : ∀ l ∈ (ofTokens ts).lines, Placed l :=
  splitFrom_placed false [] [] ts openLine_nil (by simp)

/-! ### The cut reads only tags and the texts of `close` tokens -/

/-- A relation between tokens that line splitting cannot tell apart: related tokens have the
same tag and, for a `close`, the same text, and retagging both keeps them related. -/
structure SplitsAlike (R : Token → Token → Prop) : Prop where
  tag_eq : ∀ {t t'}, R t t' → t'.tag = t.tag
  text_eq_of_closing : ∀ {t t'}, R t t' → t.tag = .closing → t'.text = t.text
  retag : ∀ {t t'}, R t t' → R (t.retag .closeParameters) (t'.retag .closeParameters)

/-- Two lines whose tokens are related one by one. -/
def LineRel (R : Token → Token → Prop) (l l' : Line) : Prop := Forall₂ R l.tokens l'.tokens

section Congruence

variable {R : Token → Token → Prop} (hR : SplitsAlike R)
include hR

theorem map_tag_eq {ts ts' : List Token} (h : Forall₂ R ts ts') :
    ts'.map Token.tag = ts.map Token.tag := by
  induction h with
  | nil => rfl
  | cons hx _ ih => rw [map_cons, map_cons, hR.tag_eq hx, ih]

theorem startsBefore_congr {cur cur' : List Token} {t t' : Token} (hcur : Forall₂ R cur cur')
    (ht : R t t') : startsBefore cur' t' = startsBefore cur t := by
  have hmap := map_tag_eq hR hcur
  have hlast : cur'.getLast?.map Token.tag = cur.getLast?.map Token.tag := by
    rw [← getLast?_map, ← getLast?_map, hmap]
  have hhead : cur'.head?.map Token.tag = cur.head?.map Token.tag := by
    rw [← head?_map, ← head?_map, hmap]
  have hlast' : cur'.getLast?.map (·.tag.ownsDo) = cur.getLast?.map (·.tag.ownsDo) := by
    simpa [Option.map_map, Function.comp_def] using congrArg (Option.map Tag.ownsDo) hlast
  have hhead' : cur'.head?.map (·.tag.bindsFunction) = cur.head?.map (·.tag.bindsFunction) := by
    simpa [Option.map_map, Function.comp_def] using congrArg (Option.map Tag.bindsFunction) hhead
  simp only [startsBefore, hR.tag_eq ht, hlast', hhead']

theorem closesParameters_congr {t t' : Token} (ht : R t t') (af : Bool) :
    (t'.tag == .closing && t'.text == ")" && af) = (t.tag == .closing && t.text == ")" && af) := by
  rw [hR.tag_eq ht]
  by_cases hc : t.tag = .closing
  · rw [hR.text_eq_of_closing ht hc]
  · rw [beq_false_of_ne hc, Bool.false_and, Bool.false_and, Bool.false_and, Bool.false_and]

omit hR in
theorem closeLine_congr {cur cur' : List Token} {done done' : List Line}
    (hcur : Forall₂ R cur cur') (hdone : Forall₂ (LineRel R) done done') :
    Forall₂ (LineRel R) (closeLine cur done) (closeLine cur' done') := by
  cases hcur with
  | nil => exact hdone
  | cons hu hcur =>
    rename_i u u' cur cur'
    obtain ⟨l, hl, htok⟩ := closeLine_cons u cur done
    obtain ⟨l', hl', htok'⟩ := closeLine_cons u' cur' done'
    rw [hl, hl']
    refine .cons ?_ hdone
    rw [LineRel, htok, htok', forall₂_reverse_iff]
    exact .cons hu hcur

theorem splitFrom_congr (af : Bool) {cur cur' : List Token} {done done' : List Line}
    {ts ts' : List Token} (hts : Forall₂ R ts ts') (hcur : Forall₂ R cur cur')
    (hdone : Forall₂ (LineRel R) done done') :
    Forall₂ (LineRel R) (splitFrom af cur done ts) (splitFrom af cur' done' ts') := by
  induction hts generalizing af cur cur' done done' with
  | nil =>
    rw [splitFrom, splitFrom, forall₂_reverse_iff]
    exact closeLine_congr hcur hdone
  | cons ht hts ih =>
    rename_i t t' ts ts'
    rw [splitFrom_cons, splitFrom_cons]
    dsimp only
    -- both walks break before the token alike, retag it alike and end the line alike
    have hempty : cur'.isEmpty = cur.isEmpty := by
      rw [Bool.eq_iff_iff, List.isEmpty_iff, List.isEmpty_iff, ← length_eq_zero_iff,
        ← length_eq_zero_iff, hcur.length_eq]
    rw [startsBefore_congr hR hcur ht, hempty, closesParameters_congr hR ht]
    have hcd : Forall₂ R (if !cur.isEmpty && startsBefore cur t then ([], closeLine cur done)
          else (cur, done)).1
        (if !cur.isEmpty && startsBefore cur t then ([], closeLine cur' done')
          else (cur', done')).1 ∧
        Forall₂ (LineRel R) (if !cur.isEmpty && startsBefore cur t then ([], closeLine cur done)
          else (cur, done)).2
        (if !cur.isEmpty && startsBefore cur t then ([], closeLine cur' done')
          else (cur', done')).2 := by
      split
      · exact ⟨.nil, closeLine_congr hcur hdone⟩
      · exact ⟨hcur, hdone⟩
    generalize (if !cur.isEmpty && startsBefore cur t then ([], closeLine cur done)
      else (cur, done)) = cd at hcd ⊢
    generalize (if !cur.isEmpty && startsBefore cur t then ([], closeLine cur' done')
      else (cur', done')) = cd' at hcd ⊢
    have hu : R (if (t.tag == .closing && t.text == ")" && af) = true then
          t.retag .closeParameters else t)
        (if (t.tag == .closing && t.text == ")" && af) = true then
          t'.retag .closeParameters else t') := by
      split
      · exact hR.retag ht
      · exact ht
    generalize (if (t.tag == .closing && t.text == ")" && af) = true then
      t.retag .closeParameters else t) = u at hu ⊢
    generalize (if (t.tag == .closing && t.text == ")" && af) = true then
      t'.retag .closeParameters else t') = u' at hu ⊢
    have hnext : (ts'.head?.map (·.tag)).getD .finish = (ts.head?.map (·.tag)).getD .finish := by
      cases hts with
      | nil => rfl
      | cons hv _ => simp [hR.tag_eq hv]
    rw [hR.tag_eq hu, hnext]
    split
    · exact ih _ .nil (closeLine_congr (.cons hu hcd.1) hcd.2)
    · exact ih _ (.cons hu hcd.1) hcd.2

/-- **The cut reads only tags and the texts of `close` tokens.** Token lists related one by
one by a relation that line splitting cannot tell apart are cut into lines related one by
one. -/
theorem ofTokens_congr {ts ts' : List Token} (h : Forall₂ R ts ts') :
    Forall₂ (LineRel R) (ofTokens ts).lines (ofTokens ts').lines :=
  splitFrom_congr hR false h .nil .nil

end Congruence

end LuaReflow.Document
