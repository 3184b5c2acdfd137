import LuaReflow.Proofs.Layout.Lines
import LuaReflow.Proofs.Lexeme.Relex

/-!
# The laid-out text, token by token

`Document.linesText` writes a document line by line; `Token.spacedText` writes tokens one by
one, each after its lead. The two agree (`Document.linesText_toList`) when the lead of a
line's first token is a line feed and the line's tabs, and the lead of every other token is
empty (`Document.leadsFrom`). Since only the first token of a line may always start one and
only the last may always end one, these leads are `Token.Spaced` (`Document.spaced_leadsFrom`).

Line splitting retags a parameter-list `close`; the text it writes is that of the tokens it
was given, and moving the leads back onto those tokens (`Document.relead`) keeps them
`Token.Spaced` (`Document.layoutText_toList`).
-/

namespace LuaReflow

open List

namespace Document

/-- Each token of the lines `ls` laid out from depth `d`, after the lead written before it: a
line feed and the line's tabs before its first token, nothing before the others. -/
def leadsFrom (d : Int) : List Line → List (List Char × Token)
  | [] => []
  | l :: ls =>
    let e := d - if l.dedentBefore then 1 else 0
    ('\n' :: replicate e.toNat '\t', l.first) :: l.rest.map (fun u => ([], u)) ++
      leadsFrom (e + if l.indentAfter then 1 else 0) ls

/-! ### The same text -/

theorem toList_tokenText (u : Token) :
    (Line.tokenText u).toList = Text.stripList u.text.toList ++ [' '] := by
  rw [Line.tokenText, String.toList_append, Text.strip, String.toList_ofList]
  rfl

theorem toList_lineText (l : Line) :
    l.text.toList = l.tokens.flatMap fun u => Text.stripList u.text.toList ++ [' '] := by
  rw [Line.text, String.toList_join, flatMap_map]
  simp only [toList_tokenText]

theorem spacedText_append (ps qs : List (List Char × Token)) :
    Token.spacedText (ps ++ qs) = Token.spacedText ps ++ Token.spacedText qs := by
  simp [Token.spacedText]

/-- One line, token by token: its lead, then its text. -/
theorem spacedText_line (w : List Char) (l : Line) :
    Token.spacedText ((w, l.first) :: l.rest.map fun u => ([], u)) = w ++ l.text.toList := by
  rw [toList_lineText, Line.tokens, flatMap_cons, Token.spacedText, flatMap_cons, flatMap_map]
  simp

theorem linesText_toList (d : Int) (ls : List Line) :
    (linesText d ls).toList = Token.spacedText (leadsFrom d ls) := by
  induction ls generalizing d with
  | nil => rfl
  | cons l ls ih =>
    rw [linesText_cons, String.toList_append, ih, leadsFrom, cons_append, ← cons_append,
      spacedText_append, spacedText_line, writtenLine, String.toList_append,
      String.toList_append, Layout.tabs, String.toList_ofList]
    simp

theorem map_snd_leadsFrom (d : Int) (ls : List Line) :
    (leadsFrom d ls).map Prod.snd = ls.flatMap Line.tokens := by
  induction ls generalizing d with
  | nil => rfl
  | cons l ls ih =>
    rw [leadsFrom, cons_append, map_cons, map_append, map_map, ih, flatMap_cons, Line.tokens]
    simp [Function.comp_def]

/-! ### The leads are spaced -/

/-- Within a line, a token before the last never always ends a line. -/
theorem isChain_line (w : List Char) (u : Token) (us : List Token)
    (h : ∀ x ∈ (u :: us).dropLast, x.tag.endsLine = false) :
    ((w, u) :: us.map fun v => ([], v)).IsChain
      fun p q => p.2.tag.endsLine = true → q.1 ≠ [] := by
  induction us generalizing w u with
  | nil => exact isChain_singleton _
  | cons v vs ih =>
    refine isChain_cons_cons.2 ⟨fun hend => ?_, ih [] v fun x hx => h x ?_⟩
    · rw [h u (by simp)] at hend
      cases hend
    · rw [dropLast_cons_cons]
      exact mem_cons_of_mem u hx

theorem head?_leadsFrom (d : Int) (ls : List Line) : ∀ p ∈ (leadsFrom d ls).head?, p.1 ≠ [] := by
  cases ls with
  | nil => simp [leadsFrom]
  | cons l ls => simp [leadsFrom]

/-- **The layout's leads are spaced.** -/
theorem spaced_leadsFrom (d : Int) {ls : List Line} (hls : ∀ l ∈ ls, Placed l) :
    Token.Spaced (leadsFrom d ls) := by
  induction ls generalizing d with
  | nil => exact ⟨by simp [leadsFrom], by simp [leadsFrom], by simp [leadsFrom]⟩
  | cons l ls ih =>
    have hl := hls l mem_cons_self
    have ih' := ih (d - (if l.dedentBefore then 1 else 0) + if l.indentAfter then 1 else 0)
      (fun l' hl' => hls l' (mem_cons_of_mem l hl'))
    rw [leadsFrom]
    refine ⟨fun p hp => ?_, fun p hp hstart => ?_, ?_⟩
    · -- a line's first token gets a line feed and tabs, the others nothing
      rcases mem_append.1 hp with hp | hp
      · rcases mem_cons.1 hp with rfl | hp
        · exact .inr ⟨_, rfl⟩
        · obtain ⟨u, -, rfl⟩ := mem_map.1 hp
          exact .inl rfl
      · exact ih'.lead p hp
    · -- only a line's first token may always start a line
      rcases mem_append.1 hp with hp | hp
      · rcases mem_cons.1 hp with rfl | hp
        · simp
        · obtain ⟨u, hu, rfl⟩ := mem_map.1 hp
          rw [hl.1 u hu] at hstart
          cases hstart
      · exact ih'.starts p hp hstart
    · -- and the token after a line's last one starts the next line
      rw [isChain_append]
      refine ⟨isChain_line _ l.first l.rest hl.2, ih'.ends, fun _ _ q hq _ => ?_⟩
      exact head?_leadsFrom _ ls q hq

/-! ### Back onto the tokens given -/

/-- The leads of `ps` on the tokens `ts`. -/
def relead (ps : List (List Char × Token)) (ts : List Token) : List (List Char × Token) :=
  zipWith (fun p t => (p.1, t)) ps ts

section Relead

variable {ps : List (List Char × Token)} {ts : List Token}

theorem Kept.text_eq {t u : Token} (h : Kept t u) : u.text = t.text := by
  rcases h with rfl | ⟨-, rfl⟩ <;> rfl

theorem Kept.startsLine_eq {t u : Token} (h : Kept t u) : u.tag.startsLine = t.tag.startsLine := by
  rcases h with rfl | ⟨ht, rfl⟩
  · rfl
  · rw [Token.tag_retag, ht]
    rfl

theorem Kept.endsLine_eq {t u : Token} (h : Kept t u) : u.tag.endsLine = t.tag.endsLine := by
  rcases h with rfl | ⟨ht, rfl⟩
  · rfl
  · rw [Token.tag_retag, ht]
    rfl

variable (h : Forall₂ (fun t p => Kept t p.2) ts ps)
include h

theorem map_snd_relead : (relead ps ts).map Prod.snd = ts := by
  induction h with
  | nil => rfl
  | cons _ _ ih =>
    rw [relead, zipWith_cons_cons, map_cons]
    exact congrArg _ ih

theorem spacedText_relead : Token.spacedText (relead ps ts) = Token.spacedText ps := by
  induction h with
  | nil => rfl
  | cons hk _ ih =>
    rw [relead, zipWith_cons_cons, Token.spacedText_cons, Token.spacedText_cons, Kept.text_eq hk]
    exact congrArg _ (congrArg _ ih)

theorem spaced_relead (hs : Token.Spaced ps) : Token.Spaced (relead ps ts) := by
  induction h with
  | nil => exact ⟨by simp [relead], by simp [relead], by simp [relead]⟩
  | @cons t p ts ps hk hrest ih =>
    have ih' := ih hs.tail
    rw [relead, zipWith_cons_cons]
    refine ⟨fun q hq => ?_, fun q hq hstart => ?_, ?_⟩
    · rcases mem_cons.1 hq with rfl | hq
      · exact hs.lead p mem_cons_self
      · exact ih'.lead q hq
    · rcases mem_cons.1 hq with rfl | hq
      · exact hs.starts p mem_cons_self (by rw [Kept.startsLine_eq hk]; exact hstart)
      · exact ih'.starts q hq hstart
    · -- the next lead is the one `ps` has there
      refine isChain_cons.2 ⟨fun q hq hend => ?_, ih'.ends⟩
      cases hrest with
      | nil => cases hq
      | @cons t' p' ts' ps' _ _ =>
        obtain rfl : (p'.1, t') = q := Option.some.inj hq
        exact (isChain_cons_cons.1 hs.ends).1 (by rw [Kept.endsLine_eq hk]; exact hend)

end Relead

/-- **The laid-out text, token by token.** The text of a document's lines is the text its
tokens make one by one, each after a spaced lead, and the final line feed. -/
theorem layoutText_toList (ts : List Token) :
    ∃ ps, Token.Spaced ps ∧ ps.map Prod.snd = ts ∧
      (layoutText (ofTokens ts).lines).toList = Token.spacedText ps ++ ['\n'] := by
  obtain ⟨us, hus, heq⟩ := tokens_ofTokens ts
  have hkept : Forall₂ (fun t p => Kept t p.2) ts (leadsFrom 0 (ofTokens ts).lines) := by
    rw [← forall₂_map_right_iff, map_snd_leadsFrom, heq]
    exact hus
  refine ⟨relead _ ts, spaced_relead hkept (spaced_leadsFrom 0 (placed_of_mem_ofTokens ts)),
    map_snd_relead hkept, ?_⟩
  rw [spacedText_relead hkept, layoutText, String.toList_append, linesText_toList]
  rfl

end Document

end LuaReflow
