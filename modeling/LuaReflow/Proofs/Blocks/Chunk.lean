import LuaReflow.Reflow
import LuaReflow.Proofs.Blocks.Piece
import LuaReflow.Proofs.Lexeme.Scanned

/-!
# A block program as pieces and runs of blanks

A block program is written as its fixed pieces (`Blocks.Piece`) with runs of blanks between
them, each piece and each run lying in some number of block bodies. This file follows such a
list of chunks through the whole reflow, from its characters to the lines written out.

* `Blocks.Chunk` — a piece or a run of blanks, with its depth. A run is sound when it is a
  non-empty run of spaces, tabs and line feeds; chunks fit when no two pieces touch and a run
  after the line comment starts with the line feed that ends it (`Chunk.Fits`).
* `Chunk.merge` — runs that touch make one run. Along a walk through the depths, runs that
  touch lie at one depth, so merging keeps every character and its depth (`Chunk.walk_merge`).
* `Chunk.scanFrom_chunks` — chunks whose runs are whole are read as the tokens of their pieces,
  with a blank-line token for each run that holds two line feeds.
* `Chunk.splitFrom_tokens` — those tokens are cut into the lines of the pieces, and a line of its
  own for each blank-line token.
* **`Chunk.reflow_chunks`** — sound, fitting chunks that walk from depth zero back to zero are
  reflowed without error: each line is written after as many tabs as the depth of its first
  character, and the changes of depth across the lines add up to zero.
-/

namespace LuaReflow

namespace Blocks

open List Document

/-- A stretch of a block program: one of its pieces, or a run of blanks, with the number of
block bodies it lies in. -/
inductive Chunk
  | piece (p : Piece) (d : Nat)
  | space (w : List Char) (d : Nat)
  deriving DecidableEq, Repr

namespace Chunk

/-- The number of block bodies a chunk lies in. -/
def depth : Chunk → Nat
  | piece _ d => d
  | space _ d => d

def chars : Chunk → List Char
  | piece p _ => p.chars
  | space w _ => w

/-- The characters of a chunk, each with the number of block bodies it lies in. -/
def marked (c : Chunk) : List (Char × Nat) := c.chars.map (·, c.depth)

/-- The depth before a chunk: one level below its own for a piece that closes a body. -/
def enter : Chunk → Nat
  | piece p d => d + p.closes.toNat
  | space _ d => d

/-- The depth after a chunk: one level below its own for a piece that opens a body. -/
def exit : Chunk → Nat
  | piece p d => d + p.opens.toNat
  | space _ d => d

def isSpace : Chunk → Bool
  | piece .. => false
  | space .. => true

/-- A run of blanks is not empty and holds only spaces, tabs and line feeds. -/
def Sound : Chunk → Prop
  | piece .. => True
  | space w _ => w ≠ [] ∧ ∀ x ∈ w, x = ' ' ∨ x = '\t' ∨ x = '\n'

/-- What may follow a chunk: never a piece after a piece, and after the line comment only a run
that starts with the line feed ending it. -/
def Fits : Chunk → Chunk → Prop
  | piece .., piece .. => False
  | piece p _, space w _ => p = .lineComment → w.head? = some '\n'
  | space .., _ => True

/-- As `Fits`, and never a run after a run: each run of blanks is whole. -/
def Apart (c c' : Chunk) : Prop := Fits c c' ∧ (c.isSpace && c'.isSpace) = false

/-- The number of block bodies holding the character at offset `o` of the chunks' text; zero
past its end. -/
def depthAt (cs : List Chunk) (o : Nat) : Nat := ((cs.flatMap marked)[o]?.map Prod.snd).getD 0

@[simp] theorem length_marked (c : Chunk) : c.marked.length = c.chars.length := length_map _

/-! ### Runs that touch make one run -/

/-- A chunk put before chunks whose runs are whole: a run takes in the run after it. -/
def join : Chunk → List Chunk → List Chunk
  | space w d, space w' _ :: cs => space (w ++ w') d :: cs
  | c, cs => c :: cs

/-- The chunks with the runs of blanks that touch made one. -/
def merge : List Chunk → List Chunk
  | [] => []
  | c :: cs => join c (merge cs)

/-- A chunk is joined to the chunks after it by merging two runs, or it is put before them,
when they are not two runs. -/
theorem join_cases (c : Chunk) (cs : List Chunk) :
    (∃ w d w' e rest, c = space w d ∧ cs = space w' e :: rest ∧
      join c cs = space (w ++ w') d :: rest) ∨
    (join c cs = c :: cs ∧ ∀ y ∈ cs.head?, (c.isSpace && y.isSpace) = false) := by
  match c, cs with
  | space w d, space w' e :: rest => exact .inl ⟨w, d, w', e, rest, rfl, rfl, rfl⟩
  | piece p d, cs => exact .inr ⟨rfl, fun _ _ => rfl⟩
  | space w d, [] => exact .inr ⟨rfl, by simp⟩
  | space w d, piece p e :: cs => exact .inr ⟨rfl, by simp [isSpace]⟩

theorem flatMap_chars_join (c : Chunk) (cs : List Chunk) :
    (join c cs).flatMap chars = c.chars ++ cs.flatMap chars := by
  rcases join_cases c cs with ⟨w, d, w', e, rest, rfl, rfl, hj⟩ | ⟨hj, -⟩
  · simp [hj, chars]
  · rw [hj, flatMap_cons]

theorem flatMap_chars_merge (cs : List Chunk) : (merge cs).flatMap chars = cs.flatMap chars := by
  induction cs with
  | nil => rfl
  | cons c cs ih => rw [merge, flatMap_chars_join, ih, flatMap_cons]

/-- Joining a chunk to the chunks after it keeps the walk, and every character with its depth:
a run that touches a run starts at the depth the first one leaves. -/
theorem walk_join {a z : Nat} {c : Chunk} {cs : List Chunk} (hc : c.enter = a)
    (h : Walk enter exit c.exit cs z) :
    Walk enter exit a (join c cs) z ∧ (join c cs).flatMap marked = c.marked ++ cs.flatMap marked := by
  rcases join_cases c cs with ⟨w, d, w', e, rest, rfl, rfl, hj⟩ | ⟨hj, -⟩
  · rw [hj]
    obtain _ | ⟨hed, htail⟩ := h
    have hed : e = d := hed
    subst hed
    exact ⟨.cons hc htail, by simp [marked, chars, depth]⟩
  · rw [hj]
    exact ⟨.cons hc h, rfl⟩

/-- **Merging keeps the walk and the depths.** -/
theorem walk_merge {a z : Nat} {cs : List Chunk} (h : Walk enter exit a cs z) :
    Walk enter exit a (merge cs) z ∧ (merge cs).flatMap marked = cs.flatMap marked := by
  induction h with
  | nil => exact ⟨.nil _, rfl⟩
  | cons hc _ ih =>
    obtain ⟨hwalk, hmarked⟩ := walk_join hc ih.1
    exact ⟨hwalk, by rw [merge, hmarked, ih.2, flatMap_cons]⟩

theorem sound_join {c : Chunk} {cs : List Chunk} (hc : c.Sound) (hcs : ∀ x ∈ cs, x.Sound) :
    ∀ x ∈ join c cs, x.Sound := by
  rcases join_cases c cs with ⟨w, d, w', e, rest, rfl, rfl, hj⟩ | ⟨hj, -⟩
  · rw [hj, forall_mem_cons]
    obtain ⟨⟨-, hblank'⟩, hrest⟩ := forall_mem_cons.1 hcs
    refine ⟨⟨by simp [hc.1], fun y hy => ?_⟩, hrest⟩
    rcases mem_append.1 hy with hy | hy
    · exact hc.2 y hy
    · exact hblank' y hy
  · rw [hj]
    exact forall_mem_cons.2 ⟨hc, hcs⟩

theorem sound_merge {cs : List Chunk} (h : ∀ x ∈ cs, x.Sound) : ∀ x ∈ merge cs, x.Sound := by
  induction cs with
  | nil => simp [merge]
  | cons c cs ih =>
    rw [forall_mem_cons] at h
    exact sound_join h.1 (ih h.2)

/-- What fits before a sound chunk fits before it joined to the chunks after it: the chunk keeps
its kind, and a run keeps its first character. -/
theorem fits_head_join {b c : Chunk} (hfit : Fits b c) (hc : c.Sound) (cs : List Chunk) :
    ∀ y ∈ (join c cs).head?, Fits b y := by
  rcases join_cases c cs with ⟨w, d, w', e, rest, rfl, rfl, hj⟩ | ⟨hj, -⟩
  · rw [hj, head?_cons]
    intro y hy
    rw [Option.mem_some_iff] at hy
    subst hy
    cases b with
    | piece p _ =>
      intro hp
      rw [head?_append_of_ne_nil _ hc.1]
      exact hfit hp
    | space => trivial
  · rw [hj, head?_cons]
    simpa using hfit

/-- A chunk joined to chunks whose runs are whole, and which fits before them, leaves the runs
whole. -/
theorem apart_join {c : Chunk} {cs : List Chunk} (hcs : IsChain Apart cs)
    (hfit : ∀ y ∈ cs.head?, Fits c y) : IsChain Apart (join c cs) := by
  rcases join_cases c cs with ⟨w, d, w', e, rest, rfl, rfl, hj⟩ | ⟨hj, hsp⟩
  · -- the run after a run is followed by a piece, or by nothing
    rw [hj]
    rw [isChain_cons] at hcs ⊢
    exact ⟨fun y hy => ⟨trivial, (hcs.1 y hy).2⟩, hcs.2⟩
  · rw [hj]
    exact hcs.cons fun y hy => ⟨hfit y hy, hsp y hy⟩

/-- **Merging makes the runs whole.** Sound chunks that fit are merged into sound chunks that
fit, with no run after a run. -/
theorem apart_merge {cs : List Chunk} (hfit : IsChain Fits cs) (hsound : ∀ x ∈ cs, x.Sound) :
    IsChain Apart (merge cs) := by
  induction cs with
  | nil => exact .nil
  | cons c cs ih =>
    rw [forall_mem_cons] at hsound
    refine apart_join (ih hfit.tail hsound.2) ?_
    -- the head of the merged rest is the head of the rest, a run perhaps grown
    cases cs with
    | nil => simp [merge]
    | cons x cs =>
      exact fits_head_join (isChain_cons_cons.1 hfit).1 (hsound.2 x mem_cons_self) _

/-! ### Reading the chunks -/

/-- `f` at each chunk and the offset where it starts, the first starting at `pos`, in order. -/
def flatMapAt {β : Type} (f : Nat → Chunk → List β) : Nat → List Chunk → List β
  | _, [] => []
  | pos, c :: cs => f pos c ++ flatMapAt f (pos + c.chars.length) cs

/-- The tokens of a chunk that starts at offset `pos`: those of a piece, and a blank-line token
for a run that holds two line feeds. -/
def tokens (pos : Nat) : Chunk → List Token
  | piece p _ => p.tokens pos
  | space w _ => if 2 ≤ w.count '\n' then [⟨.blank, String.ofList w, pos⟩] else []

theorem isLexBlank_of_blank {x : Char} (h : x = ' ' ∨ x = '\t' ∨ x = '\n') :
    Text.isLexBlank x = true := by
  rcases h with rfl | rfl | rfl <;> rfl

/-- The chunks after a whole run start with a piece, whose first character is no blank, or are
none at all. -/
theorem head_chars_not_blank_of_space {w : List Char} {d : Nat} {cs : List Chunk}
    (hapart : IsChain Apart (space w d :: cs)) :
    ∀ x ∈ (cs.flatMap chars).head?, Text.isLexBlank x = false := by
  intro x hx
  cases cs with
  | nil => cases hx
  | cons y cs =>
    cases y with
    | space => exact absurd (isChain_cons_cons.1 hapart).1.2 (by simp [isSpace])
    | piece p e =>
      have hhead := Piece.head_chars_not_blank p
      cases hp : p.chars with
      | nil => rw [hp] at hhead; cases hhead
      | cons z zs =>
        rw [hp, head?_cons, Option.map_some, Option.some.injEq] at hhead
        rw [flatMap_cons, chars, hp, cons_append, head?_cons, Option.mem_some_iff] at hx
        rw [← hx, hhead]

/-- One chunk is read as its tokens, when the chunks after it keep the runs whole. -/
theorem scanFrom_chunk {c : Chunk} {cs : List Chunk} (hapart : IsChain Apart (c :: cs))
    (hc : c.Sound) (hcs : ∀ x ∈ cs, x.Sound) (pos : Nat) (acc : List Token) :
    Token.scanFrom pos acc (c.chars ++ cs.flatMap chars) =
      Token.scanFrom (pos + c.chars.length) ((c.tokens pos).reverse ++ acc) (cs.flatMap chars) := by
  cases c with
  | piece p d =>
    cases cs with
    | nil =>
      rw [flatMap_nil, append_nil, chars, Token.scanFrom_piece_end (Piece.scanPiece_end p),
        Token.scanFrom]
      simp [tokens, Piece.tokens]
    | cons x cs =>
      -- a piece is followed by a run, which starts with a blank the piece admits after it
      obtain ⟨hfit, -⟩ := (isChain_cons_cons.1 hapart).1
      cases x with
      | piece => exact hfit.elim
      | space w e =>
        obtain ⟨hne, hw⟩ := hcs _ mem_cons_self
        obtain ⟨b, w', rfl⟩ := exists_cons_of_ne_nil hne
        have hb := hw b mem_cons_self
        have hp : p = .lineComment → b = '\n' := fun h => by simpa using hfit h
        rw [flatMap_cons, chars, chars, cons_append,
          Token.scanFrom_piece_blank (isLexBlank_of_blank hb) (Piece.scanPiece_blank p hb hp)]
        rfl
  | space w d =>
    -- a run is read whole: what follows it starts with no blank
    rw [chars, Token.scanFrom_blanks (fun x hx => isLexBlank_of_blank (hc.2 x hx))
      (head_chars_not_blank_of_space hapart)]
    simp only [tokens, ge_iff_le]
    split <;> rfl

/-- **The chunks are read as their tokens.** Sound chunks whose runs are whole are read, from
offset `pos`, as the tokens of each chunk in turn. -/
theorem scanFrom_chunks {cs : List Chunk} (hapart : IsChain Apart cs) (hsound : ∀ x ∈ cs, x.Sound)
    (pos : Nat) (acc : List Token) :
    Token.scanFrom pos acc (cs.flatMap chars) = .ok (acc.reverse ++ flatMapAt tokens pos cs) := by
  induction cs generalizing pos acc with
  | nil =>
    rw [flatMap_nil, Token.scanFrom]
    simp [flatMapAt]
  | cons c cs ih =>
    rw [forall_mem_cons] at hsound
    rw [flatMap_cons, scanFrom_chunk hapart hsound.1 hsound.2, ih hapart.tail hsound.2, flatMapAt]
    simp

/-! ### Cutting the tokens into lines -/

/-- The lines of a chunk that starts at offset `pos`, each with the depth it lies at: those of a
piece, and a line of its own for the blank-line token of a run. -/
def laid (pos : Nat) : Chunk → List (Line × Nat)
  | piece p d => (p.lines pos).map (·, d)
  | space w d => if 2 ≤ w.count '\n' then [(⟨⟨.blank, String.ofList w, pos⟩, []⟩, d)] else []

theorem startsStatement_flatMapAt {cs : List Chunk} (hapart : IsChain Apart cs) (pos : Nat) :
    StartsStatement (flatMapAt tokens pos cs) := by
  match cs with
  | [] => exact startsStatement_nil
  | piece p d :: cs => exact Piece.startsStatement_tokens_append p pos _
  | space w d :: cs =>
    rw [flatMapAt, tokens]
    split
    · intro t ht
      rw [singleton_append, head?_cons, Option.mem_some_iff] at ht
      rw [← ht]
      rfl
    · -- a run that is no blank line is followed by a piece, or by nothing
      match cs, hapart with
      | [], _ => exact startsStatement_nil
      | piece p e :: cs, _ => exact Piece.startsStatement_tokens_append p _ _
      | space .. :: _, h => exact absurd (isChain_cons_cons.1 h).1.2 (by simp [isSpace])

/-- A blank-line token is a line of its own. -/
theorem splitFrom_blank (t : Token) (ht : t.tag = .blank) (done : List Line) (ts : List Token) :
    splitFrom false [] done (t :: ts) = splitFrom false [] (⟨t, []⟩ :: done) ts := by
  rw [splitFrom_cons]
  simp [ht, Tag.isStopper, Tag.endsLine, closeLine, Line.ofList?]

/-- One chunk is cut into its lines, when the chunks after it keep the runs whole. -/
theorem splitFrom_chunk {c : Chunk} {cs : List Chunk} (hapart : IsChain Apart (c :: cs))
    (pos : Nat) (done : List Line) :
    splitFrom false [] done (flatMapAt tokens pos (c :: cs)) =
      splitFrom false [] (((c.laid pos).map Prod.fst).reverse ++ done)
        (flatMapAt tokens (pos + c.chars.length) cs) := by
  rw [flatMapAt]
  cases c with
  | piece p d =>
    have htail : IsChain Apart cs := hapart.tail
    rw [tokens, Piece.splitFrom_tokens_append p pos done (startsStatement_flatMapAt htail _),
      laid, map_map]
    simp [Function.comp_def]
  | space w d =>
    simp only [tokens, laid]
    split
    · exact splitFrom_blank _ rfl done _
    · rfl

/-- **The tokens are cut into the chunks' lines.** -/
theorem splitFrom_tokens {cs : List Chunk} (hapart : IsChain Apart cs) (pos : Nat)
    (done : List Line) :
    splitFrom false [] done (flatMapAt tokens pos cs) =
      done.reverse ++ (flatMapAt laid pos cs).map Prod.fst := by
  induction cs generalizing pos done with
  | nil => simp [flatMapAt, splitFrom, closeLine, Line.ofList?]
  | cons c cs ih =>
    rw [splitFrom_chunk hapart, ih hapart.tail, flatMapAt]
    simp

/-! ### Each line at the depth of its chunk -/

/-- The lines of a chunk take the depth from where the chunk starts to where it leaves it. -/
theorem walk_laid_chunk (c : Chunk) (pos : Nat) :
    Walk depthBefore depthAfter c.enter (c.laid pos) c.exit := by
  cases c with
  | piece p d => exact Piece.walk_lines p pos d
  | space w d =>
    rw [laid]
    split
    · exact .cons rfl (.nil _)
    · exact .nil _

theorem walk_laid {a z : Nat} {cs : List Chunk} (h : Walk enter exit a cs z) (pos : Nat) :
    Walk depthBefore depthAfter a (flatMapAt laid pos cs) z := by
  induction h generalizing pos with
  | nil => exact .nil _
  | @cons a z c cs hc _ ih =>
    rw [← hc]
    exact (walk_laid_chunk c pos).append (ih _)

/-- A line of a chunk starts within it, and lies at its depth. -/
theorem offset_of_mem_laid {c : Chunk} {pos : Nat} {l : Line} {e : Nat} (h : (l, e) ∈ c.laid pos) :
    pos ≤ l.first.offset ∧ l.first.offset < pos + c.chars.length ∧ e = c.depth := by
  cases c with
  | piece p d =>
    obtain ⟨l', hl', heq⟩ := mem_map.1 h
    obtain ⟨rfl, rfl⟩ := Prod.mk.inj heq
    exact ⟨(Piece.offset_lines hl').1, (Piece.offset_lines hl').2, rfl⟩
  | space w d =>
    rw [laid] at h
    split at h
    · rename_i hcount
      rw [mem_singleton, Prod.mk.injEq] at h
      obtain ⟨rfl, rfl⟩ := h
      -- a run holding two line feeds is not empty
      have hlen : count '\n' w ≤ w.length := count_le_length
      exact ⟨le_refl _, by simp [chars]; omega, rfl⟩
    · cases h

/-- **Each line at the depth of its first character.** A line cut from chunks that start at
`pos` starts at an offset whose character, counted from `pos`, lies at the depth the line is
paired with. -/
theorem depth_of_mem_laid {cs : List Chunk} {pos : Nat} {l : Line} {e : Nat}
    (h : (l, e) ∈ flatMapAt laid pos cs) :
    pos ≤ l.first.offset ∧
      ((cs.flatMap marked)[l.first.offset.toNat - pos]?).map Prod.snd = some e := by
  induction cs generalizing pos with
  | nil => cases h
  | cons c cs ih =>
    rw [flatMapAt, mem_append] at h
    rw [flatMap_cons]
    rcases h with h | h
    · obtain ⟨hlo, hhi, rfl⟩ := offset_of_mem_laid h
      have hi : l.first.offset.toNat - pos < c.marked.length := by
        rw [length_marked]
        omega
      refine ⟨hlo, ?_⟩
      rw [getElem?_append_left hi, getElem?_eq_getElem hi]
      simp [marked]
    · obtain ⟨hlo, hget⟩ := ih h
      have hi : c.marked.length ≤ l.first.offset.toNat - pos := by
        rw [length_marked]
        omega
      refine ⟨by omega, ?_⟩
      rw [getElem?_append_right hi, length_marked]
      have hsub : l.first.offset.toNat - pos - c.chars.length =
          l.first.offset.toNat - (pos + c.chars.length) := by omega
      rw [hsub, hget]

/-! ### The whole reflow -/

/-- **Sound, fitting chunks are reflowed by their depths.** Chunks that walk from depth zero back
to zero are read and laid out without error: each line is written after a line feed and as many
tabs as the depth of its first character, and the changes of depth across the lines add up to
zero. -/
theorem reflow_chunks (config : FormatConfig) (file : String) {cs : List Chunk}
    (hfit : IsChain Fits cs) (hsound : ∀ x ∈ cs, x.Sound) (hwalk : Walk enter exit 0 cs 0) :
    ∃ ts, Token.tokenize config.snippetWidth file (String.ofList (cs.flatMap chars)) = .ok ts ∧
      reflow config file (String.ofList (cs.flatMap chars)) =
        .ok (String.join ((ofTokens ts).lines.map fun l =>
          "\n" ++ Layout.tabs (depthAt cs l.first.offset.toNat) ++ l.text) ++ "\n") ∧
      ((ofTokens ts).lines.map Line.delta).sum = 0 := by
  obtain ⟨hwalk', hmarked⟩ := walk_merge hwalk
  have hapart := apart_merge hfit hsound
  -- the text is read as the tokens of the merged chunks
  have hscan : Token.scan (String.ofList (cs.flatMap chars)).toList =
      .ok (flatMapAt tokens 0 (merge cs)) := by
    rw [String.toList_ofList, ← flatMap_chars_merge, Token.scan,
      scanFrom_chunks hapart (sound_merge hsound) 0 []]
    rfl
  have hts : Token.tokenize config.snippetWidth file (String.ofList (cs.flatMap chars)) =
      .ok (flatMapAt tokens 0 (merge cs)) := Token.tokenize_eq_ok.2 hscan
  -- which are cut into the lines of the merged chunks, each at the depth of its chunk
  have hlines : (ofTokens (flatMapAt tokens 0 (merge cs))).lines =
      (flatMapAt laid 0 (merge cs)).map Prod.fst := by
    rw [ofTokens, splitFrom_tokens hapart 0 []]
    rfl
  have hlaid := walk_laid hwalk' 0
  have hdepths := writtenDepths_of_walk hlaid
  rw [Nat.cast_zero] at hdepths
  have hnonneg : ∀ e ∈ writtenDepths 0 (ofTokens (flatMapAt tokens 0 (merge cs))).lines, 0 ≤ e := by
    rw [hlines, hdepths]
    intro e he
    obtain ⟨p, -, rfl⟩ := mem_map.1 he
    exact Int.natCast_nonneg _
  have hrender := render_segment_of_nonneg
    (fun t ht => ((Token.scan_lexed hscan).scanned t ht).isDirective_eq_false) hnonneg
  refine ⟨_, hts, ?_, ?_⟩
  · -- each line is written at the depth of its chunk, the depth of its first character
    have hline : ∀ p ∈ flatMapAt laid 0 (merge cs), writtenLine p.1 p.2 =
        "\n" ++ Layout.tabs (depthAt cs p.1.first.offset.toNat) ++ p.1.text := by
      intro p hp
      obtain ⟨-, hget⟩ := depth_of_mem_laid hp
      rw [hmarked, Nat.sub_zero] at hget
      rw [writtenLine, Int.toNat_natCast, depthAt, hget]
      rfl
    simp only [reflow, hts, hrender, layoutText, linesText, hlines, hdepths, zip_map', map_map]
    congr 3
    exact map_congr_left hline
  · have hsum := sum_delta_of_walk hlaid
    rw [hlines]
    omega

end Chunk

end Blocks

end LuaReflow
