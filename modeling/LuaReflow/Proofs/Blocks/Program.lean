import LuaReflow.Proofs.Blocks.Chunk
import LuaReflow.Proofs.Document.Notes
import LuaReflow.Proofs.Reflow.Rescan

/-!
# Indentation follows the nesting of blocks

A block program is a sequence of statements separated by runs of spaces, tabs and line feeds. A
statement is one of the simple statements, a line comment, a blank line, or a block whose
bodies are again programs: `if`, `if … else`, `if … elseif`, `while`, the two `for` loops,
`repeat … until`, `do … end`, and the named, method, local, assigned and passed functions. A
block is written as its keywords with a blank between each keyword and a body.

* `Blocks.Program` — the programs, with `Statement` and `Sequence`; `Program.source` is the text
  of a program and `Program.depthAt` the number of block bodies that hold a character of it.
* `Blocks.Printed` — what the chunks of every statement, sequence and program keep: they are
  sound, they fit, any run of blanks may follow them, and they walk from their depth back to it.
* **`reflow_indents_by_nesting`** — every program is reflowed without error. Each line is written
  after as many tabs as there are block bodies around its first character, and the lines leave
  the depth at zero, where they found it.
* **`reflow_noted_program`** — comments and blank lines put anywhere between the tokens of a
  program keep it reflowing without error, and write no token of it shallower; a comment in the
  keywords of a block can write the code after it deeper, to the end
  (`reflow_for_header_split_by_comment`).
-/

namespace LuaReflow

namespace Blocks

open List Document Chunk

/-- The simple statements written as one piece. -/
inductive Simple
  | assignNumber | printCall | localCall | indexAssign | methodCall | longAssign | breakStmt
  | blockComment
  deriving DecidableEq, Repr

def Simple.piece : Simple → Piece
  | assignNumber => .assignNumber
  | printCall => .printCall
  | localCall => .localCall
  | indexAssign => .indexAssign
  | methodCall => .methodCall
  | longAssign => .longAssign
  | breakStmt => .breakStmt
  | blockComment => .blockComment

/-- The blocks with one body, by their keywords. -/
inductive Block
  | ifThen | whileDo | forNumeric | forGeneric | repeatUntil | doEnd | functionNamed
  | functionMethod | localFunction | localAnonymous | callAnonymous
  deriving DecidableEq, Repr

/-- The keywords written before the body of a block. -/
def Block.header : Block → Piece
  | ifThen => .ifThen
  | whileDo => .whileDo
  | forNumeric => .forNumeric
  | forGeneric => .forGeneric
  | repeatUntil => .repeatKw
  | doEnd => .doKw
  | functionNamed => .functionNamed
  | functionMethod => .functionMethod
  | localFunction => .localFunction
  | localAnonymous => .localAnonymous
  | callAnonymous => .callAnonymous

/-- The keywords written after the body of a block. -/
def Block.closer : Block → Piece
  | repeatUntil => .untilC
  | callAnonymous => .endCall
  | _ => .endKw

/-- The `if` blocks with two bodies, by the keywords between the bodies. -/
inductive Branch
  | elseKw | elseifThen
  deriving DecidableEq, Repr

def Branch.middle : Branch → Piece
  | elseKw => .elseKw
  | elseifThen => .elseifThen

/-- What separates two statements: a non-empty run of spaces, tabs and line feeds. -/
structure Sep where
  chars : List Char
  ne_nil : chars ≠ []
  blank : ∀ x ∈ chars, x = ' ' ∨ x = '\t' ∨ x = '\n'

mutual

/-- A statement of a block program. -/
inductive Statement
  | simple (s : Simple)
  /-- `-- note` and the line feed that ends it. -/
  | lineComment
  /-- Two line feeds. -/
  | blankLine
  | block (k : Block) (body : Program)
  | branch (k : Branch) (first second : Program)

/-- A block program: no statement, or statements separated by blanks. -/
inductive Program
  | empty
  | seq (ss : Sequence)

/-- One or more statements separated by blanks. -/
inductive Sequence
  | one (s : Statement)
  | cons (s : Statement) (sep : Sep) (ss : Sequence)

end

/-- A body one level below its block, after the blank that ends the keywords before it and
before the blank that starts the keywords after it. -/
def inner (d : Nat) (body : List Chunk) : List Chunk :=
  [.space [' '] (d + 1)] ++ body ++ [.space [' '] (d + 1)]

mutual

/-- The chunks of a statement that lies in `d` block bodies: its keywords at depth `d`, and the
bodies of a block, with the blanks around them, at depth `d + 1`. -/
def Statement.chunks (d : Nat) : Statement → List Chunk
  | .simple s => [.piece s.piece d]
  | .lineComment => [.piece .lineComment d, .space ['\n'] d]
  | .blankLine => [.space ['\n', '\n'] d]
  | .block k b => [.piece k.header d] ++ inner d (b.chunks (d + 1)) ++ [.piece k.closer d]
  | .branch k b c =>
    [.piece .ifThen d] ++ inner d (b.chunks (d + 1)) ++
      ([.piece k.middle d] ++ inner d (c.chunks (d + 1)) ++ [.piece .endKw d])

def Program.chunks (d : Nat) : Program → List Chunk
  | .empty => []
  | .seq ss => ss.chunks d

def Sequence.chunks (d : Nat) : Sequence → List Chunk
  | .one s => s.chunks d
  | .cons s sep ss => s.chunks d ++ .space sep.chars d :: ss.chunks d

end

/-- The text of a program. -/
def Program.source (P : Program) : String := String.ofList ((P.chunks 0).flatMap Chunk.chars)

/-- The number of block bodies that hold the character at offset `o` of a program's text. -/
def Program.depthAt (P : Program) (o : Nat) : Nat := Chunk.depthAt (P.chunks 0) o

/-- `if c then x = 1 end`: the assignment lies in the body of the `if`. -/
example : (Program.seq (.one (.block .ifThen (.seq (.one (.simple .assignNumber)))))).source =
    "if c then x = 1 end" := by decide

/-! ### The keywords of each block -/

theorem Simple.piece_flags (s : Simple) :
    s.piece ≠ .lineComment ∧ s.piece.closes = false ∧ s.piece.opens = false := by
  cases s <;> decide

theorem Block.header_flags (k : Block) :
    k.header ≠ .lineComment ∧ k.header.closes = false ∧ k.header.opens = true := by
  cases k <;> decide

theorem Block.closer_flags (k : Block) :
    k.closer ≠ .lineComment ∧ k.closer.closes = true ∧ k.closer.opens = false := by
  cases k <;> decide

theorem Branch.middle_flags (k : Branch) :
    k.middle ≠ .lineComment ∧ k.middle.closes = true ∧ k.middle.opens = true := by
  cases k <;> decide

/-! ### What the chunks of a program keep -/

/-- Chunks as a program writes them, from the depth `a` to the depth `z`: sound, fitting, ready
for any run of blanks after them, and walking from `a` to `z`. -/
structure Printed (a : Nat) (cs : List Chunk) (z : Nat) : Prop where
  fits : IsChain Fits cs
  sound : ∀ c ∈ cs, c.Sound
  spaced : ∀ c ∈ cs.getLast?, ∀ w e, Fits c (.space w e)
  walk : Walk enter exit a cs z

namespace Printed

theorem nil (d : Nat) : Printed d [] d := ⟨.nil, by simp, by simp, .nil d⟩

/-- A piece other than the line comment, from the depth before it to the depth after it. -/
theorem piece {p : Piece} {d a z : Nat} (hp : p ≠ .lineComment) (ha : d + p.closes.toNat = a)
    (hz : d + p.opens.toNat = z) : Printed a [.piece p d] z := by
  refine ⟨isChain_singleton _, by simp [Sound], ?_, .cons ha (hz ▸ .nil _)⟩
  intro c hc w e
  rw [getLast?_singleton, Option.mem_some_iff] at hc
  subst hc
  exact fun hlc => absurd hlc hp

/-- Two stretches of a program with a run of blanks between them. -/
theorem append_space {a b z : Nat} {xs ys : List Chunk} {w : List Char} (hx : Printed a xs b)
    (hw : (Chunk.space w b).Sound) (hy : Printed b ys z) :
    Printed a (xs ++ .space w b :: ys) z := by
  refine ⟨?_, ?_, ?_, hx.walk.append (.cons rfl hy.walk)⟩
  · refine isChain_append.2 ⟨hx.fits, hy.fits.cons fun _ _ => trivial, ?_⟩
    intro c hc y hy
    rw [head?_cons, Option.mem_some_iff] at hy
    subst hy
    exact hx.spaced c hc w b
  · intro c hc
    rcases mem_append.1 hc with hc | hc
    · exact hx.sound c hc
    · rcases mem_cons.1 hc with rfl | hc
      · exact hw
      · exact hy.sound c hc
  · -- the last chunk is the run, or the last of `ys`
    intro c hc
    rw [getLast?_append_of_ne_nil _ (cons_ne_nil _ _), getLast?_cons, Option.mem_some_iff] at hc
    cases hlast : ys.getLast? with
    | none =>
      rw [hlast, Option.getD_none] at hc
      subst hc
      exact fun _ _ => trivial
    | some y =>
      rw [hlast, Option.getD_some] at hc
      subst hc
      exact hy.spaced _ hlast

theorem blank (d : Nat) : (Chunk.space [' '] d).Sound := ⟨cons_ne_nil _ _, by simp⟩

/-- A block: the keywords before a body, the body one level down with blanks around it, and the
rest of the block from the keywords after the body. -/
theorem enclose {a d z : Nat} {h : Piece} {body rest : List Chunk}
    (hh : Printed a [.piece h d] (d + 1)) (hb : Printed (d + 1) body (d + 1))
    (hr : Printed (d + 1) rest z) : Printed a ([.piece h d] ++ inner d body ++ rest) z := by
  have hp := hh.append_space (blank _) (hb.append_space (blank _) hr)
  simpa only [inner, append_assoc, singleton_append, cons_append, nil_append] using hp

end Printed

mutual

theorem Statement.printed (d : Nat) : (s : Statement) → Printed d (s.chunks d) d
  | .simple s => by
    obtain ⟨hp, hc, ho⟩ := s.piece_flags
    exact Printed.piece hp (by simp [hc]) (by simp [ho])
  | .lineComment =>
    ⟨isChain_pair.2 fun _ => rfl, by simp [Statement.chunks, Sound],
      by simp [Statement.chunks, Fits], .cons rfl (.cons rfl (.nil d))⟩
  | .blankLine =>
    ⟨isChain_singleton _, by simp [Statement.chunks, Sound], by simp [Statement.chunks, Fits],
      .cons rfl (.nil d)⟩
  | .block k b => by
    obtain ⟨hh, hhc, hho⟩ := k.header_flags
    obtain ⟨hc, hcc, hco⟩ := k.closer_flags
    exact Printed.enclose (Printed.piece hh (by simp [hhc]) (by simp [hho])) (b.printed (d + 1))
      (Printed.piece hc (by simp [hcc]) (by simp [hco]))
  | .branch k b c => by
    obtain ⟨hm, hmc, hmo⟩ := k.middle_flags
    have hrest : Printed (d + 1)
        ([.piece k.middle d] ++ inner d (c.chunks (d + 1)) ++ [.piece .endKw d]) d :=
      Printed.enclose (Printed.piece hm (by simp [hmc]) (by simp [hmo]))
      (c.printed (d + 1)) (Printed.piece (p := .endKw) (by decide) rfl rfl)
    exact Printed.enclose (Printed.piece (p := .ifThen) (by decide) rfl rfl) (b.printed (d + 1))
      hrest

theorem Program.printed (d : Nat) : (P : Program) → Printed d (P.chunks d) d
  | .empty => Printed.nil d
  | .seq ss => ss.printed d

theorem Sequence.printed (d : Nat) : (ss : Sequence) → Printed d (ss.chunks d) d
  | .one s => s.printed d
  | .cons s sep ss => (s.printed d).append_space ⟨sep.ne_nil, sep.blank⟩ (ss.printed d)

end

/-- **Indentation follows the nesting of blocks.** Every block program is read and reflowed
without error. Each line of its document is written as a line feed, as many tabs as there are
block bodies around its first character, and the line's text; and across the lines the depth
comes back to zero. -/
theorem reflow_indents_by_nesting (config : FormatConfig) (file : String) (P : Program) :
    ∃ ts, Token.tokenize config.snippetWidth file P.source = .ok ts ∧
      reflow config file P.source =
        .ok (String.join ((ofTokens ts).lines.map fun l =>
          "\n" ++ Layout.tabs (P.depthAt l.first.offset.toNat) ++ l.text) ++ "\n") ∧
      ((ofTokens ts).lines.map Line.delta).sum = 0 :=
  have h := P.printed 0
  reflow_chunks config file h.fits h.sound h.walk

/-- Comments inside the keywords of a block are not part of the grammar, and they move code: a
comment between `for` and its variable ends the line of `for`, which opens the loop's body, and
`do`, then first on a line of its own, opens it a second time. The assignment in the body is
written two tabs deep instead of one, and `end` one tab deep instead of none. -/
theorem reflow_for_header_split_by_comment :
    reflow {} "" "for i = 1, 10 do x = 1 end" = .ok "\nfor i = 1 , 10 do \n\tx = 1 \nend \n" ∧
      reflow {} "" "for -- c\n i = 1, 10 do x = 1 end" =
        .ok "\nfor \n\t-- c \n\ti = 1 , 10 \n\tdo \n\t\tx = 1 \n\tend \n" :=
  ⟨eq_ok_of_toOption (by decide +kernel), eq_ok_of_toOption (by decide +kernel)⟩

/-- **Notes in a program never move its code left.** Put comments and blank-line tokens
anywhere between the tokens of a block program, with its other tokens relaid alike: the text
still reflows without error, each token of the program is written at least as deep as the
program's own reflow writes it, and the depth after the last line is not below zero. -/
theorem reflow_noted_program (config : FormatConfig) (file : String) (P : Program)
    {source : String} {ts ts' : List Token}
    (hts : Token.tokenize config.snippetWidth file P.source = .ok ts)
    (hts' : Token.tokenize config.snippetWidth file source = .ok ts')
    (hnoted : Noted LaysOutAlike ts ts') :
    reflow config file P.source = .ok (layoutText (ofTokens ts).lines) ∧
      reflow config file source = .ok (layoutText (ofTokens ts').lines) ∧
      Deepened LaysOutAlike (writtenTokens 0 (ofTokens ts).lines)
        (writtenTokens 0 (ofTokens ts').lines) ∧
      0 ≤ ((ofTokens ts').lines.map Line.delta).sum := by
  have hp := P.printed 0
  obtain ⟨ts₀, hts₀, hreflow, hsum⟩ := reflow_chunks config file hp.fits hp.sound hp.walk
  have h₀ : ts₀ = ts := Except.ok.inj (hts₀.symm.trans hts)
  subst h₀
  obtain ⟨hout, hdeep, hsum'⟩ := reflow_noted hreflow hts hts' hnoted
  exact ⟨reflow_of_nonneg hts (reflow_eq_layout hreflow hts).1, hout, hdeep, hsum ▸ hsum'⟩

/-- A comment between `for` and its variable: the loop, noted. -/
theorem reflow_noted_for_header :
    Token.tokenize 50 "" (Program.seq (.one (.block .forNumeric
        (.seq (.one (.simple .assignNumber)))))).source =
      .ok [⟨.forKw, "for", 0⟩, ⟨.word, "i", 4⟩, ⟨.assign, "=", 6⟩, ⟨.number, "1", 8⟩,
        ⟨.separator, ",", 9⟩, ⟨.number, "10", 11⟩, ⟨.doKw, "do", 14⟩, ⟨.word, "x", 17⟩,
        ⟨.assign, "=", 19⟩, ⟨.number, "1", 21⟩, ⟨.endKw, "end", 23⟩] ∧
    Token.tokenize 50 "" "for -- c\n i = 1, 10 do x = 1 end" =
      .ok [⟨.forKw, "for", 0⟩, ⟨.comment, "-- c", 4⟩, ⟨.word, "i", 10⟩, ⟨.assign, "=", 12⟩,
        ⟨.number, "1", 14⟩, ⟨.separator, ",", 15⟩, ⟨.number, "10", 17⟩, ⟨.doKw, "do", 20⟩,
        ⟨.word, "x", 23⟩, ⟨.assign, "=", 25⟩, ⟨.number, "1", 27⟩, ⟨.endKw, "end", 29⟩] ∧
    Noted LaysOutAlike
      [⟨.forKw, "for", 0⟩, ⟨.word, "i", 4⟩, ⟨.assign, "=", 6⟩, ⟨.number, "1", 8⟩,
        ⟨.separator, ",", 9⟩, ⟨.number, "10", 11⟩, ⟨.doKw, "do", 14⟩, ⟨.word, "x", 17⟩,
        ⟨.assign, "=", 19⟩, ⟨.number, "1", 21⟩, ⟨.endKw, "end", 23⟩]
      [⟨.forKw, "for", 0⟩, ⟨.comment, "-- c", 4⟩, ⟨.word, "i", 10⟩, ⟨.assign, "=", 12⟩,
        ⟨.number, "1", 14⟩, ⟨.separator, ",", 15⟩, ⟨.number, "10", 17⟩, ⟨.doKw, "do", 20⟩,
        ⟨.word, "x", 23⟩, ⟨.assign, "=", 25⟩, ⟨.number, "1", 27⟩, ⟨.endKw, "end", 29⟩] ∧
    reflow {} "" "for -- c\n i = 1, 10 do x = 1 end" =
      .ok (layoutText (ofTokens [⟨.forKw, "for", 0⟩, ⟨.comment, "-- c", 4⟩, ⟨.word, "i", 10⟩,
        ⟨.assign, "=", 12⟩, ⟨.number, "1", 14⟩, ⟨.separator, ",", 15⟩, ⟨.number, "10", 17⟩,
        ⟨.doKw, "do", 20⟩, ⟨.word, "x", 23⟩, ⟨.assign, "=", 25⟩, ⟨.number, "1", 27⟩,
        ⟨.endKw, "end", 29⟩]).lines) := by
  refine ⟨?hts, ?hts', ?hnoted, (reflow_noted_program {} "" _ ?hts ?hts' ?hnoted).2.1⟩
  case hts => exact eq_ok_of_toOption (by decide +kernel)
  case hts' => exact eq_ok_of_toOption (by decide +kernel)
  case hnoted =>
    -- every kept token has the same tag and text, at a later offset
    exact .keep (.refl _) <| .note (.inl rfl) <| .keep ⟨rfl, rfl, fun _ => rfl⟩ <|
      .keep ⟨rfl, rfl, fun _ => rfl⟩ <| .keep ⟨rfl, rfl, fun _ => rfl⟩ <|
      .keep ⟨rfl, rfl, fun _ => rfl⟩ <| .keep ⟨rfl, rfl, fun _ => rfl⟩ <|
      .keep ⟨rfl, rfl, fun _ => rfl⟩ <| .keep ⟨rfl, rfl, fun _ => rfl⟩ <|
      .keep ⟨rfl, rfl, fun _ => rfl⟩ <| .keep ⟨rfl, rfl, fun _ => rfl⟩ <|
      .keep ⟨rfl, rfl, fun _ => rfl⟩ .nil

end Blocks

end LuaReflow
