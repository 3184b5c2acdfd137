/-!
# Reading a source file's bytes

A source file is read as UTF-8 with universal newlines. Decoding is all or nothing: the first
malformed sequence refuses the whole file, with one of three reasons:

* `invalid start byte`: a byte that cannot begin a sequence (`80`–`C1`, `F5`–`FF`);
* `invalid continuation byte`: a byte after a lead byte that is out of its range. The second
  byte's range depends on the lead (`E0` needs `A0`–`BF`, `ED` needs `80`–`9F`, `F0` needs
  `90`–`BF`, `F4` needs `80`–`8F`), which refuses overlong forms, surrogates and code points
  past `10FFFF`; every other continuation byte is `80`–`BF`. The bytes present are checked
  even when the sequence is cut short;
* `unexpected end of data`: a sequence whose bytes are all in range but too few.

Decoded text then has each `CR LF` and each lone `CR` turned into `LF`. A byte-order mark is
kept as the character `U+FEFF`.

## Main definitions

* `DecodeFault`: the three reasons.
* `Source.decode`: the characters of a byte list.
* `Source.normalizeNewlines`, `Source.read`: newline normalisation, and both steps.
-/

namespace LuaReflow

/-- Why a byte list is not UTF-8. -/
inductive DecodeFault where
  /-- A byte that cannot begin a sequence. -/
  | invalidStart
  /-- A byte after a lead byte out of its range. -/
  | invalidContinuation
  /-- A sequence cut short by the end of the bytes. -/
  | unexpectedEnd
  deriving DecidableEq, Repr

/-- The reason shown for a decoding fault. -/
def DecodeFault.reason : DecodeFault → String
  | .invalidStart => "invalid start byte"
  | .invalidContinuation => "invalid continuation byte"
  | .unexpectedEnd => "unexpected end of data"

namespace Source

/-- The length of the sequence a lead byte begins, or 0 when it cannot begin one. -/
def sequenceLength (lead : Nat) : Nat :=
  if lead < 0x80 then 1
  else if lead < 0xC2 then 0
  else if lead < 0xE0 then 2
  else if lead < 0xF0 then 3
  else if lead < 0xF5 then 4
  else 0

/-- The range of the byte right after a lead byte. -/
def secondRange (lead : Nat) : Nat × Nat :=
  if lead = 0xE0 then (0xA0, 0xBF)
  else if lead = 0xED then (0x80, 0x9F)
  else if lead = 0xF0 then (0x90, 0xBF)
  else if lead = 0xF4 then (0x80, 0x8F)
  else (0x80, 0xBF)

/-- A multi-byte sequence under way: the continuation bytes it still needs, the bits of its
code point so far, and the range of its next byte. -/
structure Pending where
  /-- Continuation bytes still needed, at least one. -/
  needed : Nat
  /-- The code point's bits so far. -/
  bits : Nat
  /-- The least value of the next byte. -/
  lower : Nat
  /-- The greatest value of the next byte. -/
  upper : Nat
  deriving DecidableEq, Repr

/-- The sequence a lead byte of the given length begins. -/
def Pending.start (length lead : Nat) : Pending :=
  let range := secondRange lead
  { needed := length - 1
    bits := if length = 2 then lead - 0xC0 else if length = 3 then lead - 0xE0 else lead - 0xF0
    lower := range.1
    upper := range.2 }

/-- Decodes the bytes still to come after the characters `acc` (latest first), inside the
sequence `pending` if one is under way. Bytes are checked in order, so the first fault of the
file is the one reported. -/
def decodeFrom (pending : Option Pending) (acc : List Char) : List UInt8 → Except DecodeFault (List Char)
  | [] =>
    match pending with
    | none => .ok acc.reverse
    | some _ => .error .unexpectedEnd
  | b :: bs =>
    match pending with
    | some p =>
      if p.lower ≤ b.toNat && b.toNat ≤ p.upper then
        let bits := p.bits * 64 + (b.toNat - 0x80)
        match p.needed with
        | 0 | 1 => decodeFrom none (Char.ofNat bits :: acc) bs
        | n + 2 => decodeFrom (some ⟨n + 1, bits, 0x80, 0xBF⟩) acc bs
      else .error .invalidContinuation
    | none =>
      match sequenceLength b.toNat with
      | 0 => .error .invalidStart
      | 1 => decodeFrom none (Char.ofNat b.toNat :: acc) bs
      | length => decodeFrom (some (Pending.start length b.toNat)) acc bs

/-- The characters of a UTF-8 byte list, or the first fault. -/
def decode (bytes : List UInt8) : Except DecodeFault (List Char) := decodeFrom none [] bytes

/-- Turns each `CR LF` and each lone `CR` of the characters still to come into `LF`, after
the characters `acc` (latest first). -/
def normalizeFrom (acc : List Char) : List Char → List Char
  | [] => acc.reverse
  | '\r' :: '\n' :: r => normalizeFrom ('\n' :: acc) r
  | '\r' :: r => normalizeFrom ('\n' :: acc) r
  | c :: r => normalizeFrom (c :: acc) r

/-- The text with universal newlines: `CR LF` and lone `CR` become `LF`. -/
def normalizeNewlines (cs : List Char) : List Char := normalizeFrom [] cs

/-- The source text of a file's bytes: decoded, then with newlines normalised. -/
def read (bytes : List UInt8) : Except DecodeFault String :=
  match decode bytes with
  | .error fault => .error fault
  | .ok cs => .ok (String.ofList (normalizeNewlines cs))

example : (read [0x61, 0x0D, 0x0A, 0x62, 0x0D]).toOption = some "a\nb\n" := by decide
example : (decode [0xE6, 0x97, 0xA5]).toOption = some ['日'] := by decide
example : decode [0xE6, 0x28] = .error .invalidContinuation := rfl
example : decode [0xE6, 0x88] = .error .unexpectedEnd := rfl
example : decode [0xC1, 0x80] = .error .invalidStart := rfl

end Source

end LuaReflow
