/-!
# UTF-8

Reading a sequence of bytes as text. A sequence that is not UTF-8 is refused at the first byte that
rules it out, and the refusal says where the character in question starts and how many of its bytes
were still acceptable; a sequence that stops inside a character is told apart from one that goes on
wrongly.
-/

namespace FleetLabels.Text

/-- Why a sequence of bytes is not UTF-8. -/
inductive Malformed where
  /-- The bytes from `index` on, `length` of them, cannot stand in a text. -/
  | invalid (length index : Nat)
  /-- The character that starts at `index` is not finished when the bytes end. -/
  | incomplete (index : Nat)
  deriving DecidableEq, Repr

/-- The wording of a refusal. -/
def Malformed.message : Malformed → String
  | .invalid length index =>
      s!"invalid utf-8 sequence of {length} bytes from index {index}"
  | .incomplete index =>
      s!"incomplete utf-8 byte sequence from index {index}"

namespace Utf8

/-- A character of which some bytes are read: how many are owed, the range the next one must lie
in, the value so far, and how many were read. -/
structure Partial where
  owed : Nat
  low : Nat
  high : Nat
  value : Nat
  seen : Nat

/-- What a first byte announces: a whole character, or one with bytes still owed. -/
def first (b : Nat) : Option (Char ⊕ Partial) :=
  if b ≤ 0x7F then some (.inl (Char.ofNat b))
  else if 0xC2 ≤ b ∧ b ≤ 0xDF then some (.inr ⟨1, 0x80, 0xBF, b - 0xC0, 1⟩)
  else if b = 0xE0 then some (.inr ⟨2, 0xA0, 0xBF, 0, 1⟩)
  else if b = 0xED then some (.inr ⟨2, 0x80, 0x9F, b - 0xE0, 1⟩)
  else if 0xE1 ≤ b ∧ b ≤ 0xEF then some (.inr ⟨2, 0x80, 0xBF, b - 0xE0, 1⟩)
  else if b = 0xF0 then some (.inr ⟨3, 0x90, 0xBF, 0, 1⟩)
  else if 0xF1 ≤ b ∧ b ≤ 0xF3 then some (.inr ⟨3, 0x80, 0xBF, b - 0xF0, 1⟩)
  else if b = 0xF4 then some (.inr ⟨3, 0x80, 0x8F, b - 0xF0, 1⟩)
  else none

/-- Reads bytes from position `index` on, with the unfinished character `state`, if any. -/
def scan (state : Option Partial) (index : Nat) : List UInt8 → Except Malformed (List Char)
  | [] =>
      match state with
      | none => .ok []
      | some p => .error (.incomplete (index - p.seen))
  | byte :: rest =>
      match state with
      | none =>
          match first byte.toNat with
          | some (.inl c) => (c :: ·) <$> scan none (index + 1) rest
          | some (.inr p) => scan (some p) (index + 1) rest
          | none => .error (.invalid 1 index)
      | some p =>
          if p.low ≤ byte.toNat ∧ byte.toNat ≤ p.high then
            let value := p.value * 64 + (byte.toNat - 0x80)
            if p.owed = 1 then (Char.ofNat value :: ·) <$> scan none (index + 1) rest
            else scan (some ⟨p.owed - 1, 0x80, 0xBF, value, p.seen + 1⟩) (index + 1) rest
          else .error (.invalid p.seen (index - p.seen))

/-- The text that a sequence of bytes encodes. -/
def decode (bytes : List UInt8) : Except Malformed String :=
  String.ofList <$> scan none 0 bytes

end Utf8

/-- A text that may still be a sequence of bytes. -/
inductive Raw where
  | text (s : String)
  | bytes (bs : List UInt8)
  deriving DecidableEq, Repr

/-- The text itself, unless the bytes are not UTF-8. -/
def Raw.read : Raw → Except Malformed String
  | .text s => .ok s
  | .bytes bs => Utf8.decode bs

end FleetLabels.Text
