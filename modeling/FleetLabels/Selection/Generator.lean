import FleetLabels.Selection.Shuffle

/-!
# Random draws from a seed

A generator of 64-bit words with one word of state, and the draw of an index from its output. The
state runs through all 64-bit words in steps of an odd constant, and each output is a scrambled
state. An index below `range` is the upper half of the product of `range` and a 32-bit word; words
whose product has a lower half above a bound are rejected, so that every index has the same number
of words.
-/

namespace FleetLabels

/-- The state of the generator. -/
structure Generator where
  state : UInt64
  deriving DecidableEq, Repr

namespace Generator

/-- The step between two states. -/
def step : UInt64 := 0x9E3779B97F4A7C15

/-- The next word, and the generator after it. -/
def next (g : Generator) : UInt64 × Generator :=
  let state := g.state + step
  let z := (state ^^^ (state >>> 30)) * 0xBF58476D1CE4E5B9
  let z := (z ^^^ (z >>> 27)) * 0x94D049BB133111EB
  (z ^^^ (z >>> 31), ⟨state⟩)

/-- A word of 32 bits. -/
abbrev Word := Fin 4294967296

/-- The next 32-bit word: the upper half of a 64-bit one. -/
def next32 (g : Generator) : Word × Generator :=
  let (word, g) := g.next
  (Fin.ofNat 4294967296 (word.toNat / 4294967296), g)

/-- The number of zeros in front of a number of at most 32 binary digits. -/
def leadingZeros (range : Nat) : Nat :=
  31 - range.log2

/-- The largest lower half of a product that is accepted. -/
def zone (range : Nat) : Nat :=
  range * Nat.pow 2 (leadingZeros range) - 1

/-- The index that a word gives, if it is accepted. -/
def accept (n : Nat) (word : Word) : Option (Fin (n + 1)) :=
  let product := word.val * (n + 1)
  if product % 4294967296 ≤ zone (n + 1) then
    some ⟨product / 4294967296, by
      have := word.isLt
      exact Nat.div_lt_of_lt_mul (Nat.mul_lt_mul_of_pos_right this (Nat.succ_pos n))⟩
  else none

/-- An index from `0` to `n`, by trying words until one is accepted. The fuel covers all states of
the generator. -/
def index (n : Nat) : Nat → Generator → Fin (n + 1) × Generator
  | 0, g => (0, g)
  | fuel + 1, g =>
      let (word, g) := g.next32
      match accept n word with
      | some i => (i, g)
      | none => index n fuel g

/-- The number of states of the generator. -/
def period : Nat := 18446744073709551616

/-- The draws of a shuffle. The first position is only ever drawn from itself and takes no word. -/
def draws : (n : Nat) → Generator → Draws n
  | 0, _ => .none
  | 1, _ => .next 0 .none
  | n + 2, g =>
      let (i, g) := index (n + 1) period g
      .next i (draws (n + 1) g)

end Generator

end FleetLabels
