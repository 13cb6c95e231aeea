import FleetLabels.Decimal.Binary64
import FleetLabels.Json.Basic

/-!
# Reading JSON text

The value of a JSON text, or none where the text is not JSON. The reader is strict: no comments, no
commas after the last item, no leading zeros, nothing after the value but white space. Integers are
kept exactly from `-2 ^ 63` to `2 ^ 64 - 1`; any other number is a real, rounded to binary floating
point of 64 bits.

A text is read in one of two ways. `Json.read?` keeps the members of objects as they are written,
and values that cannot be represented as their text; who reads a document from such a value fails
only on the parts that the document needs. `Json.parse?` is for values that are needed as a whole:
nothing may be left as text, containers nest to a depth of at most `maxDepth`, and the members of
objects are put into order.

Each step takes the characters still to be read and gives what it read with the characters left.
-/

namespace FleetLabels.Json

/-- How deep the containers of a whole value may nest. -/
def maxDepth : Nat := 127

/-- The characters that may stand between the parts of a JSON text. -/
def isSpace (c : Char) : Bool :=
  c = ' ' || c = '\n' || c = '\t' || c = '\r'

/-- The characters left after white space. -/
def skipSpace (cs : List Char) : List Char :=
  cs.dropWhile isSpace

/-- The characters of a text up to those that are left of it. -/
def readPart (cs rest : List Char) : String :=
  String.ofList (cs.take (cs.length - rest.length))

/-- The value of a digit of base ten. -/
def digit (c : Char) : Nat :=
  c.toNat - '0'.toNat

/-! ## Numbers -/

/-- The largest significand that is read exactly. -/
def maxSignificand : Nat := 18446744073709551615

/-- The largest significand of an integer below zero. -/
def maxNegative : Nat := 9223372036854775808

/-- Digits read into a significand as far as they fit, and the number of digits that did not. -/
def accumulate (significand : Nat) (digits : List Char) : Nat × Nat :=
  digits.foldl
    (fun (s, dropped) c =>
      if dropped = 0 ∧ s * 10 + digit c ≤ maxSignificand then (s * 10 + digit c, 0)
      else (s, dropped + 1))
    (significand, 0)

/-- One or more digits. -/
def digits1 (cs : List Char) : Option (List Char × List Char) :=
  match cs.takeWhile Char.isDigit with
  | [] => none
  | ds => some (ds, cs.dropWhile Char.isDigit)

/-- The digits in front of the point: a zero alone, or digits that do not start with one. -/
def integerPart (cs : List Char) : Option (List Char × List Char) := do
  let (ds, rest) ← digits1 cs
  if ds.head? = some '0' ∧ ds.length ≠ 1 then none else some (ds, rest)

/-- The digits behind the point, if there is one. -/
def fractionPart : List Char → Option (Option (List Char) × List Char)
  | '.' :: rest => do
      let (ds, rest) ← digits1 rest
      some (some ds, rest)
  | cs => some (none, cs)

/-- The digits of an exponent with its sign. -/
def signedDigits : List Char → Option (Int × List Char)
  | '-' :: rest => do
      let (ds, rest) ← digits1 rest
      some (-(ds.foldl (fun n c => n * 10 + digit c) 0 : Nat), rest)
  | '+' :: rest => do
      let (ds, rest) ← digits1 rest
      some ((ds.foldl (fun n c => n * 10 + digit c) 0 : Nat), rest)
  | cs => do
      let (ds, rest) ← digits1 cs
      some ((ds.foldl (fun n c => n * 10 + digit c) 0 : Nat), rest)

/-- The exponent, if there is one. -/
def exponentPart : List Char → Option (Option Int × List Char)
  | 'e' :: rest => (signedDigits rest).map fun (n, r) => (some n, r)
  | 'E' :: rest => (signedDigits rest).map fun (n, r) => (some n, r)
  | cs => some (none, cs)

/-- Below this power of ten every significand is zero in the binary format. -/
def vanishing : Int := -1000

/-- The real number `±significand · 10 ^ exponent`, none where it is out of range. -/
def realOf (negative : Bool) (significand : Nat) (exponent : Int) : Option Json :=
  if exponent < vanishing then some (.real ⟨negative, 0, 0⟩)
  else (Binary64.ofScaled significand exponent).map fun x => .real (x.shortest negative)

/-- The number that the parts of its text denote. -/
def numberOf (negative : Bool) (whole : List Char) (fraction : Option (List Char))
    (exponent : Option Int) : Option Json :=
  let (s, dropped) := accumulate 0 whole
  match fraction, exponent with
  | none, none =>
      if dropped ≠ 0 then realOf negative s dropped
      else if !negative then some (.int s)
      else if s = 0 ∨ maxNegative < s then realOf true s 0
      else some (.int (-(s : Int)))
  | fraction, exponent =>
      let ds := fraction.getD []
      let (s', lost) := accumulate s ds
      realOf negative s' (exponent.getD 0 + dropped - ((ds.length : Int) - lost))

/-- A number; one that is out of range is kept as its text. -/
def number (cs : List Char) : Option (Json × List Char) := do
  let (negative, rest) := match cs with
    | '-' :: rest => (true, rest)
    | _ => (false, cs)
  let (whole, rest) ← integerPart rest
  let (fraction, rest) ← fractionPart rest
  let (exponent, rest) ← exponentPart rest
  some ((numberOf negative whole fraction exponent).getD (.verbatim (readPart cs rest)), rest)

/-! ## Strings -/

/-- The value of a digit of base sixteen. -/
def hexDigit? (c : Char) : Option Nat :=
  if '0' ≤ c ∧ c ≤ '9' then some (c.toNat - '0'.toNat)
  else if 'a' ≤ c ∧ c ≤ 'f' then some (c.toNat - 'a'.toNat + 10)
  else if 'A' ≤ c ∧ c ≤ 'F' then some (c.toNat - 'A'.toNat + 10)
  else none

/-- The value of four digits of base sixteen. -/
def hex4? (a b c d : Char) : Option Nat := do
  some (((← hexDigit? a) * 16 + (← hexDigit? b)) * 256 + ((← hexDigit? c) * 16 + (← hexDigit? d)))

/-- The character that a backslash and a letter stand for. -/
def shortEscape? : Char → Option Char
  | '"' => some '"'
  | '\\' => some '\\'
  | '/' => some '/'
  | 'b' => some '\x08'
  | 'f' => some '\x0c'
  | 'n' => some '\n'
  | 'r' => some '\r'
  | 't' => some '\t'
  | _ => none

/-- The code points of a string up to its closing quote; an escape may stand for a surrogate. -/
def codePoints : List Char → Option (List Nat × List Char)
  | [] => none
  | '"' :: rest => some ([], rest)
  | '\\' :: 'u' :: a :: b :: c :: d :: rest => do
      let unit ← hex4? a b c d
      let (s, rest) ← codePoints rest
      some (unit :: s, rest)
  | '\\' :: c :: rest => do
      let x ← shortEscape? c
      let (s, rest) ← codePoints rest
      some (x.toNat :: s, rest)
  | c :: rest =>
      if c.toNat < 0x20 then none
      else do
        let (s, rest) ← codePoints rest
        some (c.toNat :: s, rest)

/-- Whether a code point is the first one of a surrogate pair. -/
def isHigh (n : Nat) : Bool :=
  0xD800 ≤ n && n ≤ 0xDBFF

/-- Whether a code point is the second one of a surrogate pair. -/
def isLow (n : Nat) : Bool :=
  0xDC00 ≤ n && n ≤ 0xDFFF

/-- The character that a surrogate pair stands for. -/
def paired (high low : Nat) : Char :=
  Char.ofNat (0x10000 + (high - 0xD800) * 0x400 + (low - 0xDC00))

/-- The characters that code points stand for: a pair of surrogates is one character, and half a
pair is none. -/
def characters? : List Nat → Option (List Char)
  | [] => some []
  | n :: low :: rest =>
      if isHigh n then
        if isLow low then (paired n low :: ·) <$> characters? rest else none
      else if isLow n then none
      else (Char.ofNat n :: ·) <$> characters? (low :: rest)
  | n :: [] => if isHigh n || isLow n then none else some [Char.ofNat n]

/-- A string; the text is none if it holds half a surrogate pair. -/
def string? : List Char → Option (Option String × List Char)
  | '"' :: rest => (codePoints rest).map fun (s, r) => (String.ofList <$> characters? s, r)
  | _ => none

/-! ## Containers -/

/-- The items of a container after its opening bracket and up to `close`, separated by commas. The
fuel bounds the number of items; each takes up at least one character. -/
def itemsTail {α : Type} (item : List Char → Option (α × List Char)) (close : Char) :
    Nat → List Char → Option (List α × List Char)
  | 0, _ => none
  | fuel + 1, cs => do
      let (x, rest) ← item cs
      match skipSpace rest with
      | ',' :: rest => do
          let (xs, rest) ← itemsTail item close fuel rest
          some (x :: xs, rest)
      | c :: rest => if c = close then some ([x], rest) else none
      | [] => none

/-- The items of a container after its opening bracket, at most as many as the fuel says. -/
def itemsUpTo {α : Type} (item : List Char → Option (α × List Char)) (close : Char) (fuel : Nat)
    (cs : List Char) : Option (List α × List Char) :=
  match skipSpace cs with
  | c :: rest => if c = close then some ([], rest) else itemsTail item close fuel (c :: rest)
  | [] => none

/-- The characters left after a given word. -/
def expect : List Char → List Char → Option (List Char)
  | [], cs => some cs
  | w :: ws, c :: cs => if w = c then expect ws cs else none
  | _ :: _, [] => none

/-- A member of an object: a key, a colon and a value. -/
def member (value : List Char → Option (Json × List Char)) (cs : List Char) :
    Option ((Option String × Json) × List Char) := do
  let (key, rest) ← string? (skipSpace cs)
  match skipSpace rest with
  | ':' :: rest => do
      let (v, rest) ← value rest
      some ((key, v), rest)
  | _ => none

/-- The object with the given members, if all its keys are texts. -/
def object? (members : List (Option String × Json)) : Option Json :=
  .object <$> members.mapM fun e => e.1.map (·, e.2)

/-- A value as it is written. The fuel bounds how deep containers nest and how many items each of
them has; all of these take up at least one character. -/
def value : Nat → List Char → Option (Json × List Char)
  | fuel, cs =>
      match skipSpace cs with
      | 'n' :: rest => (expect ['u', 'l', 'l'] rest).map (.null, ·)
      | 't' :: rest => (expect ['r', 'u', 'e'] rest).map (.bool true, ·)
      | 'f' :: rest => (expect ['a', 'l', 's', 'e'] rest).map (.bool false, ·)
      | '"' :: rest =>
          (string? ('"' :: rest)).map fun (s, r) =>
            (s.elim (.verbatim (readPart ('"' :: rest) r)) .string, r)
      | '[' :: rest =>
          match fuel with
          | 0 => none
          | fuel + 1 =>
              (itemsUpTo (value fuel) ']' (fuel + 1) rest).map fun (xs, r) => (.array xs, r)
      | '\x7b' :: rest =>
          match fuel with
          | 0 => none
          | fuel + 1 =>
              (itemsUpTo (member (value fuel)) '\x7d' (fuel + 1) rest).map fun (ms, r) =>
                ((object? ms).getD (.verbatim (readPart ('\x7b' :: rest) r)), r)
      | cs => number cs

/-- The value of a text as it is written. -/
def read? (s : String) : Option Json := do
  let cs := s.toList
  let (j, rest) ← value cs.length cs
  if (skipSpace rest).isEmpty then some j else none

/-! ## Whole values -/

mutual

/-- A value with its members in order, if nothing of it is left as text and containers nest no
deeper than `depth`. -/
def whole? (depth : Nat) : Json → Option Json
  | .array items => if depth = 0 then none else .array <$> wholeItems? (depth - 1) items
  | .object members => if depth = 0 then none else ofMembers <$> wholeMembers? (depth - 1) members
  | .verbatim _ => none
  | j => some j

/-- The same for the items of an array. -/
def wholeItems? (depth : Nat) : List Json → Option (List Json)
  | [] => some []
  | item :: rest => do some ((← item.whole? depth) :: (← wholeItems? depth rest))

/-- The same for the members of an object. -/
def wholeMembers? (depth : Nat) : List (String × Json) → Option (List (String × Json))
  | [] => some []
  | (key, v) :: rest => do some ((key, ← v.whole? depth) :: (← wholeMembers? depth rest))

end

/-- A value that is kept as it is: nothing of it is left as text, its members are in order, and its
containers nest no deeper than `depth`. It is not `null`, which stands for no value. -/
structure Whole (depth : Nat) where
  json : Json
  whole : json.whole? depth = some json
  present : json ≠ .null
  deriving DecidableEq

instance {depth : Nat} : Repr (Whole depth) where
  reprPrec v n := reprPrec v.json n

/-- The value to be kept of what is written, if it is whole. The members that `whole?` has put into
order stay as they are, so that the test of `v` leaves nothing out. -/
def Whole.of? (depth : Nat) (j : Json) : Option (Whole depth) := do
  let v ← j.whole? depth
  if h : v.whole? depth = some v ∧ v ≠ .null then some ⟨v, h.1, h.2⟩ else none

theorem Whole.of?_json {depth : Nat} (v : Whole depth) : Whole.of? depth v.json = some v := by
  rw [Whole.of?, v.whole]
  exact dif_pos ⟨v.whole, v.present⟩

/-- The value that a text denotes. -/
def parse? (s : String) : Option Json := do
  (← read? s).whole? maxDepth

end FleetLabels.Json
