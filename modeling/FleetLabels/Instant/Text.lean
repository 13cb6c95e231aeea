import FleetLabels.Decimal.Basic
import FleetLabels.Instant.Basic
import FleetLabels.Text.Blank

/-!
# The text of an instant

Times are written as in RFC 3339: `2026-03-01T12:00:00Z`, in universal time and in whole seconds.
The reader takes more than the writer gives: any offset from universal time, fractions of a second,
numbers without leading zeros, white space in front of a number or of the mark before it, and years
of more than four digits if they carry a sign. It reads from the left; the first part that does not
fit decides the fault.
-/

namespace FleetLabels.Instant

/-! ## Writing -/

/-- The digits of a number, with zeros in front up to a width. -/
def padded (width n : Nat) : List Char :=
  let ds := Decimal.numeral n
  List.replicate (width - ds.length) '0' ++ ds

/-- The digits of a year: four of them, and a sign for a year that has more or lies before year
zero. -/
def yearText (year : Int) : List Char :=
  if year < 0 then '-' :: padded 4 year.natAbs
  else if year ≤ 9999 then padded 4 year.natAbs
  else '+' :: padded 4 year.natAbs

/-- The text of an instant in universal time, without fractions of a second. -/
def text (t : Instant) : String :=
  String.ofList <|
    yearText t.date.year ++ ['-'] ++ padded 2 t.date.month ++ ['-'] ++ padded 2 t.date.day
      ++ ['T'] ++ padded 2 t.hour ++ [':'] ++ padded 2 t.minute ++ [':'] ++ padded 2 t.second
      ++ ['Z']

/-! ## Reading -/

/-- Why a text is not an instant. -/
inductive Fault where
  /-- A character that cannot stand where it does. -/
  | invalid
  /-- The text ends too early. -/
  | short
  /-- A number that the calendar or the clock does not have. -/
  | outOfRange
  /-- A local time that has no counterpart in universal time. -/
  | impossible
  /-- Characters after the end of the time. -/
  | trailing
  deriving DecidableEq, Repr

/-- The wording of a fault. -/
def Fault.message : Fault → String
  | .invalid => "input contains invalid characters"
  | .short => "premature end of input"
  | .outOfRange => "input is out of range"
  | .impossible => "no possible date and time matching input"
  | .trailing => "trailing input"

/-- The number that digits denote. -/
def numberOf (ds : List Char) : Nat :=
  ds.foldl (fun n c => n * 10 + (c.toNat - '0'.toNat)) 0

/-- A number of at least one and at most `width` digits. -/
def number (width : Nat) (cs : List Char) : Except Fault (Nat × List Char) :=
  match cs with
  | [] => .error .short
  | c :: rest =>
      let ds := ((c :: rest).take width).takeWhile Char.isDigit
      if ds.isEmpty then .error .invalid
      else .ok (numberOf ds, (c :: rest).drop ds.length)

/-- A number of one or two digits between `low` and `high`, after white space. -/
def field (low high : Nat) (cs : List Char) : Except Fault (Nat × List Char) := do
  let (n, rest) ← number 2 (Text.trimLeft cs)
  if low ≤ n ∧ n ≤ high then .ok (n, rest) else .error .outOfRange

/-- A mark between two numbers, after white space. -/
def mark (c : Char) (cs : List Char) : Except Fault (List Char) :=
  match Text.trimLeft cs with
  | [] => .error .short
  | x :: rest => if x = c then .ok rest else .error .invalid

/-- Years are held in 32 bits while they are read. -/
def yearWidth : Int := 2147483648

/-- A number of up to four digits, or a sign and any number of digits. -/
def signedNumber : List Char → Except Fault (Int × List Char)
  | '-' :: rest => do
      let (n, rest) ← number rest.length rest
      .ok (-(n : Int), rest)
  | '+' :: rest => do
      let (n, rest) ← number rest.length rest
      .ok ((n : Int), rest)
  | cs => do
      let (n, rest) ← number 4 cs
      .ok ((n : Int), rest)

/-- A year, after white space. -/
def year (cs : List Char) : Except Fault (Int × List Char) := do
  let (n, rest) ← signedNumber (Text.trimLeft cs)
  if -yearWidth ≤ n ∧ n < yearWidth then .ok (n, rest) else .error .outOfRange

/-- The letter, or blank, between date and time. -/
def separator : List Char → Except Fault (List Char)
  | [] => .error .short
  | c :: rest => if c = 'T' ∨ c = 't' ∨ c = ' ' then .ok rest else .error .invalid

/-- A fraction of a second in nanoseconds, if there is one; digits after the ninth are dropped. -/
def fraction : List Char → Except Fault (Nat × List Char)
  | '.' :: cs => do
      let (n, rest) ← number 9 cs
      let width := cs.length - rest.length
      .ok (n * Nat.pow 10 (9 - width), rest.dropWhile Char.isDigit)
  | cs => .ok (0, cs)

/-- Two digits of an offset: which values they may have is for the caller to say. -/
def twoDigits : List Char → Except Fault (Char × Char × List Char)
  | [] => .error .short
  | [c] => if c.toNat < 0x80 then .error .short else .error .invalid
  | a :: b :: rest => .ok (a, b, rest)

/-- The hours of an offset. -/
def offsetHours (cs : List Char) : Except Fault (Nat × List Char) := do
  let (a, b, rest) ← twoDigits cs
  if a.isDigit ∧ b.isDigit then .ok (numberOf [a, b], rest) else .error .invalid

/-- The minutes of an offset. -/
def offsetMinutes (cs : List Char) : Except Fault (Nat × List Char) := do
  let (a, b, rest) ← twoDigits cs
  if a.isDigit ∧ b.isDigit then
    if numberOf [a, b] < 60 then .ok (numberOf [a, b], rest) else .error .outOfRange
  else .error .invalid

/-- Hours and minutes of an offset, with colons or white space between them or nothing. -/
def signedOffset (sign : Int) (cs : List Char) : Except Fault (Int × List Char) := do
  let (hours, rest) ← offsetHours cs
  let (minutes, rest) ← offsetMinutes (rest.dropWhile fun c => c = ':' || Text.isBlank c)
  .ok (sign * ((hours * 60 + minutes : Nat) : Int), rest)

/-- The minus sign U+2212. -/
def minusSign : Char := '\u2212'

/-- The minutes that the clock is ahead of universal time. -/
def offset : List Char → Except Fault (Int × List Char)
  | 'Z' :: rest => .ok (0, rest)
  | 'z' :: rest => .ok (0, rest)
  | a :: b :: c :: rest =>
      if a.toUpper = 'U' ∧ b.toUpper = 'T' ∧ c.toUpper = 'C' then .ok (0, rest)
      else if a = '+' then signedOffset 1 (b :: c :: rest)
      else if a = '-' ∨ a = minusSign then signedOffset (-1) (b :: c :: rest)
      else .error .invalid
  | a :: rest =>
      if a = '+' then signedOffset 1 rest
      else if a = '-' ∨ a = minusSign then signedOffset (-1) rest
      else .error .invalid
  | [] => .error .short

/-- The first and the last year of the calendar that is read. -/
def yearRange : Int × Int := (-262143, 262142)

/-- Whether the calendar that is read has the year of an instant. -/
def isInRange (t : Instant) : Bool :=
  yearRange.1 ≤ t.date.year && t.date.year ≤ yearRange.2

/-- The instant that numbers read from a text denote. At the ends of the calendar the offset may
lead out of it. -/
def ofNumbers (year : Int) (month day hour minute second nanos : Nat) (offset : Int) :
    Except Fault Instant :=
  match Date.of? year month day with
  | some date =>
      if yearRange.1 ≤ year ∧ year ≤ yearRange.2 ∧ -minutesPerDay < offset ∧
          offset < minutesPerDay then
        let t := ofLocal date (hour * 60 + minute : Nat) (secondOf second) (nanosOf nanos) offset
        if t.isInRange then .ok t else .error .impossible
      else .error .outOfRange
  | none => .error .outOfRange

/-- The instant that characters denote. -/
def read (cs : List Char) : Except Fault Instant := do
  let (y, cs) ← year cs
  let cs ← mark '-' cs
  let (month, cs) ← field 1 12 cs
  let cs ← mark '-' cs
  let (day, cs) ← field 1 31 cs
  let cs ← separator cs
  let (hour, cs) ← field 0 23 cs
  let cs ← mark ':' cs
  let (minute, cs) ← field 0 59 cs
  let cs ← mark ':' cs
  let (second, cs) ← field 0 60 cs
  let (nanos, cs) ← fraction cs
  let (minutes, cs) ← offset (Text.trimLeft cs)
  if (Text.trimLeft cs).isEmpty then ofNumbers y month day hour minute second nanos minutes
  else .error .trailing

/-- The instant that a text denotes. -/
def parse (s : String) : Except Fault Instant :=
  read s.toList

end FleetLabels.Instant
