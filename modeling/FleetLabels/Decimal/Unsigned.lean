/-!
# Whole numbers of limited size

Reading a whole number that must not exceed a limit: an optional plus sign and one or more ASCII
digits. The characters are read from the left, and the first one that rules the number out decides
the fault; a character that is no digit comes before a number that has grown too large.
-/

namespace FleetLabels.Unsigned

/-- Why characters are not a whole number of limited size. -/
inductive Fault where
  | empty
  | invalidDigit
  | tooLarge
  deriving DecidableEq, Repr

/-- The wording of a fault. -/
def Fault.message : Fault → String
  | .empty => "cannot parse integer from empty string"
  | .invalidDigit => "invalid digit found in string"
  | .tooLarge => "number too large to fit in target type"

/-- The number of digits read after the number `n`. -/
def digits (limit n : Nat) : List Char → Except Fault Nat
  | [] => .ok n
  | c :: rest =>
      if !c.isDigit then .error .invalidDigit
      else
        let next := n * 10 + (c.toNat - '0'.toNat)
        if limit < next then .error .tooLarge else digits limit next rest

/-- The number that characters denote. -/
def parse (limit : Nat) : List Char → Except Fault Nat
  | [] => .error .empty
  | '+' :: [] => .error .invalidDigit
  | '+' :: rest => digits limit 0 rest
  | cs => digits limit 0 cs

end FleetLabels.Unsigned
