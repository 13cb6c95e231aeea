/-!
# Decimal numbers

A finite decimal number as sign, digits and power of ten, and how one is written: with an exponent
if it is very large or very small, and else without one. What is written without an exponent keeps a
fractional part, so that the text of a decimal is never the text of an integer.
-/

namespace FleetLabels

/-- The number `±digits · 10 ^ exponent`. Zero keeps its sign. -/
structure Decimal where
  negative : Bool
  digits : Nat
  exponent : Int
  deriving DecidableEq, Repr

namespace Decimal

/-- The written digits of a natural number. -/
def numeral (n : Nat) : List Char :=
  Nat.toDigits 10 n

/-- The text of `ds · 10 ^ exponent` without an exponent. The point stands after the first `point`
digits, where `point` counts the digits left of it; zeros fill what the digits leave open. -/
def place (ds : List Char) (exponent : Int) : List Char :=
  if 0 ≤ exponent then ds ++ List.replicate exponent.toNat '0' ++ ['.', '0']
  else
    let point := (ds.length : Int) + exponent
    if 0 < point then ds.take point.toNat ++ ['.'] ++ ds.drop point.toNat
    else ['0', '.'] ++ List.replicate (-point).toNat '0' ++ ds

/-- The text of `ds · 10 ^ exponent` with one digit before the point and a signed exponent. -/
def scientific (ds : List Char) (exponent : Int) : List Char :=
  let power := exponent + (ds.length : Int) - 1
  let mantissa :=
    match ds with
    | [] => []
    | d :: [] => [d]
    | d :: fraction => d :: '.' :: fraction
  mantissa ++ ['e', if power < 0 then '-' else '+'] ++ numeral power.natAbs

/-- The text of `ds · 10 ^ exponent`, with an exponent where the number is below `10 ^ -5` or not
below `10 ^ 16`. -/
def unsignedText (ds : List Char) (exponent : Int) : List Char :=
  let point := (ds.length : Int) + exponent
  if -5 < point ∧ point ≤ 16 then place ds exponent else scientific ds exponent

/-- The text of a decimal. -/
def text (d : Decimal) : String :=
  String.ofList ((if d.negative then ['-'] else []) ++
    (if d.digits = 0 then ['0', '.', '0'] else unsignedText (numeral d.digits) d.exponent))

end Decimal

end FleetLabels
