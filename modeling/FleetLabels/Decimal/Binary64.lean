import FleetLabels.Decimal.Basic

/-!
# Binary floating point of 64 bits

A finite number of the 64-bit binary format is `mantissa · 2 ^ exponent`. Ratios of natural numbers
are rounded to the nearest such number, an exact half to the even mantissa, and a number is written
back as the shortest decimal that rounds to it, the nearest one if several are equally short.
-/

namespace FleetLabels

/-- The non-negative number `mantissa · 2 ^ exponent`. -/
structure Binary64 where
  mantissa : Nat
  exponent : Int
  deriving DecidableEq, Repr

namespace Binary64

/-- The smallest power of two of the format; below it the mantissa loses digits. -/
def minExponent : Int := -1074

/-- The largest power of two of the format; above it a number is out of range. -/
def maxExponent : Int := 971

/-- The smallest mantissa of full length, `2 ^ 52`. -/
def hiddenBit : Nat := 4503599627370496

/-- The numerator of a number as a ratio of natural numbers. -/
def num (x : Binary64) : Nat := x.mantissa * Nat.pow 2 x.exponent.toNat

/-- The denominator of a number as a ratio of natural numbers. -/
def den (x : Binary64) : Nat := Nat.pow 2 (-x.exponent).toNat

/-- The quotient `n / d` rounded to the nearest integer, a half to the even one. -/
def roundHalfEven (n d : Nat) : Nat :=
  let q := n / d
  let r := n % d
  if 2 * r < d then q else if d < 2 * r then q + 1 else if q % 2 = 0 then q else q + 1

/-- The quotient `n / (d · 2 ^ e)` as numerator and denominator. -/
def shifted (n d : Nat) (e : Int) : Nat × Nat :=
  (n * Nat.pow 2 (-e).toNat, d * Nat.pow 2 e.toNat)

/-- The exponent at which `n / d` has a mantissa of 53 bits, or the smallest one. -/
def exponentOf (n d : Nat) : Int :=
  let guess := (n.log2 : Int) - (d.log2 : Int) - 52
  let (a, b) := shifted n d guess
  max minExponent (if a < b * hiddenBit then guess - 1 else guess)

/-- The number nearest to the ratio `n / d`, and none where that is out of range. -/
def ofRatio (n d : Nat) : Option Binary64 :=
  if n = 0 then some ⟨0, 0⟩
  else
    let e := exponentOf n d
    let (a, b) := shifted n d e
    let m := roundHalfEven a b
    let x : Binary64 := if m = 2 * hiddenBit then ⟨hiddenBit, e + 1⟩ else ⟨m, e⟩
    if maxExponent < x.exponent then none else some x

/-- The number nearest to `10 ^ k`. -/
def powerOfTen (k : Nat) : Option Binary64 :=
  ofRatio (Nat.pow 10 k) 1

/-- The product of two numbers, rounded. -/
def mul (x y : Binary64) : Option Binary64 :=
  ofRatio (x.num * y.num) (x.den * y.den)

/-- The quotient of two numbers, rounded. -/
def div (x y : Binary64) : Option Binary64 :=
  ofRatio (x.num * y.den) (x.den * y.num)

/-- The largest power of ten by which a number is scaled in one step. -/
def maxPower : Nat := 308

/-- Scaling down by `10 ^ k` in steps of at most `maxPower`. -/
def scaleDown (x : Binary64) (k : Nat) : Option Binary64 :=
  if _h : k ≤ maxPower then do x.div (← powerOfTen k)
  else do
    let y ← x.div (← powerOfTen maxPower)
    if y.mantissa = 0 then some y else y.scaleDown (k - maxPower)
termination_by k
decreasing_by simp only [maxPower] at *; omega

/-- The number written as `significand · 10 ^ exponent`: the significand is rounded first, and then
scaled by one rounded power of ten. None where the result is out of range. -/
def ofScaled (significand : Nat) (exponent : Int) : Option Binary64 := do
  let x ← ofRatio significand 1
  if x.mantissa = 0 then some x
  else if exponent < 0 then x.scaleDown (-exponent).toNat
  else if (maxPower : Int) < exponent then none
  else x.mul (← powerOfTen exponent.toNat)

/-- Whether the ratio `n / d` rounds to `x`: it lies no further from `x` than half the gap to the
next number on its side, and a distance of exactly half only counts for an even mantissa. -/
def attracts (x : Binary64) (n d : Nat) : Bool :=
  let lowGap : Nat := if x.mantissa = hiddenBit ∧ minExponent < x.exponent then 1 else 2
  -- everything in quarters of the last binary place
  let (a, b) := shifted (4 * n) d x.exponent
  let centre := 4 * x.mantissa * b
  if x.mantissa % 2 = 0 then centre - lowGap * b ≤ a && a ≤ centre + 2 * b
  else centre - lowGap * b < a && a < centre + 2 * b

/-- The power of ten just below or at the ratio `n / d`, by counting down from `k`. -/
def magnitude (n d : Nat) : Nat → Int → Int
  | 0, k => k
  | fuel + 1, k =>
      if d * Nat.pow 10 k.toNat ≤ n * Nat.pow 10 (-k).toNat then k else magnitude n d fuel (k - 1)

/-- The decimal with `count` digits next to `x` that rounds to `x`, if there is one: of the two
neighbours on the grid the nearer, and of two equally near the even one. -/
def onGrid (x : Binary64) (power : Int) (count : Nat) : Option (Nat × Int) :=
  let g := power - (count : Int) + 1
  let n := x.num * Nat.pow 10 (-g).toNat
  let d := x.den * Nat.pow 10 g.toNat
  let below := n / d
  let fits (k : Nat) : Bool :=
    x.attracts (k * Nat.pow 10 g.toNat) (Nat.pow 10 (-g).toNat)
  let near := roundHalfEven n d
  let far := if near = below then below + 1 else below
  if fits near then some (near, g) else if fits far then some (far, g) else none

/-- Digits without the zeros they end in. -/
def dropZeros : Nat → Nat → Int → Nat × Int
  | 0, digits, g => (digits, g)
  | fuel + 1, digits, g =>
      if digits ≠ 0 ∧ digits % 10 = 0 then dropZeros fuel (digits / 10) (g + 1) else (digits, g)

/-- The shortest decimal that rounds to `x`, with the sign given. -/
def shortest (x : Binary64) (negative : Bool) : Decimal :=
  if x.mantissa = 0 then ⟨negative, 0, 0⟩
  else
    let power := magnitude x.num x.den 700 309
    let (digits, g) :=
      ((List.range 18).findSome? fun i => x.onGrid power (i + 1)).getD (0, 0)
    let (digits, g) := dropZeros 20 digits g
    ⟨negative, digits, g⟩

end Binary64

end FleetLabels
