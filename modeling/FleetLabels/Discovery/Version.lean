import FleetLabels.Decimal.Unsigned

/-!
# Versions of an interface

Versions are ordered by how settled they are: `v2` before `v1`, both before `v1beta1`, that before
`v1alpha1`, and all of them before a version that is not named in this way. Of those the smaller
name comes first.
-/

namespace FleetLabels

/-- How settled a version is; later constructors are more so. -/
inductive Stability where
  | irregular
  | alpha
  | beta
  | stable
  deriving DecidableEq, Repr

/-- The place of a degree of stability. -/
def Stability.rank : Stability → Nat
  | .irregular => 0
  | .alpha => 1
  | .beta => 2
  | .stable => 3

/-- What decides the place of a version among others. -/
structure Priority where
  stability : Stability
  major : Nat := 0
  minor : Option Nat := none
  /-- The name of a version that is not regular. -/
  name : String := ""
  deriving DecidableEq, Repr

namespace Priority

/-- The largest number in a version. -/
def maxNumber : Nat := 4294967295

/-- The priority of what follows the major number. -/
def ofSuffix (major : Nat) (suffix : List Char) : Option Priority :=
  match suffix with
  | [] => some { stability := .stable, major }
  | 'a' :: 'l' :: 'p' :: 'h' :: 'a' :: [] => some { stability := .alpha, major }
  | 'a' :: 'l' :: 'p' :: 'h' :: 'a' :: cs => do
      let minor ← (Unsigned.parse maxNumber cs).toOption
      some { stability := .alpha, major, minor := some minor }
  | 'b' :: 'e' :: 't' :: 'a' :: [] => some { stability := .beta, major }
  | 'b' :: 'e' :: 't' :: 'a' :: cs => do
      let minor ← (Unsigned.parse maxNumber cs).toOption
      some { stability := .beta, major, minor := some minor }
  | _ => none

/-- The priority of a version that is named regularly. -/
def ofRegular? : List Char → Option Priority
  | 'v' :: cs => do
      let major ← (Unsigned.parse maxNumber (cs.takeWhile Char.isDigit)).toOption
      ofSuffix major (cs.dropWhile Char.isDigit)
  | _ => none

/-- The priority of a version. -/
def ofVersion (version : String) : Priority :=
  (ofRegular? version.toList).getD { stability := .irregular, name := version }

/-- Which of two versions is the more settled one, the larger being so. -/
def compare (a b : Priority) : Ordering :=
  (Ord.compare a.stability.rank b.stability.rank).then <|
    (Ord.compare a.major b.major).then <|
      (Ord.compare a.minor b.minor).then (Ord.compare b.name a.name)

end Priority

/-- The most settled of a version and those of a list; of equal ones the first. -/
def latestVersion (first : String) (rest : List String) : String :=
  rest.foldl
    (fun best v =>
      if (Priority.ofVersion v).compare (Priority.ofVersion best) = .gt then v else best)
    first

end FleetLabels
