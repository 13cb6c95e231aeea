import FleetLabels.Discovery.Check
import FleetLabels.Failure

/-!
# Waiting for the policy interface

The cluster is looked at again and again until policies are served. The time between two looks
doubles from ten seconds on up to one minute, whether a look failed or found nothing.
-/

namespace FleetLabels.Discovery

/-- Seconds between the first and the second look. -/
def firstInterval : Nat := 10

/-- The most seconds between two looks. -/
def maxInterval : Nat := 60

/-- The interval after the given one. -/
def nextInterval (interval : Nat) : Nat :=
  min (interval * 2) maxInterval

/-- Seconds that sleeps take together. -/
def total (sleeps : List Nat) : Nat :=
  sleeps.foldl (· + ·) 0

/-- Where a wait stands. -/
structure Waiting where
  /-- How often the cluster was looked at. -/
  looks : Nat := 0
  /-- Seconds of each sleep, in order. -/
  sleeps : List Nat := []
  /-- Seconds of the sleep that comes next. -/
  interval : Nat := firstInterval
  /-- What the wait ended with, if it is over. -/
  result : Option (Except PassError Unit) := none

namespace Waiting

/-- One more look, with the given outcome: policies are served and the wait is over, or there is a
sleep, and the next one is longer. -/
def turn (w : Waiting) : Check → Waiting
  | .present => { w with looks := w.looks + 1, result := some (.ok ()) }
  | .absent | .failed =>
      { w with
        looks := w.looks + 1
        sleeps := w.sleeps ++ [w.interval]
        interval := nextInterval w.interval }

/-- Seconds since the wait began. -/
def time (w : Waiting) : Nat :=
  total w.sleeps

/-- Goes on as long as the wait is not over and the second `limit` has not come; look number `i` has
the outcome `check i`. The fuel bounds the number of looks. -/
def goOn (check : Nat → Check) (limit : Nat) : (fuel : Nat) → Waiting → Waiting
  | 0, w => w
  | fuel + 1, w =>
      if w.result.isSome || limit ≤ w.time then w
      else goOn check limit fuel (w.turn (check w.looks))

end Waiting

/-- A run of looks: when each of them was, and the second at which policies were found. -/
structure Wait where
  looks : List Nat
  foundAt : Option Nat
  deriving DecidableEq, Repr

/-- What can be seen of a wait from the outside. -/
def Waiting.report (w : Waiting) : Wait where
  looks := (List.range w.looks).map fun i => total (w.sleeps.take i)
  foundAt := w.result.map fun _ => w.time

/-- Waits for policies to be served, for at most `limit` seconds. Every sleep takes a second or
more, so there are not more looks than seconds. -/
def wait (check : Nat → Check) (limit : Nat) : Wait :=
  (Waiting.goOn check limit (limit + 1) {}).report

end FleetLabels.Discovery
