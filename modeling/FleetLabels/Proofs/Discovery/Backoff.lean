import FleetLabels.Discovery.Wait
import Mathlib.Algebra.Group.Nat.Defs

/-!
# How long is waited

A wait is a loop without an end of its own: it goes on until a look finds policies served. Each turn
that does not find them adds one sleep, and the interval of the next one follows from that of the
last, never from what the look came to. So after `n` turns without success there is only one state
that the wait can be in, `Waiting.undecided n`, and that state is closed form: sleep number `i` lasts
`backoff i = min (10 * 2 ^ i) 60` seconds.

## Main results

* `nextInterval_backoff` — doubling up to a cap, told by the number of the turn.
* `Waiting.after_cases` — where a wait can stand after any number of turns.
* `Waiting.goOn_eq` — a wait with a time limit is the same wait, cut off.
* `Waiting.ends_at_first_present` — the whole of it.
-/

namespace FleetLabels.Discovery

/-- Seconds of sleep number `i`. -/
def backoff (i : Nat) : Nat :=
  min (10 * 2 ^ i) 60

/-- The second of look number `i`. -/
def lookTime (i : Nat) : Nat :=
  total ((List.range i).map backoff)

@[simp] theorem backoff_zero : backoff 0 = firstInterval := rfl

/-- The capped doubling keeps in step with the power of two below the cap. -/
theorem nextInterval_backoff (i : Nat) : nextInterval (backoff i) = backoff (i + 1) := by
  simp only [nextInterval, backoff, maxInterval, pow_succ]
  omega

theorem firstInterval_le_backoff (i : Nat) : firstInterval ≤ backoff i := by
  have hpos : 0 < 2 ^ i := Nat.two_pow_pos i
  simp only [firstInterval, backoff]
  omega

theorem backoff_le_maxInterval (i : Nat) : backoff i ≤ maxInterval :=
  Nat.min_le_right ..

theorem lookTime_succ (i : Nat) : lookTime (i + 1) = lookTime i + backoff i := by
  simp [lookTime, total, List.range_succ]

/-- Looks are a second or more apart. -/
theorem le_lookTime (i : Nat) : i ≤ lookTime i := by
  induction i with
  | zero => exact Nat.le_refl 0
  | succ i ih =>
      have hsleep := firstInterval_le_backoff i
      simp only [firstInterval] at hsleep
      rw [lookTime_succ]
      omega

theorem lookTime_mono {i k : Nat} (h : i ≤ k) : lookTime i ≤ lookTime k := by
  induction h with
  | refl => exact Nat.le_refl _
  | step _ ih =>
      rw [lookTime_succ]
      omega

/-- Policies are found at look number `k` and not before. -/
structure FirstPresent (check : Nat → Check) (k : Nat) : Prop where
  present : check k = .present
  before : ∀ i < k, check i ≠ .present

theorem FirstPresent.unique {check : Nat → Check} {k k' : Nat} (h : FirstPresent check k)
    (h' : FirstPresent check k') : k = k' := by
  rcases Nat.lt_trichotomy k k' with hlt | heq | hgt
  · exact absurd h.present (h'.before k hlt)
  · exact heq
  · exact absurd h'.present (h.before k' hgt)

namespace Waiting

/-- One turn of the loop; a wait that is over stays as it is. -/
def next (check : Nat → Check) (w : Waiting) : Waiting :=
  if w.result.isSome then w else w.turn (check w.looks)

/-- Where a wait stands after a number of turns. -/
def after (check : Nat → Check) : Nat → Waiting
  | 0 => {}
  | n + 1 => (after check n).next check

/-- The state after `n` looks none of which found policies. -/
def undecided (n : Nat) : Waiting where
  looks := n
  sleeps := (List.range n).map backoff
  interval := backoff n

/-- The state after look number `k` was the first to find them. -/
def found (k : Nat) : Waiting :=
  { undecided k with looks := k + 1, result := some (.ok ()) }

@[simp] theorem looks_undecided (n : Nat) : (undecided n).looks = n := rfl

@[simp] theorem result_undecided (n : Nat) : (undecided n).result = none := rfl

@[simp] theorem time_undecided (n : Nat) : (undecided n).time = lookTime n := rfl

@[simp] theorem result_found (k : Nat) : (found k).result = some (.ok ()) := rfl

variable {check : Nat → Check}

theorem next_undecided (n : Nat) : (undecided n).next check = (undecided n).turn (check n) := by
  simp [next]

/-- An outcome other than success adds a sleep, be it an error or not. -/
theorem next_undecided_of_ne {n : Nat} (h : check n ≠ .present) :
    (undecided n).next check = undecided (n + 1) := by
  have hturn : (undecided n).turn (check n) =
      { undecided n with
        looks := n + 1
        sleeps := (undecided n).sleeps ++ [backoff n]
        interval := nextInterval (backoff n) } := by
    cases hcheck : check n with
    | present => exact absurd hcheck h
    | absent => rfl
    | failed => rfl
  rw [next_undecided, hturn, nextInterval_backoff]
  simp [undecided, List.range_succ]

theorem next_undecided_of_present {n : Nat} (h : check n = .present) :
    (undecided n).next check = found n := by
  rw [next_undecided, h]
  rfl

theorem next_found (k : Nat) : (found k).next check = found k := rfl

/-- After any number of turns, either no look has found policies yet, or the first one that did has
ended the wait. -/
theorem after_cases (check : Nat → Check) (n : Nat) :
    ((∀ i < n, check i ≠ .present) ∧ after check n = undecided n) ∨
      ∃ k < n, FirstPresent check k ∧ after check n = found k := by
  induction n with
  | zero => exact .inl ⟨by simp, rfl⟩
  | succ n ih =>
      rw [after]
      rcases ih with ⟨hnone, hafter⟩ | ⟨k, hk, hfirst, hafter⟩
      · rw [hafter]
        by_cases hn : check n = .present
        · exact .inr ⟨n, by omega, ⟨hn, hnone⟩, next_undecided_of_present hn⟩
        · refine .inl ⟨fun i hi => ?_, next_undecided_of_ne hn⟩
          rcases Nat.lt_succ_iff_lt_or_eq.1 hi with hlt | rfl
          · exact hnone i hlt
          · exact hn
      · rw [hafter, next_found]
        exact .inr ⟨k, by omega, hfirst, rfl⟩

theorem after_eq_undecided {k n : Nat} (h : FirstPresent check k) (hn : n ≤ k) :
    after check n = undecided n := by
  rcases after_cases check n with ⟨-, hafter⟩ | ⟨k', hk', hfirst, -⟩
  · exact hafter
  · have := h.unique hfirst
    omega

theorem after_eq_found {k n : Nat} (h : FirstPresent check k) (hn : k < n) :
    after check n = found k := by
  rcases after_cases check n with ⟨hnone, -⟩ | ⟨k', -, hfirst, hafter⟩
  · exact absurd h.present (hnone k hn)
  · rw [hafter, h.unique hfirst]

/-- A wait with a time limit that does not come before policies are found is not cut off. -/
theorem goOn_eq {k limit : Nat} (h : FirstPresent check k) (hlimit : lookTime k < limit)
    (fuel : Nat) :
    ∀ n, k + 1 - n ≤ fuel → n ≤ k + 1 → goOn check limit fuel (after check n) = found k := by
  induction fuel with
  | zero =>
      intro n hfuel hn
      rw [goOn, after_eq_found h (by omega)]
  | succ fuel ih =>
      intro n hfuel hn
      by_cases hover : k < n
      · rw [after_eq_found h hover]
        rfl
      · have hundecided := after_eq_undecided h (Nat.le_of_not_lt hover)
        have htime : lookTime n < limit :=
          Nat.lt_of_le_of_lt (lookTime_mono (Nat.le_of_not_lt hover)) hlimit
        have hturn : (undecided n).turn (check n) = after check (n + 1) := by
          rw [after, hundecided, next_undecided]
        rw [hundecided, goOn, if_neg (by simp [Nat.not_le.2 htime]), looks_undecided, hturn]
        exact ih (n + 1) (by omega) (by omega)

theorem report_found (k : Nat) :
    (found k).report = ⟨(List.range (k + 1)).map lookTime, some (lookTime k)⟩ := by
  have hlooks : (List.range (k + 1)).map (fun i => total ((found k).sleeps.take i)) =
      (List.range (k + 1)).map lookTime := by
    refine List.map_congr_left fun i hi => ?_
    have hle : i ≤ k := Nat.lt_succ_iff.1 (List.mem_range.1 hi)
    simp [found, undecided, lookTime, ← List.map_take, List.take_range, Nat.min_eq_left hle]
  exact congrArg (Wait.mk · (some (lookTime k))) hlooks

/-- The time until the next look stays between the first and the longest one. -/
theorem interval_bounds (check : Nat → Check) (n : Nat) :
    firstInterval ≤ (after check n).interval ∧ (after check n).interval ≤ maxInterval := by
  rcases after_cases check n with ⟨-, hafter⟩ | ⟨k, -, -, hafter⟩
  · rw [hafter]
    exact ⟨firstInterval_le_backoff n, backoff_le_maxInterval n⟩
  · rw [hafter]
    exact ⟨firstInterval_le_backoff k, backoff_le_maxInterval k⟩

/-- **A wait ends at the first look that finds policies.** Up to there no look has ended it, and
every look was followed by a sleep, of ten seconds first and of twice the last one then, but of no
more than a minute. A time limit that comes later changes nothing. Whatever the looks come to, a wait
never ends with an error, nor before policies were found; and the next interval, doubled, is far from
the limit of a machine word. -/
theorem ends_at_first_present (check : Nat → Check) :
    (∀ k, FirstPresent check k →
      (∀ n ≤ k, (after check n).result = none) ∧
      (∀ n, k < n →
        (after check n).result = some (.ok ()) ∧ (after check n).looks = k + 1 ∧
        (after check n).sleeps = (List.range k).map fun i => min (10 * 2 ^ i) 60) ∧
      ∀ limit, lookTime k < limit →
        wait check limit = ⟨(List.range (k + 1)).map lookTime, some (lookTime k)⟩) ∧
    ∀ n,
      (∀ error, (after check n).result ≠ some (.error error)) ∧
      ((after check n).result.isSome → ∃ i < (after check n).looks, check i = .present) ∧
      10 ≤ (after check n).interval ∧ (after check n).interval ≤ 60 ∧
      (after check n).interval * 2 < UInt64.size := by
  constructor
  · intro k hk
    refine ⟨fun n hn => ?_, fun n hn => ?_, fun limit hlimit => ?_⟩
    · rw [after_eq_undecided hk hn]
      rfl
    · rw [after_eq_found hk hn]
      exact ⟨rfl, rfl, rfl⟩
    · have hfuel : k + 1 - 0 ≤ limit + 1 := by
        have := le_lookTime k
        omega
      rw [wait, show ({} : Waiting) = after check 0 from rfl,
        goOn_eq hk hlimit (limit + 1) 0 hfuel (Nat.zero_le _), report_found]
  · intro n
    obtain ⟨hlow, hhigh⟩ := interval_bounds check n
    have hword : (after check n).interval * 2 < UInt64.size := by
      simp only [maxInterval] at hhigh
      have hsize : UInt64.size = 2 ^ 64 := rfl
      omega
    refine ⟨?_, ?_, hlow, hhigh, hword⟩
    · rcases after_cases check n with ⟨-, hafter⟩ | ⟨k, -, -, hafter⟩
      · simp [hafter]
      · simp [hafter]
    · rcases after_cases check n with ⟨-, hafter⟩ | ⟨k, -, hfirst, hafter⟩
      · simp [hafter]
      · intro _
        exact ⟨k, by simp [hafter, found], hfirst.present⟩

/-- Looks that fail and looks that find nothing, in turn, until the sixth finds policies. -/
def mixedLooks (i : Nat) : Check :=
  if i = 5 then .present else if i % 2 = 0 then .failed else .absent

/-- The sleeps grow over failures and absences alike, and the fourth is capped. -/
theorem ends_at_first_present_mixedLooks :
    FirstPresent mixedLooks 5 ∧
      (after mixedLooks 9).result = some (.ok ()) ∧ (after mixedLooks 9).looks = 6 ∧
      (after mixedLooks 9).sleeps = [10, 20, 40, 60, 60] ∧
      wait mixedLooks 1000 = ⟨[0, 10, 30, 70, 130, 190], some 190⟩ := by
  have hfirst : FirstPresent mixedLooks 5 := ⟨rfl, by decide⟩
  obtain ⟨-, hended, hwait⟩ := (ends_at_first_present mixedLooks).1 5 hfirst
  obtain ⟨hresult, hlooks, hsleeps⟩ := hended 9 (by decide)
  exact ⟨hfirst, hresult, hlooks, hsleeps, hwait 1000 (by decide)⟩

end Waiting

end FleetLabels.Discovery
