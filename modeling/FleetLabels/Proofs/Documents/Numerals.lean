import FleetLabels.Instant.Text
import FleetLabels.Json.Reader

/-!
# Written numbers

Times and JSON integers are both written with the digits of `Decimal.numeral`, but read by two
readers: the one of times takes at most so many digits and looks at no more, the one of JSON takes
all digits that follow and adds them up as long as they fit. This module says that both read back
what was written, whatever comes after it.

## Main results

* `Instant.number_padded`, `Instant.number_padded_all` — a number of a time.
* `Json.integerPart_numeral`, `Json.accumulate_numeral` — the digits of a JSON integer, and the
  number that they add up to.
-/

namespace FleetLabels

/-! ## Digits -/

namespace Decimal

theorem isDigit_of_mem_numeral {n : Nat} {c : Char} (h : c ∈ numeral n) : c.isDigit = true :=
  Nat.isDigit_of_mem_toDigits (by decide) (by decide) h

theorem numeral_ne_nil (n : Nat) : numeral n ≠ [] :=
  Nat.toDigits_ne_nil

/-- Only zero is written with a zero in front. -/
theorem head?_numeral {n : Nat} (h : n ≠ 0) : (numeral n).head? ≠ some '0' := by
  unfold numeral
  induction n using Nat.base_induction 10 (by decide) with
  | single m hm => simp [Nat.toDigits_of_lt_base hm, h]
  | digit m k hk hm ih =>
      have hm' : (Nat.toDigits 10 m).head? ≠ some '0' := ih (by omega)
      rw [← Nat.toDigits_append_toDigits (by decide) hm hk]
      cases hdigits : Nat.toDigits 10 m with
      | nil => exact absurd hdigits Nat.toDigits_ne_nil
      | cons d ds => simpa [hdigits] using hm'

end Decimal

/-- What comes next is not a digit. -/
def NoDigitAhead (rest : List Char) : Prop :=
  ∀ c, rest.head? = some c → c.isDigit = false

theorem noDigitAhead_nil : NoDigitAhead [] := by
  intro c hc
  simp at hc

theorem noDigitAhead_cons {c : Char} {rest : List Char} (hc : c.isDigit = false) :
    NoDigitAhead (c :: rest) := by
  intro d hd
  simp only [List.head?_cons, Option.some.injEq] at hd
  exact hd ▸ hc

section Runs

variable {ds rest : List Char}

theorem takeWhile_isDigit (hds : ∀ c ∈ ds, c.isDigit = true) (hrest : NoDigitAhead rest) :
    (ds ++ rest).takeWhile Char.isDigit = ds := by
  rw [List.takeWhile_append_of_pos hds]
  cases rest with
  | nil => simp
  | cons c rest =>
      have hc : c.isDigit = false := hrest c rfl
      simp [hc]

theorem dropWhile_isDigit (hds : ∀ c ∈ ds, c.isDigit = true) (hrest : NoDigitAhead rest) :
    (ds ++ rest).dropWhile Char.isDigit = rest := by
  rw [List.dropWhile_append_of_pos hds]
  cases rest with
  | nil => simp
  | cons c rest =>
      have hc : c.isDigit = false := hrest c rfl
      simp [hc]

end Runs

/-! ## Numbers of times -/

namespace Instant

theorem numberOf_eq (ds : List Char) : numberOf ds = Nat.ofDigitChars 10 ds 0 := by
  simp only [numberOf, Nat.ofDigitChars, Nat.mul_comm]

theorem numberOf_padded (width n : Nat) : numberOf (padded width n) = n := by
  simp only [numberOf_eq, padded, Nat.ofDigitChars_append, Nat.ofDigitChars_replicate_zero,
    Decimal.numeral, Nat.mul_zero, Nat.ofDigitChars_ten_toDigits]

theorem isDigit_of_mem_padded {width n : Nat} {c : Char} (h : c ∈ padded width n) :
    c.isDigit = true := by
  rcases List.mem_append.1 h with h | h
  · have hc : c = '0' := List.eq_of_mem_replicate h
    rw [hc]
    rfl
  · exact Decimal.isDigit_of_mem_numeral h

theorem padded_ne_nil (width n : Nat) : padded width n ≠ [] := by
  simp [padded, Decimal.numeral_ne_nil]

theorem length_padded {width n : Nat} (hwidth : 0 < width) (h : n < Nat.pow 10 width) :
    (padded width n).length = width := by
  have hle : (Decimal.numeral n).length ≤ width :=
    (Nat.length_toDigits_le_iff (by decide) hwidth).2 h
  simp only [padded, List.length_append, List.length_replicate]
  omega

/-- A run of digits is read as a number, up to the end of the width or of the run. -/
theorem number_append {width : Nat} {ds rest : List Char} (hds : ∀ c ∈ ds, c.isDigit = true)
    (hne : ds ≠ []) (hle : ds.length ≤ width) (hend : ds.length = width ∨ NoDigitAhead rest) :
    number width (ds ++ rest) = .ok (numberOf ds, rest) := by
  have hseen : ((ds ++ rest).take width).takeWhile Char.isDigit = ds := by
    rw [List.take_append, List.take_of_length_le hle]
    cases hend with
    | inl hlength =>
        have hnone : rest.take (width - ds.length) = [] := by simp [hlength]
        rw [hnone, List.append_nil]
        simpa using takeWhile_isDigit hds noDigitAhead_nil
    | inr hrest =>
        apply takeWhile_isDigit hds
        intro c hc
        apply hrest c
        rw [List.head?_take] at hc
        split at hc
        · simp at hc
        · exact hc
  cases ds with
  | nil => exact absurd rfl hne
  | cons d ds =>
      simp only [number, List.cons_append] at hseen ⊢
      rw [hseen]
      simp

/-- A number written with leading zeros is read as far as the width goes, whatever follows. -/
theorem number_padded {width n : Nat} (hwidth : 0 < width) (h : n < Nat.pow 10 width)
    (rest : List Char) : number width (padded width n ++ rest) = .ok (n, rest) := by
  have hlength := length_padded hwidth h
  rw [number_append (fun _ => isDigit_of_mem_padded) (padded_ne_nil width n)
    (Nat.le_of_eq hlength) (.inl hlength), numberOf_padded]

/-- A number written with leading zeros is read to its end if there is room for all that follows. -/
theorem number_padded_all {width n : Nat} {rest : List Char} (hrest : NoDigitAhead rest) :
    number (padded width n ++ rest).length (padded width n ++ rest) = .ok (n, rest) := by
  have hle : (padded width n).length ≤ (padded width n ++ rest).length := by simp
  rw [number_append (fun _ => isDigit_of_mem_padded) (padded_ne_nil width n) hle (.inr hrest),
    numberOf_padded]

end Instant

/-! ## JSON integers -/

namespace Json

theorem digits1_append {ds rest : List Char} (hds : ∀ c ∈ ds, c.isDigit = true) (hne : ds ≠ [])
    (hrest : NoDigitAhead rest) : digits1 (ds ++ rest) = some (ds, rest) := by
  rw [digits1, takeWhile_isDigit hds hrest, dropWhile_isDigit hds hrest]
  cases ds with
  | nil => exact absurd rfl hne
  | cons d ds => rfl

theorem integerPart_numeral (n : Nat) {rest : List Char} (hrest : NoDigitAhead rest) :
    integerPart (Decimal.numeral n ++ rest) = some (Decimal.numeral n, rest) := by
  rw [integerPart, digits1_append (fun _ => Decimal.isDigit_of_mem_numeral)
    (Decimal.numeral_ne_nil n) hrest]
  have hfirst : ¬((Decimal.numeral n).head? = some '0' ∧ (Decimal.numeral n).length ≠ 1) := by
    intro ⟨hzero, hlength⟩
    by_cases hn : n = 0
    · subst hn
      exact hlength rfl
    · exact Decimal.head?_numeral hn hzero
  exact if_neg hfirst

theorem le_ofDigitChars (ds : List Char) (s : Nat) : s ≤ Nat.ofDigitChars 10 ds s := by
  rw [Nat.ofDigitChars_eq_ofDigitChars_zero]
  have hpos : 0 < 10 ^ ds.length := Nat.pow_pos (by decide)
  have hmul : 1 * s ≤ 10 ^ ds.length * s := Nat.mul_le_mul_right s hpos
  omega

/-- Digits are added up exactly as long as the sum fits. -/
theorem accumulate_eq (ds : List Char) :
    ∀ s, Nat.ofDigitChars 10 ds s ≤ maxSignificand →
      accumulate s ds = (Nat.ofDigitChars 10 ds s, 0) := by
  induction ds with
  | nil =>
      intro s _
      simp [accumulate]
  | cons d ds ih =>
      intro s h
      rw [Nat.ofDigitChars_cons, Nat.mul_comm] at h
      have hfits : s * 10 + digit d ≤ maxSignificand := Nat.le_trans (le_ofDigitChars ds _) h
      have hstep : accumulate s (d :: ds) = accumulate (s * 10 + digit d) ds := by
        simp only [accumulate, List.foldl_cons]
        rw [if_pos ⟨trivial, hfits⟩]
      rw [hstep, Nat.ofDigitChars_cons, Nat.mul_comm 10 s]
      exact ih _ h

theorem accumulate_numeral {n : Nat} (h : n ≤ maxSignificand) :
    accumulate 0 (Decimal.numeral n) = (n, 0) := by
  have hn : Nat.ofDigitChars 10 (Decimal.numeral n) 0 = n := Nat.ofDigitChars_ten_toDigits
  rw [accumulate_eq _ 0 (by omega), hn]

end Json

end FleetLabels
