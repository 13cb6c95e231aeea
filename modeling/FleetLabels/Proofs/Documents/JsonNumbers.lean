import FleetLabels.Proofs.Documents.Numerals

/-!
# JSON numbers are read back

A JSON number is read part by part: sign, integer, fraction, exponent. Each part is a run of digits
that ends where the digits end, so a number that makes up a whole text is read in the same way in
front of a comma or a closing bracket. Integers of the range that the reader keeps exactly are read
back from their text.

## Main results

* `Json.number_extend` — a number in front of what may follow it.
* `Json.number_int` — an integer.
* `Json.head_of_number` — what a number starts with.
-/

namespace FleetLabels

/-- What may stand behind a value inside a container, or nothing. -/
def Delimited (rest : List Char) : Prop :=
  ∀ c, rest.head? = some c → c = ',' ∨ c = ']' ∨ c = '\x7d'

theorem delimited_nil : Delimited [] := by
  intro c hc
  simp at hc

theorem delimited_cons {c : Char} (rest : List Char) (hc : c = ',' ∨ c = ']' ∨ c = '\x7d') :
    Delimited (c :: rest) := by
  intro d hd
  simp only [List.head?_cons, Option.some.injEq] at hd
  exact hd ▸ hc

theorem Delimited.noDigitAhead {rest : List Char} (h : Delimited rest) : NoDigitAhead rest := by
  intro c hc
  rcases h c hc with rfl | rfl | rfl <;> decide

theorem NoDigitAhead.append {l rest : List Char} (hl : NoDigitAhead l) (hrest : NoDigitAhead rest) :
    NoDigitAhead (l ++ rest) := by
  cases l with
  | nil => exact hrest
  | cons c l => exact noDigitAhead_cons (hl c rfl)

namespace Json

/-! ## Parts of a number -/

section Numbers

variable {cs ds r rest : List Char}

theorem digits1_extend (h : digits1 cs = some (ds, r)) (hrest : NoDigitAhead rest) :
    digits1 (cs ++ rest) = some (ds, r ++ rest) := by
  have hsplit : cs.takeWhile Char.isDigit ++ cs.dropWhile Char.isDigit = cs :=
    List.takeWhile_append_dropWhile
  have hdigits : ∀ c ∈ cs.takeWhile Char.isDigit, c.isDigit = true := by
    intro c hc
    exact List.all_eq_true.1 List.all_takeWhile c hc
  have hend : NoDigitAhead (cs.dropWhile Char.isDigit) := by
    intro c hc
    have hnot := List.head?_dropWhile_not Char.isDigit cs
    rw [hc] at hnot
    exact hnot
  unfold digits1 at h
  split at h
  next => cases h
  next hne =>
    cases h
    have hall : cs ++ rest = cs.takeWhile Char.isDigit ++ (cs.dropWhile Char.isDigit ++ rest) := by
      rw [← List.append_assoc, hsplit]
    rw [hall]
    exact digits1_append hdigits hne (hend.append hrest)

/-- Whatever is made of the digits is made of them again. -/
theorem digits1_bind_extend {α : Type} (f : List Char → Option α) {a : α}
    (h : (digits1 cs).bind (fun p => (f p.1).map (·, p.2)) = some (a, r))
    (hrest : NoDigitAhead rest) :
    (digits1 (cs ++ rest)).bind (fun p => (f p.1).map (·, p.2)) = some (a, r ++ rest) := by
  cases hdigits : digits1 cs with
  | none => simp [hdigits] at h
  | some p =>
      have hextended : digits1 (cs ++ rest) = some (p.1, p.2 ++ rest) :=
        digits1_extend hdigits hrest
      rw [hdigits, Option.bind_some] at h
      rw [hextended, Option.bind_some]
      cases hf : f p.1 with
      | none => simp [hf] at h
      | some b =>
          rw [hf] at h
          cases h
          rfl

/-- Digits that an integer may have. -/
def plainDigits? (ds : List Char) : Option (List Char) :=
  if ds.head? = some '0' ∧ ds.length ≠ 1 then none else some ds

theorem integerPart_eq (cs : List Char) :
    integerPart cs = (digits1 cs).bind fun p => (plainDigits? p.1).map (·, p.2) := by
  unfold integerPart
  cases digits1 cs with
  | none => rfl
  | some p =>
      show (if p.1.head? = some '0' ∧ p.1.length ≠ 1 then none else some (p.1, p.2)) = _
      rw [Option.bind_some, plainDigits?]
      split <;> rfl

theorem integerPart_extend (h : integerPart cs = some (ds, r)) (hrest : NoDigitAhead rest) :
    integerPart (cs ++ rest) = some (ds, r ++ rest) := by
  rw [integerPart_eq] at h ⊢
  exact digits1_bind_extend plainDigits? h hrest

theorem fractionPart_of_delimited (hrest : Delimited rest) :
    fractionPart rest = some (none, rest) := by
  cases rest with
  | nil => rfl
  | cons c rest => rcases hrest c rfl with rfl | rfl | rfl <;> rfl

theorem exponentPart_of_delimited (hrest : Delimited rest) :
    exponentPart rest = some (none, rest) := by
  cases rest with
  | nil => rfl
  | cons c rest => rcases hrest c rfl with rfl | rfl | rfl <;> rfl

theorem fractionPart_extend {fraction : Option (List Char)}
    (h : fractionPart cs = some (fraction, r)) (hrest : Delimited rest) :
    fractionPart (cs ++ rest) = some (fraction, r ++ rest) := by
  unfold fractionPart at h
  split at h
  next cs =>
    exact digits1_bind_extend (fun ds => some (some ds)) h hrest.noDigitAhead
  next hpoint =>
    cases h
    cases cs with
    | nil => exact fractionPart_of_delimited hrest
    | cons c cs =>
        rw [List.cons_append, fractionPart.eq_2]
        intro l hl
        exact hpoint cs (by rw [(List.cons.inj hl).1])

/-- The number that the digits of an exponent denote. -/
def exponentOf (ds : List Char) : Int :=
  (ds.foldl (fun n c => n * 10 + digit c) 0 : Nat)

theorem signedDigits_extend {n : Int} (h : signedDigits cs = some (n, r))
    (hrest : Delimited rest) : signedDigits (cs ++ rest) = some (n, r ++ rest) := by
  have hdigits (f : Int → Int) {cs : List Char}
      (h : ((digits1 cs).bind fun p => some (f (exponentOf p.1), p.2)) = some (n, r)) :
      ((digits1 (cs ++ rest)).bind fun p => some (f (exponentOf p.1), p.2)) =
        some (n, r ++ rest) :=
    digits1_bind_extend (fun ds => some (f (exponentOf ds))) h hrest.noDigitAhead
  unfold signedDigits at h
  split at h
  next => exact hdigits (- ·) h
  next => exact hdigits id h
  next hminus hplus =>
    cases cs with
    | nil => cases h
    | cons c cs =>
        rw [List.cons_append, signedDigits.eq_3, ← List.cons_append]
        · exact hdigits id h
        · intro l hl
          exact hminus cs (by rw [(List.cons.inj hl).1])
        · intro l hl
          exact hplus cs (by rw [(List.cons.inj hl).1])

theorem writtenExponent_extend {exponent : Option Int}
    (h : ((signedDigits cs).map fun (n, r) => (some n, r)) = some (exponent, r))
    (hrest : Delimited rest) :
    ((signedDigits (cs ++ rest)).map fun (n, r) => (some n, r)) = some (exponent, r ++ rest) := by
  cases hsigned : signedDigits cs with
  | none => simp [hsigned] at h
  | some p =>
      rw [hsigned] at h
      cases h
      rw [signedDigits_extend hsigned hrest]
      rfl

theorem exponentPart_extend {exponent : Option Int} (h : exponentPart cs = some (exponent, r))
    (hrest : Delimited rest) : exponentPart (cs ++ rest) = some (exponent, r ++ rest) := by
  unfold exponentPart at h
  split at h
  next => exact writtenExponent_extend h hrest
  next => exact writtenExponent_extend h hrest
  next hsmall hlarge =>
    cases h
    cases cs with
    | nil => exact exponentPart_of_delimited hrest
    | cons c cs =>
        rw [List.cons_append, exponentPart.eq_3]
        · intro l hl
          exact hsmall cs (by rw [(List.cons.inj hl).1])
        · intro l hl
          exact hlarge cs (by rw [(List.cons.inj hl).1])

/-- A number whose sign has been read, from the given text. -/
def unsignedNumber (negative : Bool) (source cs : List Char) : Option (Json × List Char) :=
  (integerPart cs).bind fun (whole, rest) => (fractionPart rest).bind fun (fraction, rest) =>
    (exponentPart rest).bind fun (exponent, rest) =>
      some
        ((numberOf negative whole fraction exponent).getD (.verbatim (readPart source rest)), rest)

theorem number_minus (cs : List Char) :
    number ('-' :: cs) = unsignedNumber true ('-' :: cs) cs := rfl

theorem number_of_ne {c : Char} (hc : c ≠ '-') (cs : List Char) :
    number (c :: cs) = unsignedNumber false (c :: cs) (c :: cs) := by
  unfold number
  split
  next heq =>
    split at heq
    next hminus => exact absurd (List.cons.inj hminus).1 hc
    next =>
      cases heq
      rfl

theorem unsignedNumber_extend {negative : Bool} {source : List Char} {j : Json}
    (h : unsignedNumber negative source cs = some (j, [])) (hj : ∀ s, j ≠ .verbatim s)
    (source' : List Char) (hrest : Delimited rest) :
    unsignedNumber negative source' (cs ++ rest) = some (j, rest) := by
  simp only [unsignedNumber, Option.bind_eq_some_iff, Prod.exists, Option.some.injEq,
    Prod.mk.injEq] at h
  obtain ⟨whole, r₁, hwhole, fraction, r₂, hfraction, exponent, r₃, hexponent, hnumber, rfl⟩ := h
  have hvalue : numberOf negative whole fraction exponent = some j := by
    cases hof : numberOf negative whole fraction exponent with
    | none =>
        rw [hof, Option.getD_none] at hnumber
        exact absurd hnumber.symm (hj _)
    | some k =>
        rw [hof, Option.getD_some] at hnumber
        rw [hnumber]
  simp only [unsignedNumber, integerPart_extend hwhole hrest.noDigitAhead, Option.bind_some,
    fractionPart_extend hfraction hrest, exponentPart_extend hexponent hrest, hvalue,
    Option.getD_some, List.nil_append]

/-- A number that makes up a whole text is read in the same way in front of what may follow. -/
theorem number_extend {j : Json} (h : number cs = some (j, [])) (hj : ∀ s, j ≠ .verbatim s)
    (hrest : Delimited rest) : number (cs ++ rest) = some (j, rest) := by
  cases cs with
  | nil => cases h
  | cons c cs =>
      by_cases hc : c = '-'
      · subst hc
        rw [number_minus] at h
        rw [List.cons_append, number_minus]
        exact unsignedNumber_extend h hj _ hrest
      · rw [number_of_ne hc] at h
        rw [List.cons_append, number_of_ne hc, ← List.cons_append]
        exact unsignedNumber_extend h hj _ hrest

end Numbers

theorem unsignedNumber_numeral (negative : Bool) (source : List Char) {m : Nat} {n : Int}
    (h : numberOf negative (Decimal.numeral m) none none = some (.int n)) :
    unsignedNumber negative source (Decimal.numeral m) = some (.int n, []) := by
  have hwhole : integerPart (Decimal.numeral m) = some (Decimal.numeral m, []) := by
    simpa using integerPart_numeral m noDigitAhead_nil
  simp only [unsignedNumber, hwhole, Option.bind_some, fractionPart_of_delimited delimited_nil,
    exponentPart_of_delimited delimited_nil, h, Option.getD_some]

/-- An integer of the range that texts denote is read back. -/
theorem number_int {n : Int} (hlow : -(maxNegative : Int) ≤ n) (hhigh : n ≤ maxSignificand) :
    number (toString n).toList = some (.int n, []) := by
  have hlimits : maxNegative ≤ maxSignificand := by decide
  rw [Int.toString_eq_repr, Int.repr_eq_if]
  split
  · have hfits : n.toNat ≤ maxSignificand := by omega
    have hvalue : numberOf false (Decimal.numeral n.toNat) none none = some (.int n) := by
      have hn : (n.toNat : Int) = n := by omega
      simp [numberOf, accumulate_numeral hfits, hn]
    have hread := fun source => unsignedNumber_numeral false source hvalue
    rw [Nat.toList_repr]
    show number (Decimal.numeral n.toNat) = _
    cases hds : Decimal.numeral n.toNat with
    | nil => exact absurd hds (Decimal.numeral_ne_nil _)
    | cons d ds =>
        have hd : d.isDigit = true := Decimal.isDigit_of_mem_numeral (hds ▸ List.mem_cons_self)
        have hminus : d ≠ '-' := by
          intro heq
          exact absurd (heq ▸ hd) (by decide)
        rw [number_of_ne hminus, ← hds]
        exact hread _
  · have hfits : (-n).toNat ≤ maxSignificand := by omega
    have hvalue : numberOf true (Decimal.numeral (-n).toNat) none none = some (.int n) := by
      have hn : -((-n).toNat : Int) = n := by omega
      have hreal : ¬((-n).toNat = 0 ∨ maxNegative < (-n).toNat) := by omega
      simp only [numberOf, accumulate_numeral hfits, if_neg hreal, hn]
      rfl
    rw [String.toList_append, Nat.toList_repr]
    show number ('-' :: Decimal.numeral (-n).toNat) = _
    rw [number_minus]
    exact unsignedNumber_numeral true _ hvalue

/-- A number starts with a digit or a sign. -/
theorem head_of_number {cs : List Char} {r : Json × List Char} (h : number cs = some r) :
    ∃ c l, cs = c :: l ∧ (c.isDigit = true ∨ c = '-') := by
  cases cs with
  | nil => cases h
  | cons c cs =>
      refine ⟨c, cs, rfl, ?_⟩
      by_cases hc : c = '-'
      · exact .inr hc
      · left
        rw [number_of_ne hc, unsignedNumber] at h
        by_cases hdigit : c.isDigit = true
        · exact hdigit
        · have hnone : integerPart (c :: cs) = none := by
            simp [integerPart, digits1, hdigit]
          rw [hnone] at h
          cases h

end Json

end FleetLabels
