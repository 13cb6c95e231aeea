import FleetLabels.Proofs.Documents.Numerals
import FleetLabels.Proofs.Documents.Readers

/-!
# Times of documents

The text of a time leaves out fractions of a second, and the reader takes more than the writer
gives: offsets from universal time, fractions, years of any length. So reading what was written does
not give back every instant, but it gives the instant without its fraction of a second, and that
one is written in the same way.

The calendar of the reader has a first and a last year, and no text denotes an instant outside. So
an instant that was read can be read back from its text, without any further condition.

## Main results

* `Instant.parse_text` — the text of an instant denotes it, up to fractions of a second.
* `Instant.gives_parse` — the calendar of the reader has the year of what was read.
* `Document.lastOf_instant`, `Document.onlyOf_instant` — a time that may be missing is read back.
-/

namespace FleetLabels

theorem Text.isBlank_of_isDigit {c : Char} (h : c.isDigit = true) : Text.isBlank c = false := by
  simp only [Char.isDigit, Bool.and_eq_true, decide_eq_true_eq, ge_iff_le,
    UInt32.le_iff_toNat_le] at h
  have hlow : 48 ≤ c.toNat := h.1
  have hhigh : c.toNat ≤ 57 := h.2
  simp only [Text.isBlank, Bool.or_eq_false_iff, Bool.and_eq_false_iff, decide_eq_false_iff_not]
  omega

namespace Instant

/-! ## Parts of a time -/

/-- A number is not taken for white space. -/
theorem trimLeft_padded (width n : Nat) (rest : List Char) :
    Text.trimLeft (padded width n ++ rest) = padded width n ++ rest := by
  cases hds : padded width n with
  | nil => exact absurd hds (padded_ne_nil width n)
  | cons d ds =>
      have hd : d.isDigit = true := isDigit_of_mem_padded (hds ▸ List.mem_cons_self)
      exact Text.trimLeft_of_head _ (Text.isBlank_of_isDigit hd)

theorem mark_cons {c : Char} (rest : List Char) (hc : Text.isBlank c = false) :
    mark c (c :: rest) = .ok rest := by
  rw [mark, Text.trimLeft_of_head rest hc]
  exact if_pos rfl

theorem field_padded {low high n : Nat} (hlow : low ≤ n) (hhigh : n ≤ high) (hn : n < 100)
    (rest : List Char) : field low high (padded 2 n ++ rest) = .ok (n, rest) := by
  rw [field, trimLeft_padded, number_padded (by decide) hn]
  exact if_pos ⟨hlow, hhigh⟩

/-- The text of a year is not taken for white space. -/
theorem trimLeft_yearText (y : Int) (rest : List Char) :
    Text.trimLeft (yearText y ++ rest) = yearText y ++ rest := by
  unfold yearText
  split
  · exact Text.trimLeft_of_head _ (by decide)
  · split
    · exact trimLeft_padded 4 _ rest
    · exact Text.trimLeft_of_head _ (by decide)

/-- A number without a sign is read up to the fourth digit. -/
theorem signedNumber_of_isDigit {d : Char} (cs : List Char) (hd : d.isDigit = true) :
    signedNumber (d :: cs) = (number 4 (d :: cs)).map fun r => ((r.1 : Int), r.2) := by
  unfold signedNumber
  split
  next heq =>
    rw [(List.cons.inj heq).1] at hd
    exact absurd hd (by decide)
  next heq =>
    rw [(List.cons.inj heq).1] at hd
    exact absurd hd (by decide)
  next =>
    cases number 4 (d :: cs) with
    | error e => rfl
    | ok r => rfl

theorem signedNumber_yearText (y : Int) {rest : List Char} (hrest : NoDigitAhead rest) :
    signedNumber (yearText y ++ rest) = .ok (y, rest) := by
  unfold yearText
  split
  · -- before year zero
    have habs : -(y.natAbs : Int) = y := by omega
    simp only [List.cons_append, signedNumber, number_padded_all hrest, bind, Except.bind, habs]
  · have habs : (y.natAbs : Int) = y := by omega
    split
    · -- four digits and no sign
      have hsmall : y.natAbs < 10000 := by omega
      have hnumber : number 4 (padded 4 y.natAbs ++ rest) = .ok (y.natAbs, rest) :=
        number_padded (by decide) hsmall rest
      cases hds : padded 4 y.natAbs with
      | nil => exact absurd hds (padded_ne_nil 4 _)
      | cons d ds =>
          have hd : d.isDigit = true := isDigit_of_mem_padded (hds ▸ List.mem_cons_self)
          rw [hds, List.cons_append] at hnumber
          rw [List.cons_append, signedNumber_of_isDigit _ hd, hnumber]
          simp only [Except.map, habs]
    · -- a sign and all digits that follow
      simp only [List.cons_append, signedNumber, number_padded_all hrest, bind, Except.bind, habs]

/-- A year is read back up to the first character that is no digit. -/
theorem year_yearText {y : Int} (hlow : -yearWidth ≤ y) (hhigh : y < yearWidth) {rest : List Char}
    (hrest : NoDigitAhead rest) : year (yearText y ++ rest) = .ok (y, rest) := by
  rw [year, trimLeft_yearText, signedNumber_yearText y hrest]
  exact if_pos ⟨hlow, hhigh⟩

/-! ## The text of an instant -/

theorem wholeSecond_wholeSecond (t : Instant) : t.wholeSecond.wholeSecond = t.wholeSecond := rfl

theorem text_wholeSecond (t : Instant) : t.wholeSecond.text = t.text := rfl

theorem isInRange_wholeSecond (t : Instant) : t.wholeSecond.isInRange = t.isInRange := rfl

theorem map_wholeSecond {o : Option Instant} (h : ∀ t ∈ o, t.wholeSecond = t) :
    o.map wholeSecond = o := by
  cases o with
  | none => rfl
  | some t => rw [Option.map_some, h t rfl]

theorem isInRange_iff (t : Instant) :
    t.isInRange = true ↔ yearRange.1 ≤ t.date.year ∧ t.date.year ≤ yearRange.2 := by
  simp [isInRange]

/-- A date consists of its numbers. -/
theorem of?_date (d : Date) : Date.of? d.year d.month d.day = some d := by
  rw [Date.of?, dif_pos d.month_valid, dif_pos d.day_valid]

/-- At the meridian, clocks show universal time. -/
theorem ofLocal_zero (t : Instant) :
    ofLocal t.date (t.hour * 60 + t.minute : Nat) t.second (nanosOf 0) 0 = t.wholeSecond := by
  have hhour := t.hour.isLt
  have hminute := t.minute.isLt
  rw [ofLocal]
  simp only [Int.sub_zero, minutesPerDay]
  rw [if_neg (by omega), if_neg (by omega), atMinute]
  have hdiv : ((t.hour * 60 + t.minute : Nat) : Int) / 60 = (t.hour : Nat) := by omega
  have hmod : ((t.hour * 60 + t.minute : Nat) : Int) % 60 = (t.minute : Nat) := by omega
  rw [hdiv, hmod]
  simp [wholeSecond]

theorem ofNumbers_eq {t : Instant} (h : t.isInRange = true) :
    ofNumbers t.date.year t.date.month t.date.day t.hour t.minute t.second 0 0 =
      .ok t.wholeSecond := by
  have hyear := (isInRange_iff t).1 h
  have hsecond : secondOf (t.second : Nat) = t.second := Fin.ofNat_val_eq_self _
  rw [ofNumbers, of?_date]
  simp only [hsecond, ofLocal_zero, isInRange_wholeSecond, h]
  rw [if_pos ⟨hyear.1, hyear.2, by decide, by decide⟩]
  rfl

/-- **The text of an instant denotes it**, up to fractions of a second. -/
theorem parse_text {t : Instant} (h : t.isInRange = true) : parse t.text = .ok t.wholeSecond := by
  have hyear := (isInRange_iff t).1 h
  simp only [yearRange] at hyear
  have hmonth := t.date.month_valid
  have hday := t.date.day_valid
  have hlast := daysInMonth_le t.date.year t.date.month
  have hhour := t.hour.isLt
  have hminute := t.minute.isLt
  have hsecond := t.second.isLt
  have hdash (rest : List Char) : mark '-' ('-' :: rest) = .ok rest := mark_cons rest (by decide)
  have hcolon (rest : List Char) : mark ':' (':' :: rest) = .ok rest := mark_cons rest (by decide)
  have hy (rest : List Char) :
      year (yearText t.date.year ++ '-' :: rest) = .ok (t.date.year, '-' :: rest) :=
    year_yearText (by simp only [yearWidth]; omega) (by simp only [yearWidth]; omega)
      (noDigitAhead_cons (by decide))
  simp only [parse, text, String.toList_ofList, read, List.append_assoc, List.cons_append,
    List.nil_append]
  simp (disch := omega) only [hy, hdash, hcolon, field_padded, separator, bind, Except.bind,
    true_or, if_true]
  exact ofNumbers_eq h

/-! ## Instants that were read -/

theorem gives_ofNumbers (year : Int) (month day hour minute second nanos : Nat) (offset : Int) :
    Gives (fun t => t.isInRange = true)
      (ofNumbers year month day hour minute second nanos offset) := by
  unfold ofNumbers
  cases Date.of? year month day with
  | none => exact gives_error _
  | some date =>
      simp only
      split
      · split
        next h => exact gives_ok h
        next => exact gives_error _
      · exact gives_error _

/-- The calendar of the reader has the year of every instant that it gives. -/
theorem gives_parse (s : String) : Gives (fun t => t.isInRange = true) (parse s) := by
  unfold parse read
  -- one after the other: year, month, day, hour, minute, second, fraction and offset
  refine gives_of_bind fun _ => gives_of_bind fun _ => gives_of_bind fun _ => gives_of_bind fun _ =>
    gives_of_bind fun _ => gives_of_bind fun _ => gives_of_bind fun _ => gives_of_bind fun _ =>
    gives_of_bind fun _ => gives_of_bind fun _ => gives_of_bind fun _ => gives_of_bind fun _ =>
    gives_of_bind fun _ => ?_
  simp only
  split
  · apply gives_ofNumbers
  · exact gives_error _

end Instant

/-! ## Times as fields -/

namespace Document

theorem reads_instant {t : Instant} (h : t.isInRange = true) :
    Reads instant (.string t.text) t.wholeSecond := by
  constructor
  · rw [instant, Instant.parse_text h]
    rfl
  · intro hnull
    cases hnull

theorem lastOf_instant {o : Option Instant} (h : ∀ t ∈ o, t.isInRange = true) :
    lastOf instant (o.map (.string ·.text)).toList = .ok (o.map Instant.wholeSecond) :=
  lastOf_entry fun t ht => reads_instant (h t ht)

theorem onlyOf_instant {key : String} {o : Option Instant} (h : ∀ t ∈ o, t.isInRange = true) :
    Option.join <$> onlyOf key (nullable instant) (o.map (.string ·.text)).toList =
      .ok (o.map Instant.wholeSecond) :=
  onlyOf_entry fun t ht => reads_instant (h t ht)

/-- Fractions of a second are not written. -/
theorem entry_wholeSecond (key : String) (o : Option Instant) :
    entry key (.string ·.text) (o.map Instant.wholeSecond) = entry key (.string ·.text) o := by
  cases o with
  | none => rfl
  | some t => simp only [entry, Option.map_some, Instant.text_wholeSecond]

theorem gives_instant (j : Json) : Gives (fun t => t.isInRange = true) (instant j) := by
  cases j with
  | string s =>
      intro t ht
      rw [instant] at ht
      cases hparse : Instant.parse s with
      | error e =>
          rw [hparse] at ht
          cases ht
      | ok u =>
          rw [hparse] at ht
          exact Except.ok.inj ht ▸ Instant.gives_parse s u hparse
  | _ => exact gives_error _

end Document

end FleetLabels
