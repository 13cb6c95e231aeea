/-!
# Instants of civil time

A moment of Coordinated Universal Time as a calendar date with a time of day down to the nanosecond.
A minute may have a second numbered 60, a leap second: it comes after every fraction of second 59
and before the next minute. Dates are those of the Gregorian calendar, extended to all years.

The order of instants is the order of their fields, most significant first; `Instant.rank` puts
them into one integer.
-/

namespace FleetLabels

/-! ## Dates -/

/-- Whether a year has a 29th of February. -/
def isLeapYear (year : Int) : Bool :=
  year % 4 == 0 && (year % 100 != 0 || year % 400 == 0)

/-- The number of days of a month. -/
def daysInMonth (year : Int) : Nat → Nat
  | 2 => if isLeapYear year then 29 else 28
  | 4 | 6 | 9 | 11 => 30
  | _ => 31

theorem daysInMonth_pos (year : Int) (month : Nat) : 1 ≤ daysInMonth year month := by
  unfold daysInMonth
  split <;> (try split) <;> omega

theorem daysInMonth_le (year : Int) (month : Nat) : daysInMonth year month ≤ 31 := by
  unfold daysInMonth
  split <;> (try split) <;> omega

/-- A date of the calendar: months count from one to twelve, days from one. -/
structure Date where
  year : Int
  month : Nat
  day : Nat
  month_valid : 1 ≤ month ∧ month ≤ 12
  day_valid : 1 ≤ day ∧ day ≤ daysInMonth year month
  deriving DecidableEq

namespace Date

instance : Repr Date where
  reprPrec d _ := repr (d.year, d.month, d.day)

/-- The date with the given numbers, if the calendar has it. -/
def of? (year : Int) (month day : Nat) : Option Date :=
  if hm : 1 ≤ month ∧ month ≤ 12 then
    if hd : 1 ≤ day ∧ day ≤ daysInMonth year month then some ⟨year, month, day, hm, hd⟩ else none
  else none

/-- The day after. -/
def next (d : Date) : Date :=
  if hd : d.day < daysInMonth d.year d.month then
    ⟨d.year, d.month, d.day + 1, d.month_valid, by omega⟩
  else if hm : d.month < 12 then
    ⟨d.year, d.month + 1, 1, by omega, Nat.le_refl _, daysInMonth_pos ..⟩
  else ⟨d.year + 1, 1, 1, by omega, Nat.le_refl _, daysInMonth_pos ..⟩

/-- The day before. -/
def previous (d : Date) : Date :=
  if hd : 1 < d.day then
    ⟨d.year, d.month, d.day - 1, d.month_valid, by have := d.day_valid; omega⟩
  else if hm : 1 < d.month then
    ⟨d.year, d.month - 1, daysInMonth d.year (d.month - 1), by have := d.month_valid; omega,
      daysInMonth_pos .., Nat.le_refl _⟩
  else ⟨d.year - 1, 12, 31, by omega, by simp [daysInMonth]⟩

/-- The place of a date among all dates; the calendar's gaps are left free. -/
def rank (d : Date) : Int :=
  (d.year * 12 + ((d.month : Int) - 1)) * 31 + ((d.day : Int) - 1)

theorem rank_injective {a b : Date} (h : a.rank = b.rank) : a = b := by
  obtain ⟨ya, ma, da, hma, hda⟩ := a
  obtain ⟨yb, mb, db, hmb, hdb⟩ := b
  have hla := daysInMonth_le ya ma
  have hlb := daysInMonth_le yb mb
  simp only [rank] at h
  obtain rfl : ya = yb := by omega
  obtain rfl : ma = mb := by omega
  obtain rfl : da = db := by omega
  rfl

end Date

/-! ## Instants -/

/-- A moment of Coordinated Universal Time. -/
structure Instant where
  date : Date
  hour : Fin 24
  minute : Fin 60
  second : Fin 61
  nanos : Fin 1000000000
  deriving DecidableEq, Repr

namespace Instant

/-- The place of an instant among all instants. -/
def rank (t : Instant) : Int :=
  (((t.date.rank * 24 + (t.hour : Nat)) * 60 + (t.minute : Nat)) * 61 + (t.second : Nat)) *
    1000000000 + (t.nanos : Nat)

theorem rank_injective {a b : Instant} (h : a.rank = b.rank) : a = b := by
  obtain ⟨da, ha, ma, sa, na⟩ := a
  obtain ⟨db, hb, mb, sb, nb⟩ := b
  simp only [rank] at h
  obtain rfl : da = db := Date.rank_injective (by omega)
  obtain rfl : ha = hb := Fin.ext (by omega)
  obtain rfl : ma = mb := Fin.ext (by omega)
  obtain rfl : sa = sb := Fin.ext (by omega)
  obtain rfl : na = nb := Fin.ext (by omega)
  rfl

/-- Earlier instants are smaller. -/
instance : Ord Instant where
  compare a b := compare a.rank b.rank

/-- A number as a second of a minute. -/
def secondOf (n : Nat) : Fin 61 := Fin.ofNat 61 n

/-- A number as the nanoseconds of a second. -/
def nanosOf (n : Nat) : Fin 1000000000 := Fin.ofNat 1000000000 n

/-- An instant without its fraction of a second. -/
def wholeSecond (t : Instant) : Instant :=
  { t with nanos := nanosOf 0 }

/-- The minutes of a day. -/
def minutesPerDay : Int := 1440

/-- The instant at a minute of a day, counted from midnight. -/
def atMinute (date : Date) (minute : Int) (second : Fin 61) (nanos : Fin 1000000000) : Instant :=
  ⟨date, Fin.ofNat 24 (minute / 60).toNat, Fin.ofNat 60 (minute % 60).toNat, second, nanos⟩

/-- The instant at which clocks `offset` minutes ahead of universal time show a date and a minute of
the day. The offset is shorter than a day, so that the date moves by one day at most. -/
def ofLocal (date : Date) (minute : Int) (second : Fin 61) (nanos : Fin 1000000000)
    (offset : Int) : Instant :=
  let m := minute - offset
  if m < 0 then atMinute date.previous (m + minutesPerDay) second nanos
  else if minutesPerDay ≤ m then atMinute date.next (m - minutesPerDay) second nanos
  else atMinute date m second nanos

end Instant

end FleetLabels
