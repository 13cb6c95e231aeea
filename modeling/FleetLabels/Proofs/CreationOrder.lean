import FleetLabels.Proofs.InMemory
import FleetLabels.Proofs.Precedence

/-!
# Nodes in the order of their creation

A selection is cut from a sorted list, and a sort can be relied on only if what it compares by is an
order. The comparisons of the two strategies by time are put together from two others: the times of
creation, one of which may be missing, and then the names. The one strategy turns the times around
and leaves the names as they are.

The times are themselves compared by several parts, and one of these has an irregularity. A minute
may have a second numbered 60, which begins when second 59 with all of its fractions is over, and is
over when the next minute begins, be it in the next hour, on the next day or in the next year. The
order of instants goes by a single number, `Instant.rank`; this module says that it is the order in
which calendar and clock go forward.

## Main results

* `Instant.rank_lt_iff` — earlier instants are those with the smaller reading.
* `Instant.rank_lt_nextMinute` — all of a minute, with its leap second, is before the next one.
* `TotalUpTo` — what is asked of a comparison.
* `creation_orders_total` — the comparisons of both strategies are orders of all nodes.
-/

namespace FleetLabels

/-! ## The order of time -/

/-- Numbers of two digits are compared by the first one, and by the second one if that is the same. -/
private theorem digits_lt_iff {base q q' r r' : Int} (hr : 0 ≤ r ∧ r < base)
    (hr' : 0 ≤ r' ∧ r' < base) : q * base + r < q' * base + r' ↔ q < q' ∨ q = q' ∧ r < r' := by
  have hstep : ∀ {p p' : Int}, p < p' → p * base + base ≤ p' * base := by
    intro p p' hlt
    have hmul : (p + 1) * base ≤ p' * base :=
      Int.mul_le_mul_of_nonneg_right (Int.add_one_le_of_lt hlt) (by omega)
    rwa [Int.add_mul, Int.one_mul] at hmul
  rcases Int.lt_trichotomy q q' with hlt | rfl | hgt
  · have := hstep hlt
    exact iff_of_true (by omega) (.inl hlt)
  · constructor
    · intro h
      exact .inr ⟨rfl, by omega⟩
    · rintro (h | ⟨-, h⟩) <;> omega
  · have := hstep hgt
    refine iff_of_false (by omega) ?_
    rintro (h | ⟨h, -⟩) <;> omega

theorem Date.rank_lt_next (d : Date) : d.rank < d.next.rank := by
  have hday := d.day_valid
  have hdays := daysInMonth_le d.year d.month
  have hmonth := d.month_valid
  unfold next
  split
  · simp only [rank]
    omega
  · split <;> simp only [rank] <;> omega

namespace Instant

/-- What calendar and clock show at an instant, most significant first. -/
def reading (t : Instant) : List Int :=
  [t.date.year, t.date.month, t.date.day, (t.hour : Nat), (t.minute : Nat), (t.second : Nat),
    (t.nanos : Nat)]

/-- The rank of an instant, told from its most significant part on. -/
private theorem rank_eq (t : Instant) :
    t.rank = t.date.year * (12 * 31 * 24 * 60 * 61 * 1000000000) +
      ((t.date.month - 1) * (31 * 24 * 60 * 61 * 1000000000) +
      ((t.date.day - 1) * (24 * 60 * 61 * 1000000000) +
      ((t.hour : Nat) * (60 * 61 * 1000000000) +
      ((t.minute : Nat) * (61 * 1000000000) +
      ((t.second : Nat) * 1000000000 + (t.nanos : Nat)))))) := by
  unfold rank Date.rank
  omega

/-- The rank of an instant puts its reading into one number. -/
theorem rank_lt_iff {t u : Instant} : t.rank < u.rank ↔ t.reading < u.reading := by
  have hday := t.date.day_valid
  have hdays := daysInMonth_le t.date.year t.date.month
  have hmonth := t.date.month_valid
  have hday' := u.date.day_valid
  have hdays' := daysInMonth_le u.date.year u.date.month
  have hmonth' := u.date.month_valid
  rw [rank_eq, rank_eq]
  simp (disch := omega) only [digits_lt_iff]
  simp only [reading, List.cons_lt_cons_iff, List.lt_irrefl, and_false, or_false,
    Int.sub_lt_sub_right_iff, Int.sub_left_inj]

/-- The instant at which the next minute begins. -/
def nextMinute (t : Instant) : Instant :=
  let minute : Int := (t.hour : Nat) * 60 + (t.minute : Nat) + 1
  if minute < minutesPerDay then atMinute t.date minute (secondOf 0) (nanosOf 0)
  else atMinute t.date.next 0 (secondOf 0) (nanosOf 0)

theorem rank_atMinute (date : Date) {minute : Int} (h : 0 ≤ minute ∧ minute < minutesPerDay)
    (second : Fin 61) (nanos : Fin 1000000000) :
    (atMinute date minute second nanos).rank =
      ((date.rank * 1440 + minute) * 61 + (second : Nat)) * 1000000000 + (nanos : Nat) := by
  unfold minutesPerDay at h
  simp only [rank, atMinute, Fin.ofNat]
  omega

/-- A minute is over, with whatever seconds it has, when the next one begins. -/
theorem rank_lt_nextMinute (t : Instant) : t.rank < t.nextMinute.rank := by
  have hnext := t.date.rank_lt_next
  unfold nextMinute
  dsimp only
  split
  next h =>
    rw [rank_atMinute t.date ⟨by omega, h⟩]
    simp only [rank, secondOf, nanosOf, Fin.ofNat]
    omega
  next =>
    rw [rank_atMinute t.date.next ⟨by decide, by decide⟩]
    simp only [rank, secondOf, nanosOf, Fin.ofNat]
    omega

end Instant

/-! ## Orders -/

/-- A comparison puts all items in an order, up to those that have the same key. -/
structure TotalUpTo {α κ : Type} (cmp : α → α → Ordering) (key : α → κ) : Prop where
  refl : ∀ a, cmp a a = .eq
  swap : ∀ a b, cmp a b = (cmp b a).swap
  trans : ∀ a b c o, cmp a b = o → cmp b c = o → cmp a c = o
  isLE_trans : ∀ a b c, (cmp a b).isLE = true → (cmp b c).isLE = true → (cmp a c).isLE = true
  eq_iff : ∀ a b, cmp a b = .eq ↔ key a = key b

theorem TotalUpTo.of_transCmp {α κ : Type} {cmp : α → α → Ordering} {key : α → κ}
    [Std.TransCmp cmp] (heq : ∀ a b, cmp a b = .eq ↔ key a = key b) : TotalUpTo cmp key where
  refl _ := Std.ReflCmp.compare_self
  swap _ _ := Std.OrientedCmp.eq_swap
  trans a b c o hab hbc := by
    cases o with
    | lt => exact Std.TransCmp.lt_trans hab hbc
    | eq => exact Std.TransCmp.eq_trans hab hbc
    | gt => exact Std.TransCmp.gt_trans hab hbc
  isLE_trans _ _ _ := Std.TransCmp.isLE_trans
  eq_iff := heq

namespace Node

variable {a b : Node}

/-- Where the times decide, one strategy by time has the order of the other reversed. -/
theorem orders_of_createdBefore (h : a.CreatedBefore b) :
    a.oldestFirst b = .lt ∧ a.newestFirst b = .gt := by
  have holdest : Strategy.oldest.compare a b = .lt := Strategy.compare_eq_lt_iff.2 (.inl h)
  have hreversed : Strategy.newest.compare b a = .lt := Strategy.compare_eq_lt_iff.2 (.inl h)
  have hnewest : Strategy.newest.compare a b = .gt := Std.OrientedCmp.gt_of_lt hreversed
  exact ⟨holdest, hnewest⟩

theorem createdBefore_iff {u : Instant} (hb : b.created? = some u) :
    a.CreatedBefore b ↔
      a.created? = none ∨ ∃ t, a.created? = some t ∧ t.reading < u.reading := by
  unfold CreatedBefore
  rw [hb]
  cases a.created? with
  | none => simp
  | some t => simp [Instant.rank_lt_iff]

end Node

/-- **The orders of a selection.** The comparisons of both strategies by time are orders of all nodes,
in which two nodes are equal exactly if their names are the same and their times of creation, or
both of these are missing. The names decide only between equal times: a node with an earlier time,
or with none, is before all later ones to the one strategy and behind them to the other. A leap
second is later than every part of the second before it, and earlier than the next minute. -/
theorem creation_orders_total :
    TotalUpTo Node.oldestFirst Node.standing ∧ TotalUpTo Node.newestFirst Node.standing ∧
    (∀ (a b : Node) (u : Instant), b.created? = some u →
      (a.created? = none ∨ ∃ t, a.created? = some t ∧ t.reading < u.reading) →
        a.oldestFirst b = .lt ∧ a.newestFirst b = .gt) ∧
    ∀ (date : Date) (hour : Fin 24) (minute : Fin 60) (nanos nanos' : Fin 1000000000),
      let last : Instant := ⟨date, hour, minute, Instant.secondOf 59, nanos⟩
      let leap : Instant := ⟨date, hour, minute, Instant.secondOf 60, nanos'⟩
      last.reading < leap.reading ∧ leap.reading < leap.nextMinute.reading := by
  refine ⟨?oldest, ?newest, ?times, ?leap⟩
  case oldest =>
    have horder : TotalUpTo Strategy.oldest.compare Node.standing :=
      .of_transCmp fun a b => Strategy.compare_eq_eq_iff (by decide)
    exact horder
  case newest =>
    have horder : TotalUpTo Strategy.newest.compare Node.standing :=
      .of_transCmp fun a b => Strategy.compare_eq_eq_iff (by decide)
    exact horder
  case times =>
    exact fun a b u hb h => Node.orders_of_createdBefore ((Node.createdBefore_iff hb).2 h)
  case leap =>
    intro date hour minute nanos nanos' last leap
    have hlast : last.rank < leap.rank := by
      simp only [last, leap, Instant.rank, Instant.secondOf, Fin.ofNat]
      omega
    exact ⟨Instant.rank_lt_iff.1 hlast, Instant.rank_lt_iff.1 leap.rank_lt_nextMinute⟩

/-- A node with nothing but a name and a time of creation, if it has one. -/
def Node.createdAt (name : String) (time : Option Instant) : Node where
  metadata := { name := some name, creationTimestamp := time }

/-- An instant of the last minute of a month. -/
def inLastMinute (second nanos : Nat) : Instant :=
  .atMinute PassSettings.plain.now.date.previous 1439 (Instant.secondOf second)
    (Instant.nanosOf nanos)

/-- The last part of second 59, the leap second, and the beginning of the next month come in this
order, against the names of the nodes. -/
theorem creation_orders_total_turnOfMonth :
    let unknown := Node.createdAt "d" none
    let ordinary := Node.createdAt "c" (some (inLastMinute 59 999999999))
    let leap := Node.createdAt "b" (some (inLastMinute 60 500000000))
    let next := Node.createdAt "a" (some (.atMinute PassSettings.plain.now.date 0
      (Instant.secondOf 0) (Instant.nanosOf 0)))
    unknown.oldestFirst ordinary = .lt ∧ ordinary.oldestFirst leap = .lt ∧
      leap.oldestFirst next = .lt ∧ ordinary.oldestFirst next = .lt ∧
      ordinary.newestFirst leap = .gt ∧ leap.newestFirst leap = .eq := by
  intro unknown ordinary leap next
  obtain ⟨holdest, hnewest, htimes, hleap⟩ := creation_orders_total
  obtain ⟨hlast, hnext⟩ := hleap (inLastMinute 0 0).date (inLastMinute 0 0).hour
    (inLastMinute 0 0).minute (Instant.nanosOf 999999999) (Instant.nanosOf 500000000)
  have hbegins : next.created? = some (inLastMinute 60 500000000).nextMinute := by decide +kernel
  have hunknown := htimes unknown ordinary _ rfl (.inl rfl)
  have hsecond := htimes ordinary leap _ rfl (.inr ⟨_, rfl, hlast⟩)
  have hmonth := htimes leap next _ hbegins (.inr ⟨_, rfl, hnext⟩)
  exact ⟨hunknown.1, hsecond.1, hmonth.1, holdest.trans _ _ _ .lt hsecond.1 hmonth.1, hsecond.2,
    hnewest.refl leap⟩

end FleetLabels
