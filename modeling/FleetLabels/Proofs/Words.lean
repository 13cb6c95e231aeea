import FleetLabels.Selection.Generator
import Mathlib.Algebra.BigOperators.Group.Finset.Basic
import Mathlib.Algebra.Order.Floor.Div
import Mathlib.Data.Fintype.BigOperators
import Mathlib.Order.Interval.Finset.Nat

/-!
# Words and the indices they give

A word of 32 bits is scaled to the range of an index. The upper half of the product is the index,
and the word is rejected if the lower half is too high. What is accepted below each index is as long
an interval as the largest power of two by which the range can be multiplied without leaving the
words; so the words that give an index are consecutive, and they are equally many for every index.

The definitions count without bounds. In the arithmetic of machine words, where products have 64
bits and shifts drop what leaves a word, the same words give the same indices, since nothing ever
overflows.

## Main results

* `acceptBits_eq` — the draw of an index in machine words.
* `accept_eq_some_iff` — the words that give an index are those of an interval.
* `card_accept_some`, `card_accept_none` — how many words give an index, and how many give none.
-/

namespace FleetLabels

namespace Generator

/-! ## Machine words -/

/-- All digits of a range may be moved to the front. -/
theorem two_pow_leadingZeros_mul_lt {range : Nat} (hpos : 0 < range) (hrange : range < 2 ^ 32) :
    2 ^ leadingZeros range * range < 2 ^ 32 := by
  have hlog : range.log2 < 32 := (Nat.log2_lt hpos.ne').2 hrange
  calc 2 ^ leadingZeros range * range
      < 2 ^ leadingZeros range * 2 ^ (range.log2 + 1) :=
        Nat.mul_lt_mul_of_pos_left Nat.lt_log2_self (Nat.two_pow_pos _)
    _ = 2 ^ 32 := by
        rw [← Nat.pow_add, leadingZeros]
        congr 1
        omega

/-- The index that a word gives, in the arithmetic of machine words. -/
def acceptBits (range word : BitVec 32) : Option (BitVec 32) :=
  let product := word.setWidth 64 * range.setWidth 64
  if product.setWidth 32 ≤ (range <<< range.clz) - 1 then some ((product >>> 32).setWidth 32)
  else none

theorem toNat_wideProduct (word range : BitVec 32) :
    (word.setWidth 64 * range.setWidth 64).toNat = word.toNat * range.toNat := by
  have hmul : word.toNat * range.toNat < 2 ^ 32 * 2 ^ 32 := Nat.mul_lt_mul'' word.isLt range.isLt
  rw [BitVec.toNat_mul, BitVec.toNat_setWidth_of_le (by decide),
    BitVec.toNat_setWidth_of_le (by decide)]
  exact Nat.mod_eq_of_lt hmul

section Range

variable {range : BitVec 32} (hne : range ≠ 0#32)

include hne

theorem leadingZeros_eq_clz : leadingZeros range.toNat = range.clz.toNat := by
  have hzeros : range.clz.toNat < 32 := BitVec.clz_lt_iff_ne_zero.2 hne
  have hupper : range.toNat < 2 ^ (31 - range.clz.toNat + 1) := by
    rw [show 31 - range.clz.toNat + 1 = 32 - range.clz.toNat by omega]
    exact BitVec.toNat_lt_two_pow_sub_clz
  have hlog : range.toNat.log2 = 31 - range.clz.toNat :=
    (Nat.log2_eq_iff (BitVec.toNat_pos_of_ne_zero hne).ne').2
      ⟨BitVec.two_pow_sub_clz_le_toNat_of_ne_zero (by decide) hne, hupper⟩
  rw [leadingZeros, hlog]
  omega

theorem toNat_zone : (range <<< range.clz - 1).toNat = zone range.toNat := by
  have hpos : 0 < range.toNat := BitVec.toNat_pos_of_ne_zero hne
  have hshift : (range <<< range.clz).toNat = 2 ^ leadingZeros range.toNat * range.toNat := by
    rw [BitVec.shiftLeft_eq', BitVec.toNat_shiftLeft, ← leadingZeros_eq_clz hne,
      Nat.shiftLeft_eq, Nat.mul_comm]
    exact Nat.mod_eq_of_lt (two_pow_leadingZeros_mul_lt hpos range.isLt)
  have hone : (1 : BitVec 32) ≤ range <<< range.clz := by
    rw [BitVec.le_def, hshift]
    exact Nat.mul_pos (Nat.two_pow_pos _) hpos
  rw [BitVec.toNat_sub_of_le hone, hshift, zone, Nat.pow_eq, Nat.mul_comm]
  rfl

end Range

/-- The numbers whose multiples reach `start` begin at one number, and those whose multiples reach
`spread` multiples further begin `spread` numbers later. -/
theorem lt_ceilDiv_add_iff {range : Nat} (hpos : 0 < range) (start spread w : Nat) :
    w < start ⌈/⌉ range + spread ↔ w * range < start + spread * range := by
  by_cases hw : w < spread
  · have hlow : w * range < spread * range := Nat.mul_lt_mul_of_pos_right hw hpos
    omega
  · have hshift : start ⌈/⌉ range ≤ w - spread ↔ start ≤ range * (w - spread) :=
      ceilDiv_le_iff_le_mul hpos
    have hhigh : spread * range ≤ w * range := Nat.mul_le_mul_right _ (Nat.le_of_not_lt hw)
    rw [Nat.mul_comm, Nat.sub_mul] at hshift
    omega

section Counting

variable {n : Nat} (hn : n + 1 < 2 ^ 32)

include hn

theorem toNat_range : (BitVec.ofNat 32 (n + 1)).toNat = n + 1 :=
  Nat.mod_eq_of_lt hn

theorem range_ne_zero : BitVec.ofNat 32 (n + 1) ≠ 0#32 := fun h => by
  have hrange := toNat_range hn
  rw [h] at hrange
  cases hrange

theorem leadingZeros_range :
    leadingZeros (n + 1) = (BitVec.ofNat 32 (n + 1)).clz.toNat := by
  rw [← leadingZeros_eq_clz (range_ne_zero hn), toNat_range hn]

/-- Nothing overflows where words of a machine are used. -/
theorem acceptBits_eq (word : Word) :
    acceptBits (BitVec.ofNat 32 (n + 1)) (BitVec.ofNat 32 word) =
      (accept n word).map fun j => BitVec.ofNat 32 j := by
  have hword : (BitVec.ofNat 32 word).toNat = word := Nat.mod_eq_of_lt word.isLt
  unfold acceptBits accept
  simp only [BitVec.le_def, toNat_zone (range_ne_zero hn), BitVec.toNat_setWidth,
    toNat_wideProduct, toNat_range hn, hword]
  split
  case isTrue =>
    refine congrArg some (BitVec.eq_of_toNat_eq ?_)
    rw [BitVec.toNat_setWidth, BitVec.toNat_ushiftRight, toNat_wideProduct, toNat_range hn, hword,
      Nat.shiftRight_eq_div_pow]
    rfl
  case isFalse => rfl

/-! ## Intervals of words -/

theorem accept_eq_some_iff {word : Word} {j : Fin (n + 1)} :
    accept n word = some j ↔ j.val * 2 ^ 32 ≤ word.val * (n + 1) ∧
      word.val * (n + 1) < j.val * 2 ^ 32 + 2 ^ leadingZeros (n + 1) * (n + 1) := by
  have hfits : 2 ^ leadingZeros (n + 1) * (n + 1) < 2 ^ 32 :=
    two_pow_leadingZeros_mul_lt (Nat.succ_pos n) hn
  have hpos : 0 < 2 ^ leadingZeros (n + 1) * (n + 1) :=
    Nat.mul_pos (Nat.two_pow_pos _) (Nat.succ_pos n)
  unfold accept zone
  rw [Nat.pow_eq, Nat.mul_comm (n + 1)]
  dsimp only
  split
  case isTrue haccepted =>
    rw [Option.some.injEq, Fin.ext_iff]
    show word.val * (n + 1) / 2 ^ 32 = j.val ↔ _
    omega
  case isFalse hrejected =>
    refine iff_of_false (nomatch ·) ?_
    omega

/-- Every index is given by equally many words. -/
theorem card_accept_some (j : Fin (n + 1)) :
    (Finset.univ.filter fun word => accept n word = some j).card =
      2 ^ leadingZeros (n + 1) := by
  have hpos : 0 < n + 1 := Nat.succ_pos n
  -- The words begin at the first one whose multiple reaches the interval of the index.
  let first := (j.val * 2 ^ 32) ⌈/⌉ (n + 1)
  let spread := 2 ^ leadingZeros (n + 1)
  have hend : ∀ w, w < first + spread ↔ w * (n + 1) < j.val * 2 ^ 32 + spread * (n + 1) :=
    lt_ceilDiv_add_iff hpos _ _
  have hbegin : ∀ w, first ≤ w ↔ j.val * 2 ^ 32 ≤ w * (n + 1) := fun w => by
    rw [Nat.mul_comm w]
    exact ceilDiv_le_iff_le_mul hpos
  have hwords : first + spread ≤ 2 ^ 32 := by
    have hfits : spread * (n + 1) < 2 ^ 32 := two_pow_leadingZeros_mul_lt hpos hn
    have hindex := j.isLt
    refine Nat.le_of_not_lt fun hbeyond => ?_
    have hlow := (hend (2 ^ 32)).1 hbeyond
    omega
  have hinterval : (Finset.univ.filter fun word => accept n word = some j).map Fin.valEmbedding =
      Finset.Ico first (first + spread) := by
    ext w
    simp only [Finset.mem_map, Finset.mem_filter, Finset.mem_univ, true_and,
      accept_eq_some_iff hn, Finset.mem_Ico, hbegin, hend]
    constructor
    · rintro ⟨word, hword, rfl⟩
      exact hword
    · intro hw
      have hlt : w < first + spread := (hend w).2 hw.2
      exact ⟨⟨w, hlt.trans_le hwords⟩, hw, rfl⟩
  rw [← Finset.card_map Fin.valEmbedding, hinterval, Nat.card_Ico, Nat.add_sub_cancel_left]

/-- The words that are left over give no index. -/
theorem card_accept_none :
    (Finset.univ.filter fun word => accept n word = none).card =
      2 ^ 32 - 2 ^ leadingZeros (n + 1) * (n + 1) := by
  have htotal : 2 ^ 32 = ∑ outcome : Option (Fin (n + 1)),
      (Finset.univ.filter fun word : Word => accept n word = outcome).card := by
    rw [← Finset.card_eq_sum_card_fiberwise fun _ _ => Finset.mem_univ _]
    exact (Finset.card_fin 4294967296).symm
  rw [Fintype.sum_option] at htotal
  simp only [card_accept_some hn, Finset.sum_const, Finset.card_univ, Fintype.card_fin,
    smul_eq_mul] at htotal
  rw [Nat.mul_comm (n + 1)] at htotal
  omega

end Counting

end Generator

end FleetLabels
