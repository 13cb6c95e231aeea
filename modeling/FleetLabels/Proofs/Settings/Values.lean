import FleetLabels.Proofs.Documents.Numerals
import FleetLabels.Settings.LogLevel
import FleetLabels.Decimal.Unsigned
import Mathlib.Data.List.Basic
import Mathlib.Data.List.TakeWhile

/-!
# Values of settings

A setting is a text: white space at its ends is dropped, and what is left is read as a number or as
the name of a log level. This module says which texts are read and as what, without the order in
which the characters are looked at: a text trims to its core (`Text.Trims`), digits denote the number
that they are the decimal digits of (`Unsigned.Denotes`), and a name counts in letters of either case
(`LogLevel.Names`).

## Main results

* `Text.trimmed_eq_iff` — what is left when white space is dropped.
* `Unsigned.parse_eq_ok_iff` — which characters are read as a number of limited size.
* `LogLevel.parse?_eq_some_iff` — which texts name a log level.
-/

namespace FleetLabels

/-! ## White space at the ends -/

namespace Text

variable {cs core : List Char}

/-- The core of a text: the text without the white space at its ends. -/
structure Trims (cs core : List Char) : Prop where
  ends : ∃ front back, cs = front ++ (core ++ back) ∧ (∀ c ∈ front, isBlank c = true) ∧
    ∀ c ∈ back, isBlank c = true
  head : ∀ c, core.head? = some c → isBlank c = false
  last : ∀ c, core.getLast? = some c → isBlank c = false

theorem trimLeft_append {front : List Char} (hfront : ∀ c ∈ front, isBlank c = true)
    (cs : List Char) : trimLeft (front ++ cs) = trimLeft cs :=
  List.dropWhile_append_of_pos hfront

theorem trimLeft_eq_self (h : ∀ c, cs.head? = some c → isBlank c = false) : trimLeft cs = cs := by
  cases cs with
  | nil => rfl
  | cons c cs => exact trimLeft_of_head cs (h c rfl)

theorem trimLeft_eq_nil (h : ∀ c ∈ cs, isBlank c = true) : trimLeft cs = [] :=
  List.dropWhile_eq_nil_iff.2 h

/-- What is left of a text, and the white space in front of it. -/
theorem exists_eq_append_trimLeft (cs : List Char) :
    ∃ front, cs = front ++ trimLeft cs ∧ ∀ c ∈ front, isBlank c = true :=
  ⟨cs.takeWhile isBlank, List.takeWhile_append_dropWhile.symm, fun _ => List.mem_takeWhile_imp⟩

theorem isBlank_head_trimLeft {c : Char} (h : (trimLeft cs).head? = some c) :
    isBlank c = false := by
  have hnot := List.head?_dropWhile_not isBlank cs
  rw [trimLeft] at h
  rwa [h] at hnot

theorem trims_trimmed (cs : List Char) : Trims cs (trimmed cs) := by
  obtain ⟨front, hcs, hfront⟩ := exists_eq_append_trimLeft cs
  obtain ⟨back, hrest, hback⟩ := exists_eq_append_trimLeft (trimLeft cs).reverse
  have hsplit : trimLeft cs = trimmed cs ++ back.reverse := by
    rw [trimmed, ← List.reverse_append, ← hrest, List.reverse_reverse]
  refine ⟨⟨front, back.reverse, by rw [← hsplit]; exact hcs, hfront, ?_⟩, ?_, ?_⟩
  · intro c hc
    exact hback c (List.mem_reverse.1 hc)
  · intro c hc
    have hhead : (trimLeft cs).head? = some c := by
      rw [hsplit, List.head?_append, hc, Option.some_or]
    exact isBlank_head_trimLeft hhead
  · intro c hc
    rw [trimmed, List.getLast?_reverse] at hc
    exact isBlank_head_trimLeft hc

theorem Trims.trimmed_eq (h : Trims cs core) : trimmed cs = core := by
  obtain ⟨⟨front, back, rfl, hfront, hback⟩, hhead, hlast⟩ := h
  have hback' : ∀ c ∈ back.reverse, isBlank c = true := fun c hc => hback c (List.mem_reverse.1 hc)
  rw [trimmed, trimLeft_append hfront]
  by_cases hcore : core = []
  · rw [hcore, List.nil_append, trimLeft_eq_nil hback]
    rfl
  · have hstart : trimLeft (core ++ back) = core ++ back := by
      refine trimLeft_eq_self fun c hc => hhead c ?_
      rwa [List.head?_append_of_ne_nil _ hcore] at hc
    have hend : trimLeft core.reverse = core.reverse := by
      refine trimLeft_eq_self fun c hc => hlast c ?_
      rwa [List.head?_reverse] at hc
    rw [hstart, List.reverse_append, trimLeft_append hback', hend, List.reverse_reverse]

/-- A text has one core, and that is what is left of it. -/
theorem trimmed_eq_iff : trimmed cs = core ↔ Trims cs core :=
  ⟨fun h => h ▸ trims_trimmed cs, Trims.trimmed_eq⟩

end Text

/-! ## Numbers of limited size -/

namespace Unsigned

variable {limit n m : Nat} {cs ds : List Char}

/-- The number that characters denote: an optional plus sign, and then one or more digits. -/
def Denotes (cs : List Char) (n : Nat) : Prop :=
  ∃ sign ds, cs = sign ++ ds ∧ (sign = [] ∨ sign = ['+']) ∧ ds ≠ [] ∧
    (∀ c ∈ ds, c.isDigit = true) ∧ Nat.ofDigitChars 10 ds 0 = n

/-- Digits are read as long as the number stays within the limit. Since it only grows, it has stayed
there if it ends there. -/
theorem digits_eq_ok_iff (h : n ≤ limit) :
    digits limit n ds = .ok m ↔
      (∀ c ∈ ds, c.isDigit = true) ∧ Nat.ofDigitChars 10 ds n = m ∧ m ≤ limit := by
  induction ds generalizing n with
  | nil =>
      simp only [digits, Except.ok.injEq, List.not_mem_nil, false_imp_iff, implies_true, true_and,
        Nat.ofDigitChars_nil]
      constructor
      · rintro rfl
        exact ⟨rfl, h⟩
      · exact fun h => h.1
  | cons c ds ih =>
      rw [digits, Nat.ofDigitChars_cons, Nat.mul_comm 10 n]
      by_cases hdigit : c.isDigit = true
      · by_cases hlarge : limit < n * 10 + (c.toNat - '0'.toNat)
        · simp only [hdigit, Bool.not_true, Bool.false_eq_true, if_false, if_pos hlarge,
            reduceCtorEq, false_iff, not_and]
          rintro - rfl
          have hle := Json.le_ofDigitChars ds (n * 10 + (c.toNat - '0'.toNat))
          omega
        · simp only [hdigit, Bool.not_true, Bool.false_eq_true, if_false, if_neg hlarge]
          rw [ih (Nat.le_of_not_lt hlarge), List.forall_mem_cons, and_iff_right hdigit]
      · simp [hdigit]

theorem denotes_plus_iff :
    Denotes ('+' :: ds) n ↔
      ds ≠ [] ∧ (∀ c ∈ ds, c.isDigit = true) ∧ Nat.ofDigitChars 10 ds 0 = n := by
  constructor
  · rintro ⟨_, ds', hcs, rfl | rfl, hne, hdigits, hn⟩
    · rw [List.nil_append] at hcs
      exact absurd (hdigits '+' (hcs ▸ List.mem_cons_self)) (by decide)
    · obtain ⟨-, rfl⟩ := List.cons.inj hcs
      exact ⟨hne, hdigits, hn⟩
  · rintro ⟨hne, hdigits, hn⟩
    exact ⟨['+'], ds, rfl, .inr rfl, hne, hdigits, hn⟩

theorem denotes_iff_of_head?_ne (h : cs.head? ≠ some '+') :
    Denotes cs n ↔
      cs ≠ [] ∧ (∀ c ∈ cs, c.isDigit = true) ∧ Nat.ofDigitChars 10 cs 0 = n := by
  constructor
  · rintro ⟨_, ds, rfl, rfl | rfl, hne, hdigits, hn⟩
    · exact ⟨hne, hdigits, hn⟩
    · exact absurd rfl h
  · rintro ⟨hne, hdigits, hn⟩
    exact ⟨[], cs, rfl, .inl rfl, hne, hdigits, hn⟩

/-- **Which numbers are read.** Characters are read exactly as the number that they denote, if it is
within the limit. -/
theorem parse_eq_ok_iff : parse limit cs = .ok n ↔ Denotes cs n ∧ n ≤ limit := by
  have hdigits {ds : List Char} (hne : ds ≠ []) :
      digits limit 0 ds = .ok n ↔
        (ds ≠ [] ∧ (∀ c ∈ ds, c.isDigit = true) ∧ Nat.ofDigitChars 10 ds 0 = n) ∧ n ≤ limit := by
    rw [digits_eq_ok_iff (Nat.zero_le limit), and_iff_right hne, and_assoc]
  unfold parse
  split
  · rw [denotes_iff_of_head?_ne (by simp)]
    simp
  · simp [denotes_plus_iff]
  · rename_i hne
    rw [denotes_plus_iff]
    exact hdigits hne
  · rename_i hne _ hplus
    have hhead : cs.head? ≠ some '+' := by
      cases cs with
      | nil => simp
      | cons c cs =>
          rintro ⟨⟩
          exact hplus _ rfl
    rw [denotes_iff_of_head?_ne hhead]
    exact hdigits hne

end Unsigned

/-! ## Log levels -/

namespace LogLevel

/-- The level that a text names: its core is the name, in letters of either case. -/
def Names (s : String) (l : LogLevel) : Prop :=
  ∃ core, Text.Trims s.toList core ∧
    core.map Char.toLower = l.text.toList.map Char.toLower

theorem ofName?_eq_some_iff {name : List Char} {l : LogLevel} :
    ofName? name = some l ↔ name = l.text.toList := by
  constructor
  · intro h
    have hfind : supported.find? (fun l => l.text.toList == name) = some l := h
    have hname := @List.find?_some LogLevel (·.text.toList == name) _ _ hfind
    exact (eq_of_beq hname).symm
  · rintro rfl
    cases l <;> rfl

theorem all_isUpper_text (l : LogLevel) : l.text.toList.all Char.isUpper = true := by
  cases l <;> rfl

/-- The same characters count as a capital letter in either case. -/
theorem toUpper_eq_iff {c d : Char} (hd : d.isUpper = true) :
    c.toUpper = d ↔ c.toLower = d.toLower := by
  unfold Char.isUpper at hd
  have hlower : d.toLower.val = d.val + 32 := by
    unfold Char.toLower
    grind
  rw [Char.ext_iff, Char.ext_iff, hlower]
  unfold Char.toUpper Char.toLower
  split <;> split <;> grind

/-- Upper-case letters decide whether a name is met in either case. -/
theorem map_toUpper_eq_iff {core name : List Char} (h : name.all Char.isUpper = true) :
    core.map Char.toUpper = name ↔ core.map Char.toLower = name.map Char.toLower := by
  induction name generalizing core with
  | nil => simp
  | cons d name ih =>
      rw [List.all_cons, Bool.and_eq_true] at h
      cases core with
      | nil => simp
      | cons c core => simp [toUpper_eq_iff h.1, ih h.2]

theorem parse?_eq_some_iff {s : String} {l : LogLevel} : parse? s = some l ↔ Names s l := by
  rw [parse?, ofName?_eq_some_iff, map_toUpper_eq_iff l.all_isUpper_text]
  constructor
  · intro h
    exact ⟨_, Text.trims_trimmed s.toList, h⟩
  · rintro ⟨core, hcore, h⟩
    rwa [hcore.trimmed_eq]

end LogLevel

end FleetLabels
