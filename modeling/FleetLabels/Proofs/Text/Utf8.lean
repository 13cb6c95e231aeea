import FleetLabels.Text.Utf8
import Mathlib.Data.List.Basic
import Mathlib.Tactic.SplitIfs

/-!
# What UTF-8 is read

`Utf8.scan` reads byte after byte and keeps an unfinished character in between. This module says
that it reads the bytes of a text and no others: the bytes of a text are those of its characters, and
those of a character are the ones that `String.utf8EncodeChar` writes.

What may still come is told for every state of the reader (`Follows`). With no character unfinished
it is the bytes of a text; with one unfinished, the bytes that are owed (`Finished`) and then the
bytes of a text. A first byte settles which characters are possible, by the ranges of the numbers
that are written with one, two, three and four bytes.

## Main results

* `Utf8.utf8EncodeChar_eq_cons_iff` — the bytes of a character, by the first of them.
* `Utf8.scan_eq_ok_iff` — what is read from any state.
* `Utf8.decode_eq_ok_iff` — the bytes of a text, and no others, are read as that text.
-/

namespace FleetLabels.Text

namespace Utf8

variable {c : Char} {p : Partial} {tail : List UInt8}

/-! ## The bytes of a character -/

/-- The bytes of the character with a number. -/
def encoding (n : Nat) : List Nat :=
  if n ≤ 0x7F then [n]
  else if n ≤ 0x7FF then [0xC0 + n / 64, 0x80 + n % 64]
  else if n ≤ 0xFFFF then [0xE0 + n / 4096, 0x80 + n / 64 % 64, 0x80 + n % 64]
  else [0xF0 + n / 262144, 0x80 + n / 4096 % 64, 0x80 + n / 64 % 64, 0x80 + n % 64]

theorem encoding_one {n : Nat} (h : n ≤ 0x7F) : encoding n = [n] :=
  if_pos h

theorem encoding_two {n : Nat} (hlow : 0x7F < n) (hhigh : n ≤ 0x7FF) :
    encoding n = [0xC0 + n / 64, 0x80 + n % 64] := by
  rw [encoding, if_neg (by omega), if_pos hhigh]

theorem encoding_three {n : Nat} (hlow : 0x7FF < n) (hhigh : n ≤ 0xFFFF) :
    encoding n = [0xE0 + n / 4096, 0x80 + n / 64 % 64, 0x80 + n % 64] := by
  rw [encoding, if_neg (by omega), if_neg (by omega), if_pos hhigh]

theorem encoding_four {n : Nat} (hlow : 0xFFFF < n) :
    encoding n = [0xF0 + n / 262144, 0x80 + n / 4096 % 64, 0x80 + n / 64 % 64, 0x80 + n % 64] := by
  rw [encoding, if_neg (by omega), if_neg (by omega), if_neg (by omega)]

/-- The first byte tells how many there are. -/
theorem range_of_encoding_eq {n b : Nat} {bs : List Nat} (hn : n < 0x110000)
    (h : encoding n = b :: bs) :
    (b ≤ 0x7F ∧ n ≤ 0x7F) ∨ (0xC2 ≤ b ∧ b ≤ 0xDF ∧ 0x7F < n ∧ n ≤ 0x7FF) ∨
      (0xE0 ≤ b ∧ b ≤ 0xEF ∧ 0x7FF < n ∧ n ≤ 0xFFFF) ∨ (0xF0 ≤ b ∧ b ≤ 0xF4 ∧ 0xFFFF < n) := by
  unfold encoding at h
  split_ifs at h <;> obtain ⟨rfl, -⟩ := List.cons.inj h <;> omega

theorem isValidChar_toNat (c : Char) : c.toNat.isValidChar :=
  c.valid

theorem toNat_lt (c : Char) : c.toNat < 0x110000 := by
  have hvalid : c.toNat < 0xD800 ∨ 0xDFFF < c.toNat ∧ c.toNat < 0x110000 := isValidChar_toNat c
  omega

theorem toNat_ofNat {n : Nat} (h : n.isValidChar) : (Char.ofNat n).toNat = n := by
  rw [Char.ofNat, dif_pos h]
  rfl

theorem map_toNat_utf8EncodeChar (c : Char) :
    (String.utf8EncodeChar c).map UInt8.toNat = encoding c.toNat := by
  have hlt := toNat_lt c
  unfold String.utf8EncodeChar encoding
  rw [show c.val.toNat = c.toNat from rfl]
  dsimp only
  split_ifs <;> simp only [List.map_cons, List.map_nil, UInt8.toNat_ofNat', List.cons.injEq,
    and_true] <;> omega

theorem utf8EncodeChar_eq_iff {bytes : List UInt8} :
    String.utf8EncodeChar c = bytes ↔ encoding c.toNat = bytes.map UInt8.toNat := by
  rw [← map_toNat_utf8EncodeChar]
  exact (List.map_injective_iff.2 fun _ _ => UInt8.toNat_inj.1).eq_iff.symm

/-! ## The bytes that are owed -/

/-- The bytes that a character owes, and the character that they finish. -/
inductive Finished (c : Char) : Partial → List UInt8 → Prop
  | last {p : Partial} {byte : UInt8} (one : p.owed = 1)
      (range : p.low ≤ byte.toNat ∧ byte.toNat ≤ p.high)
      (value : Char.ofNat (p.value * 64 + (byte.toNat - 0x80)) = c) : Finished c p [byte]
  | more {p : Partial} {byte : UInt8} {tail : List UInt8} (more : p.owed ≠ 1)
      (range : p.low ≤ byte.toNat ∧ byte.toNat ≤ p.high)
      (rest : Finished c
        ⟨p.owed - 1, 0x80, 0xBF, p.value * 64 + (byte.toNat - 0x80), p.seen + 1⟩ tail) :
      Finished c p (byte :: tail)

theorem finished_iff_of_one (h : p.owed = 1) :
    Finished c p tail ↔ ∃ b, tail = [b] ∧ (p.low ≤ b.toNat ∧ b.toNat ≤ p.high) ∧
      Char.ofNat (p.value * 64 + (b.toNat - 0x80)) = c := by
  constructor
  · rintro (⟨_, range, value⟩ | ⟨more, _, _⟩)
    · exact ⟨_, rfl, range, value⟩
    · exact absurd h more
  · rintro ⟨b, rfl, range, value⟩
    exact .last h range value

theorem finished_iff_of_more (h : p.owed ≠ 1) :
    Finished c p tail ↔ ∃ b bs, tail = b :: bs ∧ (p.low ≤ b.toNat ∧ b.toNat ≤ p.high) ∧
      Finished c ⟨p.owed - 1, 0x80, 0xBF, p.value * 64 + (b.toNat - 0x80), p.seen + 1⟩ bs := by
  constructor
  · rintro (⟨one, _, _⟩ | ⟨_, range, rest⟩)
    · exact absurd one h
    · exact ⟨_, _, rfl, range, rest⟩
  · rintro ⟨b, bs, rfl, range, rest⟩
    exact .more h range rest

theorem not_finished_nil : ¬ Finished c p [] := by
  rintro ⟨⟩

/-! ## What a first byte announces -/

section First

variable {v : Nat}

theorem first_two (hlow : 2 ≤ v) (hhigh : v ≤ 31) :
    first (0xC0 + v) = some (.inr ⟨1, 0x80, 0xBF, v, 1⟩) := by
  unfold first
  rw [if_neg (by omega), if_pos (by omega), Nat.add_sub_cancel_left]

/-- With three bytes, the range of the second keeps out what can be written with two, and the
numbers that belong to no character. -/
theorem first_three (hhigh : v ≤ 15) :
    first (0xE0 + v) = some (.inr
      ⟨2, if v = 0 then 0xA0 else 0x80, if v = 13 then 0x9F else 0xBF, v, 1⟩) := by
  by_cases hzero : v = 0
  · subst hzero
    rfl
  · by_cases hsurrogate : v = 13
    · subst hsurrogate
      rfl
    · unfold first
      rw [if_neg (by omega), if_neg (by omega), if_neg (by omega), if_neg (by omega),
        if_pos (by omega), if_neg hzero, if_neg hsurrogate, Nat.add_sub_cancel_left]

/-- With four bytes, it keeps out what can be written with three, and numbers that are too large. -/
theorem first_four (hhigh : v ≤ 4) :
    first (0xF0 + v) = some (.inr
      ⟨3, if v = 0 then 0x90 else 0x80, if v = 4 then 0x8F else 0xBF, v, 1⟩) := by
  rcases (by omega : v = 0 ∨ v = 1 ∨ v = 2 ∨ v = 3 ∨ v = 4) with rfl | rfl | rfl | rfl | rfl <;> rfl

theorem finished_two_iff (hlow : 2 ≤ v) (hhigh : v ≤ 31) :
    Finished c ⟨1, 0x80, 0xBF, v, 1⟩ tail ↔
      encoding c.toNat = (0xC0 + v) :: tail.map UInt8.toNat := by
  rw [finished_iff_of_one rfl]
  constructor
  · rintro ⟨b, rfl, ⟨hb, hb'⟩, rfl⟩
    dsimp only at hb hb' ⊢
    rw [toNat_ofNat (.inl (by omega)), encoding_two (by omega) (by omega)]
    simp only [List.map_cons, List.map_nil, List.cons.injEq, and_true]
    omega
  · intro h
    have hrange := range_of_encoding_eq (toNat_lt c) h
    rw [encoding_two (by omega) (by omega)] at h
    obtain ⟨hv, htail⟩ := List.cons.inj h
    obtain ⟨b, bs, rfl, hb, hbs⟩ := List.map_eq_cons_iff.1 htail.symm
    obtain rfl := List.map_eq_nil_iff.1 hbs
    have hvalue : v * 64 + (b.toNat - 0x80) = c.toNat := by omega
    exact ⟨b, rfl, ⟨by dsimp only; omega, by dsimp only; omega⟩,
      by dsimp only; rw [hvalue, Char.ofNat_toNat]⟩

theorem finished_three_iff (hhigh : v ≤ 15) :
    Finished c ⟨2, if v = 0 then 0xA0 else 0x80, if v = 13 then 0x9F else 0xBF, v, 1⟩ tail ↔
      encoding c.toNat = (0xE0 + v) :: tail.map UInt8.toNat := by
  rw [finished_iff_of_more (Nat.succ_succ_ne_one _)]
  constructor
  · rintro ⟨b₁, _, rfl, hb₁, hrest⟩
    obtain ⟨b₂, rfl, hb₂, rfl⟩ := (finished_iff_of_one rfl).1 hrest
    dsimp only at hb₁ hb₂ ⊢
    have hrange : 0x80 ≤ b₁.toNat ∧ b₁.toNat ≤ 0xBF ∧ (v = 0 → 0xA0 ≤ b₁.toNat) ∧
        (v = 13 → b₁.toNat ≤ 0x9F) := by
      split_ifs at hb₁ <;> omega
    have hvalid : ((v * 64 + (b₁.toNat - 0x80)) * 64 + (b₂.toNat - 0x80)).isValidChar := by
      unfold Nat.isValidChar
      omega
    rw [toNat_ofNat hvalid, encoding_three (by omega) (by omega)]
    simp only [List.map_cons, List.map_nil, List.cons.injEq, and_true]
    omega
  · intro h
    have hvalid : c.toNat < 0xD800 ∨ 0xDFFF < c.toNat ∧ c.toNat < 0x110000 := isValidChar_toNat c
    have hrange := range_of_encoding_eq (toNat_lt c) h
    rw [encoding_three (by omega) (by omega)] at h
    obtain ⟨hv, htail⟩ := List.cons.inj h
    obtain ⟨b₁, bs, rfl, hb₁, hbs⟩ := List.map_eq_cons_iff.1 htail.symm
    obtain ⟨b₂, bs, rfl, hb₂, hbs⟩ := List.map_eq_cons_iff.1 hbs
    obtain rfl := List.map_eq_nil_iff.1 hbs
    have hvalue : (v * 64 + (b₁.toNat - 0x80)) * 64 + (b₂.toNat - 0x80) = c.toNat := by omega
    refine ⟨b₁, [b₂], rfl, ?_, (finished_iff_of_one rfl).2 ⟨b₂, rfl, ?_, ?_⟩⟩
    · dsimp only
      split_ifs <;> omega
    · dsimp only
      omega
    · dsimp only
      rw [hvalue, Char.ofNat_toNat]

theorem finished_four_iff (hhigh : v ≤ 4) :
    Finished c ⟨3, if v = 0 then 0x90 else 0x80, if v = 4 then 0x8F else 0xBF, v, 1⟩ tail ↔
      encoding c.toNat = (0xF0 + v) :: tail.map UInt8.toNat := by
  rw [finished_iff_of_more (Nat.succ_succ_ne_one _)]
  constructor
  · rintro ⟨b₁, _, rfl, hb₁, hrest⟩
    obtain ⟨b₂, _, rfl, hb₂, hrest⟩ := (finished_iff_of_more (Nat.succ_succ_ne_one _)).1 hrest
    obtain ⟨b₃, rfl, hb₃, rfl⟩ := (finished_iff_of_one rfl).1 hrest
    dsimp only at hb₁ hb₂ hb₃ ⊢
    have hrange : 0x80 ≤ b₁.toNat ∧ b₁.toNat ≤ 0xBF ∧ (v = 0 → 0x90 ≤ b₁.toNat) ∧
        (v = 4 → b₁.toNat ≤ 0x8F) := by
      split_ifs at hb₁ <;> omega
    have hvalid : (((v * 64 + (b₁.toNat - 0x80)) * 64 + (b₂.toNat - 0x80)) * 64 +
        (b₃.toNat - 0x80)).isValidChar := by
      unfold Nat.isValidChar
      omega
    rw [toNat_ofNat hvalid, encoding_four (by omega)]
    simp only [List.map_cons, List.map_nil, List.cons.injEq, and_true]
    omega
  · intro h
    have hlt := toNat_lt c
    have hrange := range_of_encoding_eq hlt h
    rw [encoding_four (by omega)] at h
    obtain ⟨hv, htail⟩ := List.cons.inj h
    obtain ⟨b₁, bs, rfl, hb₁, hbs⟩ := List.map_eq_cons_iff.1 htail.symm
    obtain ⟨b₂, bs, rfl, hb₂, hbs⟩ := List.map_eq_cons_iff.1 hbs
    obtain ⟨b₃, bs, rfl, hb₃, hbs⟩ := List.map_eq_cons_iff.1 hbs
    obtain rfl := List.map_eq_nil_iff.1 hbs
    have hvalue : ((v * 64 + (b₁.toNat - 0x80)) * 64 + (b₂.toNat - 0x80)) * 64 +
        (b₃.toNat - 0x80) = c.toNat := by omega
    refine ⟨b₁, [b₂, b₃], rfl, ?_,
      .more (Nat.succ_succ_ne_one _) ?_ ((finished_iff_of_one rfl).2 ⟨b₃, rfl, ?_, ?_⟩)⟩
    · dsimp only
      split_ifs <;> omega
    · dsimp only
      omega
    · dsimp only
      omega
    · dsimp only
      rw [hvalue, Char.ofNat_toNat]

end First

/-- What may follow a first byte in the bytes of a character. -/
def Announces (byte : UInt8) (c : Char) (tail : List UInt8) : Prop :=
  match first byte.toNat with
  | some (.inl d) => d = c ∧ tail = []
  | some (.inr p) => Finished c p tail
  | none => False

/-- The bytes of a character are a first byte and what it announces. -/
theorem utf8EncodeChar_eq_cons_iff {byte : UInt8} :
    String.utf8EncodeChar c = byte :: tail ↔ Announces byte c tail := by
  rw [utf8EncodeChar_eq_iff, List.map_cons, Announces]
  rcases (by omega : byte.toNat ≤ 0x7F ∨ (0xC2 ≤ byte.toNat ∧ byte.toNat ≤ 0xDF) ∨
      (0xE0 ≤ byte.toNat ∧ byte.toNat ≤ 0xEF) ∨ (0xF0 ≤ byte.toNat ∧ byte.toNat ≤ 0xF4) ∨
      ((0x7F < byte.toNat ∧ byte.toNat < 0xC2) ∨ 0xF4 < byte.toNat))
    with hone | ⟨hlow, hhigh⟩ | ⟨hlow, hhigh⟩ | ⟨hlow, hhigh⟩ | hnone
  · rw [first, if_pos hone]
    constructor
    · intro h
      have hrange := range_of_encoding_eq (toNat_lt c) h
      rw [encoding_one (by omega)] at h
      obtain ⟨hc, htail⟩ := List.cons.inj h
      exact ⟨by rw [← hc, Char.ofNat_toNat], List.map_eq_nil_iff.1 htail.symm⟩
    · rintro ⟨rfl, rfl⟩
      rw [toNat_ofNat (.inl (by omega)), encoding_one hone, List.map_nil]
  · obtain ⟨v, hv⟩ := Nat.exists_eq_add_of_le (show 0xC0 ≤ byte.toNat by omega)
    rw [hv, first_two (by omega) (by omega)]
    exact (finished_two_iff (by omega) (by omega)).symm
  · obtain ⟨v, hv⟩ := Nat.exists_eq_add_of_le hlow
    rw [hv, first_three (by omega)]
    exact (finished_three_iff (by omega)).symm
  · obtain ⟨v, hv⟩ := Nat.exists_eq_add_of_le hlow
    rw [hv, first_four (by omega)]
    exact (finished_four_iff (by omega)).symm
  · have hfirst : first byte.toNat = none := by
      unfold first
      rw [if_neg (by omega), if_neg (by omega), if_neg (by omega), if_neg (by omega),
        if_neg (by omega), if_neg (by omega), if_neg (by omega), if_neg (by omega)]
    rw [hfirst]
    refine iff_of_false (fun h => ?_) id
    have hrange := range_of_encoding_eq (toNat_lt c) h
    omega

/-! ## What is read -/

/-- The bytes of characters. -/
def encoded (cs : List Char) : List UInt8 :=
  cs.flatMap String.utf8EncodeChar

theorem encoded_cons (c : Char) (cs : List Char) :
    encoded (c :: cs) = String.utf8EncodeChar c ++ encoded cs :=
  List.flatMap_cons

/-- What may follow in a state of the reader, and the characters that are read then. -/
def Follows : Option Partial → List UInt8 → List Char → Prop
  | none, bytes, cs => bytes = encoded cs
  | some p, bytes, cs => ∃ c cs' tail, cs = c :: cs' ∧ Finished c p tail ∧
      bytes = tail ++ encoded cs'

theorem follows_nil_iff {cs : List Char} : Follows none [] cs ↔ cs = [] := by
  cases cs with
  | nil => simp [Follows, encoded]
  | cons c cs =>
      refine iff_of_false (fun h : [] = encoded (c :: cs) => ?_) (List.cons_ne_nil c cs)
      rw [encoded_cons] at h
      exact String.utf8EncodeChar_ne_nil (List.nil_eq_append_iff.1 h).1

/-- A first byte between two characters. -/
theorem follows_none_cons {byte : UInt8} {bytes : List UInt8} {cs : List Char} :
    Follows none (byte :: bytes) cs ↔ ∃ c cs' tail, cs = c :: cs' ∧ Announces byte c tail ∧
      bytes = tail ++ encoded cs' := by
  cases cs with
  | nil => simp [Follows, encoded]
  | cons c cs =>
      simp only [Follows, encoded_cons, List.cons.injEq]
      constructor
      · intro h
        cases hc : String.utf8EncodeChar c with
        | nil => exact absurd hc (by simp)
        | cons b tail =>
            rw [hc] at h
            obtain ⟨rfl, rfl⟩ := List.cons.inj h
            exact ⟨c, cs, tail, ⟨rfl, rfl⟩, utf8EncodeChar_eq_cons_iff.1 hc, rfl⟩
      · rintro ⟨_, _, tail, ⟨rfl, rfl⟩, hannounces, rfl⟩
        rw [utf8EncodeChar_eq_cons_iff.2 hannounces, List.cons_append]

/-- A further byte of an unfinished character. -/
theorem follows_some_cons {byte : UInt8} {bytes : List UInt8} {cs : List Char} :
    Follows (some p) (byte :: bytes) cs ↔ (p.low ≤ byte.toNat ∧ byte.toNat ≤ p.high) ∧
      if p.owed = 1 then ∃ cs', cs = Char.ofNat (p.value * 64 + (byte.toNat - 0x80)) :: cs' ∧
        Follows none bytes cs'
      else Follows (some
        ⟨p.owed - 1, 0x80, 0xBF, p.value * 64 + (byte.toNat - 0x80), p.seen + 1⟩) bytes cs := by
  by_cases howed : p.owed = 1
  · rw [if_pos howed]
    constructor
    · rintro ⟨c, cs', _, rfl, hfinished, hbytes⟩
      obtain ⟨b, rfl, hrange, rfl⟩ := (finished_iff_of_one howed).1 hfinished
      obtain ⟨rfl, rfl⟩ := List.cons.inj hbytes
      exact ⟨hrange, cs', rfl, rfl⟩
    · rintro ⟨hrange, cs', rfl, rfl⟩
      exact ⟨_, cs', [byte], rfl, .last howed hrange rfl, rfl⟩
  · rw [if_neg howed]
    constructor
    · rintro ⟨c, cs', _, rfl, hfinished, hbytes⟩
      obtain ⟨b, bs, rfl, hrange, hrest⟩ := (finished_iff_of_more howed).1 hfinished
      obtain ⟨rfl, rfl⟩ := List.cons.inj hbytes
      exact ⟨hrange, c, cs', bs, rfl, hrest, rfl⟩
    · rintro ⟨hrange, c, cs', bs, rfl, hrest, rfl⟩
      exact ⟨c, cs', byte :: bs, rfl, .more howed hrange hrest, rfl⟩

theorem map_eq_ok_iff {ε α β : Type} {f : α → β} {r : Except ε α} {b : β} :
    f <$> r = .ok b ↔ ∃ a, b = f a ∧ r = .ok a := by
  cases r <;> simp [Functor.map, Except.map, eq_comm]

/-- From any state what follows is read, and nothing else. The induction is on the bytes, over all
states, since each byte changes the state. -/
theorem scan_eq_ok_iff {state : Option Partial} {index : Nat} {bytes : List UInt8}
    {cs : List Char} : scan state index bytes = .ok cs ↔ Follows state bytes cs := by
  induction bytes generalizing state index cs with
  | nil =>
      cases state with
      | none => simp [scan, follows_nil_iff, eq_comm]
      | some p =>
          refine iff_of_false (by simp [scan]) ?_
          rintro ⟨c, cs', tail, -, hfinished, htail⟩
          obtain ⟨rfl, -⟩ := List.nil_eq_append_iff.1 htail
          exact not_finished_nil hfinished
  | cons byte bytes ih =>
      cases state with
      | none =>
          rw [scan, follows_none_cons]
          unfold Announces
          rcases first byte.toNat with _ | c | p
          · simp
          · simp only [map_eq_ok_iff, ih]
            constructor
            · rintro ⟨cs', rfl, h⟩
              exact ⟨c, cs', [], rfl, ⟨rfl, rfl⟩, h⟩
            · rintro ⟨_, cs', _, rfl, ⟨rfl, rfl⟩, h⟩
              exact ⟨cs', rfl, h⟩
          · exact ih
      | some p =>
          rw [scan, follows_some_cons]
          by_cases hrange : p.low ≤ byte.toNat ∧ byte.toNat ≤ p.high
          · rw [if_pos hrange, and_iff_right hrange]
            by_cases howed : p.owed = 1
            · rw [if_pos howed, if_pos howed, map_eq_ok_iff]
              simp only [ih]
            · rw [if_neg howed, if_neg howed]
              exact ih
          · rw [if_neg hrange]
            exact iff_of_false (by simp) fun h => hrange h.1

/-- **What UTF-8 is read.** The bytes of a text are read as that text, and other bytes are refused. -/
theorem decode_eq_ok_iff {bytes : List UInt8} {s : String} :
    decode bytes = .ok s ↔ bytes.toByteArray = s.toUTF8 := by
  have htext : s.toUTF8 = (encoded s.toList).toByteArray := by
    change s.toByteArray = s.toList.utf8Encode
    rw [← String.toByteArray_ofList, String.ofList_toList]
  have hbytes : bytes.toByteArray = s.toUTF8 ↔ bytes = encoded s.toList := by
    rw [htext, List.toByteArray_inj]
  simp only [decode, map_eq_ok_iff, scan_eq_ok_iff, Follows, hbytes]
  constructor
  · rintro ⟨cs, rfl, rfl⟩
    rw [String.toList_ofList]
  · intro h
    exact ⟨s.toList, String.ofList_toList.symm, h⟩

end Utf8

/-- The text that something is: a text itself, or the bytes of one. -/
def Raw.Spells : Raw → String → Prop
  | .text t, s => t = s
  | .bytes bs, s => bs.toByteArray = s.toUTF8

theorem Raw.read_eq_ok_iff {raw : Raw} {s : String} : raw.read = .ok s ↔ raw.Spells s := by
  cases raw with
  | text t => simp [Raw.read, Raw.Spells]
  | bytes bs => exact Utf8.decode_eq_ok_iff

end FleetLabels.Text
