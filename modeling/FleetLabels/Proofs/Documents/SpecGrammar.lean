import FleetLabels.Proofs.Documents.Readers
import Mathlib.Algebra.Group.Int.Defs

/-!
# The grammar of policy specifications

What a policy asks for can be written in two ways, as an object and as an array of the fields in
order, and so can the strategy inside of it. This module says which JSON values are such
specifications, without regard to how they are read: `PolicySpec.Written` is the grammar, with the
specification that a value stands for. The reader accepts exactly the values of the grammar.

Members that are not asked for are left alone, whatever they hold; a member that is asked for must
be there once. Every part of an accepted value is looked at for its kind: there is no place where a
`null`, a real number or an integer of more than 32 bits would do.

## Main results

* `Document.once_eq_ok_some_iff`, `Document.once_eq_ok_none_iff` — the members of an object.
* `StrategySpec.ofJson_eq_ok_iff`, `PolicySpec.ofJson_eq_ok_iff` — what the readers accept.
* `PolicySpec.not_refused_of_part` — no part of an accepted value is of a kind that is refused.
* `PolicySpec.accepts_grammar` — the whole of it, with the two ways of writing compared.
-/

namespace FleetLabels

/-! ## Members of objects -/

namespace Document

variable {α : Type} {ms : List (String × Json)} {key : String} {j : Json}

/-- The object has one member under the key, and this is its value. -/
def Sole (ms : List (String × Json)) (key : String) (j : Json) : Prop :=
  ∃ front back, ms = front ++ (key, j) :: back ∧ ∀ e ∈ front ++ back, e.1 ≠ key

/-- The object has no member under the key. -/
def Absent (ms : List (String × Json)) (key : String) : Prop :=
  ∀ e ∈ ms, e.1 ≠ key

theorem valuesAt_eq_nil_iff : valuesAt ms key = [] ↔ Absent ms key := by
  simp [valuesAt, Absent]

theorem valuesAt_eq_singleton_iff : valuesAt ms key = [j] ↔ Sole ms key j := by
  constructor
  · intro h
    induction ms with
    | nil => simp [valuesAt_nil] at h
    | cons e ms ih =>
        obtain ⟨k, i⟩ := e
        rw [valuesAt_cons] at h
        by_cases hk : k = key
        · rw [if_pos hk, List.cons.injEq] at h
          obtain ⟨rfl, hrest⟩ := h
          exact ⟨[], ms, by simp [hk], valuesAt_eq_nil_iff.1 hrest⟩
        · rw [if_neg hk] at h
          obtain ⟨front, back, rfl, hothers⟩ := ih h
          refine ⟨(k, i) :: front, back, rfl, ?_⟩
          simpa [hk] using hothers
  · rintro ⟨front, back, rfl, hothers⟩
    have hfront : valuesAt front key = [] :=
      valuesAt_eq_nil_iff.2 fun e he => hothers e (List.mem_append_left back he)
    have hback : valuesAt back key = [] :=
      valuesAt_eq_nil_iff.2 fun e he => hothers e (List.mem_append_right front he)
    simp [valuesAt_append, valuesAt_cons, hfront, hback]

theorem Sole.eq_of_mem {i : Json} (h : Sole ms key j) (hi : (key, i) ∈ ms) : i = j := by
  obtain ⟨front, back, rfl, hothers⟩ := h
  simp only [List.mem_append, List.mem_cons, Prod.mk.injEq, true_and] at hi
  rcases hi with hi | rfl | hi
  · exact absurd rfl (hothers _ (List.mem_append_left back hi))
  · rfl
  · exact absurd rfl (hothers _ (List.mem_append_right front hi))

theorem Sole.mem (h : Sole ms key j) : (key, j) ∈ ms := by
  obtain ⟨front, back, rfl, -⟩ := h
  simp

theorem Sole.eq_of_sole {i : Json} (h : Sole ms key j) (hi : Sole ms key i) : i = j :=
  h.eq_of_mem hi.mem

/-- A member is read if it is the only one under its key and its value can be read. -/
theorem once_eq_ok_some_iff {read : Json → Except Fault α} {a : α} :
    once ms key read = .ok (some a) ↔ ∃ j, Sole ms key j ∧ read j = .ok a := by
  simp only [once_eq, ← valuesAt_eq_singleton_iff]
  rcases valuesAt ms key with _ | ⟨j, _ | ⟨i, js⟩⟩
  · simp [onlyOf]
  · simp only [onlyOf, List.cons.injEq, and_true, exists_eq_left']
    cases read j with
    | error e => simp
    | ok b => simp
  · simp [onlyOf]

theorem once_eq_ok_none_iff {read : Json → Except Fault α} :
    once ms key read = .ok none ↔ Absent ms key := by
  simp only [once_eq, ← valuesAt_eq_nil_iff]
  rcases valuesAt ms key with _ | ⟨j, _ | ⟨i, js⟩⟩
  · simp [onlyOf]
  · simp only [onlyOf, reduceCtorEq, iff_false]
    cases read j with
    | error e => simp
    | ok b => simp
  · simp [onlyOf]

end Document

open Document

/-! ## The grammar -/

/-- The value is a whole number that fits into 32 bits with sign. -/
def Document.Counts (j : Json) (count : Int32) : Prop :=
  ∃ n : Int, j = .int n ∧ -2 ^ 31 ≤ n ∧ n ≤ 2 ^ 31 - 1 ∧ count.toInt = n

/-- The value is an object that has nothing but texts for its members. Of several members under one
key the last counts. -/
def Labels.Written (labels : Labels) (j : Json) : Prop :=
  ∃ entries : List (String × String),
    j = .object (entries.map fun e => (e.1, .string e.2)) ∧ labels = .ofList entries

/-- The values that stand for a strategy. -/
inductive StrategySpec.Written (s : StrategySpec) : Json → Prop where
  | object {ms : List (String × Json)} {count : Json} (htype : Sole ms "type" (.string s.type))
      (hcount : Sole ms "count" count) (hcounts : Counts count s.count) : Written s (.object ms)
  | array {count : Json} (hcounts : Counts count s.count) :
      Written s (.array [.string s.type, count])

/-- The values that stand for what a policy asks for. The labels may be left out, and then there are
none. -/
inductive PolicySpec.Written (s : PolicySpec) : Json → Prop where
  | object {ms : List (String × Json)} {strategy labels : Json}
      (hstrategy : Sole ms "strategy" strategy) (hlabels : Sole ms "labels" labels)
      (hs : s.strategy.Written strategy) (hl : s.labels.Written labels) : Written s (.object ms)
  | unlabeledObject {ms : List (String × Json)} {strategy : Json}
      (hstrategy : Sole ms "strategy" strategy) (hlabels : Absent ms "labels")
      (hs : s.strategy.Written strategy) (hl : s.labels = .empty) : Written s (.object ms)
  | array {strategy labels : Json} (hs : s.strategy.Written strategy)
      (hl : s.labels.Written labels) : Written s (.array [strategy, labels])
  | unlabeledArray {strategy : Json} (hs : s.strategy.Written strategy) (hl : s.labels = .empty) :
      Written s (.array [strategy])

/-! ## What the readers accept -/

theorem Document.string_eq_ok_iff {j : Json} {s : String} : string j = .ok s ↔ j = .string s := by
  cases j <;> simp [string]

theorem Document.int32_eq_ok_iff {j : Json} {count : Int32} :
    int32 j = .ok count ↔ Counts j count := by
  constructor
  · intro h
    cases j with
    | int n =>
        rw [int32] at h
        split at h
        next hrange =>
          cases h
          exact ⟨n, rfl, by omega, by omega, Int32.toInt_ofInt_of_le (by omega) (by omega)⟩
        next => cases h
    | _ => cases h
  · rintro ⟨n, rfl, -, -, rfl⟩
    exact int32_toInt count

/-- Members are read as texts if and only if they are texts. -/
theorem Document.mapM_string_eq_ok_iff {ms : List (String × Json)}
    {entries : List (String × String)} :
    (ms.mapM fun e => (e.1, ·) <$> string e.2) = .ok entries ↔
      ms = entries.map fun e => (e.1, .string e.2) := by
  constructor
  · intro h
    have hmembers := mapM_eq_ok_iff.1 h
    clear h
    induction hmembers with
    | nil => rfl
    | @cons e entry ms entries hentry _ ih =>
        obtain ⟨k, j⟩ := e
        cases j with
        | string s =>
            cases hentry
            rw [ih, List.map_cons]
        | _ => cases hentry
  · rintro rfl
    have hread : (entries.map fun e => (e.1, Json.string e.2)).mapM
        (fun e => (e.1, ·) <$> string e.2) = .ok (entries.map id) :=
      mapM_map_ok entries fun e _ => rfl
    rw [hread, List.map_id]

theorem Labels.keyMap_eq_ok_iff {j : Json} {labels : Labels} :
    keyMap string j = .ok labels ↔ labels.Written j := by
  constructor
  · intro h
    cases j with
    | object ms =>
        cases hread : ms.mapM fun e => (e.1, ·) <$> string e.2 with
        | error e =>
            simp only [keyMap, hread] at h
            cases h
        | ok entries =>
            simp only [keyMap, hread, map_ok, Except.ok.injEq] at h
            exact ⟨entries, congrArg Json.object (mapM_string_eq_ok_iff.1 hread), h.symm⟩
    | _ => cases h
  · rintro ⟨entries, rfl, rfl⟩
    simp only [keyMap, mapM_string_eq_ok_iff.2 rfl, map_ok]

/-- The reader accepts the values that stand for a strategy, and no others. -/
theorem StrategySpec.ofJson_eq_ok_iff {j : Json} {s : StrategySpec} :
    ofJson j = .ok s ↔ s.Written j := by
  constructor
  · intro h
    cases j with
    | object ms =>
        rw [ofJson] at h
        simp only [bind_eq_ok, required_eq_ok_iff] at h
        obtain ⟨_, hcount, _, htype, type, rfl, count, rfl, heq⟩ := h
        cases heq
        obtain ⟨i, hsole, hi⟩ := once_eq_ok_some_iff.1 hcount
        obtain ⟨t, ht, hstring⟩ := once_eq_ok_some_iff.1 htype
        obtain rfl := string_eq_ok_iff.1 hstring
        exact .object ht hsole (int32_eq_ok_iff.1 hi)
    | array items =>
        rw [ofJson] at h
        simp only [bind_eq_ok] at h
        obtain ⟨type, htype, count, hcount, _, hmost, heq⟩ := h
        cases heq
        rcases items with _ | ⟨t, _ | ⟨i, _ | ⟨_, _⟩⟩⟩
        · cases htype
        · cases hcount
        · obtain rfl := string_eq_ok_iff.1 htype
          exact .array (int32_eq_ok_iff.1 hcount)
        · simp [atMost] at hmost
    | _ => cases h
  · intro h
    cases h with
    | object htype hcount hcounts =>
        have ht := once_eq_ok_some_iff.2 ⟨_, htype, string_eq_ok_iff.2 rfl⟩
        have hc := once_eq_ok_some_iff.2 ⟨_, hcount, int32_eq_ok_iff.2 hcounts⟩
        rw [ofJson]
        simp only [hc, ht, ok_bind, required]
    | array hcounts =>
        have hc := int32_eq_ok_iff.2 hcounts
        simp [ofJson, item, string, hc, atMost, ok_bind]

/-- The reader accepts the values that stand for what a policy asks for, and no others. -/
theorem PolicySpec.ofJson_eq_ok_iff {j : Json} {s : PolicySpec} :
    ofJson j = .ok s ↔ s.Written j := by
  constructor
  · intro h
    cases j with
    | object ms =>
        rw [ofJson] at h
        simp only [bind_eq_ok, required_eq_ok_iff] at h
        obtain ⟨labels, hlabels, _, hstrategy, strategy, rfl, heq⟩ := h
        cases heq
        obtain ⟨w, hw, hstrategy⟩ := once_eq_ok_some_iff.1 hstrategy
        have hs := StrategySpec.ofJson_eq_ok_iff.1 hstrategy
        cases labels with
        | none => exact .unlabeledObject hw (once_eq_ok_none_iff.1 hlabels) hs rfl
        | some labels =>
            obtain ⟨l, hl, hlabels⟩ := once_eq_ok_some_iff.1 hlabels
            exact .object hw hl hs (Labels.keyMap_eq_ok_iff.1 hlabels)
    | array items =>
        rw [ofJson] at h
        simp only [bind_eq_ok] at h
        obtain ⟨strategy, hstrategy, labels, hlabels, _, hmost, heq⟩ := h
        cases heq
        rcases items with _ | ⟨w, _ | ⟨l, _ | ⟨_, _⟩⟩⟩
        · cases hstrategy
        · cases hlabels
          exact .unlabeledArray (StrategySpec.ofJson_eq_ok_iff.1 hstrategy) rfl
        · exact .array (StrategySpec.ofJson_eq_ok_iff.1 hstrategy)
            (Labels.keyMap_eq_ok_iff.1 hlabels)
        · simp [atMost] at hmost
    | _ => cases h
  · intro h
    cases h with
    | object hw hlabels hs hl =>
        have hstrategy := once_eq_ok_some_iff.2 ⟨_, hw, StrategySpec.ofJson_eq_ok_iff.2 hs⟩
        have hlabels := once_eq_ok_some_iff.2 ⟨_, hlabels, Labels.keyMap_eq_ok_iff.2 hl⟩
        rw [ofJson]
        simp only [hlabels, hstrategy, ok_bind, required, Option.getD_some]
    | @unlabeledObject ms _ hw hlabels hs hl =>
        have hstrategy := once_eq_ok_some_iff.2 ⟨_, hw, StrategySpec.ofJson_eq_ok_iff.2 hs⟩
        have hlabels : once ms "labels" (keyMap string) = .ok none := once_eq_ok_none_iff.2 hlabels
        rw [ofJson]
        simp only [hlabels, hstrategy, ok_bind, required, Option.getD_none, ← hl]
    | array hs hl =>
        have hstrategy := StrategySpec.ofJson_eq_ok_iff.2 hs
        have hlabels := Labels.keyMap_eq_ok_iff.2 hl
        simp [ofJson, item, itemOr, hstrategy, hlabels, atMost, ok_bind]
    | unlabeledArray hs hl =>
        have hstrategy := StrategySpec.ofJson_eq_ok_iff.2 hs
        simp [ofJson, item, itemOr, hstrategy, atMost, ok_bind, ← hl]

/-! ## Places that are looked at -/

/-- The value has the other one under a key if it is an object, and at a place if it is an array of
fields. -/
def Document.Field (key : String) (place : Nat) (v j : Json) : Prop :=
  match v with
  | .object ms => (key, j) ∈ ms
  | .array items => items[place]? = some j
  | _ => False

/-- A value out of which a strategy is read: it is the whole, the type or the count. -/
def StrategySpec.Part (v j : Json) : Prop :=
  j = v ∨ Field "type" 0 v j ∨ Field "count" 1 v j

/-- A value out of which a specification is read: it is the whole, a part of the strategy, the
labels, or one of them. -/
def PolicySpec.Part (v j : Json) : Prop :=
  j = v ∨ (∃ strategy, Field "strategy" 0 v strategy ∧ StrategySpec.Part strategy j) ∨
    ∃ labels, Field "labels" 1 v labels ∧
      (j = labels ∨ ∃ key ms, labels = .object ms ∧ (key, j) ∈ ms)

/-- Kinds of values that are nowhere accepted: `null`, real numbers, and integers of more than 32
bits. -/
def Document.Refused (j : Json) : Prop :=
  j = .null ∨ (∃ d, j = .real d) ∨ ∃ n : Int, j = .int n ∧ (n < -2 ^ 31 ∨ 2 ^ 31 - 1 < n)

theorem Document.not_refused_object (ms : List (String × Json)) : ¬ Refused (.object ms) := by
  simp [Refused]

theorem Document.not_refused_array (items : List Json) : ¬ Refused (.array items) := by
  simp [Refused]

theorem Document.not_refused_string (s : String) : ¬ Refused (.string s) := by
  simp [Refused]

theorem Document.Counts.not_refused {j : Json} {count : Int32} (h : Counts j count) :
    ¬ Refused j := by
  obtain ⟨n, rfl, hlow, hhigh, -⟩ := h
  rintro (hnull | ⟨d, hreal⟩ | ⟨m, hm, hout⟩)
  · cases hnull
  · cases hreal
  · cases hm
    omega

theorem StrategySpec.not_refused_of_part {s : StrategySpec} {v j : Json} (h : s.Written v)
    (hj : Part v j) : ¬ Refused j := by
  cases h with
  | object htype hcount hcounts =>
      rcases hj with rfl | hmem | hmem
      · exact not_refused_object _
      · exact htype.eq_of_mem hmem ▸ not_refused_string _
      · exact hcount.eq_of_mem hmem ▸ hcounts.not_refused
  | array hcounts =>
      rcases hj with rfl | hitem | hitem
      · exact not_refused_array _
      · cases hitem
        exact not_refused_string _
      · cases hitem
        exact hcounts.not_refused

theorem Labels.not_refused_of_part {labels : Labels} {v j : Json} (h : labels.Written v)
    (hj : j = v ∨ ∃ key ms, v = .object ms ∧ (key, j) ∈ ms) : ¬ Refused j := by
  obtain ⟨entries, rfl, -⟩ := h
  rcases hj with rfl | ⟨key, ms, heq, hmem⟩
  · exact not_refused_object _
  · cases heq
    obtain ⟨e, -, he⟩ := List.mem_map.1 hmem
    cases he
    exact not_refused_string _

/-- Whatever a specification is read out of is of a kind that can be accepted. -/
theorem PolicySpec.not_refused_of_part {s : PolicySpec} {v j : Json} (h : s.Written v)
    (hj : Part v j) : ¬ Refused j := by
  cases h with
  | object hstrategy hlabels hs hl =>
      rcases hj with rfl | ⟨w, hmem, hpart⟩ | ⟨l, hmem, hpart⟩
      · exact not_refused_object _
      · obtain rfl := hstrategy.eq_of_mem hmem
        exact StrategySpec.not_refused_of_part hs hpart
      · obtain rfl := hlabels.eq_of_mem hmem
        exact Labels.not_refused_of_part hl hpart
  | unlabeledObject hstrategy hlabels hs hl =>
      rcases hj with rfl | ⟨w, hmem, hpart⟩ | ⟨l, hmem, -⟩
      · exact not_refused_object _
      · obtain rfl := hstrategy.eq_of_mem hmem
        exact StrategySpec.not_refused_of_part hs hpart
      · exact absurd rfl (hlabels _ hmem)
  | array hs hl =>
      rcases hj with rfl | ⟨w, hitem, hpart⟩ | ⟨l, hitem, hpart⟩
      · exact not_refused_array _
      · cases hitem
        exact StrategySpec.not_refused_of_part hs hpart
      · cases hitem
        exact Labels.not_refused_of_part hl hpart
  | unlabeledArray hs hl =>
      rcases hj with rfl | ⟨w, hitem, hpart⟩ | ⟨l, hitem, -⟩
      · exact not_refused_array _
      · cases hitem
        exact StrategySpec.not_refused_of_part hs hpart
      · cases hitem

/-! ## The two ways of writing -/

/-- An object and the array of the same two parts stand for the same strategy. -/
theorem StrategySpec.written_object_iff_array {ms : List (String × Json)} {type count : Json}
    (htype : Sole ms "type" type) (hcount : Sole ms "count" count) (s : StrategySpec) :
    s.Written (.object ms) ↔ s.Written (.array [type, count]) := by
  constructor
  · rintro ⟨ht, hc, hcounts⟩
    obtain rfl := htype.eq_of_sole ht
    obtain rfl := hcount.eq_of_sole hc
    exact .array hcounts
  · rintro (_ | hcounts)
    exact .object htype hcount hcounts

/-- So they do for a specification. -/
theorem PolicySpec.written_object_iff_array {ms : List (String × Json)} {strategy labels : Json}
    (hstrategy : Sole ms "strategy" strategy) (hlabels : Sole ms "labels" labels)
    (s : PolicySpec) : s.Written (.object ms) ↔ s.Written (.array [strategy, labels]) := by
  constructor
  · rintro (⟨hw, hl, hs, hlabeled⟩ | ⟨-, habsent, -, -⟩)
    · obtain rfl := hstrategy.eq_of_sole hw
      obtain rfl := hlabels.eq_of_sole hl
      exact .array hs hlabeled
    · exact absurd rfl (habsent _ hlabels.mem)
  · rintro (_ | _ | ⟨hs, hl⟩)
    exact .object hstrategy hlabels hs hl

/-- **The grammar of policy specifications.** A value is accepted as a strategy, or as a
specification, exactly if it stands for one, and what it stands for is what is read. Nothing out of
which an accepted value is read is a `null`, a real number, or an integer of more than 32 bits. An
object and the array of the same two parts are read alike. -/
theorem PolicySpec.accepts_grammar :
    (∀ j s, StrategySpec.ofJson j = .ok s ↔ s.Written j) ∧
    (∀ j s, ofJson j = .ok s ↔ s.Written j) ∧
    (∀ v s, ofJson v = .ok s → ∀ j, Part v j → ¬ Refused j) ∧
    (∀ ms type count, Sole ms "type" type → Sole ms "count" count → ∀ s,
      StrategySpec.ofJson (.object ms) = .ok s ↔
        StrategySpec.ofJson (.array [type, count]) = .ok s) ∧
    ∀ ms strategy labels, Sole ms "strategy" strategy → Sole ms "labels" labels → ∀ s,
      ofJson (.object ms) = .ok s ↔ ofJson (.array [strategy, labels]) = .ok s := by
  refine ⟨fun _ _ => StrategySpec.ofJson_eq_ok_iff, fun _ _ => ofJson_eq_ok_iff,
    fun v s hv j => not_refused_of_part (ofJson_eq_ok_iff.1 hv), ?_, ?_⟩
  · intro ms type count htype hcount s
    simp only [StrategySpec.ofJson_eq_ok_iff]
    exact StrategySpec.written_object_iff_array htype hcount s
  · intro ms strategy labels hstrategy hlabels s
    simp only [ofJson_eq_ok_iff]
    exact written_object_iff_array hstrategy hlabels s

/-- Two nodes, the newest ones, become edge nodes. -/
def PolicySpec.edgeSpec : PolicySpec where
  strategy := ⟨"newest", 2⟩
  labels := .ofList [("role", "edge")]

/-- A strategy in its short form stands inside of an object with a member that nobody asks for; with
one node more than there can be it is refused. -/
theorem PolicySpec.accepts_grammar_edgeSpec :
    ofJson (.object [("labels", .object [("role", .string "edge")]), ("note", .null),
      ("strategy", .array [.string "newest", .int 2])]) = .ok edgeSpec ∧
    ofJson (.array [.array [.string "newest", .int 2], .object [("role", .string "edge")]]) =
      .ok edgeSpec ∧
    ∀ s, ofJson (.array [.array [.string "newest", .int 2147483648]]) ≠ .ok s := by
  obtain ⟨-, haccepts, hrefuses, -, halike⟩ := accepts_grammar
  have hstrategy : edgeSpec.strategy.Written (.array [.string "newest", .int 2]) :=
    .array ⟨2, rfl, by decide, by decide, by decide⟩
  have hlabels : edgeSpec.labels.Written (.object [("role", .string "edge")]) :=
    ⟨[("role", "edge")], rfl, rfl⟩
  have harray := (haccepts _ edgeSpec).2 (.array hstrategy hlabels)
  refine ⟨(halike _ _ _ ?_ ?_ _).2 harray, harray, fun s hs => ?_⟩
  · exact ⟨[("labels", _), ("note", .null)], [], rfl, by simp⟩
  · exact ⟨[], [("note", .null), ("strategy", _)], rfl, by simp⟩
  · have hcount : Part (.array [.array [.string "newest", .int 2147483648]]) (.int 2147483648) :=
      .inr (.inl ⟨_, rfl, .inr (.inr rfl)⟩)
    exact hrefuses _ s hs _ hcount (.inr (.inr ⟨_, rfl, .inr (by decide)⟩))

end FleetLabels
