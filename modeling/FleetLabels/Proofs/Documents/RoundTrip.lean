import FleetLabels.Proofs.Documents.JsonText
import FleetLabels.Proofs.Documents.Objects

/-!
# Documents as texts

Policies are written as JSON values, and these as texts. No document of a policy holds a value that
a text cannot denote, so a policy survives on both levels: the text of its document denotes the
document, and the reader makes of that what was written, up to fractions of a second.

The metadata of other objects can hold values that are kept as they are, and a number of these may
be a real whose text denotes another real. `ManagedMetadata.Legible` leaves these out.

## Main results

* `Policy.isLegible_toJson`, `ManagedMetadata.isLegible_toJson` — there is a text for every written
  document.
* `Policy.survives_writing` — a policy that was read can be written and read again without end, and
  loses nothing but fractions of a second, and those at the first time.
-/

namespace FleetLabels

namespace Json

theorem membersLegible_append (ms ms' : List (String × Json)) :
    membersLegible (ms ++ ms') = (membersLegible ms && membersLegible ms') := by
  induction ms with
  | nil => simp [membersLegible]
  | cons e ms ih =>
      obtain ⟨key, value⟩ := e
      simp [membersLegible, ih, Bool.and_assoc]

theorem isLegible_bool (b : Bool) : (Json.bool b).isLegible = true := rfl

theorem isLegible_string (s : String) : (Json.string s).isLegible = true := rfl

theorem isLegible_array_map {α : Type} {write : α → Json} {l : List α}
    (h : ∀ a ∈ l, (write a).isLegible = true) : (Json.array (l.map write)).isLegible = true := by
  rw [isLegible, itemsLegible_iff]
  intro item hitem
  obtain ⟨a, ha, rfl⟩ := List.mem_map.1 hitem
  exact h a ha

theorem isLegible_strings (l : List String) : (strings l).isLegible = true :=
  isLegible_array_map fun s _ => isLegible_string s

theorem isLegible_ofKeyMap (m : KeyMap String) : (ofKeyMap m).isLegible = true := by
  rw [ofKeyMap, isLegible, membersLegible_iff]
  intro e he
  obtain ⟨_, -, rfl⟩ := List.mem_map.1 he
  rfl

theorem isLegible_int {n : Int} (hlow : -9223372036854775808 ≤ n)
    (hhigh : n ≤ 18446744073709551615) : (Json.int n).isLegible = true := by
  have hrange : -(maxNegative : Int) ≤ n ∧ n ≤ maxSignificand := by
    simp only [maxNegative, maxSignificand]
    omega
  simp [isLegible, hrange]

theorem isLegible_int64 (n : Int64) : (Json.int n.toInt).isLegible = true := by
  have hlow := n.le_toInt
  have hhigh := n.toInt_lt
  exact isLegible_int (by omega) (by omega)

theorem isLegible_int32 (n : Int32) : (Json.int n.toInt).isLegible = true := by
  have hlow := n.le_toInt
  have hhigh := n.toInt_lt
  exact isLegible_int (by omega) (by omega)

end Json

open Json

namespace Document

variable {α : Type} {write : α → Json}

theorem membersLegible_entry_of_mem {o : Option α} (h : ∀ a ∈ o, (write a).isLegible = true)
    (key : String) : membersLegible (entry key write o) = true := by
  cases o with
  | none => rfl
  | some a => simp [entry, membersLegible, h a rfl]

theorem membersLegible_entry (h : ∀ a, (write a).isLegible = true) (key : String) (o : Option α) :
    membersLegible (entry key write o) = true :=
  membersLegible_entry_of_mem (fun a _ => h a) key

/-- A time is written as a text. -/
theorem membersLegible_instant (key : String) (o : Option Instant) :
    membersLegible (entry key (.string ·.text) o) = true :=
  membersLegible_entry (fun t => isLegible_string t.text) key o

end Document

open Document

/-! ## Written objects -/

theorem OwnerReference.isLegible_toJson (r : OwnerReference) : r.toJson.isLegible = true := by
  simp [toJson, isLegible, membersLegible, membersLegible_append,
    membersLegible_entry isLegible_bool]

/-- There is a text that denotes the value that is kept. -/
def ManagedFields.Legible (f : ManagedFields) : Prop :=
  ∀ v ∈ f.fieldsV1, v.json.isLegible = true

theorem ManagedFields.isLegible_toJson {f : ManagedFields} (h : f.Legible) :
    f.toJson.isLegible = true := by
  simp only [toJson, isLegible, membersLegible_append, membersLegible_entry isLegible_string,
    membersLegible_entry_of_mem h, membersLegible_instant, Bool.and_self]

/-- There are texts that denote the values that are kept. -/
def ManagedMetadata.Legible (m : ManagedMetadata) : Prop :=
  ∀ l ∈ m.managedFields, ∀ f ∈ l, f.Legible

theorem ManagedMetadata.isLegible_toJson {m : ManagedMetadata} (h : m.Legible) :
    m.toJson.isLegible = true := by
  have hfields : ∀ l ∈ m.managedFields,
      (Json.array (l.map ManagedFields.toJson)).isLegible = true := fun l hl =>
    isLegible_array_map fun f hf => f.isLegible_toJson (h l hl f hf)
  have hreferences (l : List OwnerReference) :
      (Json.array (l.map OwnerReference.toJson)).isLegible = true :=
    isLegible_array_map fun r _ => r.isLegible_toJson
  simp only [toJson, isLegible, membersLegible_append,
    membersLegible_entry isLegible_ofKeyMap, membersLegible_entry isLegible_strings,
    membersLegible_entry isLegible_string, membersLegible_entry isLegible_int64,
    membersLegible_entry hreferences, membersLegible_entry_of_mem hfields, membersLegible_instant,
    Bool.and_self]

theorem Metadata.isLegible_toJson (m : Metadata) : m.toJson.isLegible = true :=
  ManagedMetadata.isLegible_toJson fun _ hl => nomatch hl

theorem StrategySpec.isLegible_toJson (s : StrategySpec) : s.toJson.isLegible = true := by
  have hcount := isLegible_int32 s.count
  rw [toJson, isLegible]
  simp only [membersLegible, hcount]
  rfl

theorem PolicySpec.isLegible_toJson (s : PolicySpec) : s.toJson.isLegible = true := by
  rw [toJson, isLegible]
  simp only [membersLegible, isLegible_ofKeyMap, s.strategy.isLegible_toJson]
  rfl

theorem PolicyStatus.isLegible_toJson (s : PolicyStatus) : s.toJson.isLegible = true := by
  simp only [toJson, isLegible, membersLegible_append, membersLegible_instant, membersLegible,
    isLegible_strings, Bool.and_self]

theorem Policy.isLegible_toJson (p : Policy) : p.toJson.isLegible = true := by
  rw [toJson, isLegible, membersLegible_append, membersLegible_entry PolicyStatus.isLegible_toJson]
  simp only [membersLegible, p.metadata.isLegible_toJson, p.spec.isLegible_toJson]
  rfl

/-! ## Reading again -/

namespace Policy

/-- The document of `p`, as a value and as a text, is read as `q`. -/
def RereadAs (p q : Policy) : Prop :=
  ofJson p.toJson = .ok q ∧ (Json.read? p.toJson.text).map ofJson = some (.ok q)

theorem rereadAs_wholeSeconds {p : Policy} (h : ∀ t ∈ p.times, t.isInRange = true) :
    p.RereadAs p.wholeSeconds := by
  have hread := ofJson_toJson h
  constructor
  · exact hread
  · rw [Json.read?_text p.isLegible_toJson, Option.map_some, hread]

end Policy

/-- **Policies survive being written.** A policy whose times are whole seconds is read back from its
document as it is. What was read from any document can be written, and is then read without its
fractions of a second, which leaves the same document when it is written again. -/
theorem Policy.survives_writing :
    (∀ p : Policy, (∀ t ∈ p.times, t.isInRange = true ∧ t.wholeSecond = t) → p.RereadAs p) ∧
      ∀ (j : Json) (p : Policy), ofJson j = .ok p →
        p.RereadAs p.wholeSeconds ∧ p.wholeSeconds.toJson = p.toJson := by
  constructor
  · intro p h
    have hreread := rereadAs_wholeSeconds fun t ht => (h t ht).1
    rw [wholeSeconds_eq fun t ht => (h t ht).2] at hreread
    exact hreread
  · intro j p hread
    exact ⟨rereadAs_wholeSeconds (gives_ofJson j p hread), toJson_wholeSeconds p⟩

/-- A policy as arrays of its fields: created in a leap second, on a clock five hours behind, with
empty labels, no annotations, and a status that selects nothing. -/
def Policy.leapSecondDocument : Json :=
  .array [
    .object [("name", .string "web"), ("labels", .object []), ("annotations", .null),
      ("creationTimestamp", .string "2016-12-31 18:59:60.25-05:00")],
    .array [.array [.string "oldest", .int (-1)]],
    .array [.array [], .string "2017-01-01T00:00:00.5Z"]]

/-- The policy that the document describes. -/
def Policy.leapSecond : Policy where
  metadata :=
    { name := some "web", labels := some .empty,
      creationTimestamp := some (.atMinute ⟨2016, 12, 31, by decide, by decide⟩ 1439
        (Instant.secondOf 60) (Instant.nanosOf 250000000)) }
  spec := { strategy := { type := "oldest", count := -1 } }
  status := some
    { lastReconcileTime := some (.atMinute ⟨2017, 1, 1, by decide, by decide⟩ 0
        (Instant.secondOf 0) (Instant.nanosOf 500000000)) }

theorem Policy.survives_writing_leapSecond :
    ofJson leapSecondDocument = .ok leapSecond ∧ leapSecond.wholeSeconds ≠ leapSecond ∧
      leapSecond.RereadAs leapSecond.wholeSeconds ∧
        leapSecond.wholeSeconds.RereadAs leapSecond.wholeSeconds := by
  have hread : ofJson leapSecondDocument = .ok leapSecond := by rfl
  have hreread := survives_writing.2 leapSecondDocument leapSecond hread
  have hwhole := survives_writing.1 leapSecond.wholeSeconds (by decide +kernel)
  exact ⟨hread, by decide +kernel, hreread.1, hwhole⟩

end FleetLabels
