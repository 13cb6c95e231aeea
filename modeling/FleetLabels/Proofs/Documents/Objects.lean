import FleetLabels.Proofs.Documents.Instants

/-!
# Policies survive being written

A policy is read from a document, kept as a value, and written back as a document. This module says
that nothing is lost on the way but fractions of a second, which the written form of a time does not
have: a field that is absent stays absent, an empty list or map stays there and empty, and a status
without a time does not get one.

The metadata of a policy is that of any object of the cluster without the notes of who manages its
fields, and is written as such. So its lemmas are those of `ManagedMetadata`, which nodes need too.

## Main results

* `ManagedMetadata.reads_toJson`, `Policy.ofJson_toJson` — what was written is read back.
* `Policy.toJson_wholeSeconds` — fractions of a second are not written.
* `ManagedMetadata.gives_ofJson`, `Policy.gives_ofJson` — the calendar of the reader has the years of
  all times of what was read.
-/

namespace FleetLabels

open Document

theorem OwnerReference.ofJson_toJson (r : OwnerReference) : ofJson r.toJson = .ok r := by
  simp only [toJson, ofJson, optional_eq, stringOrEmpty_eq, valuesAt_append, valuesAt_cons,
    valuesAt_nil, valuesAt_entry, String.reduceEq, if_true, if_false, List.nil_append,
    List.append_nil, lastOf_self reads_boolean, lastOf_single (reads_string _), ok_bind, map_ok,
    Option.getD_some]

/-! ## Times in lists -/

section Times

variable {α : Type} {times : α → List Instant} {whole : α → α} {o : Option (List α)}

theorem mem_listedTimes_iff {t : Instant} :
    t ∈ (o.getD []).flatMap times ↔ ∃ l ∈ o, ∃ a ∈ l, t ∈ times a := by
  cases o with
  | none => simp
  | some l => simp

/-- Items without fractions of a second make up a list without them. -/
theorem map_whole_eq (hwhole : ∀ a, (∀ t ∈ times a, t.wholeSecond = t) → whole a = a)
    (h : ∀ t ∈ (o.getD []).flatMap times, t.wholeSecond = t) : o.map (List.map whole) = o := by
  cases o with
  | none => rfl
  | some l =>
      have hitems : ∀ a ∈ l, whole a = id a := fun a ha => hwhole a fun t ht =>
        h t (mem_listedTimes_iff.2 ⟨l, rfl, a, ha, ht⟩)
      rw [Option.map_some, List.map_congr_left hitems, List.map_id]

/-- A list of items with times is read item by item. -/
theorem lastOf_timed {read : Json → Except Fault α} {write : α → Json}
    (hread : ∀ a, (∀ t ∈ times a, t.isInRange = true) → read (write a) = .ok (whole a))
    (h : ∀ t ∈ (o.getD []).flatMap times, t.isInRange = true) :
    lastOf (list read) (o.map (.array <| ·.map write)).toList = .ok (o.map (List.map whole)) := by
  refine lastOf_entry fun l hl => reads_list_map fun a ha => hread a fun t ht => h t ?_
  exact mem_listedTimes_iff.2 ⟨l, hl, a, ha, ht⟩

end Times

/-! ## Metadata -/

namespace Metadata

/-- The times of an object. -/
def times (m : Metadata) : List Instant :=
  m.creationTimestamp.toList ++ m.deletionTimestamp.toList

/-- The metadata without fractions of a second. -/
def wholeSeconds (m : Metadata) : Metadata :=
  { m with creationTimestamp := m.creationTimestamp.map Instant.wholeSecond
           deletionTimestamp := m.deletionTimestamp.map Instant.wholeSecond }

theorem mem_times_iff {m : Metadata} {t : Instant} :
    t ∈ m.times ↔ m.creationTimestamp = some t ∨ m.deletionTimestamp = some t := by
  simp [times]

theorem wholeSeconds_eq {m : Metadata} (h : ∀ t ∈ m.times, t.wholeSecond = t) :
    m.wholeSeconds = m := by
  have hcreation := Instant.map_wholeSecond fun t ht => h t (mem_times_iff.2 (.inl ht))
  have hdeletion := Instant.map_wholeSecond fun t ht => h t (mem_times_iff.2 (.inr ht))
  simp only [wholeSeconds, hcreation, hdeletion]

end Metadata

namespace ManagedFields

/-- The time of a note of managed fields. -/
def times (f : ManagedFields) : List Instant :=
  f.time.toList

/-- The note without fractions of a second. -/
def wholeSeconds (f : ManagedFields) : ManagedFields :=
  { f with time := f.time.map Instant.wholeSecond }

theorem wholeSeconds_eq (f : ManagedFields) (h : ∀ t ∈ f.times, t.wholeSecond = t) :
    f.wholeSeconds = f := by
  have htime := Instant.map_wholeSecond fun t ht => h t (Option.mem_toList.2 ht)
  simp only [wholeSeconds, htime]

theorem ofJson_toJson (f : ManagedFields) (h : ∀ t ∈ f.times, t.isInRange = true) :
    ofJson f.toJson = .ok f.wholeSeconds := by
  have htime : ∀ t ∈ f.time, t.isInRange = true := fun t ht => h t (Option.mem_toList.2 ht)
  simp only [toJson, ofJson, optional_eq, valuesAt_append, valuesAt_entry, String.reduceEq,
    if_true, if_false, List.nil_append, List.append_nil, lastOf_self reads_string,
    lastOf_self reads_value, lastOf_instant htime, ok_bind, wholeSeconds]

theorem gives_ofJson (j : Json) :
    Gives (fun f : ManagedFields => ∀ t ∈ f.times, t.isInRange = true) (ofJson j) := by
  cases j with
  | object ms =>
      refine gives_of_bind fun _ => gives_of_bind fun _ => gives_of_bind fun _ =>
        gives_of_bind fun _ => gives_of_bind fun _ => gives_of_bind fun _ =>
        gives_bind (gives_optional gives_instant) fun time htime => gives_ok ?_
      intro t ht
      exact htime t (Option.mem_toList.1 ht)
  | _ => exact gives_error _

end ManagedFields

namespace ManagedMetadata

/-- The times of an object, with those of its managed fields. -/
def times (m : ManagedMetadata) : List Instant :=
  m.toMetadata.times ++ (m.managedFields.getD []).flatMap ManagedFields.times

/-- The metadata without fractions of a second. -/
def wholeSeconds (m : ManagedMetadata) : ManagedMetadata where
  toMetadata := m.toMetadata.wholeSeconds
  managedFields := m.managedFields.map (List.map ManagedFields.wholeSeconds)

theorem wholeSeconds_eq {m : ManagedMetadata} (h : ∀ t ∈ m.times, t.wholeSecond = t) :
    m.wholeSeconds = m := by
  have hmetadata := Metadata.wholeSeconds_eq fun t ht => h t (List.mem_append_left _ ht)
  have hfields := map_whole_eq ManagedFields.wholeSeconds_eq fun t ht =>
    h t (List.mem_append_right _ ht)
  simp only [wholeSeconds, hmetadata, hfields]

theorem reads_toJson {m : ManagedMetadata} (h : ∀ t ∈ m.times, t.isInRange = true) :
    Reads ofJson m.toJson m.wholeSeconds := by
  have hmetadata : ∀ t ∈ m.toMetadata.times, t.isInRange = true := by
    intro t ht
    exact h t (List.mem_append_left _ ht)
  have hcreation : ∀ t ∈ m.creationTimestamp, t.isInRange = true := by
    intro t ht
    exact hmetadata t (Metadata.mem_times_iff.2 (.inl ht))
  have hdeletion : ∀ t ∈ m.deletionTimestamp, t.isInRange = true := by
    intro t ht
    exact hmetadata t (Metadata.mem_times_iff.2 (.inr ht))
  have hfields := lastOf_timed ManagedFields.ofJson_toJson fun t ht =>
    h t (List.mem_append_right _ ht)
  have hreferences : ∀ l, Reads (list OwnerReference.ofJson)
      (.array (l.map OwnerReference.toJson)) l := reads_list OwnerReference.ofJson_toJson
  refine reads_object ?_
  simp only [ofJson, optional_eq, valuesAt_append, valuesAt_entry, String.reduceEq,
    if_true, if_false, List.nil_append, List.append_nil, lastOf_self reads_ofKeyMap,
    lastOf_self reads_strings, lastOf_self reads_string, lastOf_self reads_int64,
    lastOf_self hreferences, lastOf_instant hcreation, lastOf_instant hdeletion, hfields, ok_bind,
    wholeSeconds, Metadata.wholeSeconds]

theorem gives_ofJson (j : Json) :
    Gives (fun m : ManagedMetadata => ∀ t ∈ m.times, t.isInRange = true) (ofJson j) := by
  cases j with
  | object ms =>
      refine gives_of_bind fun _ =>
        gives_bind (gives_optional gives_instant) fun creation hcreation => gives_of_bind fun _ =>
        gives_bind (gives_optional gives_instant) fun deletion hdeletion => ?_
      refine gives_of_bind fun _ => gives_of_bind fun _ => gives_of_bind fun _ =>
        gives_of_bind fun _ =>
        gives_bind (gives_optional (gives_list ManagedFields.gives_ofJson)) fun fields hfields => ?_
      refine gives_of_bind fun _ => gives_of_bind fun _ => gives_of_bind fun _ =>
        gives_of_bind fun _ => gives_of_bind fun _ => gives_of_bind fun _ => gives_ok ?_
      intro t ht
      rcases List.mem_append.1 ht with ht | ht
      · cases Metadata.mem_times_iff.1 ht with
        | inl ht => exact hcreation t ht
        | inr ht => exact hdeletion t ht
      · obtain ⟨l, hl, f, hf, ht⟩ := mem_listedTimes_iff.1 ht
        exact hfields l hl f hf t ht
  | _ => exact gives_error _

end ManagedMetadata

namespace Metadata

theorem reads_toJson {m : Metadata} (h : ∀ t ∈ m.times, t.isInRange = true) :
    Reads ofJson m.toJson m.wholeSeconds := by
  have htimes : ∀ t ∈ ManagedMetadata.times { toMetadata := m }, t.isInRange = true := by
    intro t ht
    exact h t (by simpa [ManagedMetadata.times] using ht)
  have hread := ManagedMetadata.reads_toJson htimes
  constructor
  · rw [ofJson, toJson, hread.1, map_ok]
    rfl
  · exact hread.2

theorem wholeSeconds_wholeSeconds (m : Metadata) :
    m.wholeSeconds.wholeSeconds = m.wholeSeconds := by
  simp only [wholeSeconds, Option.map_map, Function.comp_def, Instant.wholeSecond_wholeSecond]

theorem toJson_wholeSeconds (m : Metadata) : m.wholeSeconds.toJson = m.toJson := by
  simp only [toJson, ManagedMetadata.toJson, wholeSeconds, entry_wholeSecond]

theorem gives_ofJson (j : Json) :
    Gives (fun m : Metadata => ∀ t ∈ m.times, t.isInRange = true) (ofJson j) :=
  gives_map (ManagedMetadata.gives_ofJson j) fun _ hm t ht => hm t (List.mem_append_left _ ht)

end Metadata

/-! ## Policies -/

theorem StrategySpec.ofJson_toJson (s : StrategySpec) : ofJson s.toJson = .ok s := by
  simp only [toJson, ofJson, once_eq, valuesAt_cons, valuesAt_nil, String.reduceEq, if_true,
    if_false, onlyOf_single (int32_toInt _), onlyOf_single (reads_string _).1, required, ok_bind]

theorem PolicySpec.ofJson_toJson (s : PolicySpec) : ofJson s.toJson = .ok s := by
  simp only [toJson, ofJson, once_eq, valuesAt_cons, valuesAt_nil, String.reduceEq, if_true,
    if_false, onlyOf_single (reads_ofKeyMap _).1, onlyOf_single (StrategySpec.ofJson_toJson _),
    required, ok_bind, Option.getD_some]

namespace PolicyStatus

/-- The status without fractions of a second. -/
def wholeSeconds (s : PolicyStatus) : PolicyStatus :=
  { s with lastReconcileTime := s.lastReconcileTime.map Instant.wholeSecond }

theorem reads_toJson {s : PolicyStatus} (h : ∀ t ∈ s.lastReconcileTime, t.isInRange = true) :
    Reads ofJson s.toJson s.wholeSeconds := by
  refine reads_object ?_
  simp only [ofJson, once_eq, optionalOnce_eq, valuesAt_append, valuesAt_cons,
    valuesAt_nil, valuesAt_entry, String.reduceEq, if_true, if_false, List.nil_append,
    List.append_nil, onlyOf_instant h, onlyOf_single (reads_strings _).1, ok_bind,
    Option.getD_some, wholeSeconds]

theorem toJson_wholeSeconds (s : PolicyStatus) : s.wholeSeconds.toJson = s.toJson := by
  simp only [toJson, wholeSeconds, entry_wholeSecond]

theorem gives_ofJson (j : Json) :
    Gives (fun s : PolicyStatus => ∀ t ∈ s.lastReconcileTime, t.isInRange = true) (ofJson j) := by
  cases j with
  | object ms =>
      exact gives_bind (gives_optionalOnce gives_instant) fun _ ht => gives_of_bind fun _ =>
        gives_ok ht
  | array items =>
      exact gives_of_bind fun _ => gives_bind (gives_item (gives_nullable gives_instant))
        fun _ ht => gives_of_bind fun _ => gives_ok ht
  | _ => exact gives_error _

end PolicyStatus

namespace Policy

/-- The times of a policy. -/
def times (p : Policy) : List Instant :=
  p.metadata.times ++ (p.status.bind (·.lastReconcileTime)).toList

/-- The policy without fractions of a second. -/
def wholeSeconds (p : Policy) : Policy :=
  { p with metadata := p.metadata.wholeSeconds, status := p.status.map PolicyStatus.wholeSeconds }

theorem mem_times_iff {p : Policy} {t : Instant} :
    t ∈ p.times ↔ t ∈ p.metadata.times ∨ ∃ s, p.status = some s ∧ s.lastReconcileTime = some t := by
  simp [times, Option.bind_eq_some_iff]

theorem wholeSeconds_eq {p : Policy} (h : ∀ t ∈ p.times, t.wholeSecond = t) :
    p.wholeSeconds = p := by
  have hmetadata := Metadata.wholeSeconds_eq fun t ht => h t (mem_times_iff.2 (.inl ht))
  have hstatus : p.status.map PolicyStatus.wholeSeconds = p.status := by
    cases hs : p.status with
    | none => rfl
    | some s =>
        have htime := Instant.map_wholeSecond fun t ht => h t (mem_times_iff.2 (.inr ⟨s, hs, ht⟩))
        simp only [Option.map_some, PolicyStatus.wholeSeconds, htime]
  simp only [wholeSeconds, hmetadata, hstatus]

theorem ofJson_toJson {p : Policy} (h : ∀ t ∈ p.times, t.isInRange = true) :
    ofJson p.toJson = .ok p.wholeSeconds := by
  have hmetadata : ∀ t ∈ p.metadata.times, t.isInRange = true := by
    intro t ht
    exact h t (mem_times_iff.2 (.inl ht))
  have hstatus : ∀ s ∈ p.status, Reads PolicyStatus.ofJson s.toJson s.wholeSeconds := by
    intro s hs
    apply PolicyStatus.reads_toJson
    intro t ht
    exact h t (mem_times_iff.2 (.inr ⟨s, hs, ht⟩))
  simp only [toJson, ofJson, once_eq, optionalOnce_eq, valuesAt_append, valuesAt_cons,
    valuesAt_nil, valuesAt_entry, String.reduceEq, if_true, if_false, List.nil_append,
    List.append_nil, onlyOf_single (Metadata.reads_toJson hmetadata).1,
    onlyOf_single (PolicySpec.ofJson_toJson _), onlyOf_entry hstatus, required, ok_bind,
    wholeSeconds]

theorem toJson_wholeSeconds (p : Policy) : p.wholeSeconds.toJson = p.toJson := by
  have hstatus : entry "status" PolicyStatus.toJson p.wholeSeconds.status =
      entry "status" PolicyStatus.toJson p.status := by
    cases hs : p.status with
    | none => simp only [wholeSeconds, hs, Option.map_none]
    | some s =>
        simp only [wholeSeconds, hs, Option.map_some, entry, PolicyStatus.toJson_wholeSeconds]
  simp only [toJson, hstatus]
  simp only [wholeSeconds, Metadata.toJson_wholeSeconds]

/-- The calendar of the reader has the years of all times of a policy that was read. -/
theorem gives_ofJson (j : Json) :
    Gives (fun p : Policy => ∀ t ∈ p.times, t.isInRange = true) (ofJson j) := by
  have htimes {m : Metadata} {s : Option PolicyStatus} (spec : PolicySpec)
      (hm : ∀ t ∈ m.times, t.isInRange = true)
      (hs : ∀ st ∈ s, ∀ t ∈ st.lastReconcileTime, t.isInRange = true) :
      ∀ t ∈ Policy.times ⟨m, spec, s⟩, t.isInRange = true := by
    intro t ht
    cases mem_times_iff.1 ht with
    | inl ht => exact hm t ht
    | inr ht =>
        obtain ⟨st, hst, ht⟩ := ht
        exact hs st hst t ht
  cases j with
  | object ms =>
      refine gives_bind (gives_once Metadata.gives_ofJson) fun _ hm => gives_of_bind fun _ =>
        gives_bind (gives_optionalOnce PolicyStatus.gives_ofJson) fun _ hs => ?_
      exact gives_bind (gives_required hm) fun _ hm => gives_of_bind fun spec =>
        gives_ok (htimes spec hm hs)
  | array items =>
      exact gives_bind (gives_item Metadata.gives_ofJson) fun _ hm => gives_of_bind fun spec =>
        gives_bind (gives_item (gives_nullable PolicyStatus.gives_ofJson)) fun _ hs =>
          gives_of_bind fun _ => gives_ok (htimes spec hm hs)
  | _ => exact gives_error _

end Policy

end FleetLabels
