import FleetLabels.Proofs.Documents.RoundTrip
import FleetLabels.Store.Request

/-!
# Merge patches

A status is written as a patch that the cluster merges into the policy it holds: members of the
patch replace members of the document, object into object, `null` takes a member away, and what the
patch does not mention stays (RFC 7386). So what a status write leaves behind depends on what the
writer leaves out. It never leaves out the selection, which an older one would otherwise survive;
and it leaves out the time when there is none, so that an older time stays.

## Main results

* `Json.valuesAt_putMember` — which members a patch reaches.
* `Json.isLegible_mergePatch` — a merged document has a text if both parts have.
* `Json.mergePatch_mergePatch` — a patch that names its keys once can be merged twice like once.
* `Policy.ofJson_mergePatch` — what a status write makes of a policy document.
-/

namespace FleetLabels

open Document

namespace Json

/-- The members with `key` bound to `value`, in the place of the first member of that key. -/
def putMember (key : String) (value : Json) : List (String × Json) → List (String × Json)
  | [] => [(key, value)]
  | (k, v) :: rest => if k = key then (key, value) :: rest else (k, v) :: putMember key value rest

/-- The members without those of a key. -/
def removeMember (key : String) (ms : List (String × Json)) : List (String × Json) :=
  ms.filter (·.1 != key)

mutual

/-- The document with a patch merged into it. -/
def mergePatch (target : Json) : Json → Json
  | .object patch => .object (mergeMembers target.members patch)
  | patch => patch

/-- The members of an object with the members of a patch merged into them. -/
def mergeMembers (ms : List (String × Json)) : List (String × Json) → List (String × Json)
  | [] => ms
  | (key, .null) :: rest => mergeMembers (removeMember key ms) rest
  | (key, patch) :: rest =>
      mergeMembers (putMember key (((ms.lookup key).getD .null).mergePatch patch) ms) rest

end

/-! ## Members -/

theorem lookup_eq (ms : List (String × Json)) (key : String) :
    ms.lookup key = (valuesAt ms key).head? := by
  induction ms with
  | nil => rfl
  | cons e ms ih =>
      obtain ⟨k, v⟩ := e
      rw [Entries.lookup_cons, valuesAt_cons]
      by_cases hk : k = key
      · simp [hk]
      · simp [hk, Ne.symm hk, ih]

/-- A member that is there at most once is replaced, and all others are left alone. -/
theorem valuesAt_putMember {ms : List (String × Json)} {key : String}
    (honce : (valuesAt ms key).length ≤ 1) (value : Json) (k : String) :
    valuesAt (putMember key value ms) k = if key = k then [value] else valuesAt ms k := by
  induction ms with
  | nil => rw [putMember, valuesAt_cons, valuesAt_nil]
  | cons e ms ih =>
      obtain ⟨k', v⟩ := e
      rw [valuesAt_cons] at honce
      by_cases hkey : k' = key
      · subst hkey
        have hnone : valuesAt ms k' = [] := by
          simpa using honce
        rw [putMember, if_pos rfl, valuesAt_cons, valuesAt_cons]
        by_cases hk : k' = k
        · subst hk
          simp [hnone]
        · simp [hk]
      · rw [if_neg hkey] at honce
        rw [putMember, if_neg hkey, valuesAt_cons, valuesAt_cons, ih honce]
        by_cases hk : k' = k
        · subst hk
          simp [Ne.symm hkey]
        · simp [hk]

theorem membersLegible_putMember {ms : List (String × Json)} {value : Json} (key : String)
    (hms : membersLegible ms = true) (hvalue : value.isLegible = true) :
    membersLegible (putMember key value ms) = true := by
  induction ms with
  | nil => simp [putMember, membersLegible, hvalue]
  | cons e ms ih =>
      obtain ⟨k, v⟩ := e
      simp only [membersLegible, Bool.and_eq_true] at hms
      rw [putMember]
      split
      · simp [membersLegible, hvalue, hms.2]
      · simp [membersLegible, hms.1, ih hms.2]

theorem membersLegible_removeMember {ms : List (String × Json)} (key : String)
    (hms : membersLegible ms = true) : membersLegible (removeMember key ms) = true := by
  rw [membersLegible_iff] at hms ⊢
  intro e he
  exact hms e (List.mem_filter.1 he).1

theorem isLegible_lookup {ms : List (String × Json)} (key : String)
    (hms : membersLegible ms = true) : ((ms.lookup key).getD .null).isLegible = true := by
  cases hvalue : ms.lookup key with
  | none => rfl
  | some value =>
      rw [lookup_eq] at hvalue
      have hmem : value ∈ valuesAt ms key := List.mem_of_head? hvalue
      obtain ⟨e, he, hsome⟩ := List.mem_filterMap.1 hmem
      split at hsome
      · cases hsome
        exact (membersLegible_iff ms).1 hms e he
      · cases hsome

theorem membersLegible_members {j : Json} (h : j.isLegible = true) :
    membersLegible j.members = true := by
  cases j with
  | object ms => exact h
  | _ => rfl

mutual

/-- There is a text for a merged document if there is one for both of its parts. -/
theorem isLegible_mergePatch {target : Json} (htarget : target.isLegible = true) :
    ∀ patch : Json, patch.isLegible = true → (target.mergePatch patch).isLegible = true
  | .object patch, h => by
      rw [mergePatch]
      exact membersLegible_mergeMembers (membersLegible_members htarget) patch h
  | .null, h => h
  | .bool _, h => h
  | .int _, h => h
  | .real _, h => h
  | .string _, h => h
  | .array _, h => h
  | .verbatim _, h => h

theorem membersLegible_mergeMembers {ms : List (String × Json)} (hms : membersLegible ms = true) :
    ∀ patch : List (String × Json), membersLegible patch = true →
      membersLegible (mergeMembers ms patch) = true
  | [], _ => hms
  | (key, value) :: rest, h => by
      simp only [membersLegible, Bool.and_eq_true] at h
      have hput := membersLegible_putMember key hms
        (isLegible_mergePatch (isLegible_lookup key hms) value h.1)
      cases value with
      | null =>
          rw [mergeMembers]
          exact membersLegible_mergeMembers (membersLegible_removeMember key hms) rest h.2
      | _ =>
          rw [mergeMembers]
          · exact membersLegible_mergeMembers hput rest h.2
          · intro heq
            cases heq

end

/-! ## Merging twice

A member of a patch that names its keys once is settled as soon as it has been merged: its key is
gone, or has a value that its own patch does not change. The other members do not touch its key. So
all members are settled in the end, and merging the patch again changes nothing.
-/

mutual

/-- No object of the patch names a key twice. -/
def NamesOnce : Json → Prop
  | .object patch => MembersOnce patch
  | _ => True

/-- The members are under keys of their own, and so are those of their values. -/
def MembersOnce : List (String × Json) → Prop
  | [] => True
  | (key, value) :: rest => (∀ e ∈ rest, e.1 ≠ key) ∧ NamesOnce value ∧ MembersOnce rest

end

section Lookups

variable {ms : List (String × Json)} {key : String} {value : Json}

theorem lookup_putMember (k : String) :
    (putMember key value ms).lookup k = if k = key then some value else ms.lookup k := by
  induction ms with
  | nil => rw [putMember, Entries.lookup_cons]
  | cons e ms ih =>
      obtain ⟨k', v⟩ := e
      rw [putMember]
      by_cases hkey : k' = key
      · subst hkey
        rw [if_pos rfl, Entries.lookup_cons, Entries.lookup_cons]
        by_cases hk : k = k' <;> simp [hk]
      · rw [if_neg hkey, Entries.lookup_cons, Entries.lookup_cons, ih]
        by_cases hk : k = k'
        · subst hk
          simp [hkey]
        · simp [hk]

theorem lookup_removeMember (k : String) :
    (removeMember key ms).lookup k = if k = key then none else ms.lookup k := by
  induction ms with
  | nil => simp [removeMember]
  | cons e ms ih =>
      obtain ⟨k', v⟩ := e
      rw [removeMember] at ih ⊢
      by_cases hkey : k' = key
      · subst hkey
        rw [List.filter_cons_of_neg (by simp), ih, Entries.lookup_cons]
        by_cases hk : k = k' <;> simp [hk]
      · rw [List.filter_cons_of_pos (by simpa using hkey), Entries.lookup_cons,
          Entries.lookup_cons, ih]
        by_cases hk : k = k'
        · subst hk
          simp [hkey]
        · simp [hk]

theorem putMember_of_lookup (h : ms.lookup key = some value) : putMember key value ms = ms := by
  induction ms with
  | nil => cases h
  | cons e ms ih =>
      obtain ⟨k, v⟩ := e
      rw [Entries.lookup_cons] at h
      rw [putMember]
      by_cases hk : k = key
      · subst hk
        rw [if_pos rfl] at h ⊢
        cases h
        rfl
      · rw [if_neg (Ne.symm hk)] at h
        rw [if_neg hk, ih h]

theorem removeMember_of_lookup (h : ms.lookup key = none) : removeMember key ms = ms := by
  rw [removeMember, List.filter_eq_self]
  intro e he
  have hne : key ≠ e.1 := bne_iff_ne.1 (List.lookup_eq_none_iff.1 h e he)
  exact bne_iff_ne.2 hne.symm

end Lookups

/-- The member of a patch changes nothing. -/
def Settled (ms : List (String × Json)) (e : String × Json) : Prop :=
  mergeMembers ms [e] = ms

/-- Members are merged one after the other. -/
theorem mergeMembers_cons (ms : List (String × Json)) (e : String × Json)
    (rest : List (String × Json)) :
    mergeMembers ms (e :: rest) = mergeMembers (mergeMembers ms [e]) rest := by
  obtain ⟨key, value⟩ := e
  cases value <;> simp [mergeMembers]

section Members

variable {ms : List (String × Json)} {key : String} {value : Json}

theorem mergeMembers_null : mergeMembers ms [(key, .null)] = removeMember key ms := by
  simp [mergeMembers]

theorem mergeMembers_value (h : value ≠ .null) :
    mergeMembers ms [(key, value)] =
      putMember key (((ms.lookup key).getD .null).mergePatch value) ms := by
  cases value with
  | null => exact absurd rfl h
  | _ => simp [mergeMembers]

/-- A member of a patch has no effect on other keys. -/
theorem lookup_mergeMembers_of_ne {e : String × Json} {k : String} (h : k ≠ e.1) :
    (mergeMembers ms [e]).lookup k = ms.lookup k := by
  obtain ⟨key, value⟩ := e
  by_cases hnull : value = .null
  · rw [hnull, mergeMembers_null, lookup_removeMember, if_neg h]
  · rw [mergeMembers_value hnull, lookup_putMember, if_neg h]

theorem settled_null_iff : Settled ms (key, .null) ↔ ms.lookup key = none := by
  rw [Settled, mergeMembers_null]
  constructor
  · intro h
    rw [← h, lookup_removeMember, if_pos rfl]
  · exact removeMember_of_lookup

theorem settled_value_iff (h : value ≠ .null) :
    Settled ms (key, value) ↔ ∃ old, ms.lookup key = some old ∧ old.mergePatch value = old := by
  rw [Settled, mergeMembers_value h]
  constructor
  · intro hsettled
    have hlookup : ms.lookup key = some (((ms.lookup key).getD .null).mergePatch value) := by
      conv_lhs => rw [← hsettled]
      exact (lookup_putMember key).trans (if_pos rfl)
    generalize hmerged : ((ms.lookup key).getD .null).mergePatch value = merged at hlookup
    rw [hlookup, Option.getD_some] at hmerged
    exact ⟨merged, hlookup, hmerged⟩
  · rintro ⟨old, hlookup, hmerge⟩
    rw [hlookup, Option.getD_some, hmerge]
    exact putMember_of_lookup hlookup

/-- What a member of a patch has settled, members with other keys leave so. -/
theorem Settled.merge {e e' : String × Json} (h : Settled ms e) (hne : e.1 ≠ e'.1) :
    Settled (mergeMembers ms [e']) e := by
  obtain ⟨key, value⟩ := e
  have hlookup : (mergeMembers ms [e']).lookup key = ms.lookup key := lookup_mergeMembers_of_ne hne
  by_cases hnull : value = .null
  · subst hnull
    rw [settled_null_iff] at h ⊢
    rw [hlookup, h]
  · rw [settled_value_iff hnull] at h ⊢
    rw [hlookup]
    exact h

theorem Settled.merges {e : String × Json} {rest : List (String × Json)} (h : Settled ms e)
    (hne : ∀ e' ∈ rest, e'.1 ≠ e.1) : Settled (mergeMembers ms rest) e := by
  induction rest generalizing ms with
  | nil => exact h
  | cons e' rest ih =>
      obtain ⟨hhead, hrest⟩ := List.forall_mem_cons.1 hne
      rw [mergeMembers_cons]
      exact ih (h.merge (Ne.symm hhead)) hrest

/-- A patch whose members are all settled changes nothing. -/
theorem mergeMembers_of_settled {patch : List (String × Json)}
    (h : ∀ e ∈ patch, Settled ms e) : mergeMembers ms patch = ms := by
  induction patch with
  | nil => rfl
  | cons e rest ih =>
      obtain ⟨hhead, hrest⟩ := List.forall_mem_cons.1 h
      rw [mergeMembers_cons, hhead, ih hrest]

end Members

mutual

/-- **Merging a patch again changes nothing.** -/
theorem mergePatch_mergePatch : ∀ patch : Json, NamesOnce patch → ∀ target : Json,
    (target.mergePatch patch).mergePatch patch = target.mergePatch patch
  | .object patch, h, target => by
      simp only [mergePatch, members]
      exact congrArg Json.object (mergeMembers_of_settled (settled_mergeMembers patch h _))
  | .null, _, _ => rfl
  | .bool _, _, _ => rfl
  | .int _, _, _ => rfl
  | .real _, _, _ => rfl
  | .string _, _, _ => rfl
  | .array _, _, _ => rfl
  | .verbatim _, _, _ => rfl

theorem settled_mergeMembers : ∀ patch : List (String × Json), MembersOnce patch →
    ∀ ms : List (String × Json), ∀ e ∈ patch, Settled (mergeMembers ms patch) e
  | [], _, _ => by simp
  | (key, value) :: rest, ⟨hkey, hvalue, hrest⟩, ms => by
      have hhead : Settled (mergeMembers ms [(key, value)]) (key, value) := by
        have hmerged := mergePatch_mergePatch value hvalue ((ms.lookup key).getD .null)
        by_cases hnull : value = .null
        · rw [hnull, mergeMembers_null, settled_null_iff, lookup_removeMember, if_pos rfl]
        · rw [mergeMembers_value hnull, settled_value_iff hnull, lookup_putMember, if_pos rfl]
          exact ⟨_, rfl, hmerged⟩
      have hrest := settled_mergeMembers rest hrest
      rw [mergeMembers_cons]
      exact List.forall_mem_cons.2 ⟨hhead.merges hkey, hrest _⟩

end

end Json

/-! ## Status writes -/

theorem Request.isLegible_statusPatch (status : PolicyStatus) :
    (statusPatch status).isLegible = true := by
  rw [statusPatch, Json.isLegible]
  simp only [Json.membersLegible, status.isLegible_toJson]
  rfl

theorem Request.namesOnce_statusPatch (status : PolicyStatus) :
    (statusPatch status).NamesOnce := by
  cases htime : status.lastReconcileTime <;>
    simp [statusPatch, PolicyStatus.toJson, htime, entry, Json.strings, Json.NamesOnce,
      Json.MembersOnce]

theorem optionalOnce_eq_ok {α : Type} {ms : List (String × Json)} {key : String}
    {read : Json → Except Fault α} {o : Option α} (h : optionalOnce ms key read = .ok o) :
    (valuesAt ms key = [] ∧ o = none) ∨ ∃ j, valuesAt ms key = [j] ∧ nullable read j = .ok o := by
  rw [optionalOnce_eq] at h
  cases hvalues : valuesAt ms key with
  | nil =>
      rw [hvalues] at h
      cases h
      exact .inl ⟨rfl, rfl⟩
  | cons j js =>
      right
      rw [hvalues] at h
      cases js with
      | cons _ _ => cases h
      | nil =>
          refine ⟨j, rfl, ?_⟩
          simp only [onlyOf] at h
          cases hread : nullable read j with
          | error e =>
              rw [hread] at h
              cases h
          | ok o' =>
              rw [hread] at h
              exact h

/-- The status as it is found after it was written over one with the given time. -/
def PolicyStatus.writtenOver (status : PolicyStatus) (previous : Option Instant) :
    PolicyStatus where
  selectedNodes := status.selectedNodes
  lastReconcileTime := (status.lastReconcileTime.map Instant.wholeSecond).or previous

/-- A status that is merged into an older one replaces its selection, and its time if it has one. -/
theorem PolicyStatus.ofJson_mergePatch {old : Json} {previous : Option Instant}
    {status : PolicyStatus}
    (hprevious : optionalOnce old.members "lastReconcileTime" instant = .ok previous)
    (hselected : (valuesAt old.members "selectedNodes").length ≤ 1)
    (hrange : ∀ t ∈ status.lastReconcileTime, t.isInRange = true) :
    ofJson (old.mergePatch status.toJson) = .ok (status.writtenOver previous) := by
  have hselection := (reads_strings status.selectedNodes).1
  have hmembers (ms : List (String × Json)) (hms : (valuesAt ms "selectedNodes").length ≤ 1)
      (k : String) :
      valuesAt (Json.putMember "selectedNodes" (.strings status.selectedNodes) ms) k =
        if "selectedNodes" = k then [.strings status.selectedNodes] else valuesAt ms k :=
    Json.valuesAt_putMember hms _ k
  cases htime : status.lastReconcileTime with
  | none =>
      have hmerged : old.mergePatch status.toJson =
          .object (Json.putMember "selectedNodes" (.strings status.selectedNodes) old.members) := by
        simp [toJson, htime, entry, Json.mergePatch, Json.mergeMembers, Json.strings]
      rw [optionalOnce_eq] at hprevious
      rw [hmerged, ofJson]
      simp only [optionalOnce_eq, once_eq, hmembers _ hselected, String.reduceEq, if_true, if_false,
        hprevious, onlyOf_single hselection, ok_bind, Option.getD_some, writtenOver, htime,
        Option.map_none, Option.none_or]
  | some t =>
      have htimes := length_valuesAt_of_optionalOnce hprevious
      have hother (k : String) :
          valuesAt (Json.putMember "lastReconcileTime" (.string t.text) old.members) k =
            if "lastReconcileTime" = k then [.string t.text] else valuesAt old.members k :=
        Json.valuesAt_putMember htimes _ k
      have hmerged : old.mergePatch status.toJson =
          .object (Json.putMember "selectedNodes" (.strings status.selectedNodes)
            (Json.putMember "lastReconcileTime" (.string t.text) old.members)) := by
        simp [toJson, htime, entry, Json.mergePatch, Json.mergeMembers, Json.strings]
      have hread := (reads_instant (hrange t htime)).nullable
      have hselected' : (valuesAt (Json.putMember "lastReconcileTime" (.string t.text) old.members)
          "selectedNodes").length ≤ 1 := by
        rw [hother, if_neg (by decide)]
        exact hselected
      rw [hmerged, ofJson]
      simp only [optionalOnce_eq, once_eq, hmembers _ hselected', hother, String.reduceEq, if_true,
        if_false, onlyOf_single hselection, onlyOf_single hread, map_ok, ok_bind,
        Option.getD_some, writtenOver, htime, Option.map_some, Option.some_or]
      rfl

/-- The members of a policy document that was read. -/
theorem Policy.ofJson_object_eq_ok {ms : List (String × Json)} {p : Policy} :
    ofJson (.object ms) = .ok p ↔
      once ms "metadata" Metadata.ofJson = .ok (some p.metadata) ∧
        once ms "spec" PolicySpec.ofJson = .ok (some p.spec) ∧
          optionalOnce ms "status" PolicyStatus.ofJson = .ok p.status := by
  rw [ofJson]
  simp only [bind_eq_ok, required_eq_ok_iff, Except.ok.injEq]
  constructor
  · intro h
    obtain ⟨metadata, hmetadata, spec, hspec, status, hstatus, m, rfl, sp, rfl, rfl⟩ := h
    exact ⟨hmetadata, hspec, hstatus⟩
  · intro h
    obtain ⟨hmetadata, hspec, hstatus⟩ := h
    exact ⟨_, hmetadata, _, hspec, _, hstatus, _, rfl, _, rfl, rfl⟩

/-- The time that is left of a status when one without a time is written over it. Nothing is left of
an array of its fields: a patch that is an object takes the place of whatever is no object. -/
def PolicyStatus.keptTime (old : Json) (status : Option PolicyStatus) : Option Instant :=
  match old with
  | .array _ => none
  | _ => status.bind (·.lastReconcileTime)

/-- What a status that was read allows a patch to find. -/
theorem PolicyStatus.optionalOnce_keptTime {old : Json} {o : Option PolicyStatus}
    (h : nullable ofJson old = .ok o) :
    optionalOnce old.members "lastReconcileTime" instant = .ok (keptTime old o) ∧
      (valuesAt old.members "selectedNodes").length ≤ 1 := by
  cases old with
  | object ms =>
      have hread : some <$> ofJson (.object ms) = .ok o := h
      cases hstatus : ofJson (.object ms) with
      | error e =>
          rw [hstatus] at hread
          cases hread
      | ok s =>
          rw [hstatus, map_ok] at hread
          cases hread
          rw [ofJson] at hstatus
          simp only [bind_eq_ok, Except.ok.injEq] at hstatus
          obtain ⟨time, htime, selected, hselected, rfl⟩ := hstatus
          exact ⟨htime, length_valuesAt_of_once hselected⟩
  | null =>
      cases h
      exact ⟨rfl, by simp [Json.members, valuesAt_nil]⟩
  | array items => exact ⟨rfl, by simp [Json.members, valuesAt_nil]⟩
  | _ => cases h

/-- **What a status write makes of a policy document.** The metadata and the specification stay, the
selection is the new one, and so is the time if there is one; else what is left of the time before
stays. -/
theorem Policy.ofJson_mergePatch {ms : List (String × Json)} {p : Policy} {status : PolicyStatus}
    (h : ofJson (.object ms) = .ok p)
    (hrange : ∀ t ∈ status.lastReconcileTime, t.isInRange = true) :
    ofJson ((Json.object ms).mergePatch (Request.statusPatch status)) =
      .ok { p with status := some (status.writtenOver
        (PolicyStatus.keptTime ((ms.lookup "status").getD .null) p.status)) } := by
  obtain ⟨hmetadata, hspec, hstatus⟩ := ofJson_object_eq_ok.1 h
  let old := (ms.lookup "status").getD .null
  have hold : nullable PolicyStatus.ofJson old = .ok p.status := by
    show nullable PolicyStatus.ofJson ((ms.lookup "status").getD .null) = _
    rw [Json.lookup_eq]
    rcases optionalOnce_eq_ok hstatus with ⟨hnone, hp⟩ | ⟨j, hj, hread⟩
    · rw [hnone, hp]
      rfl
    · rw [hj]
      exact hread
  have honce := length_valuesAt_of_optionalOnce hstatus
  obtain ⟨htime, hselected⟩ := PolicyStatus.optionalOnce_keptTime hold
  have hmerged := PolicyStatus.ofJson_mergePatch htime hselected hrange
  have hpatched : (Json.object ms).mergePatch (Request.statusPatch status) =
      .object (Json.putMember "status" (old.mergePatch status.toJson) ms) := by
    rfl
  have hmembers := Json.valuesAt_putMember honce (old.mergePatch status.toJson)
  rw [hpatched, ofJson_object_eq_ok]
  rw [once_eq] at hmetadata hspec
  have hread : nullable PolicyStatus.ofJson (old.mergePatch status.toJson) =
      .ok (some (status.writtenOver (PolicyStatus.keptTime old p.status))) :=
    Reads.nullable ⟨hmerged, fun hnull => nomatch hnull⟩
  simp only [once_eq, optionalOnce_eq, hmembers, String.reduceEq, if_true, if_false, hmetadata,
    hspec, onlyOf_single hread, map_ok]
  exact ⟨trivial, trivial, rfl⟩

end FleetLabels
