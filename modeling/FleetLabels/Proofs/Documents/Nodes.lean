import FleetLabels.Node.Document
import FleetLabels.Proofs.Documents.KeptValues
import FleetLabels.Proofs.Documents.RoundTrip

/-!
# Nodes survive being written

A node is read from a document and written back as a whole, since its write replaces what was there.
This module says of every part of a node that it comes back: what its machine reports, its taints and
conditions with their times, and its metadata. Only fractions of a second are lost.

Most of these parts hold texts and whole numbers only. Their readers and writers are `Faithful`.

## Main results

* `Node.ofJson_toJson` — what was written is read back.
* `Node.gives_ofJson` — the calendar of the reader has the years of all times of what was read.
* `Node.isLegible_toJson` — there is a text for every written node, if there are texts for the values
  that its metadata keeps.
* `Node.gives_legible` — which there are in every node that was read from a text.
-/

namespace FleetLabels

open Document Json

/-- The reader gives back whatever was written, and a text denotes it. -/
structure Document.Faithful {α : Type} (read : Json → Except Fault α) (write : α → Json) : Prop where
  reads : ∀ a, Reads read (write a) a
  legible : ∀ a, (write a).isLegible = true

theorem Document.Faithful.list {α : Type} {read : Json → Except Fault α} {write : α → Json}
    (h : Faithful read write) : Faithful (list read) (.array <| ·.map write) where
  reads := reads_list fun a => (h.reads a).1
  legible _ := isLegible_array_map fun a _ => h.legible a

/-! ## What a node reports of its machine -/

theorem ConfigReference.faithful : Faithful ofJson toJson where
  reads r := by
    refine reads_object ?_
    simp only [ofJson, optional_eq, stringOrEmpty_eq, valuesAt_append, valuesAt_cons,
      valuesAt_nil, valuesAt_entry, String.reduceEq, if_true, if_false, List.nil_append,
      List.append_nil, lastOf_self reads_string, lastOf_single (reads_string _), ok_bind, map_ok,
      Option.getD_some]
  legible r := by
    simp [toJson, isLegible, membersLegible, membersLegible_append,
      membersLegible_entry isLegible_string]

theorem ConfigSource.faithful : Faithful ofJson toJson where
  reads s := by
    refine reads_object ?_
    simp only [ofJson, optional_eq, valuesAt_entry, if_true,
      lastOf_self ConfigReference.faithful.reads, ok_bind]
  legible s := membersLegible_entry ConfigReference.faithful.legible _ s.configMap

theorem ConfigStatus.faithful : Faithful ofJson toJson where
  reads s := by
    refine reads_object ?_
    simp only [ofJson, optional_eq, valuesAt_append, valuesAt_entry, String.reduceEq,
      if_true, if_false, List.nil_append, List.append_nil, lastOf_self reads_string,
      lastOf_self ConfigSource.faithful.reads, ok_bind]
  legible s := by
    simp only [toJson, isLegible, membersLegible_append, membersLegible_entry isLegible_string,
      membersLegible_entry ConfigSource.faithful.legible, Bool.and_self]

theorem NodeAddress.faithful : Faithful ofJson toJson where
  reads a := by
    refine reads_object ?_
    simp only [ofJson, stringOrEmpty_eq, valuesAt_cons, valuesAt_nil, String.reduceEq,
      if_true, if_false, lastOf_single (reads_string _), ok_bind, map_ok, Option.getD_some]
  legible _ := rfl

theorem DaemonEndpoint.faithful : Faithful ofJson toJson where
  reads e := by
    refine reads_object ?_
    simp only [ofJson, optional_eq, valuesAt_cons, valuesAt_nil, if_true,
      lastOf_single (reads_int32 _), ok_bind, Option.getD_some]
  legible e := by
    rw [toJson, isLegible, membersLegible, isLegible_int32]
    rfl

theorem DaemonEndpoints.faithful : Faithful ofJson toJson where
  reads e := by
    refine reads_object ?_
    simp only [ofJson, optional_eq, valuesAt_entry, if_true,
      lastOf_self DaemonEndpoint.faithful.reads, ok_bind]
  legible e := membersLegible_entry DaemonEndpoint.faithful.legible _ e.kubeletEndpoint

theorem ContainerImage.faithful : Faithful ofJson toJson where
  reads i := by
    refine reads_object ?_
    simp only [ofJson, optional_eq, valuesAt_append, valuesAt_entry, String.reduceEq,
      if_true, if_false, List.nil_append, List.append_nil, lastOf_self reads_strings,
      lastOf_self reads_int64, ok_bind]
  legible i := by
    simp only [toJson, isLegible, membersLegible_append, membersLegible_entry isLegible_strings,
      membersLegible_entry isLegible_int64, Bool.and_self]

theorem SystemInfo.faithful : Faithful ofJson toJson where
  reads i := by
    refine reads_object ?_
    simp only [ofJson, stringOrEmpty_eq, valuesAt_cons, valuesAt_nil, String.reduceEq,
      if_true, if_false, lastOf_single (reads_string _), ok_bind, map_ok, Option.getD_some]
  legible _ := rfl

theorem RuntimeFeatures.faithful : Faithful ofJson toJson where
  reads f := by
    refine reads_object ?_
    simp only [ofJson, optional_eq, valuesAt_entry, if_true, lastOf_self reads_boolean,
      ok_bind]
  legible f := membersLegible_entry isLegible_bool _ f.recursiveReadOnlyMounts

theorem RuntimeHandler.faithful : Faithful ofJson toJson where
  reads h := by
    refine reads_object ?_
    simp only [ofJson, optional_eq, valuesAt_append, valuesAt_entry, String.reduceEq,
      if_true, if_false, List.nil_append, List.append_nil, lastOf_self reads_string,
      lastOf_self RuntimeFeatures.faithful.reads, ok_bind]
  legible h := by
    simp only [toJson, isLegible, membersLegible_append, membersLegible_entry isLegible_string,
      membersLegible_entry RuntimeFeatures.faithful.legible, Bool.and_self]

theorem AttachedVolume.faithful : Faithful ofJson toJson where
  reads v := by
    refine reads_object ?_
    simp only [ofJson, stringOrEmpty_eq, valuesAt_cons, valuesAt_nil, String.reduceEq,
      if_true, if_false, lastOf_single (reads_string _), ok_bind, map_ok, Option.getD_some]
  legible _ := rfl

/-! ## Taints and conditions -/

namespace Taint

/-- The time of a taint. -/
def times (t : Taint) : List Instant :=
  t.timeAdded.toList

/-- The taint without fractions of a second. -/
def wholeSeconds (t : Taint) : Taint :=
  { t with timeAdded := t.timeAdded.map Instant.wholeSecond }

theorem wholeSeconds_eq (t : Taint) (h : ∀ u ∈ t.times, u.wholeSecond = u) :
    t.wholeSeconds = t := by
  have htime := Instant.map_wholeSecond fun u hu => h u (Option.mem_toList.2 hu)
  simp only [wholeSeconds, htime]

theorem ofJson_toJson (t : Taint) (h : ∀ u ∈ t.times, u.isInRange = true) :
    ofJson t.toJson = .ok t.wholeSeconds := by
  have htime : ∀ u ∈ t.timeAdded, u.isInRange = true := fun u hu => h u (Option.mem_toList.2 hu)
  simp only [toJson, ofJson, optional_eq, stringOrEmpty_eq, valuesAt_append, valuesAt_cons,
    valuesAt_nil, valuesAt_entry, String.reduceEq, if_true, if_false, List.nil_append,
    List.append_nil, lastOf_self reads_string, lastOf_single (reads_string _),
    lastOf_instant htime, ok_bind, map_ok, Option.getD_some, wholeSeconds]

theorem gives_ofJson (j : Json) :
    Gives (fun t : Taint => ∀ u ∈ t.times, u.isInRange = true) (ofJson j) := by
  cases j with
  | object ms =>
      refine gives_of_bind fun _ => gives_of_bind fun _ =>
        gives_bind (gives_optional gives_instant) fun time htime => gives_of_bind fun _ =>
        gives_ok ?_
      intro u hu
      exact htime u (Option.mem_toList.1 hu)
  | _ => exact gives_error _

theorem isLegible_toJson (t : Taint) : t.toJson.isLegible = true := by
  simp [toJson, isLegible, membersLegible, membersLegible_append, membersLegible_instant,
    membersLegible_entry isLegible_string]

end Taint

namespace Condition

/-- The times of a condition. -/
def times (c : Condition) : List Instant :=
  c.lastHeartbeatTime.toList ++ c.lastTransitionTime.toList

/-- The condition without fractions of a second. -/
def wholeSeconds (c : Condition) : Condition :=
  { c with lastHeartbeatTime := c.lastHeartbeatTime.map Instant.wholeSecond
           lastTransitionTime := c.lastTransitionTime.map Instant.wholeSecond }

theorem mem_times_iff {c : Condition} {t : Instant} :
    t ∈ c.times ↔ c.lastHeartbeatTime = some t ∨ c.lastTransitionTime = some t := by
  simp [times]

theorem wholeSeconds_eq (c : Condition) (h : ∀ t ∈ c.times, t.wholeSecond = t) :
    c.wholeSeconds = c := by
  have hheartbeat := Instant.map_wholeSecond fun t ht => h t (mem_times_iff.2 (.inl ht))
  have htransition := Instant.map_wholeSecond fun t ht => h t (mem_times_iff.2 (.inr ht))
  simp only [wholeSeconds, hheartbeat, htransition]

theorem ofJson_toJson (c : Condition) (h : ∀ t ∈ c.times, t.isInRange = true) :
    ofJson c.toJson = .ok c.wholeSeconds := by
  have hheartbeat : ∀ t ∈ c.lastHeartbeatTime, t.isInRange = true := by
    intro t ht
    exact h t (mem_times_iff.2 (.inl ht))
  have htransition : ∀ t ∈ c.lastTransitionTime, t.isInRange = true := by
    intro t ht
    exact h t (mem_times_iff.2 (.inr ht))
  simp only [toJson, ofJson, optional_eq, stringOrEmpty_eq, valuesAt_append, valuesAt_cons,
    valuesAt_nil, valuesAt_entry, String.reduceEq, if_true, if_false, List.nil_append,
    List.append_nil, lastOf_self reads_string, lastOf_single (reads_string _),
    lastOf_instant hheartbeat, lastOf_instant htransition, ok_bind, map_ok, Option.getD_some,
    wholeSeconds]

theorem gives_ofJson (j : Json) :
    Gives (fun c : Condition => ∀ t ∈ c.times, t.isInRange = true) (ofJson j) := by
  cases j with
  | object ms =>
      refine gives_bind (gives_optional gives_instant) fun heartbeat hheartbeat =>
        gives_bind (gives_optional gives_instant) fun transition htransition => ?_
      refine gives_of_bind fun _ => gives_of_bind fun _ => gives_of_bind fun _ =>
        gives_of_bind fun _ => gives_ok ?_
      intro t ht
      cases mem_times_iff.1 ht with
      | inl ht => exact hheartbeat t ht
      | inr ht => exact htransition t ht
  | _ => exact gives_error _

theorem isLegible_toJson (c : Condition) : c.toJson.isLegible = true := by
  simp [toJson, isLegible, membersLegible, membersLegible_append, membersLegible_instant,
    membersLegible_entry isLegible_string]

end Condition

/-! ## Nodes -/

namespace NodeSpec

/-- The times in what is configured for a node. -/
def times (s : NodeSpec) : List Instant :=
  (s.taints.getD []).flatMap Taint.times

/-- What is configured for a node, without fractions of a second. -/
def wholeSeconds (s : NodeSpec) : NodeSpec :=
  { s with taints := s.taints.map (List.map Taint.wholeSeconds) }

theorem wholeSeconds_eq (s : NodeSpec) (h : ∀ t ∈ s.times, t.wholeSecond = t) :
    s.wholeSeconds = s := by
  have htaints := map_whole_eq Taint.wholeSeconds_eq h
  simp only [wholeSeconds, htaints]

theorem reads_toJson (s : NodeSpec) (h : ∀ t ∈ s.times, t.isInRange = true) :
    Reads ofJson s.toJson s.wholeSeconds := by
  have htaints := lastOf_timed Taint.ofJson_toJson h
  refine reads_object ?_
  simp only [ofJson, optional_eq, valuesAt_append, valuesAt_entry, String.reduceEq,
    if_true, if_false, List.nil_append, List.append_nil, lastOf_self reads_string,
    lastOf_self reads_strings, lastOf_self reads_boolean, lastOf_self ConfigSource.faithful.reads,
    htaints, ok_bind, wholeSeconds]

theorem gives_ofJson (j : Json) :
    Gives (fun s : NodeSpec => ∀ t ∈ s.times, t.isInRange = true) (ofJson j) := by
  cases j with
  | object ms =>
      refine gives_of_bind fun _ => gives_of_bind fun _ => gives_of_bind fun _ =>
        gives_of_bind fun _ => gives_of_bind fun _ =>
        gives_bind (gives_optional (gives_list Taint.gives_ofJson)) fun taints htaints =>
        gives_of_bind fun _ => gives_ok ?_
      intro t ht
      obtain ⟨l, hl, taint, htaint, ht⟩ := mem_listedTimes_iff.1 ht
      exact htaints l hl taint htaint t ht
  | _ => exact gives_error _

theorem isLegible_toJson (s : NodeSpec) : s.toJson.isLegible = true := by
  have htaints (l : List Taint) : (Json.array (l.map Taint.toJson)).isLegible = true :=
    isLegible_array_map fun t _ => t.isLegible_toJson
  simp only [toJson, isLegible, membersLegible_append, membersLegible_entry isLegible_string,
    membersLegible_entry isLegible_strings, membersLegible_entry isLegible_bool,
    membersLegible_entry ConfigSource.faithful.legible, membersLegible_entry htaints, Bool.and_self]

end NodeSpec

namespace NodeStatus

/-- The times in what is observed of a node. -/
def times (s : NodeStatus) : List Instant :=
  (s.conditions.getD []).flatMap Condition.times

/-- What is observed of a node, without fractions of a second. -/
def wholeSeconds (s : NodeStatus) : NodeStatus :=
  { s with conditions := s.conditions.map (List.map Condition.wholeSeconds) }

theorem wholeSeconds_eq (s : NodeStatus) (h : ∀ t ∈ s.times, t.wholeSecond = t) :
    s.wholeSeconds = s := by
  have hconditions := map_whole_eq Condition.wholeSeconds_eq h
  simp only [wholeSeconds, hconditions]

theorem reads_toJson (s : NodeStatus) (h : ∀ t ∈ s.times, t.isInRange = true) :
    Reads ofJson s.toJson s.wholeSeconds := by
  have hconditions := lastOf_timed Condition.ofJson_toJson h
  refine reads_object ?_
  simp only [ofJson, optional_eq, valuesAt_append, valuesAt_entry, String.reduceEq,
    if_true, if_false, List.nil_append, List.append_nil, lastOf_self reads_string,
    lastOf_self reads_strings, lastOf_self reads_ofKeyMap,
    lastOf_self NodeAddress.faithful.list.reads, lastOf_self ConfigStatus.faithful.reads,
    lastOf_self DaemonEndpoints.faithful.reads, lastOf_self ContainerImage.faithful.list.reads,
    lastOf_self SystemInfo.faithful.reads, lastOf_self RuntimeHandler.faithful.list.reads,
    lastOf_self AttachedVolume.faithful.list.reads, hconditions, ok_bind, wholeSeconds]

theorem gives_ofJson (j : Json) :
    Gives (fun s : NodeStatus => ∀ t ∈ s.times, t.isInRange = true) (ofJson j) := by
  cases j with
  | object ms =>
      refine gives_of_bind fun _ => gives_of_bind fun _ => gives_of_bind fun _ =>
        gives_bind (gives_optional (gives_list Condition.gives_ofJson)) fun conditions hconds => ?_
      refine gives_of_bind fun _ => gives_of_bind fun _ => gives_of_bind fun _ =>
        gives_of_bind fun _ => gives_of_bind fun _ => gives_of_bind fun _ => gives_of_bind fun _ =>
        gives_of_bind fun _ => gives_ok ?_
      intro t ht
      obtain ⟨l, hl, c, hc, ht⟩ := mem_listedTimes_iff.1 ht
      exact hconds l hl c hc t ht
  | _ => exact gives_error _

theorem isLegible_toJson (s : NodeStatus) : s.toJson.isLegible = true := by
  have hconditions (l : List Condition) : (Json.array (l.map Condition.toJson)).isLegible = true :=
    isLegible_array_map fun c _ => c.isLegible_toJson
  simp only [toJson, isLegible, membersLegible_append, membersLegible_entry isLegible_string,
    membersLegible_entry isLegible_strings, membersLegible_entry isLegible_ofKeyMap,
    membersLegible_entry NodeAddress.faithful.list.legible,
    membersLegible_entry ConfigStatus.faithful.legible,
    membersLegible_entry DaemonEndpoints.faithful.legible,
    membersLegible_entry ContainerImage.faithful.list.legible,
    membersLegible_entry SystemInfo.faithful.legible,
    membersLegible_entry RuntimeHandler.faithful.list.legible,
    membersLegible_entry AttachedVolume.faithful.list.legible,
    membersLegible_entry hconditions, Bool.and_self]

end NodeStatus

namespace Node

/-- The times of a node. -/
def times (n : Node) : List Instant :=
  n.metadata.times ++ n.spec.toList.flatMap NodeSpec.times
    ++ n.status.toList.flatMap NodeStatus.times

/-- The node without fractions of a second. -/
def wholeSeconds (n : Node) : Node where
  metadata := n.metadata.wholeSeconds
  spec := n.spec.map NodeSpec.wholeSeconds
  status := n.status.map NodeStatus.wholeSeconds

theorem mem_times_iff {n : Node} {t : Instant} :
    t ∈ n.times ↔ t ∈ n.metadata.times ∨ (∃ s, n.spec = some s ∧ t ∈ s.times) ∨
      ∃ s, n.status = some s ∧ t ∈ s.times := by
  simp [times]

theorem wholeSeconds_eq {n : Node} (h : ∀ t ∈ n.times, t.wholeSecond = t) : n.wholeSeconds = n := by
  have hmetadata := ManagedMetadata.wholeSeconds_eq fun t ht => h t (mem_times_iff.2 (.inl ht))
  have hspec : n.spec.map NodeSpec.wholeSeconds = n.spec.map id :=
    Option.map_congr fun s hs => s.wholeSeconds_eq fun t ht =>
      h t (mem_times_iff.2 (.inr (.inl ⟨s, hs, ht⟩)))
  have hstatus : n.status.map NodeStatus.wholeSeconds = n.status.map id :=
    Option.map_congr fun s hs => s.wholeSeconds_eq fun t ht =>
      h t (mem_times_iff.2 (.inr (.inr ⟨s, hs, ht⟩)))
  rw [Option.map_id] at hspec hstatus
  simp only [wholeSeconds, hmetadata, hspec, hstatus, id]

theorem ofJson_toJson {n : Node} (h : ∀ t ∈ n.times, t.isInRange = true) :
    ofJson n.toJson = .ok n.wholeSeconds := by
  have hmetadata : ∀ t ∈ n.metadata.times, t.isInRange = true := by
    intro t ht
    exact h t (mem_times_iff.2 (.inl ht))
  have hspec : ∀ s ∈ n.spec, Reads NodeSpec.ofJson s.toJson s.wholeSeconds := by
    intro s hs
    exact s.reads_toJson fun t ht => h t (mem_times_iff.2 (.inr (.inl ⟨s, hs, ht⟩)))
  have hstatus : ∀ s ∈ n.status, Reads NodeStatus.ofJson s.toJson s.wholeSeconds := by
    intro s hs
    exact s.reads_toJson fun t ht => h t (mem_times_iff.2 (.inr (.inr ⟨s, hs, ht⟩)))
  simp only [toJson, ofJson, constant, latest, optional_eq, valuesAt_append, valuesAt_cons,
    valuesAt_nil, valuesAt_entry, String.reduceEq, if_true, if_false, List.nil_append,
    List.append_nil, lastOf_single (ManagedMetadata.reads_toJson hmetadata), lastOf_entry hspec,
    lastOf_entry hstatus, mapM_literal, ok_bind, map_ok, Option.getD_some, wholeSeconds]

/-- The calendar of the reader has the years of all times of a node that was read. -/
theorem gives_ofJson (j : Json) :
    Gives (fun n : Node => ∀ t ∈ n.times, t.isInRange = true) (ofJson j) := by
  cases j with
  | object ms =>
      refine gives_of_bind fun _ => gives_of_bind fun _ =>
        gives_bind (gives_optional ManagedMetadata.gives_ofJson) fun metadata hmetadata =>
        gives_bind (gives_optional NodeSpec.gives_ofJson) fun spec hspec =>
        gives_bind (gives_optional NodeStatus.gives_ofJson) fun status hstatus => gives_ok ?_
      intro t ht
      rcases mem_times_iff.1 ht with ht | ⟨s, hs, ht⟩ | ⟨s, hs, ht⟩
      · cases metadata with
        | none => cases ht
        | some m => exact hmetadata m rfl t ht
      · exact hspec s hs t ht
      · exact hstatus s hs t ht
  | _ => exact gives_error _

theorem isLegible_toJson {n : Node} (h : n.metadata.Legible) : n.toJson.isLegible = true := by
  simp [toJson, isLegible, membersLegible, membersLegible_append, n.metadata.isLegible_toJson h,
    membersLegible_entry NodeSpec.isLegible_toJson,
    membersLegible_entry NodeStatus.isLegible_toJson]

end Node

/-! ## Values that a node keeps -/

/-- What a legible object has under a key is legible. -/
theorem Document.isLegible_of_mem_valuesAt {ms : List (String × Json)} {key : String} {j : Json}
    (hms : membersLegible ms = true) (h : j ∈ valuesAt ms key) : j.isLegible = true := by
  obtain ⟨e, he, heq⟩ := List.mem_filterMap.1 h
  split at heq
  next => exact Option.some.inj heq ▸ (membersLegible_iff ms).1 hms e he
  next => cases heq

theorem Document.gives_value {j : Json} (h : j.isLegible = true) :
    Gives (fun v => v.json.isLegible = true) (value j) := by
  intro v hv
  rw [value] at hv
  split at hv
  next w hw =>
    obtain rfl := Except.ok.inj hv
    exact isLegible_of_whole? _ j w.json h (Whole.of?_eq_some_iff.1 hw)
  next => cases hv

theorem ManagedFields.gives_legible {j : Json} (h : j.isLegible = true) :
    Gives Legible (ofJson j) := by
  cases j with
  | object ms =>
      refine gives_of_bind fun _ => gives_of_bind fun _ =>
        gives_bind (gives_optional_of_mem fun v hv => gives_value (isLegible_of_mem_valuesAt h hv))
          fun kept hkept => ?_
      exact gives_of_bind fun _ => gives_of_bind fun _ => gives_of_bind fun _ =>
        gives_of_bind fun _ => gives_ok hkept
  | _ => exact gives_error _

theorem ManagedMetadata.gives_legible {j : Json} (h : j.isLegible = true) :
    Gives Legible (ofJson j) := by
  have hlist {fields : Json} (hfields : fields.isLegible = true) :
      Gives (fun l => ∀ f ∈ l, f.Legible) (list ManagedFields.ofJson fields) := by
    cases fields with
    | array items =>
        exact gives_mapM_of_mem fun item hitem =>
          ManagedFields.gives_legible ((itemsLegible_iff items).1 hfields item hitem)
    | _ => exact gives_error _
  cases j with
  | object ms =>
      refine gives_of_bind fun _ => gives_of_bind fun _ => gives_of_bind fun _ =>
        gives_of_bind fun _ => gives_of_bind fun _ => gives_of_bind fun _ => gives_of_bind fun _ =>
        gives_of_bind fun _ =>
        gives_bind (gives_optional_of_mem fun v hv => hlist (isLegible_of_mem_valuesAt h hv))
          fun fields hfields => ?_
      exact gives_of_bind fun _ => gives_of_bind fun _ => gives_of_bind fun _ =>
        gives_of_bind fun _ => gives_of_bind fun _ => gives_of_bind fun _ => gives_ok hfields
  | _ => exact gives_error _

/-- A text denotes the values that a node keeps, if one denotes its document. -/
theorem Node.gives_legible {j : Json} (h : j.isLegible = true) :
    Gives (fun n : Node => n.metadata.Legible) (ofJson j) := by
  cases j with
  | object ms =>
      refine gives_of_bind fun _ => gives_of_bind fun _ =>
        gives_bind (gives_optional_of_mem fun v hv =>
          ManagedMetadata.gives_legible (isLegible_of_mem_valuesAt h hv))
          fun metadata hmetadata => gives_of_bind fun _ => gives_of_bind fun _ => gives_ok ?_
      cases metadata with
      | none =>
          intro l hl
          cases hl
      | some m => exact hmetadata m rfl
  | _ => exact gives_error _

end FleetLabels
