import FleetLabels.Proofs.Lifecycle
import FleetLabels.Proofs.Versioned.Store

/-!
# What others do to a policy and to the fleet

Passes of a policy are not alone with the store. The record of the policy is created and edited by
its users and may be deleted at any time, other controllers keep finalizers of their own on it, and
nodes come, go and change. An `OutsideStep` is one such change, made by the rules of the store: it
gives the object that it touches a new version, and a record under deletion goes with its last
finalizer.

No such step disturbs a pass in two respects: a record that carries the finalizer keeps it, and no
node is marked that was not.

## Main results

* `Undisturbed` — what the steps of others leave as it is.
* `OutsideStep.undisturbed` — none of the steps does more.
-/

namespace FleetLabels

namespace VersionedFleet

/-- The store with a record changed; a record that does not exist is not made up. -/
def amend (s : VersionedFleet) (name version : String) (change : Policy → Policy) :
    VersionedFleet :=
  match s.policies.get? name with
  | some p => if s.Fresh (.policy name) version then s.putPolicy version (change p) else s
  | none => s

end VersionedFleet

/-- What others may do to the record of a policy and to the fleet. -/
inductive OutsideStep where
  /-- The record is created, if there is none. -/
  | create (record : Policy)
  /-- The specification is edited. -/
  | editSpec (spec : PolicySpec)
  /-- Deletion is requested: without finalizers the record is gone at once. -/
  | requestDeletion (time : Instant)
  /-- Others add and remove finalizers of their own; ours stays on or off. -/
  | setFinalizers (finalizers : List String)
  /-- A node joins, without the marker. -/
  | join (node : Node)
  /-- A node leaves. -/
  | leave (name : String)
  /-- A node is changed in anything but the marker. -/
  | change (node : Node)

namespace OutsideStep

/-- The store after a step of others around a policy. A step that is not allowed has no effect. -/
def apply (policy version : String) (s : VersionedFleet) : OutsideStep → VersionedFleet
  | .create record =>
      if record.name = policy ∧ s.policies.get? policy = none ∧
          s.Fresh (.policy policy) version then
        s.putPolicy version record
      else s
  | .editSpec spec => s.amend policy version fun p => { p with spec }
  | .requestDeletion time =>
      match s.policies.get? policy with
      | some p =>
          if p.finalizers.isEmpty then s.dropPolicy policy
          else s.amend policy version fun p =>
            { p with metadata := { p.metadata with deletionTimestamp := some time } }
      | none => s
  | .setFinalizers finalizers => s.amend policy version fun p =>
      if finalizers.contains Policy.finalizer = p.hasFinalizer then p.withFinalizers finalizers
      else p
  | .join node =>
      if h : node.name ∉ s.nodes.map Node.name ∧ node.isManagedBy (Marker.key policy) = false ∧
          s.Fresh (.node node.name) version then
        s.addNode version node h.1
      else s
  | .leave name => s.dropNode name
  | .change node =>
      if (∃ n ∈ s.nodes, n.name = node.name ∧
            node.labels.get? (Marker.key policy) = n.labels.get? (Marker.key policy)) ∧
          s.Fresh (.node node.name) version then
        s.putNode version node
      else s

end OutsideStep

/-! ## What they leave as it is -/

/-- The record exists and carries the finalizer. -/
def Held (policy : String) (s : VersionedFleet) : Prop :=
  ∃ p, s.policies.get? policy = some p ∧ p.hasFinalizer = true

/-- No node carries the marker. -/
def Unmarked (policy : String) (s : VersionedFleet) : Prop :=
  ∀ n ∈ s.nodes, n.isManagedBy (Marker.key policy) = false

/-- The others neither take the finalizer off nor mark a node. -/
structure Undisturbed (policy : String) (s s' : VersionedFleet) : Prop where
  held : Held policy s → Held policy s'
  marked : ∀ n' ∈ s'.nodes, n'.isManagedBy (Marker.key policy) = true →
    ∃ n ∈ s.nodes, n.name = n'.name ∧ n.isManagedBy (Marker.key policy) = true

section Undisturbed

variable {policy version : String} {s s' t : VersionedFleet}

theorem Undisturbed.refl (policy : String) (s : VersionedFleet) : Undisturbed policy s s :=
  ⟨id, fun n hn hmarked => ⟨n, hn, rfl, hmarked⟩⟩

theorem Undisturbed.trans (h₁ : Undisturbed policy s s') (h₂ : Undisturbed policy s' t) :
    Undisturbed policy s t := by
  refine ⟨fun h => h₂.held (h₁.held h), fun n'' hn'' hmarked => ?_⟩
  obtain ⟨n', hn', hname', hmarked'⟩ := h₂.marked n'' hn'' hmarked
  obtain ⟨n, hn, hname, hmarked⟩ := h₁.marked n' hn' hmarked'
  exact ⟨n, hn, hname.trans hname', hmarked⟩

theorem Undisturbed.of_nodes_eq (hnodes : s'.nodes = s.nodes)
    (hheld : Held policy s → Held policy s') : Undisturbed policy s s' :=
  ⟨hheld, fun n hn hmarked => ⟨n, hnodes ▸ hn, rfl, hmarked⟩⟩

/-- A node that is replaced must have been marked, if it is marked afterwards. -/
theorem Undisturbed.putNode {w : Node}
    (h : w.isManagedBy (Marker.key policy) = true →
      ∃ n ∈ s.nodes, n.name = w.name ∧ n.isManagedBy (Marker.key policy) = true) :
    Undisturbed policy s (s.putNode version w) := by
  constructor
  case held => exact id
  case marked =>
    intro n hn hmarked
    rcases VersionedFleet.mem_putNode hn with rfl | ⟨hold, -⟩
    · exact h hmarked
    · exact ⟨n, hold, rfl, hmarked⟩

theorem Unmarked.undisturbed (h : Unmarked policy s) (hs : Undisturbed policy s s') :
    Unmarked policy s' := by
  intro n' hn'
  refine eq_false_of_ne_true fun hmarked => ?_
  obtain ⟨n, hn, -, hmarked⟩ := hs.marked n' hn' hmarked
  rw [h n hn] at hmarked
  cases hmarked

/-! ### Records -/

/-- A record with the finalizer is not dropped. -/
theorem held_putPolicy {p : Policy} (hname : p.name = policy) (hfinalizer : p.hasFinalizer = true) :
    Held policy (s.putPolicy version p) := by
  have hnonempty : p.finalizers.isEmpty = false := by
    cases hl : p.finalizers with
    | nil =>
        rw [Policy.hasFinalizer, hl] at hfinalizer
        cases hfinalizer
    | cons => rfl
  refine ⟨p.stamped version, ?_, hfinalizer⟩
  rw [VersionedFleet.get?_putPolicy, if_pos hname.symm, hnonempty, Bool.and_false]
  rfl

/-- A record that is stored once more under a new version is as good as before. -/
theorem Held.restamp {p : Policy} (h : Held policy s) (hp : s.policies.get? p.name = some p) :
    Held policy (s.putPolicy version p) := by
  obtain ⟨q, hq, hfinalizer⟩ := h
  by_cases hname : p.name = policy
  · rw [← hname, hp] at hq
    cases hq
    exact held_putPolicy hname hfinalizer
  · refine ⟨q, ?_, hfinalizer⟩
    rw [VersionedFleet.get?_putPolicy, if_neg (Ne.symm hname)]
    exact hq

theorem undisturbed_amend {change : Policy → Policy} (hname : ∀ p, (change p).name = p.name)
    (hfinalizer : ∀ p, (change p).hasFinalizer = p.hasFinalizer) :
    Undisturbed policy s (s.amend policy version change) := by
  unfold VersionedFleet.amend
  split
  next p hp =>
    split
    next =>
      refine .of_nodes_eq rfl fun ⟨q, hq, hheld⟩ => ?_
      rw [hp] at hq
      cases hq
      exact held_putPolicy ((hname p).trans (s.keyed policy p hp)) ((hfinalizer p).trans hheld)
    next => exact .refl policy s
  next => exact .refl policy s

end Undisturbed

/-- No step of others disturbs a pass. -/
theorem OutsideStep.undisturbed (policy version : String) (s : VersionedFleet)
    (step : OutsideStep) : Undisturbed policy s (step.apply policy version s) := by
  cases step with
  | create record =>
      simp only [apply]
      split
      next hallowed =>
        refine .of_nodes_eq rfl fun ⟨p, hp, _⟩ => ?_
        rw [hallowed.2.1] at hp
        cases hp
      next => exact .refl policy s
  | editSpec spec => exact undisturbed_amend (fun _ => rfl) fun _ => rfl
  | requestDeletion time =>
      simp only [apply]
      split
      next p hp =>
        split
        next hempty =>
          refine .of_nodes_eq rfl fun ⟨q, hq, hheld⟩ => ?_
          rw [hp] at hq
          cases hq
          rw [Policy.hasFinalizer, List.isEmpty_iff.1 hempty] at hheld
          cases hheld
        next => exact undisturbed_amend (fun _ => rfl) fun _ => rfl
      next => exact .refl policy s
  | setFinalizers finalizers =>
      refine undisturbed_amend (fun p => ?_) fun p => ?_
      · split <;> rfl
      · split
        next hsame => exact hsame
        next => rfl
  | join node =>
      simp only [apply]
      split
      next hallowed =>
        refine ⟨id, fun n' hn' hmarked => ?_⟩
        rcases List.mem_append.1 hn' with hold | hnew
        · exact ⟨n', hold, rfl, hmarked⟩
        · rw [List.mem_singleton.1 hnew, Node.isManagedBy_stamped, hallowed.2.1] at hmarked
          cases hmarked
      next => exact .refl policy s
  | leave name => exact ⟨id, fun n hn hmarked => ⟨n, (List.mem_filter.1 hn).1, rfl, hmarked⟩⟩
  | change node =>
      simp only [apply]
      split
      next hallowed =>
        obtain ⟨⟨n, hn, hname, hsame⟩, -⟩ := hallowed
        refine .putNode fun hmarked => ⟨n, hn, hname, ?_⟩
        rw [Node.isManagedBy, hsame] at hmarked
        exact hmarked
      next => exact .refl policy s

end FleetLabels
