import FleetLabels.Proofs.Lifecycle
import FleetLabels.Proofs.Overlay

/-!
# A store that stamps versions

The store that passes meet in a cluster. It holds one object of each name and stamps every object
with a version that it has never given to that object before. A replacement carries the version of
the copy it was made from and is accepted only if that is the version of the stored object, so that
a copy read before somebody else's write is of no use afterwards. A record under deletion goes with
its last finalizer.

Nothing is assumed about the versions themselves: `serve` takes the next one as an argument and
accepts a write only if it is new for the object. Which calls fail for other reasons is left open as
well; a caller of `serve` may turn any call down before it gets here.

## Main results

* `VersionedFleet.serve` — how the store answers a call.
* `VersionedFleet.serve_updateNode`, `VersionedFleet.serve_updatePolicy`,
  `VersionedFleet.serve_updateStatus` — all that is to be known about an accepted write.
* `VersionedFleet.Advances.mem_of_versioned` — a node under a version that was read before is the
  node that was read.
-/

namespace FleetLabels

/-! ## Stamps -/

/-- What a version belongs to. -/
inductive ObjectId where
  /-- The node of a name. -/
  | node (name : String)
  /-- The policy of a name. -/
  | policy (name : String)
  deriving DecidableEq, Repr

/-- The metadata with a version in place of its own. -/
def Metadata.stamped (m : Metadata) (version : String) : Metadata :=
  { m with resourceVersion := some version }

namespace Node

/-- The version that a node carries. -/
def version? (n : Node) : Option String := n.metadata.resourceVersion

/-- The node as the store keeps it under a new version. -/
def stamped (n : Node) (version : String) : Node :=
  { n with metadata := { n.metadata with toMetadata := n.metadata.stamped version } }

@[simp] theorem name_stamped (n : Node) (version : String) :
    (n.stamped version).name = n.name := rfl

@[simp] theorem version?_stamped (n : Node) (version : String) :
    (n.stamped version).version? = some version := rfl

@[simp] theorem isManagedBy_stamped (n : Node) (version marker : String) :
    (n.stamped version).isManagedBy marker = n.isManagedBy marker := rfl

end Node

namespace Policy

/-- The version that a record carries. -/
def version? (p : Policy) : Option String := p.metadata.resourceVersion

/-- The record as the store keeps it under a new version. -/
def stamped (p : Policy) (version : String) : Policy :=
  { p with metadata := p.metadata.stamped version }

@[simp] theorem name_stamped (p : Policy) (version : String) :
    (p.stamped version).name = p.name := rfl

@[simp] theorem version?_stamped (p : Policy) (version : String) :
    (p.stamped version).version? = some version := rfl

@[simp] theorem isDeleting_stamped (p : Policy) (version : String) :
    (p.stamped version).isDeleting = p.isDeleting := rfl

end Policy

theorem Fleet.get?_storePolicy_eq_some {policies : KeyMap Policy} {p r : Policy} {name : String}
    (h : (storePolicy policies p).get? name = some r) :
    name = p.name ∧ r = p ∨ name ≠ p.name ∧ policies.get? name = some r := by
  rw [get?_storePolicy] at h
  split at h
  next hname =>
    split at h
    · cases h
    · exact .inl ⟨hname, (Option.some.inj h).symm⟩
  next hname => exact .inr ⟨hname, h⟩

theorem Fleet.get?_erase_eq_some {policies : KeyMap Policy} {erased name : String} {p : Policy}
    (h : (policies.erase erased).get? name = some p) : policies.get? name = some p := by
  rw [KeyMap.get?_erase] at h
  split at h
  · cases h
  · exact h

/-! ## The store -/

/-- The object carries a version, and that is one of those given to it so far. -/
def Versioned (issued : List (ObjectId × String)) (id : ObjectId) (version? : Option String) :
    Prop :=
  ∃ v, version? = some v ∧ (id, v) ∈ issued

theorem Versioned.mono {issued issued' : List (ObjectId × String)} {id : ObjectId}
    {version? : Option String} (h : Versioned issued id version?) (hsub : issued ⊆ issued') :
    Versioned issued' id version? := by
  obtain ⟨v, hv, hmem⟩ := h
  exact ⟨v, hv, hsub hmem⟩

/-- A fleet under versions. That names are keys and that versions come from the store is part of
what such a fleet is. -/
structure VersionedFleet extends Fleet where
  /-- The versions given so far. -/
  issued : List (ObjectId × String)
  /-- There is one node of each name. -/
  distinct : DistinctNames nodes
  /-- A record stands under its own name. -/
  keyed : ∀ name p, policies.get? name = some p → p.name = name
  /-- Every node carries a version of its own. -/
  versionedNode : ∀ n ∈ nodes, Versioned issued (.node n.name) n.version?
  /-- Every record carries a version of its own. -/
  versionedPolicy : ∀ name p, policies.get? name = some p →
    Versioned issued (.policy name) p.version?

namespace VersionedFleet

/-- The store that was given some nodes and no policy yet. -/
def ofNodes (nodes : List Node) (h : DistinctNames nodes) : VersionedFleet where
  nodes := nodes.map (·.stamped "0")
  issued := nodes.map fun n => (.node n.name, "0")
  distinct := by
    rw [DistinctNames, List.map_map]
    exact h
  keyed name p hp := by
    cases hp
  versionedNode n hn := by
    obtain ⟨m, hm, rfl⟩ := List.mem_map.1 hn
    exact ⟨"0", rfl, List.mem_map.2 ⟨m, hm, rfl⟩⟩
  versionedPolicy name p hp := by
    cases hp

/-- The version of the stored object, none if there is no such object. -/
def version? (s : VersionedFleet) : ObjectId → Option String
  | .node name => (named? name s.nodes).bind Node.version?
  | .policy name => (s.policies.get? name).bind Policy.version?

/-- The version has never been given to the object. -/
def Fresh (s : VersionedFleet) (id : ObjectId) (version : String) : Prop := (id, version) ∉ s.issued

instance (s : VersionedFleet) (id : ObjectId) (version : String) :
    Decidable (s.Fresh id version) := inferInstanceAs (Decidable (_ ∉ _))

/-- Whether an object may be replaced by one that was made from a copy under the version `read`,
`version` being the one that it is to get: the object must exist and be as it was when it was
read. -/
def Replaceable (s : VersionedFleet) (id : ObjectId) (read : Option String) (version : String) :
    Prop :=
  s.version? id ≠ none ∧ read = s.version? id ∧ s.Fresh id version

instance (s : VersionedFleet) (id : ObjectId) (read : Option String) (version : String) :
    Decidable (s.Replaceable id read version) := inferInstanceAs (Decidable (_ ∧ _))

/-- The store with a node in place of the one of its name. -/
def putNode (s : VersionedFleet) (version : String) (node : Node) : VersionedFleet where
  nodes := Fleet.overlay [node.stamped version] s.nodes
  policies := s.policies
  statuses := s.statuses
  issued := (.node node.name, version) :: s.issued
  distinct := Fleet.distinctNames_overlay.2 s.distinct
  keyed := s.keyed
  versionedNode n hn := by
    rcases (Fleet.mem_overlay hn).2 with hnew | ⟨hold, -⟩
    · rw [List.mem_singleton.1 hnew]
      exact ⟨version, rfl, List.mem_cons_self⟩
    · exact (s.versionedNode n hold).mono (List.subset_cons_self ..)
  versionedPolicy name p hp := (s.versionedPolicy name p hp).mono (List.subset_cons_self ..)

/-- The store with a record under its name. -/
def putPolicy (s : VersionedFleet) (version : String) (policy : Policy) : VersionedFleet where
  nodes := s.nodes
  policies := Fleet.storePolicy s.policies (policy.stamped version)
  statuses := s.statuses
  issued := (.policy policy.name, version) :: s.issued
  distinct := s.distinct
  keyed name p hp := by
    rcases Fleet.get?_storePolicy_eq_some hp with ⟨hname, hnew⟩ | ⟨-, hold⟩
    · rw [hnew, hname]
    · exact s.keyed name p hold
  versionedNode n hn := (s.versionedNode n hn).mono (List.subset_cons_self ..)
  versionedPolicy name p hp := by
    rcases Fleet.get?_storePolicy_eq_some hp with ⟨hname, hnew⟩ | ⟨-, hold⟩
    · rw [hnew, hname]
      exact ⟨version, rfl, List.mem_cons_self⟩
    · exact (s.versionedPolicy name p hold).mono (List.subset_cons_self ..)

/-- The store with one more node. -/
def addNode (s : VersionedFleet) (version : String) (node : Node)
    (h : node.name ∉ s.nodes.map Node.name) : VersionedFleet where
  nodes := s.nodes ++ [node.stamped version]
  policies := s.policies
  statuses := s.statuses
  issued := (.node node.name, version) :: s.issued
  distinct := by
    rw [DistinctNames, List.map_append, List.nodup_append]
    refine ⟨s.distinct, List.nodup_singleton _, ?_⟩
    rintro a ha b hb rfl
    rw [List.mem_singleton.1 hb] at ha
    exact h ha
  keyed := s.keyed
  versionedNode n hn := by
    rcases List.mem_append.1 hn with hold | hnew
    · exact (s.versionedNode n hold).mono (List.subset_cons_self ..)
    · rw [List.mem_singleton.1 hnew]
      exact ⟨version, rfl, List.mem_cons_self⟩
  versionedPolicy name p hp := (s.versionedPolicy name p hp).mono (List.subset_cons_self ..)

/-- The store without the node of a name. -/
def dropNode (s : VersionedFleet) (name : String) : VersionedFleet where
  nodes := s.nodes.filter (·.name != name)
  policies := s.policies
  statuses := s.statuses
  issued := s.issued
  distinct := s.distinct.filter _
  keyed := s.keyed
  versionedNode n hn := s.versionedNode n (List.mem_filter.1 hn).1
  versionedPolicy := s.versionedPolicy

/-- The store without the record of a name. -/
def dropPolicy (s : VersionedFleet) (name : String) : VersionedFleet where
  nodes := s.nodes
  policies := s.policies.erase name
  statuses := s.statuses
  issued := s.issued
  distinct := s.distinct
  keyed name p hp := s.keyed name p (Fleet.get?_erase_eq_some hp)
  versionedNode := s.versionedNode
  versionedPolicy name p hp := s.versionedPolicy name p (Fleet.get?_erase_eq_some hp)

/-- The store with a status recorded under a name. -/
def putStatus (s : VersionedFleet) (name : String) (status : PolicyStatus) : VersionedFleet :=
  { s with statuses := s.statuses.insert name status }

/-- How the store answers a call, `version` being the one that the object it writes is to get; none
for a call that it rejects. The status of a policy is written without looking at versions, yet only
where there is a record, and the record gets a new version by it. -/
def serve (version : String) (s : VersionedFleet) :
    (call : StoreCall) → Option (call.Answer × VersionedFleet)
  | .getPolicy name => some (s.policies.get? name, s)
  | .listNodes => some (s.nodes, s)
  | .updateNode node =>
      if s.Replaceable (.node node.name) node.version? version then
        some (node.stamped version, s.putNode version node)
      else none
  | .updatePolicy policy =>
      if s.Replaceable (.policy policy.name) policy.version? version then
        some (policy.stamped version, s.putPolicy version policy)
      else none
  | .updateStatus name status =>
      match s.policies.get? name with
      | some p =>
          if s.Fresh (.policy name) version then
            some ((), (s.putPolicy version p).putStatus name status)
          else none
      | none => none

theorem mem_putNode {s : VersionedFleet} {version : String} {node n : Node}
    (h : n ∈ (s.putNode version node).nodes) :
    n = node.stamped version ∨ n ∈ s.nodes ∧ n.name ≠ node.name := by
  rcases (Fleet.mem_overlay h).2 with hnew | ⟨hold, hother⟩
  · exact .inl (List.mem_singleton.1 hnew)
  · exact .inr ⟨hold, fun hname => hother (List.mem_singleton.2 hname)⟩

theorem get?_putPolicy (s : VersionedFleet) (version : String) (p : Policy) (name : String) :
    (s.putPolicy version p).policies.get? name =
      if name = p.name then
        (if p.isDeleting && p.finalizers.isEmpty then none else some (p.stamped version))
      else s.policies.get? name :=
  Fleet.get?_storePolicy s.policies (p.stamped version) name

/-! ## Accepted calls -/

section Serve

variable {s s' : VersionedFleet} {version : String}

/-- An accepted node was made from a copy under the version of the stored one. -/
theorem serve_updateNode {node answer : Node}
    (h : s.serve version (.updateNode node) = some (answer, s')) :
    answer = node.stamped version ∧ s' = s.putNode version node ∧
      s.Fresh (.node node.name) version ∧
        ∃ n ∈ s.nodes, n.name = node.name ∧ n.version? = node.version? := by
  simp only [serve] at h
  split at h
  next haccepted =>
    cases h
    obtain ⟨hexists, hread, hfresh⟩ := haccepted
    refine ⟨rfl, rfl, hfresh, ?_⟩
    cases hn : named? node.name s.nodes with
    | none =>
        rw [version?, hn] at hexists
        exact absurd rfl hexists
    | some n =>
        rw [version?, hn] at hread
        exact ⟨n, mem_of_named? hn, name_of_named? hn, hread.symm⟩
  next => cases h

theorem serve_updatePolicy {policy answer : Policy}
    (h : s.serve version (.updatePolicy policy) = some (answer, s')) :
    answer = policy.stamped version ∧ s' = s.putPolicy version policy := by
  simp only [serve] at h
  split at h
  next => cases h; exact ⟨rfl, rfl⟩
  next => cases h

theorem serve_updateStatus {name : String} {status : PolicyStatus} {answer : Unit}
    (h : s.serve version (.updateStatus name status) = some (answer, s')) :
    ∃ p, s.policies.get? name = some p ∧
      s' = (s.putPolicy version p).putStatus name status := by
  simp only [serve] at h
  split at h
  next p hp =>
    split at h
    next => cases h; exact ⟨p, hp, rfl⟩
    next => cases h
  next => cases h

end Serve

/-! ## What versions are good for -/

/-- What any number of steps of the store may do to versions: none is taken back, and a node that
was not there before is under one that was not given before. -/
structure Advances (s s' : VersionedFleet) : Prop where
  issued : s.issued ⊆ s'.issued
  nodes : ∀ n ∈ s'.nodes, n ∈ s.nodes ∨ ∃ v, n.version? = some v ∧ (.node n.name, v) ∉ s.issued

namespace Advances

variable {s t u : VersionedFleet}

theorem refl (s : VersionedFleet) : Advances s s := ⟨fun _ h => h, fun _ h => .inl h⟩

theorem trans (h₁ : Advances s t) (h₂ : Advances t u) : Advances s u := by
  refine ⟨fun e he => h₂.issued (h₁.issued he), fun n hn => ?_⟩
  rcases h₂.nodes n hn with hold | ⟨v, hv, hnew⟩
  · exact h₁.nodes n hold
  · exact .inr ⟨v, hv, fun hmem => hnew (h₁.issued hmem)⟩

/-- A node under a version that had been given before is the one that was there before. -/
theorem mem_of_versioned (h : Advances s t) {n : Node} (hn : n ∈ t.nodes)
    (hversion : Versioned s.issued (.node n.name) n.version?) : n ∈ s.nodes := by
  rcases h.nodes n hn with hold | ⟨v, hv, hnew⟩
  · exact hold
  · obtain ⟨v', hv', hmem⟩ := hversion
    rw [hv] at hv'
    exact absurd (Option.some.inj hv' ▸ hmem) hnew

theorem putNode {version : String} {node : Node} (hfresh : s.Fresh (.node node.name) version) :
    Advances s (s.putNode version node) := by
  refine ⟨List.subset_cons_self .., fun n hn => ?_⟩
  rcases mem_putNode hn with rfl | ⟨hold, -⟩
  · exact .inr ⟨version, rfl, hfresh⟩
  · exact .inl hold

theorem putPolicy (s : VersionedFleet) (version : String) (p : Policy) :
    Advances s (s.putPolicy version p) :=
  ⟨List.subset_cons_self .., fun _ h => .inl h⟩

end Advances

end VersionedFleet

end FleetLabels
