import FleetLabels.Proofs.Versioned.Store
import FleetLabels.Proofs.Writes

/-!
# What a late write leaves alone

A pass lists the fleet once and writes whole nodes later, each made from the copy that was listed.
Whatever others did to a node in between would be undone by such a write, were it not for versions:
the write carries the version of the copy, so that it is accepted only if the stored node still is
the copy. Then it differs from the stored node by the labels that the policy owns, and by nothing
else.

A write that is still to be made is therefore `Pending`: either its node is as it was listed, or the
version has moved on. That stays true whatever the store does.

## Main results

* `Pending.of_listed` — a write made from a listed node is pending.
* `Pending.advances` — it stays pending.
* `Pending.changesOnly` — if it is accepted, only owned labels change, and the version.
-/

namespace FleetLabels

namespace Node

/-- The node without its version. -/
def unversioned (n : Node) : Node :=
  { n with metadata := { n.metadata with resourceVersion := none } }

/-- The nodes are the same except for the version and for labels under the given keys. -/
structure SameExcept (keys : String → Prop) (n n' : Node) : Prop where
  rest : n'.unversioned.bare = n.unversioned.bare
  labels : ∀ k, ¬keys k → n'.labels.get? k = n.labels.get? k

namespace SameExcept

variable {keys : String → Prop} {n n' : Node}

theorem refl (keys : String → Prop) (n : Node) : SameExcept keys n n := ⟨rfl, fun _ _ => rfl⟩

theorem of_bare_eq (hbare : n'.bare = n.bare)
    (hlabels : ∀ k, ¬keys k → n'.labels.get? k = n.labels.get? k) : SameExcept keys n n' := by
  refine ⟨?_, hlabels⟩
  show n'.bare.unversioned = n.bare.unversioned
  rw [hbare]

theorem stamped (h : SameExcept keys n n') (version : String) :
    SameExcept keys n (n'.stamped version) := ⟨h.rest, h.labels⟩

theorem name_eq (h : SameExcept keys n n') : n'.name = n.name := by
  show n'.unversioned.bare.name = n.unversioned.bare.name
  rw [h.rest]

theorem isManagedBy_eq (h : SameExcept keys n n') {marker : String} (hmarker : ¬keys marker) :
    n'.isManagedBy marker = n.isManagedBy marker := by
  rw [isManagedBy, h.labels marker hmarker, isManagedBy]

end SameExcept

end Node

/-- The fleet has the same nodes in the same order, each the same except for its version and for
labels under the given keys. -/
def ChangesOnly (keys : String → Prop) (before after : List Node) : Prop :=
  List.Forall₂ (Node.SameExcept keys) before after

theorem ChangesOnly.refl (keys : String → Prop) (nodes : List Node) :
    ChangesOnly keys nodes nodes := List.forall₂_same.2 fun n _ => .refl keys n

theorem changesOnly_putNode {keys : String → Prop} {s : VersionedFleet} {w : Node}
    (h : ∀ n ∈ s.nodes, n.name = w.name → n.SameExcept keys w) (version : String) :
    ChangesOnly keys s.nodes (s.putNode version w).nodes := by
  refine List.forall₂_map_right_iff.2 (List.forall₂_same.2 fun n hn => ?_)
  rw [named?_cons, Node.name_stamped]
  split
  next hname => exact (h n hn hname.symm).stamped version
  next => exact .refl keys n

/-! ## Writes made from listed nodes -/

/-- The write was made from a copy of a node: either the stored node is that copy still, or it has
another version. -/
structure Pending (keys : String → Prop) (s : VersionedFleet) (w : Node) : Prop where
  versioned : Versioned s.issued (.node w.name) w.version?
  current : ∀ n ∈ s.nodes, n.name = w.name → n.version? = w.version? → n.SameExcept keys w

namespace Pending

variable {keys : String → Prop} {s t : VersionedFleet} {w : Node}

theorem of_listed {n : Node} (hn : n ∈ s.nodes) (hbare : w.bare = n.bare)
    (hlabels : ∀ k, ¬keys k → w.labels.get? k = n.labels.get? k) : Pending keys s w := by
  have hname : w.name = n.name := Node.name_eq_of_bare_eq hbare
  have hversion : w.version? = n.version? := by
    show w.bare.version? = n.bare.version?
    rw [hbare]
  constructor
  · rw [hname, hversion]
    exact s.versionedNode n hn
  · intro m hm hmname _
    rw [s.distinct.eq_of_name_eq hm hn (hmname.trans hname)]
    exact .of_bare_eq hbare hlabels

/-- A node under the version of the copy was there when the copy was made. -/
theorem advances (h : Pending keys s w) (hst : s.Advances t) : Pending keys t w := by
  refine ⟨h.versioned.mono hst.issued, fun n hn hname hversion => ?_⟩
  have hold : n ∈ s.nodes := by
    refine hst.mem_of_versioned hn ?_
    rw [hname, hversion]
    exact h.versioned
  exact h.current n hold hname hversion

theorem changesOnly (h : Pending keys s w) {version : String} {answer : Node}
    (hserve : s.serve version (.updateNode w) = some (answer, t)) :
    ChangesOnly keys s.nodes t.nodes := by
  obtain ⟨-, rfl, -, n, hn, hname, hversion⟩ := VersionedFleet.serve_updateNode hserve
  refine changesOnly_putNode (fun m hm hmname => ?_) version
  rw [s.distinct.eq_of_name_eq hm hn (hmname.trans hname.symm)]
  exact h.current n hn hname hversion

end Pending

/-! ## The writes of a pass -/

section Writes

variable {s : VersionedFleet} {keys : String → Prop}

theorem pending_applyWrites {p : Policy} {selected : List Node} (hsub : selected ⊆ s.nodes)
    (hkeys : ∀ k, Owned p.name p.spec.labels k → keys k) :
    ∀ w ∈ Pass.applyWrites p s.nodes selected, Pending keys s w := by
  intro w hw
  rcases List.mem_append.1 hw with hjoin | hleft
  · obtain ⟨n, hn, hw⟩ := List.mem_filterMap.1 hjoin
    have hwjoined : w = n.joined p.spec.labels p.markerKey := by
      rw [Node.joined, hw, Option.getD_some]
    refine .of_listed (hsub hn) (Node.bare_of_joined?_eq_some hw) fun k hk => ?_
    rw [hwjoined]
    exact n.get?_joined_of_not_owned fun howned => hk (hkeys k howned)
  · obtain ⟨n, hn, rfl⟩ := List.mem_map.1 hleft
    refine .of_listed (Pass.unselected_subset _ hn) (n.bare_left ..) fun k hk => ?_
    exact n.get?_left_of_not_owned fun howned => hk (hkeys k howned)

theorem pending_cleanupWrites {policy : String} {declared : Labels}
    (hkeys : ∀ k, Owned policy declared k → keys k) :
    ∀ w ∈ Pass.cleanupWrites policy declared s.nodes, Pending keys s w := by
  intro w hw
  obtain ⟨n, hn, rfl⟩ := List.mem_map.1 hw
  refine .of_listed (List.mem_filter.1 hn).1 (n.bare_stripped ..) fun k hk => ?_
  exact n.get?_stripped_of_not_owned fun howned => hk (hkeys k howned)

end Writes

end FleetLabels
