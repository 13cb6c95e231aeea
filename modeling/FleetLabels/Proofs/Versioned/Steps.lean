import FleetLabels.Proofs.Versioned.Frame

/-!
# Steps of a policy, and of others

With several policies over one store, a step is an own step to one policy and a step of others to
the rest. An `OwnStep` changes labels under the keys of the policy, its record and its status. An
`OthersStep` leaves to a policy all that its pass looks at: the names of the nodes, its marker on
them, its record and its status. The fleet itself may change a great deal by it, but only under
labels that mean nothing to the policy.

## Main results

* `OwnStep.others` — an own step of one policy is a step of others to every policy with other keys.
* `OwnStep.putNode`, `OwnStep.putPolicy`, `OwnStep.putStatus` — the writes of a pass are own steps.
-/

namespace FleetLabels

/-- What a policy sees of a node: its name, and whether the marker is there. -/
def Node.view (policy : String) (n : Node) : String × Bool :=
  (n.name, n.isManagedBy (Marker.key policy))

/-- The labels that a policy declares, none without a record. -/
def VersionedFleet.declared (s : VersionedFleet) (policy : String) : Labels :=
  match s.policies.get? policy with
  | some p => p.spec.labels
  | none => .empty

/-- The record of a policy, if there is one, declares labels under the given keys only. -/
def DeclaresWithin (policy : String) (keys : String → Prop) (s : VersionedFleet) : Prop :=
  ∀ p, s.policies.get? policy = some p → ∀ k ∈ p.spec.labels.keys, keys k

/-- The record of a policy is there and not under deletion. -/
def Live (policy : String) (s : VersionedFleet) : Prop :=
  ∃ p, s.policies.get? policy = some p ∧ p.isDeleting = false

/-- Others leave to a policy its view of the fleet, its record and its status. -/
structure OthersStep (policy : String) (s s' : VersionedFleet) : Prop where
  views : s'.nodes.map (·.view policy) = s.nodes.map (·.view policy)
  record : s'.policies.get? policy = s.policies.get? policy
  status : s'.statuses.get? policy = s.statuses.get? policy
  advances : s.Advances s'

/-- A policy changes labels under its keys, its own record and its own status. Its record goes on
declaring labels under these keys only, and is not lost while it is live. -/
structure OwnStep (policy : String) (keys : String → Prop) (s s' : VersionedFleet) : Prop where
  nodes : ChangesOnly keys s.nodes s'.nodes
  records : ∀ q, q ≠ policy → s'.policies.get? q = s.policies.get? q
  statuses : ∀ q, q ≠ policy → s'.statuses.get? q = s.statuses.get? q
  declared : DeclaresWithin policy keys s → DeclaresWithin policy keys s'
  live : Live policy s → Live policy s'
  advances : s.Advances s'

section Steps

variable {policy q version : String} {keys : String → Prop} {s t u : VersionedFleet}

theorem OthersStep.refl (policy : String) (s : VersionedFleet) : OthersStep policy s s :=
  ⟨rfl, rfl, rfl, .refl s⟩

theorem OthersStep.trans (h₁ : OthersStep policy s t) (h₂ : OthersStep policy t u) :
    OthersStep policy s u :=
  ⟨h₂.views.trans h₁.views, h₂.record.trans h₁.record, h₂.status.trans h₁.status,
    h₁.advances.trans h₂.advances⟩

theorem DeclaresWithin.others (h : DeclaresWithin policy keys s) (hst : OthersStep policy s t) :
    DeclaresWithin policy keys t := by
  intro p hp
  rw [hst.record] at hp
  exact h p hp

theorem live_iff {p : Policy} (hp : s.policies.get? policy = some p) :
    Live policy s ↔ p.isDeleting = false := by
  constructor
  · rintro ⟨q, hq, hlive⟩
    rw [hp] at hq
    exact Option.some.inj hq ▸ hlive
  · intro hlive
    exact ⟨p, hp, hlive⟩

theorem not_live_of_none (hp : s.policies.get? policy = none) : ¬Live policy s := by
  rintro ⟨q, hq, -⟩
  rw [hp] at hq
  cases hq

theorem Live.of_others (hst : OthersStep policy s t) (h : Live policy t) : Live policy s := by
  obtain ⟨p, hp, hlive⟩ := h
  exact ⟨p, hst.record ▸ hp, hlive⟩

theorem Live.others (h : Live policy s) (hst : OthersStep policy s t) : Live policy t := by
  obtain ⟨p, hp, hlive⟩ := h
  exact ⟨p, hst.record.trans hp, hlive⟩

theorem OthersStep.exists_before (h : OthersStep policy s t) {n' : Node} (hn' : n' ∈ t.nodes) :
    ∃ n ∈ s.nodes, n.view policy = n'.view policy :=
  List.mem_map.1 (h.views ▸ List.mem_map_of_mem hn')

theorem OthersStep.exists_after (h : OthersStep policy s t) {n : Node} (hn : n ∈ s.nodes) :
    ∃ n' ∈ t.nodes, n'.view policy = n.view policy :=
  List.mem_map.1 (h.views.symm ▸ List.mem_map_of_mem hn)

theorem OwnStep.refl (policy : String) (keys : String → Prop) (s : VersionedFleet) :
    OwnStep policy keys s s :=
  ⟨.refl keys s.nodes, fun _ _ => rfl, fun _ _ => rfl, id, id, .refl s⟩

/-- The steps of one policy are steps of others to every policy whose marker is not among the keys
of the first. -/
theorem OwnStep.others (h : OwnStep policy keys s t) (hne : q ≠ policy)
    (hmarker : ¬keys (Marker.key q)) : OthersStep q s t := by
  refine ⟨?_, h.records q hne, h.statuses q hne, h.advances⟩
  have hviews : List.Forall₂ (fun n n' => n.view q = n'.view q) s.nodes t.nodes := by
    refine h.nodes.imp fun n n' hsame => ?_
    rw [Node.view, Node.view, hsame.name_eq, hsame.isManagedBy_eq hmarker]
  rw [← List.forall₂_eq_eq_eq, List.forall₂_map_left_iff, List.forall₂_map_right_iff]
  exact hviews.flip.imp fun _ _ => Eq.symm

/-! ### The calls of a pass -/

theorem OwnStep.putNode {w answer : Node} (h : Pending keys s w)
    (hserve : s.serve version (.updateNode w) = some (answer, t)) : OwnStep policy keys s t := by
  have hnodes : ChangesOnly keys s.nodes t.nodes := h.changesOnly hserve
  obtain ⟨-, rfl, hfresh, -⟩ := VersionedFleet.serve_updateNode hserve
  exact ⟨hnodes, fun _ _ => rfl, fun _ _ => rfl, id, id, .putNode hfresh⟩

/-- A record is put under its name, and no other record is touched. -/
theorem OwnStep.putPolicy {p : Policy} (hname : p.name = policy)
    (hkeys : DeclaresWithin policy keys s → ∀ k ∈ p.spec.labels.keys, keys k)
    (hlive : Live policy s → p.isDeleting = false) :
    OwnStep policy keys s (s.putPolicy version p) := by
  constructor
  case nodes => exact .refl keys s.nodes
  case records =>
    intro q hq
    rw [VersionedFleet.get?_putPolicy, hname, if_neg hq]
  case statuses => exact fun _ _ => rfl
  case declared =>
    intro hdeclared r hr
    rcases Fleet.get?_storePolicy_eq_some hr with ⟨-, rfl⟩ | ⟨-, hold⟩
    · exact hkeys hdeclared
    · exact hdeclared r hold
  case live =>
    intro h
    refine ⟨p.stamped version, ?_, hlive h⟩
    rw [VersionedFleet.get?_putPolicy, if_pos hname.symm, hlive h]
    rfl
  case advances => exact .putPolicy s version p

theorem OwnStep.putStatus (status : PolicyStatus) (h : OwnStep policy keys s t) :
    OwnStep policy keys s (t.putStatus policy status) := by
  refine ⟨h.nodes, h.records, fun q hq => ?_, h.declared, h.live, h.advances.issued,
    h.advances.nodes⟩
  show (t.statuses.insert policy status).get? q = _
  rw [KeyMap.get?_insert, if_neg hq]
  exact h.statuses q hq

end Steps

end FleetLabels
