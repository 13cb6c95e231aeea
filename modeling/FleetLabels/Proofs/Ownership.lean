import FleetLabels.Proofs.InMemory

/-!
# Who carries the labels of a policy after a pass

A pass that succeeds on a live policy leaves the fleet in a state that can be said without the pass:
the recorded selection is made of as many ready nodes as were asked for, exactly the nodes recorded
carry the marker, they carry the declared labels with it, and a node that was released has lost
both. All other nodes are as they were, and so are all other labels.

## Main results

* `OwnsExactly` — that state, as a relation between the fleet before, the fleet after and the
  recorded names.
* `ownsExactly_settled` — settling a fleet by a selection establishes it.
* `reconcile_ownsExactly` — a successful pass of a live policy establishes it, whatever labels the
  nodes carried before, with or without the finalizer, for every strategy and every draw.
-/

namespace FleetLabels

/-- What a successful pass of the policy `p` makes of the nodes `before`, `selected` being the names
that it records. -/
structure OwnsExactly (p : Policy) (before after : List Node) (selected : List String) : Prop where
  /-- The fleet has the same nodes in the same order. -/
  names : after.map Node.name = before.map Node.name
  /-- The marked nodes are exactly the recorded ones. -/
  marked : ∀ n ∈ after, n.isManagedBy p.markerKey = true ↔ n.name ∈ selected
  /-- No name is recorded twice. -/
  distinct : selected.Nodup
  /-- Every recorded name is that of a ready node. -/
  ready : ∀ name ∈ selected, ∃ n ∈ before, n.name = name ∧ n.isReady = true
  /-- As many are recorded as asked for, or all that are ready. -/
  count : (selected.length : Int) =
    min (max p.spec.strategy.count.toInt 0) (Node.ready before).length
  /-- Recorded nodes carry the declared labels. -/
  declared : ∀ n ∈ after, n.name ∈ selected → ∀ k v, k ≠ p.markerKey →
    p.spec.labels.get? k = some v → n.labels.get? k = some v
  /-- A marked node that is not recorded has lost the marker and the declared keys. -/
  released : ∀ n ∈ before, ∀ n' ∈ after, n'.name = n.name → n.isManagedBy p.markerKey = true →
    n.name ∉ selected → ∀ k, k = p.markerKey ∨ k ∈ p.spec.labels.keys → n'.labels.get? k = none
  /-- An unmarked node that is not recorded is as it was. -/
  untouched : ∀ n ∈ before, ∀ n' ∈ after, n'.name = n.name → n.isManagedBy p.markerKey = false →
    n.name ∉ selected → n' = n
  /-- Nothing but labels under the marker and the declared keys is changed on any node. -/
  frame : ∀ n ∈ before, ∀ n' ∈ after, n'.name = n.name →
    n'.bare = n.bare ∧ ∀ k, k ≠ p.markerKey → k ∉ p.spec.labels.keys →
      n'.labels.get? k = n.labels.get? k

namespace Policy

variable {p : Policy} {selected : List String} {n : Node}

theorem settled_of_mem (h : n.name ∈ selected) :
    p.settled selected n = n.joined p.spec.labels p.markerKey := if_pos h

theorem settled_of_marked (h : n.name ∉ selected) (hmarked : n.isManagedBy p.markerKey = true) :
    p.settled selected n = n.left p.spec.labels p.markerKey := by
  rw [settled, if_neg h, if_pos hmarked]

theorem settled_of_unmarked (h : n.name ∉ selected)
    (hmarked : n.isManagedBy p.markerKey = false) : p.settled selected n = n := by
  rw [settled, if_neg h, hmarked]
  rfl

theorem get?_settled_of_other {k : String} (hmarker : k ≠ p.markerKey)
    (hdeclared : k ∉ p.spec.labels.keys) :
    (p.settled selected n).labels.get? k = n.labels.get? k := by
  unfold settled
  split
  · rw [Node.get?_joined, if_neg hmarker, KeyMap.get?_eq_none_of_notMem hdeclared]
    rfl
  · split
    · rw [Node.get?_left, if_neg (not_or.2 ⟨hmarker, hdeclared⟩)]
    · rfl

end Policy

/-- A selection that the policy asks for, and a fleet settled by it. -/
theorem ownsExactly_settled {p : Policy} {nodes selected : List Node} {draws : DrawSource}
    (hdistinct : DistinctNames nodes)
    (hselect : select nodes p.spec.strategy draws = .ok selected) :
    OwnsExactly p nodes (nodes.map (p.settled (selected.map Node.name)))
      (selected.map Node.name) := by
  -- Names are distinct, so that a node of the settled fleet is the settled node of its name.
  have hsettled : ∀ n ∈ nodes, ∀ n' ∈ nodes.map (p.settled (selected.map Node.name)),
      n'.name = n.name → n' = p.settled (selected.map Node.name) n := by
    intro n hn n' hn' hname
    obtain ⟨m, hm, rfl⟩ := List.mem_map.1 hn'
    rw [hdistinct.eq_of_name_eq hm hn ((p.name_settled _ m).symm.trans hname)]
  constructor
  case names =>
    rw [List.map_map]
    exact List.map_congr_left fun n _ => p.name_settled _ n
  case marked =>
    intro n' hn'
    obtain ⟨n, -, rfl⟩ := List.mem_map.1 hn'
    rw [p.isManagedBy_settled, p.name_settled]
  case distinct => exact nodup_names_of_select hselect hdistinct
  case ready =>
    intro name hname
    obtain ⟨n, hn, rfl⟩ := List.mem_map.1 hname
    exact ⟨n, mem_of_select hselect hn, rfl, isReady_of_select hselect hn⟩
  case count =>
    rw [List.length_map, length_of_select hselect, ← StrategySpec.limit_eq_max]
    omega
  case declared =>
    intro n' hn' hmem k v hmarker hvalue
    obtain ⟨n, -, rfl⟩ := List.mem_map.1 hn'
    rw [p.name_settled] at hmem
    rw [Policy.settled_of_mem hmem, Node.get?_joined, if_neg hmarker, hvalue]
    rfl
  case released =>
    intro n hn n' hn' hname hmarked hmem k hk
    rw [hsettled n hn n' hn' hname, Policy.settled_of_marked hmem hmarked, Node.get?_left,
      if_pos hk]
  case untouched =>
    intro n hn n' hn' hname hmarked hmem
    rw [hsettled n hn n' hn' hname, Policy.settled_of_unmarked hmem hmarked]
  case frame =>
    intro n hn n' hn' hname
    rw [hsettled n hn n' hn' hname]
    exact ⟨p.bare_settled _ n, fun k hmarker hdeclared =>
      Policy.get?_settled_of_other hmarker hdeclared⟩

/-- **Marker exactness**: after a successful pass of a live policy the nodes recorded in its status
are exactly those that carry its marker, with all that goes with it. -/
theorem reconcile_ownsExactly {f f' : Fleet} {name : String} {p : Policy} {outcome : Outcome}
    (settings : PassSettings) (hdistinct : DistinctNames f.nodes)
    (hstored : f.policies.get? name = some p) (hname : p.name = name)
    (hlive : p.isDeleting = false)
    (hrun : (Pass.reconcile settings name).run Fleet.handler f = (.ok outcome, f')) :
    ∃ status, f'.statuses.get? name = some status ∧
      OwnsExactly p f.nodes f'.nodes status.selectedNodes := by
  rw [Pass.run_reconcile_live hdistinct settings hstored hlive] at hrun
  cases hselect : select f.nodes p.spec.strategy settings.draws with
  | error e =>
      rw [hselect] at hrun
      cases hrun
  | ok selected =>
      rw [hselect] at hrun
      cases hrun
      refine ⟨Pass.statusOf selected settings.now, ?_, ownsExactly_settled hdistinct hselect⟩
      rw [KeyMap.get?_insert, if_pos hname.symm]

/-- A fleet in which one ready node is marked already, with an outdated label, and one that is not
ready any more still carries everything. -/
def staleFleet : Fleet where
  nodes :=
    [.plain "a" "True" [("zone", "1")],
     .plain "b" "True" [(Marker.key "web", "true"), ("tier", "old")],
     .plain "c" "False" [(Marker.key "web", "true"), ("tier", "front"), ("zone", "2")],
     .plain "d" "True" []]
  policies := Fleet.policiesOf [.plain "web" "random" 2 [("tier", "front")]]

/-- The shuffle that moves no node selects `a` and `b`. -/
theorem reconcile_ownsExactly_staleFleet :
    let result := (Pass.reconcile .plain "web").run Fleet.handler staleFleet
    result.1 = .ok (.requeue 300) ∧
      ∃ status, result.2.statuses.get? "web" = some status ∧
        OwnsExactly (.plain "web" "random" 2 [("tier", "front")]) staleFleet.nodes result.2.nodes
          status.selectedNodes :=
  ⟨rfl, reconcile_ownsExactly .plain (by decide) (by decide) (by decide) (by decide) rfl⟩

end FleetLabels
