import FleetLabels.Proofs.Effect
import FleetLabels.Proofs.NodeEvents

/-!
# The order of the listing

A store lists the nodes of its fleet in an order of its own, and may list them in another one the
next time. Under the strategies by time nothing of that shows. Ready nodes that differ in their
creation or their name can be arranged in one way only, whatever order they come in; and of the
writes that a pass makes for them, no two are about the same node, so that making them in another
order leaves the same fleet.

A listing in another order is a change to one call of the store, `Fleet.listing`. A pass lists the
fleet once, so its run is compared with that over the plain store at this one call.

## Main results

* `Strategy.arrange_eq_of_perm`, `select_of_perm` — arrangements and selections from another order.
* `Pass.run_reconcile_listing` — a live pass over a store that lists in another order.
* `named?_of_perm` — nodes in another order are found under the same names.
* `listing_order_irrelevant` — the selection, and all that a pass leaves behind, for any two orders.
-/

namespace FleetLabels

/-! ## Selections from another order -/

section Selections

variable {nodes nodes' : List Node}

theorem Strategy.arrange_eq_of_perm {s : Strategy} (hs : s ≠ .random) (hperm : nodes'.Perm nodes)
    (hdistinct : (nodes.map Node.standing).Nodup) (draws draws' : DrawSource) :
    s.arrange nodes' draws' = s.arrange nodes draws := by
  have hdistinct' : (nodes'.map Node.standing).Nodup := (hperm.map _).nodup_iff.2 hdistinct
  -- The arrangement of the one list is a sorted order of the other.
  refine arrange_eq_of_sorted hs hdistinct' ?_ (pairwise_arrange nodes draws) draws'
  exact (s.arrange_perm nodes draws).trans hperm.symm

/-- The nodes are selected one for one, however they are listed. -/
theorem select_of_perm {spec : StrategySpec} (hordered : spec.Ordered) (hperm : nodes'.Perm nodes)
    (hdistinct : ((Node.ready nodes).map Node.standing).Nodup) (draws draws' : DrawSource) :
    ∃ selected, select nodes spec draws = .ok selected ∧
      select nodes' spec draws' = .ok selected := by
  obtain ⟨s, hs, hparse⟩ := hordered.parse
  have hready : (Node.ready nodes').Perm (Node.ready nodes) := hperm.filter _
  refine ⟨_, select_eq_take_arrange hparse nodes draws, ?_⟩
  rw [select_eq_take_arrange hparse, Strategy.arrange_eq_of_perm hs hready hdistinct draws draws']

theorem named?_of_perm (hdistinct : DistinctNames nodes) (hperm : nodes'.Perm nodes)
    (name : String) : named? name nodes' = named? name nodes := by
  have hnames : name ∈ nodes'.map Node.name ↔ name ∈ nodes.map Node.name :=
    (hperm.map Node.name).mem_iff
  by_cases hname : name ∈ nodes.map Node.name
  · obtain ⟨n, hn, rfl⟩ := List.mem_map.1 hname
    rw [named?_of_subset hdistinct hperm.subset hn, if_pos (hnames.2 hname),
      named?_of_subset hdistinct (List.Subset.refl _) hn, if_pos hname]
  · rw [named?_eq_none_iff.2 hname, named?_eq_none_iff.2 (mt hnames.1 hname)]

end Selections

/-! ## Stores that list in another order -/

/-- An order in which a store lists nodes. -/
structure ListingOrder where
  reorder : List Node → List Node
  perm : ∀ nodes, (reorder nodes).Perm nodes

/-- The order in which the nodes are held. -/
def ListingOrder.held : ListingOrder := ⟨id, List.Perm.refl⟩

/-- The order in which the nodes are held, from the last one to the first. -/
def ListingOrder.reversed : ListingOrder := ⟨List.reverse, List.reverse_perm⟩

/-- The fleet as a store that lists its nodes in the given order. -/
def Fleet.listing (order : ListingOrder) : Pass.Handler Fleet := fun call f =>
  match call with
  | .listNodes => (.ok (order.reorder f.nodes), f)
  | .getPolicy name => handler (.getPolicy name) f
  | .updateNode node => handler (.updateNode node) f
  | .updatePolicy policy => handler (.updatePolicy policy) f
  | .updateStatus policy status => handler (.updateStatus policy status) f

/-- What the writes make of the listed nodes they make of the same nodes in any order. -/
theorem Fleet.overlay_eq_map_of_subset {writes nodes listed : List Node} {act : Node → Node}
    (hlisted : overlay writes listed = listed.map act) (hsub : nodes ⊆ listed) :
    overlay writes nodes = nodes.map act :=
  List.map_congr_left fun n hn => List.map_inj_left.1 hlisted n (hsub hn)

namespace Pass

variable {f : Fleet} {name : String} {p : Policy}

theorem run_listing_writeAll (order : ListingOrder) (writes : List Node) (f : Fleet) :
    (writeAll writes).run (Fleet.listing order) f = (writeAll writes).run Fleet.handler f := by
  induction writes generalizing f with
  | nil => rfl
  | cons w rest ih =>
      show ((updateNode w).bind fun _ => writeAll rest).run (Fleet.listing order) f =
        ((updateNode w).bind fun _ => writeAll rest).run Fleet.handler f
      have hfirst : (updateNode w).run (Fleet.listing order) f =
          (updateNode w).run Fleet.handler f := by
        simp only [updateNode, call, bind, run, Fleet.listing]
        split <;> rfl
      rw [run_bind, run_bind, hfirst]
      split
      · exact ih _
      · rfl

theorem run_apply_listing (order : ListingOrder) (hdistinct : DistinctNames f.nodes)
    (hordered : p.spec.strategy.Ordered) (settings : PassSettings) :
    (apply settings p).run (Fleet.listing order) f = (apply settings p).run Fleet.handler f := by
  have hperm := order.perm f.nodes
  have hready : ((Node.ready f.nodes).map Node.standing).Nodup :=
    DistinctNames.standing (hdistinct.filter _)
  obtain ⟨selected, hselect, hselect'⟩ :=
    select_of_perm hordered hperm hready settings.draws settings.draws
  have hlisted : DistinctNames (order.reorder f.nodes) := hdistinct.perm hperm
  have hsub : selected ⊆ order.reorder f.nodes := fun n hn => mem_of_select hselect' hn
  have hsel : DistinctNames selected := nodup_names_of_select hselect hdistinct
  have hwrites : ∀ w ∈ (applyWrites p (order.reorder f.nodes) selected).map Node.name,
      w ∈ f.nodes.map Node.name := fun w hw =>
    (hperm.map Node.name).subset (names_applyWrites_subset hsub hw)
  rw [run_apply hdistinct, hselect, apply_eq, run_bind]
  show ((ofExcept (select (order.reorder f.nodes) p.spec.strategy settings.draws)).bind _).run
    (Fleet.listing order) f = _
  rw [hselect']
  show ((writeAll (applyWrites p (order.reorder f.nodes) selected)).bind _).run
    (Fleet.listing order) f = _
  rw [run_bind, run_listing_writeAll,
    run_writeAll hdistinct (distinctNames_applyWrites hlisted hsel) hwrites,
    Fleet.overlay_eq_map_of_subset (overlay_applyWrites hlisted hsub hsel) hperm.symm.subset]
  rfl

/-- The pass of a live policy over a store that lists its nodes in another order. -/
theorem run_reconcile_listing (order : ListingOrder) (hdistinct : DistinctNames f.nodes)
    (hstored : f.policies.get? name = some p) (hlive : p.isDeleting = false)
    (hordered : p.spec.strategy.Ordered) (settings : PassSettings) :
    (reconcile settings name).run (Fleet.listing order) f =
      (reconcile settings name).run Fleet.handler f := by
  rw [reconcile_eq, run_bind, run_bind]
  simp only [getPolicy, call, run, Fleet.listing, Fleet.handler, Fleet.answer, Except.mapError,
    hstored]
  cases hfinalizer : p.hasFinalizer with
  | true =>
      have hstate : Policy.State.of (some p) = .tracked p :=
        Policy.State.of_eq_iff.2 ⟨rfl, hlive, hfinalizer⟩
      rw [hstate]
      exact run_apply_listing order hdistinct hordered settings
  | false =>
      have hstate : Policy.State.of (some p) = .untracked p :=
        Policy.State.of_eq_iff.2 ⟨rfl, hlive, hfinalizer⟩
      rw [hstate]
      show ((updatePolicy p.track).bind (apply settings)).run (Fleet.listing order) f =
        ((updatePolicy p.track).bind (apply settings)).run Fleet.handler f
      rw [run_bind, run_bind]
      simp only [updatePolicy, call, run, Fleet.listing, Fleet.handler, Fleet.answer,
        Except.mapError]
      exact run_apply_listing (f := { f with policies := Fleet.storePolicy f.policies p.track })
        (p := p.track) order hdistinct hordered settings

end Pass

/-! ## Passes in another order -/

/-- The same fleet with its nodes held in another order, up to the times that statuses tell. -/
structure Fleet.Reordered (f f' : Fleet) : Prop where
  nodes : f'.nodes.Perm f.nodes
  policies : f'.policies = f.policies
  recorded : ∀ name, f'.recorded? name = f.recorded? name

/-- Every name stands for the same node. -/
theorem Fleet.Reordered.node?_eq {f f' : Fleet} (h : f.Reordered f')
    (hdistinct : DistinctNames f.nodes) (name : String) : f'.node? name = f.node? name :=
  named?_of_perm hdistinct h.nodes name

/-- Fleets that differ in their order are settled alike. -/
theorem Pass.reordered_of_run {f f' : Fleet} {name : String} {p : Policy}
    (hdistinct : DistinctNames f.nodes) (hsame : f.Reordered f')
    (hstored : f.policies.get? name = some p) (hlive : p.isDeleting = false)
    (hordered : p.spec.strategy.Ordered) (settings settings' : PassSettings) :
    ∃ g g', (reconcile settings name).run Fleet.handler f = (.ok (.requeue settings.interval), g) ∧
      (reconcile settings' name).run Fleet.handler f' = (.ok (.requeue settings'.interval), g') ∧
      DistinctNames g.nodes ∧ g.Reordered g' ∧
      g.recorded? p.name = some (p.spec.strategy.choice f.nodes) := by
  have hready : ((Node.ready f.nodes).map Node.standing).Nodup :=
    DistinctNames.standing (hdistinct.filter _)
  obtain ⟨selected, hselect, hselect'⟩ :=
    select_of_perm hordered hsame.nodes hready settings.draws settings'.draws
  have hrun := run_reconcile_live hdistinct settings hstored hlive
  have hrun' := run_reconcile_live (hdistinct.perm hsame.nodes) settings'
    (hsame.policies ▸ hstored) hlive
  rw [hselect] at hrun
  rw [hselect'] at hrun'
  refine ⟨_, _, hrun, hrun', ?_, ?_, ?_⟩
  · exact hdistinct.map (p.name_settled _)
  · constructor
    case nodes => exact hsame.nodes.map _
    case policies => exact congrArg (withTracked · p) hsame.policies
    case recorded =>
      intro q
      have hnew := f.recorded?_insert p.name (statusOf selected settings.now) q
      have hnew' := f'.recorded?_insert p.name (statusOf selected settings'.now) q
      rw [hsame.recorded] at hnew'
      exact hnew'.trans hnew.symm
  · obtain ⟨selected', hselected', hchoice⟩ := select_of_ordered hordered f.nodes settings.draws
    obtain rfl : selected = selected' := Except.ok.inj (hselect.symm.trans hselected')
    rw [← hchoice]
    exact (f.recorded?_insert p.name (statusOf selected settings.now) p.name).trans (if_pos rfl)

/-- **The order of the listing does not show.** Under an ordered strategy, ready nodes that differ
in creation or name are selected alike from every order of the list. A pass of a live policy then
succeeds over a fleet of distinct names, in whatever order the nodes are held and listed; every name
stands for the same node afterwards, with the same labels, and the same names are recorded. -/
theorem listing_order_irrelevant :
    (∀ {spec : StrategySpec}, spec.Ordered → ∀ {nodes nodes' : List Node}, nodes'.Perm nodes →
      ((Node.ready nodes).map Node.standing).Nodup → ∀ draws draws' : DrawSource,
        ∃ selected, select nodes spec draws = .ok selected ∧
          select nodes' spec draws' = .ok selected) ∧
      ∀ {f f' : Fleet} {name : String} {p : Policy}, DistinctNames f.nodes → f.Reordered f' →
        f.policies.get? name = some p → p.isDeleting = false → p.spec.strategy.Ordered →
        ∀ (order order' : ListingOrder) (settings settings' : PassSettings), ∃ g g',
          (Pass.reconcile settings name).run (Fleet.listing order) f =
              (.ok (.requeue settings.interval), g) ∧
            (Pass.reconcile settings' name).run (Fleet.listing order') f' =
              (.ok (.requeue settings'.interval), g') ∧
            (∀ node, g'.node? node = g.node? node) ∧
            g.recorded? p.name = some (p.spec.strategy.choice f.nodes) ∧
            (∀ policy, g'.recorded? policy = g.recorded? policy) ∧ g'.policies = g.policies := by
  refine ⟨fun hordered _ _ hperm hdistinct => select_of_perm hordered hperm hdistinct, ?_⟩
  intro f f' name p hdistinct hsame hstored hlive hordered order order' settings settings'
  obtain ⟨g, g', hrun, hrun', hdistinct', hsame', hrecorded⟩ :=
    Pass.reordered_of_run hdistinct hsame hstored hlive hordered settings settings'
  refine ⟨g, g', ?_, ?_, hsame'.node?_eq hdistinct', hrecorded, hsame'.recorded, hsame'.policies⟩
  · rw [Pass.run_reconcile_listing order hdistinct hstored hlive hordered]
    exact hrun
  · rw [Pass.run_reconcile_listing order' (hdistinct.perm hsame.nodes) (hsame.policies ▸ hstored)
      hlive hordered]
    exact hrun'

/-- Two nodes that were created at the same time, one of which no time is known, and one that is not
ready but still marked. -/
def siblingNodes : List Node :=
  [.bornAt "a" 20, .bornAt "c" 10, .bornAt "b" 10, .plain "d" "True" [],
   .plain "e" "False" [(Marker.key "web", "true"), ("tier", "front")]]

/-- A policy for the two newest nodes, and the fleet with the given ones. -/
def siblingFleet (nodes : List Node) : Fleet where
  nodes
  policies := Fleet.policiesOf [.plain "web" "newest" 2 [("tier", "front")]]

/-- Held in the order that they have and listed so, or held and listed the other way round. -/
theorem listing_order_irrelevant_siblingFleet :
    let spec : StrategySpec := { type := "newest", count := 2 }
    (∃ selected, select siblingNodes spec Draws.still = .ok selected ∧
        select siblingNodes.reverse spec Draws.still = .ok selected) ∧
      ∃ g g',
        (Pass.reconcile .plain "web").run (Fleet.listing .held) (siblingFleet siblingNodes) =
            (.ok (.requeue 300), g) ∧
          (Pass.reconcile .plain "web").run (Fleet.listing .reversed)
            (siblingFleet siblingNodes.reverse) = (.ok (.requeue 300), g') ∧
          (∀ node, g'.node? node = g.node? node) ∧
          g.recorded? "web" = some (spec.choice siblingNodes) ∧
          (∀ policy, g'.recorded? policy = g.recorded? policy) ∧ g'.policies = g.policies := by
  intro spec
  obtain ⟨hselections, hpasses⟩ := listing_order_irrelevant
  have hperm : siblingNodes.reverse.Perm siblingNodes := List.reverse_perm _
  refine ⟨hselections (by decide) hperm (by decide +kernel) Draws.still Draws.still, ?_⟩
  have hstored : (siblingFleet siblingNodes).policies.get? "web" =
      some (.plain "web" "newest" 2 [("tier", "front")]) := by decide +kernel
  have hsame : (siblingFleet siblingNodes).Reordered (siblingFleet siblingNodes.reverse) :=
    ⟨hperm, rfl, fun _ => rfl⟩
  exact hpasses (by decide +kernel) hsame hstored rfl (by decide) .held .reversed .plain .plain

end FleetLabels
