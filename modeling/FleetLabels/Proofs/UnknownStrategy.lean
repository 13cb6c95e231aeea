import FleetLabels.Proofs.Exchanges
import FleetLabels.Proofs.InMemory

/-!
# Strategies that do not exist

A policy names its strategy by a text, and that there is no such strategy is found out in the middle
of a pass: the finalizer may have been stored by then, and the fleet has been listed, but no label
has been written. The pass ends there. It leaves every node and every status as it was, and since
the finalizer is stored only once, all later passes leave the whole fleet as it was.

Where no node is ready there is nothing to put in order, so that the name of the strategy is not
looked at. The pass then succeeds with an empty selection and takes the labels of the policy off the
fleet.

Names need not be distinct here. The store knows a node by its name, so of several nodes of one name
only the first can be written; a pass writes all of them one after the other, and what the store
holds under the name in the end is the last write.

## Main results

* `Pass.completes_writeAll_listed` — writes to nodes of a fleet are all accepted.
* `Pass.completes_reconcile_live` — the pass of a live policy, by what follows the finalizer.
* `unknown_strategy_changes_no_node` — what a pass does for a strategy that does not exist.
-/

namespace FleetLabels

/-- A strategy that does not exist is refused where there is a node to select. -/
theorem select_eq_unsupported {nodes : List Node} {spec : StrategySpec}
    (hready : ∃ n ∈ nodes, n.isReady = true) (hunknown : ∀ s : Strategy, spec.type ≠ s.name)
    (draws : DrawSource) :
    select nodes spec draws = .error (.unsupportedStrategy spec.type) := by
  obtain ⟨n, hn, hnready⟩ := hready
  have hmem : n ∈ Node.ready nodes := List.mem_filter.2 ⟨hn, hnready⟩
  exact select_eq_error_iff.2 ⟨List.ne_nil_of_mem hmem, hunknown, rfl⟩

namespace Pass

/-- Writes to nodes of a fleet are all accepted. Under each name the store then holds the last node
that was written to it. -/
theorem completes_writeAll_listed {f : Fleet} {writes : List Node}
    (hsub : writes.map Node.name ⊆ f.nodes.map Node.name) :
    ∃ nodes, (writeAll writes).Completes Fleet.handler f (writes.map .updateNode) (.ok ())
        { f with nodes } ∧
      ∀ name, named? name nodes = (named? name writes.reverse).or (named? name f.nodes) := by
  induction writes generalizing f with
  | nil => exact ⟨f.nodes, .done _ f, fun _ => rfl⟩
  | cons w rest ih =>
      obtain ⟨nodes, hreplace, hnames, hnamed⟩ :=
        Fleet.exists_replaceNode (hsub List.mem_cons_self : w.name ∈ f.nodes.map Node.name)
      have hanswer : Fleet.handler (.updateNode w) f = (.ok w, { f with nodes }) := by
        simp only [Fleet.handler, Fleet.answer, hreplace, Except.mapError]
      have hrest : rest.map Node.name ⊆ nodes.map Node.name :=
        fun name hname => hnames ▸ hsub (List.mem_cons_of_mem _ hname)
      obtain ⟨nodes', hcompletes, hnamed'⟩ := ih (f := { f with nodes }) hrest
      refine ⟨nodes', .ask hanswer hcompletes, fun name => ?_⟩
      rw [hnamed' name, hnamed name, List.reverse_cons, named?_append, Option.or_assoc]
      refine congrArg _ ?_
      by_cases hname : w.name = name
      · rw [if_pos hname, named?_cons, if_pos hname, Option.some_or]
      · rw [if_neg hname, named?_cons, if_neg hname]
        rfl

/-- The pass of a live policy reads the record, stores it with the finalizer if that is missing, and
labels the fleet. -/
theorem completes_reconcile_live {f f' : Fleet} {name : String} {p : Policy}
    {settings : PassSettings} {calls : List StoreCall} {result : Except PassError Outcome}
    (hstored : f.policies.get? name = some p) (hlive : p.isDeleting = false)
    (h : (apply settings p).Completes Fleet.handler
      { f with policies := withTracked f.policies p } calls result f') :
    (reconcile settings name).Completes Fleet.handler f
      (.getPolicy name :: (if p.hasFinalizer then [] else [.updatePolicy p.track]) ++ calls)
      result f' := by
  have hfound : Fleet.handler (.getPolicy name) f = (.ok (some p), f) := by rw [← hstored]; rfl
  rw [reconcile_eq]
  refine .ask hfound ?_
  show (proceed settings name (Policy.State.of (some p))).Completes ..
  cases hfinalizer : p.hasFinalizer with
  | true =>
      have hstate : Policy.State.of (some p) = .tracked p :=
        Policy.State.of_eq_iff.2 ⟨rfl, hlive, hfinalizer⟩
      rw [withTracked, hfinalizer] at h
      rw [hstate]
      exact h
  | false =>
      have hstate : Policy.State.of (some p) = .untracked p :=
        Policy.State.of_eq_iff.2 ⟨rfl, hlive, hfinalizer⟩
      have htrack : Fleet.handler (.updatePolicy p.track) f =
          (.ok p.track, { f with policies := withTracked f.policies p }) := by
        have hkept : p.track.isDeleting = false := hlive
        simp only [Fleet.handler, Fleet.answer, Fleet.storePolicy, hkept, withTracked, hfinalizer]
        rfl
      rw [hstate]
      exact .ask htrack h

/-- Once a live policy is sure to carry the finalizer, its record is there with the finalizer, and
otherwise as it was. -/
theorem exists_tracked {policies : KeyMap Policy} {p : Policy}
    (hstored : policies.get? p.name = some p) :
    ∃ q, (withTracked policies p).get? p.name = some q ∧ q.spec = p.spec ∧
      q.isDeleting = p.isDeleting ∧ q.hasFinalizer = true := by
  unfold withTracked
  cases hfinalizer : p.hasFinalizer with
  | true => exact ⟨p, hstored, rfl, rfl, hfinalizer⟩
  | false =>
      refine ⟨p.track, ?_, rfl, rfl, p.hasFinalizer_track⟩
      rw [if_neg Bool.false_ne_true, KeyMap.get?_insert, if_pos rfl]

/-- A strategy that is refused ends the labeling of a fleet after the listing. -/
theorem completes_apply_of_select_eq_error {f : Fleet} {p : Policy} {settings : PassSettings}
    {e : PassError} (h : select f.nodes p.spec.strategy settings.draws = .error e) :
    (apply settings p).Completes Fleet.handler f [.listNodes] (.error e) f := by
  have hlisted : Fleet.handler .listNodes f = (.ok f.nodes, f) := rfl
  rw [apply_eq]
  refine .ask hlisted ?_
  show ((ofExcept (select f.nodes p.spec.strategy settings.draws)).bind _).Completes ..
  rw [h]
  exact .done _ f

/-- Labeling a fleet for an empty selection takes the labels of the policy off all marked nodes. -/
theorem completes_apply_of_select_eq_nil {f : Fleet} {p : Policy} {settings : PassSettings}
    (h : select f.nodes p.spec.strategy settings.draws = .ok []) :
    ∃ nodes, (apply settings p).Completes Fleet.handler f
        (.listNodes :: (applyWrites p f.nodes []).map .updateNode ++
          [.updateStatus p.name (statusOf [] settings.now)])
        (.ok (.requeue settings.interval))
        { f with nodes, statuses := f.statuses.insert p.name (statusOf [] settings.now) } ∧
      ∀ name, named? name nodes =
        (named? name (applyWrites p f.nodes []).reverse).or (named? name f.nodes) := by
  have hlisted : Fleet.handler .listNodes f = (.ok f.nodes, f) := rfl
  have hlistedNames : (applyWrites p f.nodes []).map Node.name ⊆ f.nodes.map Node.name :=
    names_applyWrites_subset (List.nil_subset f.nodes)
  obtain ⟨nodes, hwrites, hnamed⟩ := completes_writeAll_listed hlistedNames
  refine ⟨nodes, ?_, hnamed⟩
  have hstatus : Fleet.handler (.updateStatus p.name (statusOf [] settings.now))
      { f with nodes } = (.ok (), { f with
        nodes, statuses := f.statuses.insert p.name (statusOf [] settings.now) }) := rfl
  rw [apply_eq]
  refine .ask hlisted ?_
  show ((ofExcept (select f.nodes p.spec.strategy settings.draws)).bind _).Completes ..
  rw [h]
  exact hwrites.bind (.ask hstatus (.done _ _))

/-- With nobody selected the pass of a policy writes the marked nodes, each without its labels. -/
theorem applyWrites_nil (p : Policy) (nodes : List Node) :
    applyWrites p nodes [] =
      (nodes.filter (·.isManagedBy p.markerKey)).map (·.left p.spec.labels p.markerKey) := by
  rw [applyWrites, unselected_nil]
  rfl

/-- No name stands for a marked node any more. A node that was not marked may have been replaced by
another one of its name, but by one that is not marked either. -/
theorem isManagedBy_of_named?_applyWrites {p : Policy} {nodes : List Node} {name : String} {n : Node}
    (h : (named? name (applyWrites p nodes []).reverse).or (named? name nodes) = some n) :
    n.isManagedBy p.markerKey = false := by
  rw [applyWrites_nil] at h
  cases hwrite : named? name ((nodes.filter (·.isManagedBy p.markerKey)).map
      (·.left p.spec.labels p.markerKey)).reverse with
  | some w =>
      rw [hwrite, Option.some_or] at h
      obtain rfl := Option.some.inj h
      obtain ⟨m, -, rfl⟩ := List.mem_map.1 (List.mem_reverse.1 (mem_of_named? hwrite))
      exact m.isManagedBy_left p.spec.labels p.markerKey
  | none =>
      rw [hwrite, Option.none_or] at h
      refine eq_false_of_ne_true fun hmarked => named?_eq_none_iff.1 hwrite ?_
      rw [List.map_reverse, List.mem_reverse, List.map_map, ← name_of_named? h]
      exact List.mem_map.2 ⟨n, List.mem_filter.2 ⟨mem_of_named? h, hmarked⟩, rfl⟩

end Pass

/-- **An unknown strategy changes no node.** If some node is ready, the pass of a live policy with
such a strategy fails with the name of the strategy as it was written. It has stored the finalizer by
then, if that was missing, and nothing else; every other pass of it writes nothing at all. If no node
is ready, the pass succeeds with nobody selected and writes exactly the marked nodes, each without
the marker and the declared labels, so that no name stands for a marked node any more. -/
theorem unknown_strategy_changes_no_node {f : Fleet} {p : Policy}
    (hstored : f.policies.get? p.name = some p) (hlive : p.isDeleting = false)
    (hunknown : ∀ s : Strategy, p.spec.strategy.type ≠ s.name) (settings : PassSettings) :
    let pass := Pass.reconcile settings p.name
    let tracked := Pass.withTracked f.policies p
    let opening :=
      .getPolicy p.name :: (if p.hasFinalizer then [] else [.updatePolicy p.track]) ++ [.listNodes]
    let refused := .error (.unsupportedStrategy p.spec.strategy.type)
    ((∃ n ∈ f.nodes, n.isReady = true) →
      let f' := { f with policies := tracked }
      pass.Completes Fleet.handler f opening refused f' ∧
        ∀ settings', (Pass.reconcile settings' p.name).Completes Fleet.handler f'
          [.getPolicy p.name, .listNodes] refused f') ∧
    ((∀ n ∈ f.nodes, n.isReady = false) →
      let status : PolicyStatus :=
        { selectedNodes := [], lastReconcileTime := some settings.now }
      let marked := f.nodes.filter (·.isManagedBy p.markerKey)
      let left (n : Node) : Node := n.left p.spec.labels p.markerKey
      ∃ nodes,
        pass.Completes Fleet.handler f
          (opening ++ marked.map (fun n => .updateNode (left n)) ++ [.updateStatus p.name status])
          (.ok (.requeue settings.interval))
          { nodes, policies := tracked, statuses := f.statuses.insert p.name status } ∧
        (∀ name n, named? name nodes = some n → n.isManagedBy p.markerKey = false) ∧
        (DistinctNames f.nodes →
          nodes = f.nodes.map fun n => if n.isManagedBy p.markerKey then left n else n)) := by
  intro pass tracked opening refused
  constructor
  · intro hready f'
    constructor
    · have hrefused := select_eq_unsupported hready hunknown settings.draws
      exact Pass.completes_reconcile_live hstored hlive
        (Pass.completes_apply_of_select_eq_error (f := f') hrefused)
    · -- The record that the first pass leaves has the finalizer, so there is nothing to store.
      intro settings'
      obtain ⟨q, hq, hspec, hdeleting, hfinalizer⟩ := Pass.exists_tracked hstored
      have hrefused := select_eq_unsupported hready hunknown settings'.draws
      rw [← hspec] at hrefused
      have hsame : Pass.withTracked f'.policies q = f'.policies := if_pos hfinalizer
      have hpass := Pass.completes_reconcile_live (f := f') hq (hdeleting.trans hlive)
        (Pass.completes_apply_of_select_eq_error hrefused)
      rw [hsame, hspec, hfinalizer] at hpass
      exact hpass
  · intro hunready status marked left
    have hnone : Node.ready f.nodes = [] :=
      List.filter_eq_nil_iff.2 fun n hn => Bool.eq_false_iff.1 (hunready n hn)
    have hselect : select f.nodes p.spec.strategy settings.draws = .ok [] :=
      select_of_ready_eq_nil hnone
    obtain ⟨nodes, happly, hnamed⟩ :=
      Pass.completes_apply_of_select_eq_nil (f := { f with policies := tracked }) hselect
    have hpass := Pass.completes_reconcile_live hstored hlive happly
    have hwrites : (Pass.applyWrites p f.nodes []).map StoreCall.updateNode =
        marked.map fun n => .updateNode (left n) := by
      rw [Pass.applyWrites_nil, List.map_map]
      rfl
    have hcalls : opening ++ marked.map (fun n => .updateNode (left n)) ++
        [.updateStatus p.name status] =
          .getPolicy p.name :: (if p.hasFinalizer then [] else [.updatePolicy p.track]) ++
            (.listNodes :: (Pass.applyWrites p f.nodes []).map .updateNode ++
              [.updateStatus p.name status]) := by
      rw [hwrites]
      simp only [opening, List.append_assoc, List.cons_append, List.nil_append]
    refine ⟨nodes, ?_, fun name n hn => ?_, fun hdistinct => ?_⟩
    · rw [hcalls]
      exact hpass
    · exact Pass.isManagedBy_of_named?_applyWrites ((hnamed name).symm.trans hn)
    · have hrun := Pass.run_reconcile_live hdistinct settings hstored hlive
      rw [hselect, hpass.run] at hrun
      exact congrArg Fleet.nodes (congrArg Prod.snd hrun)

/-- A policy whose strategy is written with a capital letter. -/
def capitalized : Policy := .plain "web" "Oldest" 1 [("tier", "front")]

/-- A node that may be ready, and one that is not and still carries the labels of the policy. -/
def capitalizedFleet (ready : String) : Fleet where
  nodes :=
    [.plain "a" ready [],
     .plain "b" "False" [(Marker.key "web", "true"), ("tier", "front"), ("zone", "2")]]
  policies := Fleet.policiesOf [capitalized]

/-- If the first node is ready, the finalizer is stored and no label is taken off the second one. If
it is not, the second one is cleaned. -/
theorem unknown_strategy_changes_no_node_capitalized :
    let pass := Pass.reconcile .plain "web"
    let refused := .error (.unsupportedStrategy "Oldest")
    (∃ f', pass.Completes Fleet.handler (capitalizedFleet "True")
        [.getPolicy "web", .updatePolicy capitalized.track, .listNodes] refused f' ∧
      f'.nodes = (capitalizedFleet "True").nodes ∧
      pass.Completes Fleet.handler f' [.getPolicy "web", .listNodes] refused f') ∧
    ∃ f', pass.run Fleet.handler (capitalizedFleet "False") = (.ok (.requeue 300), f') ∧
      f'.nodes = [.plain "a" "False" [], .plain "b" "False" [("zone", "2")]] := by
  have hunknown : ∀ s : Strategy, capitalized.spec.strategy.type ≠ s.name := by
    intro s
    cases s <;> decide
  have hstored : (Fleet.policiesOf [capitalized]).get? capitalized.name = some capitalized := by
    decide
  obtain ⟨hready, -⟩ := unknown_strategy_changes_no_node (f := capitalizedFleet "True")
    (p := capitalized) hstored (by decide) hunknown .plain
  obtain ⟨-, hunready⟩ := unknown_strategy_changes_no_node (f := capitalizedFleet "False")
    (p := capitalized) hstored (by decide) hunknown .plain
  constructor
  · obtain ⟨hfirst, hlater⟩ := hready (by decide)
    exact ⟨_, hfirst, rfl, hlater .plain⟩
  · obtain ⟨nodes, hpass, -, hnodes⟩ := hunready (by decide)
    refine ⟨_, hpass.run, ?_⟩
    rw [hnodes (by decide)]
    decide +kernel

end FleetLabels
