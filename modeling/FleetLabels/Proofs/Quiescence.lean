import FleetLabels.Proofs.Effect
import FleetLabels.Proofs.Exchanges

/-!
# Quiescence

A write to a node sets off a pass of every policy, so that a pass which writes without need would
keep the whole fleet busy. It does not happen: among live policies that have no key in common, once
each of them has had a pass, a further pass of any of them makes no call but the two that read and
the one that tells the status, and the status names the same nodes as before.

A policy that has had its pass is at rest: its effect leaves every node as it is. A pass of the same
policy keeps it at rest because its effect is done for good, and the pass of another one because
effects with disjoint keys commute. What is at rest has no node to write: a selected node that lacked
a label, or another one with the marker, would be changed by the effect.

## Main results

* `Pass.applyWrites_eq_nil` — a fleet that settling does not change leaves nothing to write.
* `Quiet.pass` — one more pass brings one more policy to rest, and leaves at rest what was.
* `passes_come_to_rest` — after passes of all policies, in any order and with any repetitions, a
  further pass writes nothing but the status that is there already.
-/

namespace FleetLabels

/-! ## Nothing to write -/

namespace Pass

variable {p : Policy} {nodes selected : List Node}

/-- A policy that does not declare its own marker writes no node that its settling would not
change. -/
theorem applyWrites_eq_nil (hmarker : p.markerKey ∉ p.spec.labels.keys) (hsub : selected ⊆ nodes)
    (hsettled : ∀ n ∈ nodes, p.settled (selected.map Node.name) n = n) :
    applyWrites p nodes selected = [] := by
  have hjoined : ∀ n ∈ selected, n.joined? p.spec.labels p.markerKey = none := by
    intro n hn
    have hname : n.name ∈ selected.map Node.name := List.mem_map_of_mem hn
    have hsame : n.joined p.spec.labels p.markerKey = n := by
      rw [← Policy.settled_of_mem hname]
      exact hsettled n (hsub hn)
    refine Node.joined?_eq_none_iff.2 fun e he => ?_
    rw [← hsame, Node.get?_joined]
    rcases List.mem_append.1 he with hdeclared | hmarked
    · have hkey : e.1 ≠ p.markerKey := fun heq => hmarker (heq ▸ List.mem_map_of_mem hdeclared)
      rw [if_neg hkey, KeyMap.get?_of_mem_entries hdeclared]
      rfl
    · obtain rfl := List.mem_singleton.1 hmarked
      exact if_pos rfl
  have hleft : unselected nodes selected p.markerKey = [] := by
    refine List.eq_nil_iff_forall_not_mem.2 fun n hn => ?_
    obtain ⟨hmem, hname, hmarked⟩ := mem_unselected.1 hn
    rw [← hsettled n hmem] at hmarked
    exact hname ((p.isManagedBy_settled _ n).1 hmarked)
  rw [applyWrites, hleft, List.filterMap_eq_nil_iff.2 hjoined]
  rfl

/-- The calls of a tracked policy with nothing to write. -/
theorem calls_reconcile_of_applyWrites_eq_nil {f : Fleet} {name : String} {settings : PassSettings}
    (hstored : f.policies.get? name = some p) (hlive : p.isDeleting = false)
    (htracked : p.hasFinalizer = true)
    (hselect : select f.nodes p.spec.strategy settings.draws = .ok selected)
    (hwrites : applyWrites p f.nodes selected = []) :
    (reconcile settings name).calls Fleet.handler f =
      [.getPolicy name, .listNodes, .updateStatus p.name (statusOf selected settings.now)] := by
  have hstate : Policy.State.of (some p) = .tracked p :=
    Policy.State.of_eq_iff.2 ⟨rfl, hlive, htracked⟩
  have hlisting : listNodes.run Fleet.handler f = (.ok f.nodes, f) := rfl
  have hfound : (getPolicy name).run Fleet.handler f = (.ok (some p), f) := by rw [← hstored]; rfl
  have happly : (apply settings p).calls Fleet.handler f =
      [.listNodes, .updateStatus p.name (statusOf selected settings.now)] := by
    rw [apply_eq, calls_bind, hlisting]
    simp only [hselect, ofExcept, bind, hwrites]
    rfl
  rw [reconcile_eq, calls_bind, hfound]
  simp only [hstate, proceed, happly]
  rfl

end Pass

/-! ## Policies at rest -/

/-- The pass that the policy has had since the first fleet has nothing to add to the second one. -/
structure AtRest (f : Fleet) (name : String) (g : Fleet) : Prop where
  nodes : ∀ n ∈ g.nodes, f.effect name n = n
  record : g.policies.get? name = Policy.afterPass (f.policies.get? name)
  recorded : g.recorded? name = f.selected? name

namespace AtRest

variable {f g g' : Fleet} {name other : String} {p : Policy}

/-- A pass of the policy itself brings it to rest. -/
theorem of_afterPass (hf : Foreseeable f name) (hstored : f.policies.get? name = some p)
    (hlive : p.isDeleting = false) (halike : Fleet.Alike name f g) (h : AfterPass name g g') :
    AtRest f name g' := by
  constructor
  case nodes =>
    intro n hn
    rw [h.nodes, halike.effect_eq hf] at hn
    obtain ⟨n, -, rfl⟩ := List.mem_map.1 hn
    exact f.effect_effect name n
  case record => rw [h.record, halike.afterPass_eq]
  case recorded =>
    rw [h.recorded, Fleet.recordedAfter, halike.selected?_eq hf,
      Fleet.selected?_of_live hstored hlive]
    rfl

/-- A pass of another policy leaves it at rest, if the effects commute. -/
theorem of_other (h : AtRest f name g) (hother : Foreseeable f other) (halike : Fleet.Alike other f g)
    (hne : name ≠ other)
    (hcomm : ∀ n, f.effect name (f.effect other n) = f.effect other (f.effect name n))
    (hpass : AfterPass other g g') : AtRest f name g' := by
  constructor
  case nodes =>
    intro n hn
    rw [hpass.nodes, halike.effect_eq hother] at hn
    obtain ⟨n, hmem, rfl⟩ := List.mem_map.1 hn
    rw [hcomm, h.nodes n hmem]
  case record => rw [hpass.records name hne, h.record]
  case recorded => rw [hpass.otherwise name hne, h.recorded]

end AtRest

/-- Live policies of a fleet with nothing left to chance and no key in common. -/
structure Roster (f : Fleet) (ps : List Policy) : Prop where
  distinct : DistinctNames f.nodes
  stored : ∀ p ∈ ps, f.policies.get? p.name = some p
  live : ∀ p ∈ ps, p.isDeleting = false
  ordered : ∀ p ∈ ps, p.spec.strategy.Ordered
  marker : ∀ p ∈ ps, p.markerKey ∉ p.spec.labels.keys
  apart : ∀ p ∈ ps, ∀ q ∈ ps, p ≠ q → ∀ k, p.Touches k → ¬q.Touches k

namespace Roster

variable {f : Fleet} {ps : List Policy} {p q : Policy}

theorem foreseeable (h : Roster f ps) (hp : p ∈ ps) : Foreseeable f p.name := by
  have hsame : ∀ r, f.policies.get? p.name = some r → r = p := fun r hr =>
    Option.some.inj (hr.symm.trans (h.stored p hp))
  refine ⟨h.distinct, fun r hr => ?_, fun r hr _ => ?_⟩
  · rw [hsame r hr]
  · rw [hsame r hr]
    exact h.ordered p hp

theorem effect_eq (h : Roster f ps) (hp : p ∈ ps) :
    f.effect p.name = p.settled (p.spec.strategy.choice f.nodes) :=
  Fleet.effect_of_live (h.stored p hp) (h.live p hp)

theorem effect_comm (h : Roster f ps) (hp : p ∈ ps) (hq : q ∈ ps) (hne : p ≠ q) (n : Node) :
    f.effect p.name (f.effect q.name n) = f.effect q.name (f.effect p.name n) := by
  rw [h.effect_eq hp, h.effect_eq hq]
  exact (p.local_settled _ fun _ hk => hk).comm (q.local_settled _ fun _ hk => hk)
    (h.apart p hp q hq hne) n

end Roster

/-- The fleet after passes of the policies that have the given names. -/
structure Quiet (f : Fleet) (ps : List Policy) (had : List String) (g : Fleet) : Prop where
  alike : ∀ p ∈ ps, Fleet.Alike p.name f g
  atRest : ∀ p ∈ ps, p.name ∈ had → AtRest f p.name g

namespace Quiet

variable {f g : Fleet} {ps : List Policy} {had : List String}

theorem start (f : Fleet) (ps : List Policy) : Quiet f ps [] f :=
  ⟨fun p _ => .refl p.name f, fun _ _ hnone => nomatch hnone⟩

theorem pass (h : Quiet f ps had g) (hroster : Roster f ps) {q : Policy} (hq : q ∈ ps)
    (settings : PassSettings) :
    ∃ outcome g', (Pass.reconcile settings q.name).run Fleet.handler g = (.ok outcome, g') ∧
      Quiet f ps (had ++ [q.name]) g' := by
  have hforeseeable := (h.alike q hq).foreseeable (hroster.foreseeable hq)
  obtain ⟨outcome, g', hrun, hpass⟩ := Pass.exists_run_reconcile hforeseeable settings
  have hname : ∀ p ∈ ps, p.name = q.name → p = q := fun p hp heq =>
    Option.some.inj ((heq ▸ (hroster.stored p hp).symm).trans (hroster.stored q hq))
  refine ⟨outcome, g', hrun, ?_⟩
  constructor
  case alike =>
    intro p hp
    by_cases heq : p.name = q.name
    · obtain rfl := hname p hp heq
      exact hpass.alike_of_live (h.alike p hp) (hroster.stored p hp) (hroster.live p hp)
    · exact (h.alike p hp).trans (hpass.alike heq)
  case atRest =>
    intro p hp hhad
    by_cases heq : p.name = q.name
    · obtain rfl := hname p hp heq
      exact .of_afterPass (hroster.foreseeable hp) (hroster.stored p hp) (hroster.live p hp)
        (h.alike p hp) hpass
    · have hbefore : p.name ∈ had :=
        (List.mem_append.1 hhad).resolve_right fun hlast => heq (List.mem_singleton.1 hlast)
      exact (h.atRest p hp hbefore).of_other (hroster.foreseeable hq) (h.alike q hq) heq
        (hroster.effect_comm hp hq fun hpq => heq (congrArg Policy.name hpq)) hpass

/-- Passes in any order bring all their policies to rest. -/
theorem inTurn (h : Quiet f ps had g) (hroster : Roster f ps) {runs : List (PassSettings × String)}
    (hruns : ∀ r ∈ runs, ∃ p ∈ ps, p.name = r.2) :
    ∃ g', (Pass.inTurn runs).run Fleet.handler g = (.ok (), g') ∧
      Quiet f ps (had ++ runs.map Prod.snd) g' := by
  induction runs generalizing had g with
  | nil => exact ⟨g, rfl, (List.append_nil had).symm ▸ h⟩
  | cons r rest ih =>
      obtain ⟨settings, name⟩ := r
      obtain ⟨⟨q, hq, rfl⟩, hrest⟩ := List.forall_mem_cons.1 hruns
      obtain ⟨outcome, g₁, hrun, hquiet⟩ := h.pass hroster hq settings
      obtain ⟨g', hlater, hquiet'⟩ := ih hquiet hrest
      rw [List.append_assoc] at hquiet'
      exact ⟨g', (Pass.run_inTurn_cons hrun rest).trans hlater, hquiet'⟩

end Quiet

/-! ## Passes at rest -/

/-- The pass reads, and tells with another time what the status of the policy has told before. -/
def Repeats (g : Fleet) (name : String) (settings : PassSettings) : Prop :=
  ∃ status, g.statuses.get? name = some status ∧
    let renewed := { status with lastReconcileTime := some settings.now }
    (Pass.reconcile settings name).calls Fleet.handler g =
        [.getPolicy name, .listNodes, .updateStatus name renewed] ∧
      (Pass.reconcile settings name).run Fleet.handler g =
        (.ok (.requeue settings.interval),
          { g with statuses := g.statuses.insert name renewed })

theorem Policy.repeats_of_settled {g : Fleet} {p : Policy} (hdistinct : DistinctNames g.nodes)
    (hstored : g.policies.get? p.name = some p) (hlive : p.isDeleting = false)
    (htracked : p.hasFinalizer = true) (hordered : p.spec.strategy.Ordered)
    (hmarker : p.markerKey ∉ p.spec.labels.keys)
    (hsettled : ∀ n ∈ g.nodes, p.settled (p.spec.strategy.choice g.nodes) n = n)
    (hrecorded : g.recorded? p.name = some (p.spec.strategy.choice g.nodes))
    (settings : PassSettings) : Repeats g p.name settings := by
  obtain ⟨selected, hselect, hchoice⟩ := select_of_ordered hordered g.nodes settings.draws
  rw [← hchoice] at hsettled hrecorded
  obtain ⟨status, hstatus, hnames⟩ := Option.map_eq_some_iff.1 hrecorded
  have hrenewed : { status with lastReconcileTime := some settings.now } =
      Pass.statusOf selected settings.now := by
    rw [Pass.statusOf, ← hnames]
  have hwrites : Pass.applyWrites p g.nodes selected = [] :=
    Pass.applyWrites_eq_nil hmarker (fun n hn => mem_of_select hselect hn) hsettled
  refine ⟨status, hstatus, ?_, ?_⟩
  · rw [hrenewed]
    exact Pass.calls_reconcile_of_applyWrites_eq_nil hstored hlive htracked hselect hwrites
  · have hnodes : g.nodes.map (p.settled (selected.map Node.name)) = g.nodes :=
      (List.map_congr_left hsettled).trans (List.map_id g.nodes)
    have hpolicies : Pass.withTracked g.policies p = g.policies := if_pos htracked
    rw [Pass.run_reconcile_live hdistinct settings hstored hlive, hselect, hrenewed]
    simp only [hnodes, hpolicies]

theorem AtRest.repeats {f g : Fleet} {ps : List Policy} {p : Policy} (h : AtRest f p.name g)
    (hroster : Roster f ps) (hp : p ∈ ps) (halike : Fleet.Alike p.name f g)
    (settings : PassSettings) : Repeats g p.name settings := by
  have hstored := hroster.stored p hp
  have hlive := hroster.live p hp
  have hordered := hroster.ordered p hp
  have hdistinct : DistinctNames g.nodes := halike.distinct hroster.distinct
  have hchoice : p.spec.strategy.choice g.nodes = p.spec.strategy.choice f.nodes :=
    StrategySpec.choice_congr hordered halike.bare
  have hsettled : ∀ n ∈ g.nodes, p.settled (p.spec.strategy.choice g.nodes) n = n := by
    rw [hchoice, ← hroster.effect_eq hp]
    exact h.nodes
  have hrecorded : g.recorded? p.name = some (p.spec.strategy.choice g.nodes) := by
    rw [h.recorded, Fleet.selected?_of_live hstored hlive, hchoice]
  have hrecord := h.record
  rw [hstored] at hrecord
  simp only [Policy.afterPass, hlive, Bool.false_eq_true, if_false] at hrecord
  -- The finalizer is part of neither the name nor the specification.
  cases hfinalizer : p.hasFinalizer with
  | true =>
      rw [hfinalizer, if_pos rfl] at hrecord
      exact p.repeats_of_settled hdistinct hrecord hlive hfinalizer hordered (hroster.marker p hp)
        hsettled hrecorded settings
  | false =>
      rw [hfinalizer, if_neg Bool.false_ne_true] at hrecord
      exact p.track.repeats_of_settled hdistinct hrecord hlive p.hasFinalizer_track hordered
        (hroster.marker p hp) hsettled hrecorded settings

/-- **Passes come to rest.** Passes of live policies with no key in common succeed in any order and
with any repetitions. Once each policy has had one, a further pass of any of them writes no node and
no record, and tells the names again that the last pass of that policy has told. -/
theorem passes_come_to_rest {f : Fleet} {ps : List Policy} (hroster : Roster f ps)
    {runs : List (PassSettings × String)} (hruns : ∀ r ∈ runs, ∃ p ∈ ps, p.name = r.2)
    (hall : ∀ p ∈ ps, p.name ∈ runs.map Prod.snd) :
    ∃ g, (Pass.inTurn runs).run Fleet.handler f = (.ok (), g) ∧
      ∀ p ∈ ps, ∀ settings, Repeats g p.name settings := by
  obtain ⟨g, hrun, hquiet⟩ := (Quiet.start f ps).inTurn hroster hruns
  refine ⟨g, hrun, fun p hp settings => ?_⟩
  exact (hquiet.atRest p hp (hall p hp)).repeats hroster hp (hquiet.alike p hp) settings

/-- Two policies that share nodes. -/
def sharedPolicies : List Policy :=
  [.plain "web" "oldest" 1 [("tier", "front")], .plain "db" "newest" 2 [("disk", "ssd")]]

/-- Their fleet: one node has never been labeled, one has outdated labels, and one is no longer
ready. -/
def sharedFleet : Fleet where
  nodes :=
    [.plain "a" "True" [("zone", "1")],
     .plain "b" "True" [(Marker.key "db", "true"), ("disk", "hdd")],
     .plain "c" "False" [(Marker.key "web", "true"), ("tier", "front")]]
  policies := Fleet.policiesOf sharedPolicies

/-- A pass of `db`, one of `web`, and another one of `db`: no pass has anything left to write. -/
theorem passes_come_to_rest_sharedFleet :
    ∃ g, (Pass.inTurn [(.plain, "db"), (.plain, "web"), (.plain, "db")]).run Fleet.handler
        sharedFleet = (.ok (), g) ∧
      Repeats g "web" .plain ∧ Repeats g "db" .plain := by
  have hapart : ∀ p ∈ sharedPolicies, ∀ q ∈ sharedPolicies, p ≠ q →
      ∀ k ∈ p.markerKey :: p.spec.labels.keys, ¬q.Touches k := by decide +kernel
  have hroster : Roster sharedFleet sharedPolicies := by
    constructor
    case distinct => decide +kernel
    case stored => decide +kernel
    case live => decide +kernel
    case ordered => decide +kernel
    case marker => decide +kernel
    case apart => exact fun p hp q hq hne k hk => hapart p hp q hq hne k (List.mem_cons.2 hk)
  let runs : List (PassSettings × String) := [(.plain, "db"), (.plain, "web"), (.plain, "db")]
  have hruns : ∀ r ∈ runs, ∃ p ∈ sharedPolicies, p.name = r.2 := by decide +kernel
  have hall : ∀ p ∈ sharedPolicies, p.name ∈ runs.map Prod.snd := by decide +kernel
  obtain ⟨g, hrun, hrest⟩ := passes_come_to_rest hroster hruns hall
  have hweb := hrest (.plain "web" "oldest" 1 [("tier", "front")]) (by decide +kernel) .plain
  have hdb := hrest (.plain "db" "newest" 2 [("disk", "ssd")]) (by decide +kernel) .plain
  exact ⟨g, hrun, hweb, hdb⟩

end FleetLabels
