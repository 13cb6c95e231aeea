import FleetLabels.Proofs.Choice
import FleetLabels.Proofs.Locality

/-!
# What a pass makes of a fleet

If nothing is left to chance, the fleet after a pass is a function of the fleet before it: of the
record that the pass finds and of the listed nodes without their labels. `Fleet.effect` is what the
pass does to each node, `Policy.afterPass` what it makes of the record, and `Fleet.recordedAfter`
what the status tells afterwards. Only the time in the status comes from elsewhere.

A pass of which all this can be said in advance is `Foreseeable`: node names are distinct, the record
stands under its own name, and a live policy has an ordered strategy. Such a pass always succeeds.

## Main results

* `Pass.exists_run_reconcile` — the pass of a foreseeable policy succeeds, with these effects.
* `Fleet.effect_effect` — a second pass would do nothing more to any node.
* `Fleet.Alike.effect_eq` — neither labels nor a finalizer that has been put on change the effect.
* `AfterPass.alike` — so that a pass of one policy does not change what that of another will do.
-/

namespace FleetLabels

/-! ## Fleets up to times -/

/-- The names in the status of a policy, none if it has no status. -/
def Fleet.recorded? (f : Fleet) (name : String) : Option (List String) :=
  (f.statuses.get? name).map (·.selectedNodes)

/-- The fleets differ in nothing but the times that statuses tell. -/
structure Fleet.Agrees (f g : Fleet) : Prop where
  nodes : f.nodes = g.nodes
  policies : f.policies = g.policies
  recorded : ∀ name, f.recorded? name = g.recorded? name

theorem Fleet.recorded?_insert (f : Fleet) (name : String) (status : PolicyStatus) (q : String) :
    ((f.statuses.insert name status).get? q).map (·.selectedNodes) =
      if q = name then some status.selectedNodes else f.recorded? q := by
  rw [KeyMap.get?_insert]
  split <;> rfl

/-! ## Effects -/

/-- What the next pass of a policy does can be told in advance. -/
structure Foreseeable (f : Fleet) (name : String) : Prop where
  distinct : DistinctNames f.nodes
  named : ∀ p, f.policies.get? name = some p → p.name = name
  ordered : ∀ p, f.policies.get? name = some p → p.isDeleting = false → p.spec.strategy.Ordered

instance (f : Fleet) (name : String) : Decidable (Foreseeable f name) :=
  decidable_of_iff
    (DistinctNames f.nodes ∧ ∀ p ∈ f.policies.get? name,
      p.name = name ∧ (p.isDeleting = false → p.spec.strategy.Ordered))
    ⟨fun h => ⟨h.1, fun p hp => (h.2 p hp).1, fun p hp => (h.2 p hp).2⟩,
      fun h => ⟨h.distinct, fun p hp => ⟨h.named p hp, h.ordered p hp⟩⟩⟩

/-- What a pass makes of the record that it finds. -/
def Policy.afterPass : Option Policy → Option Policy
  | none => none
  | some p =>
      if p.isDeleting then
        if p.hasFinalizer then
          if p.release.finalizers.isEmpty then none else some p.release
        else some p
      else if p.hasFinalizer then some p else some p.track

namespace Fleet

/-- The names that the pass of a policy selects, none if the policy is not live. -/
def selected? (f : Fleet) (name : String) : Option (List String) :=
  match f.policies.get? name with
  | none => none
  | some p => if p.isDeleting then none else some (p.spec.strategy.choice f.nodes)

/-- What the pass of a policy does to each node. -/
def effect (f : Fleet) (name : String) : Node → Node :=
  match f.policies.get? name, f.selected? name with
  | none, _ => Node.cleaned name .empty
  | some p, none => Node.cleaned p.name p.spec.labels
  | some p, some selected => p.settled selected

/-- The names in the status of a policy after a pass of it: those just selected, if any were. -/
def recordedAfter (f : Fleet) (name : String) : Option (List String) :=
  (f.selected? name).or (f.recorded? name)

section Selected

variable {f : Fleet} {name : String} {p : Policy}

theorem selected?_of_gone (h : f.policies.get? name = none) : f.selected? name = none := by
  simp only [selected?, h]

theorem selected?_of_deleting (h : f.policies.get? name = some p) (hdeleting : p.isDeleting = true) :
    f.selected? name = none := by
  simp only [selected?, h, hdeleting, if_true]

theorem selected?_of_live (h : f.policies.get? name = some p) (hlive : p.isDeleting = false) :
    f.selected? name = some (p.spec.strategy.choice f.nodes) := by
  simp only [selected?, h, hlive, Bool.false_eq_true, if_false]

theorem effect_of_gone (h : f.policies.get? name = none) :
    f.effect name = Node.cleaned name .empty := by
  simp only [effect, h]

theorem effect_of_deleting (h : f.policies.get? name = some p) (hdeleting : p.isDeleting = true) :
    f.effect name = Node.cleaned p.name p.spec.labels := by
  simp only [effect, h, selected?_of_deleting h hdeleting]

theorem effect_of_live (h : f.policies.get? name = some p) (hlive : p.isDeleting = false) :
    f.effect name = p.settled (p.spec.strategy.choice f.nodes) := by
  simp only [effect, h, selected?_of_live h hlive]

end Selected

end Fleet

/-- What one fleet is after a pass of a policy over another one, up to the time in the status. -/
structure AfterPass (name : String) (f f' : Fleet) : Prop where
  nodes : f'.nodes = f.nodes.map (f.effect name)
  record : f'.policies.get? name = Policy.afterPass (f.policies.get? name)
  records : ∀ q, q ≠ name → f'.policies.get? q = f.policies.get? q
  recorded : f'.recorded? name = f.recordedAfter name
  otherwise : ∀ q, q ≠ name → f'.recorded? q = f.recorded? q

namespace Pass

variable {f : Fleet} {name : String} {p : Policy}

private theorem afterPass_terminating (hdistinct : DistinctNames f.nodes) (settings : PassSettings)
    (hstored : f.policies.get? p.name = some p) (hdeleting : p.isDeleting = true) :
    ∃ f', (reconcile settings p.name).run Fleet.handler f = (.ok .done, f') ∧
      AfterPass p.name f f' := by
  refine ⟨_, run_reconcile_terminating hdistinct settings hstored hdeleting, ?_⟩
  constructor
  case nodes => rw [Fleet.effect_of_deleting hstored hdeleting]
  case record =>
    simp only [hstored, Policy.afterPass, hdeleting, if_true]
    split
    · rw [Fleet.get?_storePolicy, if_pos p.name_release.symm, p.isDeleting_release, hdeleting,
        Bool.true_and]
    · exact hstored
  case records =>
    intro q hq
    show (if p.hasFinalizer then _ else f.policies).get? q = _
    split
    · rw [Fleet.get?_storePolicy, p.name_release, if_neg hq]
    · rfl
  case recorded =>
    rw [Fleet.recordedAfter, Fleet.selected?_of_deleting hstored hdeleting]
    rfl
  case otherwise => exact fun _ _ => rfl

private theorem afterPass_live (hdistinct : DistinctNames f.nodes) (settings : PassSettings)
    (hstored : f.policies.get? p.name = some p) (hlive : p.isDeleting = false)
    (hordered : p.spec.strategy.Ordered) :
    ∃ f', (reconcile settings p.name).run Fleet.handler f = (.ok (.requeue settings.interval), f') ∧
      AfterPass p.name f f' := by
  obtain ⟨selected, hselect, hchoice⟩ := select_of_ordered hordered f.nodes settings.draws
  have hrun := run_reconcile_live hdistinct settings hstored hlive
  rw [hselect] at hrun
  refine ⟨_, hrun, ?_⟩
  constructor
  case nodes => rw [Fleet.effect_of_live hstored hlive, ← hchoice]
  case record =>
    simp only [hstored, Policy.afterPass, hlive, withTracked, Bool.false_eq_true, if_false]
    split
    · exact hstored
    · rw [KeyMap.get?_insert, if_pos rfl]
  case records =>
    intro q hq
    show (withTracked f.policies p).get? q = _
    unfold withTracked
    split
    · rfl
    · rw [KeyMap.get?_insert, if_neg hq]
  case recorded =>
    rw [Fleet.recordedAfter, Fleet.selected?_of_live hstored hlive, ← hchoice]
    exact (f.recorded?_insert p.name _ p.name).trans (if_pos rfl)
  case otherwise =>
    intro q hq
    exact (f.recorded?_insert p.name _ q).trans (if_neg hq)

/-- A foreseeable pass succeeds. -/
theorem exists_run_reconcile (h : Foreseeable f name) (settings : PassSettings) :
    ∃ outcome f', (reconcile settings name).run Fleet.handler f = (.ok outcome, f') ∧
      AfterPass name f f' := by
  cases hstored : f.policies.get? name with
  | none =>
      refine ⟨.done, _, run_reconcile_gone h.distinct settings hstored, ?_⟩
      constructor
      case nodes => rw [Fleet.effect_of_gone hstored]
      case record => simp only [hstored, Policy.afterPass]
      case records => exact fun _ _ => rfl
      case recorded =>
        rw [Fleet.recordedAfter, Fleet.selected?_of_gone hstored]
        rfl
      case otherwise => exact fun _ _ => rfl
  | some p =>
      obtain rfl := h.named p hstored
      cases hdeleting : p.isDeleting with
      | true => exact ⟨_, afterPass_terminating h.distinct settings hstored hdeleting⟩
      | false =>
          exact ⟨_, afterPass_live h.distinct settings hstored hdeleting
            (h.ordered p hstored hdeleting)⟩

end Pass

/-! ## Properties of effects -/

namespace Fleet

variable {f g : Fleet} {name : String}

/-- An effect is a cleanup or a settlement. -/
theorem effect_cases (f : Fleet) (name : String) :
    (∃ policy declared, f.effect name = Node.cleaned policy declared) ∨
      ∃ (p : Policy) (selected : List String), f.effect name = p.settled selected := by
  unfold effect
  split
  · exact .inl ⟨_, _, rfl⟩
  · exact .inl ⟨_, _, rfl⟩
  · exact .inr ⟨_, _, rfl⟩

@[simp] theorem bare_effect (f : Fleet) (name : String) (n : Node) :
    (f.effect name n).bare = n.bare := by
  rcases f.effect_cases name with ⟨policy, declared, heffect⟩ | ⟨p, selected, heffect⟩
  · rw [heffect, Node.bare_cleaned]
  · rw [heffect, Policy.bare_settled]

/-- What a pass has done once is done for good. -/
theorem effect_effect (f : Fleet) (name : String) (n : Node) :
    f.effect name (f.effect name n) = f.effect name n := by
  rcases f.effect_cases name with ⟨policy, declared, heffect⟩ | ⟨p, selected, heffect⟩
  · rw [heffect, Node.cleaned_cleaned]
  · rw [heffect, Policy.settled_settled]

/-- The nodes after a pass are those before it, but for their labels. -/
theorem map_bare_effect (f : Fleet) (name : String) (nodes : List Node) :
    (nodes.map (f.effect name)).map Node.bare = nodes.map Node.bare := by
  rw [List.map_map]
  exact List.map_congr_left fun n _ => f.bare_effect name n

end Fleet

/-! ## Fleets that are alike to a pass -/

/-- To the pass of a policy the second fleet is like the first one: it has the same nodes but for
their labels, and the same record but for the finalizer that a pass puts on a live one. -/
structure Fleet.Alike (name : String) (f g : Fleet) : Prop where
  bare : g.nodes.map Node.bare = f.nodes.map Node.bare
  record : g.policies.get? name = f.policies.get? name ∨
    ∃ p, f.policies.get? name = some p ∧ p.isDeleting = false ∧ p.hasFinalizer = false ∧
      g.policies.get? name = some p.track

namespace Fleet.Alike

variable {f g h : Fleet} {name : String}

theorem refl (name : String) (f : Fleet) : Fleet.Alike name f f := ⟨rfl, .inl rfl⟩

theorem trans (hfg : Fleet.Alike name f g) (hgh : Fleet.Alike name g h) :
    Fleet.Alike name f h := by
  refine ⟨hgh.bare.trans hfg.bare, ?_⟩
  rcases hgh.record with hsame | ⟨p, hp, hlive, huntracked, htracked⟩
  · rw [hsame]
    exact hfg.record
  · rcases hfg.record with hsame | ⟨q, _, _, _, hq⟩
    · exact .inr ⟨p, hsame ▸ hp, hlive, huntracked, htracked⟩
    · -- A record that has been tracked is not tracked again.
      obtain rfl : q.track = p := Option.some.inj (hq.symm.trans hp)
      rw [q.hasFinalizer_track] at huntracked
      cases huntracked

theorem distinct (h : Fleet.Alike name f g) (hdistinct : DistinctNames f.nodes) :
    DistinctNames g.nodes := by
  have hnames : g.nodes.map Node.name = f.nodes.map Node.name := by
    have hbare := congrArg (List.map Node.name) h.bare
    rwa [List.map_map, List.map_map] at hbare
  rw [DistinctNames, hnames]
  exact hdistinct

theorem foreseeable (h : Fleet.Alike name f g) (hf : Foreseeable f name) : Foreseeable g name := by
  refine ⟨h.distinct hf.distinct, fun r hr => ?_, fun r hr hlive => ?_⟩
  · rcases h.record with hsame | ⟨p, hp, -, -, htracked⟩
    · exact hf.named r (hsame ▸ hr)
    · rw [htracked] at hr
      exact Option.some.inj hr ▸ hf.named p hp
  · rcases h.record with hsame | ⟨p, hp, hlive', -, htracked⟩
    · exact hf.ordered r (hsame ▸ hr) hlive
    · rw [htracked] at hr
      exact Option.some.inj hr ▸ hf.ordered p hp hlive'

theorem selected?_eq (h : Fleet.Alike name f g) (hf : Foreseeable f name) :
    g.selected? name = f.selected? name := by
  have hchoice : ∀ p, f.policies.get? name = some p → p.isDeleting = false →
      p.spec.strategy.choice g.nodes = p.spec.strategy.choice f.nodes :=
    fun p hp hlive => StrategySpec.choice_congr (hf.ordered p hp hlive) h.bare
  rcases h.record with hsame | ⟨p, hp, hlive, -, htracked⟩
  · cases hp : f.policies.get? name with
    | none => rw [selected?_of_gone hp, selected?_of_gone (hsame.trans hp)]
    | some p =>
        cases hdeleting : p.isDeleting with
        | true =>
            rw [selected?_of_deleting hp hdeleting,
              selected?_of_deleting (hsame.trans hp) hdeleting]
        | false =>
            rw [selected?_of_live hp hdeleting, selected?_of_live (hsame.trans hp) hdeleting,
              hchoice p hp hdeleting]
  · rw [selected?_of_live hp hlive, selected?_of_live htracked hlive, ← hchoice p hp hlive]
    rfl

theorem effect_eq (h : Fleet.Alike name f g) (hf : Foreseeable f name) :
    g.effect name = f.effect name := by
  unfold effect
  rw [h.selected?_eq hf]
  rcases h.record with hsame | ⟨p, hp, -, -, htracked⟩
  · rw [hsame]
  · rw [hp, htracked]
    cases f.selected? name <;> rfl

/-- A second pass has nothing more to do to the record. -/
theorem afterPass_eq (h : Fleet.Alike name f g) :
    Policy.afterPass (g.policies.get? name) = Policy.afterPass (f.policies.get? name) := by
  rcases h.record with hsame | ⟨p, hp, hlive, huntracked, htracked⟩
  · rw [hsame]
  · have hlive' : p.track.isDeleting = false := hlive
    simp only [hp, htracked, Policy.afterPass, hlive, hlive', huntracked, p.hasFinalizer_track,
      Bool.false_eq_true, if_false, if_true]

end Fleet.Alike

namespace AfterPass

variable {f f' : Fleet} {name q : String}

theorem map_bare (h : AfterPass name f f') : f'.nodes.map Node.bare = f.nodes.map Node.bare := by
  rw [h.nodes, Fleet.map_bare_effect]

/-- A pass of one policy does not concern the others. -/
theorem alike (h : AfterPass name f f') (hq : q ≠ name) : Fleet.Alike q f f' :=
  ⟨h.map_bare, .inl (h.records q hq)⟩

/-- Nor does a pass of a live policy concern the next one. -/
theorem alike_of_live (h : AfterPass name f f') {g : Fleet} (halike : Fleet.Alike name g f)
    {p : Policy} (hstored : g.policies.get? name = some p) (hlive : p.isDeleting = false) :
    Fleet.Alike name g f' := by
  refine ⟨h.map_bare.trans halike.bare, ?_⟩
  rw [h.record, halike.afterPass_eq, hstored]
  simp only [Policy.afterPass, hlive, Bool.false_eq_true, if_false]
  cases hfinalizer : p.hasFinalizer with
  | true => exact .inl rfl
  | false => exact .inr ⟨p, rfl, hlive, hfinalizer, rfl⟩

end AfterPass

/-! ## Passes in turn -/

namespace Pass

/-- Passes of the given policies one after the other, each with settings of its own. All of them
have to succeed. -/
def inTurn (runs : List (PassSettings × String)) : Pass Unit :=
  forAll runs fun (settings, name) => (reconcile settings name).bind fun _ => pure ()

/-- The first of the passes, if it succeeds, is followed by the others. -/
theorem run_inTurn_cons {f f' : Fleet} {settings : PassSettings} {name : String} {outcome : Outcome}
    (h : (reconcile settings name).run Fleet.handler f = (.ok outcome, f'))
    (runs : List (PassSettings × String)) :
    (inTurn ((settings, name) :: runs)).run Fleet.handler f =
      (inTurn runs).run Fleet.handler f' := by
  show (((reconcile settings name).bind _).bind _).run Fleet.handler f = _
  rw [bind_assoc, run_bind, h]
  rfl

end Pass

end FleetLabels
