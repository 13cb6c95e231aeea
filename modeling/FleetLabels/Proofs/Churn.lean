import FleetLabels.Proofs.Effect
import FleetLabels.Proofs.Joining
import FleetLabels.Proofs.NodeEvents
import FleetLabels.Proofs.Versioned.Alone

/-!
# Little churn

Every label that moves from one node to another costs two writes, and every write wakes all
policies. So it matters how many nodes a pass writes when a single node has joined, left, or changed
its readiness since the one before.

The nodes that a pass writes are those of which the selection has changed, since one that was
settled by the pass before has nothing to be written for otherwise. Besides the node of the event
there is one of them at most.

## Main results

* `Pass.writes_reconcile` — the nodes that a pass writes, over a fleet in memory.
* `Fleet.writes_work` — no pass writes a node that it does not change.
* `AfterPass.effect_eq_self` — a settled node stays as it is if its selection does.
* `bounded_churn` — the selection after one event, and the writes of the pass after it.
-/

namespace FleetLabels

/-! ## The writes of a pass -/

/-- The nodes that a work writes. -/
def Work.writes (settings : PassSettings) (nodes : List Node) : Work → List Node
  | .label p =>
      match select nodes p.spec.strategy settings.draws with
      | .ok selected => Pass.applyWrites p nodes selected
      | .error _ => []
  | .clean policy declared _ => Pass.cleanupWrites policy declared nodes

/-- The work of the next pass of a policy. -/
def Fleet.work (f : Fleet) (name : String) : Work :=
  match Policy.State.of (f.policies.get? name) with
  | .gone => .clean name .empty none
  | .terminating p => .clean p.name p.spec.labels (if p.hasFinalizer then some p.release else none)
  | .untracked p => .label p.track
  | .tracked p => .label p

namespace Pass

variable {α β σ : Type} {f : Fleet}

theorem writes_bind (handler : Handler σ) (p : Pass α) (q : α → Pass β) (s : σ) :
    (p.bind q).writes handler s =
      p.writes handler s ++
        match p.run handler s with
        | (.ok a, s) => (q a).writes handler s
        | (.error _, _) => [] := by
  unfold writes
  rw [calls_bind, List.filterMap_append]
  rcases p.run handler s with ⟨_ | a, s'⟩ <;> rfl

/-- Writes that are all answered have all been made. -/
theorem writes_writeAll {handler : Handler σ} {writes : List Node} {s s' : σ}
    (h : (writeAll writes).run handler s = (.ok (), s')) :
    (writeAll writes).writes handler s = writes := by
  induction writes generalizing s with
  | nil => rfl
  | cons w rest ih =>
      have hcons : writeAll (w :: rest) = Pass.ask (.updateNode w) fun _ => writeAll rest := rfl
      rw [hcons] at h ⊢
      simp only [run] at h
      simp only [Pass.writes, calls, exchanges]
      rcases hanswer : handler (.updateNode w) s with ⟨e | answer, s₁⟩
      · rw [hanswer] at h
        cases h
      · rw [hanswer] at h
        exact congrArg (w :: ·) (ih h)

/-- The nodes written in the course of a work. -/
theorem writes_carryOut (hdistinct : DistinctNames f.nodes) (settings : PassSettings)
    (work : Work) :
    (carryOut settings f.nodes work).writes Fleet.handler f = work.writes settings f.nodes := by
  cases work with
  | label p =>
      unfold carryOut Work.writes
      cases hselect : select f.nodes p.spec.strategy settings.draws with
      | error e =>
          simp only [hselect]
          rfl
      | ok selected =>
          have hsub : selected ⊆ f.nodes := fun n hn => mem_of_select hselect hn
          have hnames : (applyWrites p f.nodes selected).map Node.name ⊆ f.nodes.map Node.name :=
            names_applyWrites_subset hsub
          have hrun := run_writeAll hdistinct
            (distinctNames_applyWrites hdistinct (nodup_names_of_select hselect hdistinct)) hnames
          simp only [hselect]
          show ((writeAll (applyWrites p f.nodes selected)).bind _).writes Fleet.handler f = _
          rw [writes_bind, hrun, writes_writeAll hrun]
          exact List.append_nil _
  | clean policy declared release =>
      have hwrites : DistinctNames (cleanupWrites policy declared f.nodes) :=
        distinctNames_cleanupWrites hdistinct
      have hrun := run_writeAll hdistinct hwrites names_cleanupWrites_subset
      unfold carryOut Work.writes
      rw [writes_bind, hrun, writes_writeAll hrun]
      cases release <;> exact List.append_nil _

/-- The nodes written in the course of a pass. -/
theorem writes_reconcile (hdistinct : DistinctNames f.nodes) (settings : PassSettings)
    (name : String) :
    (reconcile settings name).writes Fleet.handler f = (f.work name).writes settings f.nodes := by
  have hlisted : ∀ {g : Fleet} work, g.nodes = f.nodes →
      (listNodes.bind fun nodes => carryOut settings nodes work).writes Fleet.handler g =
        work.writes settings f.nodes := by
    intro g work hnodes
    rw [← hnodes] at hdistinct ⊢
    exact writes_carryOut hdistinct settings work
  rw [reconcile_eq_work]
  show ((takeUp name (Policy.State.of (f.policies.get? name))).bind _).writes Fleet.handler f = _
  unfold Fleet.work
  cases Policy.State.of (f.policies.get? name) with
  | gone => exact hlisted _ rfl
  | terminating p => exact hlisted _ rfl
  | untracked p =>
      let g : Fleet := { f with policies := Fleet.storePolicy f.policies p.track }
      exact (hlisted (g := g) (.label p.track) rfl :)
  | tracked p => exact hlisted _ rfl

end Pass

/-! ### Writes are changes -/

section Changes

variable {nodes selected : List Node} {w : Node}

/-- A node is written for a policy that does not declare its own marker only if settling changes
it. -/
theorem Policy.settled_ne_of_mem_applyWrites {p : Policy}
    (hmarker : p.markerKey ∉ p.spec.labels.keys) (hsub : selected ⊆ nodes)
    (h : w ∈ Pass.applyWrites p nodes selected) :
    ∃ n ∈ nodes, n.name = w.name ∧ p.settled (selected.map Node.name) n ≠ n := by
  rcases List.mem_append.1 h with hjoin | hleft
  · obtain ⟨n, hn, hw⟩ := List.mem_filterMap.1 hjoin
    refine ⟨n, hsub hn, (Pass.name_of_joined? n w hw).symm, fun hsame => ?_⟩
    rw [settled_of_mem (List.mem_map_of_mem hn)] at hsame
    have hfree : ¬p.spec.labels.Contests p.markerKey := fun ⟨v, hv, _⟩ =>
      hmarker ((p.spec.labels.mem_keys_iff _).2 ⟨v, hv⟩)
    have hunwritten := Node.joined?_eq_none_iff_labels.2 ⟨congrArg Node.labels hsame, hfree⟩
    rw [hunwritten] at hw
    cases hw
  · obtain ⟨n, hn, rfl⟩ := List.mem_map.1 hleft
    obtain ⟨hlisted, hother, hmarked⟩ := Pass.mem_unselected.1 hn
    refine ⟨n, hlisted, rfl, fun hsame => ?_⟩
    rw [← hsame, p.isManagedBy_settled] at hmarked
    exact hother hmarked

/-- A node that a cleanup writes is changed by it. -/
theorem Node.cleaned_ne_of_mem_cleanupWrites {policy : String} {declared : Labels}
    (h : w ∈ Pass.cleanupWrites policy declared nodes) :
    ∃ n ∈ nodes, n.name = w.name ∧ n.cleaned policy declared ≠ n := by
  obtain ⟨n, hn, rfl⟩ := List.mem_map.1 h
  obtain ⟨hlisted, hmarked⟩ := List.mem_filter.1 hn
  refine ⟨n, hlisted, rfl, fun hsame => ?_⟩
  rw [← hsame, n.isManagedBy_cleaned] at hmarked
  cases hmarked

end Changes

/-- The strategy of a live policy. -/
def Policy.liveStrategy? : Option Policy → Option StrategySpec
  | some p => if p.isDeleting then none else some p.spec.strategy
  | none => none

namespace Fleet

variable {f : Fleet} {name : String}

/-- The names that the next pass of a policy selects; a policy that is not live selects none. -/
def chosen (f : Fleet) (name : String) : List String :=
  (f.selected? name).getD []

theorem chosen_eq (f : Fleet) (name : String) :
    f.chosen name = match Policy.liveStrategy? (f.policies.get? name) with
      | some spec => spec.choice f.nodes
      | none => [] := by
  cases hstored : f.policies.get? name with
  | none =>
      rw [chosen, selected?_of_gone hstored]
      rfl
  | some p =>
      rw [Policy.liveStrategy?]
      cases hdeleting : p.isDeleting with
      | true =>
          rw [chosen, selected?_of_deleting hstored hdeleting]
          rfl
      | false =>
          rw [chosen, selected?_of_live hstored hdeleting]
          rfl

/-- No record of the name declares its own marker. -/
def LeavesMarker (f : Fleet) (name : String) : Prop :=
  ∀ p, f.policies.get? name = some p → p.markerKey ∉ p.spec.labels.keys

instance (f : Fleet) (name : String) : Decidable (f.LeavesMarker name) :=
  decidable_of_iff (∀ p ∈ f.policies.get? name, p.markerKey ∉ p.spec.labels.keys)
    ⟨fun h p hp => h p hp, fun h p hp => h p hp⟩

/-- A pass writes no two nodes of one name, and only such as it changes. -/
theorem writes_work (hf : Foreseeable f name) (hmarker : f.LeavesMarker name)
    (settings : PassSettings) :
    DistinctNames ((f.work name).writes settings f.nodes) ∧
      ∀ w ∈ (f.work name).writes settings f.nodes,
        ∃ n ∈ f.nodes, n.name = w.name ∧ f.effect name n ≠ n := by
  have hlabel : ∀ p, f.policies.get? name = some p → p.isDeleting = false →
      DistinctNames ((Work.label p).writes settings f.nodes) ∧
        ∀ w ∈ (Work.label p).writes settings f.nodes,
          ∃ n ∈ f.nodes, n.name = w.name ∧ f.effect name n ≠ n := by
    intro p hstored hlive
    obtain ⟨selected, hselect, hchoice⟩ :=
      select_of_ordered (hf.ordered p hstored hlive) f.nodes settings.draws
    rw [effect_of_live hstored hlive, ← hchoice]
    simp only [Work.writes, hselect]
    refine ⟨Pass.distinctNames_applyWrites hf.distinct
      (nodup_names_of_select hselect hf.distinct), fun w hw => ?_⟩
    exact p.settled_ne_of_mem_applyWrites (hmarker p hstored)
      (fun n hn => mem_of_select hselect hn) hw
  unfold work
  cases hstate : Policy.State.of (f.policies.get? name) with
  | gone =>
      rw [effect_of_gone (Policy.State.of_eq_iff.1 hstate)]
      exact ⟨Pass.distinctNames_cleanupWrites hf.distinct, fun w hw =>
        Node.cleaned_ne_of_mem_cleanupWrites hw⟩
  | terminating p =>
      obtain ⟨hstored, hdeleting⟩ := Policy.State.of_eq_iff.1 hstate
      rw [effect_of_deleting hstored hdeleting]
      exact ⟨Pass.distinctNames_cleanupWrites hf.distinct, fun w hw =>
        Node.cleaned_ne_of_mem_cleanupWrites hw⟩
  | untracked p =>
      obtain ⟨hstored, hlive, -⟩ := Policy.State.of_eq_iff.1 hstate
      exact hlabel p hstored hlive
  | tracked p =>
      obtain ⟨hstored, hlive, -⟩ := Policy.State.of_eq_iff.1 hstate
      exact hlabel p hstored hlive

/-- A pass cleans the fleet, or settles it by what it has chosen. -/
theorem effect_standing (hf : Foreseeable f name) :
    f.chosen name = [] ∧ (∃ declared, f.effect name = Node.cleaned name declared) ∨
      ∃ p, f.policies.get? name = some p ∧ p.name = name ∧
        f.effect name = p.settled (f.chosen name) := by
  cases hstored : f.policies.get? name with
  | none =>
      rw [chosen, selected?_of_gone hstored]
      exact .inl ⟨rfl, .empty, effect_of_gone hstored⟩
  | some p =>
      have hname := hf.named p hstored
      cases hdeleting : p.isDeleting with
      | true =>
          rw [chosen, selected?_of_deleting hstored hdeleting]
          refine .inl ⟨rfl, p.spec.labels, ?_⟩
          rw [effect_of_deleting hstored hdeleting, hname]
      | false =>
          rw [chosen, selected?_of_live hstored hdeleting]
          exact .inr ⟨p, rfl, hname, effect_of_live hstored hdeleting⟩

/-- After a pass the marked nodes are the chosen ones. -/
theorem isManagedBy_effect (hf : Foreseeable f name) (n : Node) :
    (f.effect name n).isManagedBy (Marker.key name) = true ↔ n.name ∈ f.chosen name := by
  rcases effect_standing hf with ⟨hnone, declared, heffect⟩ | ⟨p, -, rfl, heffect⟩
  · rw [heffect, hnone, n.isManagedBy_cleaned]
    exact iff_of_false Bool.false_ne_true List.not_mem_nil
  · rw [heffect]
    exact p.isManagedBy_settled _ n

/-- What is neither marked nor chosen stays as it is. -/
theorem effect_of_unmarked (hf : Foreseeable f name) {n : Node}
    (hmarked : n.isManagedBy (Marker.key name) = false) (hn : n.name ∉ f.chosen name) :
    f.effect name n = n := by
  rcases effect_standing hf with ⟨-, declared, heffect⟩ | ⟨p, -, rfl, heffect⟩
  · rw [heffect, Node.cleaned, hmarked]
    rfl
  · rw [heffect]
    exact Policy.settled_of_unmarked hn hmarked

/-- What is chosen joins. -/
theorem exists_effect_of_chosen (hf : Foreseeable f name) {n : Node}
    (hn : n.name ∈ f.chosen name) :
    ∃ p, f.policies.get? name = some p ∧
      f.effect name n = n.joined p.spec.labels p.markerKey := by
  rcases effect_standing hf with ⟨hnone, -⟩ | ⟨p, hstored, -, heffect⟩
  · rw [hnone] at hn
    cases hn
  · exact ⟨p, hstored, by rw [heffect, Policy.settled_of_mem hn]⟩

end Fleet

/-! ## The pass after an event -/

/-- A pass changes nothing of a record but its finalizers, unless it lets it go. -/
theorem Policy.afterPass_cases (p : Policy) :
    afterPass (some p) = none ∧ p.isDeleting = true ∨
      ∃ q, afterPass (some p) = some q ∧ q.name = p.name ∧ q.spec = p.spec ∧
        q.isDeleting = p.isDeleting := by
  unfold afterPass
  simp only
  split
  next hdeleting =>
    split
    · split
      · exact .inl ⟨rfl, hdeleting⟩
      · exact .inr ⟨p.release, rfl, rfl, rfl, rfl⟩
    · exact .inr ⟨p, rfl, rfl, rfl, rfl⟩
  next =>
    split
    · exact .inr ⟨p, rfl, rfl, rfl, rfl⟩
    · exact .inr ⟨p.track, rfl, rfl, rfl, rfl⟩

theorem Policy.exists_of_afterPass {found : Option Policy} {q : Policy}
    (h : afterPass found = some q) :
    ∃ p, found = some p ∧ q.name = p.name ∧ q.spec = p.spec ∧ q.isDeleting = p.isDeleting := by
  cases found with
  | none => cases h
  | some p =>
      rcases p.afterPass_cases with ⟨hnone, -⟩ | ⟨q', hsome, hsame⟩
      · cases hnone.symm.trans h
      · obtain rfl := Option.some.inj (hsome.symm.trans h)
        exact ⟨p, rfl, hsame⟩

/-- A pass neither ends the life of a policy nor changes its strategy. -/
theorem Policy.liveStrategy?_afterPass (found : Option Policy) :
    liveStrategy? (afterPass found) = liveStrategy? found := by
  cases found with
  | none => rfl
  | some p =>
      rcases p.afterPass_cases with ⟨hnone, hdeleting⟩ | ⟨q, hsome, -, hspec, hdeleting⟩
      · rw [hnone]
        exact (if_pos hdeleting).symm
      · rw [hsome, liveStrategy?, liveStrategy?, hspec, hdeleting]

theorem Foreseeable.ordered_of_liveStrategy? {f : Fleet} {name : String} {spec : StrategySpec}
    (hf : Foreseeable f name) (h : Policy.liveStrategy? (f.policies.get? name) = some spec) :
    spec.Ordered := by
  cases hstored : f.policies.get? name with
  | none =>
      rw [hstored] at h
      cases h
  | some p =>
      rw [hstored, Policy.liveStrategy?] at h
      split at h
      · cases h
      next hlive =>
          obtain rfl := Option.some.inj h
          exact hf.ordered p hstored (eq_false_of_ne_true hlive)

/-- The fleet with other nodes. -/
def Fleet.withNodes (f : Fleet) (nodes : List Node) : Fleet := { f with nodes }

namespace AfterPass

variable {f f₁ : Fleet} {policy name : String} {nodes nodes' : List Node}

theorem distinct (h : AfterPass policy f f₁) (hdistinct : DistinctNames f.nodes) :
    DistinctNames f₁.nodes := by
  rw [h.nodes]
  exact hdistinct.map fun n => Node.name_eq_of_bare_eq (f.bare_effect policy n)

theorem foreseeable_withNodes (h : AfterPass policy f f₁) (hf : Foreseeable f policy)
    (hdistinct : DistinctNames nodes) : Foreseeable (f₁.withNodes nodes) policy := by
  refine ⟨hdistinct, fun q hq => ?_, fun q hq hlive => ?_⟩
  · obtain ⟨p, hp, hname, -⟩ := Policy.exists_of_afterPass (h.record.symm.trans hq)
    exact hname.trans (hf.named p hp)
  · obtain ⟨p, hp, -, hspec, hdeleting⟩ := Policy.exists_of_afterPass (h.record.symm.trans hq)
    exact hspec ▸ hf.ordered p hp (hdeleting ▸ hlive)

theorem leavesMarker_withNodes (h : AfterPass policy f f₁) (hmarker : f.LeavesMarker policy) :
    (f₁.withNodes nodes).LeavesMarker policy := by
  intro q hq
  obtain ⟨p, hp, hname, hspec, -⟩ := Policy.exists_of_afterPass (h.record.symm.trans hq)
  rw [Policy.markerKey, hname, hspec]
  exact hmarker p hp

/-- The next selection differs from that of the pass in nothing but what it is made from. -/
theorem chosen_withNodes (h : AfterPass policy f f₁) (nodes : List Node) :
    (f₁.withNodes nodes).chosen policy = (f.withNodes nodes).chosen policy := by
  have hrecord : (f₁.withNodes nodes).policies.get? policy =
      Policy.afterPass ((f.withNodes nodes).policies.get? policy) := h.record
  rw [Fleet.chosen_eq, Fleet.chosen_eq, hrecord, Policy.liveStrategy?_afterPass]
  rfl

/-- A node that the pass has settled, and of which the selection stays as it is, is settled. -/
theorem effect_eq_self (h : AfterPass policy f f₁) (hf : Foreseeable f policy)
    (hdistinct : DistinctNames nodes) {n : Node} (hn : n ∈ f₁.nodes)
    (hstays : n.name ∈ f.chosen policy ↔ n.name ∈ (f₁.withNodes nodes).chosen policy) :
    (f₁.withNodes nodes).effect policy n = n := by
  have hg := h.foreseeable_withNodes hf hdistinct
  rw [h.nodes] at hn
  obtain ⟨m, -, rfl⟩ := List.mem_map.1 hn
  have hname : (f.effect policy m).name = m.name := Node.name_eq_of_bare_eq (f.bare_effect policy m)
  by_cases hchosen : (f.effect policy m).name ∈ f.chosen policy
  · obtain ⟨p, hp, hjoined⟩ := Fleet.exists_effect_of_chosen hf hchosen
    obtain ⟨q, hq, hjoined'⟩ := Fleet.exists_effect_of_chosen hg (hstays.1 hchosen)
    obtain ⟨p', hp', hqname, hspec, -⟩ := Policy.exists_of_afterPass (h.record.symm.trans hq)
    obtain rfl : p = p' := Option.some.inj (hp.symm.trans hp')
    rw [hjoined', Policy.markerKey, hqname, hspec, ← Policy.markerKey, ← hjoined,
      f.effect_effect]
  · refine Fleet.effect_of_unmarked hg (eq_false_of_ne_true fun hmarked => ?_)
      fun hin => hchosen (hstays.2 hin)
    rw [hname] at hchosen
    exact hchosen ((Fleet.isManagedBy_effect hf m).1 hmarked)

/-- The selections of the pass and of the next one. -/
theorem smallChange (h : AfterPass policy f f₁) (hf : Foreseeable f policy)
    (hevent : NodeEvent name f₁.nodes nodes') :
    ∃ before after, before.map Node.name = f.chosen policy ∧
      after.map Node.name = (f₁.withNodes nodes').chosen policy ∧
        SmallChange name before after := by
  rw [h.chosen_withNodes, Fleet.chosen_eq, Fleet.chosen_eq]
  show ∃ before after, _ ∧ (_ = match Policy.liveStrategy? (f.policies.get? policy) with
    | some spec => spec.choice nodes'
    | none => []) ∧ _
  cases hlive : Policy.liveStrategy? (f.policies.get? policy) with
  | none => exact ⟨[], [], rfl, rfl, .refl name []⟩
  | some spec =>
      have hordered := hf.ordered_of_liveStrategy? hlive
      obtain ⟨before, after, hbefore, hafter, hsmall⟩ :=
        smallChange_of_event hordered (h.distinct hf.distinct) hevent Draws.still Draws.still
      refine ⟨before, after, ?_, ?_, hsmall⟩
      · show _ = spec.choice f.nodes
        rw [← StrategySpec.choice_congr hordered h.map_bare, StrategySpec.choice, hbefore]
      · show _ = spec.choice nodes'
        rw [StrategySpec.choice, hafter]

end AfterPass

/-- At most two nodes are written, if they are the one of the event or have moved. -/
theorem SmallChange.length_le_two {name : String} {before after writes : List Node}
    (h : SmallChange name before after) (hwrites : DistinctNames writes)
    (hmoved : ∀ w ∈ writes, w.name = name ∨ Moves before after w.name) : writes.length ≤ 2 := by
  obtain ⟨other, hother⟩ : ∃ other, ∀ w ∈ writes, w.name = name ∨ w.name = other := by
    by_cases hmore : ∃ v ∈ writes, v.name ≠ name
    · obtain ⟨v, hv, hne⟩ := hmore
      refine ⟨v.name, fun w hw => Decidable.or_iff_not_imp_left.2 fun hne' => ?_⟩
      exact h.other w.name v.name hne' hne ((hmoved w hw).resolve_left hne')
        ((hmoved v hv).resolve_left hne)
    · exact ⟨name, fun w hw => .inl (Decidable.byContradiction fun hne => hmore ⟨w, hw, hne⟩)⟩
  have hsub : writes.map Node.name ⊆ [name, other] := by
    intro y hy
    obtain ⟨w, hw, rfl⟩ := List.mem_map.1 hy
    rcases hother w hw with h | h <;> simp [h]
  rw [← List.length_map Node.name]
  exact List.Nodup.length_le_of_subset hwrites hsub

/-- The pass after an event writes nothing but the node of the event and those that have moved; and
that node only if it is in one of the selections. -/
theorem AfterPass.moves_of_mem_writes {f f₁ : Fleet} {policy name : String} {nodes' : List Node}
    (h : AfterPass policy f f₁) (hf : Foreseeable f policy)
    (hevent : NodeEvent name f₁.nodes nodes')
    (hjoins : name ∉ f₁.nodes.map Node.name →
      ∀ n ∈ nodes', n.name = name → n.isManagedBy (Marker.key policy) = false)
    {n : Node} (hn : n ∈ nodes') (hchanged : (f₁.withNodes nodes').effect policy n ≠ n) :
    (n.name = name ∧
        (name ∈ f.chosen policy ∨ name ∈ (f₁.withNodes nodes').chosen policy)) ∨
      ¬(n.name ∈ f.chosen policy ↔ n.name ∈ (f₁.withNodes nodes').chosen policy) := by
  have hdistinct' := hevent.distinct (h.distinct hf.distinct)
  have hg := h.foreseeable_withNodes hf hdistinct'
  by_cases hname : n.name = name
  · refine .inl ⟨hname, Decidable.byContradiction fun hneither => hchanged ?_⟩
    obtain ⟨hbefore, hafter⟩ := not_or.1 hneither
    refine Fleet.effect_of_unmarked hg ?_ (hname ▸ hafter)
    rcases hevent.labels_cases hn hname with hnew | ⟨m, hm, hmname, hlabels⟩
    · exact hjoins hnew n hn hname
    · -- The node was there and had been settled as one that is not selected.
      rw [Node.isManagedBy, hlabels, ← Node.isManagedBy]
      rw [h.nodes] at hm
      obtain ⟨m, -, rfl⟩ := List.mem_map.1 hm
      rw [Node.name_eq_of_bare_eq (f.bare_effect policy m)] at hmname
      refine eq_false_of_ne_true fun hmarked => hbefore ?_
      exact hmname ▸ (Fleet.isManagedBy_effect hf m).1 hmarked
  · exact .inr fun hstays =>
      hchanged (h.effect_eq_self hf hdistinct' (hevent.mem_of_name_ne hn hname) hstays)

/-- **Little churn.** Under an ordered strategy, when one node of a fleet joins, leaves, or changes
its readiness, at most one other node comes into the selection or goes out of it, the nodes that
stay keep their order, and the selection is the same if the node is in neither. After a pass of a
policy that does not declare its own marker, and one such event, a pass therefore writes two nodes
at most, and none if the node of the event is in neither selection. -/
theorem bounded_churn :
    (∀ {spec : StrategySpec}, spec.Ordered → ∀ {name : String} {nodes nodes' : List Node},
      DistinctNames nodes → NodeEvent name nodes nodes' → ∀ draws draws' : DrawSource,
        ∃ before after, select nodes spec draws = .ok before ∧
          select nodes' spec draws' = .ok after ∧ SmallChange name before after) ∧
      ∀ {f : Fleet} {policy : String}, Foreseeable f policy → f.LeavesMarker policy →
        ∀ settings : PassSettings, ∃ outcome f₁,
          (Pass.reconcile settings policy).run Fleet.handler f = (.ok outcome, f₁) ∧
          ∀ {name : String} {nodes' : List Node}, NodeEvent name f₁.nodes nodes' →
            (name ∉ f₁.nodes.map Node.name →
              ∀ n ∈ nodes', n.name = name → n.isManagedBy (Marker.key policy) = false) →
            ∀ settings' : PassSettings,
              let g := f₁.withNodes nodes'
              let pass := Pass.reconcile settings' policy
              (∃ outcome' g', pass.run Fleet.handler g = (.ok outcome', g')) ∧
                (pass.writes Fleet.handler g).length ≤ 2 ∧
                (name ∉ f.chosen policy → name ∉ g.chosen policy →
                  pass.writes Fleet.handler g = []) := by
  refine ⟨fun hordered _ _ _ hdistinct hevent => smallChange_of_event hordered hdistinct hevent,
    fun {f policy} hf hmarker settings => ?_⟩
  obtain ⟨outcome, f₁, hrun, hpass⟩ := Pass.exists_run_reconcile hf settings
  refine ⟨outcome, f₁, hrun, fun {name nodes'} hevent hjoins settings' => ?_⟩
  have hdistinct' := hevent.distinct (hpass.distinct hf.distinct)
  have hg := hpass.foreseeable_withNodes hf hdistinct'
  obtain ⟨outcome', g', hrun', -⟩ := Pass.exists_run_reconcile hg settings'
  obtain ⟨hwrites, hchanges⟩ :=
    Fleet.writes_work hg (hpass.leavesMarker_withNodes hmarker) settings'
  obtain ⟨before, after, hbefore, hafter, hsmall⟩ := hpass.smallChange hf hevent
  refine ⟨⟨outcome', g', hrun'⟩, ?_⟩
  rw [Pass.writes_reconcile hg.distinct]
  rw [← hbefore, ← hafter]
  refine ⟨hsmall.length_le_two hwrites fun w hw => ?_, fun hnot hnot' => ?_⟩
  · obtain ⟨n, hn, hname, hchanged⟩ := hchanges w hw
    rw [← hname, Moves, hbefore, hafter]
    exact (hpass.moves_of_mem_writes hf hevent hjoins hn hchanged).imp_left And.left
  · refine List.eq_nil_iff_forall_not_mem.2 fun w hw => ?_
    obtain ⟨n, hn, hname, hchanged⟩ := hchanges w hw
    have hsame := hsmall.same hnot hnot'
    have hmoves := hpass.moves_of_mem_writes hf hevent hjoins hn hchanged
    rw [← hbefore, ← hafter, hsame] at hmoves
    rcases hmoves with ⟨-, hin | hin⟩ | hmoved
    · exact hnot hin
    · exact hnot hin
    · exact hmoved Iff.rfl

/-- A policy for two nodes. -/
def frontPolicy : Policy := .plain "web" "oldest" 2 [("tier", "front")]

/-- More ready nodes than the policy asks for. -/
def crowdedFleet : Fleet where
  nodes := [.plain "d" "True" [], .plain "b" "True" [], .plain "c" "True" []]
  policies := Fleet.policiesOf [frontPolicy]

/-- The same fleet after a pass of the policy. -/
def crowdedAfter : Fleet where
  nodes :=
    [.plain "d" "True" [],
     .plain "b" "True" [(Marker.key "web", "true"), ("tier", "front")],
     .plain "c" "True" [(Marker.key "web", "true"), ("tier", "front")]]
  policies := Fleet.policiesOf [frontPolicy.track]
  statuses := KeyMap.empty.insert "web"
    { selectedNodes := ["b", "c"], lastReconcileTime := some PassSettings.plain.now }

theorem stored_crowdedFleet : crowdedFleet.policies.get? "web" = some frontPolicy := by
  decide +kernel

theorem select_crowdedFleet : select crowdedFleet.nodes frontPolicy.spec.strategy Draws.still =
    .ok [.plain "b" "True" [], .plain "c" "True" []] :=
  let sorted := [.plain "b" "True" [], .plain "c" "True" [], .plain "d" "True" []]
  select_eq_take_of_pairwise (s := .oldest) (by decide +kernel) (by decide) (by decide +kernel)
    (show sorted.Perm _ by decide +kernel) (by decide +kernel) Draws.still

/-- One more node at the end of the order is not selected. -/
theorem select_crowdedFleet_behind :
    select (.plain "e" "True" [] :: crowdedFleet.nodes) frontPolicy.spec.strategy Draws.still =
      .ok [.plain "b" "True" [], .plain "c" "True" []] :=
  let sorted :=
    [.plain "b" "True" [], .plain "c" "True" [], .plain "d" "True" [], .plain "e" "True" []]
  select_eq_take_of_pairwise (s := .oldest) (by decide +kernel) (by decide) (by decide +kernel)
    (show sorted.Perm _ by decide +kernel) (by decide +kernel) Draws.still

theorem run_reconcile_crowdedFleet :
    (Pass.reconcile .plain "web").run Fleet.handler crowdedFleet =
      (.ok (.requeue 300), crowdedAfter) := by
  have hdraws : PassSettings.plain.draws = Draws.still := rfl
  rw [Pass.run_reconcile_live (by decide +kernel) .plain stored_crowdedFleet (by decide), hdraws,
    select_crowdedFleet]
  decide +kernel

/-- That fleet with one more node. -/
def crowdedBy (n : Node) : Fleet := crowdedAfter.withNodes (n :: crowdedAfter.nodes)

/-- A node joins at the front of the order, so that the last one that was selected has to give way
to it; a node that joins at the end of the order changes nothing. -/
theorem bounded_churn_crowdedFleet :
    let first : Node := .plain "a" "True" []
    let last : Node := .plain "e" "True" []
    let writes (n : Node) : List Node :=
      (Pass.reconcile .plain "web").writes Fleet.handler (crowdedBy n)
    (∃ before after,
        select crowdedAfter.nodes frontPolicy.spec.strategy Draws.still = .ok before ∧
        select (crowdedBy first).nodes frontPolicy.spec.strategy Draws.still = .ok after ∧
        SmallChange "a" before after) ∧
      (writes first).length ≤ 2 ∧ writes last = [] := by
  intro first last writes
  obtain ⟨hselections, hpasses⟩ := bounded_churn
  obtain ⟨outcome, f₁, hrun, hevents⟩ :=
    hpasses (show Foreseeable crowdedFleet "web" by decide +kernel)
      (show crowdedFleet.LeavesMarker "web" by decide +kernel) .plain
  obtain rfl : crowdedAfter = f₁ :=
    congrArg Prod.snd (run_reconcile_crowdedFleet.symm.trans hrun)
  have hfirst : NodeEvent "a" crowdedAfter.nodes (first :: crowdedAfter.nodes) :=
    .joins [] crowdedAfter.nodes first rfl (by decide +kernel)
  have hlast : NodeEvent "e" crowdedAfter.nodes (last :: crowdedAfter.nodes) :=
    .joins [] crowdedAfter.nodes last rfl (by decide +kernel)
  obtain ⟨-, hfew, -⟩ := hevents hfirst (by decide +kernel) .plain
  obtain ⟨-, -, hnone⟩ := hevents hlast (by decide +kernel) .plain
  have hbefore : crowdedFleet.chosen "web" = ["b", "c"] := by
    rw [Fleet.chosen, Fleet.selected?_of_live stored_crowdedFleet rfl, StrategySpec.choice,
      select_crowdedFleet]
    rfl
  have hafter : (crowdedBy last).chosen "web" = ["b", "c"] := by
    -- Labels have no part in a selection, so it is made from the fleet without any.
    have hbare : (crowdedBy last).nodes.map Node.bare =
        (last :: crowdedFleet.nodes).map Node.bare := by decide +kernel
    have hstored : (crowdedBy last).policies.get? "web" = some frontPolicy.track := by
      decide +kernel
    rw [Fleet.chosen, Fleet.selected?_of_live hstored rfl,
      StrategySpec.choice_congr (by decide) hbare]
    show (some (frontPolicy.spec.strategy.choice _)).getD [] = _
    rw [StrategySpec.choice, select_crowdedFleet_behind]
    rfl
  refine ⟨?_, hfew, hnone (hbefore ▸ by decide) (hafter ▸ by decide)⟩
  exact hselections (by decide) (by decide +kernel) hfirst Draws.still Draws.still

end FleetLabels
