import FleetLabels.Fleet.Fault
import FleetLabels.Proofs.Effect

/-!
# Retries

A pass that fails leaves behind what it has done so far, and nothing is undone. The next pass makes
up for it: whatever call an earlier pass was stopped at, and however often that happened, the first
pass that gets through brings the fleet to where a single pass would have brought it at once.

Failures come from a `Gate` before the store. It may keep a state of its own and turn down any call;
a call that is turned down changes nothing. Of an aborted pass only one thing is needed, that some
call was the first one not to be answered (`Pass.Stops`). The fleet is then `Underway`: what the pass
has yet to make of it is what it had to make of the fleet at the start. A node that has been written
is not changed again, since settling and cleaning are done for good; and neither labels nor the
finalizer have a part in what is selected. Being underway twice is therefore being underway once.

## Main results

* `Pass.stops_of_gated` — what is left of an aborted pass is a fleet at which it stops.
* `Pass.underway_of_stops` — such a fleet is underway.
* `AbortedPasses.underway` — it stays underway for any number of aborted passes.
* `retries_converge` — a pass that succeeds at last leaves what one pass would have left.
-/

namespace FleetLabels

variable {α β σ : Type}

/-! ## Gates -/

/-- A say over calls: it may turn a call down with a failure, and may remember that it did. -/
abbrev Gate (σ : Type) := StoreCall → σ → Option PassError × σ

/-- The fleet behind a gate, together with the state of the gate. -/
def Fleet.gated (gate : Gate σ) : Pass.Handler (σ × Fleet) := fun call (s, f) =>
  match gate call s with
  | (some e, s) => (.error e, s, f)
  | (none, s) => ((f.handler call).1, s, (f.handler call).2)

/-- Failing by rules is a gate. -/
def FaultRule.gate : Gate (List FaultRule) := fun call rules =>
  match consult call rules with
  | some (rule, rules) => (some (rule.failure call), rules)
  | none => (none, rules)

section Gated

variable {gate : Gate σ} {call : StoreCall} {s s' : σ} {f f' : Fleet}

/-- What is answered behind a gate has come from the fleet. -/
theorem Fleet.handler_of_gated {answer : call.Answer}
    (h : gated gate call (s, f) = (.ok answer, s', f')) :
    handler call f = (.ok answer, f') := by
  unfold gated at h
  rcases hgate : gate call s with ⟨_ | e, s₁⟩
  · simp only [hgate, Prod.mk.injEq] at h
    obtain ⟨hanswer, -, hfleet⟩ := h
    exact Prod.ext hanswer hfleet
  · simp only [hgate] at h
    cases h

/-- A call that fails changes nothing, whether the gate or the fleet has refused it. -/
theorem Fleet.eq_of_gated_error {e : PassError} (h : gated gate call (s, f) = (.error e, s', f')) :
    f' = f := by
  have hfleet : ∀ {f₁ : Fleet}, handler call f = (.error e, f₁) → f₁ = f := by
    intro f₁ hrefused
    cases call with
    | updateNode w =>
        simp only [handler, answer] at hrefused
        cases hreplace : replaceNode w f.nodes <;> rw [hreplace] at hrefused <;> cases hrefused
        rfl
    | getPolicy name => cases hrefused
    | listNodes => cases hrefused
    | updatePolicy policy => cases hrefused
    | updateStatus policy status => cases hrefused
  unfold gated at h
  rcases hgate : gate call s with ⟨_ | e', s₁⟩
  · simp only [hgate, Prod.mk.injEq] at h
    obtain ⟨hanswer, -, rfl⟩ := h
    exact hfleet (Prod.ext hanswer rfl)
  · simp only [hgate] at h
    cases h
    rfl

end Gated

namespace Pass

/-! ## Stopped passes -/

/-- The program, run from the first fleet, stops at the second one without success: with a failure
of its own, or at a call that is not answered. -/
inductive Stops : Pass α → Fleet → Fleet → Prop where
  | failed (e : PassError) (f : Fleet) : Stops (.done (.error e)) f f
  | unanswered (call : StoreCall) (next : call.Answer → Pass α) (f : Fleet) :
      Stops (.ask call next) f f
  | answered {call : StoreCall} {next : call.Answer → Pass α} {answer : call.Answer}
      {f f' f'' : Fleet} (hanswer : Fleet.handler call f = (.ok answer, f'))
      (hrest : (next answer).Stops f' f'') : Stops (.ask call next) f f''

variable {gate : Gate σ} {p : Pass α} {s s' : σ} {f f' : Fleet}

/-- What succeeds behind a gate succeeds without it. -/
theorem run_of_gated {a : α} (h : p.run (Fleet.gated gate) (s, f) = (.ok a, s', f')) :
    p.run Fleet.handler f = (.ok a, f') := by
  induction p generalizing s f with
  | done r =>
      cases h
      rfl
  | ask call next ih =>
      simp only [run] at h ⊢
      rcases hanswer : Fleet.gated gate call (s, f) with ⟨_ | answer, s₁, f₁⟩
      · rw [hanswer] at h
        cases h
      · rw [hanswer] at h
        rw [Fleet.handler_of_gated hanswer]
        exact ih answer h

/-- A pass that fails behind a gate stops somewhere without it. -/
theorem stops_of_gated {e : PassError} (h : p.run (Fleet.gated gate) (s, f) = (.error e, s', f')) :
    p.Stops f f' := by
  induction p generalizing s f with
  | done r =>
      cases h
      exact .failed e f'
  | ask call next ih =>
      simp only [run] at h
      rcases hanswer : Fleet.gated gate call (s, f) with ⟨_ | answer, s₁, f₁⟩
      · rw [hanswer] at h
        cases h
        rw [Fleet.eq_of_gated_error hanswer]
        exact .unanswered call next f
      · rw [hanswer] at h
        exact .answered (Fleet.handler_of_gated hanswer) (ih answer h)

/-- One program after another stops within the first, or within the second once the first is
done. -/
theorem Stops.of_bind {q : α → Pass β} (h : (p.bind q).Stops f f') :
    p.Stops f f' ∨ ∃ a f₁, p.run Fleet.handler f = (.ok a, f₁) ∧ (q a).Stops f₁ f' := by
  induction p generalizing f with
  | done r =>
      cases r with
      | ok a => exact .inr ⟨a, f, rfl, h⟩
      | error e =>
          cases h
          exact .inl (.failed e f')
  | ask call next ih =>
      cases h with
      | unanswered => exact .inl (.unanswered call next f')
      | @answered _ _ answer _ f₁ _ hanswer hrest =>
          rcases ih answer hrest with hfirst | ⟨a, f₂, hrun, hsecond⟩
          · exact .inl (.answered hanswer hfirst)
          · refine .inr ⟨a, f₂, ?_, hsecond⟩
            simp only [run, hanswer]
            exact hrun

/-- A call by itself changes nothing unless it is answered. -/
theorem Stops.of_call {c : StoreCall} (h : (call c).Stops f f') : f' = f := by
  cases h with
  | unanswered => rfl
  | answered _ hrest => cases hrest

end Pass

/-! ## Fleets that are partway -/

/-- Nothing but nodes has changed, and the action makes of them what it would have made before. -/
structure Fleet.Partway (act : Node → Node) (f f' : Fleet) : Prop where
  nodes : f'.nodes.map act = f.nodes.map act
  policies : f'.policies = f.policies
  statuses : f'.statuses = f.statuses

namespace Fleet

variable {act : Node → Node} (hdone : ∀ n, act (act n) = act n) {f : Fleet}

theorem Partway.refl (act : Node → Node) (f : Fleet) : Partway act f f := ⟨rfl, rfl, rfl⟩

include hdone

theorem partway_map : Partway act f { f with nodes := f.nodes.map act } := by
  refine ⟨?_, rfl, rfl⟩
  rw [List.map_map]
  exact List.map_congr_left fun n _ => hdone n

/-- Of the writes of an action some may be missing at the end: a node is as it was then, or as the
action makes it. -/
theorem partway_overlay_take {writes : List Node} (k : Nat)
    (h : overlay writes f.nodes = f.nodes.map act) :
    Partway act f { f with nodes := overlay (writes.take k) f.nodes } := by
  refine ⟨?_, rfl, rfl⟩
  show (f.nodes.map _).map act = f.nodes.map act
  rw [List.map_map]
  refine List.map_congr_left fun n hn => ?_
  have hall : (named? n.name writes).getD n = act n := List.map_inj_left.1 h n hn
  have hsplit : named? n.name writes =
      (named? n.name (writes.take k)).or (named? n.name (writes.drop k)) := by
    rw [← named?_append, List.take_append_drop]
  show act ((named? n.name (writes.take k)).getD n) = act n
  cases hfirst : named? n.name (writes.take k) with
  | none => rfl
  | some w =>
      rw [hsplit, hfirst] at hall
      have hw : w = act n := hall
      rw [Option.getD_some, hw, hdone]

end Fleet

namespace Pass

variable {f f' : Fleet}

/-- Writing nodes of the fleet stops after some of the writes. -/
theorem Stops.of_writeAll {writes : List Node} (hdistinct : DistinctNames f.nodes)
    (hwrites : DistinctNames writes) (hsub : writes.map Node.name ⊆ f.nodes.map Node.name)
    (h : (writeAll writes).Stops f f') :
    ∃ k, f' = { f with nodes := Fleet.overlay (writes.take k) f.nodes } := by
  induction writes generalizing f with
  | nil => cases h
  | cons w rest ih =>
      have hw : w.name ∈ f.nodes.map Node.name := hsub List.mem_cons_self
      have hrest : rest.map Node.name ⊆ (Fleet.overlay [w] f.nodes).map Node.name := by
        rw [Fleet.map_name_overlay]
        exact fun name hname => hsub (List.mem_cons_of_mem _ hname)
      rcases Stops.of_bind (p := updateNode w) h with hfirst | ⟨_, f₁, hrun, hlater⟩
      · refine ⟨0, ?_⟩
        rw [List.take_zero, Fleet.overlay_nil]
        rcases Stops.of_bind hfirst with hcall | ⟨_, _, _, hnone⟩
        · exact hcall.of_call
        · cases hnone
      · rw [run_updateNode hdistinct hw] at hrun
        cases hrun
        obtain ⟨k, hk⟩ := ih (Fleet.distinctNames_overlay.2 hdistinct) hwrites.tail hrest hlater
        refine ⟨k + 1, ?_⟩
        have htaken : DistinctNames (w :: rest.take k) :=
          List.Nodup.sublist (((List.take_sublist k rest).cons_cons w).map Node.name) hwrites
        rw [hk, List.take_succ_cons, Fleet.overlay_cons htaken]

/-- Writes that go together stop partway. -/
theorem Stops.partway_of_writeAll {act : Node → Node} (hdone : ∀ n, act (act n) = act n)
    {writes : List Node} (hdistinct : DistinctNames f.nodes) (hwrites : DistinctNames writes)
    (hsub : writes.map Node.name ⊆ f.nodes.map Node.name)
    (hoverlay : Fleet.overlay writes f.nodes = f.nodes.map act)
    (h : (writeAll writes).Stops f f') : Fleet.Partway act f f' := by
  obtain ⟨k, rfl⟩ := h.of_writeAll hdistinct hwrites hsub
  exact Fleet.partway_overlay_take hdone k hoverlay

/-- A listing that is answered shows the nodes of the fleet. -/
theorem Stops.of_listNodes {q : List Node → Pass α} (h : (listNodes.bind q).Stops f f') :
    f' = f ∨ (q f.nodes).Stops f f' := by
  rcases Stops.of_bind h with hcall | ⟨_, _, hrun, hrest⟩
  · exact .inl hcall.of_call
  · cases hrun
    exact .inr hrest

theorem Stops.partway_of_cleanup {name : String} {declared : Labels}
    (hdistinct : DistinctNames f.nodes) (h : (cleanup name declared).Stops f f') :
    Fleet.Partway (Node.cleaned name declared) f f' := by
  rw [cleanup_eq] at h
  rcases h.of_listNodes with rfl | h
  · exact .refl ..
  rcases h.of_bind with hwriting | ⟨_, _, _, hover⟩
  · exact hwriting.partway_of_writeAll (Node.cleaned_cleaned name declared) hdistinct
      (distinctNames_cleanupWrites hdistinct) names_cleanupWrites_subset
      (overlay_cleanupWrites hdistinct)
  · cases hover

theorem Stops.partway_of_finalize {p : Policy} (hdistinct : DistinctNames f.nodes)
    (h : (finalize p).Stops f f') :
    Fleet.Partway (Node.cleaned p.name p.spec.labels) f f' := by
  rcases Stops.of_bind (p := cleanup p.name p.spec.labels) h with hcleaning | ⟨_, f₁, hrun, hrelease⟩
  · exact hcleaning.partway_of_cleanup hdistinct
  · rw [run_cleanup hdistinct] at hrun
    cases hrun
    -- The release was not answered, so that nothing is missing but that.
    cases hfinalizer : p.hasFinalizer with
    | false =>
        rw [hfinalizer] at hrelease
        cases hrelease
    | true =>
        rw [hfinalizer] at hrelease
        rcases Stops.of_bind (p := updatePolicy p.release) hrelease with hcall | ⟨_, _, _, hover⟩
        · rw [hcall.of_call]
          exact Fleet.partway_map (Node.cleaned_cleaned p.name p.spec.labels)
        · cases hover

theorem Stops.partway_of_apply {settings : PassSettings} {p : Policy}
    (hdistinct : DistinctNames f.nodes) (hordered : p.spec.strategy.Ordered)
    (h : (apply settings p).Stops f f') :
    Fleet.Partway (p.settled (p.spec.strategy.choice f.nodes)) f f' := by
  obtain ⟨selected, hselect, hchoice⟩ := select_of_ordered hordered f.nodes settings.draws
  have hsub : selected ⊆ f.nodes := fun n hn => mem_of_select hselect hn
  have hsel : DistinctNames selected := nodup_names_of_select hselect hdistinct
  have hoverlay : Fleet.overlay (applyWrites p f.nodes selected) f.nodes =
      f.nodes.map (p.settled (selected.map Node.name)) :=
    overlay_applyWrites hdistinct hsub hsel
  rw [← hchoice]
  rw [apply_eq] at h
  rcases h.of_listNodes with rfl | h
  · exact .refl ..
  rw [hselect] at h
  rcases Stops.of_bind (p := writeAll (applyWrites p f.nodes selected)) h with
    hwriting | ⟨_, f₁, hrun, hstatus⟩
  · exact hwriting.partway_of_writeAll (p.settled_settled _) hdistinct
      (distinctNames_applyWrites hdistinct hsel) (names_applyWrites_subset hsub) hoverlay
  · rw [run_writeAll hdistinct (distinctNames_applyWrites hdistinct hsel)
      (names_applyWrites_subset hsub), hoverlay] at hrun
    cases hrun
    rcases Stops.of_bind hstatus with hcall | ⟨_, _, _, hover⟩
    · rw [hcall.of_call]
      exact Fleet.partway_map (p.settled_settled _)
    · cases hover

end Pass

/-! ## Aborted passes -/

/-- The pass of a policy has yet to make of the second fleet what it had to make of the first. -/
structure Underway (name : String) (f f' : Fleet) : Prop where
  alike : Fleet.Alike name f f'
  nodes : f'.nodes.map (f.effect name) = f.nodes.map (f.effect name)
  records : ∀ q, q ≠ name → f'.policies.get? q = f.policies.get? q
  statuses : f'.statuses = f.statuses

namespace Underway

variable {f f' f'' : Fleet} {name : String}

theorem refl (name : String) (f : Fleet) : Underway name f f :=
  ⟨.refl name f, rfl, fun _ _ => rfl, rfl⟩

theorem of_partway (h : Fleet.Partway (f.effect name) f f') : Underway name f f' := by
  refine ⟨⟨?_, .inl ?_⟩, h.nodes, fun q _ => ?_, h.statuses⟩
  · rw [← f.map_bare_effect name, h.nodes, f.map_bare_effect]
  · rw [h.policies]
  · rw [h.policies]

theorem trans (hf : Foreseeable f name) (h : Underway name f f') (h' : Underway name f' f'') :
    Underway name f f'' := by
  refine ⟨h.alike.trans h'.alike, ?_, fun q hq => ?_, h'.statuses.trans h.statuses⟩
  · have hnodes := h'.nodes
    rw [h.alike.effect_eq hf, h.nodes] at hnodes
    exact hnodes
  · exact (h'.records q hq).trans (h.records q hq)

end Underway

namespace Pass

variable {f f' : Fleet} {name : String} {settings : PassSettings} {p : Policy}

private theorem underway_of_apply (hf : Foreseeable f p.name)
    (hstored : f.policies.get? p.name = some p) (hlive : p.isDeleting = false)
    (h : (apply settings p).Stops f f') : Underway p.name f f' := by
  have hpartway := h.partway_of_apply hf.distinct (hf.ordered p hstored hlive)
  rw [← Fleet.effect_of_live hstored hlive] at hpartway
  exact .of_partway hpartway

/-- The finalizer is written first; once it is there, the rest is the pass of a tracked policy. -/
private theorem underway_of_track (hf : Foreseeable f p.name)
    (hstored : f.policies.get? p.name = some p) (hlive : p.isDeleting = false)
    (huntracked : p.hasFinalizer = false)
    (h : ((updatePolicy p.track).bind (apply settings)).Stops f f') : Underway p.name f f' := by
  rcases h.of_bind with hcall | ⟨_, f₁, hrun, hrest⟩
  · exact hcall.of_call ▸ .refl p.name f
  cases hrun
  have hlive' : p.track.isDeleting = false := hlive
  have hget : ∀ q, (Fleet.storePolicy f.policies p.track).get? q =
      if q = p.name then some p.track else f.policies.get? q := fun q => by
    rw [Fleet.get?_storePolicy, hlive', Bool.false_and]
    rfl
  have htracked : Underway p.name f
      { f with policies := Fleet.storePolicy f.policies p.track } := by
    refine ⟨⟨rfl, .inr ⟨p, hstored, hlive, huntracked, ?_⟩⟩, rfl, fun q hq => ?_, rfl⟩
    · rw [hget, if_pos rfl]
    · rw [hget, if_neg hq]
  have hstored' : (Fleet.storePolicy f.policies p.track).get? p.name = some p.track := by
    rw [hget, if_pos rfl]
  exact htracked.trans hf
    (underway_of_apply (p := p.track) (htracked.alike.foreseeable hf) hstored' hlive' hrest)

/-- A pass that is stopped leaves a fleet that is underway. -/
theorem underway_of_stops (hf : Foreseeable f name) (h : (reconcile settings name).Stops f f') :
    Underway name f f' := by
  rw [reconcile_eq] at h
  rcases h.of_bind with hcall | ⟨record, f₁, hrun, hrest⟩
  · exact hcall.of_call ▸ .refl name f
  cases hrun
  cases hstate : Policy.State.of (f.policies.get? name) with
  | gone =>
      have hgone : f.policies.get? name = none := Policy.State.of_eq_iff.1 hstate
      rw [hstate] at hrest
      rcases Stops.of_bind (p := cleanup name .empty) hrest with hcleaning | ⟨_, _, _, hover⟩
      · have hpartway := hcleaning.partway_of_cleanup hf.distinct
        rw [← Fleet.effect_of_gone hgone] at hpartway
        exact .of_partway hpartway
      · cases hover
  | terminating p =>
      obtain ⟨hstored, hdeleting⟩ := Policy.State.of_eq_iff.1 hstate
      obtain rfl := hf.named p hstored
      rw [hstate] at hrest
      rcases Stops.of_bind (p := finalize p) hrest with hcleaning | ⟨_, _, _, hover⟩
      · have hpartway := hcleaning.partway_of_finalize hf.distinct
        rw [← Fleet.effect_of_deleting hstored hdeleting] at hpartway
        exact .of_partway hpartway
      · cases hover
  | tracked p =>
      obtain ⟨hstored, hlive, _⟩ := Policy.State.of_eq_iff.1 hstate
      obtain rfl := hf.named p hstored
      rw [hstate] at hrest
      exact underway_of_apply hf hstored hlive hrest
  | untracked p =>
      obtain ⟨hstored, hlive, huntracked⟩ := Policy.State.of_eq_iff.1 hstate
      obtain rfl := hf.named p hstored
      rw [hstate] at hrest
      exact underway_of_track hf hstored hlive huntracked hrest

end Pass

/-- One fleet comes from another by passes of a policy that were all aborted, each by a gate of its
own, and with nothing happening in between. -/
inductive AbortedPasses (name : String) : Fleet → Fleet → Prop where
  | none (f : Fleet) : AbortedPasses name f f
  | next {f f' f'' : Fleet} (before : AbortedPasses name f f') {σ : Type} (gate : Gate σ)
      (s s' : σ) (settings : PassSettings) (e : PassError)
      (aborted : (Pass.reconcile settings name).run (Fleet.gated gate) (s, f') =
        (.error e, s', f'')) : AbortedPasses name f f''

theorem AbortedPasses.underway {f f' : Fleet} {name : String} (hf : Foreseeable f name)
    (h : AbortedPasses name f f') : Underway name f f' := by
  induction h with
  | none => exact .refl name _
  | next _ gate s s' settings e aborted ih =>
      exact ih.trans hf
        (Pass.underway_of_stops (ih.alike.foreseeable hf) (Pass.stops_of_gated aborted))

/-- **Retries converge.** A pass that succeeds after any number of aborted ones leaves the fleet that
a single successful pass would have left, up to the time in the status. -/
theorem retries_converge {f f' final : Fleet} {name : String} (hf : Foreseeable f name)
    (haborted : AbortedPasses name f f') {σ : Type} {gate : Gate σ} {s s' : σ}
    {settings : PassSettings} {outcome : Outcome}
    (hlast : (Pass.reconcile settings name).run (Fleet.gated gate) (s, f') =
      (.ok outcome, s', final)) (settings₁ : PassSettings) :
    ∃ outcome₁ once, (Pass.reconcile settings₁ name).run Fleet.handler f = (.ok outcome₁, once) ∧
      final.Agrees once := by
  have hunderway := haborted.underway hf
  have halike := hunderway.alike
  obtain ⟨outcome₁, once, hrun, honce⟩ := Pass.exists_run_reconcile hf settings₁
  obtain ⟨_, _, hrun', hfinal⟩ := Pass.exists_run_reconcile (halike.foreseeable hf) settings
  rw [Pass.run_of_gated hlast] at hrun'
  cases hrun'
  refine ⟨outcome₁, once, hrun, ?_⟩
  constructor
  case nodes => rw [hfinal.nodes, halike.effect_eq hf, hunderway.nodes, honce.nodes]
  case policies =>
    refine KeyMap.ext_get? fun q => ?_
    by_cases hq : q = name
    · rw [hq, hfinal.record, halike.afterPass_eq, honce.record]
    · rw [hfinal.records q hq, hunderway.records q hq, honce.records q hq]
  case recorded =>
    have hbefore : ∀ q, f'.recorded? q = f.recorded? q := fun q => by
      rw [Fleet.recorded?, hunderway.statuses, Fleet.recorded?]
    intro q
    by_cases hq : q = name
    · rw [hq, hfinal.recorded, honce.recorded, Fleet.recordedAfter, Fleet.recordedAfter,
        halike.selected?_eq hf, hbefore]
    · rw [hfinal.otherwise q hq, honce.otherwise q hq, hbefore]

/-- Two nodes that are not ready still carry the labels of a policy, which is yet to get its
finalizer. -/
def drainedFleet : Fleet where
  nodes :=
    [.plain "a" "False" [(Marker.key "web", "true"), ("tier", "front"), ("zone", "1")],
     .plain "b" "False" [(Marker.key "web", "true"), ("tier", "front"), ("zone", "2")]]
  policies := Fleet.policiesOf [.plain "web" "oldest" 2 [("tier", "front")]]

/-- One write of each kind fails once. -/
def drainedRules : List FaultRule :=
  [{ verb := "update_policy", times := some 1, cause := .lines },
   { verb := "update_node", name := some "b", times := some 1, cause := .lines },
   { verb := "update_policy_status", times := some 1, cause := .lines }]

/-- What is left of that after some passes. -/
def drainedAfter : Nat → List FaultRule × Fleet
  | 0 => (drainedRules, drainedFleet)
  | k + 1 => ((Pass.reconcile .plain "web").run (Fleet.gated FaultRule.gate) (drainedAfter k)).2

/-- The first pass is stopped at the finalizer, the second one between the two nodes, the third one
at the status; the fourth one succeeds. -/
theorem retries_converge_drainedFleet :
    AbortedPasses "web" drainedFleet (drainedAfter 3).2 ∧
      (drainedAfter 2).2.nodes.map (·.isManagedBy (Marker.key "web")) = [false, true] ∧
      ∃ outcome once, (Pass.reconcile .plain "web").run Fleet.handler drainedFleet =
        (.ok outcome, once) ∧ (drainedAfter 4).2.Agrees once := by
  have hforeseeable : Foreseeable drainedFleet "web" := by decide +kernel
  have hpass : ∀ k e, ((Pass.reconcile .plain "web").run (Fleet.gated FaultRule.gate)
      (drainedAfter k)).1 = .error e →
      AbortedPasses "web" drainedFleet (drainedAfter k).2 →
      AbortedPasses "web" drainedFleet (drainedAfter (k + 1)).2 :=
    fun k e herror hbefore => .next hbefore FaultRule.gate _ _ .plain e (Prod.ext herror rfl)
  have haborted : AbortedPasses "web" drainedFleet (drainedAfter 3).2 := by
    refine hpass 2 (.write "NodeLabelPolicy web status" .lines) (by decide +kernel) ?_
    refine hpass 1 (.write "node b" .lines) (by decide +kernel) ?_
    refine hpass 0 (.write "NodeLabelPolicy web" .lines) (by decide +kernel) ?_
    exact .none drainedFleet
  have hlast : (Pass.reconcile .plain "web").run (Fleet.gated FaultRule.gate) (drainedAfter 3) =
      (.ok (.requeue 300), drainedAfter 4) := Prod.ext (by decide +kernel) rfl
  exact ⟨haborted, by decide +kernel, retries_converge hforeseeable haborted hlast .plain⟩

end FleetLabels
