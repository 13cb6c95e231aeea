import FleetLabels.Fleet.Edit
import FleetLabels.Proofs.Plan
import FleetLabels.Proofs.Retry

/-!
# Finalizers of others

A record is replaced whole, and its finalizers belong to several parties: one that is lost lets go
of an object that somebody still holds, and one that comes twice is not taken off by removing it
once. So of a pass it matters which records it writes at all, and what they have in common with the
record that it found.

A pass writes one record at most. `Policy.State.records` tells it from what the pass has found, and
`Policy.Rewrites` says what the two records share: everything but the finalizers, and of these all
that are not this library's own, in their order.

Over a fleet in memory these writes add up. In a run of passes and of requests for deletion every
record `Descends` from the one that stood under its name at the start.

## Main results

* `Pass.records_reconcile` — the records that a pass writes, over any store.
* `Pass.policies_run` — over a fleet, the records after a program are those before it with its
  writes.
* `finalizers_of_others_kept` — what a pass does to a record, and what a run of passes does.
-/

namespace FleetLabels

/-! ## Records of a pass -/

/-- The record that a call replaces, if it replaces one. -/
def StoreCall.policy? : StoreCall → Option Policy
  | .updatePolicy p => some p
  | _ => none

namespace Policy

/-- The finalizers that other parties have put on a policy, in order. -/
def foreignFinalizers (p : Policy) : List String :=
  p.finalizers.filter (· != finalizer)

/-- What a pass may write for a record that it has found: the same record with other finalizers,
where those of others are left alone, and this library's own is put after all others of a live
policy that had none, or taken off a policy under deletion. -/
structure Rewrites (found written : Policy) : Prop where
  same : written = found.withFinalizers written.finalizers
  foreign : written.foreignFinalizers = found.foreignFinalizers
  own :
    (found.isDeleting = false ∧ finalizer ∉ found.finalizers ∧
      written.finalizers = found.finalizers ++ [finalizer]) ∨
    (found.isDeleting = true ∧ finalizer ∈ found.finalizers ∧ finalizer ∉ written.finalizers)

theorem rewrites_track {p : Policy} (hlive : p.isDeleting = false)
    (huntracked : p.hasFinalizer = false) : p.Rewrites p.track where
  same := rfl
  foreign := by
    show (p.finalizers ++ [finalizer]).filter (· != finalizer) =
      p.finalizers.filter (· != finalizer)
    simp
  own := by
    refine .inl ⟨hlive, fun hmem => ?_, rfl⟩
    rw [p.hasFinalizer_iff.2 hmem] at huntracked
    cases huntracked

theorem rewrites_release {p : Policy} (hdeleting : p.isDeleting = true)
    (hfinalizer : p.hasFinalizer = true) : p.Rewrites p.release where
  same := rfl
  foreign := by
    show (p.finalizers.filter (· != finalizer)).filter (· != finalizer) =
      p.finalizers.filter (· != finalizer)
    rw [List.filter_filter]
    simp
  own := by
    refine .inr ⟨hdeleting, p.hasFinalizer_iff.1 hfinalizer, fun hmem => ?_⟩
    have hnone := p.hasFinalizer_release
    rw [p.release.hasFinalizer_iff.2 hmem] at hnone
    cases hnone

/-- The records that a pass is to write, by the state of its policy. -/
def State.records : State → List Policy
  | .gone | .tracked _ => []
  | .untracked p => [p.track]
  | .terminating p => if p.hasFinalizer then [p.release] else []

theorem State.length_records_le (state : State) : state.records.length ≤ 1 := by
  cases state with
  | terminating p =>
      rw [records]
      split <;> simp
  | _ => simp [records]

theorem State.rewrites_of_mem {record : Option Policy} {w : Policy}
    (h : w ∈ (State.of record).records) : ∃ found, record = some found ∧ found.Rewrites w := by
  cases hstate : State.of record with
  | gone =>
      rw [hstate] at h
      cases h
  | tracked p =>
      rw [hstate] at h
      cases h
  | untracked p =>
      obtain ⟨rfl, hlive, huntracked⟩ := State.of_eq_iff.1 hstate
      rw [hstate] at h
      rw [List.mem_singleton.1 h]
      exact ⟨p, rfl, rewrites_track hlive huntracked⟩
  | terminating p =>
      obtain ⟨rfl, hdeleting⟩ := State.of_eq_iff.1 hstate
      rw [hstate, State.records] at h
      split at h
      next hfinalizer =>
        rw [List.mem_singleton.1 h]
        exact ⟨p, rfl, rewrites_release hdeleting hfinalizer⟩
      next => cases h

end Policy

namespace Pass

variable {α σ : Type}

/-- The records that a program replaces, in order. -/
def records (store : Handler σ) (p : Pass α) (s : σ) : List Policy :=
  (p.calls store s).filterMap StoreCall.policy?

/-- Those of them of which the replacement was answered with success. -/
def recorded (store : Handler σ) (p : Pass α) (s : σ) : List Policy :=
  ((p.exchanges store s).filter Exchange.succeeded).filterMap fun x => x.call.policy?

theorem recorded_sublist (store : Handler σ) (p : Pass α) (s : σ) :
    (p.recorded store s).Sublist (p.records store s) := by
  rw [records, calls, List.filterMap_map]
  exact List.filter_sublist.filterMap _

theorem filterMap_policy?_updateNode (writes : List Node) :
    (writes.map StoreCall.updateNode).filterMap StoreCall.policy? = [] := by
  rw [List.filterMap_map]
  exact List.filterMap_eq_nil_iff.2 fun _ _ => rfl

/-- No record is planned to be written but that of the state. -/
theorem records_plan (settings : PassSettings) (name : String) (found : Findings) :
    (plan settings name found).calls.filterMap StoreCall.policy? =
      (Policy.State.of found.record).records := by
  have hcleanup : ∀ (policy : String) (declared : Labels) (nodes : List Node),
      (cleanupCalls policy declared nodes).filterMap StoreCall.policy? = [] :=
    fun _ _ _ => filterMap_policy?_updateNode _
  have happly : ∀ (p : Policy) (nodes : List Node),
      (applyPlan settings p nodes).calls.filterMap StoreCall.policy? = [] := by
    intro p nodes
    unfold applyPlan
    split
    next =>
      rw [List.cons_append, List.filterMap_cons_none rfl, List.filterMap_append,
        filterMap_policy?_updateNode]
      rfl
    next => rfl
  unfold plan
  cases Policy.State.of found.record with
  | gone => exact hcleanup name .empty found.nodes
  | terminating p =>
      show (cleanupCalls p.name p.spec.labels found.nodes ++ _).filterMap StoreCall.policy? = _
      rw [List.filterMap_append, hcleanup, Policy.State.records]
      cases p.hasFinalizer <;> rfl
  | untracked p => exact congrArg (p.track :: ·) (happly found.stored found.nodes)
  | tracked p => exact happly p found.nodes

/-- A pass looks its policy up first. -/
theorem exchanges_reconcile_cases (store : Handler σ) (s : σ) (settings : PassSettings)
    (name : String) :
    (∃ e, (reconcile settings name).exchanges store s = [⟨.getPolicy name, .error e⟩]) ∨
      ∃ record s', (reconcile settings name).exchanges store s = ⟨.getPolicy name, .ok record⟩ ::
        (proceed settings name (Policy.State.of record)).exchanges store s' := by
  rw [reconcile_eq]
  exact exchanges_ask_cases store (.getPolicy name) _ s

/-- A policy that is to get the finalizer is written with the very next call. -/
theorem records_untracked (store : Handler σ) (s : σ) (settings : PassSettings) (name : String)
    (p : Policy) :
    p.track ∈ (proceed settings name (.untracked p)).records store s := by
  have hproceed : proceed settings name (.untracked p) =
      .ask (.updatePolicy p.track) (apply settings) := rfl
  rw [hproceed, records, calls]
  rcases exchanges_ask_cases store (.updatePolicy p.track) (apply settings) s with
    ⟨e, hmade⟩ | ⟨stored, s', hmade⟩ <;>
  · rw [hmade]
    exact List.mem_cons_self

/-- The records that a pass writes are the first ones of those that it is to write. If it gets
through, it writes them all, and the finalizer it writes in any case. -/
theorem records_reconcile (store : Handler σ) (s : σ) (settings : PassSettings) (name : String) :
    let pass := reconcile settings name
    pass.records store s = [] ∧ (∃ e, pass.exchanges store s = [⟨.getPolicy name, .error e⟩]) ∨
      ∃ record rest, pass.exchanges store s = ⟨.getPolicy name, .ok record⟩ :: rest ∧
        pass.records store s <+: (Policy.State.of record).records ∧
        (∀ outcome, (pass.run store s).1 = .ok outcome →
          pass.records store s = (Policy.State.of record).records) ∧
        ∀ p, Policy.State.of record = .untracked p → pass.records store s = [p.track] := by
  intro pass
  rcases exchanges_reconcile_cases store s settings name with ⟨e, hmade⟩ | ⟨record, s', hmade⟩
  · refine .inl ⟨?_, e, hmade⟩
    rw [records, calls, hmade]
    rfl
  right
  obtain ⟨found, hfound, habides⟩ := exists_abides_reconcile store s settings name
  obtain rfl : record = found.record := by
    rw [hmade] at hfound
    exact hfound _ List.mem_cons_self
  have hstart : pass.records store s <+: (Policy.State.of found.record).records := by
    rw [← records_plan settings name found]
    exact habides.calls_prefix.filterMap _
  refine ⟨_, _, hmade, hstart, fun outcome houtcome => ?_, fun p hp => ?_⟩
  · rw [← records_plan settings name found, ← ((habides.result_eq_ok_iff outcome).1 houtcome).1]
    rfl
  · have hmem : p.track ∈ pass.records store s := by
      rw [records, calls, hmade, hp]
      exact records_untracked store s' settings name p
    rw [hp] at hstart
    cases hrecords : pass.records store s with
    | nil =>
        rw [hrecords] at hmem
        cases hmem
    | cons w rest =>
        rw [hrecords] at hstart
        obtain ⟨rfl, hrest⟩ := List.cons_prefix_cons.1 hstart
        rw [List.prefix_nil.1 hrest]

theorem length_records_le (store : Handler σ) (s : σ) (settings : PassSettings) (name : String) :
    ((reconcile settings name).records store s).length ≤ 1 := by
  rcases records_reconcile store s settings name with ⟨hnone, -⟩ | ⟨record, rest, -, hstart, -⟩
  · rw [hnone]
    exact Nat.zero_le 1
  · exact Nat.le_trans hstart.length_le (Policy.State.length_records_le _)

/-- What a pass writes is a record that it has found, with other finalizers. -/
theorem exists_rewrites (store : Handler σ) (s : σ) (settings : PassSettings) (name : String)
    {w : Policy} (h : w ∈ (reconcile settings name).records store s) :
    ∃ found, ((reconcile settings name).exchanges store s).head? =
      some ⟨.getPolicy name, .ok (some found)⟩ ∧ found.Rewrites w := by
  rcases records_reconcile store s settings name with ⟨hnone, -⟩ | ⟨record, rest, hmade, hstart, -⟩
  · rw [hnone] at h
    cases h
  · obtain ⟨found, rfl, hrewrites⟩ := Policy.State.rewrites_of_mem (hstart.subset h)
    exact ⟨found, by rw [hmade]; rfl, hrewrites⟩

end Pass

/-! ## Records of a fleet -/

/-- Every record stands under its own name. -/
def Fleet.Keyed (f : Fleet) : Prop :=
  ∀ name p, f.policies.get? name = some p → p.name = name

/-- A call changes the records of a fleet by the record that it replaces. -/
theorem Fleet.policies_of_handler {call : StoreCall} {answer : call.Answer} {f f' : Fleet}
    (h : handler call f = (.ok answer, f')) :
    f'.policies = call.policy?.toList.foldl storePolicy f.policies := by
  cases call with
  | updateNode w =>
      simp only [handler, Fleet.answer] at h
      cases hreplace : replaceNode w f.nodes <;> rw [hreplace] at h <;> cases h
      rfl
  | getPolicy name => cases h; rfl
  | listNodes => cases h; rfl
  | updatePolicy p => cases h; rfl
  | updateStatus policy status => cases h; rfl

namespace Pass

variable {α σ : Type} {gate : Gate σ}

/-- The records of a fleet after a program, whichever of its calls are turned down. -/
theorem policies_run (p : Pass α) (s : σ) (f : Fleet) :
    (p.run (Fleet.gated gate) (s, f)).2.2.policies =
      (p.recorded (Fleet.gated gate) (s, f)).foldl Fleet.storePolicy f.policies := by
  induction p generalizing s f with
  | done r => rfl
  | ask call next ih =>
      simp only [run, recorded, exchanges]
      rcases hanswer : Fleet.gated gate call (s, f) with ⟨e | answer, s', f'⟩
      · rw [Fleet.eq_of_gated_error hanswer]
        rfl
      · have hpolicies := Fleet.policies_of_handler (Fleet.handler_of_gated hanswer)
        have hrest := ih answer s' f'
        rw [hpolicies, recorded] at hrest
        show ((next answer).run (Fleet.gated gate) (s', f')).2.2.policies =
          (List.filterMap _ (⟨call, .ok answer⟩ ::
            ((next answer).exchanges (Fleet.gated gate) (s', f')).filter
              Exchange.succeeded)).foldl Fleet.storePolicy f.policies
        rw [hrest, List.filterMap_cons]
        cases call.policy? <;> rfl

/-- The record that a pass finds in a fleet is the one under its name. -/
theorem get?_of_head? {f : Fleet} {settings : PassSettings} {name : String} {s : σ}
    {record : Option Policy}
    (h : ((reconcile settings name).exchanges (Fleet.gated gate) (s, f)).head? =
      some ⟨.getPolicy name, .ok record⟩) : f.policies.get? name = record := by
  rw [reconcile_eq] at h
  have hhead := head?_exchanges_ask (Fleet.gated gate) (.getPolicy name)
    (fun record => proceed settings name (Policy.State.of record)) (s, f)
  have hanswer : (Fleet.gated gate (.getPolicy name) (s, f)).1 = .ok record :=
    eq_of_heq (Exchange.mk.inj (Option.some.inj (hhead.symm.trans h))).2
  have hfleet := Fleet.handler_of_gated (Prod.ext hanswer rfl)
  exact Except.ok.inj (congrArg Prod.fst hfleet)

/-- A pass leaves all records as they are, or stores the one that it has found with other
finalizers. -/
theorem policies_reconcile (f : Fleet) (settings : PassSettings) (name : String) (s : σ) :
    let after := ((reconcile settings name).run (Fleet.gated gate) (s, f)).2.2.policies
    after = f.policies ∨ ∃ found w, f.policies.get? name = some found ∧ found.Rewrites w ∧
      after = Fleet.storePolicy f.policies w := by
  intro after
  have hafter : after = _ := policies_run (reconcile settings name) s f
  have hsublist := (reconcile settings name).recorded_sublist (Fleet.gated gate) (s, f)
  have hlength := length_records_le (Fleet.gated gate) (s, f) settings name
  cases hrecorded : (reconcile settings name).recorded (Fleet.gated gate) (s, f) with
  | nil =>
      rw [hrecorded] at hafter
      exact .inl hafter
  | cons w rest =>
      rw [hrecorded] at hafter hsublist
      have hcount := hsublist.length_le
      rw [List.length_cons] at hcount
      obtain rfl : rest = [] := List.eq_nil_of_length_eq_zero (by omega)
      obtain ⟨found, hhead, hrewrites⟩ := exists_rewrites (Fleet.gated gate) (s, f) settings name
        (hsublist.subset List.mem_cons_self)
      exact .inr ⟨found, w, get?_of_head? hhead, hrewrites, hafter⟩

end Pass

/-! ## Runs -/

/-- The edits that ask for the deletion of a policy: it gets a deletion timestamp, or, if nothing
holds it, it goes at once. -/
def Edit.Deletes : Edit → Prop
  | .requestDeletion .. | .removePolicy _ => True
  | _ => False

/-- A run of passes and of requests for deletion over a fleet. The passes may be of any policies, in
any order, and be stopped at any of their calls. -/
inductive PassesAndDeletions (start : Fleet) : Fleet → Prop where
  | start : PassesAndDeletions start start
  | pass {f : Fleet} (before : PassesAndDeletions start f) {σ : Type} (gate : Gate σ) (s : σ)
      (settings : PassSettings) (name : String) :
      PassesAndDeletions start ((Pass.reconcile settings name).run (Fleet.gated gate) (s, f)).2.2
  | deletion {f : Fleet} (before : PassesAndDeletions start f) (e : Edit) (he : e.Deletes) :
      PassesAndDeletions start (e.apply f)

/-- What a record may have become in the course of such a run: its finalizers are others, but those
of other parties are the same in the same order, and deletion may have been requested. This
library's own finalizer stands there at most once, unless there were several from the start. -/
structure Policy.Descends (origin p : Policy) : Prop where
  same : p =
    { origin with metadata :=
        { origin.metadata with
          finalizers := p.metadata.finalizers
          deletionTimestamp := p.metadata.deletionTimestamp } }
  foreign : p.foreignFinalizers = origin.foreignFinalizers
  once : 2 ≤ p.finalizers.count finalizer → 2 ≤ origin.finalizers.count finalizer

namespace Policy

variable {origin p w : Policy}

theorem Descends.refl (p : Policy) : p.Descends p :=
  ⟨rfl, rfl, id⟩

/-- The name is none of the things that may change. -/
theorem Descends.name_eq (h : origin.Descends p) : p.name = origin.name := by
  rw [h.same]
  rfl

theorem Rewrites.name_eq (h : p.Rewrites w) : w.name = p.name := by
  rw [h.same]
  rfl

/-- The finalizer is put on a record without it, and is put on once. -/
theorem Rewrites.count_le_one (h : p.Rewrites w) : w.finalizers.count finalizer ≤ 1 := by
  rcases h.own with ⟨-, hnone, hw⟩ | ⟨-, -, hgone⟩
  · rw [hw, List.count_append, List.count_eq_zero_of_not_mem hnone]
    simp
  · rw [List.count_eq_zero_of_not_mem hgone]
    omega

theorem Descends.rewrite (h : origin.Descends p) (hw : p.Rewrites w) : origin.Descends w where
  same := by
    rw [hw.same]
    conv_lhs => rw [h.same]
    rfl
  foreign := hw.foreign.trans h.foreign
  once htwice := by
    have hle := hw.count_le_one
    omega

theorem Descends.request (h : origin.Descends p) (time : Instant) :
    origin.Descends
      { p with metadata := { p.metadata with deletionTimestamp := some time } } where
  same := by
    conv_lhs => rw [h.same]
  foreign := h.foreign
  once := h.once

end Policy

/-- All records of a fleet descend from those of another one under the same names. -/
def Fleet.Descends (f f' : Fleet) : Prop :=
  ∀ name p, f'.policies.get? name = some p →
    ∃ origin, f.policies.get? name = some origin ∧ origin.Descends p

namespace Fleet

variable {f f' : Fleet}

theorem Descends.keyed (h : f.Descends f') (hkeyed : f.Keyed) : f'.Keyed := by
  intro name p hp
  obtain ⟨origin, horigin, hdescends⟩ := h name p hp
  rw [hdescends.name_eq]
  exact hkeyed name origin horigin

/-- One pass more. -/
theorem Descends.pass (h : f.Descends f') (hkeyed : f.Keyed) {σ : Type} (gate : Gate σ) (s : σ)
    (settings : PassSettings) (name : String) :
    f.Descends ((Pass.reconcile settings name).run (gated gate) (s, f')).2.2 := by
  intro q p hp
  rcases Pass.policies_reconcile f' settings name s with
    hsame | ⟨found, w, hfound, hrewrites, hstored⟩
  · rw [hsame] at hp
    exact h q p hp
  · have hname : w.name = name := hrewrites.name_eq.trans (h.keyed hkeyed name found hfound)
    rw [hstored, get?_storePolicy, hname] at hp
    split at hp
    next hq =>
      subst hq
      obtain ⟨origin, horigin, hdescends⟩ := h q found hfound
      split at hp
      next => cases hp
      next => exact ⟨origin, horigin, Option.some.inj hp ▸ hdescends.rewrite hrewrites⟩
    next => exact h q p hp

/-- One request for deletion more. -/
theorem Descends.deletion (h : f.Descends f') {e : Edit} (he : e.Deletes) :
    f.Descends (e.apply f') := by
  intro q p hp
  cases e with
  | requestDeletion name time =>
      simp only [Edit.apply] at hp
      cases hfound : f'.policies.get? name with
      | none =>
          rw [hfound] at hp
          exact h q p hp
      | some found =>
          rw [hfound] at hp
          simp only [KeyMap.get?_insert] at hp
          split at hp
          next hq =>
            subst hq
            obtain ⟨origin, horigin, hdescends⟩ := h q found hfound
            exact ⟨origin, horigin, Option.some.inj hp ▸ hdescends.request time⟩
          next => exact h q p hp
  | removePolicy name =>
      simp only [Edit.apply, KeyMap.get?_erase] at hp
      split at hp
      next => cases hp
      next => exact h q p hp
  | _ => exact he.elim

end Fleet

theorem PassesAndDeletions.descends {f f' : Fleet} (h : PassesAndDeletions f f')
    (hkeyed : f.Keyed) : f.Descends f' := by
  induction h with
  | start => exact fun _ p hp => ⟨p, hp, .refl p⟩
  | pass _ gate s settings name ih => exact ih.pass hkeyed gate s settings name
  | deletion _ e he ih => exact ih.deletion he

/-- **Finalizers of other parties are kept.** Over any store and whatever it answers, a pass writes
one record at most. It is the one that the pass has found, in everything but the finalizers, and
with those of other parties left alone. A live policy without this library's finalizer is always
written, with it at the end; one under deletion that has it is written once the fleet is clean,
without any occurrence of it; there is no other case. So in any run of passes and of requests for
deletion over a fleet in memory, every record descends from the one that it started as. -/
theorem finalizers_of_others_kept :
    (∀ {σ : Type} (store : Pass.Handler σ) (s : σ) (settings : PassSettings) (name : String),
      let pass := Pass.reconcile settings name
      let records := pass.records store s
      let found p := (pass.exchanges store s).head? = some ⟨.getPolicy name, .ok (some p)⟩
      records.length ≤ 1 ∧ (∀ w ∈ records, ∃ p, found p ∧ p.Rewrites w) ∧
        ∀ p, found p →
          (p.isDeleting = false → p.hasFinalizer = false → records = [p.track]) ∧
          (p.isDeleting = true → p.hasFinalizer = true →
            ∀ outcome, (pass.run store s).1 = .ok outcome → records = [p.release])) ∧
    ∀ {f f' : Fleet}, f.Keyed → PassesAndDeletions f f' → f.Descends f' := by
  refine ⟨fun store s settings name => ⟨Pass.length_records_le store s settings name,
    fun w hw => Pass.exists_rewrites store s settings name hw, fun p hp => ?_⟩,
    fun hkeyed hrun => hrun.descends hkeyed⟩
  rcases Pass.records_reconcile store s settings name with
    ⟨-, e, hmade⟩ | ⟨record, rest, hmade, -, hall, htrack⟩
  · rw [hmade] at hp
    cases hp
  · rw [hmade] at hp
    cases hp
    refine ⟨fun hlive huntracked => ?_, fun hdeleting hfinalizer outcome houtcome => ?_⟩
    · exact htrack p (Policy.State.of_eq_iff.2 ⟨rfl, hlive, huntracked⟩)
    · have hstate : Policy.State.of (some p) = .terminating p :=
        Policy.State.of_eq_iff.2 ⟨rfl, hdeleting⟩
      rw [hall outcome houtcome, hstate, Policy.State.records, if_pos hfinalizer]

/-- A policy that two other parties hold on to. -/
def heldPolicy : Policy :=
  { Policy.plain "web" "oldest" 1 [("tier", "front")] with
    metadata := { name := some "web", finalizers := some ["volume/lock", "audit/export"] } }

def heldFleet : Fleet where
  nodes := [.plain "a" "True" []]
  policies := Fleet.policiesOf [heldPolicy]

/-- The fleet after a pass in which the calls of one kind fail. -/
def passFailingAt (verb : String) (f : Fleet) : Fleet :=
  ((Pass.reconcile .plain "web").run (Fleet.gated FaultRule.gate)
    ([{ verb, cause := .lines }], f)).2.2

/-- The node cannot be written at first. -/
def heldTracked : Fleet := passFailingAt "update_node" heldFleet

/-- Then deletion is requested. -/
def heldDeleting : Fleet := (Edit.requestDeletion "web" PassSettings.plain.now).apply heldTracked

/-- The record cannot be written at first. -/
def heldCleaned : Fleet := passFailingAt "update_policy" heldDeleting

/-- Then it can. -/
def heldReleased : Fleet := passFailingAt "" heldCleaned

theorem finalizers_of_others_kept_heldFleet :
    (Pass.reconcile .plain "web").records Fleet.handler heldFleet = [heldPolicy.track] ∧
      (heldTracked.policies.get? "web").map Policy.finalizers =
        some ["volume/lock", "audit/export", Policy.finalizer] ∧
      heldCleaned.policies = heldDeleting.policies ∧
      (heldReleased.policies.get? "web").map Policy.finalizers =
        some ["volume/lock", "audit/export"] ∧
      heldFleet.Descends heldReleased := by
  have hkeyed : heldFleet.Keyed := by
    intro name p hp
    have hget : (KeyMap.empty.insert "web" heldPolicy).get? name = some p := hp
    rw [KeyMap.get?_insert] at hget
    split at hget
    next hname => exact Option.some.inj hget ▸ hname.symm
    next => cases hget
  have hdeleting : PassesAndDeletions heldFleet heldDeleting :=
    .deletion (.pass .start _ _ _ _) (.requestDeletion "web" _) trivial
  have hrun : PassesAndDeletions heldFleet heldReleased :=
    .pass (.pass hdeleting _ _ _ _) _ _ _ _
  have hfound : ((Pass.reconcile .plain "web").exchanges Fleet.handler heldFleet).head? =
      some ⟨.getPolicy "web", .ok (some heldPolicy)⟩ := rfl
  have hfirst := (finalizers_of_others_kept.1 Fleet.handler heldFleet .plain "web").2.2
    heldPolicy hfound
  exact ⟨hfirst.1 (by decide) (by decide), by decide +kernel, by decide +kernel, by decide +kernel,
    finalizers_of_others_kept.2 hkeyed hrun⟩

end FleetLabels
