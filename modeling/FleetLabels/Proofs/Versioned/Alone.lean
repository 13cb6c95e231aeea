import FleetLabels.Proofs.Footprint
import FleetLabels.Proofs.Versioned.Store

/-!
# A pass by itself

Versions are there to turn down a write that was made from an outdated copy. A pass lists the fleet
once and reads its policy once, and makes all its writes from these copies; so it would turn itself
down if it wrote an object twice, or read one before it wrote it and wrote it again later. This
module says that it does not: where nobody else writes, every call of a pass is answered.

The store is the one of `VersionedFleet`. Which version an accepted write gets is decided by a
`VersionSupply`, of which nothing is known but that it gives none to an object twice, and what is
turned down is told as an error answer of the cluster.

## Main results

* `VersionedFleet.handler` — the store with versions of its own.
* `Pass.completes_writeAll` — writes that were made from current copies are all accepted.
* `reconcile_alone` — a pass by itself writes no node twice and meets no conflict.
-/

namespace FleetLabels

/-! ## The store -/

/-- Where new versions come from. -/
structure VersionSupply where
  /-- The next version of an object. -/
  next : VersionedFleet → ObjectId → String
  /-- It has not been given to the object before. -/
  fresh : ∀ (s : VersionedFleet) (id : ObjectId), s.Fresh id (next s id)

/-- A text longer than all versions given so far. -/
def VersionedFleet.longer (s : VersionedFleet) : String :=
  String.ofList ('0' :: (s.issued.map (·.2.toList)).flatten)

/-- Versions that grow with every write. -/
def VersionSupply.growing : VersionSupply where
  next s _ := s.longer
  fresh s id h := by
    have hsublist : s.longer.toList.Sublist (s.issued.map (·.2.toList)).flatten :=
      List.sublist_flatten_of_mem (List.mem_map.2 ⟨_, h, rfl⟩)
    have hlength := hsublist.length_le
    rw [VersionedFleet.longer, String.toList_ofList, List.length_cons] at hlength
    omega

/-- The object that a call writes, if it writes one. -/
def StoreCall.object? : StoreCall → Option ObjectId
  | .getPolicy _ | .listNodes => none
  | .updateNode node => some (.node node.name)
  | .updatePolicy policy => some (.policy policy.name)
  | .updateStatus policy _ => some (.policy policy)

/-- The version that a call gives to the object that it writes. -/
def VersionSupply.version (supply : VersionSupply) (s : VersionedFleet) (call : StoreCall) :
    String :=
  (call.object?.map (supply.next s)).getD ""

namespace VersionedFleet

/-- The error answer to a write that is turned down: the object is not there, or it is there under
another version. -/
def refusal (s : VersionedFleet) (call : StoreCall) : Cause :=
  match call.object?.bind s.version? with
  | none =>
      .api { status := "Failure", message := call.target ++ " not found",
             reason := ApiError.notFoundReason, code := 404 }
  | some _ =>
      .api { status := "Failure", message := call.target ++ " has been modified",
             reason := "Conflict", code := ApiError.conflictCode }

/-- The store with versions of its own. -/
def handler (supply : VersionSupply) : Pass.Handler VersionedFleet := fun call s =>
  match s.serve (supply.version s call) call with
  | some (answer, s') => (.ok answer, s')
  | none => (.error (call.failure (s.refusal call)), s)

variable {supply : VersionSupply} {s : VersionedFleet}

theorem handler_of_serve {call : StoreCall} {answer : call.Answer} {s' : VersionedFleet}
    (h : s.serve (supply.version s call) call = some (answer, s')) :
    handler supply call s = (.ok answer, s') := by
  rw [handler, h]

variable (supply)

/-- A copy of a node that is still current may be written. -/
theorem handler_updateNode {w : Node} (h : ∃ n ∈ s.nodes, n.name = w.name ∧
    n.version? = w.version?) :
    ∃ version, handler supply (.updateNode w) s = (.ok (w.stamped version), s.putNode version w) := by
  obtain ⟨n, hn, hname, hversion⟩ := h
  have hstored : s.version? (.node w.name) = w.version? := by
    rw [version?, ← hname, named?_of_subset s.distinct (List.Subset.refl _) hn,
      if_pos (List.mem_map_of_mem hn), Option.bind_some, hversion]
  have hversioned : w.version? ≠ none := by
    obtain ⟨v, hv, -⟩ := s.versionedNode n hn
    rw [← hversion, hv]
    exact Option.some_ne_none v
  refine ⟨supply.next s (.node w.name), handler_of_serve (if_pos ?_)⟩
  exact ⟨hstored ▸ hversioned, hstored.symm, supply.fresh s _⟩

/-- So may a copy of a record. -/
theorem handler_updatePolicy {r p : Policy} (hstored : s.policies.get? p.name = some r)
    (hversion : p.version? = r.version?) :
    ∃ version, handler supply (.updatePolicy p) s =
      (.ok (p.stamped version), s.putPolicy version p) := by
  have hcurrent : s.version? (.policy p.name) = p.version? := by
    rw [version?, hstored, Option.bind_some, hversion]
  have hversioned : p.version? ≠ none := by
    obtain ⟨v, hv, -⟩ := s.versionedPolicy p.name r hstored
    rw [hversion, hv]
    exact Option.some_ne_none v
  refine ⟨supply.next s (.policy p.name), handler_of_serve (if_pos ?_)⟩
  exact ⟨hcurrent ▸ hversioned, hcurrent.symm, supply.fresh s _⟩

/-- The status of a record that is there may be written under any version. -/
theorem handler_updateStatus {name : String} {r : Policy} (status : PolicyStatus)
    (hstored : s.policies.get? name = some r) :
    ∃ s', handler supply (.updateStatus name status) s = (.ok (), s') := by
  refine ⟨(s.putPolicy (supply.next s (.policy name)) r).putStatus name status,
    handler_of_serve ?_⟩
  simp only [serve, hstored]
  exact if_pos (supply.fresh s _)

end VersionedFleet

/-! ## The parts of a pass -/

namespace Pass

variable {s : VersionedFleet}

/-- Writes that were made from current copies of different nodes are all accepted. -/
theorem completes_writeAll (supply : VersionSupply) {writes : List Node}
    (hdistinct : DistinctNames writes)
    (hcurrent : ∀ w ∈ writes, ∃ n ∈ s.nodes, n.name = w.name ∧ n.version? = w.version?) :
    ∃ s', s'.policies = s.policies ∧
      (writeAll writes).Completes (VersionedFleet.handler supply) s (writes.map .updateNode)
        (.ok ()) s' := by
  induction writes generalizing s with
  | nil => exact ⟨s, rfl, .done _ s⟩
  | cons w rest ih =>
      obtain ⟨hw, hrest⟩ := List.forall_mem_cons.1 hcurrent
      obtain ⟨version, hanswer⟩ := VersionedFleet.handler_updateNode supply hw
      -- The node just written is none of those that are still to be written.
      have hcurrent' : ∀ v ∈ rest, ∃ n ∈ (s.putNode version w).nodes,
          n.name = v.name ∧ n.version? = v.version? := by
        intro v hv
        obtain ⟨n, hn, hname, hversion⟩ := hrest v hv
        have hother : w.name ≠ n.name := by
          rw [hname]
          rintro heq
          exact hdistinct.head_notMem (heq ▸ List.mem_map_of_mem hv)
        refine ⟨n, List.mem_map.2 ⟨n, hn, ?_⟩, hname, hversion⟩
        rw [named?_cons, Node.name_stamped, if_neg hother]
        rfl
      obtain ⟨s', hpolicies, hcompletes⟩ := ih hdistinct.tail hcurrent'
      exact ⟨s', hpolicies, .ask hanswer hcompletes⟩

/-- The nodes that a work writes are current copies of different nodes. -/
theorem current_of_footprint (settings : PassSettings) {work : Work} {w : Node}
    (h : work.Footprint settings s.nodes w) :
    ∃ n ∈ s.nodes, n.name = w.name ∧ n.version? = w.version? := by
  obtain ⟨n, hn, hw, -⟩ := h
  refine ⟨n, hn, ?_, ?_⟩
  · rw [hw, Node.name_withLabels]
  · rw [hw]
    rfl

end Pass

/-- The record that a work goes back to is there, under the version that the work knows. -/
def Work.Current (s : VersionedFleet) : Work → Prop
  | .label p => ∃ r, s.policies.get? p.name = some r
  | .clean _ _ release =>
      ∀ p, release = some p → ∃ r, s.policies.get? p.name = some r ∧ p.version? = r.version?

namespace Pass

variable {α σ : Type} {supply : VersionSupply} {s : VersionedFleet}

/-- All calls are answered, no two of them replace the same node, and the program fails for nothing
but an unknown strategy. -/
def Smooth (store : Handler σ) (p : Pass α) (s : σ) : Prop :=
  ∃ calls result s', p.Completes store s calls result s' ∧
    DistinctNames (calls.filterMap StoreCall.node?) ∧
      ∀ e, result = .error e → ∃ type, e = .unsupportedStrategy type

/-- A call that replaces no node may come first. -/
theorem Smooth.ask {store : Handler σ} {s s₁ : σ} {call : StoreCall} {next : call.Answer → Pass α}
    {answer : call.Answer} (hanswer : store call s = (.ok answer, s₁)) (hcall : call.node? = none)
    (h : (next answer).Smooth store s₁) : (Pass.ask call next).Smooth store s := by
  obtain ⟨calls, result, s', hcompletes, hdistinct, hresult⟩ := h
  refine ⟨call :: calls, result, s', .ask hanswer hcompletes, ?_, hresult⟩
  rw [List.filterMap_cons_none hcall]
  exact hdistinct

/-- Writes made from current copies may come before a last call that replaces no node. -/
theorem Smooth.writeAll_bind {writes : List Node} {f : Unit → Pass α} (last : List StoreCall)
    (hdistinct : DistinctNames writes)
    (hcurrent : ∀ w ∈ writes, ∃ n ∈ s.nodes, n.name = w.name ∧ n.version? = w.version?)
    (hlast : ∀ call ∈ last, call.node? = none)
    (hf : ∀ s₁ : VersionedFleet, s₁.policies = s.policies →
      ∃ a s', (f ()).Completes (VersionedFleet.handler supply) s₁ last (.ok a) s') :
    ((writeAll writes).bind f).Smooth (VersionedFleet.handler supply) s := by
  obtain ⟨s₁, hpolicies, hwrites⟩ := completes_writeAll supply hdistinct hcurrent
  obtain ⟨a, s', hrest⟩ := hf s₁ hpolicies
  refine ⟨_, _, s', hwrites.bind hrest, ?_, fun e he => nomatch he⟩
  rw [List.filterMap_append, List.filterMap_map, List.filterMap_eq_nil_iff.2 hlast,
    List.append_nil]
  show DistinctNames (writes.filterMap some)
  rw [List.filterMap_some]
  exact hdistinct

/-- A work on the listed fleet is smooth. -/
theorem smooth_carryOut (settings : PassSettings) {work : Work} (h : work.Current s) :
    (carryOut settings s.nodes work).Smooth (VersionedFleet.handler supply) s := by
  cases work with
  | label p =>
      obtain ⟨r, hr⟩ := h
      unfold carryOut
      cases hselect : select s.nodes p.spec.strategy settings.draws with
      | error e =>
          obtain ⟨-, -, rfl⟩ := select_eq_error_iff.1 hselect
          simp only [hselect]
          refine ⟨[], _, s, .done _ s, List.nodup_nil, fun e he => ⟨p.spec.strategy.type, ?_⟩⟩
          exact (Except.error.inj he).symm
      | ok selected =>
          simp only [hselect]
          show ((Pass.writeAll (applyWrites p s.nodes selected)).bind _).Smooth _ s
          refine .writeAll_bind [.updateStatus p.name (statusOf selected settings.now)]
            (distinctNames_applyWrites s.distinct (nodup_names_of_select hselect s.distinct))
            (fun w hw =>
              current_of_footprint settings (Work.footprint_of_mem_applyWrites hselect hw))
            (fun call hcall => List.mem_singleton.1 hcall ▸ rfl) fun s₁ hpolicies => ?_
          obtain ⟨s', hanswer⟩ := VersionedFleet.handler_updateStatus supply
            (statusOf selected settings.now) (hpolicies ▸ hr)
          exact ⟨_, s', .ask hanswer (.done _ s')⟩
  | clean policy declared release =>
      have hcurrent : ∀ w ∈ cleanupWrites policy declared s.nodes,
          ∃ n ∈ s.nodes, n.name = w.name ∧ n.version? = w.version? := fun w hw =>
        current_of_footprint settings (Work.footprint_of_mem_cleanupWrites release hw)
      have hdistinct : DistinctNames (cleanupWrites policy declared s.nodes) :=
        distinctNames_cleanupWrites s.distinct
      cases release with
      | none =>
          exact .writeAll_bind [] hdistinct hcurrent (fun _ hcall => nomatch hcall)
            fun s₁ _ => ⟨_, s₁, .done _ s₁⟩
      | some p =>
          obtain ⟨r, hr, hversion⟩ := h p rfl
          refine .writeAll_bind [.updatePolicy p] hdistinct hcurrent
            (fun call hcall => List.mem_singleton.1 hcall ▸ rfl) fun s₁ hpolicies => ?_
          obtain ⟨version, hanswer⟩ := VersionedFleet.handler_updatePolicy supply
            (hpolicies ▸ hr) hversion
          exact ⟨_, _, .ask hanswer (.done _ _)⟩

/-- A whole pass is smooth. -/
theorem smooth_reconcile (supply : VersionSupply) (s : VersionedFleet) (settings : PassSettings)
    (name : String) : (reconcile settings name).Smooth (VersionedFleet.handler supply) s := by
  have hlisted : ∀ (work : Work) {s₁ : VersionedFleet}, work.Current s₁ →
      (listNodes.bind fun nodes => carryOut settings nodes work).Smooth
        (VersionedFleet.handler supply) s₁ := fun _ _ h =>
    .ask (VersionedFleet.handler_of_serve rfl) rfl (smooth_carryOut settings h)
  rw [reconcile_eq_work]
  have hfetched : s.serve (supply.version s (.getPolicy name)) (.getPolicy name) =
      some (s.policies.get? name, s) := rfl
  refine .ask (VersionedFleet.handler_of_serve hfetched) rfl ?_
  show ((takeUp name (Policy.State.of (s.policies.get? name))).bind _).Smooth _ s
  cases hstate : Policy.State.of (s.policies.get? name) with
  | gone => exact hlisted (.clean name .empty none) fun p hp => nomatch hp
  | terminating p =>
      obtain ⟨hp, -⟩ := Policy.State.of_eq_iff.1 hstate
      obtain rfl := s.keyed name p hp
      refine hlisted (.clean _ _ _) fun r hr => ?_
      split at hr
      · rw [← Option.some.inj hr]
        exact ⟨p, hp, rfl⟩
      · cases hr
  | tracked p =>
      obtain ⟨hp, -, -⟩ := Policy.State.of_eq_iff.1 hstate
      obtain rfl := s.keyed name p hp
      exact hlisted (.label p) ⟨p, hp⟩
  | untracked p =>
      obtain ⟨hp, hlive, -⟩ := Policy.State.of_eq_iff.1 hstate
      obtain rfl := s.keyed name p hp
      obtain ⟨version, hanswer⟩ := VersionedFleet.handler_updatePolicy supply
        (show s.policies.get? p.track.name = some p from hp) rfl
      have hlive' : p.track.isDeleting = false := hlive
      have hstored : (s.putPolicy version p.track).policies.get? p.name =
          some (p.track.stamped version) := by
        rw [VersionedFleet.get?_putPolicy, if_pos (show p.name = p.track.name from rfl), hlive',
          Bool.false_and]
        rfl
      exact .ask hanswer rfl (hlisted (.label (p.track.stamped version)) ⟨_, hstored⟩)

end Pass

/-- **A pass never conflicts with itself.** Over a store that gives every object a new version with
every write and accepts no replacement of another version, a pass by itself has all its calls
answered: it replaces no node twice, and it does not end in a conflict. -/
theorem reconcile_alone (supply : VersionSupply) (s : VersionedFleet) (settings : PassSettings)
    (name : String) :
    DistinctNames ((Pass.reconcile settings name).writes (VersionedFleet.handler supply) s) ∧
      (∀ x ∈ (Pass.reconcile settings name).exchanges (VersionedFleet.handler supply) s,
        x.succeeded = true) ∧
      ∀ target cause,
        ((Pass.reconcile settings name).run (VersionedFleet.handler supply) s).1 ≠
          .error (.conflict target cause) := by
  obtain ⟨calls, result, s', hcompletes, hdistinct, hresult⟩ :=
    Pass.smooth_reconcile supply s settings name
  refine ⟨?_, hcompletes.answered, fun target cause hconflict => ?_⟩
  · rw [Pass.writes, hcompletes.calls]
    exact hdistinct
  · rw [hcompletes.run] at hconflict
    obtain ⟨type, htype⟩ := hresult _ hconflict
    cases htype

/-- A node that was listed before somebody else wrote it is turned down. -/
example :
    let listed : Node := (Node.plain "a" "True" []).stamped "0"
    let later := (VersionedFleet.ofNodes [.plain "a" "True" []] (by decide)).putNode "1" listed
    ((VersionedFleet.handler .growing (.updateNode listed) later).1.mapError PassError.kind) =
      .error "WriteConflict" := by
  decide +kernel

end FleetLabels
