import FleetLabels.Proofs.Lifecycle
import FleetLabels.Proofs.Writes

/-!
# Passes over a fleet in memory

The result of every kind of pass over the store that accepts whatever it can, and the fleet that it
leaves, in closed form. The only premise on the fleet is that its node names are distinct: then no
write of a pass is refused, since every node that a pass writes is one that it has listed.

## Main results

* `Pass.run_writeAll` — writing nodes of the fleet overlays them.
* `Pass.run_apply`, `Pass.run_cleanup`, `Pass.run_finalize` — the parts of a pass.
* `Pass.run_reconcile_live`, `Pass.run_reconcile_terminating`, `Pass.run_reconcile_gone` — whole
  passes, by the state of the policy.
-/

namespace FleetLabels

/-! ## Small fleets

Nodes, policies and settings with nothing in them but what a pass looks at.
-/

/-- A node with a name, a readiness and labels. -/
def Node.plain (name ready : String) (labels : List (String × String)) : Node where
  metadata := { name := some name, labels := some (.ofList labels) }
  status := some { conditions := some [{ status := ready, type := "Ready" }] }

/-- A ready node that was created at a minute of one day. -/
def Node.bornAt (name : String) (minute : Int) : Node where
  metadata :=
    { name := some name
      creationTimestamp := some (.atMinute ⟨2026, 3, 1, by decide, by decide⟩ minute
        (Instant.secondOf 0) (Instant.nanosOf 0)) }
  status := some { conditions := some [{ status := "True", type := "Ready" }] }

/-- A policy with a name and a specification. -/
def Policy.plain (name type : String) (count : Int32) (labels : List (String × String)) :
    Policy where
  metadata := { name := some name }
  spec := { strategy := { type, count }, labels := .ofList labels }

/-- Settings whose shuffles move nothing. -/
def PassSettings.plain : PassSettings where
  interval := 300
  draws := Draws.still
  now := .atMinute ⟨2026, 3, 1, by decide, by decide⟩ 720 (Instant.secondOf 0)
    (Instant.nanosOf 0)

namespace Pass

/-! ## Writes -/

theorem run_updateNode {f : Fleet} (hdistinct : DistinctNames f.nodes) {w : Node}
    (hw : w.name ∈ f.nodes.map Node.name) :
    (updateNode w).run Fleet.handler f =
      (.ok (), { f with nodes := Fleet.overlay [w] f.nodes }) := by
  have hreplace := Fleet.replaceNode_eq_overlay hdistinct hw
  simp only [updateNode, call, bind, run, Fleet.handler, Fleet.answer, hreplace]
  rfl

theorem run_writeAll {f : Fleet} (hdistinct : DistinctNames f.nodes) {writes : List Node}
    (hwrites : DistinctNames writes)
    (hsub : writes.map Node.name ⊆ f.nodes.map Node.name) :
    (writeAll writes).run Fleet.handler f =
      (.ok (), { f with nodes := Fleet.overlay writes f.nodes }) := by
  induction writes generalizing f with
  | nil => rw [Fleet.overlay_nil]; rfl
  | cons w rest ih =>
      have hw : w.name ∈ f.nodes.map Node.name := hsub List.mem_cons_self
      have hrest : rest.map Node.name ⊆ (Fleet.overlay [w] f.nodes).map Node.name := by
        rw [Fleet.map_name_overlay]
        exact fun name hname => hsub (List.mem_cons_of_mem _ hname)
      show ((updateNode w).bind fun _ => writeAll rest).run Fleet.handler f = _
      rw [run_bind, run_updateNode hdistinct hw]
      simp only
      rw [ih (Fleet.distinctNames_overlay.2 hdistinct) hwrites.tail hrest,
        Fleet.overlay_cons hwrites]

/-! ## Parts of a pass -/

theorem run_apply {f : Fleet} (hdistinct : DistinctNames f.nodes) (settings : PassSettings)
    (p : Policy) :
    (apply settings p).run Fleet.handler f =
      match select f.nodes p.spec.strategy settings.draws with
      | .ok selected =>
          (.ok (.requeue settings.interval),
            { f with
              nodes := f.nodes.map (p.settled (selected.map Node.name))
              statuses := f.statuses.insert p.name (statusOf selected settings.now) })
      | .error e => (.error e, f) := by
  rw [apply_eq, run_bind]
  show ((ofExcept (select f.nodes p.spec.strategy settings.draws)).bind _).run Fleet.handler f = _
  cases hselect : select f.nodes p.spec.strategy settings.draws with
  | error e => rfl
  | ok selected =>
      have hsub : selected ⊆ f.nodes := fun n hn => mem_of_select hselect hn
      have hsel : DistinctNames selected := nodup_names_of_select hselect hdistinct
      show ((writeAll (applyWrites p f.nodes selected)).bind _).run Fleet.handler f = _
      rw [run_bind, run_writeAll hdistinct (distinctNames_applyWrites hdistinct hsel)
        (names_applyWrites_subset hsub), overlay_applyWrites hdistinct hsub hsel]
      rfl

theorem run_cleanup {f : Fleet} (hdistinct : DistinctNames f.nodes) (name : String)
    (declared : Labels) :
    (cleanup name declared).run Fleet.handler f =
      (.ok (f.nodes.filter (·.isManagedBy (Marker.key name))).length,
        { f with nodes := f.nodes.map (Node.cleaned name declared) }) := by
  rw [cleanup_eq, run_bind]
  show ((writeAll (cleanupWrites name declared f.nodes)).bind _).run Fleet.handler f = _
  rw [run_bind, run_writeAll hdistinct (distinctNames_cleanupWrites hdistinct)
    names_cleanupWrites_subset, overlay_cleanupWrites hdistinct]
  rfl

theorem run_finalize {f : Fleet} (hdistinct : DistinctNames f.nodes) (p : Policy) :
    (finalize p).run Fleet.handler f =
      (.ok (),
        { f with
          nodes := f.nodes.map (Node.cleaned p.name p.spec.labels)
          policies :=
            if p.hasFinalizer then Fleet.storePolicy f.policies p.release else f.policies }) := by
  show ((cleanup p.name p.spec.labels).bind _).run Fleet.handler f = _
  rw [run_bind, run_cleanup hdistinct]
  cases hfinalizer : p.hasFinalizer <;> simp only <;> rfl

/-! ## Whole passes -/

/-- The policies once a live policy is sure to carry the finalizer. -/
def withTracked (policies : KeyMap Policy) (p : Policy) : KeyMap Policy :=
  if p.hasFinalizer then policies else policies.insert p.name p.track

section Reconcile

variable {f : Fleet} {name : String} {p : Policy}

/-- The pass of a live policy labels the fleet, unless its strategy is refused. In either case the
record carries the finalizer afterwards. -/
theorem run_reconcile_live (hdistinct : DistinctNames f.nodes) (settings : PassSettings)
    (hstored : f.policies.get? name = some p) (hlive : p.isDeleting = false) :
    (reconcile settings name).run Fleet.handler f =
      match select f.nodes p.spec.strategy settings.draws with
      | .ok selected =>
          (.ok (.requeue settings.interval),
            { nodes := f.nodes.map (p.settled (selected.map Node.name))
              policies := withTracked f.policies p
              statuses := f.statuses.insert p.name (statusOf selected settings.now) })
      | .error e => (.error e, { f with policies := withTracked f.policies p }) := by
  show ((getPolicy name).bind _).run Fleet.handler f = _
  rw [run_bind]
  simp only [getPolicy, call, run, Fleet.handler, Fleet.answer, Except.mapError, hstored]
  cases hfinalizer : p.hasFinalizer with
  | true =>
      have hstate : Policy.State.of (some p) = .tracked p :=
        Policy.State.of_eq_iff.2 ⟨rfl, hlive, hfinalizer⟩
      simp only [hstate, withTracked, hfinalizer, if_true]
      exact run_apply hdistinct settings p
  | false =>
      have hstate : Policy.State.of (some p) = .untracked p :=
        Policy.State.of_eq_iff.2 ⟨rfl, hlive, hfinalizer⟩
      have hstore : Fleet.storePolicy f.policies p.track = f.policies.insert p.name p.track := by
        unfold Fleet.storePolicy
        rw [show p.track.isDeleting = false from hlive]
        rfl
      simp only [hstate, withTracked, hfinalizer]
      show ((updatePolicy p.track).bind _).run Fleet.handler f = _
      rw [run_bind]
      simp only [updatePolicy, call, run, Fleet.handler, Fleet.answer, Except.mapError, hstore]
      exact run_apply (f := { f with policies := f.policies.insert p.name p.track }) hdistinct
        settings p.track

theorem run_reconcile_terminating (hdistinct : DistinctNames f.nodes) (settings : PassSettings)
    (hstored : f.policies.get? name = some p) (hdeleting : p.isDeleting = true) :
    (reconcile settings name).run Fleet.handler f =
      (.ok .done,
        { f with
          nodes := f.nodes.map (Node.cleaned p.name p.spec.labels)
          policies :=
            if p.hasFinalizer then Fleet.storePolicy f.policies p.release else f.policies }) := by
  have hstate : Policy.State.of (some p) = .terminating p :=
    Policy.State.of_eq_iff.2 ⟨rfl, hdeleting⟩
  show ((getPolicy name).bind _).run Fleet.handler f = _
  rw [run_bind]
  simp only [getPolicy, call, run, Fleet.handler, Fleet.answer, Except.mapError, hstored, hstate]
  show ((finalize p).bind _).run Fleet.handler f = _
  rw [run_bind, run_finalize hdistinct]
  rfl

/-- Without a record only the marker and the keys under the prefix are known. -/
theorem run_reconcile_gone (hdistinct : DistinctNames f.nodes) (settings : PassSettings)
    (hgone : f.policies.get? name = none) :
    (reconcile settings name).run Fleet.handler f =
      (.ok .done, { f with nodes := f.nodes.map (Node.cleaned name .empty) }) := by
  show ((getPolicy name).bind _).run Fleet.handler f = _
  rw [run_bind]
  simp only [getPolicy, call, run, Fleet.handler, Fleet.answer, Except.mapError, hgone,
    Policy.State.of]
  show ((cleanup name .empty).bind _).run Fleet.handler f = _
  rw [run_bind, run_cleanup hdistinct]
  rfl

end Reconcile

end Pass

end FleetLabels
