import FleetLabels.Proofs.InMemory
import FleetLabels.Proofs.Versioned.Cluster
import FleetLabels.Proofs.Versioned.Outside

/-!
# The finalizer holds a policy as long as nodes carry its marker

The record of a policy may be deleted by anyone at any time, and a record without the finalizer is
gone at once. If nodes still carry the marker then, nobody will ever clean them up. The protocol
against that is a matter of order: the finalizer is put on before the first label is written, and
taken off after the last one is gone. Its passes may be cut short after every single call, and the
record and the fleet may be changed by others between any two calls.

What the others do is one of the `OutsideStep`s. They all leave a finalizer on the record where it
is, and mark no node (`OutsideStep.undisturbed`). That is what a pass relies on; in return a marked
node never stands without a held record after one of its calls.

## Main results

* `LeakFree` — marked nodes are there only as long as the record is held.
* `Pass.keeps_cleanup` — after a cleanup no node is marked, so that the finalizer may go.
* `Pass.keeps_apply` — nothing takes the finalizer off while nodes are being labeled.
* `exists_finalizer_of_marked` — every run is free of leaks.
-/

namespace FleetLabels

/-! ## Leaks -/

/-- Nodes carry the marker only as long as the record is held. -/
def LeakFree (policy : String) (s : VersionedFleet) : Prop :=
  Held policy s ∨ Unmarked policy s

theorem LeakFree.undisturbed {policy : String} {s s' : VersionedFleet} (h : LeakFree policy s)
    (hs : Undisturbed policy s s') : LeakFree policy s' := h.imp hs.held (·.undisturbed hs)

/-! ## Passes -/

/-- What a pass of the policy relies on, and what every call of it keeps. -/
def finalizerContract (policy : String) : Contract where
  rely := Undisturbed policy
  guarantee _ s' := LeakFree policy s'
  refl := .refl policy
  trans := .trans

namespace Pass

variable {policy : String} {s : VersionedFleet}

/-- While a cleanup is under way every marked node is among those still to be written, and no write
marks a node. -/
structure Cleaning (policy : String) (writes : List Node) (s : VersionedFleet) : Prop where
  leakFree : LeakFree policy s
  unmarked : ∀ w ∈ writes, w.isManagedBy (Marker.key policy) = false
  pending : ∀ n ∈ s.nodes, n.isManagedBy (Marker.key policy) = true →
    n.name ∈ writes.map Node.name

theorem Cleaning.unmarked_of_nil (h : Cleaning policy [] s) : Unmarked policy s := by
  intro n hn
  exact eq_false_of_ne_true fun hmarked => List.not_mem_nil (h.pending n hn hmarked)

theorem Cleaning.undisturbed {writes : List Node} (h : Cleaning policy writes s)
    {s' : VersionedFleet} (hs : Undisturbed policy s s') : Cleaning policy writes s' := by
  constructor
  case leakFree => exact h.leakFree.undisturbed hs
  case unmarked => exact h.unmarked
  case pending =>
    intro n' hn' hmarked
    obtain ⟨n, hn, hname, hmarked⟩ := hs.marked n' hn' hmarked
    exact hname ▸ h.pending n hn hmarked

theorem Cleaning.write {w : Node} {rest : List Node} (h : Cleaning policy (w :: rest) s)
    (version : String) : Cleaning policy rest (s.putNode version w) := by
  have hw : w.isManagedBy (Marker.key policy) ≠ true := by
    rw [h.unmarked w List.mem_cons_self]
    decide
  constructor
  case leakFree => exact h.leakFree.undisturbed (.putNode fun hmarked => absurd hmarked hw)
  case unmarked => exact fun v hv => h.unmarked v (List.mem_cons_of_mem _ hv)
  case pending =>
    intro n hn hmarked
    -- A marked node is not the one just written, so it is among the rest.
    rcases VersionedFleet.mem_putNode hn with rfl | ⟨hold, hother⟩
    · exact absurd hmarked hw
    · exact (List.mem_cons.1 (h.pending n hold hmarked)).resolve_left hother

theorem carries_cleaning (policy : String) :
    (finalizerContract policy).Carries (Cleaning policy) := by
  constructor
  · exact fun _ _ _ h hs => h.undisturbed hs
  · intro w rest s version answer t h hserve
    obtain ⟨-, rfl, -⟩ := VersionedFleet.serve_updateNode hserve
    exact ⟨(h.write version).leakFree, h.write version⟩

theorem cleaning_cleanupWrites (declared : Labels) (h : LeakFree policy s) :
    Cleaning policy (cleanupWrites policy declared s.nodes) s := by
  constructor
  case leakFree => exact h
  case unmarked =>
    intro w hw
    obtain ⟨n, -, rfl⟩ := List.mem_map.1 hw
    exact n.isManagedBy_stripped policy declared
  case pending =>
    intro n hn hmarked
    have hwrite : n.stripped policy declared ∈ cleanupWrites policy declared s.nodes :=
      List.mem_map_of_mem (List.mem_filter.2 ⟨hn, hmarked⟩)
    exact List.mem_map.2 ⟨_, hwrite, n.name_stripped policy declared⟩

/-- After a cleanup no node is marked. -/
theorem keeps_cleanup (declared : Labels) (h : LeakFree policy s) :
    (cleanup policy declared).Keeps (finalizerContract policy) (fun _ => Unmarked policy) s := by
  refine (Keeps.cleanup (carries_cleaning policy) fun t ht => ?_).mono fun _ => (·.unmarked_of_nil)
  have hleak : LeakFree policy t := h.undisturbed ht
  exact ⟨hleak, cleaning_cleanupWrites declared hleak⟩

/-- While nodes are labeled the record is held. -/
theorem carries_held (policy : String) :
    (finalizerContract policy).Carries fun _ => Held policy := by
  constructor
  · exact fun _ _ _ h hs => hs.held h
  · intro w rest s version answer t h hserve
    obtain ⟨-, rfl, -⟩ := VersionedFleet.serve_updateNode hserve
    exact ⟨.inl h, h⟩

/-- A pass that labels nodes relies on the finalizer all along. -/
theorem keeps_apply (settings : PassSettings) (p : Policy) (h : Held policy s) :
    (apply settings p).Keeps (finalizerContract policy) (fun _ => LeakFree policy) s := by
  refine Keeps.apply (I := fun _ _ => Held policy) (fun _ => carries_held policy)
    (fun t ht => ⟨.inl (ht.held h), fun _ _ => ht.held h⟩) fun selected t ht => ?_
  refine Keeps.call fun u hu version answer v hserve => ?_
  obtain ⟨r, hr, rfl⟩ := VersionedFleet.serve_updateStatus hserve
  have hheld : Held policy (u.putPolicy version r) :=
    (hu.held ht).restamp ((u.keyed _ r hr).symm ▸ hr)
  exact ⟨.inl hheld, fun w hw => .inl (hw.held hheld)⟩

/-- The finalizer goes only after the last marked node. -/
theorem keeps_finalize {p : Policy} (hname : p.name = policy) (h : LeakFree policy s) :
    (finalize p).Keeps (finalizerContract policy) (fun _ => Unmarked policy) s := by
  subst hname
  refine Keeps.finalize (keeps_cleanup p.spec.labels h) fun t ht => ?_
  refine Keeps.call fun u hu version answer v hserve => ?_
  obtain ⟨-, rfl⟩ := VersionedFleet.serve_updatePolicy hserve
  have hfree : Unmarked p.name u := ht.undisturbed hu
  have hreleased : Unmarked p.name (u.putPolicy version p.release) := hfree
  exact ⟨.inr hreleased, fun w hw => hreleased.undisturbed hw⟩

/-- A pass is free of leaks, whatever state the record is in when it begins. -/
theorem keeps_reconcile (settings : PassSettings) (h : LeakFree policy s) :
    (reconcile settings policy).Keeps (finalizerContract policy) (fun _ => LeakFree policy) s := by
  have hleak : ∀ t, Undisturbed policy s t → LeakFree policy t := fun t ht => h.undisturbed ht
  refine Keeps.reconcile hleak ?gone ?terminating ?tracked ?untracked
  case gone =>
    intro t ht _
    exact (keeps_cleanup .empty (hleak t ht)).mono fun _ => .inr
  case terminating =>
    intro t p ht hp _
    exact (keeps_finalize (t.keyed policy p hp) (hleak t ht)).mono fun _ => .inr
  case tracked =>
    intro t p _ hp hfinalizer
    exact keeps_apply settings p ⟨p, hp, hfinalizer⟩
  case untracked =>
    intro t p _ hp _
    refine Keeps.call fun u _ version answer v hserve => ?_
    obtain ⟨-, rfl⟩ := VersionedFleet.serve_updatePolicy hserve
    have hheld : Held policy (u.putPolicy version p.track) :=
      held_putPolicy (t.keyed policy p hp) p.hasFinalizer_track
    exact ⟨.inl hheld, fun w hw => keeps_apply settings answer (hw.held hheld)⟩

end Pass

/-! ## Runs -/

/-- What may happen around one policy: a turn of its pass, or a step of others. -/
inductive Incident where
  /-- A turn of the pass. -/
  | turn (t : Turn)
  /-- A step of others; the object that it writes gets the given version. -/
  | outside (version : String) (step : OutsideStep)

namespace Cluster

/-- The cluster after an incident around a policy. -/
def incident (policy : String) (c : Cluster) : Incident → Cluster
  | .turn t => c.turn policy t
  | .outside version step => { c with store := step.apply policy version c.store }

/-- The cluster after a run of incidents. -/
def incidents (policy : String) (c : Cluster) (run : List Incident) : Cluster :=
  run.foldl (incident policy) c

/-- The store is free of leaks, and the pass under way will not make one. -/
structure Safe (policy : String) (c : Cluster) : Prop where
  leakFree : LeakFree policy c.store
  pass : c.PassKeeps (finalizerContract policy) (LeakFree policy) policy

theorem Safe.incident {policy : String} {c : Cluster} (h : c.Safe policy) (i : Incident) :
    (c.incident policy i).Safe policy := by
  cases i with
  | turn t =>
      obtain ⟨hpass, hstore⟩ :=
        h.pass.turn (fun settings => Pass.keeps_reconcile settings h.leakFree) t
      refine ⟨?_, hpass⟩
      rcases hstore with hsame | hguar
      · show LeakFree policy (c.turn policy t).store
        rw [hsame]
        exact h.leakFree
      · exact hguar
  | outside version step =>
      have hstep := step.undisturbed policy version c.store
      exact ⟨h.leakFree.undisturbed hstep, h.pass.stable rfl hstep⟩

theorem Safe.incidents {policy : String} {c : Cluster} (h : c.Safe policy) (run : List Incident) :
    (c.incidents policy run).Safe policy := by
  induction run generalizing c with
  | nil => exact h
  | cons i rest ih => exact ih (h.incident i)

end Cluster

/-- **Leak freedom**: whatever the passes of a policy and others do to the store, in whatever order
and with whatever failures, as long as a node carries the marker of the policy its record exists and
carries the finalizer. All that is asked of the start is that no node carries the marker there. -/
theorem exists_finalizer_of_marked {policy : String} {start : VersionedFleet}
    (hunmarked : ∀ n ∈ start.nodes, n.isManagedBy (Marker.key policy) = false)
    (run : List Incident)
    (hmarked : ∃ n ∈ ((Cluster.idle start).incidents policy run).store.nodes,
      n.isManagedBy (Marker.key policy) = true) :
    ∃ p, ((Cluster.idle start).incidents policy run).store.policies.get? policy = some p ∧
      Policy.finalizer ∈ p.finalizers := by
  have hstart : (Cluster.idle start).Safe policy := ⟨.inr hunmarked, .idle start⟩
  rcases (hstart.incidents run).leakFree with ⟨p, hp, hfinalizer⟩ | hfree
  · exact ⟨p, hp, p.hasFinalizer_iff.1 hfinalizer⟩
  · obtain ⟨n, hn, hmarkedNode⟩ := hmarked
    rw [hfree n hn] at hmarkedNode
    cases hmarkedNode

/-- A store with one ready node. -/
def singleNode : VersionedFleet :=
  .ofNodes [.plain "a" "True" [("zone", "1")]] (by decide)

/-- The record is created, its pass reads it, puts the finalizer on and lists the fleet; then its
deletion is requested; then the pass writes the node. -/
def deletedMidway : List Incident :=
  [.outside "1" (.create (.plain "web" "random" 1 [("tier", "front")])),
   .turn (.start .plain),
   .turn (.answer "2"),
   .turn (.answer "2"),
   .turn (.answer "2"),
   .outside "3" (.requestDeletion PassSettings.plain.now),
   .turn (.answer "1")]

/-- The node is marked although the policy is under deletion, and the finalizer is there. -/
theorem exists_finalizer_of_marked_deletedMidway :
    (∃ n ∈ ((Cluster.idle singleNode).incidents "web" deletedMidway).store.nodes,
        n.isManagedBy (Marker.key "web") = true) ∧
      ∃ p, ((Cluster.idle singleNode).incidents "web" deletedMidway).store.policies.get? "web" =
          some p ∧ Policy.finalizer ∈ p.finalizers := by
  have hmarked : ∃ n ∈ ((Cluster.idle singleNode).incidents "web" deletedMidway).store.nodes,
      n.isManagedBy (Marker.key "web") = true := by decide +kernel
  exact ⟨hmarked, exists_finalizer_of_marked (by decide) deletedMidway hmarked⟩

end FleetLabels
