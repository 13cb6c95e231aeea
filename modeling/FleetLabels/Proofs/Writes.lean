import FleetLabels.Pass.Reconcile
import FleetLabels.Proofs.Overlay
import FleetLabels.Proofs.Selection

/-!
# Passes as lists of writes

Between the listing of the fleet and the last call, a pass does nothing but replace nodes, and which
ones it replaces by what is settled by the listing. This module brings every pass into that form:
one list of writes, made in order. The loops over the selected nodes, over the unselected ones and
over the marked ones are not looked at again after this.

The writes come from the listed nodes, so that their effect on the listed fleet is one map over it:
`Policy.settled` for the pass of a live policy, `Node.cleaned` for a cleanup.

## Main results

* `Pass.apply_eq`, `Pass.cleanup_eq` — the two kinds of passes, each around its list of writes.
* `Pass.reconcile_eq` — which of them a pass is, by the state of the policy.
* `Pass.overlay_applyWrites`, `Pass.overlay_cleanupWrites` — what those lists make of the listing.
* `Policy.isManagedBy_settled` — of the settled nodes, the selected ones carry the marker.
-/

namespace FleetLabels

namespace Pass

variable {α β : Type}

/-! ## Loops -/

/-- Replaces the given nodes, in order. -/
def writeAll (writes : List Node) : Pass Unit := forAll writes updateNode

theorem forAll_map (f : α → β) (l : List α) (g : β → Pass Unit) :
    forAll (l.map f) g = forAll l fun x => g (f x) := by
  induction l with
  | nil => rfl
  | cons x rest ih => rw [List.map_cons, forAll, forAll, ih]

theorem writeAll_append (w₁ w₂ : List Node) :
    writeAll (w₁ ++ w₂) = (writeAll w₁).bind fun _ => writeAll w₂ := by
  induction w₁ with
  | nil => rfl
  | cons w rest ih =>
      show (updateNode w).bind (fun _ => writeAll (rest ++ w₂)) =
        ((updateNode w).bind fun _ => writeAll rest).bind fun _ => writeAll w₂
      rw [bind_assoc, ih]

/-- Nodes that have all their labels are passed over. -/
theorem forAll_join (declared : Labels) (marker : String) (l : List Node) :
    forAll l (join declared marker) = writeAll (l.filterMap (·.joined? declared marker)) := by
  induction l with
  | nil => rfl
  | cons n rest ih =>
      rw [forAll, ih, join, List.filterMap_cons]
      cases n.joined? declared marker <;> rfl

theorem leaveUnselected_eq (nodes selected : List Node) (declared : Labels) (marker : String) :
    leaveUnselected nodes selected declared marker =
      writeAll ((unselected nodes selected marker).map (·.left declared marker)) :=
  (forAll_map _ _ updateNode).symm

/-! ## The writes of a pass -/

/-- What the pass of a live policy writes: first the selected nodes that lack a label, then the
marked ones that are not selected. -/
def applyWrites (policy : Policy) (nodes selected : List Node) : List Node :=
  selected.filterMap (·.joined? policy.spec.labels policy.markerKey) ++
    (unselected nodes selected policy.markerKey).map (·.left policy.spec.labels policy.markerKey)

/-- What a cleanup writes: every marked node. -/
def cleanupWrites (policy : String) (declared : Labels) (nodes : List Node) : List Node :=
  (nodes.filter (·.isManagedBy (Marker.key policy))).map (·.stripped policy declared)

/-- The status that a pass leaves behind. -/
def statusOf (selected : List Node) (now : Instant) : PolicyStatus :=
  { selectedNodes := selected.map Node.name, lastReconcileTime := some now }

theorem apply_eq (settings : PassSettings) (policy : Policy) :
    apply settings policy =
      listNodes.bind fun nodes =>
        (ofExcept (select nodes policy.spec.strategy settings.draws)).bind fun selected =>
          (writeAll (applyWrites policy nodes selected)).bind fun _ =>
            (updateStatus policy.name (statusOf selected settings.now)).bind fun _ =>
              .done (.ok (.requeue settings.interval)) := by
  refine congrArg _ (funext fun nodes => congrArg _ (funext fun selected => ?_))
  rw [applyWrites, writeAll_append, ← forAll_join, ← leaveUnselected_eq, bind_assoc]
  rfl

theorem cleanup_eq (policy : String) (declared : Labels) :
    cleanup policy declared =
      listNodes.bind fun nodes =>
        (writeAll (cleanupWrites policy declared nodes)).bind fun _ =>
          .done (.ok (nodes.filter (·.isManagedBy (Marker.key policy))).length) := by
  refine congrArg _ (funext fun nodes => ?_)
  rw [cleanupWrites, writeAll, forAll_map]
  rfl

/-- What a pass does once it has looked up its policy. -/
def proceed (settings : PassSettings) (name : String) : Policy.State → Pass Outcome
  | .gone => (cleanup name .empty).bind fun _ => .done (.ok .done)
  | .terminating policy => (finalize policy).bind fun _ => .done (.ok .done)
  | .untracked policy => (updatePolicy policy.track).bind (apply settings)
  | .tracked policy => apply settings policy

theorem reconcile_eq (settings : PassSettings) (name : String) :
    reconcile settings name =
      (getPolicy name).bind fun record => proceed settings name (Policy.State.of record) := by
  refine congrArg (getPolicy name).bind (funext fun record => ?_)
  cases Policy.State.of record <;> rfl

end Pass

/-! ## What the writes make of the fleet -/

/-- A node as the pass of a live policy leaves it, by the names of the selected nodes. -/
def Policy.settled (p : Policy) (selected : List String) (n : Node) : Node :=
  if n.name ∈ selected then n.joined p.spec.labels p.markerKey
  else if n.isManagedBy p.markerKey then n.left p.spec.labels p.markerKey
  else n

/-- A node as a cleanup leaves it. -/
def Node.cleaned (policy : String) (declared : Labels) (n : Node) : Node :=
  if n.isManagedBy (Marker.key policy) then n.stripped policy declared else n

namespace Pass

variable {policy : Policy} {nodes selected : List Node}

theorem name_of_joined? {declared : Labels} {marker : String} (n n' : Node)
    (h : n.joined? declared marker = some n') : n'.name = n.name :=
  Node.name_eq_of_bare_eq (Node.bare_of_joined?_eq_some h)

theorem mem_unselected {marker : String} {n : Node} :
    n ∈ unselected nodes selected marker ↔
      n ∈ nodes ∧ n.name ∉ selected.map Node.name ∧ n.isManagedBy marker = true := by
  simp [unselected]

theorem unselected_subset (marker : String) : unselected nodes selected marker ⊆ nodes :=
  List.filter_sublist.subset

/-- If no node is selected, all marked ones are unselected. -/
theorem unselected_nil (nodes : List Node) (marker : String) :
    unselected nodes [] marker = nodes.filter (·.isManagedBy marker) := rfl

/-- The name of a write is that of a selected node, or that of an unselected one. -/
theorem name_mem_of_mem_applyWrites {w : Node} (h : w ∈ applyWrites policy nodes selected) :
    w.name ∈ selected.map Node.name ∨
      w.name ∈ (unselected nodes selected policy.markerKey).map Node.name := by
  rcases List.mem_append.1 h with hjoin | hleft
  · obtain ⟨n, hn, hw⟩ := List.mem_filterMap.1 hjoin
    exact .inl (name_of_joined? n w hw ▸ List.mem_map_of_mem hn)
  · obtain ⟨n, hn, rfl⟩ := List.mem_map.1 hleft
    exact .inr (List.mem_map.2 ⟨n, hn, rfl⟩)

theorem names_applyWrites_subset (hsel : selected ⊆ nodes) :
    (applyWrites policy nodes selected).map Node.name ⊆ nodes.map Node.name := by
  intro name hname
  obtain ⟨w, hw, rfl⟩ := List.mem_map.1 hname
  rcases name_mem_of_mem_applyWrites hw with h | h
  · exact List.map_subset _ hsel h
  · exact List.map_subset _ (unselected_subset _) h

/-- No node is written twice in one pass. -/
theorem distinctNames_applyWrites (hnodes : DistinctNames nodes) (hsel : DistinctNames selected) :
    DistinctNames (applyWrites policy nodes selected) := by
  have hjoins : ((selected.filterMap
      (·.joined? policy.spec.labels policy.markerKey)).map Node.name).Sublist
        (selected.map Node.name) := by
    induction selected with
    | nil => exact List.Sublist.refl _
    | cons n rest ih =>
        rw [List.filterMap_cons]
        cases hw : n.joined? policy.spec.labels policy.markerKey with
        | none => exact (ih hsel.tail).cons _
        | some n' =>
            rw [List.map_cons, List.map_cons, name_of_joined? n n' hw]
            exact (ih hsel.tail).cons_cons _
  rw [DistinctNames, applyWrites, List.map_append, List.nodup_append]
  refine ⟨List.Nodup.sublist hjoins hsel, ?_, ?_⟩
  · rw [List.map_map]
    exact hnodes.filter _
  · rintro a ha b hb rfl
    obtain ⟨_, hw, rfl⟩ := List.mem_map.1 hb
    obtain ⟨n, hn, rfl⟩ := List.mem_map.1 hw
    exact (mem_unselected.1 hn).2.1 (hjoins.subset ha)

theorem overlay_applyWrites (hnodes : DistinctNames nodes) (hsub : selected ⊆ nodes)
    (hsel : DistinctNames selected) :
    Fleet.overlay (applyWrites policy nodes selected) nodes =
      nodes.map (policy.settled (selected.map Node.name)) := by
  refine List.map_congr_left fun n hn => ?_
  have hjoin : named? n.name
        (selected.filterMap (·.joined? policy.spec.labels policy.markerKey)) =
      (named? n.name selected).bind (·.joined? policy.spec.labels policy.markerKey) :=
    named?_filterMap name_of_joined? hsel n.name
  rw [named?_of_subset hnodes hsub hn] at hjoin
  rw [applyWrites, named?_append, hjoin,
    named?_map fun n => n.name_left policy.spec.labels policy.markerKey,
    unselected, named?_filter hnodes _ hn, Policy.settled]
  by_cases hmem : n.name ∈ selected.map Node.name
  · simp only [List.contains_eq_mem, hmem]
    simp [Node.joined]
  · simp only [List.contains_eq_mem, hmem]
    cases n.isManagedBy policy.markerKey <;> rfl

/-! ### Cleanups -/

section Cleanup

variable {name : String} {declared : Labels}

theorem names_cleanupWrites_subset :
    (cleanupWrites name declared nodes).map Node.name ⊆ nodes.map Node.name := by
  rw [cleanupWrites, List.map_map]
  exact List.map_subset _ List.filter_sublist.subset

theorem distinctNames_cleanupWrites (h : DistinctNames nodes) :
    DistinctNames (cleanupWrites name declared nodes) := by
  rw [DistinctNames, cleanupWrites, List.map_map]
  exact h.filter _

theorem overlay_cleanupWrites (h : DistinctNames nodes) :
    Fleet.overlay (cleanupWrites name declared nodes) nodes =
      nodes.map (Node.cleaned name declared) := by
  refine List.map_congr_left fun n hn => ?_
  rw [cleanupWrites, named?_map fun n => n.name_stripped name declared, named?_filter h _ hn,
    Node.cleaned]
  split <;> rfl

end Cleanup

end Pass

/-! ## Settled and cleaned nodes -/

namespace Policy

@[simp] theorem bare_settled (p : Policy) (selected : List String) (n : Node) :
    (p.settled selected n).bare = n.bare := by
  unfold settled
  split
  · exact n.bare_joined ..
  · split <;> rfl

@[simp] theorem name_settled (p : Policy) (selected : List String) (n : Node) :
    (p.settled selected n).name = n.name := Node.name_eq_of_bare_eq (p.bare_settled selected n)

/-- After a pass exactly the selected nodes carry the marker. -/
theorem isManagedBy_settled (p : Policy) (selected : List String) (n : Node) :
    (p.settled selected n).isManagedBy p.markerKey = true ↔ n.name ∈ selected := by
  unfold settled
  split
  next hmem => simp [hmem]
  next hmem =>
    split
    next => simp [hmem]
    next hmarked => simp [hmem, hmarked]

theorem isManagedBy_settled_eq_false (p : Policy) (selected : List String) (n : Node) :
    (p.settled selected n).isManagedBy p.markerKey = false ↔ n.name ∉ selected := by
  rw [← p.isManagedBy_settled selected n, Bool.not_eq_true]

end Policy

namespace Node

@[simp] theorem bare_cleaned (policy : String) (declared : Labels) (n : Node) :
    (n.cleaned policy declared).bare = n.bare := by
  unfold cleaned
  split <;> rfl

@[simp] theorem name_cleaned (policy : String) (declared : Labels) (n : Node) :
    (n.cleaned policy declared).name = n.name := Node.name_eq_of_bare_eq (n.bare_cleaned ..)

/-- After a cleanup no node carries the marker. -/
@[simp] theorem isManagedBy_cleaned (policy : String) (declared : Labels) (n : Node) :
    (n.cleaned policy declared).isManagedBy (Marker.key policy) = false := by
  unfold cleaned
  split
  next => exact n.isManagedBy_stripped policy declared
  next hmarked => exact eq_false_of_ne_true hmarked

/-- A cleanup takes the key space of a policy off the marked nodes and off no other. -/
theorem get?_cleaned_of_owns {policy k : String} (hk : Marker.owns policy k = true)
    (declared : Labels) (n : Node) :
    (n.cleaned policy declared).labels.get? k =
      if n.isManagedBy (Marker.key policy) = true then none else n.labels.get? k := by
  unfold cleaned
  split
  · rw [get?_stripped, if_pos (.inl hk)]
  · rfl

end Node

end FleetLabels
