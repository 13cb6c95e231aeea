import FleetLabels.Selection.Basic

/-!
# What a selection is made of

Whatever the strategy and the draws, a selection is the first part of some order of the ready nodes.
Everything that a pass relies on follows from that: every selected node is a ready node of the
list, as many are taken as were asked for if there are enough, and no name occurs twice if the names
of the list are distinct.

## Main results

* `select_eq_error_iff` — when nothing can be selected at all.
* `select_eq_take_perm` — a selection is cut from a permutation of the ready nodes.
* `mem_of_select`, `length_of_select`, `nodup_names_of_select` — what follows for its members, its
  length and its names.
-/

namespace FleetLabels

/-- A strategy only orders the nodes. -/
theorem Strategy.arrange_perm (s : Strategy) (nodes : List Node) (draws : DrawSource) :
    (s.arrange nodes draws).Perm nodes := by
  cases s with
  | oldest => exact List.mergeSort_perm nodes _
  | newest => exact List.mergeSort_perm nodes _
  | random => exact Draws.shuffle_perm nodes (draws nodes.length)

theorem Strategy.parse_eq_error_iff {type : String} {e : PassError} :
    parse type = .error e ↔ (∀ s : Strategy, type ≠ s.name) ∧ e = .unsupportedStrategy type := by
  unfold parse
  constructor
  · intro h
    split at h
    · cases h
    · split at h
      · cases h
      · split at h
        · cases h
        · cases h
          refine ⟨fun s => ?_, rfl⟩
          cases s <;> assumption
  · rintro ⟨hunknown, rfl⟩
    rw [if_neg (hunknown .oldest), if_neg (hunknown .newest), if_neg (hunknown .random)]

section Selected

variable {nodes selected : List Node} {spec : StrategySpec} {draws : DrawSource}

/-- A selection is refused only where there is a node to select and the strategy is not known. -/
theorem select_eq_error_iff {e : PassError} :
    select nodes spec draws = .error e ↔
      Node.ready nodes ≠ [] ∧ (∀ s : Strategy, spec.type ≠ s.name) ∧
        e = .unsupportedStrategy spec.type := by
  rw [← Strategy.parse_eq_error_iff]
  unfold select
  cases hready : Node.ready nodes with
  | nil => simp
  | cons n rest =>
      cases hparse : Strategy.parse spec.type with
      | error e' => simp [bind, Except.bind]
      | ok s => simp [bind, Except.bind]

/-- Where no node is ready, the strategy is not looked at. -/
theorem select_of_ready_eq_nil (h : Node.ready nodes = []) : select nodes spec draws = .ok [] := by
  rw [select, h]

theorem select_eq_take_perm (h : select nodes spec draws = .ok selected) :
    ∃ order : List Node, order.Perm (Node.ready nodes) ∧ selected = order.take spec.limit := by
  unfold select at h
  split at h
  next hnone =>
    cases h
    exact ⟨[], by rw [hnone], List.take_nil.symm⟩
  next =>
    cases hparse : Strategy.parse spec.type with
    | error e =>
        rw [hparse] at h
        cases h
    | ok strategy =>
        rw [hparse] at h
        cases h
        exact ⟨_, strategy.arrange_perm (Node.ready nodes) draws, rfl⟩

theorem mem_ready_of_select (h : select nodes spec draws = .ok selected) {n : Node}
    (hn : n ∈ selected) : n ∈ Node.ready nodes := by
  obtain ⟨order, hperm, rfl⟩ := select_eq_take_perm h
  exact hperm.mem_iff.1 (List.mem_of_mem_take hn)

theorem mem_of_select (h : select nodes spec draws = .ok selected) {n : Node}
    (hn : n ∈ selected) : n ∈ nodes :=
  (List.mem_filter.1 (mem_ready_of_select h hn)).1

theorem isReady_of_select (h : select nodes spec draws = .ok selected) {n : Node}
    (hn : n ∈ selected) : n.isReady = true :=
  (List.mem_filter.1 (mem_ready_of_select h hn)).2

theorem length_of_select (h : select nodes spec draws = .ok selected) :
    selected.length = min spec.limit (Node.ready nodes).length := by
  obtain ⟨order, hperm, rfl⟩ := select_eq_take_perm h
  rw [List.length_take, hperm.length_eq]

theorem nodup_names_of_select (h : select nodes spec draws = .ok selected)
    (hnodup : (nodes.map Node.name).Nodup) : (selected.map Node.name).Nodup := by
  obtain ⟨order, hperm, rfl⟩ := select_eq_take_perm h
  have hready : ((Node.ready nodes).map Node.name).Nodup :=
    hnodup.sublist (List.filter_sublist.map Node.name)
  have horder : (order.map Node.name).Nodup := (hperm.map Node.name).nodup_iff.2 hready
  exact horder.sublist ((List.take_sublist ..).map Node.name)

end Selected

/-- A negative count asks for none, any other for so many nodes. -/
theorem StrategySpec.limit_eq_max (s : StrategySpec) : (s.limit : Int) = max s.count.toInt 0 := by
  unfold limit
  omega

end FleetLabels
