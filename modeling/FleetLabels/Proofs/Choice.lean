import FleetLabels.Proofs.Labels
import FleetLabels.Proofs.Selection

/-!
# Selections without chance

The strategies by creation time select without drawing, so that the selection is a function of the
fleet: `StrategySpec.choice`, the names in the order in which they are selected. It never fails, and
it looks at nodes without their labels, which is why labeling a fleet does not change what is
selected from it.

## Main results

* `select_of_ordered` — an ordered strategy selects the nodes of its choice, whatever the draws.
* `StrategySpec.choice_congr` — fleets that differ in labels only have the same choice.
-/

namespace FleetLabels

/-- The strategy is one of the two that order nodes by their creation. -/
def StrategySpec.Ordered (s : StrategySpec) : Prop :=
  s.type = Strategy.oldest.name ∨ s.type = Strategy.newest.name

instance (s : StrategySpec) : Decidable s.Ordered := inferInstanceAs (Decidable (_ ∨ _))

/-- The names that a strategy selects without moving any draw, in order. -/
def StrategySpec.choice (s : StrategySpec) (nodes : List Node) : List String :=
  match select nodes s Draws.still with
  | .ok selected => selected.map Node.name
  | .error _ => []

/-! ## Labels do not count -/

theorem Node.ready_map_bare (nodes : List Node) :
    Node.ready (nodes.map Node.bare) = (Node.ready nodes).map Node.bare := by
  rw [Node.ready, List.filter_map]
  rfl

namespace Strategy

variable {s : Strategy} (hs : s ≠ .random) (nodes : List Node)

include hs

theorem arrange_eq_of_ne_random (draws draws' : DrawSource) :
    s.arrange nodes draws = s.arrange nodes draws' := by
  cases s with
  | oldest => rfl
  | newest => rfl
  | random => exact absurd rfl hs

theorem arrange_map_bare (draws : DrawSource) :
    s.arrange (nodes.map Node.bare) draws = (s.arrange nodes draws).map Node.bare := by
  cases s with
  | oldest =>
      have hblind : ∀ a ∈ nodes, ∀ b ∈ nodes,
          (a.oldestFirst b).isLE = (a.bare.oldestFirst b.bare).isLE := fun _ _ _ _ => rfl
      exact (List.map_mergeSort hblind).symm
  | newest =>
      have hblind : ∀ a ∈ nodes, ∀ b ∈ nodes,
          (a.newestFirst b).isLE = (a.bare.newestFirst b.bare).isLE := fun _ _ _ _ => rfl
      exact (List.map_mergeSort hblind).symm
  | random => exact absurd rfl hs

end Strategy

/-! ## The choice -/

/-- A strategy that exists selects the first nodes of its arrangement. -/
theorem select_eq_take_arrange {spec : StrategySpec} {s : Strategy}
    (hparse : Strategy.parse spec.type = .ok s) (nodes : List Node) (draws : DrawSource) :
    select nodes spec draws = .ok ((s.arrange (Node.ready nodes) draws).take spec.limit) := by
  unfold select
  cases hready : Node.ready nodes with
  | nil =>
      have hnone : s.arrange [] draws = [] := (s.arrange_perm [] draws).eq_nil
      rw [hnone, List.take_nil]
  | cons n rest =>
      rw [hparse]
      rfl

namespace StrategySpec

variable {spec : StrategySpec}

theorem Ordered.parse (h : spec.Ordered) :
    ∃ s : Strategy, s ≠ .random ∧ Strategy.parse spec.type = .ok s := by
  rcases h with h | h
  · exact ⟨.oldest, by decide, h ▸ Strategy.parse_name .oldest⟩
  · exact ⟨.newest, by decide, h ▸ Strategy.parse_name .newest⟩

theorem choice_map_bare (h : spec.Ordered) (nodes : List Node) :
    spec.choice (nodes.map Node.bare) = spec.choice nodes := by
  obtain ⟨s, hs, hparse⟩ := h.parse
  simp only [choice, select_eq_take_arrange hparse]
  rw [Node.ready_map_bare, s.arrange_map_bare hs, ← List.map_take, List.map_map]
  rfl

theorem choice_congr (h : spec.Ordered) {nodes nodes' : List Node}
    (hbare : nodes'.map Node.bare = nodes.map Node.bare) :
    spec.choice nodes' = spec.choice nodes := by
  rw [← choice_map_bare h nodes', hbare, choice_map_bare h]

end StrategySpec

/-- An ordered strategy is never refused, and no draw changes what it selects. -/
theorem select_of_ordered {spec : StrategySpec} (h : spec.Ordered) (nodes : List Node)
    (draws : DrawSource) :
    ∃ selected, select nodes spec draws = .ok selected ∧
      selected.map Node.name = spec.choice nodes := by
  obtain ⟨s, hs, hparse⟩ := h.parse
  refine ⟨_, select_eq_take_arrange hparse nodes draws, ?_⟩
  simp only [StrategySpec.choice, select_eq_take_arrange hparse]
  rw [s.arrange_eq_of_ne_random hs]

end FleetLabels
