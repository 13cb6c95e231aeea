import FleetLabels.Proofs.Choice
import Mathlib.Data.List.Nodup

/-!
# Who comes first

The two strategies by time take the ready nodes in an order of two keys, the time of creation and
the name, of which the first may be unknown and is reversed for the one of them. `Strategy.Precedes`
says who comes before whom without the comparisons that the selection sorts by, and this module
shows that the selection goes by it: the chosen nodes are in order, nobody who was left over comes
before one of them, and among nodes that are equal in both keys those listed first are taken first.

A random selection goes by no order. Nobody precedes anybody there, so that all of this but the last
holds of it as well.

## Main results

* `Strategy.compare_eq_lt_iff`, `Strategy.compare_eq_eq_iff` — what the comparisons of the two
  strategies mean.
* `Strategy.arrange_eq_mergeSort` — both strategies by time sort by a comparison.
* `Strategy.arrange_eq_of_sorted` — nodes that differ to the order are arranged in one way only.
* `Strategy.ranked_arrange` — every first part of an arrangement is ranked.
* `select_by_strategy` — when a selection is refused, and what it is otherwise.
-/

namespace FleetLabels

/-! ## Sorting by a comparison -/

section Sorting

variable {α : Type} {cmp : α → α → Ordering} [Std.TransCmp cmp]

theorem isLE_or_isLE (a b : α) : ((cmp a b).isLE || (cmp b a).isLE) = true := by
  have hswap : cmp b a = (cmp a b).swap := Std.OrientedCmp.eq_swap
  rw [hswap]
  cases cmp a b <;> rfl

theorem pairwise_mergeSort_isLE (l : List α) :
    (l.mergeSort fun a b => (cmp a b).isLE).Pairwise fun a b => (cmp a b).isLE = true :=
  List.pairwise_mergeSort (fun _ _ _ => Std.TransCmp.isLE_trans) isLE_or_isLE l

/-- Items that compare equal stay in their order. -/
theorem filter_mergeSort_isLE {alike : α → Bool}
    (halike : ∀ a b, alike a = true → alike b = true → cmp a b = .eq) (l : List α) :
    (l.mergeSort fun a b => (cmp a b).isLE).filter alike = l.filter alike := by
  have hordered : (l.filter alike).Pairwise fun a b => (cmp a b).isLE = true := by
    refine List.pairwise_of_forall_mem_list fun a ha b hb => ?_
    rw [halike a b (List.mem_filter.1 ha).2 (List.mem_filter.1 hb).2]
    rfl
  have hsub : (l.filter alike).Sublist (l.mergeSort fun a b => (cmp a b).isLE) :=
    List.sublist_mergeSort (fun _ _ _ => Std.TransCmp.isLE_trans) isLE_or_isLE hordered
      List.filter_sublist
  have hfiltered := hsub.filter alike
  rw [List.filter_filter, List.filter_congr fun _ _ => Bool.and_self _] at hfiltered
  have hlength := ((List.mergeSort_perm l fun a b => (cmp a b).isLE).filter alike).length_eq
  exact (hfiltered.eq_of_length hlength.symm).symm

end Sorting

/-! ## The orders of the strategies -/

instance : Std.TransOrd Instant := inferInstanceAs (Std.TransCmp (compareOn Instant.rank))

instance : Std.LawfulEqOrd Instant where
  eq_of_compare h := Instant.rank_injective (Std.LawfulEqOrd.eq_of_compare h)

namespace Node

/-- When a node was created, if that is known. -/
def created? (n : Node) : Option Instant := n.metadata.creationTimestamp

/-- The first node was created before the second one. A node of which this is not known counts as
older than all others. -/
def CreatedBefore (a b : Node) : Prop :=
  match a.created?, b.created? with
  | none, some _ => True
  | some t, some u => t.rank < u.rank
  | _, none => False

/-- All that the orders look at. -/
def standing (n : Node) : Option Instant × String := (n.created?, n.name)

instance : Std.TransCmp compareCreation := inferInstanceAs (Std.TransCmp (compareOn created?))

instance : Std.TransCmp compareName := inferInstanceAs (Std.TransCmp (compareOn name))

theorem compareCreation_eq_lt_iff {a b : Node} :
    a.compareCreation b = .lt ↔ a.CreatedBefore b := by
  show compare a.created? b.created? = .lt ↔ _
  unfold CreatedBefore
  cases a.created? with
  | none =>
      cases b.created? with
      | none => exact iff_of_false (by decide) not_false
      | some u => exact iff_of_true rfl trivial
  | some t =>
      cases b.created? with
      | none => exact iff_of_false (by simp [Ord.compare]) not_false
      | some u => exact Int.compare_eq_lt

theorem compareCreation_eq_eq_iff {a b : Node} :
    a.compareCreation b = .eq ↔ a.created? = b.created? :=
  Std.compare_eq_iff_eq

theorem compareName_eq_lt_iff {a b : Node} : a.compareName b = .lt ↔ a.name < b.name :=
  compareOfLessAndEq_eq_lt

theorem compareName_eq_eq_iff {a b : Node} : a.compareName b = .eq ↔ a.name = b.name :=
  Std.compare_eq_iff_eq

end Node

namespace Strategy

/-- The first node comes before the second one, by time and then by name. A random selection has no
order. -/
def Precedes (s : Strategy) (a b : Node) : Prop :=
  match s with
  | .oldest => a.CreatedBefore b ∨ a.created? = b.created? ∧ a.name < b.name
  | .newest => b.CreatedBefore a ∨ a.created? = b.created? ∧ a.name < b.name
  | .random => False

/-- The comparison that a strategy sorts by. -/
def compare : Strategy → Node → Node → Ordering
  | .oldest => Node.oldestFirst
  | .newest => Node.newestFirst
  | .random => fun _ _ => .eq

instance (s : Strategy) : Std.TransCmp s.compare := by
  cases s with
  | oldest =>
      exact inferInstanceAs (Std.TransCmp (compareLex Node.compareCreation Node.compareName))
  | newest =>
      exact inferInstanceAs
        (Std.TransCmp (compareLex (fun a b => Node.compareCreation b a) Node.compareName))
  | random => exact { eq_swap := rfl, isLE_trans := fun _ _ => rfl }

variable {s : Strategy} {a b : Node}

theorem compare_eq_lt_iff : s.compare a b = .lt ↔ s.Precedes a b := by
  cases s with
  | oldest =>
      show (a.compareCreation b).then (a.compareName b) = .lt ↔ _
      rw [Ordering.then_eq_lt, Node.compareCreation_eq_lt_iff, Node.compareCreation_eq_eq_iff,
        Node.compareName_eq_lt_iff]
      rfl
  | newest =>
      show (b.compareCreation a).then (a.compareName b) = .lt ↔ _
      rw [Ordering.then_eq_lt, Node.compareCreation_eq_lt_iff, Node.compareCreation_eq_eq_iff,
        Node.compareName_eq_lt_iff, eq_comm (a := b.created?)]
      rfl
  | random => exact iff_of_false (nomatch ·) not_false

theorem compare_eq_eq_iff (hs : s ≠ .random) :
    s.compare a b = .eq ↔ a.standing = b.standing := by
  rw [Node.standing, Node.standing, Prod.mk.injEq]
  cases s with
  | oldest =>
      show (a.compareCreation b).then (a.compareName b) = .eq ↔ _
      rw [Ordering.then_eq_eq, Node.compareCreation_eq_eq_iff, Node.compareName_eq_eq_iff]
  | newest =>
      show (b.compareCreation a).then (a.compareName b) = .eq ↔ _
      rw [Ordering.then_eq_eq, Node.compareCreation_eq_eq_iff, Node.compareName_eq_eq_iff,
        eq_comm (a := b.created?)]
  | random => exact absurd rfl hs

/-- A node may stand before another one unless that one comes first. -/
theorem isLE_compare_iff : (s.compare a b).isLE = true ↔ ¬s.Precedes b a := by
  have hswap : s.compare b a = (s.compare a b).swap := Std.OrientedCmp.eq_swap
  rw [← compare_eq_lt_iff, hswap]
  cases s.compare a b <;> decide

theorem arrange_eq_mergeSort (hs : s ≠ .random) (nodes : List Node) (draws : DrawSource) :
    s.arrange nodes draws = nodes.mergeSort fun a b => (s.compare a b).isLE := by
  cases s with
  | oldest => rfl
  | newest => rfl
  | random => exact absurd rfl hs

/-- No node of an arrangement stands behind one that it precedes. -/
theorem pairwise_arrange (nodes : List Node) (draws : DrawSource) :
    (s.arrange nodes draws).Pairwise fun a b => ¬s.Precedes b a := by
  by_cases hs : s = .random
  · subst hs
    exact List.pairwise_of_forall_mem_list fun _ _ _ _ => not_false
  · rw [arrange_eq_mergeSort hs]
    exact (pairwise_mergeSort_isLE nodes).imp isLE_compare_iff.1

/-- Nodes of which neither precedes the other are equal to the order. -/
theorem standing_eq_of_not_precedes (hs : s ≠ .random) (hab : ¬s.Precedes b a)
    (hba : ¬s.Precedes a b) : a.standing = b.standing :=
  (compare_eq_eq_iff hs).1
    (Std.OrientedCmp.isLE_antisymm (isLE_compare_iff.2 hab) (isLE_compare_iff.2 hba))

/-- Nodes of which no two are equal to the order can be arranged in one way only. -/
theorem arrange_eq_of_sorted (hs : s ≠ .random) {nodes sorted : List Node}
    (hdistinct : (nodes.map Node.standing).Nodup) (hperm : sorted.Perm nodes)
    (hsorted : sorted.Pairwise fun a b => ¬s.Precedes b a) (draws : DrawSource) :
    s.arrange nodes draws = sorted := by
  have hsame : (s.arrange nodes draws).Perm sorted := (s.arrange_perm nodes draws).trans hperm.symm
  refine hsame.eq_of_pairwise (fun x y hx hy hxy hyx => ?_) (pairwise_arrange nodes draws) hsorted
  exact List.inj_on_of_nodup_map hdistinct ((s.arrange_perm nodes draws).mem_iff.1 hx)
    (hperm.mem_iff.1 hy) (standing_eq_of_not_precedes hs hxy hyx)

end Strategy

/-! ## Selections by rank -/

theorem Strategy.name_injective : Function.Injective Strategy.name := by
  intro s s' h
  have hparse := parse_name s
  rw [h, parse_name] at hparse
  exact (Except.ok.inj hparse).symm

/-- Of the ready nodes some are selected and the rest is left over, as the strategy has it. -/
structure Strategy.Ranked (s : Strategy) (ready selected rest : List Node) : Prop where
  /-- Those selected are in order. -/
  sorted : selected.Pairwise fun a b => ¬s.Precedes b a
  /-- Nobody left over comes before one who is selected. -/
  best : ∀ a ∈ selected, ∀ b ∈ rest, ¬s.Precedes b a
  /-- Of nodes that are equal to the order, those listed first are selected, as they are listed. -/
  stable : s ≠ .random → ∀ standing, selected.filter (·.standing = standing) <+:
    ready.filter (·.standing = standing)

/-- Cut an arrangement anywhere. -/
theorem Strategy.ranked_arrange (s : Strategy) (ready : List Node) (draws : DrawSource) (k : Nat) :
    s.Ranked ready ((s.arrange ready draws).take k) ((s.arrange ready draws).drop k) := by
  have hsorted := s.pairwise_arrange ready draws
  rw [← List.take_append_drop k (s.arrange ready draws), List.pairwise_append] at hsorted
  obtain ⟨hselected, -, hbest⟩ := hsorted
  constructor
  case sorted => exact hselected
  case best => exact hbest
  case stable =>
    intro hs standing
    have halike : ∀ a b : Node, decide (a.standing = standing) = true →
        decide (b.standing = standing) = true → s.compare a b = .eq := fun a b ha hb =>
      (compare_eq_eq_iff hs).2 ((of_decide_eq_true ha).trans (of_decide_eq_true hb).symm)
    have hstable : (s.arrange ready draws).filter (·.standing = standing) =
        ready.filter (·.standing = standing) := by
      rw [arrange_eq_mergeSort hs]
      exact filter_mergeSort_isLE halike ready
    rw [← hstable]
    exact (List.take_prefix k _).filter _

/-- As many are selected as were asked for, if there are enough. -/
theorem natCast_length_of_select {nodes selected : List Node} {spec : StrategySpec}
    {draws : DrawSource} (h : select nodes spec draws = .ok selected) :
    (selected.length : Int) = min (max spec.count.toInt 0) (Node.ready nodes).length := by
  rw [length_of_select h, ← StrategySpec.limit_eq_max]
  omega

/-- **Selection by strategy.** A selection is refused, with the name of the strategy as it was
written, if there is a ready node and no such strategy. Otherwise it takes as many of the ready
nodes as were asked for, each at most once for every time it is listed, and in the case of an
ordered strategy those that come first. -/
theorem select_by_strategy (nodes : List Node) (spec : StrategySpec) (draws : DrawSource) :
    let ready := Node.ready nodes
    let refused := ready ≠ [] ∧ ∀ s : Strategy, spec.type ≠ s.name
    (refused ∧ select nodes spec draws = .error (.unsupportedStrategy spec.type)) ∨
      (¬refused ∧ ∃ selected rest, select nodes spec draws = .ok selected ∧
        (selected.length : Int) = min (max spec.count.toInt 0) ready.length ∧
        (selected ++ rest).Perm ready ∧
        ∀ s : Strategy, spec.type = s.name → s.Ranked ready selected rest) := by
  intro ready refused
  by_cases hrefused : refused
  · exact .inl ⟨hrefused, select_eq_error_iff.2 ⟨hrefused.1, hrefused.2, rfl⟩⟩
  refine .inr ⟨hrefused, ?_⟩
  by_cases hknown : ∃ s : Strategy, spec.type = s.name
  · obtain ⟨s, hs⟩ := hknown
    have hselect : select nodes spec draws = .ok ((s.arrange ready draws).take spec.limit) :=
      select_eq_take_arrange (hs ▸ Strategy.parse_name s) nodes draws
    refine ⟨_, (s.arrange ready draws).drop spec.limit, hselect,
      natCast_length_of_select hselect, ?_, fun s' hs' => ?_⟩
    · rw [List.take_append_drop]
      exact s.arrange_perm ready draws
    · obtain rfl : s = s' := Strategy.name_injective (hs.symm.trans hs')
      exact s.ranked_arrange ready draws spec.limit
  · have hnone : ready = [] := Decidable.byContradiction fun hready =>
      hrefused ⟨hready, not_exists.1 hknown⟩
    have hselect : select nodes spec draws = .ok [] := by
      unfold select
      rw [show Node.ready nodes = [] from hnone]
    refine ⟨[], [], hselect, natCast_length_of_select hselect, ?_,
      fun s hs => absurd ⟨s, hs⟩ hknown⟩
    rw [hnone]
    exact List.Perm.nil

end FleetLabels
