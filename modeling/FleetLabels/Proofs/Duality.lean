import FleetLabels.Proofs.InMemory
import FleetLabels.Proofs.Precedence

/-!
# The oldest and the newest

The two strategies by time are not mirror images. Both go by the name from the front where two nodes
were created at the same time, and a node whose creation is not known is the first of all to the one
and the last of all to the other. Where no two ready nodes were created at the same time, the name
has nothing to decide and the one order is the other reversed. The newest nodes are then the last of
the oldest, and what the one strategy leaves over the other takes.

## Main results

* `Strategy.arrange_newest` — the order of the newest is that of the oldest reversed.
* `oldest_newest_dual` — what that means for selections of any size.
-/

namespace FleetLabels

namespace Strategy

/-- Between nodes of different creation the two strategies disagree. -/
theorem newest_precedes_iff {a b : Node} (h : a.created? ≠ b.created?) :
    newest.Precedes a b ↔ oldest.Precedes b a := by
  unfold Precedes
  constructor
  · rintro (hbefore | ⟨hsame, -⟩)
    · exact .inl hbefore
    · exact absurd hsame h
  · rintro (hbefore | ⟨hsame, -⟩)
    · exact .inl hbefore
    · exact absurd hsame.symm h

theorem arrange_newest {nodes : List Node} (hdistinct : (nodes.map Node.created?).Nodup)
    (draws draws' : DrawSource) :
    newest.arrange nodes draws' = (oldest.arrange nodes draws).reverse := by
  have hperm := oldest.arrange_perm nodes draws
  have hstanding : (nodes.map Node.standing).Nodup := by
    refine List.Nodup.of_map Prod.fst ?_
    rw [List.map_map]
    exact hdistinct
  have hapart : (oldest.arrange nodes draws).Pairwise fun a b => a.created? ≠ b.created? :=
    List.pairwise_map.1 ((hperm.map Node.created?).nodup_iff.2 hdistinct)
  -- The reversed order is sorted for the newest, and there is only one such order.
  refine arrange_eq_of_sorted (by decide) hstanding ((List.reverse_perm _).trans hperm) ?_ draws'
  refine List.pairwise_reverse.2 ((hapart.and (pairwise_arrange nodes draws)).imp ?_)
  rintro a b ⟨hne, hsorted⟩
  exact mt (newest_precedes_iff hne).1 hsorted

end Strategy

/-- **The oldest and the newest.** If no two ready nodes were created at the same time, then the
newest of them, in any number, are the last of all by the order of the oldest, in reverse. So the
oldest nodes and the newest ones share no node and leave none out if their numbers add up to all. -/
theorem oldest_newest_dual {nodes : List Node}
    (hdistinct : ((Node.ready nodes).map Node.created?).Nodup) (draws draws' : DrawSource) :
    let ready := Node.ready nodes
    let oldest (count : Int32) : StrategySpec := { type := Strategy.oldest.name, count }
    let newest (count : Int32) : StrategySpec := { type := Strategy.newest.name, count }
    (∀ all k : Int32, (ready.length : Int) ≤ all.toInt → 0 ≤ k.toInt → k.toInt ≤ ready.length →
      ∃ ordered last, select nodes (oldest all) draws = .ok ordered ∧ ordered.Perm ready ∧
        select nodes (newest k) draws' = .ok last ∧ (last.length : Int) = k.toInt ∧
        last = (ordered.drop (ordered.length - last.length)).reverse) ∧
      ∀ k rest : Int32, 0 ≤ k.toInt → 0 ≤ rest.toInt → k.toInt + rest.toInt = ready.length →
        ∃ first last, select nodes (oldest k) draws = .ok first ∧
          select nodes (newest rest) draws' = .ok last ∧ first.Disjoint last ∧
          (first ++ last).Perm ready := by
  intro ready oldest newest
  let ordered := Strategy.oldest.arrange ready draws
  have hperm : ordered.Perm ready := Strategy.oldest.arrange_perm ready draws
  have hlength : ordered.length = ready.length := hperm.length_eq
  have holdest : ∀ k : Int32, select nodes (oldest k) draws = .ok (ordered.take k.toInt.toNat) :=
    fun k => select_eq_take_arrange (Strategy.parse_name .oldest) nodes draws
  have hnewest : ∀ k : Int32, select nodes (newest k) draws' =
      .ok (ordered.drop (ordered.length - k.toInt.toNat)).reverse := fun k => by
    rw [select_eq_take_arrange (Strategy.parse_name .newest),
      Strategy.arrange_newest hdistinct draws draws', List.take_reverse]
    rfl
  constructor
  · intro all k hall hk hle
    refine ⟨ordered, _, ?_, hperm, hnewest k, ?_, ?_⟩
    · rw [holdest, List.take_of_length_le (by omega)]
    · rw [List.length_reverse, List.length_drop]
      omega
    · rw [List.length_reverse, List.length_drop]
      congr 2
      omega
  · intro k rest hk hrest hsum
    have hcut : ordered.length - rest.toInt.toNat = k.toInt.toNat := by omega
    refine ⟨_, _, holdest k, hnewest rest, ?_, ?_⟩
    · have hnodup : (ordered.map Node.created?).Nodup :=
        (hperm.map Node.created?).nodup_iff.2 hdistinct
      rw [hcut, List.disjoint_reverse_right]
      exact List.disjoint_take_drop (List.Nodup.of_map _ hnodup) (Nat.le_refl _)
    · rw [hcut]
      have hwhole : (ordered.take k.toInt.toNat ++ ordered.drop k.toInt.toNat).Perm ready := by
        rw [List.take_append_drop]
        exact hperm
      exact ((List.reverse_perm _).append_left _).trans hwhole

/-- Four ready nodes, of one of which it is not known when it was created, and one that is not
ready. -/
def datedNodes : List Node :=
  [.bornAt "b" 20, .plain "a" "True" [], .plain "e" "False" [], .bornAt "d" 10, .bornAt "c" 30]

/-- The three newest of the four and the oldest one. -/
theorem oldest_newest_dual_datedNodes :
    (∃ ordered last,
        select datedNodes { type := "oldest", count := 4 } Draws.still = .ok ordered ∧
        select datedNodes { type := "newest", count := 3 } Draws.still = .ok last ∧
        last = (ordered.drop (ordered.length - last.length)).reverse) ∧
      ∃ first last,
        select datedNodes { type := "oldest", count := 1 } Draws.still = .ok first ∧
        select datedNodes { type := "newest", count := 3 } Draws.still = .ok last ∧
        first.Disjoint last ∧ (first ++ last).Perm (Node.ready datedNodes) := by
  have hdistinct : ((Node.ready datedNodes).map Node.created?).Nodup := by decide +kernel
  obtain ⟨hreverse, hsplit⟩ := oldest_newest_dual hdistinct Draws.still Draws.still
  constructor
  · obtain ⟨ordered, last, hordered, -, hlast, -, heq⟩ :=
      hreverse 4 3 (by decide +kernel) (by decide) (by decide +kernel)
    exact ⟨ordered, last, hordered, hlast, heq⟩
  · exact hsplit 1 3 (by decide) (by decide) (by decide +kernel)

end FleetLabels
