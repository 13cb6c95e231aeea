import FleetLabels.Proofs.InMemory
import FleetLabels.Proofs.Positions
import FleetLabels.Proofs.Words

/-!
# Fair selections

A random selection is fair where every choice of nodes, in every order, comes from as many values of
the draws as any other. It is so because each order of the ready nodes comes from exactly one value:
a given beginning is that of as many values as there are orders of the nodes left over. The draws
themselves are fair, since as many words give one index as another.

## Main results

* `selectBy_random` — a random selection is the beginning of a shuffle.
* `card_selectPositions` — how many values of the draws select given positions.
* `random_selection_fair` — how many values select a list, and how many words give an index.
-/

namespace FleetLabels

/-- A source of these draws, for a shuffle of as many items. -/
def DrawSource.of {n : Nat} (draws : Draws n) : DrawSource :=
  Function.update Draws.still n draws

section Choices

variable {α : Type} {m n : Nat}

/-- A random selection begins a shuffle of the ready items, if there are any. -/
theorem selectBy_random (view : α → Node) (items : List α) (count : Int32)
    (draws : Draws (readyBy view items).length) :
    selectBy view items { type := Strategy.random.name, count } (.of draws) =
      .ok ((Draws.shuffle (readyBy view items) draws).take count.toInt.toNat) := by
  rw [selectBy_eq_take_arrangeBy (Strategy.parse_name .random)]
  show Except.ok ((Draws.shuffle (readyBy view items) (DrawSource.of draws _)).take _) =
    Except.ok _
  rw [DrawSource.of, Function.update_self]
  rfl

/-- As many values of the draws select the picked positions, in their order, as there are orders of
the ready nodes left over. -/
theorem card_selectPositions (nodes : Vector Node m) {count : Int32} {picked : List (Fin m)}
    (hready : (Node.ready nodes.toList).length = n) (hpicked : picked.Nodup)
    (hsub : ∀ i ∈ picked, (nodes.get i).isReady = true)
    (hcount : (picked.length : Int) = count.toInt) :
    (Finset.univ.filter fun draws : Draws n =>
      selectPositions nodes { type := Strategy.random.name, count } (.of draws) =
        .ok picked).card = (n - picked.length).factorial := by
  rw [length_ready_toList] at hready
  subst hready
  have hmem : picked ⊆ readyBy nodes.get (List.finRange m) := fun i hi =>
    List.mem_filter.2 ⟨List.mem_finRange i, hsub i hi⟩
  have hnodup : (readyBy nodes.get (List.finRange m)).Nodup := (List.nodup_finRange m).filter _
  have hlimit : count.toInt.toNat = picked.length := by omega
  rw [← Draws.card_shuffle_take hnodup hpicked hmem]
  congr 1
  refine Finset.filter_congr fun draws _ => ?_
  rw [selectPositions, selectBy_random, hlimit, Except.ok.injEq]

end Choices

/-- **A random selection is fair.** Of all values of the draws for `n` ready nodes, of which there
are `n` factorial, each list of as many different ready positions as are asked for is selected by
equally many. A draw is fair as well: an index of any range is given by as many words as the zeros
in front of the range say, by the arithmetic of machine words, and all other words are rejected. -/
theorem random_selection_fair :
    (∀ {m n : Nat} (nodes : Vector Node m), (Node.ready nodes.toList).length = n →
      ∀ count : Int32,
        let spec : StrategySpec := { type := Strategy.random.name, count }
        Fintype.card (Draws n) = n.factorial ∧
        (∀ draws : Draws n, select nodes.toList spec (.of draws) =
          (selectPositions nodes spec (.of draws)).map (List.map nodes.get)) ∧
        ∀ picked : List (Fin m), picked.Nodup → (∀ i ∈ picked, (nodes.get i).isReady = true) →
          (picked.length : Int) = count.toInt →
          (Finset.univ.filter fun draws : Draws n =>
            selectPositions nodes spec (.of draws) = .ok picked).card =
              (n - picked.length).factorial) ∧
      ∀ n : Nat, n + 1 < 2 ^ 32 →
        let zeros := (BitVec.ofNat 32 (n + 1)).clz.toNat
        (∀ word : Generator.Word,
          (Generator.accept n word).map (fun j => BitVec.ofNat 32 j) =
            Generator.acceptBits (BitVec.ofNat 32 (n + 1)) (BitVec.ofNat 32 word)) ∧
        (∀ j : Fin (n + 1),
          (Finset.univ.filter fun word => Generator.accept n word = some j).card = 2 ^ zeros) ∧
        (Finset.univ.filter fun word => Generator.accept n word = none).card =
          2 ^ 32 - 2 ^ zeros * (n + 1) := by
  constructor
  · intro m n nodes hready count spec
    refine ⟨Draws.card_draws n, fun draws => select_toList nodes spec _, ?_⟩
    intro picked hpicked hsub hcount
    exact card_selectPositions nodes hready hpicked hsub hcount
  · intro n hn zeros
    have hzeros : Generator.leadingZeros (n + 1) = zeros := Generator.leadingZeros_range hn
    rw [← hzeros]
    exact ⟨fun word => (Generator.acceptBits_eq hn word).symm, Generator.card_accept_some hn,
      Generator.card_accept_none hn⟩

/-- Four nodes, of which one is not ready. -/
def fourNodes : Vector Node 4 :=
  #v[.plain "a" "True" [], .plain "b" "False" [], .plain "c" "True" [], .plain "d" "True" []]

/-- Of the six values of the draws for the three ready nodes, one selects the last node and then the
first one. Of the words for an index below three, a quarter give each index and a quarter none. -/
theorem random_selection_fair_fourNodes :
    (Fintype.card (Draws 3) = 6 ∧
      (Finset.univ.filter fun draws : Draws 3 =>
        selectPositions fourNodes { type := "random", count := 2 } (.of draws) =
          .ok [3, 0]).card = 1) ∧
      (∀ j : Fin 3,
        (Finset.univ.filter fun word => Generator.accept 2 word = some j).card = 2 ^ 30) ∧
      (Finset.univ.filter fun word => Generator.accept 2 word = none).card = 2 ^ 30 := by
  obtain ⟨hchoices, hwords⟩ := random_selection_fair
  have hready : (Node.ready fourNodes.toList).length = 3 := by decide +kernel
  constructor
  · obtain ⟨hdraws, -, hpicked⟩ := hchoices fourNodes hready 2
    exact ⟨hdraws, hpicked [3, 0] (by decide) (by decide +kernel) (by decide)⟩
  · obtain ⟨-, hsome, hnone⟩ := hwords 2 (by decide)
    have hzeros : (BitVec.ofNat 32 (2 + 1)).clz.toNat = 30 := by decide +kernel
    rw [hzeros] at hsome hnone
    exact ⟨hsome, hnone⟩

end FleetLabels
