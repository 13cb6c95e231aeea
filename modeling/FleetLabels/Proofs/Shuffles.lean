import FleetLabels.Selection.Basic
import Mathlib.Data.Fintype.EquivFin
import Mathlib.Data.Fintype.Prod
import Mathlib.Data.List.Permutation

/-!
# Shuffles and their draws

A shuffle asks for one draw a position, from the last position down, and each draw is an index among
the positions that are still to be filled. Two things are said of it here. It moves positions and
not items, so that shuffling commutes with any change to the items (`shuffle_map`). And its draws
can be read off its result: the draw for a position decides which item ends there, and no later swap
touches that position again. Different draws therefore give different orders, and since there are as
many draws as there are orders, every order comes from exactly one of them.

Counting then is counting orders. Those that begin with given items are the orders of the items left
over, and there are as many as the factorial of their number.

## Main results

* `Draws.shuffle_map` — a shuffle does not look at what it moves.
* `Draws.shuffle_injective`, `Draws.exists_shuffle_eq` — every order comes from one value of the
  draws, and from no other.
* `Draws.card_draws` — how many values of the draws there are.
* `Draws.card_shuffle_take` — how many of them put given items in front, in a given order.
-/

namespace FleetLabels

namespace Draws

variable {α β : Type} {n m : Nat}

/-! ## What is moved does not count -/

theorem map_swap (f : α → β) (v : Vector α m) {i j : Nat} (hi : i < m) (hj : j < m) :
    (v.map f).swap i j hi hj = (v.swap i j hi hj).map f := by
  ext k hk
  simp only [Vector.getElem_map, Vector.getElem_swap]
  split
  · rfl
  · split <;> rfl

theorem swaps_map (f : α → β) (draws : Draws n) (h : n ≤ m) (v : Vector α m) :
    draws.swaps h (v.map f) = (draws.swaps h v).map f := by
  induction draws generalizing v with
  | none => rfl
  | next index rest ih => rw [swaps, swaps, map_swap, ih]

/-- The swaps of a shuffle, with the number of items told apart from the list. -/
theorem shuffle_eq_swaps (draws : DrawSource) {l : List α} (h : l.length = n) :
    shuffle l (draws l.length) =
      ((draws n).swaps (Nat.le_refl n) ⟨l.toArray, by simp [h]⟩).toList := by
  subst h
  rfl

theorem shuffle_map (f : α → β) (l : List α) (draws : DrawSource) :
    shuffle (l.map f) (draws (l.map f).length) = (shuffle l (draws l.length)).map f := by
  have hvector : (⟨(l.map f).toArray, by simp⟩ : Vector β l.length) =
      Vector.map f ⟨l.toArray, by simp⟩ := by
    ext k hk
    simp
  rw [shuffle_eq_swaps draws (List.length_map f), hvector, swaps_map, Vector.toList_map]
  rfl

/-! ## The draws of a result -/

/-- The draws leave the positions alone that are not among theirs. -/
theorem getElem_swaps_of_le (draws : Draws n) (h : n ≤ m) (v : Vector α m) {k : Nat} (hk : k < m)
    (hnk : n ≤ k) : (draws.swaps h v)[k] = v[k] := by
  induction draws generalizing v with
  | none => rfl
  | next index rest ih =>
      have hindex := index.isLt
      rw [swaps, ih (by omega) _ (by omega)]
      exact Vector.getElem_swap_of_ne (by omega) (by omega)

/-- In the last position stands what has been drawn for it. -/
theorem getElem_swaps_next (index : Fin (n + 1)) (rest : Draws n) (h : n + 1 ≤ m)
    (v : Vector α m) : ((next index rest).swaps h v)[n] = v[index.val] := by
  rw [swaps, getElem_swaps_of_le rest _ _ _ (Nat.le_refl n), Vector.getElem_swap_left]

/-- Draws that move distinct items alike are the same. -/
theorem eq_of_swaps_eq {draws draws' : Draws n} (h : n ≤ m) {v : Vector α m}
    (hdistinct : v.toList.Nodup) (heq : draws.swaps h v = draws'.swaps h v) : draws = draws' := by
  induction draws generalizing v with
  | none =>
      cases draws'
      rfl
  | @next k index rest ih =>
      cases draws' with
      | next index' rest' =>
          -- The items in the last position tell the first draws, and the rest is shuffled alike.
          have hlast : v[index.val] = v[index'.val] := by
            rw [← getElem_swaps_next index rest h, heq, getElem_swaps_next]
          have hbound : index.val < v.toList.length := by
            rw [Vector.length_toList]
            omega
          have hbound' : index'.val < v.toList.length := by
            rw [Vector.length_toList]
            omega
          have hitems : v.toList[index.val] = v.toList[index'.val] := by
            rw [Vector.getElem_toList, Vector.getElem_toList, hlast]
          have hindex : index.val = index'.val := hdistinct.getElem_inj_iff.1 hitems
          obtain rfl : index = index' := Fin.ext hindex
          have hdistinct' : (v.swap k index (by omega) (by omega)).toList.Nodup :=
            (Vector.perm_iff_toList_perm.1 (Vector.swap_perm _ _)).nodup_iff.2 hdistinct
          rw [ih (by omega) hdistinct' heq]

theorem shuffle_injective {l : List α} (hl : l.Nodup) : Function.Injective (shuffle l) := by
  intro draws draws' heq
  exact eq_of_swaps_eq (v := ⟨l.toArray, by simp⟩) (Nat.le_refl _) hl (Vector.toList_inj.1 heq)

/-! ## The number of draws -/

/-- Draws are the one for the last position and the others. -/
def equivProd (n : Nat) : Draws (n + 1) ≃ Fin (n + 1) × Draws n where
  toFun
    | .next index rest => (index, rest)
  invFun p := .next p.1 p.2
  left_inv
    | .next _ _ => rfl
  right_inv _ := rfl

instance instFintype : (n : Nat) → Fintype (Draws n)
  | 0 => ⟨{.none}, fun | .none => Finset.mem_singleton_self _⟩
  | n + 1 => have := instFintype n; .ofEquiv _ (equivProd n).symm

theorem card_draws (n : Nat) : Fintype.card (Draws n) = n.factorial := by
  induction n with
  | zero => rfl
  | succ n ih => rw [Fintype.card_congr (equivProd n), Fintype.card_prod, Fintype.card_fin, ih,
      Nat.factorial_succ]

section Counting

variable [DecidableEq α] {l picked : List α}

/-- The results of all shuffles are all orders. -/
theorem image_shuffle (hl : l.Nodup) :
    Finset.univ.image (shuffle l) = l.permutations.toFinset := by
  refine Finset.eq_of_subset_of_card_le ?_ ?_
  · intro order horder
    obtain ⟨draws, -, rfl⟩ := Finset.mem_image.1 horder
    exact List.mem_toFinset.2 (List.mem_permutations.2 (shuffle_perm l draws))
  · rw [Finset.card_image_of_injective _ (shuffle_injective hl), Finset.card_univ, card_draws,
      List.toFinset_card_of_nodup (List.nodup_permutations l hl), List.length_permutations]

theorem exists_shuffle_eq (hl : l.Nodup) {order : List α} (horder : order.Perm l) :
    ∃ draws, shuffle l draws = order := by
  have hmem : order ∈ Finset.univ.image (shuffle l) := by
    rw [image_shuffle hl]
    exact List.mem_toFinset.2 (List.mem_permutations.2 horder)
  obtain ⟨draws, -, heq⟩ := Finset.mem_image.1 hmem
  exact ⟨draws, heq⟩

/-- The picked items and those left over. -/
theorem append_filter_notMem_perm (hl : l.Nodup) (hpicked : picked.Nodup) (hsub : picked ⊆ l) :
    (picked ++ l.filter (· ∉ picked)).Perm l := by
  refine (List.perm_ext_iff_of_nodup ?_ hl).2 fun x => ?_
  · refine List.nodup_append.2 ⟨hpicked, hl.filter _, fun x hx y hy hxy => ?_⟩
    have hout : y ∉ picked := of_decide_eq_true (List.mem_filter.1 hy).2
    exact hout (hxy ▸ hx)
  · simp only [List.mem_append, List.mem_filter, decide_eq_true_eq]
    constructor
    · rintro (hx | ⟨hx, -⟩)
      · exact hsub hx
      · exact hx
    · intro hx
      by_cases hin : x ∈ picked
      · exact .inl hin
      · exact .inr ⟨hx, hin⟩

/-- Of all draws, those that put the picked items in front leave the order of the others open. -/
theorem card_shuffle_take (hl : l.Nodup) (hpicked : picked.Nodup) (hsub : picked ⊆ l) :
    (Finset.univ.filter fun draws => (shuffle l draws).take picked.length = picked).card =
      (l.length - picked.length).factorial := by
  have hperm := append_filter_notMem_perm hl hpicked hsub
  have hcard : (l.filter (· ∉ picked)).permutations.toFinset.card =
      (l.length - picked.length).factorial := by
    have hlength := hperm.length_eq
    rw [List.length_append] at hlength
    rw [List.toFinset_card_of_nodup (List.nodup_permutations _ (hl.filter _)),
      List.length_permutations]
    congr 1
    omega
  rw [← hcard]
  refine Finset.card_bij (fun draws _ => (shuffle l draws).drop picked.length) ?_ ?_ ?_
  case refine_1 =>
    intro draws hdraws
    have hfront := (Finset.mem_filter.1 hdraws).2
    have hsplit := (shuffle_perm l draws).trans hperm.symm
    rw [← List.take_append_drop picked.length (shuffle l draws), hfront] at hsplit
    exact List.mem_toFinset.2 (List.mem_permutations.2 ((List.perm_append_left_iff _).1 hsplit))
  case refine_2 =>
    intro draws hdraws draws' hdraws' hrest
    have hfront := (Finset.mem_filter.1 hdraws).2
    have hfront' := (Finset.mem_filter.1 hdraws').2
    refine shuffle_injective hl ?_
    rw [← List.take_append_drop picked.length (shuffle l draws),
      ← List.take_append_drop picked.length (shuffle l draws'), hfront, hfront', hrest]
  case refine_3 =>
    intro rest hrest
    have hrest' := List.mem_permutations.1 (List.mem_toFinset.1 hrest)
    obtain ⟨draws, hdraws⟩ := exists_shuffle_eq hl ((hrest'.append_left picked).trans hperm)
    refine ⟨draws, ?_, ?_⟩
    · rw [Finset.mem_filter, hdraws, List.take_left']
      · exact ⟨Finset.mem_univ _, rfl⟩
      · rfl
    · rw [hdraws]
      exact List.drop_left' rfl

end Counting

end Draws

end FleetLabels
