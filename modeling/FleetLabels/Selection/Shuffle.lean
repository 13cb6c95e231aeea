/-!
# Shuffling

A shuffle of `n` positions swaps, for each position from the last one down, the position with one
drawn from those up to it. The draws are a value of their own, `Draws n`: one index below `n`, one
below `n - 1`, and so on. There are `n!` of them, and each order of the positions is the result of
exactly one.
-/

namespace FleetLabels

/-- The draws of a shuffle, that for the last position first. -/
inductive Draws : Nat → Type where
  | none : Draws 0
  | next {n : Nat} (index : Fin (n + 1)) (rest : Draws n) : Draws (n + 1)
  deriving DecidableEq, Repr

namespace Draws

/-- The draws that leave every position where it is. -/
def still : (n : Nat) → Draws n
  | 0 => .none
  | n + 1 => .next (Fin.last n) (still n)

variable {α : Type}

/-- The vector after the swaps that the draws ask for; positions from `n` on stay. -/
def swaps {n m : Nat} (draws : Draws n) (h : n ≤ m) (v : Vector α m) : Vector α m :=
  match draws with
  | .none => v
  | .next (n := k) index rest => rest.swaps (by omega) (v.swap k index (by omega) (by omega))

/-- The list after the swaps that the draws ask for. -/
def shuffle (l : List α) (draws : Draws l.length) : List α :=
  (draws.swaps (Nat.le_refl _) ⟨l.toArray, by simp⟩).toList

theorem swaps_perm {n m : Nat} (draws : Draws n) (h : n ≤ m) (v : Vector α m) :
    (draws.swaps h v).Perm v := by
  induction draws generalizing v with
  | none => exact Vector.Perm.refl v
  | next index rest ih =>
      exact (ih (by omega) _).trans (Vector.swap_perm (by omega) (by omega))

/-- A shuffle only changes the order. -/
theorem shuffle_perm (l : List α) (draws : Draws l.length) : (shuffle l draws).Perm l := by
  have h := swaps_perm draws (Nat.le_refl _) (⟨l.toArray, by simp⟩ : Vector α l.length)
  simpa [shuffle, Vector.perm_iff_toList_perm] using h

end Draws

end FleetLabels
