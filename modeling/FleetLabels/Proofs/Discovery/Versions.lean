import FleetLabels.Discovery.Check
import Mathlib.Data.List.Infix
import Mathlib.Order.Basic

/-!
# The recommended version of a group

A group of interfaces is served in several versions, of which one is recommended: the one that the
group prefers, or, if it prefers none, the most settled one. `ApiGroup.Recommends` says so without a
search. How settled a version is comes from its name, and different names can be equally settled; of
these the one that is listed first is taken.

## Main results

* `latestVersion_split` — the search ends at the first of the most settled versions.
* `recommended?_eq_some_iff` — the recommended version of a group.
-/

namespace FleetLabels

/-! ## The order of versions -/

namespace Priority

/-- The order in which names count for versions that are not named regularly: the smaller name is
the more settled version. -/
def compareName (a b : Priority) : Ordering := compareOn name b a

instance : Std.TransCmp compareName :=
  inferInstanceAs (Std.TransCmp fun a b => compareOn name b a)

instance : Std.TransCmp Priority.compare :=
  inferInstanceAs (Std.TransCmp (compareLex (compareOn (·.stability.rank))
    (compareLex (compareOn major) (compareLex (compareOn minor) compareName))))

end Priority

/-- Which of two versions is the more settled one, the larger being so. -/
def compareVersion (v w : String) : Ordering :=
  (Priority.ofVersion v).compare (Priority.ofVersion w)

instance : Std.TransCmp compareVersion where
  eq_swap {_ _} := @Std.OrientedCmp.eq_swap _ Priority.compare _ _ _
  isLE_trans {_ _ _} := @Std.TransCmp.isLE_trans _ Priority.compare _ _ _ _

/-- One version after the other: a version takes the place of the best so far only if it is more
settled. -/
theorem latestVersion_append (first : String) (rest : List String) (v : String) :
    latestVersion first (rest ++ [v]) =
      if compareVersion v (latestVersion first rest) = .gt then v else latestVersion first rest := by
  rw [latestVersion, List.foldl_append]
  rfl

/-- A version of a list that is the most settled one, and the first such. -/
def IsLatest (w : String) (versions : List String) : Prop :=
  ∃ front back, versions = front ++ w :: back ∧ (∀ v ∈ front, compareVersion v w = .lt) ∧
    ∀ v ∈ back, compareVersion v w ≠ .gt

theorem IsLatest.append_of_gt {w v : String} {versions : List String} (h : IsLatest w versions)
    (hv : compareVersion v w = .gt) : IsLatest v (versions ++ [v]) := by
  have hlt : compareVersion w v = .lt := Std.OrientedCmp.lt_of_gt hv
  obtain ⟨front, back, rfl, hfront, hback⟩ := h
  refine ⟨front ++ w :: back, [], by simp, fun u hu => ?_, by simp⟩
  simp only [List.mem_append, List.mem_cons] at hu
  rcases hu with hu | rfl | hu
  · exact Std.TransCmp.lt_trans (hfront u hu) hlt
  · exact hlt
  · exact Std.TransCmp.lt_of_isLE_of_lt (Ordering.isLE_iff_ne_gt.2 (hback u hu)) hlt

theorem IsLatest.append_of_ne_gt {w v : String} {versions : List String} (h : IsLatest w versions)
    (hv : compareVersion v w ≠ .gt) : IsLatest w (versions ++ [v]) := by
  obtain ⟨front, back, rfl, hfront, hback⟩ := h
  refine ⟨front, back ++ [v], by simp, hfront, fun u hu => ?_⟩
  simp only [List.mem_append, List.mem_singleton] at hu
  rcases hu with hu | rfl
  · exact hback u hu
  · exact hv

/-- The search ends at the first of the most settled versions. -/
theorem isLatest_latestVersion (first : String) (rest : List String) :
    IsLatest (latestVersion first rest) (first :: rest) := by
  induction rest using List.reverseRecOn with
  | nil => exact ⟨[], [], rfl, by simp, by simp⟩
  | append_singleton rest v ih =>
      rw [latestVersion_append, ← List.cons_append]
      by_cases hv : compareVersion v (latestVersion first rest) = .gt
      · rw [if_pos hv]
        exact ih.append_of_gt hv
      · rw [if_neg hv]
        exact ih.append_of_ne_gt hv

/-- There is one such version only. -/
theorem IsLatest.unique {w w' : String} {versions : List String} (h : IsLatest w versions)
    (h' : IsLatest w' versions) : w = w' := by
  obtain ⟨front, back, rfl, hfront, hback⟩ := h
  obtain ⟨front', back', heq, hfront', hback'⟩ := h'
  rcases List.append_eq_append_iff.1 heq with ⟨mid, rfl, hmid⟩ | ⟨mid, rfl, hmid⟩
  · cases mid with
    | nil => exact (List.cons_eq_cons.1 hmid).1
    | cons u mid =>
        obtain ⟨rfl, rfl⟩ := List.cons_eq_cons.1 hmid
        have hlt : compareVersion w w' = .lt := hfront' w (by simp)
        exact absurd (Std.OrientedCmp.gt_of_lt hlt) (hback w' (by simp))
  · cases mid with
    | nil => exact (List.cons_eq_cons.1 hmid).1.symm
    | cons u mid =>
        obtain ⟨rfl, rfl⟩ := List.cons_eq_cons.1 hmid
        have hlt : compareVersion w' w = .lt := hfront w' (by simp)
        exact absurd (Std.OrientedCmp.gt_of_lt hlt) (hback' w (by simp))

/-! ## The recommended version -/

/-- The group recommends a version: the one that it prefers, whether it lists it or not, or else the
most settled one that it lists. -/
inductive ApiGroup.Recommends (g : ApiGroup) : String → Prop where
  | preferred {v : GroupVersion} (hlists : g.versions ≠ []) (h : g.preferredVersion = some v) :
      Recommends g v.version
  | latest {w : String} (hnone : g.preferredVersion = none)
      (h : IsLatest w (g.versions.map (·.version))) : Recommends g w

/-- The version that is taken is the one that the group recommends. -/
theorem Discovery.recommended?_eq_some_iff {g : ApiGroup} {w : String} :
    recommended? g = some w ↔ g.Recommends w := by
  unfold recommended?
  cases hversions : g.versions.map (·.version) with
  | nil =>
      have hnil : g.versions = [] := List.map_eq_nil_iff.1 hversions
      constructor
      · intro h
        cases h
      · rintro (⟨hlists, -⟩ | ⟨-, front, back, hsplit, -⟩)
        · exact absurd hnil hlists
        · simp [hversions] at hsplit
  | cons first rest =>
      have hlists : g.versions ≠ [] := fun hnil => by simp [hnil] at hversions
      cases hpreferred : g.preferredVersion with
      | some v =>
          simp only [Option.map_some, Option.getD_some, Option.some.injEq]
          constructor
          · rintro rfl
            exact .preferred hlists hpreferred
          · rintro (⟨-, h⟩ | ⟨hnone, -⟩)
            · rw [Option.some.inj (hpreferred.symm.trans h)]
            · simp [hpreferred] at hnone
      | none =>
          simp only [Option.map_none, Option.getD_none, Option.some.injEq]
          have hlatest := isLatest_latestVersion first rest
          constructor
          · rintro rfl
            exact .latest hpreferred (hversions ▸ hlatest)
          · rintro (⟨-, h⟩ | ⟨-, h⟩)
            · simp [hpreferred] at h
            · exact hlatest.unique (hversions ▸ h)

end FleetLabels
