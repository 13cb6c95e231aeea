import FleetLabels.Proofs.Ownership

/-!
# What a pass does to one node

A pass does to each node one of two things: it settles it by the selection, or it cleans it. Both
are local to the keys of the policy: they read no other label and change no other label. Two such
actions with no key in common therefore commute, which is all that passes of different policies need
to know of each other. Both are done for good: done again, they change nothing.

## Main results

* `Node.Local.comm` — local actions with disjoint keys commute, on the whole node.
* `Policy.local_settled`, `Node.local_cleaned` — settling and cleaning are local.
* `Policy.settled_settled`, `Node.cleaned_cleaned` — and idempotent.
-/

namespace FleetLabels

/-- An action on nodes that changes labels under the given keys only, by what stands under them. -/
structure Node.Local (keys : String → Prop) (act : Node → Node) : Prop where
  bare : ∀ n, (act n).bare = n.bare
  frame : ∀ n k, ¬keys k → (act n).labels.get? k = n.labels.get? k
  congr : ∀ n n', n.bare = n'.bare → (∀ k, keys k → n.labels.get? k = n'.labels.get? k) →
    ∀ k, keys k → (act n).labels.get? k = (act n').labels.get? k
  /-- Nodes that had no labels at all get some by their names, if they get any. -/
  labeled : ∃ names : List String, ∀ n,
    (act n).isLabeled = (n.isLabeled || decide (n.name ∈ names))

namespace Node.Local

variable {K L : String → Prop} {F G : Node → Node}

/-- Where one action looks, the other one has changed nothing. -/
private theorem get?_comm_of_keys (hF : Local K F) (hG : Local L G) (hKL : ∀ k, K k → ¬L k)
    (n : Node) {k : String} (hk : K k) :
    (F (G n)).labels.get? k = (G (F n)).labels.get? k := by
  have hsame : ∀ k', K k' → (G n).labels.get? k' = n.labels.get? k' :=
    fun k' hk' => hG.frame n k' (hKL k' hk')
  rw [hF.congr _ _ (hG.bare n) hsame k hk, hG.frame _ k (hKL k hk)]

theorem comm (hF : Local K F) (hG : Local L G) (hKL : ∀ k, K k → ¬L k) (n : Node) :
    F (G n) = G (F n) := by
  refine ext_parts ?_ ?_ fun k => ?_
  · rw [hF.bare, hG.bare, hG.bare, hF.bare]
  · obtain ⟨namesF, hlabeledF⟩ := hF.labeled
    obtain ⟨namesG, hlabeledG⟩ := hG.labeled
    rw [hlabeledF, hlabeledG, hlabeledG, hlabeledF, name_eq_of_bare_eq (hF.bare n),
      name_eq_of_bare_eq (hG.bare n)]
    exact Bool.or_right_comm ..
  · by_cases hk : K k
    · exact get?_comm_of_keys hF hG hKL n hk
    · by_cases hl : L k
      · have hLK : ∀ k, L k → ¬K k := fun k hl hk => hKL k hk hl
        exact (get?_comm_of_keys hG hF hLK n hl).symm
      · rw [hF.frame _ k hk, hG.frame _ k hl, hG.frame _ k hl, hF.frame _ k hk]

end Node.Local

/-! ## Settling -/

namespace Policy

/-- The keys that the pass of a live policy may change. -/
def Touches (p : Policy) (k : String) : Prop := k = p.markerKey ∨ k ∈ p.spec.labels.keys

instance (p : Policy) (k : String) : Decidable (p.Touches k) := inferInstanceAs (Decidable (_ ∨ _))

variable (p : Policy) (selected : List String)

theorem get?_settled (n : Node) (k : String) :
    (p.settled selected n).labels.get? k =
      if n.name ∈ selected then
        (if k = p.markerKey then some Marker.value
          else (p.spec.labels.get? k).or (n.labels.get? k))
      else if n.isManagedBy p.markerKey = true ∧ p.Touches k then none
      else n.labels.get? k := by
  by_cases hmem : n.name ∈ selected
  · rw [settled_of_mem hmem, Node.get?_joined, if_pos hmem]
  · rw [if_neg hmem]
    cases hmarked : n.isManagedBy p.markerKey with
    | false => rw [settled_of_unmarked hmem hmarked, if_neg (by simp)]
    | true => simp only [settled_of_marked hmem hmarked, Node.get?_left, Touches, true_and]

theorem isLabeled_settled (n : Node) :
    (p.settled selected n).isLabeled = (n.isLabeled || decide (n.name ∈ selected)) := by
  by_cases hmem : n.name ∈ selected
  · rw [settled_of_mem hmem, Node.isLabeled_joined, decide_eq_true hmem, Bool.or_true]
  · rw [decide_eq_false hmem, Bool.or_false]
    cases hmarked : n.isManagedBy p.markerKey with
    | false => rw [settled_of_unmarked hmem hmarked]
    | true =>
        rw [settled_of_marked hmem hmarked, Node.isLabeled_of_isManagedBy hmarked]
        rfl

theorem local_settled {keys : String → Prop} (hkeys : ∀ k, p.Touches k → keys k) :
    Node.Local keys (p.settled selected) where
  bare := p.bare_settled selected
  frame n k hk := by
    obtain ⟨hmarker, hdeclared⟩ := not_or.1 fun htouched => hk (hkeys k htouched)
    exact get?_settled_of_other hmarker hdeclared
  congr n n' hbare hsame k hk := by
    have hname : n.name = n'.name := Node.name_eq_of_bare_eq hbare
    have hmarked : n.isManagedBy p.markerKey = n'.isManagedBy p.markerKey := by
      rw [Node.isManagedBy, hsame _ (hkeys _ (.inl rfl)), Node.isManagedBy]
    rw [get?_settled, get?_settled, hname, hmarked, hsame k hk]
  labeled := ⟨selected, p.isLabeled_settled selected⟩

theorem settled_settled (n : Node) :
    p.settled selected (p.settled selected n) = p.settled selected n := by
  by_cases hmem : n.name ∈ selected
  · refine Node.ext_parts (p.bare_settled ..) ?_ fun k => ?_
    · rw [isLabeled_settled, isLabeled_settled, name_settled, Bool.or_assoc, Bool.or_self]
    · rw [get?_settled, name_settled, if_pos hmem, get?_settled, if_pos hmem]
      by_cases hk : k = p.markerKey
      · rw [if_pos hk, if_pos hk]
      · rw [if_neg hk, if_neg hk]
        cases p.spec.labels.get? k <;> rfl
  · have hunmarked : (p.settled selected n).isManagedBy p.markerKey = false :=
      (p.isManagedBy_settled_eq_false selected n).2 hmem
    exact settled_of_unmarked ((p.name_settled selected n).symm ▸ hmem) hunmarked

end Policy

/-! ## Cleaning -/

namespace Node

variable (policy : String) (declared : Labels)

theorem get?_cleaned (n : Node) (k : String) :
    (n.cleaned policy declared).labels.get? k =
      if n.isManagedBy (Marker.key policy) = true ∧ Owned policy declared k then none
      else n.labels.get? k := by
  unfold cleaned
  cases hmarked : n.isManagedBy (Marker.key policy) with
  | false => rw [if_neg Bool.false_ne_true, if_neg (by simp)]
  | true => simp only [if_true, get?_stripped, Owned, true_and]

theorem isLabeled_cleaned (n : Node) : (n.cleaned policy declared).isLabeled = n.isLabeled := by
  unfold cleaned
  split
  next hmarked =>
    rw [isLabeled_of_isManagedBy hmarked]
    rfl
  next => rfl

theorem local_cleaned : Local (Owned policy declared) (Node.cleaned policy declared) where
  bare := bare_cleaned policy declared
  frame n k hk := by rw [get?_cleaned, if_neg fun h => hk h.2]
  congr n n' hbare hsame k hk := by
    have hmarked : n.isManagedBy (Marker.key policy) = n'.isManagedBy (Marker.key policy) := by
      rw [isManagedBy, hsame _ (owned_key policy declared), isManagedBy]
    rw [get?_cleaned, get?_cleaned, hmarked, hsame k hk]
  labeled := ⟨[], fun n => by rw [isLabeled_cleaned]; simp⟩

theorem cleaned_cleaned (n : Node) :
    (n.cleaned policy declared).cleaned policy declared = n.cleaned policy declared := by
  rw [cleaned, if_neg]
  rw [isManagedBy_cleaned]
  exact Bool.false_ne_true

end Node

end FleetLabels
