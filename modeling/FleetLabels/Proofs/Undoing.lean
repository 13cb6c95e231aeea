import FleetLabels.Proofs.InMemory

/-!
# Joining and its two ends

A node that has joined the selection of a policy loses its labels again in one of two ways: it leaves
the selection, or the policy goes and is cleaned up after. Either way it is left with the labels that
it had before it joined, but for the keys that the way takes away: the marker and the declared keys
when it leaves, the whole key space of the policy and the declared keys when it is cleaned. So both
give a node that had none of these keys exactly what it had before.

What joining has set is of no account, since all of it is under keys that are taken away. This holds
for any declared labels, be they under the key of the marker or elsewhere in the key space.

## Main results

* `Node.labels_left_joined`, `Node.labels_stripped_joined` — the labels at either end.
* `Pass.run_join`, `Pass.run_leaveUnselected` — both loops over a fleet in memory.
* `joining_undone` — the two ways back, for a node by itself and in a fleet.
-/

namespace FleetLabels

namespace Node

variable (n : Node) (declared : Labels)

/-- Leaving takes away all that joining has set. -/
theorem labels_left_joined (marker : String) :
    ((n.joined declared marker).left declared marker).labels =
      n.labels.minus fun k => k = marker ∨ k ∈ declared.keys := by
  refine KeyMap.ext_get? fun k => ?_
  rw [labels_left, Labels.get?_minus, Labels.get?_minus]
  by_cases hgone : k = marker ∨ k ∈ declared.keys
  · rw [if_pos hgone, if_pos hgone]
  · obtain ⟨hmarker, hdeclared⟩ := not_or.1 hgone
    rw [if_neg hgone, if_neg hgone, get?_joined, if_neg hmarker,
      KeyMap.get?_eq_none_of_notMem hdeclared, Option.none_or]

/-- So does a cleanup, and more with it. -/
theorem labels_stripped_joined (policy : String) :
    ((n.joined declared (Marker.key policy)).stripped policy declared).labels =
      n.labels.minus (Owned policy declared) := by
  refine KeyMap.ext_get? fun k => ?_
  rw [labels_stripped, Labels.get?_minus, Labels.get?_minus]
  by_cases howned : Owned policy declared k
  · rw [if_pos howned, if_pos howned]
  · rw [if_neg howned, if_neg howned, get?_joined_of_not_owned howned]

end Node

namespace Pass

variable {f : Fleet} (hdistinct : DistinctNames f.nodes)

include hdistinct

/-- A node of the fleet that joins is what it is to be afterwards, whether it was written or not. -/
theorem run_join {n : Node} (hn : n ∈ f.nodes) (declared : Labels) (marker : String) :
    (join declared marker n).run Fleet.handler f =
      (.ok (), { f with nodes := Fleet.actOn [n] (·.joined declared marker) f.nodes }) := by
  unfold join
  cases hjoin : n.joined? declared marker with
  | none =>
      rw [Fleet.actOn_eq_self fun m hm => ?_]
      · rfl
      · rw [List.mem_singleton.1 hm, Node.joined, hjoin, Option.getD_none]
  | some updated =>
      have hupdated : n.joined declared marker = updated := by rw [Node.joined, hjoin]; rfl
      have hname : updated.name ∈ f.nodes.map Node.name :=
        name_of_joined? n updated hjoin ▸ List.mem_map_of_mem hn
      have hsub : [n] ⊆ f.nodes := List.cons_subset.2 ⟨hn, List.nil_subset f.nodes⟩
      rw [← Fleet.overlay_map_of_subset hdistinct hsub fun m => m.name_joined declared marker,
        List.map_singleton, hupdated]
      exact run_updateNode hdistinct hname

/-- The marked nodes that are not selected leave. -/
theorem run_leaveUnselected (selected : List Node) (declared : Labels) (marker : String) :
    (leaveUnselected f.nodes selected declared marker).run Fleet.handler f =
      (.ok (), { f with
        nodes := Fleet.actOn (unselected f.nodes selected marker) (·.left declared marker)
          f.nodes }) := by
  have hsub : unselected f.nodes selected marker ⊆ f.nodes := unselected_subset marker
  have hnames : ((unselected f.nodes selected marker).map (·.left declared marker)).map Node.name =
      (unselected f.nodes selected marker).map Node.name := by
    rw [List.map_map]
    rfl
  have hwrites : DistinctNames ((unselected f.nodes selected marker).map (·.left declared marker)) :=
    (hdistinct.filter _).map fun m => m.name_left declared marker
  have hlisted := hnames ▸ List.map_subset Node.name hsub
  rw [leaveUnselected_eq, run_writeAll hdistinct hwrites hlisted,
    Fleet.overlay_map_of_subset hdistinct hsub fun m => m.name_left declared marker]

end Pass

/-- **Joining undone.** A node that joins the selection of a policy and leaves it again has the
labels that it had before, but for the marker and the declared keys; one that joins and is cleaned
has them but for the key space of the policy and the declared keys. A node that had no such key gets
its labels back, and nothing but labels is ever changed. In a fleet in memory, this is what becomes
of a node whose labels are applied, if it is then listed among the unselected ones, or if the policy
is then cleaned up after. -/
theorem joining_undone (n : Node) (policy : String) (declared : Labels) :
    let marker := Marker.key policy
    let joined := n.joined declared marker
    let left := joined.left declared marker
    let stripped := joined.stripped policy declared
    (left.labels = n.labels.minus fun k => k = marker ∨ k ∈ declared.keys) ∧
      ((∀ k ∈ n.labels.keys, ¬(k = marker ∨ k ∈ declared.keys)) → left.labels = n.labels) ∧
      stripped.labels = n.labels.minus (Owned policy declared) ∧
      ((∀ k ∈ n.labels.keys, ¬Owned policy declared k) → stripped.labels = n.labels) ∧
      left.bare = n.bare ∧ stripped.bare = n.bare ∧
      ∀ f : Fleet, DistinctNames f.nodes → n ∈ f.nodes →
        ∃ f₁, (Pass.join declared marker n).run Fleet.handler f = (.ok (), f₁) ∧
          f₁.node? n.name = some joined ∧
          (∀ selected : List Node, n.name ∉ selected.map Node.name →
            ∃ f₂, (Pass.leaveUnselected f₁.nodes selected declared marker).run Fleet.handler f₁ =
              (.ok (), f₂) ∧ f₂.node? n.name = some left) ∧
          ∃ count f₂, (Pass.cleanup policy declared).run Fleet.handler f₁ = (.ok count, f₂) ∧
            f₂.node? n.name = some stripped := by
  intro marker joined left stripped
  have hleft : left.labels = n.labels.minus fun k => k = marker ∨ k ∈ declared.keys :=
    n.labels_left_joined declared marker
  have hstripped : stripped.labels = n.labels.minus (Owned policy declared) :=
    n.labels_stripped_joined declared policy
  have hjoined : joined.bare = n.bare := n.bare_joined declared marker
  have hmarked : joined.isManagedBy marker = true := n.isManagedBy_joined declared marker
  have hname : joined.name = n.name := Node.name_eq_of_bare_eq hjoined
  refine ⟨hleft, fun hfree => ?_, hstripped, fun hfree => ?_, hjoined, hjoined, ?_⟩
  · rw [hleft, Labels.minus_eq_self _ _ hfree]
  · rw [hstripped, Labels.minus_eq_self _ _ hfree]
  · intro f hdistinct hn
    have hdistinct₁ : DistinctNames (Fleet.actOn [n] (·.joined declared marker) f.nodes) :=
      Fleet.distinctNames_actOn hdistinct fun m => m.name_joined declared marker
    have hmem : joined ∈ Fleet.actOn [n] (·.joined declared marker) f.nodes :=
      Fleet.mem_actOn hn (List.mem_singleton_self n)
    refine ⟨_, Pass.run_join hdistinct hn declared marker, hname ▸ named?_of_mem hdistinct₁ hmem,
      fun selected hout => ?_, ?_⟩
    · refine ⟨_, Pass.run_leaveUnselected hdistinct₁ selected declared marker, ?_⟩
      have hunselected := Pass.mem_unselected.2 ⟨hmem, hname.symm ▸ hout, hmarked⟩
      exact hname ▸ named?_of_mem
        (Fleet.distinctNames_actOn hdistinct₁ fun m => m.name_left declared marker)
        (Fleet.mem_actOn hmem hunselected)
    · refine ⟨_, _, Pass.run_cleanup hdistinct₁ policy declared, ?_⟩
      exact hname ▸ named?_of_mem (hdistinct₁.map fun m => m.name_cleaned policy declared)
        (List.mem_map.2 ⟨joined, hmem, if_pos hmarked⟩)

/-- A node that has a declared key already, and a label that is nobody's. -/
def taggedNode : Node := .plain "a" "True" [("tier", "old"), ("zone", "1")]

/-- Labels under the key of the marker and elsewhere in the key space of the policy. -/
def intrusiveLabels : Labels :=
  .ofList [(Marker.key "web", "no"), (Marker.keySpace "web" ++ "ring", "2"), ("tier", "front")]

/-- What remains after leaving and after a cleanup is the label that is nobody's, and a node that had
no other gets back what it had. -/
theorem joining_undone_taggedNode :
    let fleet : Fleet := { nodes := [taggedNode, .plain "b" "True" []] }
    let marker := Marker.key "web"
    let plain : Node := .plain "c" "True" [("zone", "1")]
    (∃ f₁ f₂ n, (Pass.join intrusiveLabels marker taggedNode).run Fleet.handler fleet =
        (.ok (), f₁) ∧
      (Pass.leaveUnselected f₁.nodes [] intrusiveLabels marker).run Fleet.handler f₁ =
        (.ok (), f₂) ∧
      f₂.node? "a" = some n ∧ n.labels = .ofList [("zone", "1")]) ∧
    ((plain.joined intrusiveLabels marker).stripped "web" intrusiveLabels).labels = plain.labels := by
  intro fleet marker plain
  obtain ⟨hlabels, -, -, -, -, -, hfleets⟩ := joining_undone taggedNode "web" intrusiveLabels
  obtain ⟨-, -, -, hfree, -⟩ := joining_undone plain "web" intrusiveLabels
  obtain ⟨f₁, hjoin, -, hleave, -⟩ := hfleets fleet (by decide) (by decide)
  obtain ⟨f₂, hleft, hnode⟩ := hleave [] (by decide)
  refine ⟨⟨f₁, f₂, _, hjoin, hleft, hnode, ?_⟩, hfree (by decide)⟩
  rw [hlabels]
  decide

end FleetLabels
