import FleetLabels.Proofs.Exchanges
import FleetLabels.Proofs.InMemory

/-!
# When a node that joins is written

The labels of a node that joins the selection are set one key at a time, and the node is written if
some key had to be set on the way. That is the same as to write it if its labels are different in
the end, with one exception. The marker comes after the declared labels, so that a policy which
declares another value under the key of its own marker sets that value first and the marker over it:
there is always something to set, and the node is written at every pass even where the write
replaces its labels by themselves.

## Main results

* `Node.joined?_eq_none_iff_labels` — which nodes are not written.
* `Pass.calls_join` — what a store is asked when a node joins.
* `Pass.calls_join_contested` — a write that changes no label.
-/

namespace FleetLabels

/-- The declared labels have a value for the key of the marker, and not that of the marker. -/
def Labels.Contests (declared : Labels) (marker : String) : Prop :=
  ∃ v, declared.get? marker = some v ∧ v ≠ Marker.value

instance (declared : Labels) (marker : String) : Decidable (declared.Contests marker) :=
  match h : declared.get? marker with
  | none => .isFalse fun ⟨_, hv, _⟩ => nomatch h.symm.trans hv
  | some v =>
      decidable_of_iff (v ≠ Marker.value)
        ⟨fun hne => ⟨v, h, hne⟩, fun ⟨_, hv, hne⟩ => Option.some.inj (h.symm.trans hv) ▸ hne⟩

namespace Node

variable {n : Node} {declared : Labels} {marker : String}

/-- A node that lacks nothing of what is wanted has its final labels already. -/
theorem labels_joined_of_joined?_eq_none (h : n.joined? declared marker = none) :
    (n.joined declared marker).labels = n.labels := by
  rw [joined, h, Option.getD_none]

/-- A node cannot hold two values under the key of the marker. -/
theorem not_contests_of_joined?_eq_none (h : n.joined? declared marker = none) :
    ¬declared.Contests marker := by
  rintro ⟨v, hdeclared, hne⟩
  have hwanted := joined?_eq_none_iff.1 h
  have hvalue : n.labels.get? marker = some Marker.value :=
    hwanted (marker, Marker.value) (List.mem_append_right _ (List.mem_singleton_self _))
  have hentry : (marker, v) ∈ declared.entries := by
    obtain ⟨before, after, heq, -⟩ := List.lookup_eq_some_iff.1 hdeclared
    exact heq ▸ List.mem_append_right _ List.mem_cons_self
  have hother : n.labels.get? marker = some v := hwanted (marker, v) (List.mem_append_left _ hentry)
  exact hne (Option.some.inj (hother.symm.trans hvalue))

/-- A node is not written if its labels stay as they are and nobody contests the marker. -/
theorem joined?_eq_none_iff_labels :
    n.joined? declared marker = none ↔
      (n.joined declared marker).labels = n.labels ∧ ¬declared.Contests marker := by
  constructor
  · intro h
    exact ⟨labels_joined_of_joined?_eq_none h, not_contests_of_joined?_eq_none h⟩
  · rintro ⟨hsame, hfree⟩
    refine joined?_eq_none_iff.2 fun e he => ?_
    rw [← hsame, get?_joined]
    rcases List.mem_append.1 he with hdeclared | hmarked
    · have hvalue : declared.get? e.1 = some e.2 := KeyMap.get?_of_mem_entries hdeclared
      by_cases hkey : e.1 = marker
      · -- An uncontested marker may be declared, but only with its own value.
        have hmarker : e.2 = Marker.value :=
          Decidable.byContradiction fun hne => hfree ⟨e.2, hkey ▸ hvalue, hne⟩
        rw [if_pos hkey, hmarker]
      · rw [if_neg hkey, hvalue, Option.some_or]
    · obtain rfl := List.mem_singleton.1 hmarked
      exact if_pos rfl

end Node

namespace Pass

variable {σ : Type}

theorem calls_updateNode (handler : Handler σ) (n : Node) (s : σ) :
    (updateNode n).calls handler s = [.updateNode n] := by
  let next : (StoreCall.updateNode n).Answer → Pass Unit := fun _ => .done (.ok ())
  show ((Pass.ask (.updateNode n) next).exchanges handler s).map Exchange.call = _
  rcases exchanges_ask_cases handler (.updateNode n) next s with ⟨e, h⟩ | ⟨a, s', h⟩
  · rw [h]
    rfl
  · rw [h]
    rfl

/-- **When a node that joins is written.** Over any store, a node that joins the selection is
written with its final labels, once, if they are not the labels that it has, or if the declared
labels contest the marker. Otherwise the store is not asked anything. -/
theorem calls_join (handler : Handler σ) (declared : Labels) (marker : String) (n : Node) (s : σ) :
    ∃ final : Labels,
      (∀ k, final.get? k =
        if k = marker then some Marker.value else (declared.get? k).or (n.labels.get? k)) ∧
      (join declared marker n).calls handler s =
        if final ≠ n.labels ∨ declared.Contests marker then [.updateNode (n.withLabels final)]
        else [] := by
  refine ⟨(n.joined declared marker).labels, n.get?_joined declared marker, ?_⟩
  have hunwritten : ¬((n.joined declared marker).labels ≠ n.labels ∨ declared.Contests marker) ↔
      n.joined? declared marker = none := by
    rw [Node.joined?_eq_none_iff_labels, not_or, Decidable.not_not]
  rcases n.joined?_cases declared marker with hsome | ⟨hnone, -⟩
  · have hwritten : (n.joined declared marker).labels ≠ n.labels ∨ declared.Contests marker :=
      Decidable.byContradiction fun hnot => nomatch hsome.symm.trans (hunwritten.1 hnot)
    rw [if_pos hwritten, join, hsome, Node.labels_joined]
    exact calls_updateNode handler _ s
  · rw [if_neg (hunwritten.2 hnone), join, hnone]
    rfl

/-- The node carries the marker, and the policy declares another value under its key: the node is
replaced by itself. -/
theorem calls_join_contested :
    let n := Node.plain "a" "True" [(Marker.key "web", "true")]
    (join (.ofList [(Marker.key "web", "false")]) (Marker.key "web") n).calls Fleet.handler
      { nodes := [n] } = [.updateNode n] := by
  decide +kernel

end Pass

end FleetLabels
