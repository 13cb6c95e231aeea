import FleetLabels.Fleet.Basic
import FleetLabels.Proofs.Labels
import Mathlib.Data.List.Nodup

/-!
# A fleet under a list of writes

A pass replaces nodes one after the other, each by name. Over a fleet whose names are distinct the
order of these replacements does not show, and all of them together are one map over the fleet:
`Fleet.overlay writes nodes`, in which a node gives way to the write of its name, if there is one.

This is the form in which every later statement speaks about the nodes of a fleet: what a pass has
yet to write is a list, and the fleet that it is heading for is the overlay of that list.

## Main results

* `Fleet.replaceNode_eq_overlay` — one replacement is the overlay of one write.
* `Fleet.overlay_cons` — writes may be made one after the other.
* `Fleet.mem_overlay` — what stands in an overlay is a write, or a node without one.
-/

namespace FleetLabels

/-- No two nodes go by the same name. -/
def DistinctNames (nodes : List Node) : Prop := (nodes.map Node.name).Nodup

instance (nodes : List Node) : Decidable (DistinctNames nodes) :=
  inferInstanceAs (Decidable (nodes.map Node.name).Nodup)

namespace DistinctNames

theorem eq_of_name_eq {nodes : List Node} (h : DistinctNames nodes) {n m : Node} (hn : n ∈ nodes)
    (hm : m ∈ nodes) (hname : n.name = m.name) : n = m :=
  List.inj_on_of_nodup_map h hn hm hname

/-- Whether a node of a fleet is in a part of it can be told by its name. -/
theorem name_mem_iff {part nodes : List Node} (h : DistinctNames nodes) (hpart : part ⊆ nodes)
    {n : Node} (hn : n ∈ nodes) : n.name ∈ part.map Node.name ↔ n ∈ part := by
  constructor
  · intro hname
    obtain ⟨m, hm, hmn⟩ := List.mem_map.1 hname
    exact h.eq_of_name_eq (hpart hm) hn hmn ▸ hm
  · exact fun hmem => List.mem_map_of_mem hmem

theorem tail {n : Node} {nodes : List Node} (h : DistinctNames (n :: nodes)) :
    DistinctNames nodes := (List.nodup_cons.1 h).2

theorem head_notMem {n : Node} {nodes : List Node} (h : DistinctNames (n :: nodes)) :
    n.name ∉ nodes.map Node.name := (List.nodup_cons.1 h).1

theorem filter {nodes : List Node} (h : DistinctNames nodes) (keep : Node → Bool) :
    DistinctNames (nodes.filter keep) :=
  List.Nodup.sublist (List.filter_sublist.map Node.name) h

theorem map {nodes : List Node} (h : DistinctNames nodes) {act : Node → Node}
    (hname : ∀ n, (act n).name = n.name) : DistinctNames (nodes.map act) := by
  have hnames : (nodes.map act).map Node.name = nodes.map Node.name := by
    rw [List.map_map]
    exact List.map_congr_left fun n _ => hname n
  rw [DistinctNames, hnames]
  exact h

theorem perm {nodes nodes' : List Node} (h : DistinctNames nodes) (hperm : nodes'.Perm nodes) :
    DistinctNames nodes' :=
  (hperm.map Node.name).nodup_iff.2 h

end DistinctNames

/-! ## Looking up a name -/

/-- The node of a name in a list, the first if there are several. -/
def named? (name : String) (nodes : List Node) : Option Node :=
  nodes.find? (·.name == name)

theorem named?_cons (name : String) (n : Node) (nodes : List Node) :
    named? name (n :: nodes) = if n.name = name then some n else named? name nodes := by
  unfold named?
  by_cases h : n.name = name <;> simp [h]

theorem named?_append (name : String) (l₁ l₂ : List Node) :
    named? name (l₁ ++ l₂) = (named? name l₁).or (named? name l₂) := List.find?_append

theorem named?_eq_none_iff {name : String} {nodes : List Node} :
    named? name nodes = none ↔ name ∉ nodes.map Node.name := by
  simp [named?]

theorem name_of_named? {name : String} {nodes : List Node} {n : Node}
    (h : named? name nodes = some n) : n.name = name := by
  simpa using List.find?_some h

theorem mem_of_named? {name : String} {nodes : List Node} {n : Node}
    (h : named? name nodes = some n) : n ∈ nodes := List.mem_of_find?_eq_some h

theorem exists_named? {name : String} {nodes : List Node} (h : name ∈ nodes.map Node.name) :
    ∃ n, named? name nodes = some n := by
  cases hn : named? name nodes with
  | none => exact absurd h (named?_eq_none_iff.1 hn)
  | some n => exact ⟨n, rfl⟩

/-- In a part of a fleet with distinct names, a name stands for the node of the fleet. -/
theorem named?_of_subset {part nodes : List Node} (h : DistinctNames nodes) (hpart : part ⊆ nodes)
    {n : Node} (hn : n ∈ nodes) :
    named? n.name part = if n.name ∈ part.map Node.name then some n else none := by
  split
  next hmem =>
    obtain ⟨m, hm⟩ := exists_named? hmem
    rw [hm, h.eq_of_name_eq (hpart (mem_of_named? hm)) hn (name_of_named? hm)]
  next hmem => exact named?_eq_none_iff.2 hmem

theorem named?_of_mem {nodes : List Node} (h : DistinctNames nodes) {n : Node} (hn : n ∈ nodes) :
    named? n.name nodes = some n := by
  rw [named?_of_subset h (List.Subset.refl nodes) hn, if_pos (List.mem_map_of_mem hn)]

theorem named?_filter {nodes : List Node} (h : DistinctNames nodes) (keep : Node → Bool)
    {n : Node} (hn : n ∈ nodes) :
    named? n.name (nodes.filter keep) = if keep n = true then some n else none := by
  have hmem : n.name ∈ (nodes.filter keep).map Node.name ↔ keep n = true := by
    constructor
    · intro hname
      obtain ⟨m, hm, hmn⟩ := List.mem_map.1 hname
      obtain ⟨hmnodes, hkeep⟩ := List.mem_filter.1 hm
      exact h.eq_of_name_eq hmnodes hn hmn ▸ hkeep
    · intro hkeep
      exact List.mem_map_of_mem (List.mem_filter.2 ⟨hn, hkeep⟩)
  rw [named?_of_subset h List.filter_sublist.subset hn, if_congr hmem rfl rfl]

theorem named?_filterMap {write : Node → Option Node}
    (hname : ∀ n n', write n = some n' → n'.name = n.name) {nodes : List Node}
    (h : DistinctNames nodes) (name : String) :
    named? name (nodes.filterMap write) = (named? name nodes).bind write := by
  induction nodes with
  | nil => rfl
  | cons n rest ih =>
      rw [named?_cons, List.filterMap_cons]
      by_cases heq : n.name = name
      · rw [if_pos heq, Option.bind_some]
        cases hw : write n with
        | none =>
            have hrest : named? name rest = none := named?_eq_none_iff.2 (heq ▸ h.head_notMem)
            rw [ih h.tail, hrest]
            rfl
        | some n' =>
            rw [named?_cons, if_pos ((hname n n' hw).trans heq)]
      · rw [if_neg heq, ← ih h.tail]
        cases hw : write n with
        | none => rfl
        | some n' =>
            rw [named?_cons, if_neg (fun heq' => heq ((hname n n' hw).symm.trans heq'))]

theorem named?_map {f : Node → Node} (hname : ∀ n, (f n).name = n.name) (name : String)
    (nodes : List Node) : named? name (nodes.map f) = (named? name nodes).map f := by
  induction nodes with
  | nil => rfl
  | cons n rest ih =>
      rw [List.map_cons, named?_cons, named?_cons, hname n, ih]
      split <;> rfl

/-! ## Overlays -/

namespace Fleet

/-- The nodes, each one giving way to the write of its name. -/
def overlay (writes nodes : List Node) : List Node :=
  nodes.map fun n => (named? n.name writes).getD n

/-- The nodes after an action on some of them. -/
def actOn (part : List Node) (act : Node → Node) (nodes : List Node) : List Node :=
  nodes.map fun n => if n ∈ part then act n else n

theorem overlay_nil (nodes : List Node) : overlay [] nodes = nodes := by
  simp [overlay, named?]

private theorem name_getD_named? (writes : List Node) (n : Node) :
    ((named? n.name writes).getD n).name = n.name := by
  cases h : named? n.name writes with
  | none => rfl
  | some w => exact name_of_named? h

@[simp] theorem map_name_overlay (writes nodes : List Node) :
    (overlay writes nodes).map Node.name = nodes.map Node.name := by
  rw [overlay, List.map_map]
  exact List.map_congr_left fun n _ => name_getD_named? writes n

theorem distinctNames_overlay {writes nodes : List Node} :
    DistinctNames (overlay writes nodes) ↔ DistinctNames nodes := by
  rw [DistinctNames, map_name_overlay, DistinctNames]

/-- The first write may be made before the others. -/
theorem overlay_cons {w : Node} {writes : List Node} (h : DistinctNames (w :: writes))
    (nodes : List Node) : overlay (w :: writes) nodes = overlay writes (overlay [w] nodes) := by
  simp only [overlay, List.map_map]
  refine List.map_congr_left fun n _ => ?_
  rw [Function.comp_apply, named?_cons, named?_cons]
  by_cases heq : w.name = n.name
  · have hother : named? w.name writes = none := named?_eq_none_iff.2 h.head_notMem
    rw [if_pos heq, if_pos heq, Option.getD_some, hother, Option.getD_none]
  · rw [if_neg heq, if_neg heq]
    rfl

theorem mem_overlay {writes nodes : List Node} {n' : Node} (h : n' ∈ overlay writes nodes) :
    n'.name ∈ nodes.map Node.name ∧
      (n' ∈ writes ∨ n' ∈ nodes ∧ n'.name ∉ writes.map Node.name) := by
  refine ⟨map_name_overlay writes nodes ▸ List.mem_map_of_mem h, ?_⟩
  obtain ⟨n, hn, rfl⟩ := List.mem_map.1 h
  cases hw : named? n.name writes with
  | none => exact .inr ⟨hn, named?_eq_none_iff.1 hw⟩
  | some w => exact .inl (mem_of_named? hw)

/-- Writing some nodes of a fleet, each as an action makes it, performs the action on these and on
no others. -/
theorem overlay_map_of_subset {part nodes : List Node} (h : DistinctNames nodes)
    (hpart : part ⊆ nodes) {act : Node → Node} (hname : ∀ n, (act n).name = n.name) :
    overlay (part.map act) nodes = actOn part act nodes := by
  refine List.map_congr_left fun n hn => ?_
  rw [named?_map hname, named?_of_subset h hpart hn, if_congr (h.name_mem_iff hpart hn) rfl rfl]
  split <;> rfl

section ActOn

variable {part nodes : List Node} {act : Node → Node}

theorem mem_actOn {n : Node} (hn : n ∈ nodes) (hpart : n ∈ part) : act n ∈ actOn part act nodes :=
  List.mem_map.2 ⟨n, hn, if_pos hpart⟩

theorem actOn_eq_self (h : ∀ n ∈ part, act n = n) : actOn part act nodes = nodes := by
  refine (List.map_congr_left fun n _ => ?_).trans (List.map_id nodes)
  split
  next hn => exact h n hn
  next => rfl

theorem distinctNames_actOn (h : DistinctNames nodes) (hname : ∀ n, (act n).name = n.name) :
    DistinctNames (actOn part act nodes) := by
  refine h.map fun n => ?_
  split
  · exact hname n
  · rfl

end ActOn

/-- Replacing the node of a name is the overlay of one write. -/
theorem replaceNode_eq_overlay {nodes : List Node} (h : DistinctNames nodes) {w : Node}
    (hw : w.name ∈ nodes.map Node.name) : replaceNode w nodes = some (overlay [w] nodes) := by
  induction nodes with
  | nil => cases hw
  | cons n rest ih =>
      have hhead : overlay [w] (n :: rest) =
          (if w.name = n.name then w else n) :: overlay [w] rest := by
        simp only [overlay, List.map_cons, named?_cons]
        split <;> rfl
      rw [replaceNode, hhead]
      by_cases heq : n.name = w.name
      · -- No other node of the rest has the name, so that the overlay leaves the rest alone.
        have hrest : overlay [w] rest = rest := by
          refine (List.map_congr_left fun m hm => ?_).trans (List.map_id rest)
          have hne : w.name ≠ m.name := fun hname =>
            h.head_notMem (heq ▸ hname ▸ List.mem_map_of_mem hm)
          rw [named?_cons, if_neg hne]
          rfl
        rw [if_pos heq, if_pos heq.symm, hrest]
      · have hmem : w.name ∈ rest.map Node.name :=
          (List.mem_cons.1 hw).resolve_left (Ne.symm heq)
        rw [if_neg heq, if_neg (Ne.symm heq), ih h.tail hmem]
        rfl

/-- Of several nodes of one name only the first is ever replaced, and it is the one that the name
stands for. -/
theorem exists_replaceNode {nodes : List Node} {w : Node} (hw : w.name ∈ nodes.map Node.name) :
    ∃ nodes', replaceNode w nodes = some nodes' ∧ nodes'.map Node.name = nodes.map Node.name ∧
      ∀ name, named? name nodes' = if w.name = name then some w else named? name nodes := by
  induction nodes with
  | nil => cases hw
  | cons n rest ih =>
      rw [replaceNode]
      by_cases heq : n.name = w.name
      · rw [if_pos heq]
        refine ⟨w :: rest, rfl, ?_, fun name => ?_⟩
        · rw [List.map_cons, List.map_cons, heq]
        · rw [named?_cons, named?_cons, heq]
          by_cases hname : w.name = name
          · rw [if_pos hname, if_pos hname]
          · rw [if_neg hname, if_neg hname, if_neg hname]
      · have hrest : w.name ∈ rest.map Node.name := (List.mem_cons.1 hw).resolve_left (Ne.symm heq)
        obtain ⟨rest', hreplace, hnames, hnamed⟩ := ih hrest
        rw [if_neg heq, hreplace]
        refine ⟨n :: rest', rfl, ?_, fun name => ?_⟩
        · rw [List.map_cons, List.map_cons, hnames]
        · rw [named?_cons, named?_cons, hnamed]
          by_cases hname : n.name = name
          · rw [if_pos hname, if_pos hname, if_neg (hname ▸ Ne.symm heq)]
          · rw [if_neg hname, if_neg hname]

theorem mem_names_of_replaceNode {nodes nodes' : List Node} {w : Node}
    (h : replaceNode w nodes = some nodes') : w.name ∈ nodes.map Node.name := by
  induction nodes generalizing nodes' with
  | nil => cases h
  | cons n rest ih =>
      rw [replaceNode] at h
      split at h
      next heq => exact heq ▸ List.mem_cons_self
      next =>
        obtain ⟨rest', hrest, -⟩ := Option.map_eq_some_iff.1 h
        exact List.mem_cons_of_mem _ (ih hrest)

end Fleet

end FleetLabels
