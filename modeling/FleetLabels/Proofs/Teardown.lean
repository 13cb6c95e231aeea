import FleetLabels.Proofs.Refusals
import Mathlib.Data.List.Forall2

/-!
# Taking a policy off the fleet

There are two ways to take the labels of a policy off every node that carries its marker: a cleanup,
and the loop over the unselected nodes when none is selected. Either goes through the marked nodes in
the order of the listing, writes each of them once and ends at the first that cannot be written. A
node that a cleanup has written has no key of the policy's key space any more, the marker included,
so that there is nothing left to do for another cleanup. The other way leaves all keys of the key
space but the marker and the declared ones: labels that an earlier version of the policy declared
there stay behind.

## Main results

* `Pass.cleanup_refusing`, `Pass.leaveUnselected_refusing` — both ways, over a store that refuses
  some writes.
* `Node.stripped_eq_left_minus` — what a cleanup takes off a node besides.
* `cleanup_exact` — what a cleanup writes, and what it leaves.
* `teardowns_agree` — what the two ways have in common, and in what they differ.
-/

namespace FleetLabels

/-- The nodes of the fleet that carry the marker of a policy. -/
def Fleet.managed (f : Fleet) (policy : String) : List Node :=
  f.nodes.filter (·.isManagedBy (Marker.key policy))

namespace Fleet

variable {f : Fleet} {policy : String}

theorem managed_sublist : (f.managed policy).Sublist f.nodes := List.filter_sublist

theorem mem_managed {n : Node} :
    n ∈ f.managed policy ↔ n ∈ f.nodes ∧ n.isManagedBy (Marker.key policy) = true :=
  List.mem_filter

end Fleet

/-! ## Freed nodes -/

/-- The second node is the first one without its labels under the keys that a policy owns. -/
structure Node.Freed (policy : String) (declared : Labels) (n n' : Node) : Prop where
  bare : n'.bare = n.bare
  labels : ∀ k v, n'.labels.get? k = some v ↔ n.labels.get? k = some v ∧ ¬Owned policy declared k

theorem Node.freed_stripped (policy : String) (declared : Labels) (n : Node) :
    n.Freed policy declared (n.stripped policy declared) := by
  constructor
  case bare => exact n.bare_stripped policy declared
  case labels =>
    intro k v
    rw [labels_stripped, Labels.get?_minus]
    by_cases hk : Owned policy declared k <;> simp [hk]

/-- The second fleet is the first one with the given nodes freed, each at its place, and with nothing
else changed. -/
structure Fleet.Freed (policy : String) (declared : Labels) (freed : List Node) (f f' : Fleet) :
    Prop where
  nodes : List.Forall₂
    (fun n n' => (n ∈ freed → n.Freed policy declared n') ∧ (n ∉ freed → n' = n)) f.nodes f'.nodes
  policies : f'.policies = f.policies
  statuses : f'.statuses = f.statuses

theorem Fleet.freed_actOn (policy : String) (declared : Labels) (part : List Node) (f : Fleet) :
    f.Freed policy declared part
      { f with nodes := actOn part (·.stripped policy declared) f.nodes } := by
  refine ⟨List.forall₂_map_right_iff.2 (List.forall₂_same.2 fun n _ => ⟨?_, ?_⟩), rfl, rfl⟩
  · intro hn
    rw [if_pos hn]
    exact n.freed_stripped policy declared
  · exact fun hn => if_neg hn

/-- Once all marked nodes are freed, none is marked. -/
theorem Fleet.Freed.managed_eq_nil {policy : String} {declared : Labels} {f f' : Fleet}
    (h : f.Freed policy declared (f.managed policy) f') : f'.managed policy = [] := by
  refine List.filter_eq_nil_iff.2 fun n' hn' hmarked => ?_
  obtain ⟨i, hi, rfl⟩ := List.getElem_of_mem hn'
  have hlisted : i < f.nodes.length := h.nodes.length_eq ▸ hi
  obtain ⟨hfreed, hkept⟩ := h.nodes.get hlisted hi
  by_cases hn : f.nodes[i] ∈ f.managed policy
  · have hmarker := (Node.isManagedBy_iff ..).1 hmarked
    exact (((hfreed hn).labels _ _).1 hmarker).2 (owned_key policy declared)
  · have hsame : f'.nodes[i] = f.nodes[i] := hkept hn
    exact hn (mem_managed.2 ⟨List.getElem_mem hlisted, hsame ▸ hmarked⟩)

/-! ## Leaving and being cleaned -/

namespace Node

variable (n : Node) (policy : String) (declared : Labels)

/-- A cleanup takes the key space of the policy off a node, and else what leaving takes off it. -/
theorem stripped_eq_left_minus :
    n.stripped policy declared =
      (n.left declared (Marker.key policy)).withLabels
        ((n.left declared (Marker.key policy)).labels.minus fun k => Marker.owns policy k = true) := by
  have hlabels : (n.stripped policy declared).labels =
      (n.left declared (Marker.key policy)).labels.minus fun k => Marker.owns policy k = true := by
    refine KeyMap.ext_get? fun k => ?_
    rw [get?_stripped, Labels.get?_minus, get?_left]
    by_cases howned : Marker.owns policy k = true
    · rw [if_pos (.inl howned), if_pos howned]
    · have hkey : k ≠ Marker.key policy := fun hk => howned (hk ▸ Marker.owns_key policy)
      rw [if_neg howned]
      exact if_congr (or_congr_left (iff_of_false howned hkey)) rfl rfl
  rw [← hlabels]
  rfl

/-- So a cleanup is nothing but leaving for a node whose keys of the key space are all taken off
when it leaves. -/
theorem stripped_eq_left (h : ∀ k ∈ n.labels.keys, Marker.owns policy k = true →
      k = Marker.key policy ∨ k ∈ declared.keys) :
    n.stripped policy declared = n.left declared (Marker.key policy) := by
  rw [stripped_eq_left_minus, Labels.minus_eq_self]
  · rfl
  · intro k hk howned
    rw [labels_left] at hk
    obtain ⟨hkept, hk⟩ := (Labels.mem_keys_minus ..).1 hk
    exact hkept (h k hk howned)

end Node

/-! ## Both ways over a store that refuses some writes -/

namespace Pass

variable (refused : Refusals) {f : Fleet} (policy : String) (declared : Labels)

theorem exchanges_cleanup_refusing :
    (cleanup policy declared).exchanges (Fleet.refusing refused) f =
      ⟨.listNodes, .ok f.nodes⟩ ::
        (writeAll ((f.managed policy).map (·.stripped policy declared))).exchanges
          (Fleet.refusing refused) f := by
  rw [cleanup_eq]
  exact congrArg (_ :: ·) (exchanges_bind_done _ _ (fun _ => .ok (f.managed policy).length) f)

theorem run_cleanup_refusing :
    (cleanup policy declared).run (Fleet.refusing refused) f =
      ((writeAll ((f.managed policy).map (·.stripped policy declared))).bind
        fun _ => .done (.ok (f.managed policy).length)).run (Fleet.refusing refused) f := by
  rw [cleanup_eq]
  rfl

/-- Without a marked node a cleanup is over after the listing. -/
theorem cleanup_of_managed_eq_nil (h : f.managed policy = []) :
    (cleanup policy declared).calls (Fleet.refusing refused) f = [.listNodes] ∧
      (cleanup policy declared).run (Fleet.refusing refused) f = (.ok 0, f) := by
  constructor
  · rw [calls, exchanges_cleanup_refusing, h]
    rfl
  · rw [run_cleanup_refusing, h]
    rfl

variable (hdistinct : DistinctNames f.nodes)

include hdistinct

theorem leaveUnselected_refusing :
    (leaveUnselected f.nodes [] declared (Marker.key policy)).calls (Fleet.refusing refused) f =
        (refused.asked (f.managed policy)).map
          (fun n => .updateNode (n.left declared (Marker.key policy))) ∧
      (leaveUnselected f.nodes [] declared (Marker.key policy)).written (Fleet.refusing refused) f =
        (refused.granted (f.managed policy)).map (·.left declared (Marker.key policy)) ∧
      (leaveUnselected f.nodes [] declared (Marker.key policy)).run (Fleet.refusing refused) f =
        (refused.result (f.managed policy),
          { f with
            nodes := Fleet.actOn (refused.granted (f.managed policy))
              (·.left declared (Marker.key policy)) f.nodes }) := by
  rw [leaveUnselected_eq]
  exact writeAll_map_refusing refused hdistinct Fleet.managed_sublist
    fun n => n.name_left declared (Marker.key policy)

theorem cleanup_refusing :
    (cleanup policy declared).calls (Fleet.refusing refused) f =
        .listNodes :: (refused.asked (f.managed policy)).map
          (fun n => .updateNode (n.stripped policy declared)) ∧
      (cleanup policy declared).written (Fleet.refusing refused) f =
        (refused.granted (f.managed policy)).map (·.stripped policy declared) ∧
      (cleanup policy declared).run (Fleet.refusing refused) f =
        ((refused.result (f.managed policy)).map fun _ => (f.managed policy).length,
          { f with
            nodes := Fleet.actOn (refused.granted (f.managed policy))
              (·.stripped policy declared) f.nodes }) := by
  obtain ⟨hcalls, hwritten, hrun⟩ := writeAll_map_refusing refused hdistinct
    (Fleet.managed_sublist : (f.managed policy).Sublist f.nodes)
    fun n => n.name_stripped policy declared
  refine ⟨?_, ?_, ?_⟩
  · rw [calls, exchanges_cleanup_refusing, List.map_cons]
    exact congrArg (StoreCall.listNodes :: ·) hcalls
  · rw [written, exchanges_cleanup_refusing]
    exact hwritten
  · rw [run_cleanup_refusing, run_bind, hrun]
    cases refused.result (f.managed policy) <;> rfl

theorem names_leaveUnselected_refusing :
    ((leaveUnselected f.nodes [] declared (Marker.key policy)).writes
        (Fleet.refusing refused) f).map Node.name =
        (refused.asked (f.managed policy)).map Node.name ∧
      ((leaveUnselected f.nodes [] declared (Marker.key policy)).written
        (Fleet.refusing refused) f).map Node.name =
        (refused.granted (f.managed policy)).map Node.name := by
  obtain ⟨hcalls, hwritten, -⟩ := leaveUnselected_refusing refused policy declared hdistinct
  constructor
  · rw [writes, hcalls, StoreCall.filterMap_node?_updateNode, List.map_map]
    rfl
  · rw [hwritten, List.map_map]
    rfl

theorem names_cleanup_refusing :
    ((cleanup policy declared).writes (Fleet.refusing refused) f).map Node.name =
        (refused.asked (f.managed policy)).map Node.name ∧
      ((cleanup policy declared).written (Fleet.refusing refused) f).map Node.name =
        (refused.granted (f.managed policy)).map Node.name := by
  obtain ⟨hcalls, hwritten, -⟩ := cleanup_refusing refused policy declared hdistinct
  constructor
  · rw [writes, hcalls, List.filterMap_cons_none rfl, StoreCall.filterMap_node?_updateNode,
      List.map_map]
    rfl
  · rw [hwritten, List.map_map]
    rfl

end Pass

/-- **Cleanup exactness.** A cleanup of which no write is refused tells how many nodes were marked
for the policy. It writes each of these once, in the order of the listing, and takes off them what is
in the key space of the policy or declared; all other labels and all other nodes stay as they are,
whatever keys they have. Another cleanup after it, for any declared labels and whatever may be
refused by then, writes nothing. If the write of a marked node is refused, then exactly the marked
nodes in front of it have been cleaned. -/
theorem cleanup_exact (refused : Refusals) {f : Fleet} (hdistinct : DistinctNames f.nodes)
    (policy : String) (declared : Labels) :
    let store := Fleet.refusing refused
    let program := Pass.cleanup policy declared
    let write := fun n : Node => StoreCall.updateNode (n.stripped policy declared)
    ((∀ n ∈ f.managed policy, refused n.name = none) →
      ∃ f', program.run store f = (.ok (f.managed policy).length, f') ∧
        program.calls store f = .listNodes :: (f.managed policy).map write ∧
        f.Freed policy declared (f.managed policy) f' ∧
        ∀ (refused' : Refusals) (declared' : Labels),
          (Pass.cleanup policy declared').run (Fleet.refusing refused') f' = (.ok 0, f') ∧
          (Pass.cleanup policy declared').calls (Fleet.refusing refused') f' = [.listNodes]) ∧
    ∀ before n after e, f.managed policy = before ++ n :: after →
      (∀ m ∈ before, refused m.name = none) → refused n.name = some e →
      ∃ f', program.run store f = (.error e, f') ∧
        program.calls store f = .listNodes :: (before ++ [n]).map write ∧
        f.Freed policy declared before f' := by
  intro store program write
  obtain ⟨hcalls, -, hrun⟩ := Pass.cleanup_refusing refused policy declared hdistinct
  constructor
  · intro hnone
    obtain ⟨hgranted, hasked, hresult⟩ := refused.of_granted hnone
    rw [hasked] at hcalls
    rw [hgranted, hresult] at hrun
    have hfreed := f.freed_actOn policy declared (f.managed policy)
    refine ⟨_, hrun, hcalls, hfreed, fun refused' declared' => ?_⟩
    exact (Pass.cleanup_of_managed_eq_nil refused' policy declared' hfreed.managed_eq_nil).symm
  · intro before n after e hsplit hbefore hn
    obtain ⟨hgranted, hasked, hresult⟩ := refused.of_split hbefore hn after
    rw [hsplit, hasked] at hcalls
    rw [hsplit, hgranted, hresult] at hrun
    exact ⟨_, hrun, hcalls, f.freed_actOn policy declared before⟩

/-- A marked node with a declared label, an outdated one and one that is nobody's. -/
def outdatedNode : Node :=
  .plain "a" "True"
    [(Marker.key "web", "true"), (Marker.keySpace "web" ++ "ring", "2"), ("tier", "front"),
      ("zone", "1")]

/-- Two marked nodes, and between them one with the same labels but for the marker. -/
def outdatedFleet : Fleet where
  nodes :=
    [outdatedNode,
      .plain "b" "True" [(Marker.keySpace "web" ++ "ring", "2"), ("tier", "front")],
      .plain "c" "True" [(Marker.key "web", "true"), ("tier", "front")]]

/-- The labels that the policy declares by now. -/
def frontLabels : Labels := .ofList [("tier", "front")]

/-- The third node cannot be written. -/
def thirdRefused : Refusals := fun name =>
  if name = "c" then some (.write "node c" .undecodable) else none

/-- Without refusals both marked nodes are cleaned; if the second of them is refused, the first one
is. -/
theorem cleanup_exact_outdatedFleet :
    (∃ f', (Pass.cleanup "web" frontLabels).run (Fleet.refusing fun _ => none) outdatedFleet =
      (.ok 2, f')) ∧
    ∃ f', (Pass.cleanup "web" frontLabels).run (Fleet.refusing thirdRefused) outdatedFleet =
        (.error (.write "node c" .undecodable), f') ∧
      outdatedFleet.Freed "web" frontLabels [outdatedNode] f' := by
  obtain ⟨hall, -⟩ := cleanup_exact (fun _ => none) (f := outdatedFleet) (by decide) "web" frontLabels
  obtain ⟨-, hfirst⟩ := cleanup_exact thirdRefused (f := outdatedFleet) (by decide) "web" frontLabels
  obtain ⟨f₁, hrun₁, -⟩ := hall fun _ _ => rfl
  have hcount : (outdatedFleet.managed "web").length = 2 := by decide
  rw [hcount] at hrun₁
  obtain ⟨f₂, hrun₂, -, hfreed⟩ := hfirst [outdatedNode] _ [] _ rfl (by decide) rfl
  exact ⟨⟨f₁, hrun₁⟩, f₂, hrun₂, hfreed⟩

/-- **The two teardowns agree.** Over a store that refuses some nodes, the loop over the unselected
nodes with none selected and the cleanup after the policy ask for the same writes by name, are
granted the same ones, and both succeed or fail with the same failure. A node that was written has
after the cleanup the labels that it has after the loop, but for those in the key space of the
policy; any other node is left as it was by both. So both leave the same fleet if every key of the
key space on a marked node is that of the marker or a declared one. -/
theorem teardowns_agree (refused : Refusals) {f : Fleet} (hdistinct : DistinctNames f.nodes)
    (policy : String) (declared : Labels) :
    let store := Fleet.refusing refused
    let unselect := Pass.leaveUnselected f.nodes [] declared (Marker.key policy)
    let cleanup := Pass.cleanup policy declared
    let written := (cleanup.written store f).map Node.name
    ∃ (result : Except PassError Unit) (act₁ act₂ : Node → Node),
      unselect.run store f = (result, { f with nodes := f.nodes.map act₁ }) ∧
      cleanup.run store f = (result.map fun _ => (f.managed policy).length,
        { f with nodes := f.nodes.map act₂ }) ∧
      (unselect.writes store f).map Node.name = (cleanup.writes store f).map Node.name ∧
      (unselect.written store f).map Node.name = written ∧
      (∀ n ∈ f.nodes, n.name ∈ written →
        act₂ n = (act₁ n).withLabels
          ((act₁ n).labels.minus fun k => Marker.owns policy k = true)) ∧
      (∀ n ∈ f.nodes, n.name ∉ written → act₁ n = n ∧ act₂ n = n) ∧
      ((∀ n ∈ f.managed policy, ∀ k ∈ n.labels.keys, Marker.owns policy k = true →
          k = Marker.key policy ∨ k ∈ declared.keys) →
        (unselect.run store f).2 = (cleanup.run store f).2) := by
  intro store unselect cleanup written
  obtain ⟨-, -, hrun₁⟩ := Pass.leaveUnselected_refusing refused policy declared hdistinct
  obtain ⟨-, -, hrun₂⟩ := Pass.cleanup_refusing refused policy declared hdistinct
  obtain ⟨hasked₁, hgranted₁⟩ :=
    Pass.names_leaveUnselected_refusing refused policy declared hdistinct
  obtain ⟨hasked₂, hgranted₂⟩ := Pass.names_cleanup_refusing refused policy declared hdistinct
  have hmanaged : refused.granted (f.managed policy) ⊆ f.managed policy :=
    refused.granted_subset (f.managed policy)
  have hwritten : ∀ n ∈ f.nodes, (n.name ∈ written ↔ n ∈ refused.granted (f.managed policy)) :=
    fun n hn => (iff_of_eq (congrArg (n.name ∈ ·) hgranted₂)).trans
      (hdistinct.name_mem_iff (List.Subset.trans hmanaged Fleet.managed_sublist.subset) hn)
  refine ⟨_, _, _, hrun₁, hrun₂, hasked₁.trans hasked₂.symm, hgranted₁.trans hgranted₂.symm,
    fun n hn hname => ?_, fun n hn hname => ?_, fun htidy => ?_⟩
  · have hgranted := (hwritten n hn).1 hname
    simp only [if_pos hgranted]
    exact n.stripped_eq_left_minus policy declared
  · have hkept := mt (hwritten n hn).2 hname
    exact ⟨if_neg hkept, if_neg hkept⟩
  · have hsame : Fleet.actOn (refused.granted (f.managed policy))
        (·.left declared (Marker.key policy)) f.nodes =
          Fleet.actOn (refused.granted (f.managed policy)) (·.stripped policy declared) f.nodes := by
      refine List.map_congr_left fun n _ => ?_
      split
      next hgranted =>
        exact (n.stripped_eq_left policy declared (htidy n (hmanaged hgranted))).symm
      next => rfl
    calc
      (unselect.run store f).2 =
          { f with
            nodes := Fleet.actOn (refused.granted (f.managed policy))
              (·.left declared (Marker.key policy)) f.nodes } := congrArg Prod.snd hrun₁
      _ = { f with
            nodes := Fleet.actOn (refused.granted (f.managed policy))
              (·.stripped policy declared) f.nodes } := by rw [hsame]
      _ = (cleanup.run store f).2 := (congrArg Prod.snd hrun₂).symm

/-- The outdated label tells the two ways apart. Once the policy declares it again, both leave the same
fleet, also if only the first node can be written. -/
theorem teardowns_agree_outdatedFleet :
    let redeclared := frontLabels.insert (Marker.keySpace "web" ++ "ring") "2"
    let unselect := fun declared =>
      (Pass.leaveUnselected outdatedFleet.nodes [] declared (Marker.key "web")).run
        (Fleet.refusing thirdRefused) outdatedFleet
    let cleanup := fun declared =>
      (Pass.cleanup "web" declared).run (Fleet.refusing thirdRefused) outdatedFleet
    (unselect redeclared).2 = (cleanup redeclared).2 ∧
      (unselect frontLabels).2 ≠ (cleanup frontLabels).2 := by
  intro redeclared unselect cleanup
  obtain ⟨_, _, _, -, -, -, -, -, -, hsame⟩ :=
    teardowns_agree thirdRefused (f := outdatedFleet) (by decide) "web" redeclared
  exact ⟨hsame (by decide), by decide⟩

end FleetLabels
