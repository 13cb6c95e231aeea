import FleetLabels.Proofs.Exchanges
import FleetLabels.Proofs.InMemory

/-!
# Nodes that cannot be written

A store may refuse to replace some nodes, each with a failure of its own. Of a list of writes those
before the first refused one are then made, that one is asked for and fails, and those behind it are
not even asked for. Which writes these are is decided by the names of the nodes alone, so that two
lists of the same names fare alike, whatever labels they carry.

## Main results

* `Refusals.granted`, `Refusals.asked`, `Refusals.result` — how far a list of writes gets, and what
  comes of it.
* `Refusals.of_granted`, `Refusals.of_split` — the same, told by the first refused node.
* `Pass.writeAll_refusing`, `Pass.writeAll_map_refusing` — writing over such a store.
-/

namespace FleetLabels

/-- The nodes that cannot be written, by their names, each with the failure of its writes. -/
abbrev Refusals := String → Option PassError

/-- The fleet as a store that refuses to replace some nodes. -/
def Fleet.refusing (refused : Refusals) : Pass.Handler Fleet := fun call f =>
  match call.node?.bind fun w => refused w.name with
  | some e => (.error e, f)
  | none => Fleet.handler call f

namespace Refusals

variable (refused : Refusals)

/-- The writes that are made. -/
def granted (writes : List Node) : List Node :=
  writes.takeWhile fun w => (refused w.name).isNone

/-- The writes that are asked for: one more, if it is refused. -/
def asked (writes : List Node) : List Node :=
  writes.take ((refused.granted writes).length + 1)

/-- What comes of the writes. -/
def result (writes : List Node) : Except PassError Unit :=
  match writes.findSome? fun w => refused w.name with
  | some e => .error e
  | none => .ok ()

/-! ## Step by step -/

section Cons

variable {refused} {w : Node} (rest : List Node)

theorem granted_cons (h : refused w.name = none) :
    refused.granted (w :: rest) = w :: refused.granted rest := by
  simp [granted, h]

theorem asked_cons (h : refused w.name = none) :
    refused.asked (w :: rest) = w :: refused.asked rest := by
  rw [asked, granted_cons rest h, List.length_cons, List.take_succ_cons, asked]

theorem result_cons (h : refused w.name = none) :
    refused.result (w :: rest) = refused.result rest := by
  simp [result, h]

variable {e : PassError}

theorem granted_cons_refused (h : refused w.name = some e) : refused.granted (w :: rest) = [] := by
  simp [granted, h]

theorem asked_cons_refused (h : refused w.name = some e) : refused.asked (w :: rest) = [w] := by
  rw [asked, granted_cons_refused rest h]
  rfl

theorem result_cons_refused (h : refused w.name = some e) :
    refused.result (w :: rest) = .error e := by
  simp [result, h]

end Cons

/-! ## The first refused node -/

/-- Writes of which none is refused are all made. -/
theorem of_granted {writes : List Node} (h : ∀ w ∈ writes, refused w.name = none) :
    refused.granted writes = writes ∧ refused.asked writes = writes ∧
      refused.result writes = .ok () := by
  induction writes with
  | nil => exact ⟨rfl, rfl, rfl⟩
  | cons w rest ih =>
      obtain ⟨hw, hrest⟩ := List.forall_mem_cons.1 h
      obtain ⟨hgranted, hasked, hresult⟩ := ih hrest
      rw [granted_cons rest hw, asked_cons rest hw, result_cons rest hw, hgranted, hasked, hresult]
      exact ⟨rfl, rfl, rfl⟩

/-- The first write that is refused is the last one that is asked for. -/
theorem of_split {before : List Node} (h : ∀ w ∈ before, refused w.name = none) {w : Node}
    {e : PassError} (hw : refused w.name = some e) (after : List Node) :
    refused.granted (before ++ w :: after) = before ∧
      refused.asked (before ++ w :: after) = before ++ [w] ∧
        refused.result (before ++ w :: after) = .error e := by
  induction before with
  | nil =>
      exact ⟨granted_cons_refused after hw, asked_cons_refused after hw,
        result_cons_refused after hw⟩
  | cons v rest ih =>
      obtain ⟨hv, hrest⟩ := List.forall_mem_cons.1 h
      obtain ⟨hgranted, hasked, hresult⟩ := ih hrest
      rw [List.cons_append, granted_cons _ hv, asked_cons _ hv, result_cons _ hv, hgranted, hasked,
        hresult]
      exact ⟨rfl, rfl, rfl⟩

theorem granted_subset (writes : List Node) : refused.granted writes ⊆ writes :=
  (List.takeWhile_sublist _).subset

/-! ## Writes of the same names -/

section Map

variable {act : Node → Node} (hname : ∀ n, (act n).name = n.name) (nodes : List Node)

include hname

theorem granted_map : refused.granted (nodes.map act) = (refused.granted nodes).map act := by
  rw [granted, List.takeWhile_map, granted]
  refine congrArg (List.map act) (congrArg (List.takeWhile · nodes) (funext fun n => ?_))
  rw [Function.comp_apply, hname]

theorem asked_map : refused.asked (nodes.map act) = (refused.asked nodes).map act := by
  rw [asked, granted_map refused hname, List.length_map, ← List.map_take, asked]

theorem result_map : refused.result (nodes.map act) = refused.result nodes := by
  rw [result, List.findSome?_map, result]
  have hsame : ((fun w => refused w.name) ∘ act) = fun w => refused w.name :=
    funext fun n => congrArg refused (hname n)
  rw [hsame]

end Map

end Refusals

namespace Pass

/-- Writing nodes of a fleet of which some cannot be written. -/
theorem writeAll_refusing (refused : Refusals) {f : Fleet} (hdistinct : DistinctNames f.nodes)
    {writes : List Node} (hwrites : DistinctNames writes)
    (hsub : writes.map Node.name ⊆ f.nodes.map Node.name) :
    (writeAll writes).calls (Fleet.refusing refused) f =
        (refused.asked writes).map .updateNode ∧
      (writeAll writes).written (Fleet.refusing refused) f = refused.granted writes ∧
      (writeAll writes).run (Fleet.refusing refused) f =
        (refused.result writes,
          { f with nodes := Fleet.overlay (refused.granted writes) f.nodes }) := by
  induction writes generalizing f with
  | nil => exact ⟨rfl, rfl, by rw [Refusals.granted, List.takeWhile_nil, Fleet.overlay_nil]; rfl⟩
  | cons w rest ih =>
      have hstep : writeAll (w :: rest) = .ask (.updateNode w) fun _ => writeAll rest := rfl
      rw [hstep]
      cases hw : refused w.name with
      | some e =>
          have hanswer : Fleet.refusing refused (.updateNode w) f = (.error e, f) := by
            simp only [Fleet.refusing, StoreCall.node?, Option.bind_some, hw]
          rw [Refusals.asked_cons_refused rest hw, Refusals.result_cons_refused rest hw,
            Refusals.granted_cons_refused rest hw, Fleet.overlay_nil]
          simp only [calls, written, exchanges, run, hanswer]
          exact ⟨rfl, rfl, trivial⟩
      | none =>
          have hmem : w.name ∈ f.nodes.map Node.name := hsub List.mem_cons_self
          have hanswer : Fleet.refusing refused (.updateNode w) f =
              (.ok w, { f with nodes := Fleet.overlay [w] f.nodes }) := by
            have hreplace := Fleet.replaceNode_eq_overlay hdistinct hmem
            simp only [Fleet.refusing, StoreCall.node?, Option.bind_some, hw, Fleet.handler,
              Fleet.answer, hreplace, Except.mapError]
          have hrest : rest.map Node.name ⊆ (Fleet.overlay [w] f.nodes).map Node.name := by
            rw [Fleet.map_name_overlay]
            exact fun name hname => hsub (List.mem_cons_of_mem _ hname)
          obtain ⟨hcalls, hwritten, hrun⟩ :=
            ih (f := { f with nodes := Fleet.overlay [w] f.nodes })
              (Fleet.distinctNames_overlay.2 hdistinct) hwrites.tail hrest
          have hgranted : DistinctNames (w :: refused.granted rest) :=
            List.Nodup.sublist (((List.takeWhile_sublist _).cons_cons w).map Node.name) hwrites
          rw [Refusals.asked_cons rest hw, Refusals.result_cons rest hw,
            Refusals.granted_cons rest hw, Fleet.overlay_cons hgranted]
          simp only [calls, written, exchanges, run, hanswer]
          exact ⟨congrArg (_ :: ·) hcalls, congrArg (w :: ·) hwritten, hrun⟩

/-- Writing some nodes of a fleet, each as an action makes it: the action is performed on those of
which the write is granted. -/
theorem writeAll_map_refusing (refused : Refusals) {f : Fleet} (hdistinct : DistinctNames f.nodes)
    {part : List Node} (hpart : part.Sublist f.nodes) {act : Node → Node}
    (hname : ∀ n, (act n).name = n.name) :
    (writeAll (part.map act)).calls (Fleet.refusing refused) f =
        (refused.asked part).map (fun n => .updateNode (act n)) ∧
      (writeAll (part.map act)).written (Fleet.refusing refused) f =
        (refused.granted part).map act ∧
      (writeAll (part.map act)).run (Fleet.refusing refused) f =
        (refused.result part,
          { f with nodes := Fleet.actOn (refused.granted part) act f.nodes }) := by
  have hnames : (part.map act).map Node.name = part.map Node.name := by
    rw [List.map_map]
    exact List.map_congr_left fun n _ => hname n
  have hwrites : DistinctNames (part.map act) := by
    rw [DistinctNames, hnames]
    exact List.Nodup.sublist (hpart.map Node.name) hdistinct
  have hsub : (part.map act).map Node.name ⊆ f.nodes.map Node.name := by
    rw [hnames]
    exact (hpart.map Node.name).subset
  have hgranted : refused.granted part ⊆ f.nodes :=
    fun n hn => hpart.subset (refused.granted_subset part hn)
  obtain ⟨hcalls, hwritten, hrun⟩ := writeAll_refusing refused hdistinct hwrites hsub
  rw [hcalls, hwritten, hrun, refused.asked_map hname, refused.result_map hname,
    refused.granted_map hname, List.map_map, Fleet.overlay_map_of_subset hdistinct hgranted hname]
  exact ⟨rfl, rfl, rfl⟩

end Pass

end FleetLabels
