import FleetLabels.Node.Document
import FleetLabels.Proofs.InMemory
import FleetLabels.Proofs.Precedence
import FleetLabels.Proofs.Shuffles

/-!
# Selected positions

Which positions of a list are selected, and in which order? The nodes alone do not tell, since the
same node may be listed twice. The selection is therefore made again here among items that stand for
nodes: `selectBy` filters, arranges and cuts the items as `select` does the nodes, and looks at an
item only through the node that it stands for. With the nodes themselves for items it is `select`;
with the positions of a list for items it tells the positions that are selected.

That a selection goes by positions is the same as that it commutes with any change of the items. And
what it looks at is little: whether a node is ready, when it was created, and its name. Two lists
whose nodes agree in that are selected alike, position by position, with the same draws.

## Main results

* `selectBy_map`, `select_toList` — a selection is that of positions, with the nodes put in.
* `selectBy_congr` — items are told apart by readiness and standing only.
* `Padded.select_eq` — nodes that are not ready may be put in anywhere.
* `selection_by_standing` — two lists that agree in what counts.
-/

namespace FleetLabels

variable {α β : Type}

/-! ## Selections among items -/

/-- The items in the order of a strategy, by the nodes that they stand for. -/
def Strategy.arrangeBy (s : Strategy) (view : α → Node) (items : List α) (draws : DrawSource) :
    List α :=
  match s with
  | .oldest => items.mergeSort fun a b => ((view a).oldestFirst (view b)).isLE
  | .newest => items.mergeSort fun a b => ((view a).newestFirst (view b)).isLE
  | .random => Draws.shuffle items (draws items.length)

/-- The items that stand for ready nodes. -/
def readyBy (view : α → Node) (items : List α) : List α :=
  items.filter fun x => (view x).isReady

/-- The selected items, in the order of the strategy. -/
def selectBy (view : α → Node) (items : List α) (spec : StrategySpec) (draws : DrawSource) :
    Except PassError (List α) :=
  match readyBy view items with
  | [] => .ok []
  | ready => do
      let strategy ← Strategy.parse spec.type
      .ok ((strategy.arrangeBy view ready draws).take spec.limit)

namespace Strategy

theorem arrangeBy_perm (s : Strategy) (view : α → Node) (items : List α) (draws : DrawSource) :
    (s.arrangeBy view items draws).Perm items := by
  cases s with
  | oldest => exact List.mergeSort_perm items _
  | newest => exact List.mergeSort_perm items _
  | random => exact Draws.shuffle_perm items (draws items.length)

theorem arrangeBy_eq_mergeSort {s : Strategy} (hs : s ≠ .random) (view : α → Node)
    (items : List α) (draws : DrawSource) :
    s.arrangeBy view items draws =
      items.mergeSort fun a b => (s.compare (view a) (view b)).isLE := by
  cases s with
  | oldest => rfl
  | newest => rfl
  | random => exact absurd rfl hs

theorem arrangeBy_map (s : Strategy) (view : β → Node) (f : α → β) (items : List α)
    (draws : DrawSource) :
    s.arrangeBy view (items.map f) draws = (s.arrangeBy (view ∘ f) items draws).map f := by
  by_cases hs : s = .random
  · subst hs
    exact Draws.shuffle_map f items draws
  · rw [arrangeBy_eq_mergeSort hs, arrangeBy_eq_mergeSort hs]
    have hblind : ∀ a ∈ items, ∀ b ∈ items,
        (s.compare ((view ∘ f) a) ((view ∘ f) b)).isLE =
          (s.compare (view (f a)) (view (f b))).isLE := fun _ _ _ _ => rfl
    exact (List.map_mergeSort hblind).symm

/-- A comparison looks at nothing but creation and name. -/
theorem compare_congr (s : Strategy) {a b a' b' : Node} (ha : a.standing = a'.standing)
    (hb : b.standing = b'.standing) : s.compare a b = s.compare a' b' := by
  obtain ⟨hcreated, hname⟩ := Prod.mk.inj ha
  obtain ⟨hcreated', hname'⟩ := Prod.mk.inj hb
  have hnames : a.compareName b = a'.compareName b' := by
    rw [Node.compareName, hname, hname', ← Node.compareName]
  cases s with
  | oldest =>
      show (Ord.compare a.created? b.created?).then (a.compareName b) =
        (Ord.compare a'.created? b'.created?).then (a'.compareName b')
      rw [hcreated, hcreated', hnames]
  | newest =>
      show (Ord.compare b.created? a.created?).then (a.compareName b) =
        (Ord.compare b'.created? a'.created?).then (a'.compareName b')
      rw [hcreated, hcreated', hnames]
  | random => rfl

theorem arrangeBy_congr (s : Strategy) {view view' : α → Node}
    (h : ∀ x, (view x).standing = (view' x).standing) (items : List α) (draws : DrawSource) :
    s.arrangeBy view items draws = s.arrangeBy view' items draws := by
  by_cases hs : s = .random
  · subst hs
    rfl
  · have hcompare : (fun a b => (s.compare (view a) (view b)).isLE) =
        fun a b => (s.compare (view' a) (view' b)).isLE := by
      funext a b
      rw [s.compare_congr (h a) (h b)]
    rw [arrangeBy_eq_mergeSort hs, hcompare, arrangeBy_eq_mergeSort hs]

end Strategy

section Items

variable {spec : StrategySpec} {draws : DrawSource}

/-- Nodes stand for themselves. -/
theorem select_eq_selectBy (nodes : List Node) (spec : StrategySpec) (draws : DrawSource) :
    select nodes spec draws = selectBy id nodes spec draws := by
  unfold select selectBy
  rw [show readyBy id nodes = Node.ready nodes from rfl]
  cases Node.ready nodes with
  | nil => rfl
  | cons n rest =>
      cases Strategy.parse spec.type with
      | error e => rfl
      | ok s => cases s <;> rfl

/-- A strategy that exists selects the first items of its arrangement. -/
theorem selectBy_eq_take_arrangeBy {s : Strategy} (hparse : Strategy.parse spec.type = .ok s)
    (view : α → Node) (items : List α) (draws : DrawSource) :
    selectBy view items spec draws =
      .ok ((s.arrangeBy view (readyBy view items) draws).take spec.limit) := by
  unfold selectBy
  cases readyBy view items with
  | nil => rw [(s.arrangeBy_perm view [] draws).eq_nil, List.take_nil]
  | cons x rest =>
      rw [hparse]
      rfl

/-- A strategy that does not exist is refused, unless there is nothing to select. -/
theorem selectBy_of_parse_eq_error {e : PassError} (hparse : Strategy.parse spec.type = .error e)
    (view : α → Node) (items : List α) (draws : DrawSource) :
    selectBy view items spec draws = if readyBy view items = [] then .ok [] else .error e := by
  unfold selectBy
  cases readyBy view items with
  | nil => rfl
  | cons x rest =>
      rw [hparse]
      rfl

theorem readyBy_map (view : β → Node) (f : α → β) (items : List α) :
    readyBy view (items.map f) = (readyBy (view ∘ f) items).map f :=
  List.filter_map

theorem selectBy_map (view : β → Node) (f : α → β) (items : List α) (spec : StrategySpec)
    (draws : DrawSource) :
    selectBy view (items.map f) spec draws =
      (selectBy (view ∘ f) items spec draws).map (List.map f) := by
  cases hparse : Strategy.parse spec.type with
  | ok s =>
      rw [selectBy_eq_take_arrangeBy hparse, selectBy_eq_take_arrangeBy hparse, readyBy_map,
        s.arrangeBy_map, ← List.map_take]
      rfl
  | error e =>
      rw [selectBy_of_parse_eq_error hparse, selectBy_of_parse_eq_error hparse, readyBy_map]
      cases readyBy (view ∘ f) items <;> rfl

theorem readyBy_congr {view view' : α → Node} (h : ∀ x, (view x).isReady = (view' x).isReady)
    (items : List α) : readyBy view items = readyBy view' items :=
  List.filter_congr fun x _ => h x

theorem selectBy_congr {view view' : α → Node}
    (hready : ∀ x, (view x).isReady = (view' x).isReady)
    (hstanding : ∀ x, (view x).standing = (view' x).standing) (items : List α)
    (spec : StrategySpec) (draws : DrawSource) :
    selectBy view items spec draws = selectBy view' items spec draws := by
  cases hparse : Strategy.parse spec.type with
  | ok s =>
      rw [selectBy_eq_take_arrangeBy hparse, selectBy_eq_take_arrangeBy hparse,
        readyBy_congr hready, s.arrangeBy_congr hstanding]
  | error e =>
      rw [selectBy_of_parse_eq_error hparse, selectBy_of_parse_eq_error hparse,
        readyBy_congr hready]

theorem selectBy_eq_take_perm {view : α → Node} {items selected : List α}
    (h : selectBy view items spec draws = .ok selected) :
    ∃ order : List α, order.Perm (readyBy view items) ∧ selected = order.take spec.limit := by
  cases hparse : Strategy.parse spec.type with
  | ok s =>
      rw [selectBy_eq_take_arrangeBy hparse] at h
      cases h
      exact ⟨_, s.arrangeBy_perm view (readyBy view items) draws, rfl⟩
  | error e =>
      rw [selectBy_of_parse_eq_error hparse] at h
      split at h
      next hnone =>
        cases h
        exact ⟨[], by rw [hnone], List.take_nil.symm⟩
      next => cases h

end Items

/-! ## Positions -/

section Positions

variable {n : Nat} {spec : StrategySpec} {draws : DrawSource}

/-- The positions whose nodes are selected, in the order of the strategy. -/
def selectPositions (nodes : Vector Node n) (spec : StrategySpec) (draws : DrawSource) :
    Except PassError (List (Fin n)) :=
  selectBy nodes.get (List.finRange n) spec draws

theorem map_get_finRange (nodes : Vector Node n) :
    (List.finRange n).map nodes.get = nodes.toList := by
  refine List.ext_getElem (by simp) fun i hi hi' => ?_
  simp [Vector.get]

/-- The nodes that are selected stand in the positions that are selected. -/
theorem select_toList (nodes : Vector Node n) (spec : StrategySpec) (draws : DrawSource) :
    select nodes.toList spec draws =
      (selectPositions nodes spec draws).map (List.map nodes.get) := by
  rw [select_eq_selectBy, ← map_get_finRange, selectBy_map]
  rfl

/-- There are as many positions of ready nodes as there are ready nodes. -/
theorem length_ready_toList (nodes : Vector Node n) :
    (Node.ready nodes.toList).length = (readyBy nodes.get (List.finRange n)).length := by
  have hready : Node.ready nodes.toList = (readyBy nodes.get (List.finRange n)).map nodes.get := by
    rw [← map_get_finRange]
    exact readyBy_map id nodes.get _
  rw [hready, List.length_map]

/-- No position is selected twice. -/
theorem nodup_of_selectPositions {nodes : Vector Node n} {positions : List (Fin n)}
    (h : selectPositions nodes spec draws = .ok positions) : positions.Nodup := by
  obtain ⟨order, hperm, rfl⟩ := selectBy_eq_take_perm h
  have hready : (readyBy nodes.get (List.finRange n)).Nodup := (List.nodup_finRange n).filter _
  exact (hperm.nodup_iff.2 hready).sublist (List.take_sublist ..)

end Positions

/-! ## What counts -/

/-- Two nodes are the same to a selection: by their readiness, the instant of their creation, and
their name. -/
structure Node.SelectedLike (a b : Node) : Prop where
  ready : a.isReady = b.isReady
  created : a.created? = b.created?
  name : a.name = b.name

instance (a b : Node) : Decidable (a.SelectedLike b) :=
  decidable_of_iff (a.isReady = b.isReady ∧ a.created? = b.created? ∧ a.name = b.name)
    ⟨fun h => ⟨h.1, h.2.1, h.2.2⟩, fun h => ⟨h.ready, h.created, h.name⟩⟩

/-- Nodes that are the same to a selection are selected in the same positions. -/
theorem selectPositions_congr {n : Nat} {nodes nodes' : Vector Node n}
    (h : ∀ i, (nodes.get i).SelectedLike (nodes'.get i)) (spec : StrategySpec)
    (draws : DrawSource) : selectPositions nodes spec draws = selectPositions nodes' spec draws :=
  selectBy_congr (fun i => (h i).ready) (fun i => Prod.ext (h i).created (h i).name) _ spec draws

/-- The second list is the first one, with nodes put in that are not ready. -/
inductive Padded : List Node → List Node → Prop where
  | nil : Padded [] []
  | keep (n : Node) {nodes nodes' : List Node} (h : Padded nodes nodes') :
      Padded (n :: nodes) (n :: nodes')
  | insert {n : Node} (hn : n.isReady = false) {nodes nodes' : List Node}
      (h : Padded nodes nodes') : Padded nodes (n :: nodes')

namespace Padded

variable {nodes nodes' : List Node}

theorem ready_eq (h : Padded nodes nodes') : Node.ready nodes' = Node.ready nodes := by
  induction h with
  | nil => rfl
  | keep n _ ih => rw [Node.ready, Node.ready, List.filter_cons, List.filter_cons, ← Node.ready,
      ← Node.ready, ih]
  | insert hn _ ih => exact (List.filter_cons_of_neg (by simp [hn])).trans ih

theorem select_eq (h : Padded nodes nodes') (spec : StrategySpec) (draws : DrawSource) :
    select nodes' spec draws = select nodes spec draws := by
  unfold select
  rw [h.ready_eq]

end Padded

/-- **What a selection reads.** Two lists of one length, whose nodes agree position by position in
readiness, instant of creation and name, are refused alike, or the same positions of them are
selected in the same order, under every strategy and with the same draws; and a shuffle of either
asks for as many of these. Nodes that are not ready change nothing wherever they are put in. -/
theorem selection_by_standing :
    (∀ {n : Nat} {nodes nodes' : Vector Node n},
      (∀ i, (nodes.get i).SelectedLike (nodes'.get i)) →
      ∀ (spec : StrategySpec) (draws : DrawSource),
        (Node.ready nodes.toList).length = (Node.ready nodes'.toList).length ∧
        ((∃ e, select nodes.toList spec draws = .error e ∧
            select nodes'.toList spec draws = .error e) ∨
          ∃ positions : List (Fin n), positions.Nodup ∧
            selectPositions nodes spec draws = .ok positions ∧
            selectPositions nodes' spec draws = .ok positions ∧
            select nodes.toList spec draws = .ok (positions.map nodes.get) ∧
            select nodes'.toList spec draws = .ok (positions.map nodes'.get))) ∧
      ∀ {nodes nodes' : List Node}, Padded nodes nodes' →
        ∀ (spec : StrategySpec) (draws : DrawSource),
          select nodes' spec draws = select nodes spec draws := by
  refine ⟨fun {n nodes nodes'} halike spec draws => ?_, fun hpadded => hpadded.select_eq⟩
  have hsame := selectPositions_congr halike spec draws
  have hready := readyBy_congr (fun i => (halike i).ready) (List.finRange n)
  refine ⟨by rw [length_ready_toList, length_ready_toList, hready], ?_⟩
  rw [select_toList, select_toList, ← hsame]
  cases hpositions : selectPositions nodes spec draws with
  | error e => exact .inl ⟨e, rfl, rfl⟩
  | ok positions =>
      exact .inr ⟨positions, nodup_of_selectPositions hpositions, rfl, rfl, rfl, rfl⟩

/-- A list of two nodes, one created on a clock that is two hours ahead. -/
def listedDocuments : List Json :=
  [.object
    [("metadata", .object
      [("name", .string "a"), ("creationTimestamp", .string "2026-03-01T12:00:00+02:00")]),
     ("status", .object [("conditions", .array
      [.object [("type", .string "Ready"), ("status", .string "True")]])])],
   .object
    [("metadata", .object [("name", .string "b")])]]

/-- The same two nodes with all else changed: the instant of creation written otherwise, labels,
another condition in front of the one that counts and another one after it, and a reason for not
being ready. -/
def relistedDocuments : List Json :=
  [.object
    [("metadata", .object
      [("name", .string "a"), ("creationTimestamp", .string "2026-03-01 09:30:00.000-00:30"),
       ("labels", .object [("tier", .string "front")]), ("uid", .string "7")]),
     ("spec", .object [("unschedulable", .bool true)]),
     ("status", .object [("conditions", .array
      [.object [("type", .string "DiskPressure"), ("status", .string "True")],
       .object [("type", .string "Ready"), ("status", .string "True")],
       .object [("type", .string "Ready"), ("status", .string "False")]])])],
   .object
    [("metadata", .object [("generateName", .string "b")]),
     ("status", .object [("conditions", .array
      [.object [("type", .string "Ready"), ("status", .string "Unknown")]])])]]

/-- The nodes of the one list. -/
def listedNodes : Vector Node 2 :=
  #v[.bornAt "a" 600, { metadata := { name := some "b" } }]

/-- The nodes of the other one. -/
def relistedNodes : Vector Node 2 :=
  #v[{ metadata :=
         { name := some "a", creationTimestamp := (Node.bornAt "a" 600).created?,
           labels := some (.ofList [("tier", "front")]), uid := some "7" }
       spec := some { unschedulable := some true }
       status := some
         { conditions := some
             [{ status := "True", type := "DiskPressure" }, { status := "True", type := "Ready" },
              { status := "False", type := "Ready" }] } },
     { metadata := { generateName := some "b" }
       status := some { conditions := some [{ status := "Unknown", type := "Ready" }] } }]

/-- What is read from the two lists of documents is selected alike; and so is the one list with a
node in front that is not ready. -/
theorem selection_by_standing_relistedNodes :
    let spec : StrategySpec := { type := "random", count := 2 }
    listedDocuments.mapM Node.ofJson = .ok listedNodes.toList ∧
      relistedDocuments.mapM Node.ofJson = .ok relistedNodes.toList ∧
      (∃ positions : List (Fin 2),
        select listedNodes.toList spec Draws.still = .ok (positions.map listedNodes.get) ∧
        select relistedNodes.toList spec Draws.still = .ok (positions.map relistedNodes.get)) ∧
      select (relistedNodes.get 1 :: listedNodes.toList) spec Draws.still =
        select listedNodes.toList spec Draws.still := by
  intro spec
  obtain ⟨hlists, hpadded⟩ := selection_by_standing
  refine ⟨by rfl, by rfl, ?_, ?_⟩
  · have halike : ∀ i, (listedNodes.get i).SelectedLike (relistedNodes.get i) := by decide +kernel
    rcases (hlists halike spec Draws.still).2 with ⟨e, herror, -⟩ | ⟨positions, -, -, -, hselect⟩
    · have hknown := (select_eq_error_iff.1 herror).2.1 .random
      exact absurd rfl hknown
    · exact ⟨positions, hselect⟩
  · have hsame : Padded listedNodes.toList listedNodes.toList := .keep _ (.keep _ .nil)
    exact hpadded (.insert (by decide +kernel) hsame) spec Draws.still

end FleetLabels
