import FleetLabels.Proofs.Ownership
import FleetLabels.Proofs.Precedence

/-!
# Selections before and after an event

A node joins a fleet, leaves it, or changes its readiness. How far does the selection move? Under an
ordered strategy, not far. In the arrangement of the ready nodes that one node is put in or taken out
somewhere, and all others keep their order; of the first so many of them, at most one is pushed out
at the end, or moves up.

That the others keep their order rests on names being distinct: no two nodes are then equal to the
order, so that it does not matter where in the fleet the node is listed.

## Main results

* `NodeEvent.ready` — what an event does to the list of the ready nodes.
* `Strategy.arrange_eq_of_pairwise` — distinct nodes can be arranged in one way only.
* `Gains.arrange`, `Gains.take` — from there to the arrangement, and to its first part.
* `smallChange_of_event` — the selections before and after one event.
-/

namespace FleetLabels

/-! ## One node among the others -/

/-- Something happens to the node of a name, and nothing to the others: it joins somewhere, it
leaves, or it is ready from now on, or ready no longer. -/
inductive NodeEvent (name : String) : List Node → List Node → Prop where
  | joins (a b : List Node) (n : Node) (hname : n.name = name)
      (hnew : name ∉ (a ++ b).map Node.name) : NodeEvent name (a ++ b) (a ++ n :: b)
  | leaves (a b : List Node) (n : Node) (hname : n.name = name) :
      NodeEvent name (a ++ n :: b) (a ++ b)
  | flips (a b : List Node) (n n' : Node) (hname : n.name = name) (hname' : n'.name = name)
      (hlabels : n'.labels = n.labels) (hready : n'.isReady = !n.isReady) :
      NodeEvent name (a ++ n :: b) (a ++ n' :: b)

/-- The second list has one node more than the first, and that is the one of the name. -/
inductive Gains (name : String) : List Node → List Node → Prop where
  | intro (a b : List Node) (n : Node) (hname : n.name = name) :
      Gains name (a ++ b) (a ++ n :: b)

theorem Node.ready_cons (n : Node) (nodes : List Node) :
    ready (n :: nodes) = if n.isReady = true then n :: ready nodes else ready nodes :=
  List.filter_cons

theorem Node.ready_append (a b : List Node) : ready (a ++ b) = ready a ++ ready b :=
  List.filter_append ..

namespace NodeEvent

variable {name : String} {nodes nodes' : List Node}

theorem distinct (h : NodeEvent name nodes nodes') (hdistinct : DistinctNames nodes) :
    DistinctNames nodes' := by
  have hmiddle : ∀ {a b : List Node} {n : Node}, DistinctNames (a ++ n :: b) ↔
      DistinctNames (n :: (a ++ b)) := fun {a b n} =>
    (List.perm_middle.map Node.name).nodup_iff
  cases h with
  | joins a b n hname hnew => exact hmiddle.2 (List.nodup_cons.2 ⟨hname ▸ hnew, hdistinct⟩)
  | leaves a b n hname => exact (hmiddle.1 hdistinct).tail
  | flips a b n n' hname hname' _ _ =>
      have hsame : (a ++ n' :: b).map Node.name = (a ++ n :: b).map Node.name := by
        rw [List.map_append, List.map_append, List.map_cons, List.map_cons, hname, hname']
      rw [DistinctNames, hsame]
      exact hdistinct

/-- The other nodes were there before. -/
theorem mem_of_name_ne (h : NodeEvent name nodes nodes') {m : Node} (hm : m ∈ nodes')
    (hne : m.name ≠ name) : m ∈ nodes := by
  cases h with
  | joins a b n hname _ =>
      rcases List.mem_append.1 hm with hm | hm
      · exact List.mem_append_left _ hm
      · rcases List.mem_cons.1 hm with rfl | hm
        · exact absurd hname hne
        · exact List.mem_append_right _ hm
  | leaves a b n _ =>
      rcases List.mem_append.1 hm with hm | hm
      · exact List.mem_append_left _ hm
      · exact List.mem_append_right _ (List.mem_cons_of_mem _ hm)
  | flips a b n n' _ hname' _ _ =>
      rcases List.mem_append.1 hm with hm | hm
      · exact List.mem_append_left _ hm
      · rcases List.mem_cons.1 hm with rfl | hm
        · exact absurd hname' hne
        · exact List.mem_append_right _ (List.mem_cons_of_mem _ hm)

/-- The node itself is a new one, or one of its name was there before and had the same labels. -/
theorem labels_cases (h : NodeEvent name nodes nodes') {m : Node} (hm : m ∈ nodes')
    (hname : m.name = name) :
    name ∉ nodes.map Node.name ∨ ∃ n ∈ nodes, n.name = name ∧ m.labels = n.labels := by
  cases h with
  | joins a b n _ hnew => exact .inl hnew
  | leaves a b n _ =>
      refine .inr ⟨m, ?_, hname, rfl⟩
      exact (List.sublist_cons_self n b).append_left a |>.subset hm
  | flips a b n n' hname' _ hlabels _ =>
      right
      rcases List.mem_append.1 hm with hm | hm
      · exact ⟨m, List.mem_append_left _ hm, hname, rfl⟩
      · rcases List.mem_cons.1 hm with rfl | hm
        · exact ⟨n, List.mem_append_right _ List.mem_cons_self, hname', hlabels⟩
        · exact ⟨m, List.mem_append_right _ (List.mem_cons_of_mem _ hm), hname, rfl⟩

/-- Of the ready nodes there is one more, one less, or they are the same. -/
theorem ready (h : NodeEvent name nodes nodes') :
    Node.ready nodes' = Node.ready nodes ∨ Gains name (Node.ready nodes) (Node.ready nodes') ∨
      Gains name (Node.ready nodes') (Node.ready nodes) := by
  have hgains : ∀ (a b : List Node) (n : Node), n.name = name → n.isReady = true →
      Gains name (Node.ready (a ++ b)) (Node.ready (a ++ n :: b)) := by
    intro a b n hname hready
    rw [Node.ready_append, Node.ready_append, Node.ready_cons, if_pos hready]
    exact .intro _ _ n hname
  have hsame : ∀ (a b : List Node) (n : Node), n.isReady = false →
      Node.ready (a ++ n :: b) = Node.ready (a ++ b) := by
    intro a b n hready
    rw [Node.ready_append, Node.ready_append, Node.ready_cons, hready]
    rfl
  cases h with
  | joins a b n hname _ =>
      cases hready : n.isReady with
      | true => exact .inr (.inl (hgains a b n hname hready))
      | false => exact .inl (hsame a b n hready)
  | leaves a b n hname =>
      cases hready : n.isReady with
      | true => exact .inr (.inr (hgains a b n hname hready))
      | false => exact .inl (hsame a b n hready).symm
  | flips a b n n' hname hname' _ hflip =>
      cases hready : n.isReady with
      | true =>
          have hready' : n'.isReady = false := by rw [hflip, hready]; rfl
          rw [hsame a b n' hready']
          exact .inr (.inr (hgains a b n hname hready))
      | false =>
          have hready' : n'.isReady = true := by rw [hflip, hready]; rfl
          rw [hsame a b n hready]
          exact .inr (.inl (hgains a b n' hname' hready'))

end NodeEvent

/-! ## Small changes of a selection -/

/-- A name is in one of the lists, and not in both. -/
def Moves (before after : List Node) (name : String) : Prop :=
  ¬(name ∈ before.map Node.name ↔ name ∈ after.map Node.name)

/-- From one selection to the other, at most one node has come or gone besides the one of the name;
those that are in both stand in the same order; and nothing has changed at all if the node of the
name is in neither. -/
structure SmallChange (name : String) (before after : List Node) : Prop where
  other : ∀ y z, y ≠ name → z ≠ name → Moves before after y → Moves before after z → y = z
  order : (before.map Node.name).filter (· ∈ after.map Node.name) =
    (after.map Node.name).filter (· ∈ before.map Node.name)
  same : name ∉ before.map Node.name → name ∉ after.map Node.name → after = before

namespace SmallChange

variable {name : String} {before after : List Node}

theorem refl (name : String) (nodes : List Node) : SmallChange name nodes nodes :=
  ⟨fun _ _ _ _ h => absurd Iff.rfl h, rfl, fun _ _ => rfl⟩

theorem symm (h : SmallChange name before after) : SmallChange name after before :=
  ⟨fun y z hy hz hmy hmz => h.other y z hy hz (fun hiff => hmy hiff.symm) fun hiff => hmz hiff.symm,
    h.order.symm, fun hafter hbefore => (h.same hbefore hafter).symm⟩

end SmallChange

/-! ### Lists with one more item -/

section Lists

variable {α : Type}

/-- The first items of a list with one more item are those of the list without it, or that item has
pushed out the last of them. -/
theorem take_append_cons (l₁ l₂ : List α) (x : α) (k : Nat) :
    (l₁ ++ x :: l₂).take k = (l₁ ++ l₂).take k ∨
      ∃ (c : List α) (last : Option α), (l₁ ++ l₂).take k = l₁ ++ c ++ last.toList ∧
        (l₁ ++ x :: l₂).take k = l₁ ++ x :: c := by
  by_cases hk : k ≤ l₁.length
  · left
    rw [List.take_append_of_le_length hk, List.take_append_of_le_length hk]
  · right
    obtain ⟨j, rfl⟩ : ∃ j, k = l₁.length + (j + 1) := ⟨k - l₁.length - 1, by omega⟩
    refine ⟨l₂.take j, l₂[j]?, ?_, ?_⟩
    · rw [List.take_length_add_append, List.take_add_one, List.append_assoc]
    · rw [List.take_length_add_append, List.take_succ_cons]

/-- What two lists have in common, of which one has an item in the middle and the other one some at
its end. -/
theorem filter_common [DecidableEq α] {a c last : List α} {x : α} (hx : x ∉ a ++ c ++ last)
    (hlast : ∀ y ∈ last, y ∉ a ++ c) :
    (a ++ c ++ last).filter (· ∈ a ++ x :: c) = a ++ c ∧
      (a ++ x :: c).filter (· ∈ a ++ c ++ last) = a ++ c := by
  have hmem : ∀ y, y ∈ a ++ x :: c ↔ y = x ∨ y ∈ a ++ c := fun y => by
    rw [List.perm_middle.mem_iff, List.mem_cons]
  constructor
  · have hkept : (a ++ c).filter (· ∈ a ++ x :: c) = a ++ c :=
      List.filter_eq_self.2 fun y hy => decide_eq_true ((hmem y).2 (.inr hy))
    have hdropped : last.filter (· ∈ a ++ x :: c) = [] := by
      refine List.filter_eq_nil_iff.2 fun y hy hin => ?_
      rcases (hmem y).1 (of_decide_eq_true hin) with rfl | hold
      · exact hx (List.mem_append_right _ hy)
      · exact hlast y hy hold
    rw [List.filter_append, hkept, hdropped, List.append_nil]
  · have hkept : ∀ part : List α, part ⊆ a ++ c → part.filter (· ∈ a ++ c ++ last) = part :=
      fun part hpart => List.filter_eq_self.2 fun y hy =>
        decide_eq_true (List.mem_append_left _ (hpart hy))
    have hgone : (x :: c).filter (· ∈ a ++ c ++ last) = c.filter (· ∈ a ++ c ++ last) :=
      List.filter_cons_of_neg fun hin => hx (of_decide_eq_true hin)
    rw [List.filter_append, hgone, hkept a (List.subset_append_left a c),
      hkept c (List.subset_append_right a c)]

end Lists

/-! ### Selections with one more node -/

/-- A node that was not selected is selected, and the last node is not, if there is one. -/
theorem SmallChange.of_pushedOut {a c : List Node} {last : Option Node} {n : Node}
    (hdistinct : DistinctNames (a ++ c ++ last.toList))
    (hnew : n.name ∉ (a ++ c ++ last.toList).map Node.name) :
    SmallChange n.name (a ++ c ++ last.toList) (a ++ n :: c) := by
  have hpushed : ∀ y, y ≠ n.name → Moves (a ++ c ++ last.toList) (a ++ n :: c) y →
      y ∈ last.toList.map Node.name := by
    intro y hy hmoves
    refine Decidable.byContradiction fun hlast => hmoves ?_
    simp only [List.map_append, List.map_cons, List.mem_append, List.mem_cons, hy, hlast, or_false,
      false_or]
  constructor
  case other =>
    intro y z hy hz hmy hmz
    have hmy' := hpushed y hy hmy
    have hmz' := hpushed z hz hmz
    cases last with
    | none => cases hmy'
    | some m => rw [List.mem_singleton.1 hmy', List.mem_singleton.1 hmz']
  case order =>
    simp only [DistinctNames, List.map_append, List.map_cons] at hdistinct hnew ⊢
    have hlast : ∀ y ∈ last.toList.map Node.name, y ∉ a.map Node.name ++ c.map Node.name :=
      fun y hy hin => (List.nodup_append.1 hdistinct).2.2 y hin y hy rfl
    obtain ⟨hkept, hkept'⟩ := filter_common hnew hlast
    exact hkept.trans hkept'.symm
  case same =>
    intro _ hafter
    exact absurd (List.mem_map_of_mem (List.mem_append_right a List.mem_cons_self)) hafter

/-- Nodes of distinct names are not equal to the order. -/
theorem DistinctNames.standing {nodes : List Node} (h : DistinctNames nodes) :
    (nodes.map Node.standing).Nodup := by
  refine List.Nodup.of_map Prod.snd ?_
  rw [List.map_map]
  exact h

/-- No two nodes of a fleet are equal to the order, so that they can be arranged in one way only. -/
theorem Strategy.arrange_eq_of_pairwise {s : Strategy} (hs : s ≠ .random) {nodes sorted : List Node}
    (hdistinct : DistinctNames nodes) (hperm : sorted.Perm nodes)
    (hsorted : sorted.Pairwise fun a b => (s.compare a b).isLE = true) (draws : DrawSource) :
    s.arrange nodes draws = sorted :=
  arrange_eq_of_sorted hs hdistinct.standing hperm (hsorted.imp isLE_compare_iff.1) draws

/-- A selection is known from its nodes in order. -/
theorem select_eq_take_of_pairwise {spec : StrategySpec} {s : Strategy}
    (hparse : Strategy.parse spec.type = .ok s) (hs : s ≠ .random) {nodes sorted : List Node}
    (hdistinct : DistinctNames nodes) (hperm : sorted.Perm (Node.ready nodes))
    (hsorted : sorted.Pairwise fun a b => (s.compare a b).isLE = true) (draws : DrawSource) :
    select nodes spec draws = .ok (sorted.take spec.limit) := by
  have hready : DistinctNames (Node.ready nodes) := hdistinct.filter _
  rw [select_eq_take_arrange hparse nodes draws,
    s.arrange_eq_of_pairwise hs hready hperm hsorted draws]

namespace Gains

variable {name : String} {l l' : List Node}

/-- The node is put into the arrangement without moving any other. -/
theorem arrange {s : Strategy} (hs : s ≠ .random) (h : Gains name l l')
    (hdistinct : DistinctNames l') (draws draws' : DrawSource) :
    Gains name (s.arrange l draws) (s.arrange l' draws') := by
  cases h with
  | intro a b n hname =>
      have htotal : ∀ x y, ((s.compare x y).isLE || (s.compare y x).isLE) = true := isLE_or_isLE
      obtain ⟨l₁, l₂, hmore, hless, -⟩ := List.mergeSort_cons
        (fun _ _ _ => Std.TransCmp.isLE_trans) htotal n (a ++ b)
      -- It is known where the node is put when it is listed first, and it is put there anyhow.
      have hplace : s.arrange (a ++ n :: b) draws' = l₁ ++ n :: l₂ := by
        refine Strategy.arrange_eq_of_pairwise hs hdistinct ?_ ?_ draws'
        · exact hmore ▸ (List.mergeSort_perm ..).trans List.perm_middle.symm
        · exact hmore ▸ pairwise_mergeSort_isLE _
      rw [hplace, Strategy.arrange_eq_mergeSort hs, hless]
      exact .intro l₁ l₂ n hname

/-- Of the first nodes at most one is pushed out. -/
theorem take (h : Gains name l l') (hdistinct : DistinctNames l') (k : Nat) :
    SmallChange name (l.take k) (l'.take k) := by
  cases h with
  | intro a b n hname =>
      subst hname
      have hless : DistinctNames (n :: (a ++ b)) :=
        (List.perm_middle.map Node.name).nodup_iff.1 hdistinct
      have hbefore : DistinctNames ((a ++ b).take k) :=
        hless.tail.sublist ((List.take_sublist ..).map Node.name)
      have hnew : n.name ∉ ((a ++ b).take k).map Node.name := fun hin =>
        hless.head_notMem (((List.take_sublist ..).map Node.name).subset hin)
      rcases take_append_cons a b n k with hsame | ⟨c, last, htake, htake'⟩
      · rw [hsame]
        exact .refl ..
      rw [htake] at hbefore hnew
      rw [htake, htake']
      exact .of_pushedOut hbefore hnew

end Gains

theorem DistinctNames.arrange {nodes : List Node} (h : DistinctNames nodes) (s : Strategy)
    (draws : DrawSource) : DistinctNames (s.arrange nodes draws) :=
  ((s.arrange_perm nodes draws).map Node.name).nodup_iff.2 h

/-- The selections before and after an event, under an ordered strategy. -/
theorem smallChange_of_event {spec : StrategySpec} (hordered : spec.Ordered) {name : String}
    {nodes nodes' : List Node} (hdistinct : DistinctNames nodes)
    (hevent : NodeEvent name nodes nodes') (draws draws' : DrawSource) :
    ∃ before after, select nodes spec draws = .ok before ∧ select nodes' spec draws' = .ok after ∧
      SmallChange name before after := by
  obtain ⟨s, hs, hparse⟩ := hordered.parse
  have hready : DistinctNames (Node.ready nodes) := hdistinct.filter _
  have hready' : DistinctNames (Node.ready nodes') := (hevent.distinct hdistinct).filter _
  refine ⟨_, _, select_eq_take_arrange hparse nodes draws,
    select_eq_take_arrange hparse nodes' draws', ?_⟩
  rcases hevent.ready with hsame | hgain | hloss
  · rw [hsame, s.arrange_eq_of_ne_random hs _ draws draws']
    exact .refl ..
  · exact (hgain.arrange hs hready' draws draws').take (hready'.arrange ..) _
  · exact ((hloss.arrange hs hready draws' draws).take (hready.arrange ..) _).symm

end FleetLabels
