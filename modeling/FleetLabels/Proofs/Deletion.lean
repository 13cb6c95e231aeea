import FleetLabels.Fleet.Edit
import FleetLabels.Proofs.Ownership

/-!
# What a deleted policy leaves behind

A cleanup takes every key of the policy's key space off the marked nodes, so one would expect that
after the deletion of a policy no node carries such a key. Whether that is so depends on the history
of the policy. A node that leaves the selection loses the marker and the keys declared *at that
time*. A key under the prefix that only an earlier revision of the specification declared stays on
the node, and since the marker is gone, no later cleanup looks at the node again.

`History` is a run of passes and of edits from outside; `History.strays` is the ledger of the keys
that nodes were left with in this way. The ledger is exact: what the last pass of a deleted policy
leaves on the fleet is what the ledger says.

## Main results

* `Ledger.pass` and its companions — what one step of a history does to stranded keys.
* `History.ledger` — along every history the ledger lists exactly the stranded keys.
* `terminating_traceless_iff` — the deletion of a policy leaves no key of its key space behind if
  and only if the ledger is empty.
* `terminating_leaves_undeclared_key` — a history after which it does leave one.
-/

namespace FleetLabels

/-! ## Histories -/

/-- The edits that others may make between the passes of a policy: nodes come, without a key of the
policy's key space, go, and change their readiness; the specification of the policy is edited. -/
def Edit.Between (policy : String) (f : Fleet) : Edit → Prop
  | .putNode node =>
      node.name ∉ f.nodes.map Node.name ∧
        ∀ k, Marker.owns policy k = true → node.labels.get? k = none
  | .deleteNode _ => True
  | .setReady _ _ => True
  | .putPolicy p => ∃ old, f.policies.get? policy = some old ∧ p = { old with spec := p.spec }
  | _ => False

/-- A run of successful passes of a policy and of edits between them, from one fleet to another. -/
inductive History (policy : String) (start : Fleet) : Fleet → Type where
  | start : History policy start start
  | pass {f f' : Fleet} (h : History policy start f) (settings : PassSettings) {outcome : Outcome}
      (hrun : (Pass.reconcile settings policy).run Fleet.handler f = (.ok outcome, f')) :
      History policy start f'
  | edit {f : Fleet} (h : History policy start f) (e : Edit) (he : e.Between policy f) :
      History policy start (e.apply f)

/-- Where a history starts: a live policy stored under its own name, and a fleet without any key of
its key space. -/
structure Untouched (policy : String) (f : Fleet) : Prop where
  distinct : DistinctNames f.nodes
  record : ∃ p, f.policies.get? policy = some p ∧ p.name = policy ∧ p.isDeleting = false
  clean : ∀ n ∈ f.nodes, ∀ k, Marker.owns policy k = true → n.labels.get? k = none

/-- A marked node holds a key that is neither the marker nor declared, so that the pass at hand does
not take it away. -/
def Undeclared (policy : String) (f : Fleet) (name k : String) : Prop :=
  (∃ n ∈ f.nodes, n.name = name ∧ n.isManagedBy (Marker.key policy) = true ∧
      (n.labels.get? k).isSome = true) ∧
    k ≠ Marker.key policy ∧ ∀ p, f.policies.get? policy = some p → k ∉ p.spec.labels.keys

/-- The ledger of a history: which nodes were left with which keys. A key is entered when its node
leaves the selection while the policy does not declare the key, and struck out when the node is
selected again or goes. -/
def History.strays {policy : String} {start : Fleet} :
    {f : Fleet} → History policy start f → (name k : String) → Prop
  | _, .start, _, _ => False
  | f', .pass (f := f) h _ _, name, k =>
      (∀ n ∈ f'.nodes, n.name = name → n.isManagedBy (Marker.key policy) = false) ∧
        (h.strays name k ∨ Undeclared policy f name k)
  | _, .edit h e _, name, k => e ≠ .deleteNode name ∧ h.strays name k

/-! ## Stranded keys -/

/-- An unmarked node holds a key. No pass will take it away any more unless the node is selected
again. -/
def Stranded (policy : String) (nodes : List Node) (name k : String) : Prop :=
  ∃ n ∈ nodes, n.name = name ∧ n.isManagedBy (Marker.key policy) = false ∧
    (n.labels.get? k).isSome = true

/-- A ledger is exact on a fleet. -/
structure Ledger (policy : String) (f : Fleet) (strays : String → String → Prop) : Prop where
  distinct : DistinctNames f.nodes
  record : ∃ p, f.policies.get? policy = some p ∧ p.name = policy ∧ p.isDeleting = false
  /-- The marker never has another value than that of a managed node. -/
  marker : ∀ n ∈ f.nodes, n.isManagedBy (Marker.key policy) = false →
    n.labels.get? (Marker.key policy) = none
  exact : ∀ name k, Marker.owns policy k = true →
    (strays name k ↔ Stranded policy f.nodes name k)

namespace Ledger

variable {policy : String} {f : Fleet} {strays : String → String → Prop}

theorem start (h : Untouched policy f) : Ledger policy f fun _ _ => False where
  distinct := h.distinct
  record := h.record
  marker n hn _ := h.clean n hn _ (Marker.owns_key policy)
  exact name k hk := by
    refine ⟨False.elim, ?_⟩
    rintro ⟨n, hn, -, -, hsome⟩
    rw [h.clean n hn k hk] at hsome
    cases hsome

/-- The nodes of a settled fleet that hold a stranded key, told by what they were before. -/
private theorem stranded_settled_iff {p : Policy} {nodes : List Node} {selected : List String}
    {name k : String} :
    Stranded p.name (nodes.map (p.settled selected)) name k ↔
      ∃ n ∈ nodes, n.name = name ∧ name ∉ selected ∧ (n.labels.get? k).isSome = true ∧
        (n.isManagedBy p.markerKey = true → k ≠ p.markerKey ∧ k ∉ p.spec.labels.keys) := by
  have hstays : ∀ n : Node, n.name ∉ selected →
      (((p.settled selected n).labels.get? k).isSome = true ↔
        (n.labels.get? k).isSome = true ∧
          (n.isManagedBy p.markerKey = true → k ≠ p.markerKey ∧ k ∉ p.spec.labels.keys)) := by
    intro n hmem
    cases hmarked : n.isManagedBy p.markerKey with
    | false => simp [Policy.settled_of_unmarked hmem hmarked]
    | true =>
        rw [Policy.settled_of_marked hmem hmarked, Node.get?_left]
        by_cases hgone : k = p.markerKey ∨ k ∈ p.spec.labels.keys
        · simp [← not_or, hgone]
        · simp [← not_or, hgone]
  constructor
  · rintro ⟨n', hn', hname, hunmarked, hsome⟩
    obtain ⟨n, hn, rfl⟩ := List.mem_map.1 hn'
    rw [p.name_settled] at hname
    have hmem : n.name ∉ selected := (p.isManagedBy_settled_eq_false selected n).1 hunmarked
    exact ⟨n, hn, hname, hname ▸ hmem, (hstays n hmem).1 hsome⟩
  · rintro ⟨n, hn, rfl, hmem, hsome⟩
    exact ⟨p.settled selected n, List.mem_map_of_mem hn, p.name_settled _ n,
      (p.isManagedBy_settled_eq_false selected n).2 hmem, (hstays n hmem).2 hsome⟩

/-- After a pass no unmarked node holds the key of the marker. -/
private theorem marker_settled {p : Policy} {nodes : List Node} (selected : List String)
    (h : ∀ n ∈ nodes, n.isManagedBy p.markerKey = false → n.labels.get? p.markerKey = none) :
    ∀ n ∈ nodes.map (p.settled selected), n.isManagedBy p.markerKey = false →
      n.labels.get? p.markerKey = none := by
  intro n' hn' hunmarked
  obtain ⟨n, hn, rfl⟩ := List.mem_map.1 hn'
  have hmem := (p.isManagedBy_settled_eq_false selected n).1 hunmarked
  cases hmarked : n.isManagedBy p.markerKey with
  | false =>
      rw [Policy.settled_of_unmarked hmem hmarked]
      exact h n hn hmarked
  | true => rw [Policy.settled_of_marked hmem hmarked, Node.get?_left, if_pos (.inl rfl)]

/-- A pass strands what the unselected nodes hold beyond the marker and the declared keys. -/
theorem pass (h : Ledger policy f strays) {f' : Fleet} {settings : PassSettings}
    {outcome : Outcome}
    (hrun : (Pass.reconcile settings policy).run Fleet.handler f = (.ok outcome, f')) :
    Ledger policy f' fun name k =>
      (∀ n ∈ f'.nodes, n.name = name → n.isManagedBy (Marker.key policy) = false) ∧
        (strays name k ∨ Undeclared policy f name k) := by
  obtain ⟨p, hstored, rfl, hlive⟩ := h.record
  rw [Pass.run_reconcile_live h.distinct settings hstored hlive] at hrun
  cases hselect : select f.nodes p.spec.strategy settings.draws with
  | error e =>
      rw [hselect] at hrun
      cases hrun
  | ok selected =>
      rw [hselect] at hrun
      cases hrun
      have hown := ownsExactly_settled h.distinct hselect
      constructor
      case distinct =>
        rw [DistinctNames, hown.names]
        exact h.distinct
      case record =>
        unfold Pass.withTracked
        split
        next => exact ⟨p, hstored, rfl, hlive⟩
        next => exact ⟨p.track, by rw [KeyMap.get?_insert, if_pos rfl], rfl, hlive⟩
      case marker => exact marker_settled _ h.marker
      case exact =>
        intro name k hk
        rw [stranded_settled_iff]
        constructor
        · rintro ⟨hout, hstray⟩
          have hmem : ∀ n ∈ f.nodes, n.name = name → name ∉ selected.map Node.name := by
            rintro n hn rfl
            have hunmarked := hout _ (List.mem_map_of_mem hn) (p.name_settled _ n)
            exact (p.isManagedBy_settled_eq_false _ n).1 hunmarked
          rcases hstray with hstray | ⟨⟨n, hn, hname, -, hsome⟩, hmarker, hdeclared⟩
          · obtain ⟨n, hn, hname, hunmarked, hsome⟩ := (h.exact name k hk).1 hstray
            refine ⟨n, hn, hname, hmem n hn hname, hsome, fun hmarked => ?_⟩
            exact absurd hmarked (ne_true_of_eq_false hunmarked)
          · exact ⟨n, hn, hname, hmem n hn hname, hsome, fun _ => ⟨hmarker, hdeclared p hstored⟩⟩
        · rintro ⟨n, hn, rfl, hmem, hsome, hundeclared⟩
          constructor
          · intro m' hm' hname
            exact eq_false_of_ne_true fun hmarked =>
              hmem (hname ▸ (hown.marked m' hm').1 hmarked)
          · cases hmarked : n.isManagedBy p.markerKey with
            | false => exact .inl ((h.exact n.name k hk).2 ⟨n, hn, rfl, hmarked, hsome⟩)
            | true =>
                obtain ⟨hmarker, hdeclared⟩ := hundeclared hmarked
                refine .inr ⟨⟨n, hn, rfl, hmarked, hsome⟩, hmarker, fun q hq => ?_⟩
                rw [hstored] at hq
                exact Option.some.inj hq ▸ hdeclared

/-! ### Edits -/

/-- A node that comes has no key of the key space. -/
theorem putNode (h : Ledger policy f strays) {node : Node}
    (he : Edit.Between policy f (.putNode node)) :
    Ledger policy (Edit.apply f (.putNode node)) strays := by
  obtain ⟨hnew, hclean⟩ := he
  have hnodes : (Edit.apply f (.putNode node)).nodes = f.nodes ++ [node] := by
    have hnone : Fleet.replaceNode node f.nodes = none := by
      cases hreplace : Fleet.replaceNode node f.nodes with
      | none => rfl
      | some nodes => exact absurd (Fleet.mem_names_of_replaceNode hreplace) hnew
    simp only [Edit.apply, hnone, Option.getD_none]
  constructor
  case distinct =>
    rw [hnodes, DistinctNames, List.map_append, List.nodup_append]
    refine ⟨h.distinct, List.nodup_singleton _, ?_⟩
    rintro a ha b hb rfl
    exact hnew (List.mem_singleton.1 hb ▸ ha)
  case record => exact h.record
  case marker =>
    intro n hn hunmarked
    rcases List.mem_append.1 (hnodes ▸ hn) with hn | hn
    · exact h.marker n hn hunmarked
    · rw [List.mem_singleton.1 hn]
      exact hclean _ (Marker.owns_key policy)
  case exact =>
    intro name k hk
    rw [h.exact name k hk, hnodes]
    constructor
    · rintro ⟨n, hn, hstranded⟩
      exact ⟨n, List.mem_append_left _ hn, hstranded⟩
    · rintro ⟨n, hn, hname, hunmarked, hsome⟩
      rcases List.mem_append.1 hn with hn | hn
      · exact ⟨n, hn, hname, hunmarked, hsome⟩
      · rw [List.mem_singleton.1 hn, hclean k hk] at hsome
        cases hsome

theorem deleteNode (h : Ledger policy f strays) (gone : String) :
    Ledger policy (Edit.apply f (.deleteNode gone)) fun name k =>
      Edit.deleteNode gone ≠ .deleteNode name ∧ strays name k where
  distinct := h.distinct.filter _
  record := h.record
  marker n hn := h.marker n (List.mem_filter.1 hn).1
  exact name k hk := by
    rw [h.exact name k hk]
    constructor
    · rintro ⟨hne, n, hn, rfl, hstranded⟩
      have hkept : (n.name != gone) = true := bne_iff_ne.2 fun heq => hne (heq ▸ rfl)
      exact ⟨n, List.mem_filter.2 ⟨hn, hkept⟩, rfl, hstranded⟩
    · rintro ⟨n, hn, rfl, hstranded⟩
      obtain ⟨hn, hkept⟩ := List.mem_filter.1 hn
      refine ⟨fun heq => ?_, n, hn, rfl, hstranded⟩
      cases heq
      simp at hkept

private theorem exists_same {nodes nodes' : List Node}
    (hsame : nodes'.map (fun n => (n.name, n.labels)) = nodes.map fun n => (n.name, n.labels)) :
    ∀ n ∈ nodes, ∃ m ∈ nodes', m.name = n.name ∧ m.labels = n.labels := by
  intro n hn
  have hmem : (n.name, n.labels) ∈ nodes'.map fun n => (n.name, n.labels) :=
    hsame ▸ List.mem_map_of_mem hn
  obtain ⟨m, hm, heq⟩ := List.mem_map.1 hmem
  exact ⟨m, hm, congrArg Prod.fst heq, congrArg Prod.snd heq⟩

private theorem Stranded.of_same {nodes nodes' : List Node}
    (hsame : nodes'.map (fun n => (n.name, n.labels)) = nodes.map fun n => (n.name, n.labels))
    {name k : String} (h : Stranded policy nodes name k) : Stranded policy nodes' name k := by
  obtain ⟨n, hn, hname, hunmarked, hsome⟩ := h
  obtain ⟨m, hm, hmname, hlabels⟩ := exists_same hsame n hn
  refine ⟨m, hm, hmname.trans hname, ?_, hlabels ▸ hsome⟩
  rw [Node.isManagedBy, hlabels]
  exact hunmarked

/-- Names and labels are all that a ledger looks at. -/
theorem congr_nodes (h : Ledger policy f strays) {nodes : List Node}
    (hsame : nodes.map (fun n => (n.name, n.labels)) = f.nodes.map fun n => (n.name, n.labels)) :
    Ledger policy { f with nodes } strays := by
  constructor
  case distinct =>
    have hnames : nodes.map Node.name = f.nodes.map Node.name := by
      simpa [List.map_map, Function.comp_def] using congrArg (List.map Prod.fst) hsame
    show (nodes.map Node.name).Nodup
    rw [hnames]
    exact h.distinct
  case record => exact h.record
  case marker =>
    intro n hn
    obtain ⟨m, hm, -, hlabels⟩ := exists_same hsame.symm n hn
    rw [Node.isManagedBy, ← hlabels]
    exact h.marker m hm
  case exact =>
    intro name k hk
    rw [h.exact name k hk]
    exact ⟨Stranded.of_same hsame, Stranded.of_same hsame.symm⟩

private theorem map_changeNode {β : Type} {name : String} {change : Node → Node} {view : Node → β}
    (hview : ∀ n, view (change n) = view n) (nodes : List Node) :
    (Edit.changeNode name change nodes).map view = nodes.map view := by
  induction nodes with
  | nil => rfl
  | cons n rest ih =>
      rw [Edit.changeNode]
      split
      · rw [List.map_cons, List.map_cons, hview]
      · rw [List.map_cons, List.map_cons, ih]

theorem setReady (h : Ledger policy f strays) (name status : String) :
    Ledger policy (Edit.apply f (.setReady name status)) strays := by
  have hview : ∀ n, ((Edit.withReady n status).name, (Edit.withReady n status).labels) =
      (n.name, n.labels) := fun _ => rfl
  exact h.congr_nodes (map_changeNode hview f.nodes)

theorem putPolicy (h : Ledger policy f strays) {p : Policy}
    (he : Edit.Between policy f (.putPolicy p)) :
    Ledger policy (Edit.apply f (.putPolicy p)) strays := by
  obtain ⟨old, hold, hp⟩ := he
  obtain ⟨q, hstored, hname, hlive⟩ := h.record
  rw [hold] at hstored
  cases hstored
  have hpname : p.name = policy := by rw [hp]; exact hname
  have hplive : p.isDeleting = false := by rw [hp]; exact hlive
  have hrecord : (f.policies.insert p.name p).get? policy = some p := by
    rw [KeyMap.get?_insert, if_pos hpname.symm]
  exact ⟨h.distinct, ⟨p, hrecord, hpname, hplive⟩, h.marker, h.exact⟩

theorem congr (h : Ledger policy f strays) {strays' : String → String → Prop}
    (hiff : ∀ name k, strays' name k ↔ strays name k) : Ledger policy f strays' :=
  ⟨h.distinct, h.record, h.marker, fun name k hk => (hiff name k).trans (h.exact name k hk)⟩

end Ledger

/-! ## Whole histories -/

/-- Along a history the ledger lists exactly the stranded keys. -/
theorem History.ledger {policy : String} {start f : Fleet} (hstart : Untouched policy start)
    (h : History policy start f) : Ledger policy f h.strays := by
  induction h with
  | start => exact Ledger.start hstart
  | pass h settings hrun ih => exact ih.pass hrun
  | edit h e he ih =>
      cases e with
      | putNode node => exact (ih.putNode he).congr fun name k => by simp [strays]
      | deleteNode gone => exact ih.deleteNode gone
      | setReady name status => exact (ih.setReady name status).congr fun name k => by simp [strays]
      | putPolicy p => exact (ih.putPolicy he).congr fun name k => by simp [strays]
      | setLabels | requestDeletion | removePolicy => exact he.elim

/-- A policy whose deletion was requested at a time. -/
def Policy.deletedAt (p : Policy) (time : Instant) : Policy :=
  { p with metadata := { p.metadata with deletionTimestamp := some time } }

theorem apply_requestDeletion {f : Fleet} {p : Policy} (hstored : f.policies.get? p.name = some p)
    (time : Instant) :
    Edit.apply f (.requestDeletion p.name time) =
      { f with policies := f.policies.insert p.name (p.deletedAt time) } := by
  simp only [Edit.apply, hstored]
  rfl

section Terminating

variable {policy : String} {start f f' : Fleet} {time : Instant} {settings : PassSettings}
  {outcome : Outcome}

/-- The last pass takes the key space off the marked nodes, and off no other. -/
theorem Ledger.terminating {strays : String → String → Prop} (h : Ledger policy f strays)
    (hrun : (Pass.reconcile settings policy).run Fleet.handler
      (Edit.apply f (.requestDeletion policy time)) = (.ok outcome, f')) {name k : String}
    (hk : Marker.owns policy k = true) :
    (∃ n ∈ f'.nodes, n.name = name ∧ (n.labels.get? k).isSome = true) ↔ strays name k := by
  obtain ⟨p, hstored, rfl, -⟩ := h.record
  have hrecord : (f.policies.insert p.name (p.deletedAt time)).get? p.name =
      some (p.deletedAt time) := by
    rw [KeyMap.get?_insert, if_pos rfl]
  have hpass := Pass.run_reconcile_terminating
    (f := { f with policies := f.policies.insert p.name (p.deletedAt time) })
    h.distinct settings hrecord rfl
  rw [apply_requestDeletion hstored, hpass] at hrun
  have hnodes : f'.nodes = f.nodes.map (Node.cleaned p.name p.spec.labels) := by
    cases hrun
    rfl
  rw [h.exact name k hk, hnodes]
  constructor
  · rintro ⟨n', hn', hname, hsome⟩
    obtain ⟨n, hn, rfl⟩ := List.mem_map.1 hn'
    rw [Node.get?_cleaned_of_owns hk] at hsome
    rw [Node.name_cleaned] at hname
    cases hmarked : n.isManagedBy (Marker.key p.name) with
    | false =>
        rw [hmarked] at hsome
        exact ⟨n, hn, hname, hmarked, hsome⟩
    | true =>
        rw [hmarked] at hsome
        cases hsome
  · rintro ⟨n, hn, hname, hunmarked, hsome⟩
    refine ⟨n.cleaned p.name p.spec.labels, List.mem_map_of_mem hn,
      (n.name_cleaned ..).trans hname, ?_⟩
    rw [Node.get?_cleaned_of_owns hk, hunmarked]
    exact hsome

/-- **Deletion convergence, exactly**: after a deletion request and the pass that follows it, no
node carries a key of the policy's key space if and only if no node was left with such a key, by
leaving the selection while the policy did not declare it, and stayed in the fleet unselected. -/
theorem terminating_traceless_iff (hstart : Untouched policy start) (h : History policy start f)
    (settings : PassSettings)
    (hrun : (Pass.reconcile settings policy).run Fleet.handler
      (Edit.apply f (.requestDeletion policy time)) = (.ok outcome, f')) :
    (∀ n ∈ f'.nodes, ∀ k, Marker.owns policy k = true → n.labels.get? k = none) ↔
      ∀ name k, Marker.owns policy k = true → ¬h.strays name k := by
  have hledger := h.ledger hstart
  constructor
  · intro hclean name k hk hstray
    obtain ⟨n, hn, -, hsome⟩ := (hledger.terminating hrun hk).2 hstray
    rw [hclean n hn k hk] at hsome
    cases hsome
  · intro hempty n hn k hk
    cases hvalue : n.labels.get? k with
    | none => rfl
    | some v =>
        refine absurd ((hledger.terminating hrun hk).1 ⟨n, hn, rfl, ?_⟩) (hempty n.name k hk)
        rw [hvalue]
        rfl

end Terminating

/-! ## A key that stays

A policy declares a key under its own prefix, and an edit drops the key from the specification. The
only node is not ready when the next pass runs, so it leaves the selection with the key on it.
-/

/-- One ready node, and a policy that labels it under its own prefix. -/
def prefixedFleet : Fleet where
  nodes := [.plain "a" "True" []]
  policies :=
    Fleet.policiesOf [.plain "web" "random" 1 [("nlp.lento.dev.web/tier", "front")]]

/-- The policy as it is edited after the first pass: without the label. -/
def editedPolicy : Policy := (Policy.plain "web" "random" 1 []).track

/-- The fleet after a pass. -/
def Fleet.afterPass (f : Fleet) (policy : String) : Fleet :=
  ((Pass.reconcile .plain policy).run Fleet.handler f).2

/-- The fleet after both edits. -/
def editedFleet : Fleet :=
  Edit.apply (Edit.apply (prefixedFleet.afterPass "web") (.putPolicy editedPolicy))
    (.setReady "a" "False")

/-- The first pass, the two edits, and a second pass. -/
def droppedKeyHistory : History "web" prefixedFleet (editedFleet.afterPass "web") :=
  let labeled : History "web" prefixedFleet (prefixedFleet.afterPass "web") :=
    History.start.pass .plain rfl
  let edited : History "web" prefixedFleet editedFleet :=
    (labeled.edit (.putPolicy editedPolicy) ⟨_, rfl, rfl⟩).edit (.setReady "a" "False") trivial
  edited.pass .plain rfl

theorem untouched_prefixedFleet : Untouched "web" prefixedFleet where
  distinct := by decide
  record := ⟨.plain "web" "random" 1 [("nlp.lento.dev.web/tier", "front")], by decide⟩
  clean := by
    intro n hn k _
    rw [List.mem_singleton.1 hn]
    rfl

/-- The history of the dropped key, on both sides of the equivalence. -/
theorem terminating_traceless_iff_droppedKey :
    let deleted := Edit.apply (editedFleet.afterPass "web")
      (.requestDeletion "web" PassSettings.plain.now)
    (∀ n ∈ (deleted.afterPass "web").nodes, ∀ k, Marker.owns "web" k = true →
        n.labels.get? k = none) ↔
      ∀ name k, Marker.owns "web" k = true → ¬droppedKeyHistory.strays name k :=
  terminating_traceless_iff untouched_prefixedFleet droppedKeyHistory .plain rfl

/-- A deletion that succeeds, record and all, and a node that still carries a key of the policy's
key space. -/
theorem terminating_leaves_undeclared_key :
    let deleted := Edit.apply (editedFleet.afterPass "web")
      (.requestDeletion "web" PassSettings.plain.now)
    Untouched "web" prefixedFleet ∧
      Nonempty (History "web" prefixedFleet (editedFleet.afterPass "web")) ∧
      (Pass.reconcile .plain "web").run Fleet.handler deleted =
        (.ok .done, deleted.afterPass "web") ∧
      (deleted.afterPass "web").policies.get? "web" = none ∧
      Marker.owns "web" "nlp.lento.dev.web/tier" = true ∧
      ∃ n ∈ (deleted.afterPass "web").nodes,
        n.labels.get? "nlp.lento.dev.web/tier" = some "front" := by
  refine ⟨untouched_prefixedFleet, ⟨droppedKeyHistory⟩, rfl, by decide, by decide, ?_⟩
  decide

end FleetLabels
