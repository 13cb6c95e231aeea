import FleetLabels.Proofs.InMemory
import FleetLabels.Proofs.Versioned.Cluster
import FleetLabels.Proofs.Versioned.Steps

/-!
# Passes of several policies at once

Policies whose keys do not overlap do not get in each other's way, however their passes are
interleaved. The view that a pass has of its own marker, taken once when it lists the fleet, stays
right to its end, although the nodes themselves may change in the meantime; a write that was made
from an outdated copy is rejected, and ends its pass.

What is left of a pass while it writes is a list of writes, and the state it is heading for is told
by the stored nodes and that list (`Heading`): a node will be marked in the end if its write says
so, or if there is none and it is marked already.

## Main results

* `Heading.write` — an accepted write leaves a pass heading for the same state.
* `Pass.keeps_reconcile_own` — a pass does own steps, and records what it marked.
* `interleaving_exact` — what holds along every interleaving of passes.
-/

namespace FleetLabels

/-! ## Where a pass is heading -/

/-- Once the given writes are made, exactly the given names are those of marked nodes. -/
structure Heading (policy : String) (selected : List String) (writes : List Node)
    (s : VersionedFleet) : Prop where
  distinct : DistinctNames writes
  marked : ∀ n ∈ s.nodes, ((named? n.name writes).getD n).isManagedBy (Marker.key policy) = true ↔
    n.name ∈ selected
  listed : ∀ name ∈ selected, ∃ n ∈ s.nodes, n.name = name

/-- The given names are those of the marked nodes. -/
def MarksExactly (policy : String) (selected : List String) (s : VersionedFleet) : Prop :=
  ∀ name, name ∈ selected ↔ ∃ n ∈ s.nodes, n.name = name ∧ n.isManagedBy (Marker.key policy) = true

section Heading

variable {policy : String} {selected : List String} {writes : List Node} {s t : VersionedFleet}

theorem Heading.others (h : Heading policy selected writes s) (hst : OthersStep policy s t) :
    Heading policy selected writes t := by
  constructor
  case distinct => exact h.distinct
  case marked =>
    intro n' hn'
    obtain ⟨n, hn, hview⟩ := hst.exists_before hn'
    obtain ⟨hname, hmarker⟩ := Prod.mk.inj hview
    rw [← hname, ← h.marked n hn]
    cases named? n.name writes with
    | none =>
        show n'.isManagedBy _ = true ↔ n.isManagedBy _ = true
        rw [hmarker]
    | some w => exact Iff.rfl
  case listed =>
    intro name hname
    obtain ⟨n, hn, rfl⟩ := h.listed name hname
    obtain ⟨n', hn', hview⟩ := hst.exists_after hn
    exact ⟨n', hn', (Prod.mk.inj hview).1⟩

/-- An accepted write leaves a pass heading for the same state. -/
theorem Heading.write {w : Node} {rest : List Node} (h : Heading policy selected (w :: rest) s)
    (version : String) : Heading policy selected rest (s.putNode version w) := by
  constructor
  case distinct => exact h.distinct.tail
  case marked =>
    intro n' hn'
    obtain ⟨n, hn, rfl⟩ := List.mem_map.1 hn'
    have hmarked := h.marked n hn
    rw [named?_cons] at hmarked ⊢
    rw [Node.name_stamped]
    by_cases hname : w.name = n.name
    · -- The node just written has no further write.
      have hother : named? w.name rest = none := named?_eq_none_iff.2 h.distinct.head_notMem
      rw [if_pos hname] at hmarked ⊢
      rw [Option.getD_some, Node.name_stamped, hother, hname]
      exact hmarked
    · rw [if_neg hname] at hmarked ⊢
      exact hmarked
  case listed =>
    intro name hname
    obtain ⟨n, hn, rfl⟩ := h.listed name hname
    have hnames : n.name ∈ (s.putNode version w).nodes.map Node.name := by
      rw [VersionedFleet.putNode, Fleet.map_name_overlay]
      exact List.mem_map_of_mem hn
    exact List.mem_map.1 hnames

theorem Heading.marksExactly (h : Heading policy selected [] s) :
    MarksExactly policy selected s := by
  intro name
  constructor
  · intro hname
    obtain ⟨n, hn, rfl⟩ := h.listed name hname
    exact ⟨n, hn, rfl, (h.marked n hn).2 hname⟩
  · rintro ⟨n, hn, rfl, hmarked⟩
    exact (h.marked n hn).1 hmarked

/-- Right after the listing the writes of a pass head for its selection. -/
theorem heading_applyWrites {p : Policy} {selected : List Node} (hsub : selected ⊆ s.nodes)
    (hsel : DistinctNames selected) :
    Heading p.name (selected.map Node.name) (Pass.applyWrites p s.nodes selected) s := by
  constructor
  case distinct => exact Pass.distinctNames_applyWrites s.distinct hsel
  case marked =>
    intro n hn
    have hsettled : (named? n.name (Pass.applyWrites p s.nodes selected)).getD n =
        p.settled (selected.map Node.name) n :=
      List.map_inj_left.1 (Pass.overlay_applyWrites s.distinct hsub hsel) n hn
    rw [hsettled]
    exact p.isManagedBy_settled _ n
  case listed =>
    intro name hname
    obtain ⟨n, hn, hnname⟩ := List.mem_map.1 hname
    exact ⟨n, hsub hn, hnname⟩

theorem marksExactly_iff_mem_views :
    MarksExactly policy selected s ↔
      ∀ name, name ∈ selected ↔ (name, true) ∈ s.nodes.map (·.view policy) := by
  simp only [MarksExactly, Node.view, List.mem_map, Prod.mk.injEq]

theorem MarksExactly.others (h : MarksExactly policy selected s) (hst : OthersStep policy s t) :
    MarksExactly policy selected t := by
  rw [marksExactly_iff_mem_views] at h ⊢
  rw [hst.views]
  exact h

end Heading

/-! ## Passes -/

/-- What a pass relies on among passes of other policies, and what it does itself. -/
def ownershipContract (policy : String) (keys : String → Prop) : Contract where
  rely := OthersStep policy
  guarantee := OwnStep policy keys
  refl := .refl policy
  trans := .trans

/-- The status names exactly the marked nodes. -/
def Recorded (policy : String) (s : VersionedFleet) : Prop :=
  ∃ status, s.statuses.get? policy = some status ∧ MarksExactly policy status.selectedNodes s

theorem Recorded.others {policy : String} {s t : VersionedFleet} (h : Recorded policy s)
    (hst : OthersStep policy s t) : Recorded policy t := by
  obtain ⟨status, hstatus, hmarks⟩ := h
  exact ⟨status, hst.status.trans hstatus, hmarks.others hst⟩

namespace Pass

variable {policy : String} {keys : String → Prop} {s : VersionedFleet}

/-- Pending writes are own steps, and stay pending until they are made. -/
theorem carries_pending {J : List Node → VersionedFleet → Prop}
    (hothers : ∀ rest t u, J rest t → OthersStep policy t u → J rest u)
    (hwrite : ∀ w rest t version, J (w :: rest) t → J rest (t.putNode version w)) :
    (ownershipContract policy keys).Carries fun rest t =>
      (∀ w ∈ rest, Pending keys t w) ∧ J rest t := by
  constructor
  · rintro rest t u ⟨hpending, hJ⟩ htu
    exact ⟨fun w hw => (hpending w hw).advances htu.advances, hothers rest t u hJ htu⟩
  · rintro w rest t version answer u ⟨hpending, hJ⟩ hserve
    have hstep : OwnStep policy keys t u := .putNode (hpending w List.mem_cons_self) hserve
    obtain ⟨-, rfl, -⟩ := VersionedFleet.serve_updateNode hserve
    refine ⟨hstep, fun v hv => ?_, hwrite w rest t version hJ⟩
    exact (hpending v (List.mem_cons_of_mem _ hv)).advances hstep.advances

/-- A cleanup brings no record to life. -/
theorem keeps_cleanup_own {declared : Labels} (hkeys : ∀ k, Owned policy declared k → keys k)
    (h : ¬Live policy s) :
    (cleanup policy declared).Keeps (ownershipContract policy keys) (fun _ t => ¬Live policy t)
      s := by
  have hcarries : (ownershipContract policy keys).Carries fun rest t =>
      (∀ w ∈ rest, Pending keys t w) ∧ ¬Live policy t :=
    carries_pending (fun _ _ _ ht htu => mt (.of_others htu) ht) fun _ _ _ _ ht => ht
  refine (Keeps.cleanup hcarries fun t ht => ?_).mono fun _ => And.right
  exact ⟨.refl policy keys t, pending_cleanupWrites hkeys, mt (.of_others ht) h⟩

/-- Neither does the release of the finalizer after it. -/
theorem keeps_finalize_own {p : Policy} (hname : p.name = policy) (hdeleting : p.isDeleting = true)
    (hkeys : ∀ k, Owned policy p.spec.labels k → keys k) (h : ¬Live policy s) :
    (finalize p).Keeps (ownershipContract policy keys) (fun _ t => ¬Live policy t) s := by
  subst hname
  refine Keeps.finalize (keeps_cleanup_own hkeys h) fun t ht => ?_
  refine Keeps.call fun u hu version answer v hserve => ?_
  obtain ⟨-, rfl⟩ := VersionedFleet.serve_updatePolicy hserve
  refine ⟨.putPolicy p.name_release (fun _ k hk => hkeys k (.inr hk))
    fun hlive => absurd (Live.of_others hu hlive) ht, fun v hv => mt (Live.of_others hv) ?_⟩
  rintro ⟨r, hr, hlive⟩
  rcases Fleet.get?_storePolicy_eq_some hr with ⟨-, rfl⟩ | ⟨hne, -⟩
  · rw [Policy.isDeleting_stamped, Policy.isDeleting_release, hdeleting] at hlive
    cases hlive
  · exact hne rfl

/-- A pass that labels nodes records exactly the nodes that it marked. -/
theorem keeps_apply_own (settings : PassSettings) {p : Policy} (hname : p.name = policy)
    (hkeys : ∀ k, Owned policy p.spec.labels k → keys k) :
    (apply settings p).Keeps (ownershipContract policy keys) (fun _ => Recorded policy) s := by
  subst hname
  refine Keeps.apply (fun selected => carries_pending (J := Heading p.name (selected.map Node.name))
    (fun _ _ _ ht htu => ht.others htu) fun _ _ _ version ht => ht.write version)
    (fun t _ => ⟨.refl p.name keys t, fun selected hselect => ?_⟩) fun selected t ht => ?_
  · have hsub : selected ⊆ t.nodes := fun n hn => mem_of_select hselect hn
    exact ⟨pending_applyWrites hsub hkeys,
      heading_applyWrites hsub (nodup_names_of_select hselect t.distinct)⟩
  · refine Keeps.call fun u hu version answer v hserve => ?_
    obtain ⟨r, hr, rfl⟩ := VersionedFleet.serve_updateStatus hserve
    have hstep : OwnStep p.name keys u (u.putPolicy version r) :=
      .putPolicy (u.keyed _ r hr) (fun hdeclared => hdeclared r hr) (live_iff hr).1
    have hrecorded : Recorded p.name
        ((u.putPolicy version r).putStatus p.name (statusOf selected settings.now)) := by
      refine ⟨statusOf selected settings.now, ?_, (ht.2.others hu).marksExactly⟩
      show (u.statuses.insert p.name (statusOf selected settings.now)).get? p.name = _
      rw [KeyMap.get?_insert, if_pos rfl]
    exact ⟨hstep.putStatus _, fun v hv => hrecorded.others hv⟩

/-- Any pass makes own steps, and that of a live policy records exactly the nodes that it
marked. -/
theorem keeps_reconcile_own (settings : PassSettings)
    (hspace : ∀ k, Marker.owns policy k = true → keys k) (h : DeclaresWithin policy keys s) :
    (reconcile settings policy).Keeps (ownershipContract policy keys)
      (fun _ t => Live policy t → Recorded policy t) s := by
  have hkeys : ∀ t p, OthersStep policy s t → t.policies.get? policy = some p →
      ∀ k, Owned policy p.spec.labels k → keys k := by
    rintro t p ht hp k (hk | hk)
    · exact hspace k hk
    · exact h.others ht p hp k hk
  refine Keeps.reconcile (fun t _ => .refl policy keys t) ?gone ?terminating ?tracked ?untracked
  case gone =>
    intro t _ hgone
    have hempty : ∀ k, Owned policy .empty k → keys k := by
      rintro k (hk | hk)
      · exact hspace k hk
      · cases hk
    exact (keeps_cleanup_own hempty (not_live_of_none hgone)).mono
      fun u hu hlive => absurd hlive hu
  case terminating =>
    intro t p ht hp hdeleting
    have hdoomed : ¬Live policy t := by
      rw [live_iff hp, hdeleting]
      decide
    exact (keeps_finalize_own (t.keyed policy p hp) hdeleting (hkeys t p ht hp) hdoomed).mono
      fun u hu hlive => absurd hlive hu
  case tracked =>
    intro t p ht hp _
    exact (keeps_apply_own settings (t.keyed policy p hp) (hkeys t p ht hp)).mono fun u hu _ => hu
  case untracked =>
    intro t p ht hp hlive
    have hname : p.track.name = policy := t.keyed policy p hp
    refine Keeps.call fun u _ version answer v hserve => ?_
    obtain ⟨rfl, rfl⟩ := VersionedFleet.serve_updatePolicy hserve
    refine ⟨.putPolicy hname (fun _ k hk => hkeys t p ht hp k (.inr hk)) fun _ => hlive,
      fun w _ => ?_⟩
    exact (keeps_apply_own settings hname (hkeys t p ht hp)).mono fun u hu _ => hu

end Pass

/-! ## Runs -/

namespace Cluster

/-- The cluster after a run of turns of several policies. -/
def turns (c : Cluster) (run : List (String × Turn)) : Cluster :=
  run.foldl (fun c t => c.turn t.1 t.2) c

/-- No key is a key of two policies, and every policy has the keys of its key space. -/
structure KeysApart (names : List String) (keys : String → String → Prop) : Prop where
  keySpace : ∀ p ∈ names, ∀ k, Marker.owns p k = true → keys p k
  disjoint : ∀ p ∈ names, ∀ q ∈ names, p ≠ q → ∀ k, keys p k → ¬keys q k

/-- Every policy declares within its keys, and its pass keeps to its contract. -/
structure Orderly (names : List String) (keys : String → String → Prop) (c : Cluster) : Prop where
  declared : ∀ p ∈ names, DeclaresWithin p (keys p) c.store
  passes : ∀ p ∈ names, c.PassKeeps (ownershipContract p (keys p))
    (fun t => Live p t → Recorded p t) p

section Orderly

variable {names : List String} {keys : String → String → Prop} {c : Cluster} {policy : String}

theorem Orderly.turn_own (hkeys : KeysApart names keys) (h : c.Orderly names keys)
    (hpolicy : policy ∈ names) (t : Turn) :
    (c.turn policy t).PassKeeps (ownershipContract policy (keys policy))
        (fun t => Live policy t → Recorded policy t) policy ∧
      OwnStep policy (keys policy) c.store (c.turn policy t).store := by
  obtain ⟨hpass, hstore⟩ := (h.passes policy hpolicy).turn
    (fun settings => Pass.keeps_reconcile_own settings (hkeys.keySpace policy hpolicy)
      (h.declared policy hpolicy)) t
  refine ⟨hpass, ?_⟩
  rcases hstore with hsame | hown
  · rw [hsame]
    exact .refl policy (keys policy) c.store
  · exact hown

/-- To every other policy the turn is a step of others. -/
theorem Orderly.turn_others (hkeys : KeysApart names keys) (h : c.Orderly names keys)
    (hpolicy : policy ∈ names) (t : Turn) {q : String} (hq : q ∈ names) (hne : q ≠ policy) :
    OthersStep q c.store (c.turn policy t).store := by
  refine (h.turn_own hkeys hpolicy t).2.others hne fun hkey => ?_
  exact hkeys.disjoint policy hpolicy q hq (Ne.symm hne) _ hkey
    (hkeys.keySpace q hq _ (Marker.owns_key q))

theorem Orderly.turn (hkeys : KeysApart names keys) (h : c.Orderly names keys)
    (hpolicy : policy ∈ names) (t : Turn) : (c.turn policy t).Orderly names keys := by
  obtain ⟨hpass, hown⟩ := h.turn_own hkeys hpolicy t
  constructor
  · intro q hq
    by_cases hne : q = policy
    · subst hne
      exact hown.declared (h.declared q hq)
    · exact (h.declared q hq).others (h.turn_others hkeys hpolicy t hq hne)
  · intro q hq
    by_cases hne : q = policy
    · subst hne
      exact hpass
    · exact (h.passes q hq).stable (c.passes_turn_of_ne hne t)
        (h.turn_others hkeys hpolicy t hq hne)

theorem Orderly.live_turn (hkeys : KeysApart names keys) (h : c.Orderly names keys)
    (hpolicy : policy ∈ names) (t : Turn) {q : String} (hq : q ∈ names) (hlive : Live q c.store) :
    Live q (c.turn policy t).store := by
  by_cases hne : q = policy
  · subst hne
    exact (h.turn_own hkeys hq t).2.live hlive
  · exact hlive.others (h.turn_others hkeys hpolicy t hq hne)

theorem Orderly.turns (hkeys : KeysApart names keys) (h : c.Orderly names keys)
    {run : List (String × Turn)} (hrun : ∀ t ∈ run, t.1 ∈ names) :
    (c.turns run).Orderly names keys ∧
      ∀ q ∈ names, Live q c.store → Live q (c.turns run).store := by
  induction run generalizing c with
  | nil => exact ⟨h, fun _ _ hlive => hlive⟩
  | cons t rest ih =>
      have hpolicy : t.1 ∈ names := hrun t List.mem_cons_self
      obtain ⟨horderly, hlive⟩ := ih (h.turn hkeys hpolicy t.2)
        fun u hu => hrun u (List.mem_cons_of_mem _ hu)
      exact ⟨horderly, fun q hq hq' => hlive q hq (h.live_turn hkeys hpolicy t.2 hq hq')⟩

end Orderly

end Cluster

/-- **Nothing is lost in any interleaving**: among passes of policies with disjoint keys, an
answered call of one of them changes no more of the nodes, as they are in the store at that moment,
than its own labels and their versions; and when a pass of a live policy has succeeded, the nodes
that carry its marker are those that its status names. -/
theorem interleaving_exact {names : List String} {start : VersionedFleet}
    (hdisjoint : ∀ p ∈ names, ∀ q ∈ names, p ≠ q →
      ∀ k, Owned p (start.declared p) k → ¬Owned q (start.declared q) k)
    {run : List (String × Turn)} (hrun : ∀ t ∈ run, t.1 ∈ names) {policy : String}
    (hpolicy : policy ∈ names) :
    (∀ version, ChangesOnly (Owned policy (start.declared policy))
      ((Cluster.idle start).turns run).store.nodes
      (((Cluster.idle start).turns run).turn policy (.answer version)).store.nodes) ∧
    ∀ p outcome, start.policies.get? policy = some p → p.isDeleting = false →
      ((Cluster.idle start).turns run).outcome? policy = some outcome →
        ∃ status, ((Cluster.idle start).turns run).store.statuses.get? policy = some status ∧
          ∀ name, name ∈ status.selectedNodes ↔
            ∃ n ∈ ((Cluster.idle start).turns run).store.nodes,
              n.name = name ∧ n.isManagedBy (Marker.key policy) = true := by
  have hkeys : Cluster.KeysApart names fun p => Owned p (start.declared p) :=
    ⟨fun _ _ _ hk => .inl hk, hdisjoint⟩
  have hstart : (Cluster.idle start).Orderly names fun p => Owned p (start.declared p) := by
    refine ⟨fun q _ p hp k hk => .inr ?_, fun _ _ => .idle start⟩
    rw [VersionedFleet.declared, show start.policies.get? q = some p from hp]
    exact hk
  obtain ⟨horderly, hlive⟩ := hstart.turns hkeys hrun
  constructor
  · intro version
    exact (horderly.turn_own hkeys hpolicy (.answer version)).2.nodes
  · intro p outcome hp hpLive houtcome
    exact (horderly.passes policy hpolicy _ (Cluster.passes_of_outcome? houtcome)).result
      (hlive policy hpolicy ⟨p, hp, hpLive⟩)

/-- Two ready nodes and two policies, each of which asks for one node. -/
def twoPolicies : VersionedFleet :=
  ((VersionedFleet.ofNodes [.plain "a" "True" [("zone", "1")], .plain "b" "True" []]
      (by decide)).putPolicy "1" (.plain "web" "random" 1 [("tier", "front")])).putPolicy "1"
    (.plain "db" "random" 1 [("disk", "ssd")])

/-- Both policies list the fleet before either of them writes, and both select the first node. The
policy `web` writes it first, so that `db` is turned down and begins again, while `web` comes to its
end. -/
def contended : List (String × Turn) :=
  [("web", .start .plain), ("web", .answer "2"), ("web", .answer "2"),
   ("db", .start .plain), ("db", .answer "2"), ("db", .answer "2"),
   ("web", .answer "2"), ("db", .answer "2"),
   ("web", .answer "1"), ("db", .answer "2"),
   ("db", .start .plain), ("web", .answer "3"),
   ("db", .answer "3"), ("db", .answer "3"), ("db", .answer "3"), ("db", .answer "4")]

private theorem twoPolicies_apart : ∀ p ∈ ["web", "db"], ∀ q ∈ ["web", "db"], p ≠ q →
    ∀ k, Owned p (twoPolicies.declared p) k → ¬Owned q (twoPolicies.declared q) k := by
  have hslash : ∀ name ∈ ["web", "db"], '/' ∉ name.toList := by decide
  have hforeign : ∀ p ∈ ["web", "db"], ∀ k ∈ (twoPolicies.declared p).keys,
      ∀ q ∈ ["web", "db"], ¬Marker.owns q k = true := by decide +kernel
  have hdeclared : ∀ p ∈ ["web", "db"], ∀ q ∈ ["web", "db"], p ≠ q →
      ∀ k ∈ (twoPolicies.declared p).keys, k ∉ (twoPolicies.declared q).keys := by decide +kernel
  rintro p hp q hq hne k (hpk | hpk) (hqk | hqk)
  · exact hne (Marker.eq_of_owns (hslash p hp) (hslash q hq) hpk hqk)
  · exact hforeign q hq k hqk p hp hpk
  · exact hforeign p hp k hpk q hq hqk
  · exact hdeclared p hp q hq hne k hpk hqk

/-- In the end both policies have marked the first node, and recorded it. -/
theorem interleaving_exact_contended :
    (∀ version, ChangesOnly (Owned "web" (twoPolicies.declared "web"))
      ((Cluster.idle twoPolicies).turns contended).store.nodes
      (((Cluster.idle twoPolicies).turns contended).turn "web" (.answer version)).store.nodes) ∧
    ((Cluster.idle twoPolicies).turns contended).outcome? "web" = some (.requeue 300) ∧
    ∃ status, ((Cluster.idle twoPolicies).turns contended).store.statuses.get? "web" =
        some status ∧
      ∀ name, name ∈ status.selectedNodes ↔
        ∃ n ∈ ((Cluster.idle twoPolicies).turns contended).store.nodes,
          n.name = name ∧ n.isManagedBy (Marker.key "web") = true := by
  have houtcome : ((Cluster.idle twoPolicies).turns contended).outcome? "web" =
      some (.requeue 300) := by decide +kernel
  have hrun : ∀ t ∈ contended, t.1 ∈ ["web", "db"] := by decide
  have hpolicy : "web" ∈ ["web", "db"] := by decide
  have hexact := interleaving_exact twoPolicies_apart hrun hpolicy
  exact ⟨hexact.1, houtcome, hexact.2 _ _ rfl rfl houtcome⟩

end FleetLabels
