import FleetLabels.Proofs.InMemory
import FleetLabels.Proofs.Work

/-!
# The footprint of a pass

Nodes are shared by all policies and replaced whole, so that whatever a pass sends along with its
own labels is what the cluster holds afterwards. This module says of every node that a pass
replaces, over any store and whatever that store answers, where it comes from and in what it
differs: it is a node of the listing with other labels, and the labels differ only where the record
that the pass works from gives it a say.

The record is told by the exchanges before the listing (`Work.Opens`), and the difference that it
allows by `Work.Allows`.

## Main results

* `Pass.exchanges_before` — what has been exchanged before a call of a program.
* `Work.footprint_of_mem_applyWrites`, `Work.footprint_of_mem_cleanupWrites` — what is written for a
  live policy, and in a cleanup.
* `reconcile_footprint` — the footprint of a pass.
-/

namespace FleetLabels

namespace Work

/-- How a pass comes to its work: what has been exchanged up to the listing. -/
inductive Opens (name : String) (nodes : List Node) : List Exchange → Work → Prop where
  | gone :
      Opens name nodes [⟨.getPolicy name, .ok none⟩, ⟨.listNodes, .ok nodes⟩]
        (.clean name .empty none)
  | terminating (p : Policy) (hdeleting : p.isDeleting = true) :
      Opens name nodes [⟨.getPolicy name, .ok (some p)⟩, ⟨.listNodes, .ok nodes⟩]
        (.clean p.name p.spec.labels (if p.hasFinalizer then some p.release else none))
  | tracked (p : Policy) (hlive : p.isDeleting = false) (hfinalizer : p.hasFinalizer = true) :
      Opens name nodes [⟨.getPolicy name, .ok (some p)⟩, ⟨.listNodes, .ok nodes⟩] (.label p)
  | untracked (p stored : Policy) (hlive : p.isDeleting = false)
      (huntracked : p.hasFinalizer = false) :
      Opens name nodes
        [⟨.getPolicy name, .ok (some p)⟩, ⟨.updatePolicy p.track, .ok stored⟩,
          ⟨.listNodes, .ok nodes⟩]
        (.label stored)

/-- The value that a policy wants under a key of a selected node; the marker goes before a declared
label. -/
def wanted? (p : Policy) (k : String) : Option String :=
  if k = p.markerKey then some Marker.value else p.spec.labels.get? k

/-- What may become of a key of a listed node. For a live policy it is a key that the policy wants
or declares, and gets the wanted value on a selected node, and none on one that is not selected. A
cleanup takes away the keys of the policy and nothing else. -/
def Allows (settings : PassSettings) (nodes : List Node) (n : Node) (k : String)
    (value : Option String) : Work → Prop
  | .label p =>
      (k = p.markerKey ∨ k ∈ p.spec.labels.keys) ∧
        ∃ selected, select nodes p.spec.strategy settings.draws = .ok selected ∧
          (n ∈ selected ∧ value = wanted? p k ∨ n.name ∉ selected.map Node.name ∧ value = none)
  | .clean policy declared _ => Owned policy declared k ∧ value = none

/-- A node is one of those listed, but for labels under keys of which the work may dispose. -/
def Footprint (settings : PassSettings) (nodes : List Node) (work : Work) (w : Node) : Prop :=
  ∃ n ∈ nodes, w = n.withLabels w.labels ∧
    ∀ k, w.labels.get? k ≠ n.labels.get? k → work.Allows settings nodes n k (w.labels.get? k)

end Work

namespace Pass

variable {α β σ : Type}

/-! ## Exchanges before a call -/

/-- Before a call other than its first one, a program has had its first one answered. -/
theorem exchanges_before {store : Handler σ} {call : StoreCall} {next : call.Answer → Pass α}
    {s : σ} {before after : List Exchange} {x : Exchange} (hx : x.call ≠ call)
    (h : (Pass.ask call next).exchanges store s = before ++ x :: after) :
    ∃ answer s' rest, before = ⟨call, .ok answer⟩ :: rest ∧
      (next answer).exchanges store s' = rest ++ x :: after := by
  rcases exchanges_ask_cases store call next s with ⟨e, hmade⟩ | ⟨answer, s', hmade⟩
  · rw [hmade] at h
    have hlast : x ∈ [(⟨call, .error e⟩ : Exchange)] :=
      h ▸ List.mem_append_right before List.mem_cons_self
    rw [List.mem_singleton.1 hlast] at hx
    exact absurd rfl hx
  · rw [hmade] at h
    cases before with
    | nil =>
        obtain ⟨rfl, -⟩ := List.cons.inj h
        exact absurd rfl hx
    | cons y rest =>
        obtain ⟨rfl, htail⟩ := List.cons.inj h
        exact ⟨answer, s', rest, rfl, htail⟩

/-! ## Writes of a program -/

/-- Every node that the program replaces is of a kind. -/
def WritesOnly (P : Node → Prop) (store : Handler σ) (p : Pass α) : Prop :=
  ∀ s, ∀ x ∈ p.exchanges store s, ∀ w, x.call = .updateNode w → P w

namespace WritesOnly

variable {P : Node → Prop} {store : Handler σ}

theorem done (r : Except PassError α) : (Pass.done r).WritesOnly P store :=
  fun _ _ hx => nomatch hx

theorem ask {call : StoreCall} {next : call.Answer → Pass α}
    (hcall : ∀ w, call = .updateNode w → P w) (hnext : ∀ answer, (next answer).WritesOnly P store) :
    (Pass.ask call next).WritesOnly P store := by
  intro s x hx
  rcases exchanges_ask_cases store call next s with ⟨e, hmade⟩ | ⟨answer, s', hmade⟩
  · rw [hmade] at hx
    exact List.mem_singleton.1 hx ▸ hcall
  · rw [hmade] at hx
    rcases List.mem_cons.1 hx with rfl | hx
    · exact hcall
    · exact hnext answer s' x hx

theorem writeAll_bind {writes : List Node} (hwrites : ∀ w ∈ writes, P w) {f : Unit → Pass α}
    (hf : (f ()).WritesOnly P store) : ((writeAll writes).bind f).WritesOnly P store := by
  induction writes with
  | nil => exact hf
  | cons w rest ih =>
      obtain ⟨hw, hrest⟩ := List.forall_mem_cons.1 hwrites
      refine ask (fun w' hcall => ?_) fun _ => ih hrest
      rw [← StoreCall.updateNode.inj hcall]
      exact hw

end WritesOnly

end Pass

/-! ## What is written -/

namespace Work

variable {settings : PassSettings} {nodes selected : List Node} {w : Node}

/-- A selected node is written for a wanted label that it lacks. -/
theorem wanted?_of_get?_joined_ne {p : Policy} {n : Node} {k : String}
    (h : (n.joined p.spec.labels p.markerKey).labels.get? k ≠ n.labels.get? k) :
    (k = p.markerKey ∨ k ∈ p.spec.labels.keys) ∧
      (n.joined p.spec.labels p.markerKey).labels.get? k = wanted? p k := by
  rw [Node.get?_joined] at h ⊢
  unfold wanted?
  by_cases hmarker : k = p.markerKey
  · rw [if_pos hmarker, if_pos hmarker]
    exact ⟨.inl hmarker, rfl⟩
  · rw [if_neg hmarker] at h
    rw [if_neg hmarker, if_neg hmarker]
    cases hdeclared : p.spec.labels.get? k with
    | none =>
        rw [hdeclared] at h
        exact absurd rfl h
    | some v => exact ⟨.inr ((p.spec.labels.mem_keys_iff k).2 ⟨v, hdeclared⟩), rfl⟩

theorem footprint_of_mem_applyWrites {p : Policy}
    (hselect : select nodes p.spec.strategy settings.draws = .ok selected)
    (hw : w ∈ Pass.applyWrites p nodes selected) :
    (Work.label p).Footprint settings nodes w := by
  rcases List.mem_append.1 hw with hjoin | hleft
  · obtain ⟨n, hn, hjoined⟩ := List.mem_filterMap.1 hjoin
    have hw' : w = n.joined p.spec.labels p.markerKey := by
      rw [Node.joined, hjoined, Option.getD_some]
    refine ⟨n, mem_of_select hselect hn, ?_, fun k hk => ?_⟩
    · rcases n.joined?_cases p.spec.labels p.markerKey with hsome | ⟨hnone, -⟩
      · rw [hsome] at hjoined
        rw [← Option.some.inj hjoined]
        rfl
      · rw [hnone] at hjoined
        cases hjoined
    · rw [hw'] at hk ⊢
      obtain ⟨hkey, hvalue⟩ := wanted?_of_get?_joined_ne hk
      exact ⟨hkey, selected, hselect, .inl ⟨hn, hvalue⟩⟩
  · obtain ⟨n, hn, rfl⟩ := List.mem_map.1 hleft
    obtain ⟨hlisted, hother, -⟩ := Pass.mem_unselected.1 hn
    refine ⟨n, hlisted, rfl, fun k hk => ?_⟩
    rw [Node.get?_left] at hk ⊢
    split at hk
    next hkey => exact ⟨hkey, selected, hselect, .inr ⟨hother, if_pos hkey⟩⟩
    next => exact absurd rfl hk

theorem footprint_of_mem_cleanupWrites {policy : String} {declared : Labels}
    (release : Option Policy) (hw : w ∈ Pass.cleanupWrites policy declared nodes) :
    (Work.clean policy declared release).Footprint settings nodes w := by
  obtain ⟨n, hn, rfl⟩ := List.mem_map.1 hw
  refine ⟨n, (List.mem_filter.1 hn).1, rfl, fun k hk => ?_⟩
  rw [Node.get?_stripped] at hk ⊢
  split at hk
  next hkey => exact ⟨hkey, if_pos hkey⟩
  next => exact absurd rfl hk

end Work

namespace Pass

variable {σ : Type} {store : Handler σ}

/-- All writes of a work lie within its footprint. -/
theorem writesOnly_carryOut (settings : PassSettings) (nodes : List Node) (work : Work) :
    (carryOut settings nodes work).WritesOnly (work.Footprint settings nodes) store := by
  cases work with
  | label p =>
      unfold carryOut
      cases hselect : select nodes p.spec.strategy settings.draws with
      | error e =>
          simp only [hselect]
          exact .done _
      | ok selected =>
          simp only [hselect]
          show ((writeAll (applyWrites p nodes selected)).bind _).WritesOnly _ store
          refine .writeAll_bind (fun w hw => Work.footprint_of_mem_applyWrites hselect hw) ?_
          exact .ask (fun w hw => nomatch hw) fun _ => .done _
  | clean policy declared release =>
      refine .writeAll_bind (fun w hw => Work.footprint_of_mem_cleanupWrites release hw) ?_
      cases release with
      | none => exact .done _
      | some p => exact .ask (fun w hw => nomatch hw) fun _ => .done _

/-- Before a write there was a listing, and what was written comes from it. -/
theorem footprint_of_listed {settings : PassSettings} {work : Work} {s : σ} {w : Node}
    {answer : Except PassError Node} {before after : List Exchange}
    (h : (listNodes.bind fun nodes => carryOut settings nodes work).exchanges store s =
      before ++ ⟨.updateNode w, answer⟩ :: after) :
    ∃ nodes, [⟨.listNodes, .ok nodes⟩] <+: before ∧ work.Footprint settings nodes w := by
  obtain ⟨nodes, s', rest, rfl, hrest⟩ := exchanges_before (by simp) h
  have hwrite : ⟨.updateNode w, answer⟩ ∈ (carryOut settings nodes work).exchanges store s' :=
    hrest ▸ List.mem_append_right rest List.mem_cons_self
  exact ⟨nodes, ⟨rest, rfl⟩, writesOnly_carryOut settings nodes work s' _ hwrite w rfl⟩

end Pass

/-- **The footprint of a pass.** Over any store and whatever it answers, each node that a pass
replaces is one of those it has listed before, in all but its labels, and under no other key than
the record it works from gives a say over: what a live policy wants is set on a selected node, and
what it declares is removed from a node that is not selected; a cleanup only removes, and only keys
of the policy. -/
theorem reconcile_footprint {σ : Type} {store : Pass.Handler σ} {s : σ} {settings : PassSettings}
    {name : String} {before after : List Exchange} {w : Node} {answer : Except PassError Node}
    (hmade : (Pass.reconcile settings name).exchanges store s =
      before ++ ⟨.updateNode w, answer⟩ :: after) :
    ∃ opening nodes work, Work.Opens name nodes opening work ∧ opening <+: before ∧
      work.Footprint settings nodes w := by
  rw [Pass.reconcile_eq_work] at hmade
  obtain ⟨record, s₁, rest₁, rfl, hrest⟩ := Pass.exchanges_before (by simp) hmade
  clear hmade
  simp only [Pass.bind] at hrest
  cases hstate : Policy.State.of record with
  | gone =>
      obtain rfl : record = none := Policy.State.of_eq_iff.1 hstate
      obtain ⟨nodes, hlisted, hfootprint⟩ := Pass.footprint_of_listed hrest
      exact ⟨_, nodes, _, .gone, List.cons_prefix_cons.2 ⟨rfl, hlisted⟩, hfootprint⟩
  | terminating p =>
      obtain ⟨rfl, hdeleting⟩ := Policy.State.of_eq_iff.1 hstate
      rw [hstate] at hrest
      obtain ⟨nodes, hlisted, hfootprint⟩ := Pass.footprint_of_listed hrest
      exact ⟨_, nodes, _, .terminating p hdeleting, List.cons_prefix_cons.2 ⟨rfl, hlisted⟩,
        hfootprint⟩
  | tracked p =>
      obtain ⟨rfl, hlive, hfinalizer⟩ := Policy.State.of_eq_iff.1 hstate
      rw [hstate] at hrest
      obtain ⟨nodes, hlisted, hfootprint⟩ := Pass.footprint_of_listed hrest
      exact ⟨_, nodes, _, .tracked p hlive hfinalizer, List.cons_prefix_cons.2 ⟨rfl, hlisted⟩,
        hfootprint⟩
  | untracked p =>
      obtain ⟨rfl, hlive, huntracked⟩ := Policy.State.of_eq_iff.1 hstate
      rw [hstate] at hrest
      obtain ⟨stored, s₂, rest₂, rfl, hrest₂⟩ := Pass.exchanges_before (by simp) hrest
      obtain ⟨nodes, hlisted, hfootprint⟩ := Pass.footprint_of_listed hrest₂
      exact ⟨_, nodes, _, .untracked p stored hlive huntracked,
        List.cons_prefix_cons.2 ⟨rfl, List.cons_prefix_cons.2 ⟨rfl, hlisted⟩⟩, hfootprint⟩

/-- A policy that asks for the one ready node, and a node that it has to leave. -/
def handedOver : Fleet where
  nodes :=
    [.plain "a" "True" [("zone", "1")],
     .plain "b" "False" [(Marker.key "web", "true"), ("tier", "front"), ("zone", "2")]]
  policies := Fleet.policiesOf [.plain "web" "random" 1 [("tier", "front")]]

/-- The last write of that pass takes two labels off the second node, and leaves its zone. -/
theorem reconcile_footprint_handedOver :
    ∃ before answer after,
      (Pass.reconcile .plain "web").exchanges Fleet.handler handedOver =
          before ++ ⟨.updateNode (.plain "b" "False" [("zone", "2")]), answer⟩ :: after ∧
        ∃ opening nodes work, Work.Opens "web" nodes opening work ∧ opening <+: before ∧
          work.Footprint .plain nodes (.plain "b" "False" [("zone", "2")]) := by
  have hcalls : ((Pass.reconcile .plain "web").calls Fleet.handler handedOver)[4]? =
      some (.updateNode (.plain "b" "False" [("zone", "2")])) := by decide +kernel
  rw [Pass.calls, List.getElem?_map] at hcalls
  obtain ⟨⟨call, answer⟩, hexchange, rfl⟩ := Option.map_eq_some_iff.1 hcalls
  obtain ⟨hlength, helement⟩ := List.getElem?_eq_some_iff.1 hexchange
  have hsplit := List.take_append_drop 4 ((Pass.reconcile .plain "web").exchanges
    Fleet.handler handedOver)
  rw [List.drop_eq_getElem_cons hlength, helement] at hsplit
  exact ⟨_, answer, _, hsplit.symm, reconcile_footprint hsplit.symm⟩

end FleetLabels
