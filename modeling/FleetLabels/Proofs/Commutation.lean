import FleetLabels.Proofs.Effect

/-!
# Passes in another order

Passes of several policies, one each, make the same of a fleet in any order, so long as no two of the
policies own a key in common. Each of them may be live, being deleted or gone.

A pass of one policy does not concern the others, so that all that the passes will do can be told from
the fleet at the start (`AfterTurn`): each node goes through the effects of the policies one after the
other, and each record and each status is changed by one pass at most. Only the nodes remember the
order, and effects that are local to disjoint keys commute on every node.

## Main results

* `Fleet.local_effect` — the effect of a pass is local to the keys that the policy owns.
* `Pass.exists_run_inTurn` — passes in turn succeed, and what they leave is told from the start.
* `passes_in_any_order` — passes of policies that own no key in common may be permuted.
* `passes_commute` — passes of two policies may be swapped.
-/

namespace FleetLabels

/-! ## Effects are local -/

/-- The labels that the record of a policy declares, none if it is gone. -/
def Fleet.declared (f : Fleet) (name : String) : Labels :=
  match f.policies.get? name with
  | some p => p.spec.labels
  | none => .empty

theorem Policy.Touches.owned {p : Policy} {k : String} (h : p.Touches k) :
    Owned p.name p.spec.labels k := by
  rcases h with rfl | hdeclared
  · exact owned_key p.name p.spec.labels
  · exact .inr hdeclared

theorem Fleet.local_effect {f : Fleet} {name : String} (hf : Foreseeable f name) :
    Node.Local (Owned name (f.declared name)) (f.effect name) := by
  unfold declared effect
  cases hstored : f.policies.get? name with
  | none => exact Node.local_cleaned name .empty
  | some p =>
      obtain rfl := hf.named p hstored
      cases f.selected? p.name with
      | none => exact Node.local_cleaned p.name p.spec.labels
      | some selected => exact p.local_settled selected fun _ hk => hk.owned

/-! ## What passes in turn leave -/

/-- What one fleet is after one pass each of the policies of the given names over another one. -/
structure AfterTurn (names : List String) (f g : Fleet) : Prop where
  nodes : g.nodes = names.foldl (fun nodes name => nodes.map (f.effect name)) f.nodes
  record : ∀ name, g.policies.get? name =
    if name ∈ names then Policy.afterPass (f.policies.get? name) else f.policies.get? name
  recorded : ∀ name, g.recorded? name =
    if name ∈ names then f.recordedAfter name else f.recorded? name

namespace AfterTurn

variable {f f' g : Fleet} {name : String} {names : List String}

theorem nil (f : Fleet) : AfterTurn [] f f :=
  ⟨rfl, fun _ => (if_neg List.not_mem_nil).symm, fun _ => (if_neg List.not_mem_nil).symm⟩

theorem cons (hnodup : (name :: names).Nodup) (hf : ∀ q ∈ names, Foreseeable f q)
    (h : AfterPass name f f') (hrest : AfterTurn names f' g) : AfterTurn (name :: names) f g := by
  obtain ⟨hnew, -⟩ := List.nodup_cons.1 hnodup
  have hne : ∀ q ∈ names, q ≠ name := fun q hq heq => hnew (heq ▸ hq)
  constructor
  case nodes =>
    have heffect : ∀ nodes, ∀ q ∈ names,
        List.map (f'.effect q) nodes = List.map (f.effect q) nodes := fun nodes q hq => by
      rw [(h.alike (hne q hq)).effect_eq (hf q hq)]
    rw [hrest.nodes, h.nodes, List.foldl_cons]
    exact List.foldl_ext _ _ _ heffect
  case record =>
    intro q
    rw [hrest.record]
    by_cases hq : q = name
    · rw [hq, if_neg hnew, if_pos List.mem_cons_self, h.record]
    · rw [h.records q hq]
      simp only [List.mem_cons, hq, false_or]
  case recorded =>
    intro q
    rw [hrest.recorded]
    by_cases hq : q = name
    · rw [hq, if_neg hnew, if_pos List.mem_cons_self, h.recorded]
    · by_cases hmem : q ∈ names
      · rw [if_pos hmem, if_pos (List.mem_cons_of_mem _ hmem), Fleet.recordedAfter,
          Fleet.recordedAfter, (h.alike hq).selected?_eq (hf q hmem), h.otherwise q hq]
      · have hmem' : q ∉ name :: names := mt List.mem_cons.1 (not_or.2 ⟨hq, hmem⟩)
        rw [if_neg hmem, if_neg hmem', h.otherwise q hq]

end AfterTurn

/-- Passes in turn succeed, if each is of another policy and can be told in advance. -/
theorem Pass.exists_run_inTurn {f : Fleet} {runs : List (PassSettings × String)}
    (hnodup : (runs.map Prod.snd).Nodup) (hf : ∀ name ∈ runs.map Prod.snd, Foreseeable f name) :
    ∃ g, (inTurn runs).run Fleet.handler f = (.ok (), g) ∧ AfterTurn (runs.map Prod.snd) f g := by
  induction runs generalizing f with
  | nil => exact ⟨f, rfl, .nil f⟩
  | cons r rest ih =>
      obtain ⟨settings, name⟩ := r
      obtain ⟨hnew, hrestNodup⟩ := List.nodup_cons.1 hnodup
      obtain ⟨hname, hrest⟩ := List.forall_mem_cons.1 hf
      obtain ⟨outcome, f', hrun, hpass⟩ := exists_run_reconcile hname settings
      have hrest' : ∀ q ∈ rest.map Prod.snd, Foreseeable f' q := fun q hq =>
        (hpass.alike fun heq => hnew (heq ▸ hq)).foreseeable (hrest q hq)
      obtain ⟨g, hlater, hturn⟩ := ih hrestNodup hrest'
      exact ⟨g, (run_inTurn_cons hrun rest).trans hlater, .cons hnodup hrest hpass hturn⟩

/-! ## Passes commute -/

/-- Policies that own no key in common may have their passes in any order, with any settings. -/
theorem passes_in_any_order {f : Fleet} {runs runs' : List (PassSettings × String)}
    (hperm : (runs.map Prod.snd).Perm (runs'.map Prod.snd)) (hnodup : (runs.map Prod.snd).Nodup)
    (hf : ∀ name ∈ runs.map Prod.snd, Foreseeable f name)
    (hapart : ∀ p ∈ runs.map Prod.snd, ∀ q ∈ runs.map Prod.snd, p ≠ q →
      ∀ k, Owned p (f.declared p) k → ¬Owned q (f.declared q) k) :
    ∃ g g', (Pass.inTurn runs).run Fleet.handler f = (.ok (), g) ∧
      (Pass.inTurn runs').run Fleet.handler f = (.ok (), g') ∧ g.Agrees g' := by
  have hmem : ∀ {name : String}, name ∈ runs'.map Prod.snd ↔ name ∈ runs.map Prod.snd :=
    hperm.symm.mem_iff
  obtain ⟨g, hrun, hturn⟩ := Pass.exists_run_inTurn hnodup hf
  obtain ⟨g', hrun', hturn'⟩ := Pass.exists_run_inTurn (hperm.nodup_iff.1 hnodup)
    fun name hname => hf name (hmem.1 hname)
  have hcomm : ∀ p ∈ runs.map Prod.snd, ∀ q ∈ runs.map Prod.snd, ∀ nodes : List Node,
      (nodes.map (f.effect p)).map (f.effect q) = (nodes.map (f.effect q)).map (f.effect p) := by
    intro p hp q hq nodes
    by_cases heq : p = q
    · rw [heq]
    · rw [List.map_map, List.map_map]
      exact List.map_congr_left fun n _ =>
        ((Fleet.local_effect (hf p hp)).comm (Fleet.local_effect (hf q hq))
          (hapart p hp q hq heq) n).symm
  refine ⟨g, g', hrun, hrun', ?_⟩
  constructor
  case nodes => rw [hturn.nodes, hturn'.nodes, hperm.foldl_eq' hcomm]
  case policies =>
    refine KeyMap.ext_get? fun name => ?_
    rw [hturn.record, hturn'.record, if_congr hmem rfl rfl]
  case recorded =>
    intro name
    rw [hturn.recorded, hturn'.recorded, if_congr hmem rfl rfl]

/-- **Passes commute.** If two policies own no key in common, the pass of the one and then of the
other leaves the same fleet as the other way round, up to the times in the statuses. -/
theorem passes_commute {f : Fleet} {p q : String} (hp : Foreseeable f p) (hq : Foreseeable f q)
    (hapart : ∀ k, Owned p (f.declared p) k → ¬Owned q (f.declared q) k)
    (s₁ s₂ t₁ t₂ : PassSettings) :
    ∃ pq qp, (Pass.inTurn [(s₁, p), (s₂, q)]).run Fleet.handler f = (.ok (), pq) ∧
      (Pass.inTurn [(t₁, q), (t₂, p)]).run Fleet.handler f = (.ok (), qp) ∧ pq.Agrees qp := by
  have hne : p ≠ q := by
    rintro rfl
    exact hapart _ (owned_key p _) (owned_key p _)
  have hnodup : [p, q].Nodup := List.nodup_cons.2
    ⟨fun hmem => hne (List.mem_singleton.1 hmem), List.nodup_singleton q⟩
  have hboth : ∀ name ∈ [p, q], Foreseeable f name := by
    intro name hname
    rcases List.mem_pair.1 hname with rfl | rfl
    · exact hp
    · exact hq
  refine passes_in_any_order (.swap q p []) hnodup hboth fun a ha b hb hab k hak hbk => ?_
  rcases List.mem_pair.1 ha with rfl | rfl
  · rcases List.mem_pair.1 hb with rfl | rfl
    · exact hab rfl
    · exact hapart k hak hbk
  · rcases List.mem_pair.1 hb with rfl | rfl
    · exact hapart k hbk hak
    · exact hab rfl

/-- A live policy that asks for two nodes, and one that is being deleted and has labels on both. -/
def handoverFleet : Fleet where
  nodes :=
    [.plain "a" "True" [(Marker.key "db", "true"), ("disk", "ssd"), ("zone", "1")],
     .plain "b" "True" [(Marker.key "db", "true"), ("disk", "ssd")]]
  policies := Fleet.policiesOf
    [.plain "web" "oldest" 2 [("tier", "front")],
     { metadata :=
        { name := some "db"
          finalizers := some [Policy.finalizer]
          deletionTimestamp := some PassSettings.plain.now }
       spec := { strategy := { type := "newest", count := 1 }, labels := .ofList [("disk", "ssd")] } }]

/-- It does not matter whether `web` labels the two nodes first, or `db` gives them up first. -/
theorem passes_commute_handoverFleet :
    ∃ g g', (Pass.inTurn [(.plain, "web"), (.plain, "db")]).run Fleet.handler handoverFleet =
        (.ok (), g) ∧
      (Pass.inTurn [(.plain, "db"), (.plain, "web")]).run Fleet.handler handoverFleet =
        (.ok (), g') ∧ g.Agrees g' := by
  have hweb : Foreseeable handoverFleet "web" := by decide +kernel
  have hdb : Foreseeable handoverFleet "db" := by decide +kernel
  have hapart : ∀ k, Owned "web" (handoverFleet.declared "web") k →
      ¬Owned "db" (handoverFleet.declared "db") k := fun k hk =>
    not_owned_of_owned (by decide) (by decide) (by decide) (by decide +kernel) (by decide +kernel) hk
  exact passes_commute hweb hdb hapart .plain .plain .plain .plain

end FleetLabels
