import FleetLabels.Proofs.Documents.Nodes
import FleetLabels.Proofs.Remote.Server
import FleetLabels.Proofs.Retry
import FleetLabels.Proofs.Work

/-!
# A fleet mirrored by a server

A program that runs over two stores at once, and gets the same answers from both as far as it can
tell, does the same to both. `Pass.InStep` says so of two programs, which may be given different
answers in between, and goes through `bind` one half at a time.

The two stores are the server of documents and a fleet in memory that refuses the writes of the same
nodes. The server `Mirrors` the fleet if what its documents show of nodes and policies is what the
fleet has: not the values themselves, since written times have no fractions. A document that nothing
has been written over yet is read as the very value that the fleet has, and that is known of all
nodes up to the listing (`Server.Lists`), and of the policy (`Policy.Backed`).

## Main results

* `Pass.InStep.bind` — the rule for one program after another.
* `Server.inStep_updateNode`, `Server.inStep_updatePolicy`, `Server.inStep_updateStatus` — every
  write keeps the server a mirror of the fleet.
-/

namespace FleetLabels

namespace Pass

variable {α α' β β' σ τ : Type}

/-! ## Two runs -/

/-- What two runs have come to: both to a result, with results and states as `after` says, or both
to the same failure, in states as `failed` says. -/
def Agree (failed : σ → τ → Prop) (after : α → β → σ → τ → Prop) :
    Except PassError α × σ → Except PassError β × τ → Prop
  | (.ok a, s), (.ok b, t) => after a b s t
  | (.error e, s), (.error e', t) => e = e' ∧ failed s t
  | _, _ => False

/-- The programs, run over two stores from states as `before` says, agree in what they come to. -/
def InStep (left : Handler σ) (right : Handler τ) (failed before : σ → τ → Prop) (p : Pass α)
    (q : Pass β) (after : α → β → σ → τ → Prop) : Prop :=
  ∀ s t, before s t → Agree failed after (p.run left s) (q.run right t)

variable {left : Handler σ} {right : Handler τ} {failed before before' : σ → τ → Prop}
  {p : Pass α} {q : Pass β}

theorem inStep_fail (e : PassError) {after : α → β → σ → τ → Prop}
    (h : ∀ s t, before s t → failed s t) :
    InStep left right failed before (.done (.error e)) (.done (.error e)) after :=
  fun s t hst => ⟨rfl, h s t hst⟩

theorem inStep_done {a : α} {b : β} {after : α → β → σ → τ → Prop}
    (h : ∀ s t, before s t → after a b s t) :
    InStep left right failed before (.done (.ok a)) (.done (.ok b)) after :=
  h

/-- A call by itself is run by answering it. -/
theorem run_call (handler : Handler σ) (c : StoreCall) (s : σ) :
    (call c).run handler s = handler c s := by
  simp only [call, run]
  rcases handler c s with ⟨_ | _, _⟩ <;> rfl

namespace InStep

/-- What is known of the states between may be used for the second half. -/
theorem bind {f : α → Pass α'} {g : β → Pass β'} {between : α → β → σ → τ → Prop}
    {after : α' → β' → σ → τ → Prop} (hpq : InStep left right failed before p q between)
    (hfg : ∀ a b, InStep left right failed (between a b) (f a) (g b) after) :
    InStep left right failed before (p.bind f) (q.bind g) after := by
  intro s t hst
  have hfirst := hpq s t hst
  rw [run_bind, run_bind]
  generalize p.run left s = x at hfirst ⊢
  generalize q.run right t = y at hfirst ⊢
  rcases x with ⟨e | a, s'⟩ <;> rcases y with ⟨e' | b, t'⟩
  · exact hfirst
  · exact False.elim hfirst
  · exact False.elim hfirst
  · exact hfg a b s' t' hfirst

theorem mono {after : α → β → σ → τ → Prop} (hpq : InStep left right failed before p q after)
    (hbefore : ∀ s t, before' s t → before s t) :
    InStep left right failed before' p q after :=
  fun s t hst => hpq s t (hbefore s t hst)

/-- A result that is not taken from an answer is the same on both sides. -/
theorem bind_done {γ : Type} {between : α → β → σ → τ → Prop} {after : σ → τ → Prop}
    (hpq : InStep left right failed before p q between) (c : γ)
    (h : ∀ a b s t, between a b s t → after s t) :
    InStep left right failed before (p.bind fun _ => .done (.ok c)) (q.bind fun _ => .done (.ok c))
      fun x y s t => x = y ∧ after s t :=
  hpq.bind fun a b => inStep_done fun s t hst => ⟨rfl, h a b s t hst⟩

/-- What is known besides the states may be used for the programs. -/
theorem assuming {fact : Prop} {after : α → β → σ → τ → Prop}
    (h : fact → InStep left right failed before p q after) :
    InStep left right failed (fun s t => fact ∧ before s t) p q after :=
  fun s t hst => h hst.1 s t hst.2

end InStep

end Pass

/-! ## Mirrors -/

/-- The writes of some nodes are turned down, and all that are asked for are kept. -/
def Conflicts.gate (conflicts : Conflicts) : Gate (List Node) := fun call writes =>
  match call with
  | .updateNode n =>
      ((conflicts.at? n.name).map fun e => call.failure (.api e), writes ++ [n])
  | _ => (none, writes)

/-- The node can be written. -/
structure Node.Writable (n : Node) : Prop where
  safe : UrlSafe n.name
  inRange : ∀ t ∈ n.times, t.isInRange = true
  legible : n.metadata.Legible

/-- The document under a name shows a node: its name and its labels. -/
def Node.ShownBy (e : String × Json) (n : Node) : Prop :=
  e.1 = n.name ∧ ∃ m, ofJson e.2 = .ok m ∧ m.name = n.name ∧ m.labels = n.labels

/-- The document shows a policy, up to fractions of a second, and the nodes recorded for it. -/
structure Policy.ShownBy (doc : Json) (p : Policy) (recorded : Option (List String)) : Prop where
  object : ∃ ms, doc = .object ms
  legible : doc.isLegible = true
  read : ∃ q, ofJson doc = .ok q ∧ q.metadata.wholeSeconds = p.metadata.wholeSeconds ∧
    q.spec = p.spec ∧ q.status.map (·.selectedNodes) = recorded

/-- The same of what there is under a name: no document and no policy, or both. -/
def Policy.MirroredBy (name : String) (recorded : Option (List String)) :
    Option Json → Option Policy → Prop
  | none, none => True
  | some doc, some p => p.name = name ∧ Policy.ShownBy doc p recorded
  | _, _ => False

/-- The documents of the server show the fleet, and those that it was sent show the writes. -/
structure Server.Mirrors (s : Server) (t : List Node × Fleet) : Prop where
  nodes : List.Forall₂ Node.ShownBy s.nodes t.2.nodes
  puts : List.Forall₂ Node.ShownBy s.puts t.1
  policies : ∀ name,
    Policy.MirroredBy name (t.2.recorded? name) (s.policy? name) (t.2.policies.get? name)

/-- The policy can be written: it is the one that the server has, and its status is that of the
fleet. -/
structure Policy.Backed (p : Policy) (policy : Option (String × Json))
    (statuses : KeyMap PolicyStatus) : Prop where
  safe : UrlSafe p.name
  inRange : ∀ t ∈ p.times, t.isInRange = true
  present : ∃ doc, policy = some (p.name, doc)
  recorded : p.status.map (·.selectedNodes) = (statuses.get? p.name).map (·.selectedNodes)

namespace Policy.Backed

variable {p : Policy} {policy : Option (String × Json)} {statuses : KeyMap PolicyStatus}

/-- Finalizers have no part in that. -/
theorem track (h : p.Backed policy statuses) : p.track.Backed policy statuses :=
  ⟨h.safe, h.inRange, h.present, h.recorded⟩

theorem release (h : p.Backed policy statuses) : p.release.Backed policy statuses :=
  ⟨h.safe, h.inRange, h.present, h.recorded⟩

end Policy.Backed

namespace Server

theorem policy?_eq_some_iff {s : Server} {name : String} {doc : Json} :
    s.policy? name = some doc ↔ s.policy = some (name, doc) := by
  cases hpolicy : s.policy with
  | none => simp [policy?, hpolicy]
  | some e =>
      obtain ⟨key, value⟩ := e
      by_cases hkey : key = name <;> simp [policy?, hpolicy, hkey]

theorem policy?_self {s : Server} {name : String} {doc : Json} (h : s.policy = some (name, doc)) :
    s.policy? name = some doc :=
  policy?_eq_some_iff.2 h

theorem policy?_of_ne {s : Server} {name q : String} {doc : Json}
    (h : s.policy = some (name, doc)) (hq : q ≠ name) : s.policy? q = none := by
  simp [policy?, h, Ne.symm hq]

/-! ## Node writes -/

theorem shownBy_toJson {n : Node} (h : n.Writable) : Node.ShownBy (n.name, n.toJson) n :=
  ⟨rfl, n.wholeSeconds, Node.ofJson_toJson h.inRange, rfl, rfl⟩

/-- The same place is written on both sides, or none is. -/
theorem replaceDocument_mirrors {docs : List (String × Json)} {nodes : List Node} {w : Node}
    (h : List.Forall₂ Node.ShownBy docs nodes) (hw : w.Writable) :
    (replaceDocument w.name w.toJson docs = none ∧ Fleet.replaceNode w nodes = none) ∨
      ∃ docs' nodes', replaceDocument w.name w.toJson docs = some docs' ∧
        Fleet.replaceNode w nodes = some nodes' ∧ List.Forall₂ Node.ShownBy docs' nodes' := by
  induction h with
  | nil => exact .inl ⟨rfl, rfl⟩
  | @cons e n docs nodes hhead hrest ih =>
      rw [replaceDocument, Fleet.replaceNode, hhead.1]
      by_cases hname : n.name = w.name
      · rw [if_pos hname, if_pos hname]
        exact .inr ⟨_, _, rfl, rfl, .cons (shownBy_toJson hw) hrest⟩
      · rw [if_neg hname, if_neg hname]
        rcases ih with ⟨hdocs, hnodes⟩ | ⟨docs', nodes', hdocs, hnodes, hshown⟩
        · rw [hdocs, hnodes]
          exact .inl ⟨rfl, rfl⟩
        · rw [hdocs, hnodes]
          exact .inr ⟨_, _, rfl, rfl, .cons hhead hshown⟩

section Steps

variable (wire : Json.Wire) (conflicts : Conflicts)

/-- The program does the same over the server as over the fleet that it mirrors. -/
abbrev InStep {α β : Type} (before : Server → List Node × Fleet → Prop) (p : Pass α) (q : Pass β)
    (after : α → β → Server → List Node × Fleet → Prop) : Prop :=
  Pass.InStep (handler wire conflicts) (Fleet.gated conflicts.gate) Mirrors before p q after

theorem inStep_updateNode {w : Node} (hw : w.Writable)
    (rest : Option (String × Json) → KeyMap PolicyStatus → Prop) :
    InStep wire conflicts (fun s t => s.Mirrors t ∧ rest s.policy t.2.statuses)
      (Pass.updateNode w) (Pass.updateNode w)
      fun _ _ s t => s.Mirrors t ∧ rest s.policy t.2.statuses := by
  intro s t ⟨hmirrors, hrest⟩
  have hputs : List.Forall₂ Node.ShownBy (s.puts ++ [(w.name, w.toJson)]) (t.1 ++ [w]) :=
    List.rel_append hmirrors.puts (.cons (shownBy_toJson hw) .nil)
  rw [Pass.updateNode, Pass.run_bind, Pass.run_bind, Pass.run_call, Pass.run_call]
  rw [handler_updateNode wire conflicts s hw.safe, putNode, Fleet.gated, Conflicts.gate]
  cases hconflict : conflicts.at? w.name with
  | some e =>
      simp only [Option.map_some,
        Response.document_refusal wire Node.ofJson (Conflicts.isError hconflict)]
      exact ⟨rfl, hmirrors.nodes, hputs, hmirrors.policies⟩
  | none =>
      rcases replaceDocument_mirrors hmirrors.nodes hw with
        ⟨hdocs, hnodes⟩ | ⟨docs', nodes', hdocs, hnodes, hshown⟩
      · simp only [Option.map_none, hdocs, Fleet.handler, Fleet.answer, hnodes,
          Response.document_refusal wire Node.ofJson (ApiError.isError_notFound "nodes" w.name)]
        exact ⟨rfl, hmirrors.nodes, hputs, hmirrors.policies⟩
      · simp only [Option.map_none, hdocs, Fleet.handler, Fleet.answer, hnodes,
          Response.document_reply wire (w.isLegible_toJson hw.legible)
            (Node.ofJson_toJson hw.inRange)]
        exact ⟨⟨hshown, hputs, hmirrors.policies⟩, hrest⟩

theorem inStep_writeAll {writes : List Node}
    (hwrites : ∀ w ∈ writes, w.Writable)
    (rest : Option (String × Json) → KeyMap PolicyStatus → Prop) :
    InStep wire conflicts (fun s t => s.Mirrors t ∧ rest s.policy t.2.statuses)
      (Pass.writeAll writes) (Pass.writeAll writes)
      fun _ _ s t => s.Mirrors t ∧ rest s.policy t.2.statuses := by
  induction writes with
  | nil => exact Pass.inStep_done fun _ _ h => h
  | cons w writes ih =>
      have hw := inStep_updateNode wire conflicts (hwrites w List.mem_cons_self) rest
      have hrest := ih fun w' hw' => hwrites w' (List.mem_cons_of_mem w hw')
      exact hw.bind fun _ _ => hrest

end Steps

/-! ## Policy writes -/

/-- Where the server has no policy the fleet has none. -/
theorem Mirrors.get?_eq_none {s : Server} {t : List Node × Fleet} (h : s.Mirrors t) {name : String}
    (hnone : s.policy? name = none) : t.2.policies.get? name = none := by
  have hshown := h.policies name
  rw [hnone] at hshown
  cases hget : t.2.policies.get? name with
  | none => rfl
  | some p =>
      rw [hget] at hshown
      exact False.elim hshown

/-- The document of the server shows a policy of the fleet. -/
theorem Mirrors.exists_shown {s : Server} {t : List Node × Fleet} (h : s.Mirrors t) {name : String}
    {doc : Json} (hdoc : s.policy? name = some doc) :
    ∃ p, t.2.policies.get? name = some p ∧ p.name = name ∧
      Policy.ShownBy doc p (t.2.recorded? name) := by
  have hshown := h.policies name
  rw [hdoc] at hshown
  cases hget : t.2.policies.get? name with
  | none =>
      rw [hget] at hshown
      exact False.elim hshown
  | some p =>
      rw [hget] at hshown
      exact ⟨p, rfl, hshown⟩

theorem shownBy_policy {p : Policy} {recorded : Option (List String)}
    (hrange : ∀ t ∈ p.times, t.isInRange = true)
    (hrecorded : p.status.map (·.selectedNodes) = recorded) :
    Policy.ShownBy p.toJson p recorded := by
  refine ⟨⟨_, rfl⟩, p.isLegible_toJson, p.wholeSeconds, Policy.ofJson_toJson hrange, ?_, rfl, ?_⟩
  · exact p.metadata.wholeSeconds_wholeSeconds
  · rw [← hrecorded, Policy.wholeSeconds, Option.map_map]
    rfl

theorem Mirrors.storePolicy {s : Server} {t : List Node × Fleet} (h : s.Mirrors t) {p : Policy}
    (hbacked : p.Backed s.policy t.2.statuses) :
    Mirrors
      { s with policy := if isReleased p.toJson then none else some (p.name, p.toJson) }
      (t.1, { t.2 with policies := Fleet.storePolicy t.2.policies p }) := by
  obtain ⟨doc, hdoc⟩ := hbacked.present
  refine ⟨h.nodes, h.puts, fun q => ?_⟩
  show Policy.MirroredBy q (t.2.recorded? q) _ ((Fleet.storePolicy t.2.policies p).get? q)
  rw [Fleet.get?_storePolicy, isReleased_toJson]
  by_cases hq : q = p.name
  · subst hq
    rw [if_pos rfl]
    cases p.isDeleting && p.finalizers.isEmpty with
    | true => exact trivial
    | false =>
        rw [policy?_self (by rfl)]
        exact ⟨rfl, shownBy_policy hbacked.inRange hbacked.recorded⟩
  · rw [if_neg hq, h.get?_eq_none (policy?_of_ne hdoc hq)]
    cases p.isDeleting && p.finalizers.isEmpty with
    | true => exact trivial
    | false =>
        rw [policy?_of_ne (by rfl) hq]
        exact trivial

/-- The document after a status write shows the same policy with the new selection. -/
theorem shownBy_mergePatch {doc : Json} {p : Policy} {recorded : Option (List String)}
    (h : Policy.ShownBy doc p recorded) {status : PolicyStatus}
    (hrange : ∀ t ∈ status.lastReconcileTime, t.isInRange = true) :
    Policy.ShownBy (doc.mergePatch (Request.statusPatch status)) p (some status.selectedNodes) := by
  obtain ⟨ms, rfl⟩ := h.object
  obtain ⟨q, hread, hmetadata, hspec, -⟩ := h.read
  have hmerged := Policy.ofJson_mergePatch hread hrange
  have hpatch := Request.isLegible_statusPatch status
  exact ⟨⟨_, rfl⟩, Json.isLegible_mergePatch h.legible _ hpatch, _, hmerged, hmetadata, hspec, rfl⟩

theorem Mirrors.patchStatus {s : Server} {t : List Node × Fleet} (h : s.Mirrors t) {name : String}
    {doc : Json} (hdoc : s.policy = some (name, doc)) {status : PolicyStatus}
    (hrange : ∀ t ∈ status.lastReconcileTime, t.isInRange = true) :
    Mirrors { s with policy := some (name, doc.mergePatch (Request.statusPatch status)) }
      (t.1, { t.2 with statuses := t.2.statuses.insert name status }) := by
  refine ⟨h.nodes, h.puts, fun q => ?_⟩
  show Policy.MirroredBy q (((t.2.statuses.insert name status).get? q).map (·.selectedNodes)) _
    (t.2.policies.get? q)
  rw [Fleet.recorded?_insert]
  by_cases hq : q = name
  · subst hq
    obtain ⟨p, hget, hname, hshown⟩ := h.exists_shown (policy?_self hdoc)
    rw [if_pos rfl, policy?_self (by rfl), hget]
    exact ⟨hname, shownBy_mergePatch hshown hrange⟩
  · rw [if_neg hq, h.get?_eq_none (policy?_of_ne hdoc hq), policy?_of_ne (by rfl) hq]
    exact trivial

section Steps

variable (wire : Json.Wire) (conflicts : Conflicts)

theorem inStep_updatePolicy (p : Policy) (rest : List (String × Json) → List Node → Prop) :
    InStep wire conflicts
      (fun s t => s.Mirrors t ∧ p.Backed s.policy t.2.statuses ∧ rest s.nodes t.2.nodes)
      (Pass.updatePolicy p) (Pass.updatePolicy p)
      fun a b s t => a = p.wholeSeconds ∧ b = p ∧ s.Mirrors t ∧ rest s.nodes t.2.nodes ∧
        (p.isDeleting = false → p.Backed s.policy t.2.statuses) := by
  intro s t ⟨hmirrors, hbacked, hrest⟩
  obtain ⟨doc, hdoc⟩ := hbacked.present
  have hmemory : Fleet.gated conflicts.gate (.updatePolicy p) t =
      (.ok p, t.1, { t.2 with policies := Fleet.storePolicy t.2.policies p }) := by rfl
  rw [Pass.updatePolicy, Pass.run_call, Pass.run_call, hmemory,
    handler_updatePolicy wire conflicts s hbacked.safe, putPolicy, policy?_self hdoc]
  simp only [Response.document_reply wire p.isLegible_toJson (Policy.ofJson_toJson hbacked.inRange)]
  refine ⟨rfl, rfl, hmirrors.storePolicy hbacked, hrest, fun hlive => ?_⟩
  have hpresent : (if isReleased p.toJson then none else some (p.name, p.toJson)) =
      some (p.name, p.toJson) := by
    rw [isReleased_toJson, hlive]
    rfl
  exact ⟨hbacked.safe, hbacked.inRange, ⟨p.toJson, hpresent⟩, hbacked.recorded⟩

theorem inStep_updateStatus (p : Policy) {status : PolicyStatus}
    (hrange : ∀ t ∈ status.lastReconcileTime, t.isInRange = true) :
    InStep wire conflicts (fun s t => s.Mirrors t ∧ p.Backed s.policy t.2.statuses)
      (Pass.updateStatus p.name status) (Pass.updateStatus p.name status)
      fun _ _ s t => s.Mirrors t := by
  intro s t ⟨hmirrors, hbacked⟩
  obtain ⟨doc, hdoc⟩ := hbacked.present
  have hmemory : Fleet.gated conflicts.gate (.updateStatus p.name status) t =
      (.ok (), t.1, { t.2 with statuses := t.2.statuses.insert p.name status }) := by rfl
  rw [Pass.updateStatus, Pass.run_call, Pass.run_call, hmemory,
    handler_updateStatus wire conflicts s hbacked.safe, patchStatus, policy?_self hdoc]
  obtain ⟨_, -, -, hshown⟩ := hmirrors.exists_shown (policy?_self hdoc)
  obtain ⟨_, hread, -⟩ := (shownBy_mergePatch hshown hrange).read
  simp only [Response.document_reply wire (shownBy_mergePatch hshown hrange).legible hread, map_ok]
  exact hmirrors.patchStatus hdoc hrange

end Steps

end Server

end FleetLabels
