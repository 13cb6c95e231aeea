import FleetLabels.Proofs.Footprint
import FleetLabels.Proofs.Remote.Mirror

/-!
# The store of a cluster refines the store in memory

A pass by requests to a server does what the same pass does to the fleet that the documents of the
server describe: it comes to the same outcome or the same failure, and leaves documents that show
the fleet in memory as it is then. That holds wherever the pass fails, and in particular whatever
nodes cannot be written.

The pass goes through its parts on both sides at once. Up to the listing every document is read as
the very value that is in memory, so both sides work on the same record and select the same nodes;
the one record that is written before that comes back without fractions of a second, which no work
looks at. After the listing nothing is read any more.

A name that is to be found at the server must be one that an address can hold. Without that the
server is not even asked, as `Server.unsafeNames_fail` tells.

## Main results

* `Server.inStep_takeUp`, `Server.inStep_carryOut` — the parts of a pass before and after the
  listing.
* `Server.exists_decode` — what the documents of a mirror describe.
* `Server.refines_memory` — a pass by requests refines the pass in memory.
-/

namespace FleetLabels

/-! ## Documents of a fleet -/

/-- The fleet of the given nodes and policies, with the statuses that the policies come with. -/
def Fleet.ofRecords (nodes : List Node) (policies : List Policy) : Fleet where
  nodes := nodes
  policies := policiesOf policies
  statuses := .ofList (policies.filterMap fun p => p.status.map (p.name, ·))

namespace Server

/-- The fleet that the documents describe. -/
def decode (s : Server) : Except Fault Fleet := do
  let nodes ← (s.nodes.map (·.2)).mapM Node.ofJson
  let policies ← (s.policy.toList.map (·.2)).mapM Policy.ofJson
  .ok (Fleet.ofRecords nodes policies)

/-- The labels that nodes were asked to be given, by name and in order. -/
def labelPuts (s : Server) : List (String × Except Fault Labels) :=
  s.puts.map fun e => (e.1, Node.labels <$> Node.ofJson e.2)

/-- Every object is kept under its own name, which is safe, and as a document that has a text; the
document of the policy is an object. -/
structure Kept (s : Server) : Prop where
  nodes : ∀ e ∈ s.nodes,
    UrlSafe e.1 ∧ e.2.isLegible = true ∧ Node.name <$> Node.ofJson e.2 = .ok e.1
  policy : ∀ e, s.policy = some e →
    UrlSafe e.1 ∧ e.2.isLegible = true ∧ (∃ ms, e.2 = .object ms) ∧
      Policy.name <$> Policy.ofJson e.2 = .ok e.1

/-- The documents are those of the very nodes. -/
structure Lists (docs : List (String × Json)) (nodes : List Node) : Prop where
  legible : ∀ e ∈ docs, e.2.isLegible = true
  read : (docs.map (·.2)).mapM Node.ofJson = .ok nodes
  safe : ∀ n ∈ nodes, UrlSafe n.name

/-- The document of the policy is that of the very policy. -/
def Holds (s : Server) (f : Fleet) : Prop :=
  ∀ name doc, s.policy = some (name, doc) → ∃ p, Policy.ofJson doc = .ok p ∧
    f.policies.get? name = some p ∧ p.name = name ∧ p.Backed s.policy f.statuses

/-! ## What a server describes -/

section Decoding

variable {s : Server} {f : Fleet} {t : List Node × Fleet}

/-- Each node is read from the document under its name. -/
theorem forall₂_of_kept (hkept : s.Kept) {nodes : List Node}
    (hread : (s.nodes.map (·.2)).mapM Node.ofJson = .ok nodes) :
    List.Forall₂ (fun e n => UrlSafe n.name ∧ e.1 = n.name ∧ Node.ofJson e.2 = .ok n) s.nodes
      nodes := by
  rw [mapM_eq_ok_iff, List.forall₂_map_left_iff] at hread
  have hboth := (List.forall₂_and_left _ _).2 ⟨hkept.nodes, hread⟩
  refine hboth.imp fun e n ⟨⟨hsafe, _, hname⟩, hn⟩ => ?_
  rw [hn, map_ok] at hname
  have heq : n.name = e.1 := Except.ok.inj hname
  exact ⟨heq ▸ hsafe, heq.symm, hn⟩

theorem lists_of_kept (hkept : s.Kept) {nodes : List Node}
    (hread : (s.nodes.map (·.2)).mapM Node.ofJson = .ok nodes) : Lists s.nodes nodes := by
  refine ⟨fun e he => (hkept.nodes e he).2.1, hread, ?_⟩
  have hall := forall₂_of_kept hkept hread
  clear hread
  generalize s.nodes = docs at hall
  induction hall with
  | nil => simp
  | cons h _ ih => simpa [h.1] using ih

/-- What is described of one policy. -/
theorem get?_policies_single (nodes : List Node) (p : Policy) (q : String) :
    (Fleet.ofRecords nodes [p]).policies.get? q = if q = p.name then some p else none := by
  show (KeyMap.empty.insert p.name p).get? q = _
  rw [KeyMap.get?_insert, KeyMap.get?_empty]

theorem recorded?_single (nodes : List Node) (p : Policy) (q : String) :
    (Fleet.ofRecords nodes [p]).recorded? q =
      if q = p.name then p.status.map (·.selectedNodes) else none := by
  unfold Fleet.recorded? Fleet.ofRecords
  cases hstatus : p.status with
  | none => simp [KeyMap.ofList, hstatus]
  | some status =>
      simp only [List.filterMap_cons, hstatus, Option.map_some, List.filterMap_nil]
      show ((KeyMap.empty.insert p.name status).get? q).map _ = _
      rw [KeyMap.get?_insert, KeyMap.get?_empty]
      split <;> rfl

theorem mirrors_of_decode (hkept : s.Kept) (hputs : s.puts = []) (hdecode : s.decode = .ok f) :
    s.Mirrors ([], f) ∧ Lists s.nodes f.nodes ∧ s.Holds f := by
  rw [decode] at hdecode
  simp only [bind_eq_ok, Except.ok.injEq] at hdecode
  obtain ⟨nodes, hnodes, policies, hpolicies, rfl⟩ := hdecode
  have hlists := lists_of_kept hkept hnodes
  have hshown : List.Forall₂ Node.ShownBy s.nodes nodes := by
    refine (forall₂_of_kept hkept hnodes).imp fun e n ⟨_, hname, hread⟩ => ?_
    exact ⟨hname, n, hread, rfl, rfl⟩
  have hsent : List.Forall₂ Node.ShownBy s.puts [] := hputs ▸ .nil
  cases hpolicy : s.policy with
  | none =>
      rw [hpolicy] at hpolicies
      cases hpolicies
      refine ⟨⟨hshown, hsent, fun q => ?_⟩, hlists, fun name doc hdoc => ?_⟩
      · rw [policy?, hpolicy]
        exact trivial
      · rw [hpolicy] at hdoc
        cases hdoc
  | some e =>
      obtain ⟨name, doc⟩ := e
      obtain ⟨hsafe, hlegible, hobject, hname⟩ := hkept.policy _ hpolicy
      have hsingle : List.Forall₂ (fun j p => Policy.ofJson j = .ok p) [doc] policies := by
        rw [hpolicy] at hpolicies
        exact mapM_eq_ok_iff.1 hpolicies
      obtain ⟨p, _, hread, hnil, rfl⟩ := List.forall₂_cons_left_iff.1 hsingle
      rw [List.forall₂_nil_left_iff.1 hnil]
      rw [hread, map_ok] at hname
      obtain rfl : p.name = name := Except.ok.inj hname
      refine ⟨⟨hshown, hsent, fun q => ?_⟩, hlists, fun name' doc' hdoc => ?_⟩
      · rw [recorded?_single, get?_policies_single]
        by_cases hq : q = p.name
        · rw [if_pos hq, if_pos hq, hq, policy?_self hpolicy]
          exact ⟨rfl, hobject, hlegible, p, hread, rfl, rfl, rfl⟩
        · rw [if_neg hq, if_neg hq, policy?_of_ne hpolicy hq]
          exact trivial
      · rw [hpolicy] at hdoc
        cases hdoc
        refine ⟨p, hread, ?_, rfl, hsafe, Policy.gives_ofJson doc p hread, ⟨doc, hpolicy⟩, ?_⟩
        · rw [get?_policies_single, if_pos rfl]
        · have hrecorded := recorded?_single nodes p p.name
          rw [if_pos rfl] at hrecorded
          exact hrecorded.symm

/-- Documents that show nodes describe nodes with the same names and labels. -/
theorem exists_nodes_of_shown {docs : List (String × Json)} {nodes : List Node}
    (h : List.Forall₂ Node.ShownBy docs nodes) :
    ∃ ms, (docs.map (·.2)).mapM Node.ofJson = .ok ms ∧
      ms.map (fun n => (n.name, n.labels)) = nodes.map (fun n => (n.name, n.labels)) := by
  induction h with
  | nil => exact ⟨[], rfl, rfl⟩
  | @cons e n docs nodes hhead _ ih =>
      obtain ⟨-, m, hm, hname, hlabels⟩ := hhead
      obtain ⟨ms, hms, heq⟩ := ih
      refine ⟨m :: ms, ?_, ?_⟩
      · rw [List.map_cons, List.mapM_cons, hm, ok_bind, hms]
        rfl
      · rw [List.map_cons, List.map_cons, hname, hlabels, heq]

theorem labelPuts_eq {writes : List Node} (h : List.Forall₂ Node.ShownBy s.puts writes) :
    s.labelPuts = writes.map fun n => (n.name, .ok n.labels) := by
  unfold labelPuts
  generalize s.puts = puts at h
  induction h with
  | nil => rfl
  | @cons e n puts writes hhead _ ih =>
      obtain ⟨hname, m, hm, -, hlabels⟩ := hhead
      rw [List.map_cons, List.map_cons, ih, hname, hm, map_ok, hlabels]

/-- What the documents of a mirror describe has the names, the labels, the finalizers and the
recorded nodes of the fleet. -/
theorem exists_decode (h : s.Mirrors t) :
    ∃ g, s.decode = .ok g ∧
      g.nodes.map (fun n => (n.name, n.labels)) = t.2.nodes.map (fun n => (n.name, n.labels)) ∧
      (∀ q, (g.policies.get? q).map Policy.finalizers =
        (t.2.policies.get? q).map Policy.finalizers) ∧
      ∀ q, (g.policies.get? q).isSome = true → g.recorded? q = t.2.recorded? q := by
  obtain ⟨ms, hms, hnodes⟩ := exists_nodes_of_shown h.nodes
  cases hpolicy : s.policy with
  | none =>
      refine ⟨Fleet.ofRecords ms [], ?_, hnodes, fun q => ?_, fun q hq => ?_⟩
      · rw [decode, hms, hpolicy]
        rfl
      · have hnone : s.policy? q = none := by
          rw [policy?, hpolicy]
          rfl
        rw [h.get?_eq_none hnone]
        rfl
      · cases hq
  | some e =>
      obtain ⟨name, doc⟩ := e
      obtain ⟨p, hget, hname, hshown⟩ := h.exists_shown (policy?_self hpolicy)
      obtain ⟨r, hread, hmetadata, -, hrecorded⟩ := hshown.read
      have hr : r.name = name := (congrArg Metadata.displayName hmetadata).trans hname
      have hfinalizers : r.metadata.wholeSeconds.finalizerList =
          p.metadata.wholeSeconds.finalizerList := congrArg Metadata.finalizerList hmetadata
      subst hr
      refine ⟨Fleet.ofRecords ms [r], ?_, hnodes, fun q => ?_, fun q hq => ?_⟩
      · rw [decode, hms, hpolicy, Option.toList_some, List.map_cons, List.map_nil, List.mapM_cons,
          hread]
        rfl
      · rw [get?_policies_single]
        by_cases hq : q = r.name
        · rw [if_pos hq, hq, hget]
          exact congrArg some hfinalizers
        · rw [if_neg hq, h.get?_eq_none (policy?_of_ne hpolicy hq)]
      · rw [recorded?_single]
        by_cases hname : q = r.name
        · rw [if_pos hname, hname]
          exact hrecorded
        · rw [get?_policies_single, if_neg hname] at hq
          cases hq

end Decoding

end Server

/-- The record that a work goes back to, if there is one. -/
def Work.record? : Work → Option Policy
  | .label p => some p
  | .clean _ _ release => release

/-- The record that a work goes back to can be written. -/
def Work.Backed (w : Work) (policy : Option (String × Json)) (statuses : KeyMap PolicyStatus) :
    Prop :=
  ∀ p, w.record? = some p → p.Backed policy statuses

namespace Server

/-! ## The parts of a pass -/

section Parts

variable (wire : Json.Wire) (conflicts : Conflicts) (settings : PassSettings)

theorem inStep_getPolicy {name : String} (hname : UrlSafe name) :
    InStep wire conflicts
      (fun s t => s.Mirrors t ∧ Lists s.nodes t.2.nodes ∧ s.Holds t.2)
      (Pass.getPolicy name) (Pass.getPolicy name)
      fun a b s t => a = b ∧ s.Mirrors t ∧
        (∀ p, b = some p → p.Backed s.policy t.2.statuses) ∧ Lists s.nodes t.2.nodes := by
  intro s t ⟨hmirrors, hlists, hholds⟩
  have hmemory : Fleet.gated conflicts.gate (.getPolicy name) t =
      (.ok (t.2.policies.get? name), t.1, t.2) := by rfl
  rw [Pass.getPolicy, Pass.run_call, Pass.run_call, hmemory,
    handler_getPolicy wire conflicts s hname, getPolicy]
  cases hdoc : s.policy? name with
  | none =>
      simp only [Response.document?_notFound, hmirrors.get?_eq_none hdoc]
      exact ⟨rfl, hmirrors, by simp, hlists⟩
  | some doc =>
      obtain ⟨_, -, -, hshown⟩ := hmirrors.exists_shown hdoc
      have hpolicy := policy?_eq_some_iff.1 hdoc
      obtain ⟨p, hread, hget, -, hbacked⟩ := hholds name doc hpolicy
      have hdocument := Response.document_reply wire hshown.legible hread
      simp only [Response.document?_of_ok hdocument, hget]
      refine ⟨rfl, hmirrors, fun p' hp' => ?_, hlists⟩
      exact Option.some.inj hp' ▸ hbacked

/-- The record that comes back without fractions of a second makes for the same work. -/
theorem inStep_takeUp (name : String) (record : Option Policy) :
    InStep wire conflicts
      (fun s t => s.Mirrors t ∧ (∀ p, record = some p → p.Backed s.policy t.2.statuses) ∧
        Lists s.nodes t.2.nodes)
      (Pass.takeUp name (Policy.State.of record)) (Pass.takeUp name (Policy.State.of record))
      fun w w' s t => (∀ nodes, Pass.carryOut settings nodes w = Pass.carryOut settings nodes w') ∧
        s.Mirrors t ∧ w'.Backed s.policy t.2.statuses ∧ Lists s.nodes t.2.nodes := by
  cases hstate : Policy.State.of record with
  | gone =>
      refine Pass.inStep_done fun s t ⟨hmirrors, _, hlists⟩ => ?_
      refine ⟨fun _ => rfl, hmirrors, fun p hp => ?_, hlists⟩
      cases hp
  | terminating p =>
      obtain ⟨rfl, -⟩ := Policy.State.of_eq_iff.1 hstate
      refine Pass.inStep_done fun s t ⟨hmirrors, hrecord, hlists⟩ => ?_
      refine ⟨fun _ => rfl, hmirrors, fun r hr => ?_, hlists⟩
      have hr' : (if p.hasFinalizer then some p.release else none) = some r := hr
      split at hr'
      next =>
        obtain rfl := Option.some.inj hr'
        exact (hrecord p rfl).release
      next => cases hr'
  | untracked p =>
      obtain ⟨rfl, hlive, -⟩ := Policy.State.of_eq_iff.1 hstate
      refine .bind (.mono (inStep_updatePolicy wire conflicts p.track Lists) ?_) fun a b => ?_
      · exact fun s t ⟨hmirrors, hrecord, hlists⟩ => ⟨hmirrors, (hrecord p rfl).track, hlists⟩
      · refine fun s t ⟨ha, hb, hmirrors, hlists, hbacked⟩ => ?_
        subst ha hb
        refine ⟨fun _ => rfl, hmirrors, fun r hr => ?_, hlists⟩
        exact Option.some.inj hr ▸ hbacked hlive
  | tracked p =>
      obtain ⟨rfl, -⟩ := Policy.State.of_eq_iff.1 hstate
      refine Pass.inStep_done fun s t ⟨hmirrors, hrecord, hlists⟩ => ?_
      refine ⟨fun _ => rfl, hmirrors, fun r hr => ?_, hlists⟩
      exact Option.some.inj hr ▸ hrecord p rfl

/-- Both sides list the same nodes. -/
theorem inStep_listNodes (rest : Option (String × Json) → KeyMap PolicyStatus → Prop) :
    InStep wire conflicts
      (fun s t => s.Mirrors t ∧ rest s.policy t.2.statuses ∧ Lists s.nodes t.2.nodes)
      Pass.listNodes Pass.listNodes
      fun a b s t => a = b ∧ (∀ n ∈ b, n.Writable) ∧ s.Mirrors t ∧ rest s.policy t.2.statuses := by
  intro s t ⟨hmirrors, hrest, hlists⟩
  have hmemory : Fleet.gated conflicts.gate .listNodes t = (.ok t.2.nodes, t.1, t.2) := by rfl
  have hdocument := Response.document_reply wire (isLegible_nodeList hlists.legible)
    (items_nodeList hlists.read)
  have hrange := gives_mapM Node.gives_ofJson _ _ hlists.read
  have hdocs : ∀ doc ∈ s.nodes.map (·.2),
      Gives (fun n : Node => n.metadata.Legible) (Node.ofJson doc) := by
    intro doc hdoc
    obtain ⟨e, he, rfl⟩ := List.mem_map.1 hdoc
    exact Node.gives_legible (hlists.legible e he)
  have hkept := gives_mapM_of_mem hdocs _ hlists.read
  rw [Pass.listNodes, Pass.run_call, Pass.run_call, hmemory, handler_listNodes wire conflicts s,
    hdocument]
  exact ⟨rfl, fun n hn => ⟨hlists.safe n hn, hrange n hn, hkept n hn⟩, hmirrors, hrest⟩

variable {settings}

/-- A node that differs from a listed one in its labels only can be written. -/
theorem writable_of_footprint {nodes : List Node} {work : Work} {w : Node}
    (hnodes : ∀ n ∈ nodes, n.Writable) (hw : work.Footprint settings nodes w) : w.Writable := by
  obtain ⟨n, hn, heq, -⟩ := hw
  rw [heq]
  exact ⟨(hnodes n hn).safe, (hnodes n hn).inRange, (hnodes n hn).legible⟩

theorem inStep_carryOut (hnow : settings.now.isInRange = true) {nodes : List Node} (work : Work)
    (hnodes : ∀ n ∈ nodes, n.Writable) :
    InStep wire conflicts (fun s t => s.Mirrors t ∧ work.Backed s.policy t.2.statuses)
      (Pass.carryOut settings nodes work) (Pass.carryOut settings nodes work)
      fun a b s t => a = b ∧ s.Mirrors t := by
  cases work with
  | label p =>
      rw [Pass.carryOut]
      cases hselect : select nodes p.spec.strategy settings.draws with
      | error e => exact Pass.inStep_fail e fun s t h => h.1
      | ok selected =>
          have hwritable : ∀ w ∈ Pass.applyWrites p nodes selected, w.Writable := by
            intro w hw
            exact writable_of_footprint hnodes (Work.footprint_of_mem_applyWrites hselect hw)
          have hwrites := inStep_writeAll wire conflicts hwritable (Work.label p).Backed
          have hrange : ∀ t ∈ (Pass.statusOf selected settings.now).lastReconcileTime,
              t.isInRange = true := fun t ht => Option.some.inj ht ▸ hnow
          have hstatus := (inStep_updateStatus wire conflicts p hrange).bind_done
            (Outcome.requeue settings.interval) fun _ _ s t hmirrors => hmirrors
          exact hwrites.bind fun _ _ => hstatus.mono fun s t h => ⟨h.1, h.2 p rfl⟩
  | clean policy declared release =>
      have hwritable : ∀ w ∈ Pass.cleanupWrites policy declared nodes, w.Writable := by
        intro w hw
        have hfootprint : (Work.clean policy declared release).Footprint settings nodes w :=
          Work.footprint_of_mem_cleanupWrites release hw
        exact writable_of_footprint hnodes hfootprint
      have hwrites := inStep_writeAll wire conflicts hwritable
        (Work.clean policy declared release).Backed
      refine hwrites.bind fun _ _ => ?_
      cases release with
      | none => exact Pass.inStep_done fun s t h => ⟨rfl, h.1⟩
      | some r =>
          have hrelease := (inStep_updatePolicy wire conflicts r fun _ _ => True).bind_done
            Outcome.done fun _ _ s t h => h.2.2.1
          exact hrelease.mono fun s t h => ⟨h.1, h.2 r rfl, trivial⟩

theorem inStep_reconcile (hnow : settings.now.isInRange = true) {name : String}
    (hname : UrlSafe name) :
    InStep wire conflicts (fun s t => s.Mirrors t ∧ Lists s.nodes t.2.nodes ∧ s.Holds t.2)
      (Pass.reconcile settings name) (Pass.reconcile settings name)
      fun a b s t => a = b ∧ s.Mirrors t := by
  rw [Pass.reconcile_eq_work]
  refine (inStep_getPolicy wire conflicts hname).bind fun record _ => .assuming fun heq => ?_
  subst heq
  refine (inStep_takeUp wire conflicts settings name record).bind fun work work' =>
    .assuming fun hsame => ?_
  refine (inStep_listNodes wire conflicts work'.Backed).bind fun nodes _ => .assuming fun heq =>
    .assuming fun hnodes => ?_
  subst heq
  rw [hsame]
  exact inStep_carryOut wire conflicts hnow work' hnodes

end Parts

/-! ## Refinement -/

/-- **A pass by requests refines the pass in memory.** Let the documents of a server describe a
fleet, under safe names. A pass of a policy with a safe name, at a time that the calendar has, comes
to the same result over both, whichever nodes cannot be written; it asks for the same node writes in
the same order, and leaves documents that describe the same names and labels of nodes, the same
finalizers of every policy, and the same recorded nodes of every policy that is still there. -/
theorem refines_memory (wire : Json.Wire) (conflicts : Conflicts) {settings : PassSettings}
    (hnow : settings.now.isInRange = true) {s : Server} {f : Fleet} (hkept : s.Kept)
    (hputs : s.puts = []) (hdecode : s.decode = .ok f) {name : String} (hname : UrlSafe name) :
    ∃ result s' writes f' g,
      (Pass.reconcile settings name).run (handler wire conflicts) s = (result, s') ∧
      (Pass.reconcile settings name).run (Fleet.gated conflicts.gate) ([], f) =
        (result, writes, f') ∧
      s'.labelPuts = writes.map (fun n => (n.name, .ok n.labels)) ∧
      s'.decode = .ok g ∧
      g.nodes.map (fun n => (n.name, n.labels)) = f'.nodes.map (fun n => (n.name, n.labels)) ∧
      (∀ q, (g.policies.get? q).map Policy.finalizers =
        (f'.policies.get? q).map Policy.finalizers) ∧
      ∀ q, (g.policies.get? q).isSome = true → g.recorded? q = f'.recorded? q := by
  have hagree := inStep_reconcile wire conflicts hnow hname s ([], f)
    (mirrors_of_decode hkept hputs hdecode)
  rcases hremote : (Pass.reconcile settings name).run (handler wire conflicts) s with ⟨result, s'⟩
  rcases hmemory : (Pass.reconcile settings name).run (Fleet.gated conflicts.gate) ([], f) with
    ⟨result', writes, f'⟩
  rw [hremote, hmemory] at hagree
  have hends : result = result' ∧ s'.Mirrors (writes, f') := by
    cases result with
    | ok a =>
        cases result' with
        | ok b => exact ⟨congrArg Except.ok hagree.1, hagree.2⟩
        | error e => exact False.elim hagree
    | error e =>
        cases result' with
        | ok b => exact False.elim hagree
        | error e' => exact ⟨congrArg Except.error hagree.1, hagree.2⟩
  obtain ⟨rfl, hmirrors⟩ := hends
  obtain ⟨g, hg, hnodes, hfinalizers, hrecorded⟩ := exists_decode hmirrors
  exact ⟨result, s', writes, f', g, rfl, rfl, labelPuts_eq hmirrors.puts, hg, hnodes, hfinalizers,
    hrecorded⟩

/-- Two ready nodes, one of them created within a second, and a policy for both that has not been
seen yet. -/
def twoNodes : Server where
  nodes :=
    [("a", .object [
      ("metadata", .object [
        ("creationTimestamp", .string "2026-03-01T12:00:00.25Z"), ("name", .string "a")]),
      ("status", .object [("conditions", .array [
        .object [("status", .string "True"), ("type", .string "Ready")]])])]),
    ("b", .object [
      ("metadata", .object [
        ("creationTimestamp", .string "2026-03-01T12:00:01Z"), ("name", .string "b")]),
      ("status", .object [("conditions", .array [
        .object [("status", .string "True"), ("type", .string "Ready")]])])])]
  policy := some ("web", .object [
    ("metadata", .object [("name", .string "web")]),
    ("spec", .object [
      ("labels", .object [("tier", .string "front")]),
      ("strategy", .object [("count", .int 2), ("type", .string "random")])])])

/-- How a write is refused. -/
def refusal : ApiError :=
  { status := "Failure", message := "the object has been modified", reason := "Conflict"
    code := 409 }

/-- The second node cannot be written. -/
def secondRefused : Conflicts where
  at? name := if name = "b" then some refusal else none
  code_eq name e h := by
    split at h
    next => exact Option.some.inj h ▸ rfl
    next => cases h

theorem kept_twoNodes : twoNodes.Kept := by
  constructor
  · intro e he
    simp only [twoNodes, List.mem_cons, List.not_mem_nil, or_false] at he
    rcases he with rfl | rfl
    · exact ⟨by decide, by rfl, by rfl⟩
    · exact ⟨by decide, by rfl, by rfl⟩
  · intro e he
    obtain rfl := Option.some.inj he
    exact ⟨by decide, by rfl, ⟨_, rfl⟩, by rfl⟩

/-- The fleet that these documents describe. -/
def twoNodesFleet : Fleet :=
  let ready (name : String) (second nanos : Nat) : Node :=
    { Node.plain name "True" [] with
      metadata :=
        { name := some name
          creationTimestamp := some { PassSettings.plain.now with
            second := Instant.secondOf second
            nanos := Instant.nanosOf nanos } } }
  .ofRecords [ready "a" 0 250000000, ready "b" 1 0] [.plain "web" "random" 2 [("tier", "front")]]

/-- The pass in memory. -/
def twoNodesRun : Except PassError Outcome × List Node × Fleet :=
  (Pass.reconcile .plain "web").run (Fleet.gated secondRefused.gate) ([], twoNodesFleet)

/-- The first node is labeled and the second one is refused, which ends the pass. -/
theorem refines_memory_secondRefused :
    twoNodes.decode = .ok twoNodesFleet ∧ ∃ s' g,
      (Pass.reconcile .plain "web").run (handler .compact secondRefused) twoNodes =
        (.error (.conflict "node b" (.api refusal)), s') ∧
      s'.labelPuts.map Prod.fst = ["a", "b"] ∧
      s'.decode = .ok g ∧
      g.nodes.map (fun n => (n.name, n.isManagedBy (Marker.key "web"))) =
        [("a", true), ("b", false)] ∧
      (g.policies.get? "web").map Policy.finalizers = some [Policy.finalizer] := by
  have hdecode : twoNodes.decode = .ok twoNodesFleet := by rfl
  have hnow : PassSettings.plain.now.isInRange = true := by decide +kernel
  have hname : UrlSafe "web" := by decide
  obtain ⟨result, s', writes, f', g, hremote, hmemory, hputs, hg, hnodes, hfinalizers, -⟩ :=
    refines_memory .compact secondRefused hnow kept_twoNodes rfl hdecode hname
  have hrun : twoNodesRun = (result, writes, f') := hmemory
  have hends : twoNodesRun.1 = .error (.conflict "node b" (.api refusal)) := by decide +kernel
  have hwrites : twoNodesRun.2.1.map Node.name = ["a", "b"] := by decide +kernel
  have hmarked : twoNodesRun.2.2.nodes.map (fun n => (n.name, n.isManagedBy (Marker.key "web"))) =
      [("a", true), ("b", false)] := by decide +kernel
  have hpolicy : (twoNodesRun.2.2.policies.get? "web").map Policy.finalizers =
      some [Policy.finalizer] := by decide +kernel
  rw [hrun] at hends hwrites hmarked hpolicy
  refine ⟨hdecode, s', g, ?_, ?_, hg, ?_, ?_⟩
  · rw [hremote]
    exact Prod.ext hends rfl
  · rw [hputs, List.map_map, ← hwrites]
    rfl
  · have hmarks := congrArg (List.map fun e : String × Labels =>
      (e.1, e.2.get? (Marker.key "web") == some Marker.value)) hnodes
    rw [List.map_map, List.map_map] at hmarks
    exact hmarks.trans hmarked
  · rw [hfinalizers, hpolicy]

/-- Safe names are needed: an empty server is not even asked for a policy with the empty name, or
with a name that no address can hold, whereas in memory there is just no such policy. -/
theorem unsafeNames_fail :
    Kept {} ∧ decode {} = .ok {} ∧
      ((Pass.reconcile .plain "").run (handler .compact noneRefused) {}).1 =
        .error (.read "NodeLabelPolicy " (.request .emptyName)) ∧
      ((Pass.reconcile .plain "").run (Fleet.gated noneRefused.gate) ([], {})).1 = .ok .done ∧
      ((Pass.reconcile .plain "two words").run (handler .compact noneRefused) {}).1 =
        .error (.read "NodeLabelPolicy two words" (.request .invalidUri)) ∧
      ((Pass.reconcile .plain "two words").run (Fleet.gated noneRefused.gate) ([], {})).1 =
        .ok .done := by
  refine ⟨⟨?_, ?_⟩, rfl, rfl, rfl, rfl, rfl⟩
  · intro e he
    cases he
  · intro e he
    cases he

end Server

end FleetLabels
