import FleetLabels.Fleet.Fault
import FleetLabels.Proofs.Exchanges
import FleetLabels.Proofs.InMemory

/-!
# The plan of a pass

Three answers decide which calls a pass makes: the record that it finds, the record that the store
returns when the finalizer is written, and the fleet that is listed. From these `Pass.plan` tells
all calls in order and the result that is to come of them. Over any store whatsoever a pass does
what its plan says, from the beginning up to the first call that fails, and then it stops with that
failure as it is.

`Pass.Follows` says this of a program and a list of calls. Its rules go along with the constructors
of programs and with `Pass.bind`, so that the plan of a whole pass is put together from those of its
parts, and no rule speaks about a particular store.

## Main results

* `Pass.Follows.ask`, `Pass.Follows.bind` — the plan of a call, and of one program after another.
* `Pass.follows_reconcile` — a pass follows its plan, as far as its findings tell the answers.
* `Pass.exists_goWith_reconcile`, `Pass.exists_abides_reconcile` — there are such findings over every
  store, so that every pass abides by some plan.
* `reconcile_keeps_to_plan` — the calls are a prefix of the plan; a pass succeeds exactly if all of
  the plan was answered with success; any other result is the failure of the last call, or the
  refusal of an unknown strategy.
-/

namespace FleetLabels

/-! ## Plans -/

/-- The answers that decide which calls a pass makes. -/
structure Findings where
  /-- The record of the policy, if there is one. -/
  record : Option Policy
  /-- The record as the store returns it from a write. -/
  stored : Policy
  /-- The fleet as it is listed. -/
  nodes : List Node

/-- An exchange goes with the findings unless its answer is a different one. -/
def Findings.GoWith (found : Findings) : Exchange → Prop
  | ⟨.getPolicy _, .ok record⟩ => record = found.record
  | ⟨.updatePolicy _, .ok policy⟩ => policy = found.stored
  | ⟨.listNodes, .ok nodes⟩ => nodes = found.nodes
  | _ => True

instance (found : Findings) : (x : Exchange) → Decidable (found.GoWith x)
  | ⟨.getPolicy _, .ok record⟩ => inferInstanceAs (Decidable (record = found.record))
  | ⟨.updatePolicy _, .ok policy⟩ => inferInstanceAs (Decidable (policy = found.stored))
  | ⟨.listNodes, .ok nodes⟩ => inferInstanceAs (Decidable (nodes = found.nodes))
  | ⟨.getPolicy _, .error _⟩ | ⟨.updatePolicy _, .error _⟩ | ⟨.listNodes, .error _⟩
  | ⟨.updateNode _, _⟩ | ⟨.updateStatus .., _⟩ => .isTrue trivial

/-- The calls that a pass is to make, and its result if they are all answered with success. -/
structure Plan where
  calls : List StoreCall
  result : Except PassError Outcome

namespace Pass

/-- The plan for a live policy. A strategy that is refused leaves nothing to do after the listing. -/
def applyPlan (settings : PassSettings) (p : Policy) (nodes : List Node) : Plan :=
  match select nodes p.spec.strategy settings.draws with
  | .ok selected =>
      { calls := .listNodes :: (applyWrites p nodes selected).map .updateNode ++
          [.updateStatus p.name (statusOf selected settings.now)]
        result := .ok (.requeue settings.interval) }
  | .error e => { calls := [.listNodes], result := .error e }

/-- The calls of a cleanup. -/
def cleanupCalls (name : String) (declared : Labels) (nodes : List Node) : List StoreCall :=
  .listNodes :: (cleanupWrites name declared nodes).map .updateNode

/-- The plan of the pass of a name. -/
def plan (settings : PassSettings) (name : String) (found : Findings) : Plan :=
  match Policy.State.of found.record with
  | .gone =>
      { calls := .getPolicy name :: cleanupCalls name .empty found.nodes
        result := .ok .done }
  | .terminating p =>
      { calls := .getPolicy name :: cleanupCalls p.name p.spec.labels found.nodes ++
          if p.hasFinalizer then [.updatePolicy p.release] else []
        result := .ok .done }
  | .untracked p =>
      { calls := .getPolicy name :: .updatePolicy p.track ::
          (applyPlan settings found.stored found.nodes).calls
        result := (applyPlan settings found.stored found.nodes).result }
  | .tracked p =>
      { calls := .getPolicy name :: (applyPlan settings p found.nodes).calls
        result := (applyPlan settings p found.nodes).result }

/-! ## Following a plan -/

variable {α β σ : Type}

/-- Some exchanges and a result abide by planned calls and a planned result: all was done, or a call
failed and was the last one. -/
inductive Abides (calls : List StoreCall) (planned : Except PassError α) :
    List Exchange → Except PassError α → Prop where
  | completed {made : List Exchange} (hall : ∀ x ∈ made, x.succeeded = true)
      (hcalls : made.map Exchange.call = calls) : Abides calls planned made planned
  | aborted (before : List Exchange) (call : StoreCall) (e : PassError)
      (hbefore : ∀ x ∈ before, x.succeeded = true)
      (hcalls : before.map Exchange.call ++ [call] <+: calls) :
      Abides calls planned (before ++ [⟨call, .error e⟩]) (.error e)

namespace Abides

variable {calls calls' : List StoreCall} {planned : Except PassError α} {made : List Exchange}
  {result : Except PassError α}

/-- Planned calls that were all answered with success may stand before the others. -/
theorem append (before : List Exchange) (hall : ∀ x ∈ before, x.succeeded = true)
    (hcalls : before.map Exchange.call = calls) (h : Abides calls' planned made result) :
    Abides (calls ++ calls') planned (before ++ made) result := by
  cases h with
  | completed hmade hcalls' =>
      refine .completed (List.forall_mem_append.2 ⟨hall, hmade⟩) ?_
      rw [List.map_append, hcalls, hcalls']
  | aborted made call e hmade hcalls' =>
      rw [← List.append_assoc]
      refine .aborted (before ++ made) call e (List.forall_mem_append.2 ⟨hall, hmade⟩) ?_
      rw [List.map_append, hcalls, List.append_assoc]
      exact (List.prefix_append_right_inj calls).2 hcalls'

theorem calls_prefix (h : Abides calls planned made result) :
    made.map Exchange.call <+: calls := by
  cases h with
  | completed _ hcalls => exact hcalls ▸ List.prefix_rfl
  | aborted before call e _ hcalls => simpa using hcalls

/-- A failed exchange is no success, so that nothing but the whole plan leads to its result. -/
theorem result_eq_ok_iff (h : Abides calls planned made result) (a : α) :
    result = .ok a ↔ made.map Exchange.call = calls ∧ (∀ x ∈ made, x.succeeded = true) ∧
      planned = .ok a := by
  cases h with
  | completed hall hcalls => exact ⟨fun hr => ⟨hcalls, hall, hr⟩, fun hr => hr.2.2⟩
  | aborted before call e _ _ =>
      refine ⟨(nomatch ·), ?_⟩
      rintro ⟨-, hall, -⟩
      have hfailed : Exchange.succeeded ⟨call, .error e⟩ = true :=
        hall _ (List.mem_append_right _ (List.mem_singleton_self _))
      cases hfailed

/-- A failure is that of the last call, or it was planned. -/
theorem error_cases {e : PassError} (h : Abides calls planned made (.error e)) :
    (∃ before call, made = before ++ [⟨call, .error e⟩] ∧ ∀ x ∈ before, x.succeeded = true) ∨
      (made.map Exchange.call = calls ∧ (∀ x ∈ made, x.succeeded = true) ∧
        planned = .error e) := by
  cases h with
  | completed hall hcalls => exact .inr ⟨hcalls, hall, rfl⟩
  | aborted before call e hbefore _ => exact .inl ⟨before, call, rfl, hbefore⟩

end Abides

/-- Over the given store, the program abides by the planned calls and result, so far as its answers
go with the findings. -/
def Follows (store : Handler σ) (found : Findings) (p : Pass α) (calls : List StoreCall)
    (planned : Except PassError α) : Prop :=
  ∀ s, (∀ x ∈ p.exchanges store s, found.GoWith x) →
    Abides calls planned (p.exchanges store s) (p.run store s).1

namespace Follows

variable {store : Handler σ} {found : Findings} {calls calls' : List StoreCall}

theorem done (r : Except PassError α) : (Pass.done r).Follows store found [] r :=
  fun _ _ => .completed (by simp [exchanges]) rfl

/-- A call, if every answer to it that goes with the findings goes on by the rest of the plan. -/
theorem ask {call : StoreCall} {next : call.Answer → Pass α} {planned : Except PassError α}
    (h : ∀ answer, found.GoWith ⟨call, .ok answer⟩ →
      (next answer).Follows store found calls planned) :
    (Pass.ask call next).Follows store found (call :: calls) planned := by
  intro s hfound
  simp only [exchanges, run] at hfound ⊢
  rcases hanswer : store call s with ⟨e | answer, s'⟩
  · exact .aborted [] call e (by simp) (by simp)
  · rw [hanswer] at hfound
    obtain ⟨hcall, hrest⟩ := List.forall_mem_cons.1 hfound
    show Abides ([call] ++ calls) _ _ _
    exact (h answer hcall s' hrest).append [⟨call, .ok answer⟩] (List.forall_mem_singleton.2 rfl) rfl

/-- One program after another, the first one with a result that is known beforehand. -/
theorem bind {p : Pass α} {a : α} {f : α → Pass β} {planned : Except PassError β}
    (hp : p.Follows store found calls (.ok a))
    (hf : (f a).Follows store found calls' planned) :
    (p.bind f).Follows store found (calls ++ calls') planned := by
  intro s hfound
  rw [exchanges_bind] at hfound ⊢
  obtain ⟨hfirst, hsecond⟩ := List.forall_mem_append.1 hfound
  have habides := hp s hfirst
  rw [run_bind]
  generalize p.exchanges store s = made at habides ⊢
  rcases hrun : p.run store s with ⟨e | a', s'⟩
  · rw [hrun] at habides
    cases habides with
    | aborted before call e hbefore hcalls =>
        rw [List.append_nil]
        exact .aborted before call e hbefore (hcalls.trans (List.prefix_append ..))
  · rw [hrun] at habides hsecond
    cases habides with
    | completed hall hcalls => exact (hf s' hsecond).append made hall hcalls

/-- A result that is not looked at. -/
theorem map {p : Pass α} {a : α} (hp : p.Follows store found calls (.ok a)) (b : β) :
    (p.bind fun _ => .done (.ok b)).Follows store found calls (.ok b) := by
  rw [← List.append_nil calls]
  exact hp.bind (done _)

/-! ### The parts of a pass -/

theorem getPolicy {name : String} {f : Option Policy → Pass α} {planned : Except PassError α}
    (h : (f found.record).Follows store found calls planned) :
    ((Pass.getPolicy name).bind f).Follows store found (.getPolicy name :: calls) planned := by
  refine ask fun record hrecord => ?_
  obtain rfl : record = found.record := hrecord
  exact h

theorem updatePolicy {p : Policy} {f : Policy → Pass α} {planned : Except PassError α}
    (h : (f found.stored).Follows store found calls planned) :
    ((Pass.updatePolicy p).bind f).Follows store found (.updatePolicy p :: calls) planned := by
  refine ask fun stored hstored => ?_
  obtain rfl : stored = found.stored := hstored
  exact h

theorem listNodes {f : List Node → Pass α} {planned : Except PassError α}
    (h : (f found.nodes).Follows store found calls planned) :
    (Pass.listNodes.bind f).Follows store found (.listNodes :: calls) planned := by
  refine ask fun nodes hnodes => ?_
  obtain rfl : nodes = found.nodes := hnodes
  exact h

theorem writeAll (writes : List Node) :
    (Pass.writeAll writes).Follows store found (writes.map .updateNode) (.ok ()) := by
  induction writes with
  | nil => exact done _
  | cons w rest ih => exact ask fun _ _ => ih

theorem cleanup (name : String) (declared : Labels) :
    (Pass.cleanup name declared).Follows store found (cleanupCalls name declared found.nodes)
      (.ok (found.nodes.filter (·.isManagedBy (Marker.key name))).length) := by
  rw [cleanup_eq]
  exact listNodes ((writeAll _).map _)

theorem finalize (p : Policy) :
    (Pass.finalize p).Follows store found
      (cleanupCalls p.name p.spec.labels found.nodes ++
        if p.hasFinalizer then [.updatePolicy p.release] else []) (.ok ()) := by
  unfold Pass.finalize
  cases p.hasFinalizer with
  | false =>
      show Follows _ _ _ (_ ++ []) _
      rw [List.append_nil]
      exact (cleanup p.name p.spec.labels).map ()
  | true => exact (cleanup p.name p.spec.labels).bind (updatePolicy (done _))

theorem apply (settings : PassSettings) (p : Policy) :
    (Pass.apply settings p).Follows store found (applyPlan settings p found.nodes).calls
      (applyPlan settings p found.nodes).result := by
  rw [apply_eq]
  unfold applyPlan
  cases hselect : select found.nodes p.spec.strategy settings.draws with
  | error e =>
      refine listNodes ?_
      rw [hselect]
      exact done _
  | ok selected =>
      refine listNodes ?_
      rw [hselect]
      exact (writeAll _).bind (ask fun _ _ => done _)

end Follows

/-- A pass follows its plan. -/
theorem follows_reconcile (store : Handler σ) (settings : PassSettings) (name : String)
    (found : Findings) :
    (reconcile settings name).Follows store found (plan settings name found).calls
      (plan settings name found).result := by
  rw [reconcile_eq]
  unfold plan
  cases hstate : Policy.State.of found.record with
  | gone =>
      refine Follows.getPolicy ?_
      rw [hstate]
      exact (Follows.cleanup name .empty).map _
  | terminating p =>
      refine Follows.getPolicy ?_
      rw [hstate]
      exact (Follows.finalize p).map _
  | untracked p =>
      refine Follows.getPolicy ?_
      rw [hstate]
      exact Follows.updatePolicy (Follows.apply settings found.stored)
  | tracked p =>
      refine Follows.getPolicy ?_
      rw [hstate]
      exact Follows.apply settings p

/-- A pass plans to fail only where a strategy is refused. -/
theorem plan_result_eq_error {settings : PassSettings} {name : String} {found : Findings}
    {e : PassError} (h : (plan settings name found).result = .error e) :
    Node.ready found.nodes ≠ [] ∧
      ∃ type, e = .unsupportedStrategy type ∧ ∀ s : Strategy, type ≠ s.name := by
  have hrefused : ∀ p, (applyPlan settings p found.nodes).result = .error e →
      Node.ready found.nodes ≠ [] ∧
        ∃ type, e = .unsupportedStrategy type ∧ ∀ s : Strategy, type ≠ s.name := by
    intro p hp
    unfold applyPlan at hp
    split at hp
    next => cases hp
    next hselect =>
      cases hp
      obtain ⟨hready, hunknown, he⟩ := select_eq_error_iff.1 hselect
      exact ⟨hready, _, he, hunknown⟩
  unfold plan at h
  split at h
  next => cases h
  next => cases h
  next => exact hrefused _ h
  next => exact hrefused _ h

end Pass

namespace Pass

/-! ## Findings of a pass -/

/-- An answer to a call, namely what the call was made with. -/
def echo : (call : StoreCall) → call.Answer
  | .getPolicy _ => none
  | .listNodes => []
  | .updateNode node => node
  | .updatePolicy policy => policy
  | .updateStatus .. => ()

/-- For a call there is an answer with which findings need to go, besides the exchanges that follow
it. If the call failed, any answer will do. -/
theorem exists_answer (store : Handler σ) (call : StoreCall) (next : call.Answer → Pass α) (s : σ) :
    ∃ answer s', ∀ found : Findings, found.GoWith ⟨call, .ok answer⟩ →
      (∀ x ∈ (next answer).exchanges store s', found.GoWith x) →
        ∀ x ∈ (Pass.ask call next).exchanges store s, found.GoWith x := by
  simp only [exchanges]
  rcases store call s with ⟨e | answer, s'⟩
  · refine ⟨echo call, s, fun found _ _ => List.forall_mem_singleton.2 ?_⟩
    cases call <;> trivial
  · exact ⟨answer, s', fun found hcall hrest => List.forall_mem_cons.2 ⟨hcall, hrest⟩⟩

/-- The program asks for nothing that findings tell. -/
def AsksNothing (store : Handler σ) (p : Pass α) : Prop :=
  ∀ s found, ∀ x ∈ p.exchanges store s, Findings.GoWith found x

namespace AsksNothing

variable {store : Handler σ}

theorem done (r : Except PassError α) : (Pass.done r).AsksNothing store :=
  fun _ _ _ hx => nomatch hx

theorem ask {call : StoreCall} {next : call.Answer → Pass α}
    (hcall : ∀ (found : Findings) answer, found.GoWith ⟨call, .ok answer⟩)
    (hnext : ∀ answer, (next answer).AsksNothing store) : (Pass.ask call next).AsksNothing store := by
  intro s found
  obtain ⟨answer, s', hmade⟩ := exists_answer store call next s
  exact hmade found (hcall found answer) (hnext answer s' found)

theorem writeAll_bind (writes : List Node) {f : Unit → Pass α} (hf : (f ()).AsksNothing store) :
    ((writeAll writes).bind f).AsksNothing store := by
  induction writes with
  | nil => exact hf
  | cons w rest ih => exact ask (fun _ _ => trivial) fun _ => ih

end AsksNothing

section Exists

variable (store : Handler σ) (s : σ)

/-- A listing that is followed by writes only. -/
theorem exists_goWith_listNodes {f : List Node → Pass α}
    (hf : ∀ nodes, (f nodes).AsksNothing store) :
    ∃ nodes, ∀ record stored, ∀ x ∈ (listNodes.bind f).exchanges store s,
      Findings.GoWith ⟨record, stored, nodes⟩ x := by
  obtain ⟨nodes, s', hmade⟩ := exists_answer store .listNodes f s
  exact ⟨nodes, fun record stored => hmade ⟨record, stored, nodes⟩ rfl (hf nodes s' _)⟩

theorem exists_goWith_cleanup (name : String) (declared : Labels) :
    ∃ nodes, ∀ record stored, ∀ x ∈ (cleanup name declared).exchanges store s,
      Findings.GoWith ⟨record, stored, nodes⟩ x := by
  rw [cleanup_eq]
  exact exists_goWith_listNodes store s fun nodes => .writeAll_bind _ (.done _)

theorem exists_goWith_apply (settings : PassSettings) (p : Policy) :
    ∃ nodes, ∀ record stored, ∀ x ∈ (apply settings p).exchanges store s,
      Findings.GoWith ⟨record, stored, nodes⟩ x := by
  rw [apply_eq]
  refine exists_goWith_listNodes store s fun nodes => ?_
  cases select nodes p.spec.strategy settings.draws with
  | error e => exact .done _
  | ok selected => exact .writeAll_bind _ (.ask (fun _ _ => trivial) fun _ => .done _)

theorem exists_goWith_finalize (p : Policy) :
    ∃ stored nodes, ∀ record, ∀ x ∈ (finalize p).exchanges store s,
      Findings.GoWith ⟨record, stored, nodes⟩ x := by
  obtain ⟨nodes, hcleanup⟩ := exists_goWith_cleanup store s p.name p.spec.labels
  obtain ⟨stored, s', hrelease⟩ := exists_answer store (.updatePolicy p.release)
    (fun _ => .done (.ok ())) ((cleanup p.name p.spec.labels).run store s).2
  refine ⟨stored, nodes, fun record => ?_⟩
  have hwrite := hrelease ⟨record, stored, nodes⟩ rfl fun _ hx => nomatch hx
  show ∀ x ∈ ((cleanup p.name p.spec.labels).bind _).exchanges store s, _
  rw [exchanges_bind]
  refine List.forall_mem_append.2 ⟨hcleanup record stored, ?_⟩
  rcases hrun : (cleanup p.name p.spec.labels).run store s with ⟨e | marked, s₁⟩
  · exact fun x hx => nomatch hx
  · rw [hrun] at hwrite
    cases hfinalizer : p.hasFinalizer with
    | false => exact fun x hx => nomatch hx
    | true => exact hwrite

theorem exists_goWith_track (settings : PassSettings) (p : Policy) :
    ∃ stored nodes, ∀ record, ∀ x ∈ ((updatePolicy p.track).bind (apply settings)).exchanges store s,
      Findings.GoWith ⟨record, stored, nodes⟩ x := by
  obtain ⟨stored, s', hmade⟩ := exists_answer store (.updatePolicy p.track) (apply settings) s
  obtain ⟨nodes, happly⟩ := exists_goWith_apply store s' settings stored
  exact ⟨stored, nodes, fun record => hmade ⟨record, stored, nodes⟩ rfl (happly record stored)⟩

/-- Whatever the store answers, there are findings that go with it: a pass asks nothing twice. -/
theorem exists_goWith_reconcile (settings : PassSettings) (name : String) :
    ∃ found : Findings, ∀ x ∈ (reconcile settings name).exchanges store s, found.GoWith x := by
  rw [reconcile_eq]
  obtain ⟨record, s', hmade⟩ := exists_answer store (.getPolicy name)
    (fun record => proceed settings name (Policy.State.of record)) s
  have hrest : ∃ stored nodes,
      ∀ x ∈ (proceed settings name (Policy.State.of record)).exchanges store s',
        Findings.GoWith ⟨record, stored, nodes⟩ x := by
    cases Policy.State.of record with
    | gone =>
        obtain ⟨nodes, hcleanup⟩ := exists_goWith_cleanup store s' name .empty
        refine ⟨.plain name "" 0 [], nodes, ?_⟩
        rw [proceed, exchanges_bind_done]
        exact hcleanup record _
    | terminating p =>
        obtain ⟨stored, nodes, hfinalize⟩ := exists_goWith_finalize store s' p
        refine ⟨stored, nodes, ?_⟩
        rw [proceed, exchanges_bind_done]
        exact hfinalize record
    | untracked p =>
        obtain ⟨stored, nodes, htrack⟩ := exists_goWith_track store s' settings p
        exact ⟨stored, nodes, htrack record⟩
    | tracked p =>
        obtain ⟨nodes, happly⟩ := exists_goWith_apply store s' settings p
        exact ⟨p, nodes, happly record p⟩
  obtain ⟨stored, nodes, hrest⟩ := hrest
  exact ⟨⟨record, stored, nodes⟩, hmade _ rfl hrest⟩

/-- So a pass abides by the plan for what it finds. -/
theorem exists_abides_reconcile (settings : PassSettings) (name : String) :
    let made := (reconcile settings name).exchanges store s
    ∃ found : Findings, (∀ x ∈ made, found.GoWith x) ∧
      Abides (plan settings name found).calls (plan settings name found).result made
        ((reconcile settings name).run store s).1 := by
  obtain ⟨found, hgo⟩ := exists_goWith_reconcile store s settings name
  exact ⟨found, hgo, follows_reconcile store settings name found s hgo⟩

end Exists

end Pass

/-- **A pass keeps to its plan**, whatever the store answers: it makes no other calls and in no other
order; it succeeds exactly if everything planned was answered with success; and otherwise its result
is the failure of the last call as it was told, or the refusal of a strategy that does not exist. -/
theorem reconcile_keeps_to_plan {σ : Type} (store : Pass.Handler σ) (s : σ)
    (settings : PassSettings) (name : String) :
    let made := (Pass.reconcile settings name).exchanges store s
    let result := ((Pass.reconcile settings name).run store s).1
    ∃ found : Findings, (∀ x ∈ made, found.GoWith x) ∧
      let plan := Pass.plan settings name found
      made.map Exchange.call <+: plan.calls ∧
        (∀ outcome, result = .ok outcome ↔
          made.map Exchange.call = plan.calls ∧ (∀ x ∈ made, x.succeeded = true) ∧
            plan.result = .ok outcome) ∧
        ∀ e, result = .error e →
          (∃ before call, made = before ++ [⟨call, .error e⟩] ∧
            ∀ x ∈ before, x.succeeded = true) ∨
          (made.map Exchange.call = plan.calls ∧ (∀ x ∈ made, x.succeeded = true) ∧
            Node.ready found.nodes ≠ [] ∧
              ∃ type, e = .unsupportedStrategy type ∧ ∀ s : Strategy, type ≠ s.name) := by
  obtain ⟨found, hfound⟩ := Pass.exists_goWith_reconcile store s settings name
  have habides := Pass.follows_reconcile store settings name found s hfound
  refine ⟨found, hfound, habides.calls_prefix, habides.result_eq_ok_iff, fun e he => ?_⟩
  rcases (he ▸ habides).error_cases with hlast | ⟨hcalls, hall, hplanned⟩
  · exact .inl hlast
  · exact .inr ⟨hcalls, hall, Pass.plan_result_eq_error hplanned⟩

/-- A store whose last node still carries the labels of a policy, and cannot be written. The policy
is yet to get its finalizer; the store answers that write with a record that asks for other labels
than the one it was given. -/
def stubbornStore : FaultyStore where
  fleet :=
    { nodes :=
        [.plain "a" "True" [("zone", "1")],
         .plain "b" "True" [(Marker.key "web", "true"), ("tier", "back")],
         .plain "c" "False" [(Marker.key "web", "true"), ("tier", "front")]]
      policies := Fleet.policiesOf [.plain "web" "random" 2 [("tier", "front")]] }
  rules := [{ verb := "update_node", name := some "c", cause := .lines }]
  returnedPolicy := some (.plain "web" "random" 2 [("tier", "back")])

/-- What the pass of `web` finds there. -/
def stubbornFindings : Findings where
  record := some (.plain "web" "random" 2 [("tier", "front")])
  stored := .plain "web" "random" 2 [("tier", "back")]
  nodes := stubbornStore.fleet.nodes

/-- The node `a` is given the labels that the returned record asks for, and `b` has them; then the
write of `c` fails, so that no status is written. -/
example :
    ((Pass.reconcile .plain "web").exchanges FaultyStore.handler stubbornStore).map (·.call.verb) =
        ["get_policy", "update_policy", "list_nodes", "update_node", "update_node"] ∧
      (Pass.plan .plain "web" stubbornFindings).calls.map StoreCall.verb =
        ["get_policy", "update_policy", "list_nodes", "update_node", "update_node",
          "update_policy_status"] := by
  decide +kernel

end FleetLabels
