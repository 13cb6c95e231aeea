import FleetLabels.Proofs.Finalizers
import FleetLabels.Proofs.Remote.Answers
import FleetLabels.Proofs.Settings.Environment

/-!
# When a pass is repeated

A pass that is over is followed by an action: the policy is looked at again after some seconds, or
when something changes. Which one it is depends on the state in which the policy was found, on how
the pass ended, and on two delays of the settings; and a policy that is forgotten by mistake keeps
its labels, or its finalizer, for good. This module says what the action is, for every pass over any
store and with whatever settings an environment gives.

`Action.Fits` is the rule, told by the calls of the pass with their answers and by its result. A
live policy is looked at again at the regular interval. A policy that is gone or being deleted is
left alone once the fleet is clean of it. So is one with a strategy that does not exist, until it is
changed. Whatever else has stopped a pass, at whichever call, it is tried again.

## Main results

* `Pass.run_of_mem_exchanges_error` — a pass ends with the failure of its failed call.
* `Pass.outcome_of_run` — what a successful pass asks for, by the state of its policy.
* `Settings.delays_pos` — no delay that can be loaded is zero.
* `action_after_pass` — the action fits the pass, and no other one does.
* `Remote.action_after_failed_call` — no answer of a cluster to a call makes a pass fail for good.
-/

namespace FleetLabels

/-! ## Results of a pass -/

/-- There is no such policy any more, or its deletion has been requested. -/
def Policy.Over (record : Option Policy) : Prop :=
  ∀ p, record = some p → p.isDeleting = true

/-- What a successful pass asks for, by the state that it finds its policy in. -/
def Policy.State.outcome (interval : Nat) : Policy.State → Outcome
  | .gone | .terminating _ => .done
  | .untracked _ | .tracked _ => .requeue interval

namespace Policy.State

variable {record : Option Policy} {interval : Nat}

theorem outcome_of_over (h : Over record) : (of record).outcome interval = .done := by
  have hfits := fits_of record
  cases hstate : of record with
  | gone => rfl
  | terminating p => rfl
  | untracked p =>
      rw [hstate] at hfits
      exact absurd (h p hfits.1) (Bool.eq_false_iff.1 hfits.2.1)
  | tracked p =>
      rw [hstate] at hfits
      exact absurd (h p hfits.1) (Bool.eq_false_iff.1 hfits.2.1)

theorem outcome_of_live {p : Policy} (h : p.isDeleting = false) :
    (of (some p)).outcome interval = .requeue interval := by
  simp only [of, h]
  cases p.hasFinalizer <;> rfl

end Policy.State

namespace Pass

variable {α σ : Type} {store : Handler σ}

/-- A call that fails ends the pass, with its own failure. -/
theorem run_of_mem_exchanges_error {p : Pass α} {s : σ} {x : Exchange}
    (hx : x ∈ p.exchanges store s) {e : PassError} (he : x.answer = .error e) :
    (p.run store s).1 = .error e := by
  induction p generalizing s with
  | done r => cases hx
  | ask call next ih =>
      simp only [exchanges, run] at hx ⊢
      rcases hanswer : store call s with ⟨e' | answer, s'⟩
      · rw [hanswer] at hx
        obtain rfl := List.mem_singleton.1 hx
        cases he
        rfl
      · rw [hanswer] at hx
        rcases List.mem_cons.1 hx with rfl | hx
        · cases he
        · exact ih answer hx

variable {settings : PassSettings} {name : String}

theorem outcome_of_plan {found : Findings} {outcome : Outcome}
    (h : (plan settings name found).result = .ok outcome) :
    outcome = (Policy.State.of found.record).outcome settings.interval := by
  have happly : ∀ p, (applyPlan settings p found.nodes).result = .ok outcome →
      outcome = .requeue settings.interval := by
    intro p hp
    unfold applyPlan at hp
    split at hp
    next => exact (Except.ok.inj hp).symm
    next => cases hp
  unfold plan at h
  cases hstate : Policy.State.of found.record with
  | gone =>
      rw [hstate] at h
      exact (Except.ok.inj h).symm
  | terminating p =>
      rw [hstate] at h
      exact (Except.ok.inj h).symm
  | untracked p =>
      rw [hstate] at h
      exact happly found.stored h
  | tracked p =>
      rw [hstate] at h
      exact happly p h

/-- What a successful pass asks for is decided by the record that it finds. -/
theorem outcome_of_run {s : σ} {record : Option Policy} {outcome : Outcome}
    (hfound : ((reconcile settings name).exchanges store s).head? =
      some ⟨.getPolicy name, .ok record⟩)
    (hrun : ((reconcile settings name).run store s).1 = .ok outcome) :
    outcome = (Policy.State.of record).outcome settings.interval := by
  obtain ⟨found, hgo, habides⟩ := exists_abides_reconcile store s settings name
  have hrecord : record = found.record := hgo _ (List.mem_of_head? hfound)
  rw [hrecord]
  exact outcome_of_plan ((habides.result_eq_ok_iff outcome).1 hrun).2.2

/-- A pass that succeeds has found out about its policy. -/
theorem exists_found_of_run {s : σ} {outcome : Outcome}
    (hrun : ((reconcile settings name).run store s).1 = .ok outcome) :
    ∃ record, ((reconcile settings name).exchanges store s).head? =
      some ⟨.getPolicy name, .ok record⟩ := by
  rcases exchanges_reconcile_cases store s settings name with ⟨e, hmade⟩ | ⟨record, s', hmade⟩
  · have hfailed : ((reconcile settings name).run store s).1 = .error e := by
      refine run_of_mem_exchanges_error (x := ⟨.getPolicy name, .error e⟩) ?_ rfl
      rw [hmade]
      exact List.mem_singleton_self _
    rw [hfailed] at hrun
    cases hrun
  · exact ⟨record, by rw [hmade]; rfl⟩

/-- A pass that fails does so by the failure of its last call, or because of its strategy. -/
theorem error_cases_of_run {s : σ} {e : PassError}
    (hrun : ((reconcile settings name).run store s).1 = .error e) :
    (∃ x ∈ (reconcile settings name).exchanges store s, x.answer = .error e) ∨
      ∃ type, e = .unsupportedStrategy type := by
  obtain ⟨found, -, habides⟩ := exists_abides_reconcile store s settings name
  rw [hrun] at habides
  rcases habides.error_cases with ⟨before, call, hmade, -⟩ | ⟨-, -, hplanned⟩
  · refine .inl ⟨⟨call, .error e⟩, ?_, rfl⟩
    rw [hmade]
    exact List.mem_append_right _ (List.mem_singleton_self _)
  · obtain ⟨-, type, he, -⟩ := plan_result_eq_error hplanned
    exact .inr ⟨type, he⟩

end Pass

/-! ## Delays -/

theorem Settings.Delay.pos {env : Environment} {name : String} {default n : Nat}
    (h : Delay env name default n) (hdefault : 0 < default) : 0 < n := by
  cases h with
  | unset => exact hdefault
  | given _ _ positive _ => exact positive

/-- Zero is no default, and a variable that holds it is refused. -/
theorem Settings.delays_pos {env : Environment} {settings : Settings}
    (h : Settings.load env = .ok settings) :
    0 < settings.reconcileInterval ∧ 0 < settings.errorRequeue := by
  have hasked := Settings.load_eq_ok_iff.1 h
  exact ⟨hasked.reconcileInterval.pos (by decide), hasked.errorRequeue.pos (by decide)⟩

/-! ## Actions -/

/-- What a pass goes by under the settings of the controller. -/
def Settings.forPass (settings : Settings) (draws : DrawSource) (now : Instant) : PassSettings where
  interval := settings.reconcileInterval
  draws
  now

/-- An action fits a pass of a name that has made these calls, with their answers, and has come to
this result. -/
inductive Action.Fits (settings : Settings) (name : String) (made : List Exchange)
    (result : Except PassError Outcome) : Action → Prop where
  /-- The policy is live, and the fleet is labeled for it. -/
  | labeled {p : Policy} {outcome : Outcome}
      (found : made.head? = some ⟨.getPolicy name, .ok (some p)⟩) (live : p.isDeleting = false)
      (succeeded : result = .ok outcome) :
      Fits settings name made result (.requeue settings.reconcileInterval)
  /-- The policy is over, and the fleet is clean of it. -/
  | cleaned {record : Option Policy} {outcome : Outcome}
      (found : made.head? = some ⟨.getPolicy name, .ok record⟩) (ended : Policy.Over record)
      (succeeded : result = .ok outcome) : Fits settings name made result .awaitChange
  /-- The pass has failed with a strategy that does not exist. -/
  | refused {type : String} (failed : result = .error (.unsupportedStrategy type)) :
      Fits settings name made result .awaitChange
  /-- One of the calls has failed, no matter which. -/
  | failed {x : Exchange} {e : PassError} (call : x ∈ made) (failed : x.answer = .error e)
      (other : ∀ type, e ≠ .unsupportedStrategy type) :
      Fits settings name made result (.requeue settings.errorRequeue)

theorem PassError.retryable_of_ne {e : PassError} (h : ∀ type, e ≠ .unsupportedStrategy type) :
    e.retryable = true := by
  cases e with
  | unsupportedStrategy type => exact absurd rfl (h type)
  | _ => rfl

theorem Action.after_of_ne (errorRequeue : Nat) {e : PassError}
    (h : ∀ type, e ≠ .unsupportedStrategy type) :
    Action.after errorRequeue (.error e) = .requeue errorRequeue :=
  if_pos (PassError.retryable_of_ne h)

section Passes

variable {σ : Type} (store : Pass.Handler σ) (s : σ) (settings : Settings) (draws : DrawSource)
  (now : Instant) (name : String)

/-- The action after a pass fits it. -/
theorem Action.fits_after :
    let pass := Pass.reconcile (settings.forPass draws now) name
    Action.Fits settings name (pass.exchanges store s) (pass.run store s).1
      (Action.after settings.errorRequeue (pass.run store s).1) := by
  intro pass
  cases hrun : (pass.run store s).1 with
  | ok outcome =>
      obtain ⟨record, hfound⟩ := Pass.exists_found_of_run hrun
      obtain rfl := Pass.outcome_of_run hfound hrun
      by_cases hover : Policy.Over record
      · rw [Policy.State.outcome_of_over hover]
        exact .cleaned hfound hover rfl
      · simp only [Policy.Over, not_forall] at hover
        obtain ⟨p, rfl, hlive⟩ := hover
        have hlive : p.isDeleting = false := Bool.eq_false_iff.2 hlive
        rw [Policy.State.outcome_of_live hlive]
        exact .labeled hfound hlive rfl
  | error e =>
      by_cases hrefused : ∃ type, e = .unsupportedStrategy type
      · obtain ⟨type, rfl⟩ := hrefused
        exact .refused rfl
      · have hother : ∀ type, e ≠ .unsupportedStrategy type := not_exists.1 hrefused
        rw [Action.after_of_ne _ hother]
        rcases Pass.error_cases_of_run hrun with ⟨x, hx, he⟩ | hunsupported
        · exact .failed hx he hother
        · exact absurd hunsupported hrefused

variable {store s settings draws now name}

/-- No other action fits it. -/
theorem Action.Fits.eq_after {action : Action}
    (h : Action.Fits settings name
      ((Pass.reconcile (settings.forPass draws now) name).exchanges store s)
      ((Pass.reconcile (settings.forPass draws now) name).run store s).1 action) :
    Action.after settings.errorRequeue
      ((Pass.reconcile (settings.forPass draws now) name).run store s).1 = action := by
  cases h with
  | labeled hfound hlive hrun =>
      have houtcome := Pass.outcome_of_run hfound hrun
      rw [Policy.State.outcome_of_live hlive] at houtcome
      rw [hrun, houtcome]
      rfl
  | cleaned hfound hover hrun =>
      have houtcome := Pass.outcome_of_run hfound hrun
      rw [Policy.State.outcome_of_over hover] at houtcome
      rw [hrun, houtcome]
      rfl
  | refused hrun =>
      rw [hrun]
      rfl
  | failed hx he hother =>
      rw [Pass.run_of_mem_exchanges_error hx he]
      exact Action.after_of_ne _ hother

end Passes

/-- **The action after a pass**, over any store and with the settings of any environment. It fits
the pass, and nothing else does: where the two delays are equal, so are the actions by the two
rules. It never asks for a repetition after no time at all. Every failed call is the result of its
pass, and a call that could not read or write the store has the pass repeated. A pass that is not,
has failed with a strategy that does not exist, or it has made every call that was planned, with
success; so no cleanup is left half done. -/
theorem action_after_pass {env : Environment} {settings : Settings}
    (hload : Settings.load env = .ok settings) {σ : Type} (store : Pass.Handler σ) (s : σ)
    (draws : DrawSource) (now : Instant) (name : String) :
    let pass := Pass.reconcile (settings.forPass draws now) name
    let made := pass.exchanges store s
    let result := (pass.run store s).1
    let action := Action.after settings.errorRequeue result
    (∀ a, action = a ↔ Action.Fits settings name made result a) ∧
    (∀ seconds, action = .requeue seconds → 0 < seconds) ∧
    (∀ x ∈ made, ∀ e, x.answer = .error e → result = .error e) ∧
    (∀ target cause,
      result = .error (.read target cause) ∨ result = .error (.conflict target cause) ∨
        result = .error (.write target cause) → action = .requeue settings.errorRequeue) ∧
    (action = .awaitChange →
      (∃ type, result = .error (.unsupportedStrategy type)) ∨
      ∃ found : Findings, (∀ x ∈ made, found.GoWith x) ∧
        made.map Exchange.call = (Pass.plan (settings.forPass draws now) name found).calls ∧
        ∀ x ∈ made, x.succeeded = true) := by
  intro pass made result action
  obtain ⟨hinterval, hrequeue⟩ := Settings.delays_pos hload
  have hfits : Action.Fits settings name made result action :=
    Action.fits_after store s settings draws now name
  refine ⟨fun a => ⟨?_, Action.Fits.eq_after⟩, ?positive, ?failed, ?repeated, ?left⟩
  · rintro rfl
    exact hfits
  case positive =>
    intro seconds haction
    rw [haction] at hfits
    cases hfits with
    | labeled => exact hinterval
    | failed => exact hrequeue
  case failed => exact fun x hx e he => Pass.run_of_mem_exchanges_error hx he
  case repeated =>
    rintro target cause (hresult | hresult | hresult) <;>
      exact (congrArg _ hresult).trans (Action.after_of_ne _ fun _ => nofun)
  case left =>
    intro haction
    rw [haction] at hfits
    cases hfits with
    | refused hrefused => exact .inl ⟨_, hrefused⟩
    | cleaned _ _ hsucceeded =>
        obtain ⟨found, hgo, habides⟩ :=
          Pass.exists_abides_reconcile store s (settings.forPass draws now) name
        obtain ⟨hcalls, hall, -⟩ := (habides.result_eq_ok_iff _).1 hsucceeded
        exact .inr ⟨found, hgo, hcalls, hall⟩

/-- A regular interval of a minute and a half, and a short delay after a failure. -/
def hastyEnvironment : Environment :=
  (KeyMap.empty.insert Settings.intervalVariable (.text " +90 ")).insert
    Settings.errorRequeueVariable (.text "5")

/-- Somebody else keeps writing a node. -/
def contested : Cause :=
  .api
    { status := "Failure", message := "the object has been modified", reason := "Conflict"
      code := 409 }

/-- A policy that is being deleted and has two nodes to give up, of which the second is contested. -/
def contestedStore : FaultyStore where
  fleet :=
    { nodes :=
        [.plain "a" "True" [(Marker.key "web", "true"), ("tier", "front")],
         .plain "b" "True" [(Marker.key "web", "true"), ("tier", "front")]]
      policies := Fleet.policiesOf
        [{ metadata :=
            { name := some "web"
              finalizers := some [Policy.finalizer]
              deletionTimestamp := some PassSettings.plain.now }
           spec :=
            { strategy := { type := "oldest", count := 2 }, labels := .ofList [("tier", "front")] } }] }
  rules := [{ verb := "update_node", name := some "b", cause := contested }]

/-- The write of the second node has failed, so the cleanup is tried again after the short delay. -/
theorem action_after_pass_contestedStore :
    let settings : Settings := { reconcileInterval := 90, errorRequeue := 5 }
    let pass := Pass.reconcile (settings.forPass Draws.still PassSettings.plain.now) "web"
    let result := (pass.run FaultyStore.handler contestedStore).1
    Settings.load hastyEnvironment = .ok settings ∧
      (pass.exchanges FaultyStore.handler contestedStore).map (·.call.verb) =
        ["get_policy", "list_nodes", "update_node", "update_node"] ∧
      result = .error (.conflict "node b" contested) ∧
      Action.after settings.errorRequeue result = .requeue 5 ∧ 0 < 5 := by
  intro settings pass result
  have hload : Settings.load hastyEnvironment = .ok settings := by decide +kernel
  have hresult : result = .error (.conflict "node b" contested) := by decide +kernel
  obtain ⟨-, hpositive, -, hrepeated, -⟩ := action_after_pass hload FaultyStore.handler
    contestedStore Draws.still PassSettings.plain.now "web"
  have haction := hrepeated _ _ (.inr (.inl hresult))
  exact ⟨hload, by decide +kernel, hresult, haction, hpositive 5 haction⟩

/-! ## Passes over a cluster -/

/-- A call to a cluster fails with what is being read or written, and the cause. -/
theorem Remote.exists_cause_of_handler {σ : Type} {respond : Request → σ → Response × σ}
    {call : StoreCall} {s : σ} {e : PassError} (h : (handler respond call s).1 = .error e) :
    ∃ cause, call.failure cause = e := by
  unfold handler at h
  cases hrequest : Request.ofCall call with
  | error why =>
      rw [hrequest] at h
      exact ⟨_, Except.error.inj h⟩
  | ok request =>
      rw [hrequest] at h
      obtain ⟨cause, -, he⟩ := mapError_eq_error.1 h
      exact ⟨cause, he⟩

/-- Whatever a cluster answers, and whether it can be asked at all: a pass of which a call fails is
tried again. -/
theorem Remote.action_after_failed_call {σ : Type} {respond : Request → σ → Response × σ}
    {pass : Pass Outcome} {s : σ} {x : Exchange} (hx : x ∈ pass.exchanges (handler respond) s)
    (hfailed : x.succeeded = false) (errorRequeue : Nat) :
    Action.after errorRequeue (pass.run (handler respond) s).1 = .requeue errorRequeue := by
  obtain ⟨call, e | answer⟩ := x
  · obtain ⟨s', hanswer⟩ := Pass.exists_state_of_mem_exchanges hx
    have hcause : ∃ cause, call.failure cause = e := exists_cause_of_handler hanswer
    obtain ⟨cause, rfl⟩ := hcause
    rw [Pass.run_of_mem_exchanges_error hx rfl]
    exact if_pos (call.retryable_failure cause)
  · cases hfailed

end FleetLabels
