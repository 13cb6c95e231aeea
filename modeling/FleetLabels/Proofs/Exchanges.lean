import FleetLabels.Pass.Reconcile

/-!
# The calls of a pass

A store sees of a pass the calls that it makes, one after the other, and a pass sees of the store
what each of them is answered with. `Pass.exchanges` is that conversation, over any store: up to the
end of the pass, or up to the first call that fails.

## Main results

* `Pass.exchanges_bind` — one pass after another converses first like the one, then like the other.
* `Pass.Completes.bind` — programs of which every call is answered, one after another.
-/

namespace FleetLabels

/-- A call of a pass, with what the store answered. -/
structure Exchange where
  call : StoreCall
  answer : Except PassError call.Answer

/-- The call was answered with success. -/
def Exchange.succeeded (x : Exchange) : Bool := x.answer.isOk

/-- The node that a call replaces, if it replaces one. -/
def StoreCall.node? : StoreCall → Option Node
  | .updateNode node => some node
  | _ => none

theorem StoreCall.filterMap_node?_updateNode (act : Node → Node) (nodes : List Node) :
    (nodes.map fun n => updateNode (act n)).filterMap node? = nodes.map act := by
  rw [List.filterMap_map]
  exact congrFun (List.filterMap_eq_map (f := act)) nodes

namespace Pass

variable {α β σ : Type}

/-- The calls of a pass over a store from a state, with their answers. -/
def exchanges (handler : Handler σ) : Pass α → σ → List Exchange
  | .done _, _ => []
  | .ask call next, s =>
      match handler call s with
      | (.ok answer, s) => ⟨call, .ok answer⟩ :: (next answer).exchanges handler s
      | (.error e, _) => [⟨call, .error e⟩]

/-- The calls of a pass over a store from a state. -/
def calls (handler : Handler σ) (p : Pass α) (s : σ) : List StoreCall :=
  (p.exchanges handler s).map Exchange.call

/-- The nodes that a program replaces, in order. -/
def writes (store : Handler σ) (p : Pass α) (s : σ) : List Node :=
  (p.calls store s).filterMap StoreCall.node?

/-- Those of them of which the replacement was answered with success. -/
def written (store : Handler σ) (p : Pass α) (s : σ) : List Node :=
  ((p.exchanges store s).filter Exchange.succeeded).filterMap fun x => x.call.node?

/-- The first call of a pass fails, or it is answered and the pass goes on. -/
theorem exchanges_ask_cases (handler : Handler σ) (call : StoreCall)
    (next : call.Answer → Pass α) (s : σ) :
    (∃ e, (Pass.ask call next).exchanges handler s = [⟨call, .error e⟩]) ∨
      ∃ answer s', (Pass.ask call next).exchanges handler s =
        ⟨call, .ok answer⟩ :: (next answer).exchanges handler s' := by
  simp only [exchanges]
  rcases handler call s with ⟨e | answer, s'⟩
  · exact .inl ⟨e, rfl⟩
  · exact .inr ⟨answer, s', rfl⟩

/-- A pass goes on with the answer to its first call. -/
theorem exchanges_ask_of_ok {handler : Handler σ} {call : StoreCall} {next : call.Answer → Pass α}
    {s s' : σ} {answer : call.Answer} (h : handler call s = (.ok answer, s')) :
    (Pass.ask call next).exchanges handler s =
      ⟨call, .ok answer⟩ :: (next answer).exchanges handler s' := by
  simp only [exchanges, h]

/-- The first exchange is that of the first call, whatever comes of it. -/
theorem head?_exchanges_ask (handler : Handler σ) (call : StoreCall)
    (next : call.Answer → Pass α) (s : σ) :
    ((Pass.ask call next).exchanges handler s).head? = some ⟨call, (handler call s).1⟩ := by
  simp only [exchanges]
  rcases handler call s with ⟨e | answer, s'⟩ <;> rfl

/-- What a call was answered with, the store gave in some state. -/
theorem exists_state_of_mem_exchanges {handler : Handler σ} {p : Pass α} {s : σ} {x : Exchange}
    (h : x ∈ p.exchanges handler s) : ∃ s', (handler x.call s').1 = x.answer := by
  induction p generalizing s with
  | done r => cases h
  | ask call next ih =>
      simp only [exchanges] at h
      rcases hanswer : handler call s with ⟨e | answer, s'⟩
      · rw [hanswer] at h
        obtain rfl := List.mem_singleton.1 h
        exact ⟨s, congrArg Prod.fst hanswer⟩
      · rw [hanswer] at h
        rcases List.mem_cons.1 h with rfl | h
        · exact ⟨s, congrArg Prod.fst hanswer⟩
        · exact ih answer h

/-- The second pass begins where the first one ended, unless that one failed. -/
theorem exchanges_bind (handler : Handler σ) (p : Pass α) (f : α → Pass β) (s : σ) :
    (p.bind f).exchanges handler s =
      p.exchanges handler s ++
        match p.run handler s with
        | (.ok a, s) => (f a).exchanges handler s
        | (.error _, _) => [] := by
  induction p generalizing s with
  | done r => cases r <;> rfl
  | ask call next ih =>
      simp only [bind, exchanges, run]
      rcases handler call s with ⟨_ | answer, s'⟩
      · rfl
      · exact congrArg (_ :: ·) (ih answer s')

/-- A result is made of another one without a call. -/
theorem exchanges_bind_done (handler : Handler σ) (p : Pass α) (f : α → Except PassError β)
    (s : σ) : (p.bind fun a => .done (f a)).exchanges handler s = p.exchanges handler s := by
  rw [exchanges_bind]
  rcases p.run handler s with ⟨_ | a, s'⟩ <;> exact List.append_nil _

theorem calls_bind (handler : Handler σ) (p : Pass α) (f : α → Pass β) (s : σ) :
    (p.bind f).calls handler s =
      p.calls handler s ++
        match p.run handler s with
        | (.ok a, s) => (f a).calls handler s
        | (.error _, _) => [] := by
  unfold calls
  rw [exchanges_bind, List.map_append]
  rcases p.run handler s with ⟨_ | a, s'⟩ <;> rfl

/-! ## Programs of which every call is answered -/

/-- Run from a state, the program makes the given calls, each of which is answered, and ends with a
result in another state. -/
structure Completes (store : Handler σ) (p : Pass α) (s : σ) (calls : List StoreCall)
    (result : Except PassError α) (s' : σ) : Prop where
  calls : p.calls store s = calls
  answered : ∀ x ∈ p.exchanges store s, x.succeeded = true
  run : p.run store s = (result, s')

namespace Completes

variable {store : Handler σ} {s s₁ s₂ : σ} {calls calls' : List StoreCall}

theorem done (r : Except PassError α) (s : σ) : (Pass.done r).Completes store s [] r s :=
  ⟨rfl, fun _ hx => (nomatch hx), rfl⟩

theorem ask {call : StoreCall} {next : call.Answer → Pass α} {answer : call.Answer}
    {result : Except PassError α} (hanswer : store call s = (.ok answer, s₁))
    (h : (next answer).Completes store s₁ calls result s₂) :
    (Pass.ask call next).Completes store s (call :: calls) result s₂ := by
  have hmade : (Pass.ask call next).exchanges store s =
      ⟨call, .ok answer⟩ :: (next answer).exchanges store s₁ := exchanges_ask_of_ok hanswer
  constructor
  case calls =>
    rw [Pass.calls, hmade, List.map_cons]
    exact congrArg (call :: ·) h.calls
  case answered =>
    rw [hmade]
    exact List.forall_mem_cons.2 ⟨rfl, h.answered⟩
  case run =>
    simp only [Pass.run, hanswer]
    exact h.run

theorem bind {p : Pass α} {f : α → Pass β} {a : α} {result : Except PassError β}
    (hp : p.Completes store s calls (.ok a) s₁) (hf : (f a).Completes store s₁ calls' result s₂) :
    (p.bind f).Completes store s (calls ++ calls') result s₂ := by
  constructor
  case calls =>
    rw [calls_bind, hp.calls, hp.run]
    exact congrArg (calls ++ ·) hf.calls
  case answered =>
    rw [exchanges_bind, hp.run]
    exact List.forall_mem_append.2 ⟨hp.answered, hf.answered⟩
  case run =>
    rw [run_bind, hp.run]
    exact hf.run

end Completes

end Pass

end FleetLabels
