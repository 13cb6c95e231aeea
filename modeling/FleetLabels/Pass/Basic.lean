import FleetLabels.Store.Call

/-!
# Passes

A pass is a program over the store: it makes calls, and each answer decides how it goes on. A pass
is kept apart from the store that answers it, so that it can be run over any store, stopped between
two calls, or looked at for the calls it makes. A call that fails ends the pass with that failure;
nothing that was written before is undone.
-/

namespace FleetLabels

/-- A program over the store with a result in `α`. -/
inductive Pass (α : Type) where
  /-- The pass is over. -/
  | done (result : Except PassError α)
  /-- The pass makes a call and goes on with the answer. -/
  | ask (call : StoreCall) (next : call.Answer → Pass α)

namespace Pass

variable {α β σ : Type}

/-- One pass after the other, the second one chosen by the result of the first. -/
def bind : Pass α → (α → Pass β) → Pass β
  | .done (.ok a), f => f a
  | .done (.error e), _ => .done (.error e)
  | .ask call next, f => .ask call fun answer => (next answer).bind f

instance : Monad Pass where
  pure a := .done (.ok a)
  bind := bind

/-- A call by itself. -/
def call (c : StoreCall) : Pass c.Answer :=
  .ask c fun answer => .done (.ok answer)

/-- A result or failure that needs no call. -/
def ofExcept (r : Except PassError α) : Pass α :=
  .done r

/-- The same for every item of a list, in order. -/
def forAll (l : List β) (f : β → Pass Unit) : Pass Unit :=
  match l with
  | [] => pure ()
  | x :: rest => (f x).bind fun _ => forAll rest f

/-- A store: how it answers a call in a state, and the state afterwards. -/
abbrev Handler (σ : Type) := (call : StoreCall) → σ → Except PassError call.Answer × σ

/-- The pass run over a store from a state: its result, and the state it leaves. -/
def run (handler : Handler σ) : Pass α → σ → Except PassError α × σ
  | .done result, s => (result, s)
  | .ask call next, s =>
      match handler call s with
      | (.ok answer, s) => (next answer).run handler s
      | (.error e, s) => (.error e, s)

theorem bind_assoc {γ : Type} (p : Pass α) (f : α → Pass β) (g : β → Pass γ) :
    (p.bind f).bind g = p.bind fun a => (f a).bind g := by
  induction p with
  | done r => cases r <;> rfl
  | ask call next ih => simp only [bind, ih]

theorem bind_pure (p : Pass α) : (p.bind fun a => .done (.ok a)) = p := by
  induction p with
  | done r => cases r <;> rfl
  | ask call next ih => simp only [bind, ih]

/-- A pass after another one runs from the state that the first one leaves. -/
theorem run_bind (handler : Handler σ) (p : Pass α) (f : α → Pass β) (s : σ) :
    (p.bind f).run handler s =
      match p.run handler s with
      | (.ok a, s) => (f a).run handler s
      | (.error e, s) => (.error e, s) := by
  induction p generalizing s with
  | done r => cases r <;> rfl
  | ask call next ih =>
      simp only [bind, run]
      rcases handler call s with ⟨_ | answer, s'⟩
      · rfl
      · exact ih answer s'

end Pass

end FleetLabels
