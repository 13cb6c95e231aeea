import FleetLabels.Proofs.Versioned.Contract

/-!
# Passes of several policies over one store

A cluster is a versioned store together with the passes under way, at most one for each policy. A
turn of a policy is the smallest step there is: its pass begins, one call of it is answered, or one
call of it fails, which ends the pass. A run is a list of turns, so that passes of different
policies overlap in every possible way, and a pass that lost a race stops where it is.

## Main results

* `Cluster.turn` — one turn.
* `Cluster.PassKeeps.turn` — a turn keeps the pass of the policy within its contract, and changes
  the store only as the contract allows.
-/

namespace FleetLabels

/-- A store and the passes under way. A pass that is over stays until the next one of its policy
begins. -/
structure Cluster where
  store : VersionedFleet
  passes : String → Option (Pass Outcome)

/-- What may happen to the pass of a policy. -/
inductive Turn where
  /-- A pass begins, unless one is under way. -/
  | start (settings : PassSettings)
  /-- The next call is answered; what it writes gets the given version. -/
  | answer (version : String)
  /-- The next call fails. -/
  | reject

namespace Cluster

/-- The cluster before the first pass. -/
def idle (store : VersionedFleet) : Cluster := ⟨store, fun _ => none⟩

/-- The cluster with another pass, or none, for a policy. -/
def withPass (c : Cluster) (policy : String) (pass : Option (Pass Outcome)) : Cluster :=
  { c with passes := fun q => if q = policy then pass else c.passes q }

/-- The outcome of the last pass of a policy, if it is over and succeeded. -/
def outcome? (c : Cluster) (policy : String) : Option Outcome :=
  match c.passes policy with
  | some (.done (.ok outcome)) => some outcome
  | _ => none

theorem passes_of_outcome? {c : Cluster} {policy : String} {outcome : Outcome}
    (h : c.outcome? policy = some outcome) : c.passes policy = some (.done (.ok outcome)) := by
  simp only [outcome?] at h
  split at h
  next hpass => rw [hpass, Option.some.inj h]
  next => cases h

/-- The cluster after a turn of a policy. -/
def turn (c : Cluster) (policy : String) : Turn → Cluster
  | .start settings =>
      match c.passes policy with
      | some (.ask ..) => c
      | _ => c.withPass policy (some (.reconcile settings policy))
  | .answer version =>
      match c.passes policy with
      | some (.ask call next) =>
          match c.store.serve version call with
          | some (answer, store) => { c with store }.withPass policy (some (next answer))
          | none => c.withPass policy none
      | _ => c
  | .reject =>
      match c.passes policy with
      | some (.ask ..) => c.withPass policy none
      | _ => c

section Turn

variable {c : Cluster} {policy q : String}

theorem passes_withPass_self (c : Cluster) (policy : String) (pass : Option (Pass Outcome)) :
    (c.withPass policy pass).passes policy = pass := if_pos rfl

theorem passes_withPass_of_ne (c : Cluster) (h : q ≠ policy) (pass : Option (Pass Outcome)) :
    (c.withPass policy pass).passes q = c.passes q := if_neg h

/-- All that a turn can do. -/
theorem turn_cases (c : Cluster) (policy : String) (t : Turn) :
    c.turn policy t = c ∨
      c.turn policy t = c.withPass policy none ∨
      (∃ settings, c.turn policy t = c.withPass policy (some (.reconcile settings policy))) ∨
      ∃ call next version answer store, c.passes policy = some (.ask call next) ∧
        c.store.serve version call = some (answer, store) ∧
          c.turn policy t = { c with store }.withPass policy (some (next answer)) := by
  cases t with
  | start settings =>
      simp only [turn]
      split
      · exact .inl rfl
      · exact .inr (.inr (.inl ⟨settings, rfl⟩))
  | answer version =>
      simp only [turn]
      split
      next call next hpass =>
        split
        next answer store hserve =>
          exact .inr (.inr (.inr ⟨call, next, version, answer, store, hpass, hserve, rfl⟩))
        next => exact .inr (.inl rfl)
      next => exact .inl rfl
  | reject =>
      simp only [turn]
      split
      · exact .inr (.inl rfl)
      · exact .inl rfl

/-- A turn of a policy leaves the passes of the others alone. -/
theorem passes_turn_of_ne (c : Cluster) (h : q ≠ policy) (t : Turn) :
    (c.turn policy t).passes q = c.passes q := by
  rcases c.turn_cases policy t with ht | ht | ⟨_, ht⟩ | ⟨_, _, _, _, _, -, -, ht⟩
  · rw [ht]
  · rw [ht, passes_withPass_of_ne c h]
  · rw [ht, passes_withPass_of_ne c h]
  · rw [ht, passes_withPass_of_ne _ h]

end Turn

/-- The pass of a policy, if there is one, keeps to a contract. -/
def PassKeeps (c : Cluster) (contract : Contract) (P : VersionedFleet → Prop) (policy : String) :
    Prop :=
  ∀ pass, c.passes policy = some pass → pass.Keeps contract (fun _ => P) c.store

namespace PassKeeps

variable {c : Cluster} {contract : Contract} {P : VersionedFleet → Prop} {policy : String}

theorem idle (store : VersionedFleet) : (Cluster.idle store).PassKeeps contract P policy := by
  intro pass hpass
  cases hpass

theorem withPass {pass : Pass Outcome} (h : pass.Keeps contract (fun _ => P) c.store) :
    (c.withPass policy (some pass)).PassKeeps contract P policy := by
  intro pass' hpass
  rw [passes_withPass_self] at hpass
  rw [← Option.some.inj hpass]
  exact h

/-- What others do to the store leaves the pass within its contract. -/
theorem stable (h : c.PassKeeps contract P policy) {c' : Cluster}
    (hpasses : c'.passes policy = c.passes policy) (hrely : contract.rely c.store c'.store) :
    c'.PassKeeps contract P policy := by
  intro pass hpass
  exact (h pass (hpasses ▸ hpass)).stable hrely

/-- A turn leaves the pass of its policy within the contract, and the store as it was or changed
as the contract allows. A new pass has to keep to the contract from where it starts. -/
theorem turn (h : c.PassKeeps contract P policy)
    (hstart : ∀ settings, (Pass.reconcile settings policy).Keeps contract (fun _ => P) c.store)
    (t : Turn) :
    (c.turn policy t).PassKeeps contract P policy ∧
      ((c.turn policy t).store = c.store ∨
        contract.guarantee c.store (c.turn policy t).store) := by
  rcases c.turn_cases policy t with
    ht | ht | ⟨settings, ht⟩ | ⟨call, next, version, answer, store, hpass, hserve, ht⟩
  · rw [ht]
    exact ⟨h, .inl rfl⟩
  · rw [ht]
    refine ⟨fun pass hpass => ?_, .inl rfl⟩
    rw [passes_withPass_self] at hpass
    cases hpass
  · rw [ht]
    exact ⟨withPass (hstart settings), .inl rfl⟩
  · rw [ht]
    obtain ⟨hguar, hnext⟩ := (h _ hpass).answered hserve
    exact ⟨withPass hnext, .inr hguar⟩

end PassKeeps

end Cluster

end FleetLabels
