import FleetLabels.Proofs.Lifecycle
import FleetLabels.Proofs.Versioned.Store
import FleetLabels.Proofs.Writes

/-!
# Passes among others

Between two calls of a pass the store may change under its feet. What a pass can still be sure of is
a contract: what the others do between its calls (`rely`), in exchange for what each of its own
calls does (`guarantee`). `Pass.Keeps` says that a pass, started at a state, keeps to a contract as
long as the others do, and that its result then meets a postcondition.

A pass may be stopped before any call, by a failure of the call or for good, so a contract speaks
about every single call and the postcondition about successful passes alone.

The rules for `Pass.cleanup`, `Pass.apply`, `Pass.finalize` and `Pass.reconcile` say once which
calls these passes make, and in which order. What is left to a contract is what it takes from the listing
to the last write (`Contract.Carries`), and the few calls around the writes.

## Main results

* `Pass.Keeps.stable` — what the others do in the meantime does not matter.
* `Pass.Keeps.answered` — one answered call.
* `Pass.Keeps.bind`, `Pass.Keeps.writeAll` — one pass after another, and a list of writes.
* `Pass.Keeps.reconcile` — a whole pass, by what its first call finds.
-/

namespace FleetLabels

/-- What a pass may expect of the others between two of its calls, and what they may expect of each
of its calls. -/
structure Contract where
  /-- What the others may do to the store. -/
  rely : VersionedFleet → VersionedFleet → Prop
  /-- What a call of the pass may do to the store. -/
  guarantee : VersionedFleet → VersionedFleet → Prop
  /-- The others may do nothing. -/
  refl : ∀ s, rely s s
  /-- The others may take several steps. -/
  trans : ∀ {s t u}, rely s t → rely t u → rely s u

/-- What holds while the given writes are still to be made: the others leave it alone, and an
accepted write carries it over to the remaining ones. -/
structure Contract.Carries (c : Contract) (I : List Node → VersionedFleet → Prop) : Prop where
  stable : ∀ writes s t, I writes s → c.rely s t → I writes t
  write : ∀ w rest s version answer t, I (w :: rest) s →
    s.serve version (.updateNode w) = some (answer, t) → c.guarantee s t ∧ I rest t

namespace Pass

variable {α β : Type}

/-- The pass keeps to the contract from a state on, and its result meets the postcondition. -/
def Keeps (c : Contract) (post : α → VersionedFleet → Prop) : Pass α → VersionedFleet → Prop
  | .done (.ok a), s => ∀ s', c.rely s s' → post a s'
  | .done (.error _), _ => True
  | .ask call next, s => ∀ s', c.rely s s' →
      ∀ version answer s'', s'.serve version call = some (answer, s'') →
        c.guarantee s' s'' ∧ (next answer).Keeps c post s''

namespace Keeps

variable {c : Contract} {s s' : VersionedFleet}

/-- What the others do in the meantime does not matter. -/
theorem stable {post : α → VersionedFleet → Prop} {pass : Pass α} (h : pass.Keeps c post s)
    (hrely : c.rely s s') : pass.Keeps c post s' := by
  match pass with
  | .done (.ok a) => exact fun t ht => h t (c.trans hrely ht)
  | .done (.error e) => exact trivial
  | .ask call next => exact fun t ht => h t (c.trans hrely ht)

/-- One answered call. -/
theorem answered {post : α → VersionedFleet → Prop} {call : StoreCall}
    {next : call.Answer → Pass α} (h : (Pass.ask call next).Keeps c post s) {version : String}
    {answer : call.Answer} (hserve : s.serve version call = some (answer, s')) :
    c.guarantee s s' ∧ (next answer).Keeps c post s' :=
  h s (c.refl s) version answer s' hserve

/-- The postcondition of a pass that is over. -/
theorem result {post : α → VersionedFleet → Prop} {a : α}
    (h : (Pass.done (.ok a)).Keeps c post s) : post a s := h s (c.refl s)

/-- One pass after the other: what the first one leaves behind outlasts the steps of the others. -/
theorem bind {mid : α → VersionedFleet → Prop} {post : β → VersionedFleet → Prop} {pass : Pass α}
    {f : α → Pass β} (h : pass.Keeps c mid s)
    (hf : ∀ a t, (∀ u, c.rely t u → mid a u) → (f a).Keeps c post t) :
    (pass.bind f).Keeps c post s := by
  induction pass generalizing s with
  | done r =>
      cases r with
      | ok a => exact hf a s h
      | error e => exact trivial
  | ask call next ih =>
      intro t ht version answer u hserve
      obtain ⟨hguar, hnext⟩ := h t ht version answer u hserve
      exact ⟨hguar, ih answer hnext⟩

/-- A result that is not looked at. -/
theorem map {P : VersionedFleet → Prop} {pass : Pass α} (h : pass.Keeps c (fun _ => P) s) (b : β) :
    (pass.bind fun _ => .done (.ok b)).Keeps c (fun _ => P) s := h.bind fun _ _ ht => ht

/-- A weaker postcondition. -/
theorem mono {P Q : VersionedFleet → Prop} {pass : Pass α} (h : pass.Keeps c (fun _ => P) s)
    (hPQ : ∀ t, P t → Q t) : pass.Keeps c (fun _ => Q) s := by
  rw [← bind_pure pass]
  exact h.bind fun _ _ ht u hu => hPQ u (ht u hu)

/-- A call by itself. -/
theorem call {call : StoreCall} {post : call.Answer → VersionedFleet → Prop}
    (h : ∀ t, c.rely s t → ∀ version answer u, t.serve version call = some (answer, u) →
      c.guarantee t u ∧ ∀ v, c.rely u v → post answer v) :
    (Pass.call call).Keeps c post s := h

/-- Reading a record changes nothing. -/
theorem getPolicy {name : String} {post : Option Policy → VersionedFleet → Prop}
    (h : ∀ t, c.rely s t → c.guarantee t t ∧ ∀ u, c.rely t u → post (t.policies.get? name) u) :
    (Pass.getPolicy name).Keeps c post s := by
  refine call fun t ht version answer u hserve => ?_
  cases hserve
  exact h t ht

/-- Listing the fleet changes nothing. -/
theorem listNodes {post : List Node → VersionedFleet → Prop}
    (h : ∀ t, c.rely s t → c.guarantee t t ∧ ∀ u, c.rely t u → post t.nodes u) :
    Pass.listNodes.Keeps c post s := by
  refine call fun t ht version answer u hserve => ?_
  cases hserve
  exact h t ht

/-! ## The parts of a pass -/

theorem writeAll {I : List Node → VersionedFleet → Prop} (hI : c.Carries I) {writes : List Node}
    (h : I writes s) : (Pass.writeAll writes).Keeps c (fun _ => I []) s := by
  induction writes generalizing s with
  | nil => exact fun t ht => hI.stable [] s t h ht
  | cons w rest ih =>
      show ((updateNode w).bind fun _ => Pass.writeAll rest).Keeps c _ s
      intro t ht version answer u hserve
      obtain ⟨hguar, hrest⟩ := hI.write w rest t version answer u (hI.stable _ s t h ht) hserve
      exact ⟨hguar, ih hrest⟩

theorem cleanup {policy : String} {declared : Labels} {I : List Node → VersionedFleet → Prop}
    (hI : c.Carries I)
    (hlist : ∀ t, c.rely s t →
      c.guarantee t t ∧ I (cleanupWrites policy declared t.nodes) t) :
    (Pass.cleanup policy declared).Keeps c (fun _ => I []) s := by
  have hlisted : Pass.listNodes.Keeps c
      (fun nodes t => I (cleanupWrites policy declared nodes) t) s := by
    refine listNodes fun t ht => ⟨(hlist t ht).1, fun u hu => ?_⟩
    exact hI.stable _ t u (hlist t ht).2 hu
  rw [cleanup_eq]
  exact hlisted.bind fun nodes t ht => (writeAll hI (ht t (c.refl t))).map _

theorem apply {settings : PassSettings} {p : Policy}
    {I : List Node → List Node → VersionedFleet → Prop} {P : VersionedFleet → Prop}
    (hI : ∀ selected, c.Carries (I selected))
    (hlist : ∀ t, c.rely s t → c.guarantee t t ∧
      ∀ selected, select t.nodes p.spec.strategy settings.draws = .ok selected →
        I selected (applyWrites p t.nodes selected) t)
    (hstatus : ∀ selected t, I selected [] t →
      (updateStatus p.name (statusOf selected settings.now)).Keeps c (fun _ => P) t) :
    (Pass.apply settings p).Keeps c (fun _ => P) s := by
  -- The selection is made from the listing without a call, so it is known right after it.
  have hlisted : Pass.listNodes.Keeps c
      (fun nodes t => ∀ selected, select nodes p.spec.strategy settings.draws = .ok selected →
        I selected (applyWrites p nodes selected) t) s := by
    refine listNodes fun t ht => ⟨(hlist t ht).1, fun u hu selected hselect => ?_⟩
    exact (hI selected).stable _ t u ((hlist t ht).2 selected hselect) hu
  rw [apply_eq]
  refine hlisted.bind fun nodes t ht => ?_
  cases hselect : select nodes p.spec.strategy settings.draws with
  | error e => exact trivial
  | ok selected =>
      show ((Pass.writeAll (applyWrites p nodes selected)).bind _).Keeps c _ t
      exact (writeAll (hI selected) (ht t (c.refl t) selected hselect)).bind fun _ u hu =>
        (hstatus selected u (hu u (c.refl u))).map _

theorem finalize {p : Policy} {P : VersionedFleet → Prop}
    (hclean : (Pass.cleanup p.name p.spec.labels).Keeps c (fun _ => P) s)
    (hrelease : ∀ t, P t → (Pass.updatePolicy p.release).Keeps c (fun _ => P) t) :
    (Pass.finalize p).Keeps c (fun _ => P) s := by
  unfold Pass.finalize
  cases p.hasFinalizer with
  | false => exact hclean.map ()
  | true => exact hclean.bind fun _ t ht => (hrelease t (ht t (c.refl t))).map ()

/-- A whole pass, by what its first call finds. -/
theorem reconcile {settings : PassSettings} {policy : String} {P : VersionedFleet → Prop}
    (hread : ∀ t, c.rely s t → c.guarantee t t)
    (hgone : ∀ t, c.rely s t → t.policies.get? policy = none →
      (Pass.cleanup policy .empty).Keeps c (fun _ => P) t)
    (hterminating : ∀ t p, c.rely s t → t.policies.get? policy = some p → p.isDeleting = true →
      (Pass.finalize p).Keeps c (fun _ => P) t)
    (htracked : ∀ t p, c.rely s t → t.policies.get? policy = some p → p.hasFinalizer = true →
      (Pass.apply settings p).Keeps c (fun _ => P) t)
    (huntracked : ∀ t p, c.rely s t → t.policies.get? policy = some p → p.isDeleting = false →
      (Pass.updatePolicy p.track).Keeps c
        (fun q u => (Pass.apply settings q).Keeps c (fun _ => P) u) t) :
    (Pass.reconcile settings policy).Keeps c (fun _ => P) s := by
  show ((Pass.getPolicy policy).bind _).Keeps c _ s
  refine (getPolicy fun t ht => ⟨hread t ht, fun u hu => ?_⟩).bind fun _ t h => h t (c.refl t)
  refine stable ?_ hu
  cases hstate : Policy.State.of (t.policies.get? policy) with
  | gone => exact (hgone t ht (Policy.State.of_eq_iff.1 hstate)).map _
  | terminating p =>
      obtain ⟨hp, hdeleting⟩ := Policy.State.of_eq_iff.1 hstate
      exact (hterminating t p ht hp hdeleting).map _
  | tracked p =>
      obtain ⟨hp, -, hfinalizer⟩ := Policy.State.of_eq_iff.1 hstate
      exact htracked t p ht hp hfinalizer
  | untracked p =>
      obtain ⟨hp, hlive, -⟩ := Policy.State.of_eq_iff.1 hstate
      exact (huntracked t p ht hp hlive).bind fun q u hu => hu u (c.refl u)

end Keeps

end Pass

end FleetLabels
