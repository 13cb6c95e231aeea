import FleetLabels.Proofs.Exchanges
import FleetLabels.Proofs.Writes

/-!
# What a pass works on

The state of a policy has a part in a pass only up to the listing of the fleet. By then a pass knows
its `Work`: to label the fleet for a record, or to clean it of a policy and perhaps to store a
record without the finalizer after that. What follows the listing is decided by the work and the
listed nodes alone.

So all passes have one form. The record is read, the work is taken up (which takes a call only for
a policy that is to get the finalizer), the fleet is listed, and the work is carried out: some nodes
are replaced, and at most one call is made after that.

## Main results

* `Pass.reconcile_eq_work` — a pass in this form.
-/

namespace FleetLabels

/-- What a pass does to the fleet that it lists. -/
inductive Work where
  /-- Label the fleet for a live policy. -/
  | label (policy : Policy)
  /-- Take the labels of a policy off the fleet, and then store a record, if one is given. -/
  | clean (policy : String) (declared : Labels) (release : Option Policy)
  deriving DecidableEq, Repr

namespace Pass

variable {α : Type}

/-- The work of a pass in a state of its policy. The work of a policy that has no finalizer yet is
that of the record that the store returns for it. -/
def takeUp (name : String) : Policy.State → Pass Work
  | .gone => .done (.ok (.clean name .empty none))
  | .terminating p =>
      .done (.ok (.clean p.name p.spec.labels (if p.hasFinalizer then some p.release else none)))
  | .untracked p => (updatePolicy p.track).bind fun stored => .done (.ok (.label stored))
  | .tracked p => .done (.ok (.label p))

/-- The call after the writes of a cleanup, if there is a record to be stored. -/
def letGo : Option Policy → Pass Outcome
  | some p => (updatePolicy p).bind fun _ => .done (.ok .done)
  | none => .done (.ok .done)

/-- The work on a listed fleet. -/
def carryOut (settings : PassSettings) (nodes : List Node) : Work → Pass Outcome
  | .label p =>
      (ofExcept (select nodes p.spec.strategy settings.draws)).bind fun selected =>
        (writeAll (applyWrites p nodes selected)).bind fun _ =>
          (updateStatus p.name (statusOf selected settings.now)).bind fun _ =>
            .done (.ok (.requeue settings.interval))
  | .clean policy declared release =>
      (writeAll (cleanupWrites policy declared nodes)).bind fun _ => letGo release

theorem cleanup_bind (policy : String) (declared : Labels) (f : Pass α) :
    ((cleanup policy declared).bind fun _ => f) =
      listNodes.bind fun nodes => (writeAll (cleanupWrites policy declared nodes)).bind fun _ => f := by
  rw [cleanup_eq, bind_assoc]
  refine congrArg _ (funext fun nodes => ?_)
  rw [bind_assoc]
  rfl

theorem finalize_bind (settings : PassSettings) (p : Policy) :
    ((finalize p).bind fun _ => .done (.ok .done)) =
      listNodes.bind fun nodes => carryOut settings nodes
        (.clean p.name p.spec.labels (if p.hasFinalizer then some p.release else none)) := by
  show ((cleanup p.name p.spec.labels).bind _).bind _ = _
  rw [bind_assoc]
  cases p.hasFinalizer with
  | true => exact cleanup_bind p.name p.spec.labels _
  | false => exact cleanup_bind p.name p.spec.labels _

/-- A pass reads the record, takes up its work, lists the fleet and carries the work out. -/
theorem reconcile_eq_work (settings : PassSettings) (name : String) :
    reconcile settings name =
      (getPolicy name).bind fun record =>
        (takeUp name (Policy.State.of record)).bind fun work =>
          listNodes.bind fun nodes => carryOut settings nodes work := by
  rw [reconcile_eq]
  refine congrArg _ (funext fun record => ?_)
  cases Policy.State.of record with
  | gone => exact cleanup_bind name .empty _
  | terminating p => exact finalize_bind settings p
  | untracked p =>
      show (updatePolicy p.track).bind (apply settings) = ((updatePolicy p.track).bind _).bind _
      rw [bind_assoc]
      exact congrArg _ (funext fun stored => apply_eq settings stored)
  | tracked p => exact apply_eq settings p

end Pass

end FleetLabels
