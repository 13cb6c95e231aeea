import FleetLabels.Labeling
import FleetLabels.Pass.Basic
import FleetLabels.Selection.Basic

/-!
# Reconciling a policy

The pass that brings the fleet in line with one policy. A live policy is given the finalizer before
the first label is written; its labels go onto the selected nodes, come off those that are selected
no longer, and the selection is recorded. A policy that is being deleted, or is gone, has its labels
taken off the whole fleet; the finalizer is released after that.
-/

namespace FleetLabels

/-- What a pass needs to know besides the store. -/
structure PassSettings where
  /-- Seconds until the next pass after a successful one. -/
  interval : Nat
  /-- The draws of the random strategy. -/
  draws : DrawSource
  /-- The time that goes into the status. -/
  now : Instant

/-- What to do after a successful pass. -/
inductive Outcome where
  /-- Run again after so many seconds. -/
  | requeue (seconds : Nat)
  /-- Nothing until the policy changes. -/
  | done
  deriving DecidableEq, Repr

namespace Pass

/-- Reads a policy. -/
def getPolicy (name : String) : Pass (Option Policy) := call (.getPolicy name)

/-- Lists the fleet. -/
def listNodes : Pass (List Node) := call .listNodes

/-- Replaces a node. -/
def updateNode (node : Node) : Pass Unit := (call (.updateNode node)).bind fun _ => pure ()

/-- Replaces a policy. -/
def updatePolicy (policy : Policy) : Pass Policy := call (.updatePolicy policy)

/-- Writes the status of a policy. -/
def updateStatus (policy : String) (status : PolicyStatus) : Pass Unit :=
  call (.updateStatus policy status)

/-- Gives a selected node its labels; a node that has them all is not written. -/
def join (declared : Labels) (marker : String) (node : Node) : Pass Unit :=
  match node.joined? declared marker with
  | some updated => updateNode updated
  | none => pure ()

/-- The nodes that carry the marker and are not among the selected ones by name. -/
def unselected (nodes selected : List Node) (marker : String) : List Node :=
  nodes.filter fun n => !(selected.map Node.name).contains n.name && n.isManagedBy marker

/-- Takes the labels off every marked node that is not selected. -/
def leaveUnselected (nodes selected : List Node) (declared : Labels) (marker : String) :
    Pass Unit :=
  forAll (unselected nodes selected marker) fun n => updateNode (n.left declared marker)

/-- Takes every trace of a policy off the marked nodes of the fleet, and tells how many there
were. -/
def cleanup (policy : String) (declared : Labels) : Pass Nat := do
  let nodes ← listNodes
  let marked := nodes.filter (·.isManagedBy (Marker.key policy))
  forAll marked fun n => updateNode (n.stripped policy declared)
  pure marked.length

/-- Cleans up after a policy that is being deleted, then lets it go. -/
def finalize (policy : Policy) : Pass Unit := do
  let _ ← cleanup policy.name policy.spec.labels
  if policy.hasFinalizer then
    let _ ← updatePolicy policy.release
  pure ()

/-- Labels the fleet for a live policy. -/
def apply (settings : PassSettings) (policy : Policy) : Pass Outcome := do
  let nodes ← listNodes
  let selected ← ofExcept (select nodes policy.spec.strategy settings.draws)
  forAll selected (join policy.spec.labels policy.markerKey)
  leaveUnselected nodes selected policy.spec.labels policy.markerKey
  updateStatus policy.name
    { selectedNodes := selected.map Node.name, lastReconcileTime := some settings.now }
  pure (.requeue settings.interval)

/-- The pass of the policy of a name. -/
def reconcile (settings : PassSettings) (name : String) : Pass Outcome := do
  match Policy.State.of (← getPolicy name) with
  | .gone => do
      let _ ← cleanup name .empty
      pure .done
  | .terminating policy => do
      finalize policy
      pure .done
  | .untracked policy => do
      let policy ← updatePolicy policy.track
      apply settings policy
  | .tracked policy => apply settings policy

end Pass

/-- When a policy is looked at again. -/
inductive Action where
  /-- After so many seconds. -/
  | requeue (seconds : Nat)
  /-- When something changes. -/
  | awaitChange
  deriving DecidableEq, Repr

/-- The action that an outcome asks for. -/
def Outcome.action : Outcome → Action
  | .requeue seconds => .requeue seconds
  | .done => .awaitChange

/-- The action after a pass: a failure that may go away is followed by another try after
`errorRequeue` seconds. -/
def Action.after (errorRequeue : Nat) : Except PassError Outcome → Action
  | .ok outcome => outcome.action
  | .error e => if e.retryable then .requeue errorRequeue else .awaitChange

end FleetLabels
