import FleetLabels.Failure
import FleetLabels.Node.Basic
import FleetLabels.Policy.Basic

/-!
# Store calls

What a pass asks of the store that holds the fleet and its policies, and what it is told in return.
Writes replace whole objects; the store answers with the object as it has been stored.
-/

namespace FleetLabels

/-- A question or an order to the store. -/
inductive StoreCall where
  /-- The policy of a name, if there is one. -/
  | getPolicy (name : String)
  /-- All nodes of the fleet. -/
  | listNodes
  /-- Replaces a node. -/
  | updateNode (node : Node)
  /-- Replaces the metadata and the specification of a policy. -/
  | updatePolicy (policy : Policy)
  /-- Writes the status of a policy. -/
  | updateStatus (policy : String) (status : PolicyStatus)
  deriving DecidableEq, Repr

namespace StoreCall

/-- What a call is answered with. -/
@[reducible] def Answer : StoreCall → Type
  | getPolicy _ => Option Policy
  | listNodes => List Node
  | updateNode _ => Node
  | updatePolicy _ => Policy
  | updateStatus .. => Unit

/-- The word for a call. -/
def verb : StoreCall → String
  | getPolicy _ => "get_policy"
  | listNodes => "list_nodes"
  | updateNode _ => "update_node"
  | updatePolicy _ => "update_policy"
  | updateStatus .. => "update_policy_status"

/-- The name of the object that a call is about, none for a listing. -/
def objectName? : StoreCall → Option String
  | getPolicy name => some name
  | listNodes => none
  | updateNode node => some node.name
  | updatePolicy policy => some policy.name
  | updateStatus policy _ => some policy

/-- What a call is about, as failures name it. -/
def target : StoreCall → String
  | getPolicy name => "NodeLabelPolicy " ++ name
  | listNodes => "nodes"
  | updateNode node => "node " ++ node.name
  | updatePolicy policy => "NodeLabelPolicy " ++ policy.name
  | updateStatus policy _ => "NodeLabelPolicy " ++ policy ++ " status"

/-- Whether a call changes the store. -/
def isWrite : StoreCall → Bool
  | getPolicy _ | listNodes => false
  | updateNode _ | updatePolicy _ | updateStatus .. => true

/-- The failure of a pass whose call failed. -/
def failure (call : StoreCall) (cause : Cause) : PassError :=
  if call.isWrite then .ofWrite call.target cause else .read call.target cause

end StoreCall

end FleetLabels
