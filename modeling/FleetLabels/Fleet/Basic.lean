import FleetLabels.Pass.Basic

/-!
# A fleet in memory

The state of a cluster as far as policies are concerned: the nodes in order, the policies by name,
and the statuses that passes have written. `Fleet.answer` is the store over this state; it replaces
nodes by name, drops a policy under deletion with its last finalizer, and refuses to write a node
that does not exist.
-/

namespace FleetLabels

/-- The nodes and policies of a cluster. -/
structure Fleet where
  nodes : List Node := []
  policies : KeyMap Policy := .empty
  statuses : KeyMap PolicyStatus := .empty
  deriving DecidableEq, Repr

namespace Fleet

/-- The node of a name, the first if there are several. -/
def node? (f : Fleet) (name : String) : Option Node :=
  f.nodes.find? (·.name == name)

/-- A list with its first node of the same name replaced; none if there is no such node. -/
def replaceNode (node : Node) : List Node → Option (List Node)
  | [] => none
  | n :: rest =>
      if n.name = node.name then some (node :: rest) else (n :: ·) <$> replaceNode node rest

/-- The answer about a node that does not exist. -/
def nodeNotFound (name : String) : Cause :=
  .api { status := "Failure", message := "nodes \"" ++ name ++ "\" not found",
         reason := ApiError.notFoundReason, code := 404 }

/-- The policies after a policy has been written: one under deletion goes with its last
finalizer. -/
def storePolicy (policies : KeyMap Policy) (policy : Policy) : KeyMap Policy :=
  if policy.isDeleting && policy.finalizers.isEmpty then policies.erase policy.name
  else policies.insert policy.name policy

/-- The policies of a list, each under its own name. -/
def policiesOf (policies : List Policy) : KeyMap Policy :=
  .ofList (policies.map fun p => (p.name, p))

/-- How the fleet answers a call. -/
def answer (f : Fleet) (call : StoreCall) : Except Cause call.Answer × Fleet :=
  match call with
  | .getPolicy name => (.ok (f.policies.get? name), f)
  | .listNodes => (.ok f.nodes, f)
  | .updateNode node =>
      match replaceNode node f.nodes with
      | some nodes => (.ok node, { f with nodes })
      | none => (.error (nodeNotFound node.name), f)
  | .updatePolicy policy => (.ok policy, { f with policies := storePolicy f.policies policy })
  | .updateStatus policy status =>
      (.ok (), { f with statuses := f.statuses.insert policy status })

/-- The fleet as a store that accepts whatever it can. -/
def handler : Pass.Handler Fleet := fun call f =>
  let (result, f) := f.answer call
  (result.mapError call.failure, f)

end Fleet

end FleetLabels
