import FleetLabels.Fleet.Basic

/-!
# Edits from outside

What others do to the cluster between passes. An edit of an object that does not exist has no
effect.
-/

namespace FleetLabels

/-- A change to the cluster that no pass makes. -/
inductive Edit where
  /-- Replaces the first node of the same name, or adds the node at the end. -/
  | putNode (node : Node)
  /-- Takes away all nodes of a name. -/
  | deleteNode (name : String)
  /-- Sets labels of a node, then removes labels. -/
  | setLabels (name : String) (set : List (String × String)) (unset : List String)
  /-- Makes the readiness of a node its only condition. -/
  | setReady (name status : String)
  /-- Stores a policy as it is. -/
  | putPolicy (policy : Policy)
  /-- Gives a policy a deletion timestamp. -/
  | requestDeletion (policy : String) (time : Instant)
  /-- Takes a policy away. -/
  | removePolicy (policy : String)
  deriving DecidableEq, Repr

namespace Edit

/-- The node with its readiness as its only condition. -/
def withReady (n : Node) (status : String) : Node :=
  { n with status := some { conditions := some [{ status, type := "Ready" }] } }

/-- The nodes with the first one of a name changed. -/
def changeNode (name : String) (change : Node → Node) : List Node → List Node
  | [] => []
  | n :: rest => if n.name = name then change n :: rest else n :: changeNode name change rest

/-- The cluster after an edit. -/
def apply (f : Fleet) : Edit → Fleet
  | .putNode node => { f with nodes := (Fleet.replaceNode node f.nodes).getD (f.nodes ++ [node]) }
  | .deleteNode name => { f with nodes := f.nodes.filter (·.name != name) }
  | .setLabels name set unset =>
      let change (n : Node) : Node :=
        n.withLabels ((set.foldl (fun m e => m.insert e.1 e.2) n.labels).eraseAll unset)
      { f with nodes := changeNode name change f.nodes }
  | .setReady name status => { f with nodes := changeNode name (withReady · status) f.nodes }
  | .putPolicy policy => { f with policies := f.policies.insert policy.name policy }
  | .requestDeletion policy time =>
      match f.policies.get? policy with
      | some p =>
          let p := { p with metadata := { p.metadata with deletionTimestamp := some time } }
          { f with policies := f.policies.insert policy p }
      | none => f
  | .removePolicy policy => { f with policies := f.policies.erase policy }

end Edit

end FleetLabels
