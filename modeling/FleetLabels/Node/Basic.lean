import FleetLabels.Node.Machine

/-!
# Nodes

A node of the fleet: its metadata, with the labels that policies set, and its conditions, of which
the first one of type `Ready` says whether the node takes part in a selection. A node has these and
all its other fields, since the write of a node replaces it as a whole.
-/

namespace FleetLabels

/-- A mark that keeps workloads off a node. -/
structure Taint where
  effect : String
  key : String
  timeAdded : Option Instant := none
  value : Option String := none
  deriving DecidableEq, Repr

/-- What is configured for a node. -/
structure NodeSpec where
  configSource : Option ConfigSource := none
  externalID : Option String := none
  podCIDR : Option String := none
  podCIDRs : Option (List String) := none
  providerID : Option String := none
  taints : Option (List Taint) := none
  unschedulable : Option Bool := none
  deriving DecidableEq, Repr

/-- One statement about the state of a node. -/
structure Condition where
  lastHeartbeatTime : Option Instant := none
  lastTransitionTime : Option Instant := none
  message : Option String := none
  reason : Option String := none
  status : String
  type : String
  deriving DecidableEq, Repr

/-- What is observed of a node. Amounts are kept as they are written. -/
structure NodeStatus where
  addresses : Option (List NodeAddress) := none
  allocatable : Option (KeyMap String) := none
  capacity : Option (KeyMap String) := none
  conditions : Option (List Condition) := none
  config : Option ConfigStatus := none
  daemonEndpoints : Option DaemonEndpoints := none
  images : Option (List ContainerImage) := none
  nodeInfo : Option SystemInfo := none
  phase : Option String := none
  runtimeHandlers : Option (List RuntimeHandler) := none
  volumesAttached : Option (List AttachedVolume) := none
  volumesInUse : Option (List String) := none
  deriving DecidableEq, Repr

/-- A node of the fleet. -/
structure Node where
  metadata : ManagedMetadata := {}
  spec : Option NodeSpec := none
  status : Option NodeStatus := none
  deriving DecidableEq, Repr

namespace Node

/-- The name by which a node goes. -/
def name (n : Node) : String :=
  n.metadata.displayName

/-- The labels of a node, none standing for no entries. -/
def labels (n : Node) : Labels :=
  n.metadata.labelMap

/-- The node with the given labels in place of its own. -/
def withLabels (n : Node) (labels : Labels) : Node :=
  { n with metadata := { n.metadata with labels := some labels } }

/-- The conditions of a node, in order. -/
def conditions (n : Node) : List Condition :=
  (n.status.bind (·.conditions)).getD []

/-- A node is ready when its first condition of type `Ready` says so. -/
def isReady (n : Node) : Bool :=
  match n.conditions.find? (·.type == "Ready") with
  | some c => c.status == "True"
  | none => false

/-- The ready nodes of a list, in its order. -/
def ready (nodes : List Node) : List Node :=
  nodes.filter isReady

@[simp] theorem labels_withLabels (n : Node) (l : Labels) : (n.withLabels l).labels = l := rfl

@[simp] theorem name_withLabels (n : Node) (l : Labels) : (n.withLabels l).name = n.name := rfl

@[simp] theorem isReady_withLabels (n : Node) (l : Labels) :
    (n.withLabels l).isReady = n.isReady := rfl

end Node

end FleetLabels
