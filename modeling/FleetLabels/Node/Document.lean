import FleetLabels.Node.Basic

/-!
# Node documents

Reading nodes from JSON and writing them back. Every field may be missing; only what is no field of
a node is dropped. What is written always names the kind of the document and carries metadata.
-/

namespace FleetLabels

/-- Reads a taint. -/
def Taint.ofJson : Json → Except Fault Taint
  | .object ms => do
      let effect ← Document.stringOrEmpty ms "effect"
      let key ← Document.stringOrEmpty ms "key"
      let timeAdded ← Document.optional ms "timeAdded" Document.instant
      let value ← Document.optional ms "value" Document.string
      .ok { effect, key, timeAdded, value }
  | j => .error (.wrongType j.found "Taint")

/-- The written form of a taint. -/
def Taint.toJson (t : Taint) : Json :=
  .object <|
    [("effect", .string t.effect), ("key", .string t.key)]
      ++ Document.entry "timeAdded" (.string ·.text) t.timeAdded
      ++ Document.entry "value" .string t.value

/-- Reads what is configured for a node. -/
def NodeSpec.ofJson : Json → Except Fault NodeSpec
  | .object ms => do
      let configSource ← Document.optional ms "configSource" ConfigSource.ofJson
      let externalID ← Document.optional ms "externalID" Document.string
      let podCIDR ← Document.optional ms "podCIDR" Document.string
      let podCIDRs ← Document.optional ms "podCIDRs" (Document.list Document.string)
      let providerID ← Document.optional ms "providerID" Document.string
      let taints ← Document.optional ms "taints" (Document.list Taint.ofJson)
      let unschedulable ← Document.optional ms "unschedulable" Document.boolean
      .ok { configSource, externalID, podCIDR, podCIDRs, providerID, taints, unschedulable }
  | j => .error (.wrongType j.found "NodeSpec")

/-- The written form of what is configured for a node. -/
def NodeSpec.toJson (s : NodeSpec) : Json :=
  .object <|
    Document.entry "configSource" ConfigSource.toJson s.configSource
      ++ Document.entry "externalID" .string s.externalID
      ++ Document.entry "podCIDR" .string s.podCIDR
      ++ Document.entry "podCIDRs" Json.strings s.podCIDRs
      ++ Document.entry "providerID" .string s.providerID
      ++ Document.entry "taints" (.array <| ·.map Taint.toJson) s.taints
      ++ Document.entry "unschedulable" .bool s.unschedulable

/-- Reads a condition. -/
def Condition.ofJson : Json → Except Fault Condition
  | .object ms => do
      let lastHeartbeatTime ← Document.optional ms "lastHeartbeatTime" Document.instant
      let lastTransitionTime ← Document.optional ms "lastTransitionTime" Document.instant
      let message ← Document.optional ms "message" Document.string
      let reason ← Document.optional ms "reason" Document.string
      let status ← Document.stringOrEmpty ms "status"
      let type ← Document.stringOrEmpty ms "type"
      .ok { lastHeartbeatTime, lastTransitionTime, message, reason, status, type }
  | j => .error (.wrongType j.found "NodeCondition")

/-- The written form of a condition. -/
def Condition.toJson (c : Condition) : Json :=
  .object <|
    Document.entry "lastHeartbeatTime" (.string ·.text) c.lastHeartbeatTime
      ++ Document.entry "lastTransitionTime" (.string ·.text) c.lastTransitionTime
      ++ Document.entry "message" .string c.message
      ++ Document.entry "reason" .string c.reason
      ++ [("status", .string c.status), ("type", .string c.type)]

/-- Reads what is observed of a node. -/
def NodeStatus.ofJson : Json → Except Fault NodeStatus
  | .object ms => do
      let addresses ← Document.optional ms "addresses" (Document.list NodeAddress.ofJson)
      let allocatable ← Document.optional ms "allocatable" (Document.keyMap Document.string)
      let capacity ← Document.optional ms "capacity" (Document.keyMap Document.string)
      let conditions ← Document.optional ms "conditions" (Document.list Condition.ofJson)
      let config ← Document.optional ms "config" ConfigStatus.ofJson
      let daemonEndpoints ← Document.optional ms "daemonEndpoints" DaemonEndpoints.ofJson
      let images ← Document.optional ms "images" (Document.list ContainerImage.ofJson)
      let nodeInfo ← Document.optional ms "nodeInfo" SystemInfo.ofJson
      let phase ← Document.optional ms "phase" Document.string
      let runtimeHandlers ←
        Document.optional ms "runtimeHandlers" (Document.list RuntimeHandler.ofJson)
      let volumesAttached ←
        Document.optional ms "volumesAttached" (Document.list AttachedVolume.ofJson)
      let volumesInUse ← Document.optional ms "volumesInUse" (Document.list Document.string)
      .ok { addresses, allocatable, capacity, conditions, config, daemonEndpoints, images,
            nodeInfo, phase, runtimeHandlers, volumesAttached, volumesInUse }
  | j => .error (.wrongType j.found "NodeStatus")

/-- The written form of what is observed of a node. -/
def NodeStatus.toJson (s : NodeStatus) : Json :=
  .object <|
    Document.entry "addresses" (.array <| ·.map NodeAddress.toJson) s.addresses
      ++ Document.entry "allocatable" Json.ofKeyMap s.allocatable
      ++ Document.entry "capacity" Json.ofKeyMap s.capacity
      ++ Document.entry "conditions" (.array <| ·.map Condition.toJson) s.conditions
      ++ Document.entry "config" ConfigStatus.toJson s.config
      ++ Document.entry "daemonEndpoints" DaemonEndpoints.toJson s.daemonEndpoints
      ++ Document.entry "images" (.array <| ·.map ContainerImage.toJson) s.images
      ++ Document.entry "nodeInfo" SystemInfo.toJson s.nodeInfo
      ++ Document.entry "phase" .string s.phase
      ++ Document.entry "runtimeHandlers" (.array <| ·.map RuntimeHandler.toJson)
          s.runtimeHandlers
      ++ Document.entry "volumesAttached" (.array <| ·.map AttachedVolume.toJson)
          s.volumesAttached
      ++ Document.entry "volumesInUse" Json.strings s.volumesInUse

namespace Node

/-- The version of the interface that node documents name. -/
def apiVersion : String := "v1"

/-- The kind that node documents name. -/
def kind : String := "Node"

/-- Reads a node. -/
def ofJson : Json → Except Fault Node
  | .object ms => do
      Document.constant ms "apiVersion" apiVersion
      Document.constant ms "kind" kind
      let metadata ← Document.optional ms "metadata" ManagedMetadata.ofJson
      let spec ← Document.optional ms "spec" NodeSpec.ofJson
      let status ← Document.optional ms "status" NodeStatus.ofJson
      .ok { metadata := metadata.getD {}, spec, status }
  | j => .error (.wrongType j.found kind)

/-- The written form of a node. -/
def toJson (n : Node) : Json :=
  .object <|
    [("apiVersion", .string apiVersion), ("kind", .string kind),
      ("metadata", n.metadata.toJson)]
      ++ Document.entry "spec" NodeSpec.toJson n.spec
      ++ Document.entry "status" NodeStatus.toJson n.status

end Node

end FleetLabels
