import FleetLabels.Metadata

/-!
# What a node reports of its machine

The parts of a node that its own machine fills in: addresses, software, images, volumes, and where
it takes its configuration from. No policy asks for any of them. They are read and written only so
that a node that is replaced loses nothing.
-/

namespace FleetLabels

/-- The configuration that a machine is given, as an object of the cluster. -/
structure ConfigReference where
  kubeletConfigKey : String
  name : String
  namespaceName : String
  resourceVersion : Option String := none
  uid : Option String := none
  deriving DecidableEq, Repr

namespace ConfigReference

/-- Reads a reference to a configuration. -/
def ofJson : Json → Except Fault ConfigReference
  | .object ms => do
      let kubeletConfigKey ← Document.stringOrEmpty ms "kubeletConfigKey"
      let name ← Document.stringOrEmpty ms "name"
      let namespaceName ← Document.stringOrEmpty ms "namespace"
      let resourceVersion ← Document.optional ms "resourceVersion" Document.string
      let uid ← Document.optional ms "uid" Document.string
      .ok { kubeletConfigKey, name, namespaceName, resourceVersion, uid }
  | j => .error (.wrongType j.found "ConfigMapNodeConfigSource")

/-- The written form of a reference to a configuration. -/
def toJson (r : ConfigReference) : Json :=
  .object <|
    [("kubeletConfigKey", .string r.kubeletConfigKey), ("name", .string r.name),
      ("namespace", .string r.namespaceName)]
      ++ Document.entry "resourceVersion" .string r.resourceVersion
      ++ Document.entry "uid" .string r.uid

end ConfigReference

/-- Where a machine takes its configuration from. -/
structure ConfigSource where
  configMap : Option ConfigReference := none
  deriving DecidableEq, Repr

namespace ConfigSource

/-- Reads a source of configuration. -/
def ofJson : Json → Except Fault ConfigSource
  | .object ms => do
      let configMap ← Document.optional ms "configMap" ConfigReference.ofJson
      .ok { configMap }
  | j => .error (.wrongType j.found "NodeConfigSource")

/-- The written form of a source of configuration. -/
def toJson (s : ConfigSource) : Json :=
  .object (Document.entry "configMap" ConfigReference.toJson s.configMap)

end ConfigSource

/-- Which configurations a machine has, uses and falls back to. -/
structure ConfigStatus where
  active : Option ConfigSource := none
  assigned : Option ConfigSource := none
  error : Option String := none
  lastKnownGood : Option ConfigSource := none
  deriving DecidableEq, Repr

namespace ConfigStatus

/-- Reads the state of a machine's configuration. -/
def ofJson : Json → Except Fault ConfigStatus
  | .object ms => do
      let active ← Document.optional ms "active" ConfigSource.ofJson
      let assigned ← Document.optional ms "assigned" ConfigSource.ofJson
      let error ← Document.optional ms "error" Document.string
      let lastKnownGood ← Document.optional ms "lastKnownGood" ConfigSource.ofJson
      .ok { active, assigned, error, lastKnownGood }
  | j => .error (.wrongType j.found "NodeConfigStatus")

/-- The written form of the state of a machine's configuration. -/
def toJson (s : ConfigStatus) : Json :=
  .object <|
    Document.entry "active" ConfigSource.toJson s.active
      ++ Document.entry "assigned" ConfigSource.toJson s.assigned
      ++ Document.entry "error" .string s.error
      ++ Document.entry "lastKnownGood" ConfigSource.toJson s.lastKnownGood

end ConfigStatus

/-- An address of a machine. -/
structure NodeAddress where
  address : String
  type : String
  deriving DecidableEq, Repr

namespace NodeAddress

/-- Reads an address of a machine. -/
def ofJson : Json → Except Fault NodeAddress
  | .object ms => do
      let address ← Document.stringOrEmpty ms "address"
      let type ← Document.stringOrEmpty ms "type"
      .ok { address, type }
  | j => .error (.wrongType j.found "NodeAddress")

/-- The written form of an address of a machine. -/
def toJson (a : NodeAddress) : Json :=
  .object [("address", .string a.address), ("type", .string a.type)]

end NodeAddress

/-- Where a program of a machine can be reached. -/
structure DaemonEndpoint where
  port : Int32
  deriving DecidableEq, Repr

namespace DaemonEndpoint

/-- Reads where a program can be reached; port zero stands for none. -/
def ofJson : Json → Except Fault DaemonEndpoint
  | .object ms => do
      let port ← Document.optional ms "Port" Document.int32
      .ok { port := port.getD 0 }
  | j => .error (.wrongType j.found "DaemonEndpoint")

/-- The written form of where a program can be reached. -/
def toJson (e : DaemonEndpoint) : Json :=
  .object [("Port", .int e.port.toInt)]

end DaemonEndpoint

/-- Where the programs of a machine can be reached. -/
structure DaemonEndpoints where
  kubeletEndpoint : Option DaemonEndpoint := none
  deriving DecidableEq, Repr

namespace DaemonEndpoints

/-- Reads where the programs of a machine can be reached. -/
def ofJson : Json → Except Fault DaemonEndpoints
  | .object ms => do
      let kubeletEndpoint ← Document.optional ms "kubeletEndpoint" DaemonEndpoint.ofJson
      .ok { kubeletEndpoint }
  | j => .error (.wrongType j.found "NodeDaemonEndpoints")

/-- The written form of where the programs of a machine can be reached. -/
def toJson (e : DaemonEndpoints) : Json :=
  .object (Document.entry "kubeletEndpoint" DaemonEndpoint.toJson e.kubeletEndpoint)

end DaemonEndpoints

/-- An image that is stored on a machine. -/
structure ContainerImage where
  names : Option (List String) := none
  sizeBytes : Option Int64 := none
  deriving DecidableEq, Repr

namespace ContainerImage

/-- Reads a stored image. -/
def ofJson : Json → Except Fault ContainerImage
  | .object ms => do
      let names ← Document.optional ms "names" (Document.list Document.string)
      let sizeBytes ← Document.optional ms "sizeBytes" Document.int64
      .ok { names, sizeBytes }
  | j => .error (.wrongType j.found "ContainerImage")

/-- The written form of a stored image. -/
def toJson (i : ContainerImage) : Json :=
  .object <|
    Document.entry "names" Json.strings i.names
      ++ Document.entry "sizeBytes" (.int ·.toInt) i.sizeBytes

end ContainerImage

/-- Versions and identifiers of a machine. -/
structure SystemInfo where
  architecture : String
  bootID : String
  containerRuntimeVersion : String
  kernelVersion : String
  kubeProxyVersion : String
  kubeletVersion : String
  machineID : String
  operatingSystem : String
  osImage : String
  systemUUID : String
  deriving DecidableEq, Repr

namespace SystemInfo

/-- Reads versions and identifiers of a machine. -/
def ofJson : Json → Except Fault SystemInfo
  | .object ms => do
      let architecture ← Document.stringOrEmpty ms "architecture"
      let bootID ← Document.stringOrEmpty ms "bootID"
      let containerRuntimeVersion ← Document.stringOrEmpty ms "containerRuntimeVersion"
      let kernelVersion ← Document.stringOrEmpty ms "kernelVersion"
      let kubeProxyVersion ← Document.stringOrEmpty ms "kubeProxyVersion"
      let kubeletVersion ← Document.stringOrEmpty ms "kubeletVersion"
      let machineID ← Document.stringOrEmpty ms "machineID"
      let operatingSystem ← Document.stringOrEmpty ms "operatingSystem"
      let osImage ← Document.stringOrEmpty ms "osImage"
      let systemUUID ← Document.stringOrEmpty ms "systemUUID"
      .ok { architecture, bootID, containerRuntimeVersion, kernelVersion, kubeProxyVersion,
            kubeletVersion, machineID, operatingSystem, osImage, systemUUID }
  | j => .error (.wrongType j.found "NodeSystemInfo")

/-- The written form of versions and identifiers of a machine. -/
def toJson (i : SystemInfo) : Json :=
  .object
    [("architecture", .string i.architecture), ("bootID", .string i.bootID),
      ("containerRuntimeVersion", .string i.containerRuntimeVersion),
      ("kernelVersion", .string i.kernelVersion),
      ("kubeProxyVersion", .string i.kubeProxyVersion),
      ("kubeletVersion", .string i.kubeletVersion), ("machineID", .string i.machineID),
      ("operatingSystem", .string i.operatingSystem), ("osImage", .string i.osImage),
      ("systemUUID", .string i.systemUUID)]

end SystemInfo

/-- What a runtime of a machine is able to do. -/
structure RuntimeFeatures where
  recursiveReadOnlyMounts : Option Bool := none
  deriving DecidableEq, Repr

namespace RuntimeFeatures

/-- Reads what a runtime is able to do. -/
def ofJson : Json → Except Fault RuntimeFeatures
  | .object ms => do
      let recursiveReadOnlyMounts ←
        Document.optional ms "recursiveReadOnlyMounts" Document.boolean
      .ok { recursiveReadOnlyMounts }
  | j => .error (.wrongType j.found "NodeRuntimeHandlerFeatures")

/-- The written form of what a runtime is able to do. -/
def toJson (f : RuntimeFeatures) : Json :=
  .object (Document.entry "recursiveReadOnlyMounts" .bool f.recursiveReadOnlyMounts)

end RuntimeFeatures

/-- A runtime of a machine. -/
structure RuntimeHandler where
  features : Option RuntimeFeatures := none
  name : Option String := none
  deriving DecidableEq, Repr

namespace RuntimeHandler

/-- Reads a runtime of a machine. -/
def ofJson : Json → Except Fault RuntimeHandler
  | .object ms => do
      let features ← Document.optional ms "features" RuntimeFeatures.ofJson
      let name ← Document.optional ms "name" Document.string
      .ok { features, name }
  | j => .error (.wrongType j.found "NodeRuntimeHandler")

/-- The written form of a runtime of a machine. -/
def toJson (h : RuntimeHandler) : Json :=
  .object <|
    Document.entry "features" RuntimeFeatures.toJson h.features
      ++ Document.entry "name" .string h.name

end RuntimeHandler

/-- A volume that is attached to a machine. -/
structure AttachedVolume where
  devicePath : String
  name : String
  deriving DecidableEq, Repr

namespace AttachedVolume

/-- Reads an attached volume. -/
def ofJson : Json → Except Fault AttachedVolume
  | .object ms => do
      let devicePath ← Document.stringOrEmpty ms "devicePath"
      let name ← Document.stringOrEmpty ms "name"
      .ok { devicePath, name }
  | j => .error (.wrongType j.found "AttachedVolume")

/-- The written form of an attached volume. -/
def toJson (v : AttachedVolume) : Json :=
  .object [("devicePath", .string v.devicePath), ("name", .string v.name)]

end AttachedVolume

end FleetLabels
