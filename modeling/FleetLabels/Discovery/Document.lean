import FleetLabels.Document.Decode

/-!
# Discovery documents

What a cluster tells about the interfaces it serves: the groups with their versions, and the
resources of one version of a group.
-/

namespace FleetLabels

/-- A version of a group of interfaces. -/
structure GroupVersion where
  groupVersion : String
  version : String
  deriving DecidableEq, Repr

/-- A group of interfaces. -/
structure ApiGroup where
  name : String
  preferredVersion : Option GroupVersion
  versions : List GroupVersion
  deriving DecidableEq, Repr

/-- A resource that a version of a group serves. -/
structure ApiResource where
  kind : String
  name : String
  version : Option String
  deriving DecidableEq, Repr

/-- The resources of one version of a group. -/
structure ApiResources where
  groupVersion : String
  resources : List ApiResource
  deriving DecidableEq, Repr

/-- A list that may be missing or `null`, and is empty then. -/
def Document.listOrEmpty {α : Type} (members : List (String × Json)) (key : String)
    (item : Json → Except Fault α) : Except Fault (List α) :=
  (·.getD []) <$> Document.optional members key (Document.list item)

namespace GroupVersion

/-- Reads a version of a group. -/
def ofJson : Json → Except Fault GroupVersion
  | .object ms => do
      let groupVersion ← Document.stringOrEmpty ms "groupVersion"
      let version ← Document.stringOrEmpty ms "version"
      .ok { groupVersion, version }
  | j => .error (.wrongType j.found "GroupVersionForDiscovery")

end GroupVersion

namespace ApiGroup

/-- Reads where a group can be reached, which is checked and dropped. -/
def serverAddress : Json → Except Fault Unit
  | .object ms => do
      let _ ← Document.stringOrEmpty ms "clientCIDR"
      let _ ← Document.stringOrEmpty ms "serverAddress"
      .ok ()
  | j => .error (.wrongType j.found "ServerAddressByClientCIDR")

/-- Reads a group. -/
def ofJson : Json → Except Fault ApiGroup
  | .object ms => do
      Document.constant ms "apiVersion" "v1"
      Document.constant ms "kind" "APIGroup"
      let name ← Document.stringOrEmpty ms "name"
      let preferredVersion ← Document.optional ms "preferredVersion" GroupVersion.ofJson
      let _ ← Document.listOrEmpty ms "serverAddressByClientCIDRs" serverAddress
      let versions ← Document.listOrEmpty ms "versions" GroupVersion.ofJson
      .ok { name, preferredVersion, versions }
  | j => .error (.wrongType j.found "APIGroup")

/-- Reads the list of all groups. -/
def listOfJson : Json → Except Fault (List ApiGroup)
  | .object ms => do
      Document.constant ms "apiVersion" "v1"
      let groups ← Document.listOrEmpty ms "groups" ofJson
      Document.constant ms "kind" "APIGroupList"
      .ok groups
  | j => .error (.wrongType j.found "APIGroupList")

end ApiGroup

namespace ApiResource

/-- Reads a resource. -/
def ofJson : Json → Except Fault ApiResource
  | .object ms => do
      let _ ← Document.listOrEmpty ms "categories" Document.string
      let _ ← Document.optional ms "group" Document.string
      let kind ← Document.stringOrEmpty ms "kind"
      let name ← Document.stringOrEmpty ms "name"
      let _ ← Document.optional ms "namespaced" Document.boolean
      let _ ← Document.listOrEmpty ms "shortNames" Document.string
      let _ ← Document.stringOrEmpty ms "singularName"
      let _ ← Document.optional ms "storageVersionHash" Document.string
      let _ ← Document.listOrEmpty ms "verbs" Document.string
      let version ← Document.optional ms "version" Document.string
      .ok { kind, name, version }
  | j => .error (.wrongType j.found "APIResource")

end ApiResource

namespace ApiResources

/-- Reads the resources of one version of a group. -/
def ofJson : Json → Except Fault ApiResources
  | .object ms => do
      Document.constant ms "apiVersion" "v1"
      let groupVersion ← Document.stringOrEmpty ms "groupVersion"
      Document.constant ms "kind" "APIResourceList"
      let resources ← Document.listOrEmpty ms "resources" ApiResource.ofJson
      .ok { groupVersion, resources }
  | j => .error (.wrongType j.found "APIResourceList")

end ApiResources

end FleetLabels
