import FleetLabels.Document.Decode

/-!
# Object metadata

What every object of the cluster carries besides its own content: names, version, times, labels.
A field that is absent is told apart from one that is present and empty, since an object is written
back whole.

The cluster also notes in the metadata of an object who manages which of its fields. These entries
are part of `ManagedMetadata`, which nodes have. In the metadata of a policy they are read, and so
must be well-formed, but they are not kept.
-/

namespace FleetLabels

/-- The labels of an object. -/
abbrev Labels := KeyMap String

/-- An object that another one belongs to. -/
structure OwnerReference where
  apiVersion : String
  blockOwnerDeletion : Option Bool
  controller : Option Bool
  kind : String
  name : String
  uid : String
  deriving DecidableEq, Repr

namespace OwnerReference

/-- Reads an owner reference. -/
def ofJson : Json → Except Fault OwnerReference
  | .object ms => do
      let apiVersion ← Document.stringOrEmpty ms "apiVersion"
      let blockOwnerDeletion ← Document.optional ms "blockOwnerDeletion" Document.boolean
      let controller ← Document.optional ms "controller" Document.boolean
      let kind ← Document.stringOrEmpty ms "kind"
      let name ← Document.stringOrEmpty ms "name"
      let uid ← Document.stringOrEmpty ms "uid"
      .ok { apiVersion, blockOwnerDeletion, controller, kind, name, uid }
  | j => .error (.wrongType j.found "OwnerReference")

/-- The written form of an owner reference. -/
def toJson (r : OwnerReference) : Json :=
  .object <|
    [("apiVersion", .string r.apiVersion)]
      ++ Document.entry "blockOwnerDeletion" .bool r.blockOwnerDeletion
      ++ Document.entry "controller" .bool r.controller
      ++ [("kind", .string r.kind), ("name", .string r.name), ("uid", .string r.uid)]

end OwnerReference

/-- The metadata of an object. -/
structure Metadata where
  annotations : Option (KeyMap String) := none
  creationTimestamp : Option Instant := none
  deletionGracePeriodSeconds : Option Int64 := none
  deletionTimestamp : Option Instant := none
  finalizers : Option (List String) := none
  generateName : Option String := none
  generation : Option Int64 := none
  labels : Option Labels := none
  name : Option String := none
  namespaceName : Option String := none
  ownerReferences : Option (List OwnerReference) := none
  resourceVersion : Option String := none
  selfLink : Option String := none
  uid : Option String := none
  deriving DecidableEq, Repr

namespace Metadata

/-- The name by which an object goes: its own, else the stem of a generated one, else empty. -/
def displayName (m : Metadata) : String :=
  (m.name.or m.generateName).getD ""

/-- The labels of an object, none standing for no entries. -/
def labelMap (m : Metadata) : Labels :=
  m.labels.getD .empty

/-- The finalizers of an object, none standing for an empty list. -/
def finalizerList (m : Metadata) : List String :=
  m.finalizers.getD []

end Metadata

/-- A note of who manages which fields of an object. The fields are told by a value of its own
format, which is kept as it is. -/
structure ManagedFields where
  apiVersion : Option String := none
  fieldsType : Option String := none
  fieldsV1 : Option (Json.Whole Document.valueDepth) := none
  manager : Option String := none
  operation : Option String := none
  subresource : Option String := none
  time : Option Instant := none
  deriving DecidableEq, Repr

namespace ManagedFields

/-- Reads a note of managed fields. -/
def ofJson : Json → Except Fault ManagedFields
  | .object ms => do
      let apiVersion ← Document.optional ms "apiVersion" Document.string
      let fieldsType ← Document.optional ms "fieldsType" Document.string
      let fieldsV1 ← Document.optional ms "fieldsV1" Document.value
      let manager ← Document.optional ms "manager" Document.string
      let operation ← Document.optional ms "operation" Document.string
      let subresource ← Document.optional ms "subresource" Document.string
      let time ← Document.optional ms "time" Document.instant
      .ok { apiVersion, fieldsType, fieldsV1, manager, operation, subresource, time }
  | j => .error (.wrongType j.found "ManagedFieldsEntry")

/-- The written form of a note of managed fields. -/
def toJson (f : ManagedFields) : Json :=
  .object <|
    Document.entry "apiVersion" .string f.apiVersion
      ++ Document.entry "fieldsType" .string f.fieldsType
      ++ Document.entry "fieldsV1" Json.Whole.json f.fieldsV1
      ++ Document.entry "manager" .string f.manager
      ++ Document.entry "operation" .string f.operation
      ++ Document.entry "subresource" .string f.subresource
      ++ Document.entry "time" (.string ·.text) f.time

end ManagedFields

/-- The metadata of an object, with the notes of who manages its fields. -/
structure ManagedMetadata extends Metadata where
  managedFields : Option (List ManagedFields) := none
  deriving DecidableEq, Repr

namespace ManagedMetadata

/-- Reads the metadata of an object. -/
def ofJson : Json → Except Fault ManagedMetadata
  | .object ms => do
      let annotations ← Document.optional ms "annotations" (Document.keyMap Document.string)
      let creationTimestamp ← Document.optional ms "creationTimestamp" Document.instant
      let deletionGracePeriodSeconds ←
        Document.optional ms "deletionGracePeriodSeconds" Document.int64
      let deletionTimestamp ← Document.optional ms "deletionTimestamp" Document.instant
      let finalizers ← Document.optional ms "finalizers" (Document.list Document.string)
      let generateName ← Document.optional ms "generateName" Document.string
      let generation ← Document.optional ms "generation" Document.int64
      let labels ← Document.optional ms "labels" (Document.keyMap Document.string)
      let managedFields ←
        Document.optional ms "managedFields" (Document.list ManagedFields.ofJson)
      let name ← Document.optional ms "name" Document.string
      let namespaceName ← Document.optional ms "namespace" Document.string
      let ownerReferences ←
        Document.optional ms "ownerReferences" (Document.list OwnerReference.ofJson)
      let resourceVersion ← Document.optional ms "resourceVersion" Document.string
      let selfLink ← Document.optional ms "selfLink" Document.string
      let uid ← Document.optional ms "uid" Document.string
      .ok { annotations, creationTimestamp, deletionGracePeriodSeconds, deletionTimestamp,
            finalizers, generateName, generation, labels, managedFields, name, namespaceName,
            ownerReferences, resourceVersion, selfLink, uid }
  | j => .error (.wrongType j.found "ObjectMeta")

/-- The written form of the metadata of an object. -/
def toJson (m : ManagedMetadata) : Json :=
  .object <|
    Document.entry "annotations" Json.ofKeyMap m.annotations
      ++ Document.entry "creationTimestamp" (.string ·.text) m.creationTimestamp
      ++ Document.entry "deletionGracePeriodSeconds" (.int ·.toInt) m.deletionGracePeriodSeconds
      ++ Document.entry "deletionTimestamp" (.string ·.text) m.deletionTimestamp
      ++ Document.entry "finalizers" Json.strings m.finalizers
      ++ Document.entry "generateName" .string m.generateName
      ++ Document.entry "generation" (.int ·.toInt) m.generation
      ++ Document.entry "labels" Json.ofKeyMap m.labels
      ++ Document.entry "managedFields" (.array <| ·.map ManagedFields.toJson) m.managedFields
      ++ Document.entry "name" .string m.name
      ++ Document.entry "namespace" .string m.namespaceName
      ++ Document.entry "ownerReferences" (.array <| ·.map OwnerReference.toJson)
          m.ownerReferences
      ++ Document.entry "resourceVersion" .string m.resourceVersion
      ++ Document.entry "selfLink" .string m.selfLink
      ++ Document.entry "uid" .string m.uid

end ManagedMetadata

namespace Metadata

/-- Reads the metadata of an object; notes of managed fields are read and dropped. -/
def ofJson (j : Json) : Except Fault Metadata :=
  ManagedMetadata.toMetadata <$> ManagedMetadata.ofJson j

/-- The written form of the metadata of an object, without notes of managed fields. -/
def toJson (m : Metadata) : Json :=
  ManagedMetadata.toJson { toMetadata := m }

end Metadata

end FleetLabels
