import FleetLabels.Policy.Basic

/-!
# Policy documents

Reading policies from JSON and writing them back. A policy and its three parts are objects, or
arrays of their fields in order. No field may be given twice. In an array the labels and the
selected nodes may be left out at the end, and nothing may follow the last field.
-/

namespace FleetLabels

/-- The item at a place of an array of fields; the array must not end before it. -/
def Document.item {α : Type} (items : List Json) (place : Nat) (expected : String)
    (read : Json → Except Fault α) : Except Fault α :=
  match items[place]? with
  | some j => read j
  | none => .error (.tooFew place expected)

/-- The item at a place of an array of fields, or a default if the array ends before it. -/
def Document.itemOr {α : Type} (items : List Json) (place : Nat) (default : α)
    (read : Json → Except Fault α) : Except Fault α :=
  match items[place]? with
  | some j => read j
  | none => .ok default

/-- An array of fields must not have more items than there are fields. -/
def Document.atMost (items : List Json) (fields : Nat) : Except Fault Unit :=
  if items.length ≤ fields then .ok () else .error (.tooMany items.length)

namespace StrategySpec

/-- Reads how nodes are picked. -/
def ofJson : Json → Except Fault StrategySpec
  | .object ms => do
      let count ← Document.once ms "count" Document.int32
      let type ← Document.once ms "type" Document.string
      let type ← Document.required "type" type
      let count ← Document.required "count" count
      .ok { type, count }
  | .array items => do
      let expected := "struct NodeLabelPolicyStrategy with 2 elements"
      let type ← Document.item items 0 expected Document.string
      let count ← Document.item items 1 expected Document.int32
      Document.atMost items 2
      .ok { type, count }
  | j => .error (.wrongType j.found "struct NodeLabelPolicyStrategy")

/-- The written form of how nodes are picked. -/
def toJson (s : StrategySpec) : Json :=
  .object [("count", .int s.count.toInt), ("type", .string s.type)]

end StrategySpec

namespace PolicySpec

/-- Reads what a policy asks for. -/
def ofJson : Json → Except Fault PolicySpec
  | .object ms => do
      let labels ← Document.once ms "labels" (Document.keyMap Document.string)
      let strategy ← Document.once ms "strategy" StrategySpec.ofJson
      let strategy ← Document.required "strategy" strategy
      .ok { strategy, labels := labels.getD .empty }
  | .array items => do
      let strategy ← Document.item items 0 "struct NodeLabelPolicySpec with 2 elements"
        StrategySpec.ofJson
      let labels ← Document.itemOr items 1 .empty (Document.keyMap Document.string)
      Document.atMost items 2
      .ok { strategy, labels }
  | j => .error (.wrongType j.found "struct NodeLabelPolicySpec")

/-- The written form of what a policy asks for. -/
def toJson (s : PolicySpec) : Json :=
  .object [("labels", .ofKeyMap s.labels), ("strategy", s.strategy.toJson)]

end PolicySpec

namespace PolicyStatus

/-- Reads the status of a policy. -/
def ofJson : Json → Except Fault PolicyStatus
  | .object ms => do
      let lastReconcileTime ← Document.optionalOnce ms "lastReconcileTime" Document.instant
      let selectedNodes ← Document.once ms "selectedNodes" (Document.list Document.string)
      .ok { selectedNodes := selectedNodes.getD [], lastReconcileTime }
  | .array items => do
      let selectedNodes ← Document.itemOr items 0 [] (Document.list Document.string)
      let lastReconcileTime ← Document.item items 1
        "struct NodeLabelPolicyStatus with 2 elements" (Document.nullable Document.instant)
      Document.atMost items 2
      .ok { selectedNodes, lastReconcileTime }
  | j => .error (.wrongType j.found "struct NodeLabelPolicyStatus")

/-- The written form of the status of a policy. An empty selection is written, so that it takes the
place of an earlier one. -/
def toJson (s : PolicyStatus) : Json :=
  .object <|
    Document.entry "lastReconcileTime" (.string ·.text) s.lastReconcileTime
      ++ [("selectedNodes", .strings s.selectedNodes)]

end PolicyStatus

namespace Policy

/-- Reads a policy. What the document says of its kind and version does not matter. -/
def ofJson : Json → Except Fault Policy
  | .object ms => do
      let metadata ← Document.once ms "metadata" Metadata.ofJson
      let spec ← Document.once ms "spec" PolicySpec.ofJson
      let status ← Document.optionalOnce ms "status" PolicyStatus.ofJson
      let metadata ← Document.required "metadata" metadata
      let spec ← Document.required "spec" spec
      .ok { metadata, spec, status }
  | .array items => do
      let expected := "struct NodeLabelPolicy with 3 elements"
      let metadata ← Document.item items 0 expected Metadata.ofJson
      let spec ← Document.item items 1 expected PolicySpec.ofJson
      let status ← Document.item items 2 expected (Document.nullable PolicyStatus.ofJson)
      Document.atMost items 3
      .ok { metadata, spec, status }
  | j => .error (.wrongType j.found "struct NodeLabelPolicy")

/-- The written form of a policy. -/
def toJson (p : Policy) : Json :=
  .object <|
    [("apiVersion", .string (group ++ "/" ++ version)), ("kind", .string kind),
      ("metadata", p.metadata.toJson), ("spec", p.spec.toJson)]
      ++ Document.entry "status" PolicyStatus.toJson p.status

end Policy

end FleetLabels
