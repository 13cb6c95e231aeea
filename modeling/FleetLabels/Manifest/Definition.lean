import FleetLabels.Policy.Basic

/-!
# The definition of policies

The document by which a cluster learns what a policy is: its names, where its records live, which
fields they have, and which of them a listing shows.
-/

namespace FleetLabels.Manifest

/-- A schema of a scalar or of something else whose type says it all. -/
def typed (type : String) : Json :=
  .object [("type", .string type)]

/-- The schema of the strategy of a policy. -/
def strategySchema : Json := .object [
  ("description", .string "How nodes are picked for labeling"),
  ("properties", .object [
    ("count", .object [
      ("description", .string "Number of nodes to select"),
      ("format", .string "int32"),
      ("minimum", .real ⟨false, 1, 0⟩),
      ("type", .string "integer")]),
    ("type", .object [
      ("description", .string "One of `oldest`, `newest` or `random`"),
      ("type", .string "string")])]),
  ("required", .strings ["count", "type"]),
  ("type", .string "object")]

/-- The schema of what a policy asks for. -/
def specSchema : Json := .object [
  ("description", .string "Desired state of a NodeLabelPolicy"),
  ("properties", .object [
    ("labels", .object [
      ("additionalProperties", typed "string"),
      ("default", .object []),
      ("description", .string "Labels applied to every selected node"),
      ("type", .string "object")]),
    ("strategy", strategySchema)]),
  ("required", .strings ["strategy"]),
  ("type", .string "object")]

/-- The schema of the status of a policy. -/
def statusSchema : Json := .object [
  ("nullable", .bool true),
  ("properties", .object [
    ("lastReconcileTime", .object [
      ("description", .string <|
        "Time is a wrapper around time.Time which supports correct marshaling to YAML and JSON.  " ++
        "Wrappers are provided for many of the factory methods that the time package offers."),
      ("format", .string "date-time"),
      ("nullable", .bool true),
      ("type", .string "string")]),
    ("selectedNodes", .object [
      ("default", .array []),
      ("description", .string <|
        "Nodes carrying this policy's labels after the last successful pass. " ++
        "Always serialized so that an empty selection clears a previous one."),
      ("items", typed "string"),
      ("type", .string "array")])]),
  ("type", .string "object")]

/-- The schema of a policy. -/
def policySchema : Json := .object [
  ("description", .string
    "Auto-generated derived type for NodeLabelPolicySpec via `CustomResource`"),
  ("properties", .object [("spec", specSchema), ("status", statusSchema)]),
  ("required", .strings ["spec"]),
  ("title", .string Policy.kind),
  ("type", .string "object")]

/-- A column of the listing of policies. -/
def column (path name type : String) : Json := .object [
  ("jsonPath", .string path), ("name", .string name), ("type", .string type)]

/-- The version of the interface that is served and stored. -/
def servedVersion : Json := .object [
  ("additionalPrinterColumns", .array [
    column ".spec.strategy.type" "Strategy" "string",
    column ".spec.strategy.count" "Count" "integer"]),
  ("name", .string Policy.version),
  ("schema", .object [("openAPIV3Schema", policySchema)]),
  ("served", .bool true),
  ("storage", .bool true),
  ("subresources", .object [("status", .object [])])]

/-- The definition of policies. -/
def definition : Json := .object [
  ("apiVersion", .string "apiextensions.k8s.io/v1"),
  ("kind", .string "CustomResourceDefinition"),
  ("metadata", .object [("name", .string (Policy.plural ++ "." ++ Policy.group))]),
  ("spec", .object [
    ("group", .string Policy.group),
    ("names", .object [
      ("categories", .array []),
      ("kind", .string Policy.kind),
      ("plural", .string Policy.plural),
      ("shortNames", .array []),
      ("singular", .string "nodelabelpolicy")]),
    ("scope", .string "Cluster"),
    ("versions", .array [servedVersion])])]

end FleetLabels.Manifest
