import FleetLabels.Policy.Basic

/-!
# Label keys of a policy

Every policy has a space of label keys of its own, those that start with `nlp.lento.dev.<name>/`.
One of them is the marker: a node that carries it with the value `true` is managed by the policy.
-/

namespace FleetLabels

namespace Marker

/-- What the label keys of all policies start with. -/
def domain : String := "nlp.lento.dev"

/-- What the label keys of a policy start with. -/
def keySpace (policy : String) : String :=
  domain ++ "." ++ policy ++ "/"

/-- The key of the marker of a policy. -/
def key (policy : String) : String :=
  keySpace policy ++ "managed-by"

/-- The value of the marker on a managed node. -/
def value : String := "true"

/-- Whether a label key lies in the key space of a policy. -/
def owns (policy : String) (key : String) : Bool :=
  (keySpace policy).toList.isPrefixOf key.toList

/-- The marker lies in the key space of its policy. -/
theorem owns_key (policy : String) : owns policy (key policy) = true := by
  simp [owns, key]

end Marker

/-- The key of the marker of a policy. -/
def Policy.markerKey (p : Policy) : String :=
  Marker.key p.name

end FleetLabels
