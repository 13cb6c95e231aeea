import FleetLabels.Metadata

/-!
# Label policies

A policy says which labels a selected part of the fleet carries: how the nodes are picked, how many,
and which labels they get. Its lifecycle has four states, told apart by what the record looks like
at the start of a pass.
-/

namespace FleetLabels

/-- How nodes are picked: the name of a strategy, as written, and the number of nodes. -/
structure StrategySpec where
  type : String
  count : Int32
  deriving DecidableEq, Repr

/-- What a policy asks for. -/
structure PolicySpec where
  strategy : StrategySpec
  labels : Labels := .empty
  deriving DecidableEq, Repr

/-- What the last successful pass of a policy left behind. -/
structure PolicyStatus where
  selectedNodes : List String := []
  lastReconcileTime : Option Instant := none
  deriving DecidableEq, Repr

/-- A label policy. -/
structure Policy where
  metadata : Metadata
  spec : PolicySpec
  status : Option PolicyStatus := none
  deriving DecidableEq, Repr

namespace Policy

/-- The group of interfaces that policies belong to. -/
def group : String := "nlp.lento.dev"

/-- The version of the policy interface. -/
def version : String := "v1alpha1"

/-- The kind that policy documents name. -/
def kind : String := "NodeLabelPolicy"

/-- The name of the collection of policies. -/
def plural : String := "nodelabelpolicies"

/-- The finalizer that holds a policy back from deletion until its labels are gone. -/
def finalizer : String := "nlp.lento.dev/finalizer"

/-- The name by which a policy goes. -/
def name (p : Policy) : String :=
  p.metadata.displayName

/-- The finalizers of a policy, in order. -/
def finalizers (p : Policy) : List String :=
  p.metadata.finalizerList

/-- The policy with the given finalizers in place of its own. -/
def withFinalizers (p : Policy) (finalizers : List String) : Policy :=
  { p with metadata := { p.metadata with finalizers := some finalizers } }

/-- Whether the policy is held back from deletion by this library's finalizer. -/
def hasFinalizer (p : Policy) : Bool :=
  p.finalizers.contains finalizer

/-- Whether deletion of the policy has been requested. -/
def isDeleting (p : Policy) : Bool :=
  p.metadata.deletionTimestamp.isSome

/-- The policy with the finalizer after all others. -/
def track (p : Policy) : Policy :=
  p.withFinalizers (p.finalizers ++ [finalizer])

/-- The policy with every occurrence of the finalizer taken away. -/
def release (p : Policy) : Policy :=
  p.withFinalizers (p.finalizers.filter (· != finalizer))

/-- The lifecycle of a policy as seen at the start of a pass. -/
inductive State where
  /-- There is no such policy any more. -/
  | gone
  /-- The policy does not carry the finalizer yet. -/
  | untracked (policy : Policy)
  /-- The policy carries the finalizer. -/
  | tracked (policy : Policy)
  /-- Deletion was requested. -/
  | terminating (policy : Policy)
  deriving DecidableEq, Repr

/-- The state that a look-up of a policy shows; a requested deletion comes before the finalizer. -/
def State.of : Option Policy → State
  | none => .gone
  | some p =>
      if p.isDeleting then .terminating p
      else if p.hasFinalizer then .tracked p
      else .untracked p

/-- The name of a state. -/
def State.label : State → String
  | .gone => "Gone"
  | .untracked _ => "Untracked"
  | .tracked _ => "Tracked"
  | .terminating _ => "Terminating"

/-- The fields of a policy whose change calls for a new pass: identity, generation, whether deletion
was requested, and the finalizers. Status and resource version are left out, so that the status
written at the end of a pass does not start another one. -/
structure ChangeMark where
  uid : Option String
  generation : Option Int64
  isDeleting : Bool
  finalizers : List String
  deriving DecidableEq, Repr

/-- The change mark of a policy. -/
def changeMark (p : Policy) : ChangeMark :=
  { uid := p.metadata.uid, generation := p.metadata.generation, isDeleting := p.isDeleting,
    finalizers := p.finalizers }

/-- What a policy is referred to by in the queue of passes. -/
structure Reference where
  name : String
  namespaceName : Option String
  deriving DecidableEq, Repr

/-- The text of a reference: kind, version, group and name, and the namespace if there is one. -/
def Reference.text (r : Reference) : String :=
  kind ++ "." ++ version ++ "." ++ group ++ "/" ++ r.name ++
    (match r.namespaceName with
      | some space => "." ++ space
      | none => "")

/-- The reference to a policy, none for one that has no name of its own. -/
def reference? (p : Policy) : Option Reference :=
  p.metadata.name.map fun name => { name, namespaceName := p.metadata.namespaceName }

/-- The references to all policies, which a change of any node calls for; none if one of them has no
name of its own. -/
def references? (policies : List Policy) : Option (List Reference) :=
  policies.mapM reference?

end Policy

end FleetLabels
