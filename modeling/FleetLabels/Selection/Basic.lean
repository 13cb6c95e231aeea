import FleetLabels.Node.Basic
import FleetLabels.Policy.Basic
import FleetLabels.Selection.Shuffle
import FleetLabels.Selection.Strategy

/-!
# Selection

Which nodes a policy labels: of the ready nodes, put in the order of the strategy, the first
`count`. Without a ready node nothing is selected, whatever the strategy is called.

The two orders by time are total up to nodes of the same creation time and name, which stay in the
order of the list. A node without a creation time counts as older than all others.
-/

namespace FleetLabels

namespace Node

/-- Earlier creation first, an unknown one before all others. -/
def compareCreation (a b : Node) : Ordering :=
  compare a.metadata.creationTimestamp b.metadata.creationTimestamp

/-- Smaller name first. -/
def compareName (a b : Node) : Ordering :=
  compare a.name b.name

/-- Earliest creation first, then by name. -/
def oldestFirst (a b : Node) : Ordering :=
  (compareCreation a b).then (compareName a b)

/-- Latest creation first, then by name. -/
def newestFirst (a b : Node) : Ordering :=
  (compareCreation b a).then (compareName a b)

end Node

/-- Where the draws for a shuffle of any length come from. -/
abbrev DrawSource := (n : Nat) → Draws n

/-- The nodes in the order of a strategy. -/
def Strategy.arrange (s : Strategy) (nodes : List Node) (draws : DrawSource) : List Node :=
  match s with
  | .oldest => nodes.mergeSort fun a b => (a.oldestFirst b).isLE
  | .newest => nodes.mergeSort fun a b => (a.newestFirst b).isLE
  | .random => Draws.shuffle nodes (draws nodes.length)

/-- The number of nodes that a policy asks for; a negative count asks for none. -/
def StrategySpec.limit (s : StrategySpec) : Nat :=
  s.count.toInt.toNat

/-- The nodes that a policy labels, in the order of its strategy. -/
def select (nodes : List Node) (spec : StrategySpec) (draws : DrawSource) :
    Except PassError (List Node) :=
  match Node.ready nodes with
  | [] => .ok []
  | ready => do
      let strategy ← Strategy.parse spec.type
      .ok ((strategy.arrange ready draws).take spec.limit)

end FleetLabels
