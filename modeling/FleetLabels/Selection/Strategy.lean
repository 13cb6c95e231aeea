import FleetLabels.Failure

/-!
# Strategies

The order in which ready nodes are taken until there are enough of them.
-/

namespace FleetLabels

/-- The order in which ready nodes are taken. -/
inductive Strategy where
  /-- Earliest creation first. -/
  | oldest
  /-- Latest creation first. -/
  | newest
  /-- A new shuffle on every pass. -/
  | random
  deriving DecidableEq, Repr

namespace Strategy

/-- The name of a strategy, as policies write it. -/
def name : Strategy → String
  | .oldest => "oldest"
  | .newest => "newest"
  | .random => "random"

/-- The strategy of a name; names are matched exactly. -/
def parse (s : String) : Except PassError Strategy :=
  if s = oldest.name then .ok .oldest
  else if s = newest.name then .ok .newest
  else if s = random.name then .ok .random
  else .error (.unsupportedStrategy s)

/-- The name of a strategy is read as that strategy. -/
@[simp] theorem parse_name (s : Strategy) : parse s.name = .ok s := by
  cases s <;> simp [parse, name]

end Strategy

end FleetLabels
