import FleetLabels.Fleet.Basic

/-!
# A store that fails on purpose

A fleet behind a store with rules for failing: the first rule that fits a call and is not used up
makes the call fail, before anything is written. The store also can list an outdated fleet, or
return another policy from a write than the one it was given. It keeps the calls it has been asked.
-/

namespace FleetLabels

/-- A rule by which calls fail. -/
structure FaultRule where
  /-- The word for the calls that fail. -/
  verb : String
  /-- The object that the call must be about, any if none is given. -/
  name : Option String := none
  /-- How often the rule may still be used, without limit if none is given. -/
  times : Option Nat := none
  /-- Why the call fails. -/
  cause : Cause
  /-- Whether the failure is told as it is, without the target of the call. -/
  raw : Bool := false
  deriving DecidableEq, Repr

namespace FaultRule

/-- Whether a rule makes a call fail. -/
def fits (r : FaultRule) (call : StoreCall) : Bool :=
  r.verb == call.verb && (r.name.isNone || r.name == call.objectName?) && r.times != some 0

/-- The failure of a call by a rule. -/
def failure (r : FaultRule) (call : StoreCall) : PassError :=
  if r.raw then .api r.cause else call.failure r.cause

/-- A rule after it has been used once more. -/
def used (r : FaultRule) : FaultRule :=
  { r with times := r.times.map (· - 1) }

/-- The first rule that fits a call, and all rules after its use; none if no rule fits. -/
def consult (call : StoreCall) : List FaultRule → Option (FaultRule × List FaultRule)
  | [] => none
  | r :: rest =>
      if r.fits call then some (r, r.used :: rest)
      else (fun (x, rules) => (x, r :: rules)) <$> consult call rest

end FaultRule

/-- A fleet behind a store that fails on purpose. -/
structure FaultyStore where
  fleet : Fleet := {}
  rules : List FaultRule := []
  /-- The nodes to be listed instead of the fleet's. -/
  staleNodes : Option (List Node) := none
  /-- The policy to be returned instead of the one written. -/
  returnedPolicy : Option Policy := none
  /-- The calls so far. -/
  calls : List StoreCall := []

namespace FaultyStore

/-- What a successful call is answered with. -/
def reply (s : FaultyStore) (call : StoreCall) (answer : call.Answer) : call.Answer :=
  match call, answer with
  | .listNodes, nodes => s.staleNodes.getD nodes
  | .updatePolicy _, policy => s.returnedPolicy.getD policy
  | .getPolicy _, policy => policy
  | .updateNode _, node => node
  | .updateStatus .., () => ()

/-- How the store answers a call. -/
def handler : Pass.Handler FaultyStore := fun call s =>
  let s := { s with calls := s.calls ++ [call] }
  match FaultRule.consult call s.rules with
  | some (rule, rules) => (.error (rule.failure call), { s with rules })
  | none =>
      let (result, fleet) := s.fleet.answer call
      ((result.map (s.reply call)).mapError call.failure, { s with fleet })

end FaultyStore

end FleetLabels
