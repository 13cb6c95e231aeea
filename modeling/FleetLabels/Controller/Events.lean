import FleetLabels.Fleet.Edit
import FleetLabels.Fleet.Fault
import FleetLabels.Pass.Reconcile
import FleetLabels.Store.Request

/-!
# The controller over time

Which policy is looked at when. A pass of a policy is due when the policy appears or its change mark
changes, when any node changes, and when its timer goes off. What is due at one second is worked off
until nothing is due any more; the writes of a pass make further passes due. Calls take no time.

The change mark of a policy is remembered by name, also after the policy is gone: one that comes
back unchanged makes no pass due.

The controller reaches its store by requests, so a call of which no request can be made fails before
the store sees it. A timer that is set too far ahead is the end of the controller.
-/

namespace FleetLabels

/-- The state of the controller and of the cluster that it works on. -/
structure Controller where
  store : FaultyStore
  /-- The policies of which a pass is due, in the order in which it became so. -/
  due : List String := []
  /-- The change mark of each policy when it was last seen. -/
  seen : KeyMap Policy.ChangeMark := .empty
  /-- The second at which the timer of each policy goes off. -/
  timers : KeyMap Nat := .empty
  /-- The passes so far, by second and policy. -/
  passes : List (Nat × String) := []
  /-- Whether the controller has come to its end; nothing is worked off then. -/
  ended : Bool := false

/-- What the controller goes by. -/
structure ControllerSettings where
  interval : Nat
  errorRequeue : Nat
  draws : DrawSource
  now : Instant

namespace Controller

/-- A pass of a policy becomes due, unless it is already. -/
def enqueue (c : Controller) (policy : String) : Controller :=
  if c.due.contains policy then c else { c with due := c.due ++ [policy] }

/-- A node has changed: a pass of every policy becomes due. -/
def nodeChanged (c : Controller) : Controller :=
  c.store.fleet.policies.keys.foldl enqueue c

/-- A policy has been written: a pass becomes due if its change mark is a new one. -/
def policyChanged (c : Controller) (policy : String) : Controller :=
  match c.store.fleet.policies.get? policy with
  | none => c
  | some p =>
      if c.seen.get? policy = some p.changeMark then c
      else { c with seen := c.seen.insert policy p.changeMark }.enqueue policy

/-- What a call that succeeded lets the controller see. -/
def noticeCall (c : Controller) : StoreCall → Controller
  | .updateNode _ => c.nodeChanged
  | .updatePolicy policy => c.policyChanged policy.name
  | .getPolicy _ | .listNodes | .updateStatus .. => c

/-- An answer to a read that says that there is no such policy. -/
def absent? (e : PassError) : Bool :=
  match e.cause? with
  | some (.api e) => e.reason == ApiError.notFoundReason
  | _ => false

/-- How the store answers the question for a policy. It sees the part of the name that belongs to
the path of an address. -/
def readPolicy (name : String) (c : Controller) : Except PassError (Option Policy) × Controller :=
  let (result, store) := FaultyStore.handler (.getPolicy (Uri.path name)) c.store
  let c := { c with store }
  match result with
  | .error e => (if absent? e then .ok none else .error e, c)
  | .ok policy => (.ok policy, c)

/-- How the store answers a call that reaches it. -/
def storeHandler : Pass.Handler Controller := fun call c =>
  match call with
  | .getPolicy name => c.readPolicy name
  | call =>
      let (result, store) := FaultyStore.handler call c.store
      let c := { c with store }
      match result with
      | .error e => (.error e, c)
      | .ok answer => (.ok answer, c.noticeCall call)

/-- How the controller's calls are answered: by its store, if a request can be made of them. -/
def handler : Pass.Handler Controller := fun call c =>
  match Request.ofCall call with
  | .ok _ => storeHandler call c
  | .error why => (.error (call.failure (.request why)), c)

/-- The most seconds that a timer can be set ahead. -/
def maxDelay : Nat := 68719476

/-- The seconds from which on a delay is not counted any more, and the timer never goes off. -/
def endless : Nat := 9223372036854775808

/-- Whether a timer cannot be set ahead as far as an action asks for. -/
def isOverlong : Action → Bool
  | .requeue delay => maxDelay < delay && delay < endless
  | .awaitChange => false

/-- The timers after a pass: the one of its policy is set anew or taken away. -/
def schedule (timers : KeyMap Nat) (policy : String) (second : Nat) : Action → KeyMap Nat
  | .requeue delay => timers.insert policy (second + delay)
  | .awaitChange => timers.erase policy

/-- What comes after a pass. The timer of the policy is not looked at if a pass of it is due again
already. -/
def afterPass (c : Controller) (second : Nat) (policy : String) (action : Action) : Controller :=
  if isOverlong action && !c.due.contains policy then { c with timers := .empty, ended := true }
  else { c with timers := schedule c.timers policy second action }

/-- Whether the store sees that a pass of a policy has begun. -/
def isSeen (policy : String) : Bool :=
  (Request.ofCall (.getPolicy policy)).toOption.isSome

/-- A pass has begun at a second. -/
def record (c : Controller) (second : Nat) (policy : String) : Controller :=
  { c with passes := c.passes ++ [(second, policy)] }

/-- A pass of a policy at a second. -/
def pass (settings : ControllerSettings) (second : Nat) (policy : String) (c : Controller) :
    Controller :=
  let (result, c) :=
    (Pass.reconcile ⟨settings.interval, settings.draws, settings.now⟩ policy).run handler c
  let c := if isSeen policy then c.record second (Uri.path policy) else c
  c.afterPass second policy (Action.after settings.errorRequeue result)

/-- Works off what is due at a second; a policy that is gone has no pass. The fuel bounds the number
of passes within one second. -/
def settle (settings : ControllerSettings) (second : Nat) : Nat → Controller → Controller
  | 0, c => c
  | fuel + 1, c =>
      if c.ended then c
      else
        match c.due with
        | [] => c
        | policy :: rest =>
            let c := { c with due := rest }
            if (c.store.fleet.policies.get? policy).isSome then
              settle settings second fuel (c.pass settings second policy)
            else settle settings second fuel c

/-- The most passes within one second. -/
def maxPasses : Nat := 10000

/-- The second at which the next timer goes off. -/
def nextTimer? (c : Controller) : Option Nat :=
  c.timers.values.min?

/-- The timers of a second go off: passes of their policies become due. -/
def fire (c : Controller) (second : Nat) : Controller :=
  let (now, later) := c.timers.entries.partition (·.2 ≤ second)
  (now.map (·.1)).foldl enqueue { c with timers := .ofList later }

/-- Lets all timers go off that are due before `limit`. The fuel bounds the number of seconds at
which one does. -/
def advanceWith (settings : ControllerSettings) (limit : Nat) : Nat → Controller → Controller
  | 0, c => c
  | fuel + 1, c =>
      match c.nextTimer? with
      | none => c
      | some second =>
          if second < limit then
            advanceWith settings limit fuel ((c.fire second).settle settings second maxPasses)
          else c

/-- Lets all timers go off that are due before `limit`. -/
def advance (settings : ControllerSettings) (limit : Nat) (c : Controller) : Controller :=
  c.advanceWith settings limit limit

/-- A controller that starts on a cluster: every policy is new to it. -/
def start (settings : ControllerSettings) (store : FaultyStore) : Controller :=
  let c : Controller := { store }
  (store.fleet.policies.keys.foldl policyChanged c).settle settings 0 maxPasses

/-- An edit, and what it lets the controller see. Edits of objects that do not exist are not
seen. -/
def edit (c : Controller) (e : Edit) : Controller :=
  let before := c.store.fleet
  let c := { c with store := { c.store with fleet := e.apply before } }
  match e with
  | .putNode _ => c.nodeChanged
  | .deleteNode name | .setLabels name _ _ | .setReady name _ =>
      if (before.node? name).isSome then c.nodeChanged else c
  | .putPolicy policy => c.policyChanged policy.name
  | .requestDeletion policy _ => c.policyChanged policy
  | .removePolicy _ => c

end Controller

/-- What happens to a cluster from outside. -/
inductive Event where
  /-- An edit of the fleet. -/
  | edit (e : Edit)
  /-- New rules by which calls fail. -/
  | faults (rules : List FaultRule)
  deriving Repr

/-- An event at a second. -/
structure TimedEvent where
  second : Nat
  event : Event
  /-- Whether the next event of the same second comes before the controller can react. -/
  more : Bool := false
  deriving Repr

namespace Controller

/-- The controller after an event. -/
def event (c : Controller) : Event → Controller
  | .edit e => c.edit e
  | .faults rules => { c with store := { c.store with rules } }

/-- The cluster as it was at a second. -/
abbrev Snapshot := Nat × Fleet

/-- Runs through events in the order of time. Before an event all timers before its second go off;
after it, what has become due is worked off, and the cluster is recorded. -/
def play (settings : ControllerSettings) :
    List TimedEvent → Controller → List Snapshot × Controller
  | [], c => ([], c)
  | e :: rest, c =>
      let c := (c.advance settings e.second).event e.event
      let together := e.more && rest.head?.any (·.second == e.second)
      let c := if together then c else c.settle settings e.second maxPasses
      let (snapshots, last) := play settings rest c
      (if e.more then snapshots else (e.second, c.store.fleet) :: snapshots, last)

/-- The controller at the end of a run, after the timers of the last second. -/
def finish (settings : ControllerSettings) (second : Nat) (c : Controller) : Controller :=
  c.advance settings (second + 1)

/-- What a whole run shows. -/
structure Run where
  /-- The cluster once everything at the start is worked off, after each event, and at the end. -/
  snapshots : List Snapshot
  /-- The passes by second and policy. -/
  passes : List (Nat × String)
  /-- Whether the controller came to its end. -/
  ended : Bool

/-- A whole run, up to and with the second `last`. -/
def simulate (settings : ControllerSettings) (store : FaultyStore) (events : List TimedEvent)
    (last : Nat) : Run :=
  let c := start settings store
  let (snapshots, final) := play settings events c
  let final := final.finish settings last
  { snapshots := (0, c.store.fleet) :: snapshots ++ [(last, final.store.fleet)]
    passes := final.passes
    ended := final.ended }

end Controller

end FleetLabels
