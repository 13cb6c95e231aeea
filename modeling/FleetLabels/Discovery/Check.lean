import FleetLabels.Discovery.Document
import FleetLabels.Discovery.Version
import FleetLabels.Store.Response
import FleetLabels.Store.Uri

/-!
# Looking for the policy interface

One look at what a cluster serves. Of the group of policies every version is asked for, in the order
of the list; whatever fails on the way ends the look without a result. Found is the policy interface
if the recommended version of the group, the preferred or else the most settled one, has a resource
of the kind and version of policies.
-/

namespace FleetLabels.Discovery

/-- The result of one look. -/
inductive Check where
  /-- Policies are served. -/
  | present
  /-- They are not. -/
  | absent
  /-- The cluster could not be asked. -/
  | failed
  deriving DecidableEq, Repr

/-- A question by address, with a log of the addresses that were asked for. -/
abbrev Look (α : Type) := List String → Option α × List String

/-- The document at an address. The cluster answers, and the log shows, its path alone. -/
def fetch {α : Type} (respond : String → Response) (path : String)
    (read : Json → Except Fault α) : Look α := fun log =>
  match Uri.check path with
  | .ok uri =>
      let path := Uri.path uri
      (((respond path).document read).toOption, log ++ [path])
  | .error _ => (none, log)

/-- The version part of a version with or without its group: what follows the first slash, or else
the whole text. -/
def versionPart (groupVersion : String) : String :=
  match groupVersion.toList.dropWhile (· != '/') with
  | [] => groupVersion
  | _ :: version => String.ofList version

/-- A resource that is not part of another one. -/
def isTopLevel (r : ApiResource) : Bool :=
  !r.name.toList.contains '/'

/-- Kind and version of the top-level resources of a version. A resource that names no version has
the one of the list. -/
def kinds (list : ApiResources) : List (String × String) :=
  (list.resources.filter isTopLevel).map fun r =>
    (r.kind, r.version.getD (versionPart list.groupVersion))

/-- What a group serves: its versions, each with kind and version of its resources. -/
abbrev Served := List (String × List (String × String))

/-- Asks for all versions of a list. -/
def versions (respond : String → Response) : List GroupVersion → Look Served
  | [], log => (some [], log)
  | v :: rest, log =>
      match fetch respond ("/apis/" ++ v.groupVersion) ApiResources.ofJson log with
      | (some list, log) =>
          match versions respond rest log with
          | (some served, log) => (some ((v.version, kinds list) :: served), log)
          | (none, log) => (none, log)
      | (none, log) => (none, log)

/-- The version of a group that is recommended; a group without versions has none. -/
def recommended? (group : ApiGroup) : Option String :=
  match group.versions.map (·.version) with
  | [] => none
  | first :: rest => some ((group.preferredVersion.map (·.version)).getD (latestVersion first rest))

/-- Whether policies are among what the recommended version of a group serves. -/
def servesPolicies (group : ApiGroup) (served : Served) : Bool :=
  match recommended? group with
  | some version =>
      match served.lookup version with
      | some kinds => kinds.contains (Policy.kind, Policy.version)
      | none => false
  | none => false

/-- Asks for every group of the policies' name in a list; the last of them counts. -/
def groups (respond : String → Response) (found : Bool) : List ApiGroup → Look Bool
  | [], log => (some found, log)
  | g :: rest, log =>
      if g.name ≠ Policy.group then groups respond found rest log
      else if g.versions.isEmpty then (none, log)
      else
        match versions respond g.versions log with
        | (some served, log) => groups respond (servesPolicies g served) rest log
        | (none, log) => (none, log)

/-- The address of the list of groups. -/
def groupsPath : String := "/apis"

/-- One look at a cluster: the result, and the addresses that were asked for. -/
def check (respond : String → Response) : Check × List String :=
  match fetch respond groupsPath ApiGroup.listOfJson [] with
  | (some list, log) =>
      match groups respond false list log with
      | (some true, log) => (.present, log)
      | (some false, log) => (.absent, log)
      | (none, log) => (.failed, log)
  | (none, log) => (.failed, log)

end FleetLabels.Discovery
