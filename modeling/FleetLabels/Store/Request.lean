import FleetLabels.Node.Document
import FleetLabels.Policy.Document
import FleetLabels.Store.Call
import FleetLabels.Store.Uri

/-!
# Requests

The request that a store call makes of the cluster. Names go into the address as they are. Writes of
whole objects carry the object; the status is written as a patch that is merged into the policy.
-/

namespace FleetLabels

/-- What a request does with the object of its address. -/
inductive Method where
  | get
  | put
  | patch
  deriving DecidableEq, Repr

/-- The word for a method. -/
def Method.text : Method → String
  | .get => "GET"
  | .put => "PUT"
  | .patch => "PATCH"

/-- A request to the cluster; only one with a body has a content type. -/
structure Request where
  method : Method
  uri : String
  content : Option (String × Json) := none
  deriving Repr

namespace Request

/-- The name under which fields are owned by their writer. -/
def fieldManager : String := "node-label-controller"

/-- The address of the collection of nodes. -/
def nodesPath : String := "/api/v1/nodes"

/-- The address of the collection of policies. -/
def policiesPath : String :=
  "/apis/" ++ Policy.group ++ "/" ++ Policy.version ++ "/" ++ Policy.plural

/-- The query of a write. -/
def writeQuery : String := "?&fieldManager=" ++ fieldManager

/-- The content type of an object. -/
def jsonType : String := "application/json"

/-- The content type of a patch that is merged into an object. -/
def mergePatchType : String := "application/merge-patch+json"

/-- The patch that a status write sends. -/
def statusPatch (status : PolicyStatus) : Json :=
  .object [("status", status.toJson)]

/-- The address of a named object; an empty name has none. -/
def address (collection name rest : String) : Except BadRequest String :=
  if name.isEmpty then .error .emptyName
  else Uri.check (collection ++ "/" ++ name ++ rest)

/-- The request of a store call. -/
def ofCall : StoreCall → Except BadRequest Request
  | .getPolicy name => do
      .ok { method := .get, uri := ← address policiesPath name "" }
  | .listNodes => .ok { method := .get, uri := nodesPath ++ "?" }
  | .updateNode node => do
      .ok { method := .put, uri := ← address nodesPath node.name writeQuery,
            content := some (jsonType, node.toJson) }
  | .updatePolicy policy => do
      .ok { method := .put, uri := ← address policiesPath policy.name writeQuery,
            content := some (jsonType, policy.toJson) }
  | .updateStatus policy status => do
      .ok { method := .patch, uri := ← address policiesPath policy ("/status" ++ writeQuery),
            content := some (mergePatchType, statusPatch status) }

end Request

end FleetLabels
