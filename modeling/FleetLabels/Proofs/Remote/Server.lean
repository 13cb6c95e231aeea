import FleetLabels.Fleet.Basic
import FleetLabels.Proofs.Documents.MergePatch
import FleetLabels.Proofs.Remote.Addresses
import FleetLabels.Store.Remote

/-!
# A server of documents

The other end of the store that works by requests: a cluster that keeps its nodes, and at most one
policy, as documents under their names, and answers requests from these. It knows nothing of nodes
and policies but what it needs for that: a policy document that is under deletion and that nothing
holds back is dropped when it is written, and a patch is merged into what is there.

Writes of some nodes are refused with a conflict, so that a pass can fail at any of its writes.

## Main results

* `Response.document_reply`, `Response.document_refusal` — how the two kinds of answers are
  understood.
* `Server.handler_getPolicy` and its companions — what each store call comes to, from the call over
  its request and the response to the answer.
-/

namespace FleetLabels

open Document

/-! ## Answers -/

/-- A way of writing documents as texts that the reader understands. -/
structure Json.Wire where
  text : Json → String
  read_text : ∀ j, j.isLegible = true → Json.read? (text j) = some j

/-- The compact text is such a way. -/
def Json.Wire.compact : Wire where
  text := Json.text
  read_text _ h := Json.read?_text h

/-- The document of an error. -/
def ApiError.toJson (e : ApiError) : Json :=
  .object [("apiVersion", .string "v1"), ("code", .int e.code.toNat), ("kind", .string "Status"),
    ("message", .string e.message), ("metadata", .object []), ("reason", .string e.reason),
    ("status", .string e.status)]

/-- The error about an object that is not in its collection. -/
def ApiError.notFound (collection name : String) : ApiError where
  status := "Failure"
  message := collection ++ " \"" ++ name ++ "\" not found"
  reason := notFoundReason
  code := 404

/-- The codes of statuses that are errors. -/
def ApiError.IsError (e : ApiError) : Prop :=
  400 ≤ e.code.toNat ∧ e.code.toNat ≤ 599

theorem ApiError.isError_notFound (collection name : String) :
    (notFound collection name).IsError := by
  show 400 ≤ (404 : UInt16).toNat ∧ (404 : UInt16).toNat ≤ 599
  decide

theorem ApiError.ofJson_toJson (e : ApiError) : ofJson e.toJson = .ok e := by
  have hcode : Document.uint16 (.int e.code.toNat) = .ok e.code := by
    have hlt := e.code.toNat_lt
    have hrange : (0 : Int) ≤ e.code.toNat ∧ (e.code.toNat : Int) ≤ 65535 := by omega
    simp only [uint16, if_pos hrange, Int.toNat_natCast, UInt16.ofNat_toNat]
  simp only [toJson, ofJson, once_eq, valuesAt_cons, valuesAt_nil, String.reduceEq, if_true,
    if_false, onlyOf_single hcode, onlyOf_single (reads_string _).1, required, ok_bind,
    Option.getD_some]

theorem ApiError.isLegible_toJson (e : ApiError) : e.toJson.isLegible = true := by
  have hlt := e.code.toNat_lt
  have hcode : (Json.int e.code.toNat).isLegible = true := Json.isLegible_int (by omega) (by omega)
  have hstring (s : String) : (Json.string s).isLegible = true := rfl
  rw [toJson, Json.isLegible]
  simp only [Json.membersLegible, hcode, hstring]
  rfl

namespace Response

variable (wire : Json.Wire)

/-- The answer with a document. -/
def reply (status : Nat) (j : Json) : Response :=
  { status, body := .text (wire.text j) }

/-- The answer with an error. -/
def refusal (e : ApiError) : Response :=
  reply wire e.code.toNat e.toJson

theorem document_reply {α : Type} {read : Json → Except Fault α} {j : Json} {a : α}
    (hlegible : j.isLegible = true) (hread : read j = .ok a) :
    (reply wire 200 j).document read = .ok a := by
  have htext : (reply wire 200 j).text = .ok (wire.text j) := rfl
  simp only [document, htext, ok_bind, wire.read_text j hlegible, Option.map_some, hread]

/-- An error of a known code is understood as it was meant. -/
theorem document_refusal {α : Type} (read : Json → Except Fault α) {e : ApiError} (h : e.IsError) :
    (refusal wire e).document read = .error (.api e) := by
  have herror : (refusal wire e).isError = true := by
    simp [isError, refusal, reply, h.1, h.2]
  have hdescribed : ApiError.ofResponse e.code.toNat (wire.text e.toJson) = e := by
    simp only [ApiError.ofResponse, wire.read_text _ e.isLegible_toJson, Option.map_some,
      e.ofJson_toJson]
  have htext : (refusal wire e).text = .error (.api e) := by
    show (if (refusal wire e).isError then
      Except.error (Cause.api (ApiError.ofResponse e.code.toNat (wire.text e.toJson))) else _) = _
    rw [if_pos herror, hdescribed]
  rw [document, htext]
  rfl

theorem document?_of_ok {α : Type} {r : Response} {read : Json → Except Fault α} {a : α}
    (h : r.document read = .ok a) : r.document? read = .ok (some a) := by
  rw [document?, h]

/-- That there is no such object is not an error. -/
theorem document?_notFound {α : Type} (read : Json → Except Fault α) (collection name : String) :
    (refusal wire (.notFound collection name)).document? read = .ok none := by
  rw [document?, document_refusal wire read (ApiError.isError_notFound collection name)]
  rfl

end Response

/-! ## The server -/

/-- The nodes that cannot be written, each with the conflict that such a write is answered with. -/
structure Conflicts where
  at? : String → Option ApiError
  code_eq : ∀ name e, at? name = some e → e.code = ApiError.conflictCode

theorem Conflicts.isError {conflicts : Conflicts} {name : String} {e : ApiError}
    (h : conflicts.at? name = some e) : e.IsError := by
  rw [ApiError.IsError, conflicts.code_eq name e h]
  decide

/-- What a cluster keeps: documents under the names of their objects. -/
structure Server where
  nodes : List (String × Json) := []
  policy : Option (String × Json) := none
  /-- The documents that nodes were asked to be replaced by, with those that were refused. -/
  puts : List (String × Json) := []

namespace Server

/-- All nodes can be written. -/
def noneRefused : Conflicts where
  at? _ := none
  code_eq _ _ h := nomatch h

/-- The list of all nodes. -/
def nodeList (s : Server) : Json :=
  .object [("apiVersion", .string Node.apiVersion), ("items", .array (s.nodes.map (·.2))),
    ("kind", .string (Node.kind ++ "List")), ("metadata", .object [])]

/-- The document of the policy of a name. -/
def policy? (s : Server) (name : String) : Option Json :=
  s.policy.bind fun e => if e.1 = name then some e.2 else none

/-- A list with its first document of a name replaced; none if there is no such document. -/
def replaceDocument (name : String) (doc : Json) :
    List (String × Json) → Option (List (String × Json))
  | [] => none
  | e :: rest =>
      if e.1 = name then some ((name, doc) :: rest) else (e :: ·) <$> replaceDocument name doc rest

/-- Whether deletion of an object was requested and nothing holds it back. -/
def isReleased (doc : Json) : Bool :=
  let metadata := (doc.get? "metadata").getD .null
  match metadata.get? "deletionTimestamp" with
  | none | some .null => false
  | some _ => ((metadata.get? "finalizers").getD .null).items.isEmpty

/-- A written policy is dropped for the same reason on both sides. -/
theorem isReleased_toJson (p : Policy) :
    isReleased p.toJson = (p.isDeleting && p.finalizers.isEmpty) := by
  have hget (ms : List (String × Json)) (key : String) :
      (Json.object ms).get? key = (valuesAt ms key).head? := Json.lookup_eq ms key
  have hmetadata : p.toJson.get? "metadata" = some p.metadata.toJson := by
    simp only [Policy.toJson, hget, valuesAt_append, valuesAt_cons, valuesAt_nil, valuesAt_entry,
      String.reduceEq, if_true, if_false]
    rfl
  have hdeletion : p.metadata.toJson.get? "deletionTimestamp" =
      p.metadata.deletionTimestamp.map fun t => .string t.text := by
    simp only [Metadata.toJson, ManagedMetadata.toJson, hget, valuesAt_append, valuesAt_entry,
      String.reduceEq, if_true, if_false, List.nil_append, List.append_nil, Option.head?_toList]
  have hfinalizers : p.metadata.toJson.get? "finalizers" =
      p.metadata.finalizers.map Json.strings := by
    simp only [Metadata.toJson, ManagedMetadata.toJson, hget, valuesAt_append, valuesAt_entry,
      String.reduceEq, if_true, if_false, List.nil_append, List.append_nil, Option.head?_toList]
  simp only [isReleased, hmetadata, Option.getD_some, hdeletion, hfinalizers, Policy.isDeleting,
    Policy.finalizers, Metadata.finalizerList]
  cases p.metadata.deletionTimestamp with
  | none => rfl
  | some t =>
      cases p.metadata.finalizers with
      | none => rfl
      | some l => cases l <;> rfl

section Requests

variable (wire : Json.Wire) (conflicts : Conflicts)

/-- Answers with the policy of a name. -/
def getPolicy (s : Server) (name : String) : Response :=
  match s.policy? name with
  | some doc => .reply wire 200 doc
  | none => .refusal wire (.notFound Policy.plural name)

/-- Replaces a node, unless that is a conflict. -/
def putNode (s : Server) (name : String) (doc : Json) : Response × Server :=
  let s := { s with puts := s.puts ++ [(name, doc)] }
  match conflicts.at? name with
  | some e => (.refusal wire e, s)
  | none =>
      match replaceDocument name doc s.nodes with
      | some nodes => (.reply wire 200 doc, { s with nodes })
      | none => (.refusal wire (.notFound "nodes" name), s)

/-- Replaces the policy, or drops it. -/
def putPolicy (s : Server) (name : String) (doc : Json) : Response × Server :=
  match s.policy? name with
  | some _ =>
      (.reply wire 200 doc, { s with policy := if isReleased doc then none else some (name, doc) })
  | none => (.refusal wire (.notFound Policy.plural name), s)

/-- Merges a patch into the policy. -/
def patchStatus (s : Server) (name : String) (patch : Json) : Response × Server :=
  match s.policy? name with
  | some doc =>
      (.reply wire 200 (doc.mergePatch patch),
        { s with policy := some (name, doc.mergePatch patch) })
  | none => (.refusal wire (.notFound Policy.plural name), s)

/-- The response to a request, and the state after it. -/
def respond (r : Request) (s : Server) : Response × Server :=
  match r.method, Resource.of? r.uri, r.content with
  | .get, some .nodes, _ => (.reply wire 200 s.nodeList, s)
  | .get, some (.policy name), _ => (s.getPolicy wire name, s)
  | .put, some (.node name), some (_, doc) => s.putNode wire conflicts name doc
  | .put, some (.policy name), some (_, doc) => s.putPolicy wire name doc
  | .patch, some (.policyStatus name), some (_, patch) => s.patchStatus wire name patch
  | _, _, _ => (.refusal wire (.notFound "resources" r.uri), s)

/-- The store that works by requests to the server. -/
def handler : Pass.Handler Server :=
  Remote.handler (respond wire conflicts)

end Requests

/-! ## Store calls

Each call reaches the part of the server that it is meant for.
-/

section Calls

variable (wire : Json.Wire) (conflicts : Conflicts) (s : Server) {name : String}

theorem handler_getPolicy (hname : UrlSafe name) :
    handler wire conflicts (.getPolicy name) s =
      (((s.getPolicy wire name).document? Policy.ofJson).mapError
        (StoreCall.getPolicy name).failure, s) := by
  have hroute := Resource.of?_policy hname Uri.isQuery_empty
  simp only [handler, Remote.handler, Request.ofCall_getPolicy hname, respond, hroute]
  rfl

theorem handler_listNodes :
    handler wire conflicts .listNodes s =
      (((Response.reply wire 200 s.nodeList).document (Document.items Node.ofJson)).mapError
        StoreCall.listNodes.failure, s) := by
  have hrequest : Request.ofCall .listNodes = .ok ⟨.get, Request.nodesPath ++ "?", none⟩ := by rfl
  simp only [handler, Remote.handler, hrequest, respond, Resource.of?_nodes]
  rfl

theorem handler_updateNode {n : Node} (hname : UrlSafe n.name) :
    handler wire conflicts (.updateNode n) s =
      let (response, s') := s.putNode wire conflicts n.name n.toJson
      ((response.document Node.ofJson).mapError (StoreCall.updateNode n).failure, s') := by
  have hroute := Resource.of?_node hname Uri.isQuery_writeQuery
  simp only [handler, Remote.handler, Request.ofCall_updateNode hname, respond, hroute]
  rfl

theorem handler_updatePolicy {p : Policy} (hname : UrlSafe p.name) :
    handler wire conflicts (.updatePolicy p) s =
      let (response, s') := s.putPolicy wire p.name p.toJson
      ((response.document Policy.ofJson).mapError (StoreCall.updatePolicy p).failure, s') := by
  have hroute := Resource.of?_policy hname Uri.isQuery_writeQuery
  simp only [handler, Remote.handler, Request.ofCall_updatePolicy hname, respond, hroute]
  rfl

theorem handler_updateStatus (hname : UrlSafe name) (status : PolicyStatus) :
    handler wire conflicts (.updateStatus name status) s =
      let (response, s') := s.patchStatus wire name (Request.statusPatch status)
      (((fun _ => ()) <$> response.document Policy.ofJson).mapError
        (StoreCall.updateStatus name status).failure, s') := by
  have hroute := Resource.of?_policyStatus hname Uri.isQuery_writeQuery
  simp only [handler, Remote.handler, Request.ofCall_updateStatus hname, respond, hroute]
  rfl

end Calls

/-! ## Lists of nodes -/

section Lists

variable {s : Server}

/-- A list of nodes is read item by item. -/
theorem items_nodeList {nodes : List Node}
    (h : (s.nodes.map (·.2)).mapM Node.ofJson = .ok nodes) :
    Document.items Node.ofJson s.nodeList = .ok nodes := by
  have hitems : Document.nullable (Document.list Node.ofJson) (.array (s.nodes.map (·.2))) =
      .ok (some nodes) := by
    show some <$> (s.nodes.map (·.2)).mapM Node.ofJson = _
    rw [h, map_ok]
  have hmetadata : Document.listMetadata (.object []) = .ok () := by rfl
  have hothers : (s.nodeList.members.filter fun e => !listKeys.contains e.1).forM
      (fun e => Document.whole (Json.maxDepth - 1) e.2) = .ok () := by rfl
  simp only [nodeList, Json.members] at hothers
  simp only [nodeList, Document.items, hothers, once_eq, valuesAt_cons, valuesAt_nil,
    String.reduceEq, if_true, if_false, onlyOf_single hitems, onlyOf_single hmetadata, required,
    ok_bind, Option.getD_some]

theorem isLegible_nodeList (h : ∀ e ∈ s.nodes, e.2.isLegible = true) :
    s.nodeList.isLegible = true := by
  have hitems : (Json.array (s.nodes.map (·.2))).isLegible = true := by
    rw [Json.isLegible, Json.itemsLegible_iff]
    intro doc hdoc
    obtain ⟨e, he, rfl⟩ := List.mem_map.1 hdoc
    exact h e he
  rw [nodeList, Json.isLegible]
  simp only [Json.membersLegible, hitems]
  rfl

end Lists

end Server

end FleetLabels
