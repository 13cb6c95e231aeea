import FleetLabels.Json.Reader
import FleetLabels.Node.Document
import FleetLabels.Policy.Document
import FleetLabels.Store.Call

/-!
# Responses

How the answers of the cluster are understood. A status from 400 to 599 is an error, whatever the
body; the error is the one that the body describes, or else one made up from the status and the
body. Any other status is a success, and the body must be the document that was asked for.
-/

namespace FleetLabels

/-- An answer of the cluster. -/
structure Response where
  status : Nat
  body : Text.Raw
  deriving DecidableEq, Repr

/-- The standard phrase for a status. -/
def statusPhrase? : Nat → Option String
  | 400 => some "Bad Request"
  | 401 => some "Unauthorized"
  | 402 => some "Payment Required"
  | 403 => some "Forbidden"
  | 404 => some "Not Found"
  | 405 => some "Method Not Allowed"
  | 406 => some "Not Acceptable"
  | 407 => some "Proxy Authentication Required"
  | 408 => some "Request Timeout"
  | 409 => some "Conflict"
  | 410 => some "Gone"
  | 411 => some "Length Required"
  | 412 => some "Precondition Failed"
  | 413 => some "Payload Too Large"
  | 414 => some "URI Too Long"
  | 415 => some "Unsupported Media Type"
  | 416 => some "Range Not Satisfiable"
  | 417 => some "Expectation Failed"
  | 418 => some "I'm a teapot"
  | 421 => some "Misdirected Request"
  | 422 => some "Unprocessable Entity"
  | 423 => some "Locked"
  | 424 => some "Failed Dependency"
  | 425 => some "Too Early"
  | 426 => some "Upgrade Required"
  | 428 => some "Precondition Required"
  | 429 => some "Too Many Requests"
  | 431 => some "Request Header Fields Too Large"
  | 451 => some "Unavailable For Legal Reasons"
  | 500 => some "Internal Server Error"
  | 501 => some "Not Implemented"
  | 502 => some "Bad Gateway"
  | 503 => some "Service Unavailable"
  | 504 => some "Gateway Timeout"
  | 505 => some "HTTP Version Not Supported"
  | 506 => some "Variant Also Negotiates"
  | 507 => some "Insufficient Storage"
  | 508 => some "Loop Detected"
  | 510 => some "Not Extended"
  | 511 => some "Network Authentication Required"
  | _ => none

/-- A status with its phrase. -/
def statusText (status : Nat) : String :=
  toString status ++ " " ++ (statusPhrase? status).getD "<unknown status code>"

namespace ApiError

/-- Reads the error that a body describes: an object, or the array of its fields in order. -/
def ofJson : Json → Except Fault ApiError
  | .object ms => do
      let code ← Document.once ms "code" Document.uint16
      let message ← Document.once ms "message" Document.string
      let reason ← Document.once ms "reason" Document.string
      let status ← Document.once ms "status" Document.string
      let status ← Document.required "status" status
      let code ← Document.required "code" code
      .ok { status, message := message.getD "", reason := reason.getD "", code }
  | .array items => do
      let expected := "struct ErrorResponse with 4 elements"
      let status ← Document.item items 0 expected Document.string
      let message ← Document.itemOr items 1 "" Document.string
      let reason ← Document.itemOr items 2 "" Document.string
      let code ← Document.item items 3 expected Document.uint16
      Document.atMost items 4
      .ok { status, message, reason, code }
  | j => .error (.wrongType j.found "struct ErrorResponse")

/-- The error made up for a body that describes none. -/
def undescribed (status : Nat) (body : String) : ApiError :=
  { status := statusText status, message := Text.quote body,
    reason := "Failed to parse error data", code := UInt16.ofNat status }

/-- The error that a response with an error status stands for. -/
def ofResponse (status : Nat) (body : String) : ApiError :=
  match (Json.read? body).map ofJson with
  | some (.ok e) => e
  | _ => undescribed status body

end ApiError

/-- The keys of a list of documents. -/
def Document.listKeys : List String := ["items", "metadata"]

/-- A value that is not looked at, but must be there as a whole. -/
def Document.whole (depth : Nat) (j : Json) : Except Fault Unit :=
  if (j.whole? depth).isSome then .ok () else .error (.wrongType j.found "a whole value")

/-- The metadata of a list, which are checked and dropped. -/
def Document.listMetadata : Json → Except Fault Unit
  | .object ms => do
      let _ ← Document.optional ms "continue" Document.string
      let _ ← Document.optional ms "remainingItemCount" Document.int64
      let _ ← Document.optional ms "resourceVersion" Document.string
      let _ ← Document.optional ms "selfLink" Document.string
      .ok ()
  | j => .error (.wrongType j.found "ListMeta")

/-- A list of documents. What stands beside the items and the metadata is set aside as a whole
before anything is made of the list, so it must be a whole value. -/
def Document.items {α : Type} (read : Json → Except Fault α) : Json → Except Fault (List α)
  | .object ms => do
      let others := ms.filter fun e => !Document.listKeys.contains e.1
      others.forM fun e => Document.whole (Json.maxDepth - 1) e.2
      let items ← Document.once ms "items" (Document.nullable (Document.list read))
      let _ ← Document.once ms "metadata" Document.listMetadata
      let items ← Document.required "items" items
      .ok (items.getD [])
  | j => .error (.wrongType j.found "struct ObjectList")

namespace Response

/-- Whether the status is that of an error. -/
def isError (r : Response) : Bool :=
  400 ≤ r.status && r.status ≤ 599

/-- The text of a successful answer, else the cause of the failure. -/
def text (r : Response) : Except Cause String := do
  let body ← r.body.read.mapError .utf8
  if r.isError then .error (.api (.ofResponse r.status body)) else .ok body

/-- The document in a successful answer, else the cause of the failure. -/
def document {α : Type} (r : Response) (read : Json → Except Fault α) : Except Cause α := do
  let body ← r.text
  match (Json.read? body).map read with
  | some (.ok a) => .ok a
  | _ => .error .undecodable

/-- The document in an answer, none if the answer is that there is no such object. -/
def document? {α : Type} (r : Response) (read : Json → Except Fault α) :
    Except Cause (Option α) :=
  match r.document read with
  | .ok a => .ok (some a)
  | .error (.api e) => if e.reason = ApiError.notFoundReason then .ok none else .error (.api e)
  | .error cause => .error cause

/-- What a response tells about the call that it answers. -/
def answer (r : Response) : (call : StoreCall) → Except Cause call.Answer
  | .getPolicy _ => r.document? Policy.ofJson
  | .listNodes => r.document (Document.items Node.ofJson)
  | .updateNode _ => r.document Node.ofJson
  | .updatePolicy _ => r.document Policy.ofJson
  | .updateStatus .. => (fun _ => ()) <$> r.document Policy.ofJson

end Response

end FleetLabels
