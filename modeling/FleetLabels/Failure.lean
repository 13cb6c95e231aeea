import FleetLabels.Text.Quoted
import FleetLabels.Text.Utf8

/-!
# Failures

What can go wrong in a pass. A store call fails with a `Cause`: mostly an error answer of the
cluster, else something about the connection. A pass fails with a `PassError`, which adds what was
being read or written. Only a strategy that is not known is final; every other failure may go away
by itself, so the pass is worth repeating.
-/

namespace FleetLabels

/-- An error answer of the cluster. -/
structure ApiError where
  status : String
  message : String
  reason : String
  code : UInt16
  deriving DecidableEq, Repr

/-- The wording of an error answer. -/
def ApiError.text (e : ApiError) : String :=
  "ApiError: " ++ e.message ++ ": " ++ e.reason ++ " (ErrorResponse \x7b status: " ++
    Text.quote e.status ++ ", message: " ++ Text.quote e.message ++ ", reason: " ++
    Text.quote e.reason ++ ", code: " ++ toString e.code.toNat ++ " \x7d)"

/-- The code of an error answer to a write that was made with an outdated version. -/
def ApiError.conflictCode : UInt16 := 409

/-- The reason of an error answer about an object that does not exist. -/
def ApiError.notFoundReason : String := "NotFound"

/-- Why no request could be made of a call. -/
inductive BadRequest where
  /-- The object to be read or written has no name. -/
  | emptyName
  /-- The name holds a character that no address has. -/
  | invalidUri
  /-- The name is too long for an address. -/
  | uriTooLong
  deriving DecidableEq, Repr

/-- The wording of a request that could not be made. -/
def BadRequest.text : BadRequest → String
  | .emptyName => "failed to validate request: A non-empty name is required"
  | .invalidUri => "failed to build request: invalid uri character"
  | .uriTooLong => "failed to build request: uri too long"

/-- Why a store call failed. -/
inductive Cause where
  /-- The cluster answered with an error. -/
  | api (error : ApiError)
  /-- The stream of the answer broke off inside a line. -/
  | lines
  /-- The address asks for encryption that is not built in. -/
  | tls
  /-- No request could be made. -/
  | request (why : BadRequest)
  /-- The answer is not text. -/
  | utf8 (malformed : Text.Malformed)
  /-- The answer is not the document that was asked for. -/
  | undecodable
  deriving DecidableEq, Repr

/-- The wording of a cause. -/
def Cause.text : Cause → String
  | .api error => error.text
  | .lines => "Error finding newline character"
  | .tls => "TLS required but no TLS stack selected"
  | .request why => "Failed to build request: " ++ why.text
  | .utf8 malformed => "UTF-8 Error: " ++ malformed.message
  | .undecodable => "Error deserializing response"

/-- Why a pass failed. -/
inductive PassError where
  /-- A store call failed, with nothing said about its target. -/
  | api (cause : Cause)
  /-- The policy names a strategy that does not exist. -/
  | unsupportedStrategy (type : String)
  /-- Reading failed. -/
  | read (target : String) (cause : Cause)
  /-- A write was refused because the object had been changed since it was read. -/
  | conflict (target : String) (cause : Cause)
  /-- Writing failed in another way. -/
  | write (target : String) (cause : Cause)
  deriving DecidableEq, Repr

namespace PassError

/-- The failure of a write: a conflict if the cluster answered with the code for it. -/
def ofWrite (target : String) (cause : Cause) : PassError :=
  match cause with
  | .api e => if e.code = ApiError.conflictCode then .conflict target cause else .write target cause
  | _ => .write target cause

/-- The name of the kind of a failure. -/
def kind : PassError → String
  | .api _ => "KubeError"
  | .unsupportedStrategy _ => "UnsupportedStrategy"
  | .read .. => "StoreRead"
  | .conflict .. => "WriteConflict"
  | .write .. => "StoreWrite"

/-- The wording of a failure. -/
def message : PassError → String
  | .api cause => "Kubernetes API error: " ++ cause.text
  | .unsupportedStrategy type => "unsupported strategy type: " ++ type
  | .read target cause => "failed to read " ++ target ++ ": " ++ cause.text
  | .conflict target cause => "write conflict on " ++ target ++ ": " ++ cause.text
  | .write target cause => "failed to update " ++ target ++ ": " ++ cause.text

/-- What a failure goes back to, if that is a failed call. -/
def cause? : PassError → Option Cause
  | .unsupportedStrategy _ => none
  | .api cause | .read _ cause | .conflict _ cause | .write _ cause => some cause

/-- Whether the same pass, run again, can succeed without the policy being changed. -/
def retryable : PassError → Bool
  | .unsupportedStrategy _ => false
  | _ => true

end PassError

end FleetLabels
