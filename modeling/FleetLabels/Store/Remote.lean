import FleetLabels.Pass.Basic
import FleetLabels.Store.Request
import FleetLabels.Store.Response

/-!
# The store of a cluster

The store that reaches the cluster by requests: each call makes one request, and the response
decides the answer. A call of which no request can be made fails without one.
-/

namespace FleetLabels.Remote

/-- How a cluster answers a call, and the request it was sent, if any. -/
def exchange (respond : Request → Response) (call : StoreCall) :
    Option Request × Except PassError call.Answer :=
  match Request.ofCall call with
  | .ok request => (some request, ((respond request).answer call).mapError call.failure)
  | .error why => (none, .error (call.failure (.request why)))

/-- The store over a cluster whose state is `σ`. -/
def handler {σ : Type} (respond : Request → σ → Response × σ) : Pass.Handler σ := fun call s =>
  match Request.ofCall call with
  | .ok request =>
      let (response, s) := respond request s
      ((response.answer call).mapError call.failure, s)
  | .error why => (.error (call.failure (.request why)), s)

end FleetLabels.Remote
