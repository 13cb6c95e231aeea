import FleetLabels.Proofs.Remote.Server

/-!
# What an answer comes to

An answer of the cluster has a status, and an error answer may have two more things that say what
is the matter: the code and the reason in its body. These need not go together. Whether an answer
is an error is decided by its status alone; which error it is, by the body, if that describes one;
that a write met a conflict, by the code of this error, and that a policy does not exist, by its
reason. So an answer of status 404 can be a conflict, and one of status 500 can say that there is
no such policy.

`Response.Reports`, `Response.Delivers` and `Response.Garbled` are the three things that an answer
with a text can be. Every store call is told by these.

## Main results

* `Response.reports_or`, `Response.Reports.unique` — every answer is one of the three, and reports
  one error at most.
* `Response.document_eq_ok_iff`, `Response.document_eq_error_iff` — reading the document of an
  answer.
* `Remote.answers_classified` — what each store call makes of an answer.
-/

namespace FleetLabels

/-- The text is a JSON document that the reader takes for the value. -/
def Document.Denotes {α : Type} (read : Json → Except Fault α) (body : String) (a : α) : Prop :=
  (Json.read? body).map read = some (.ok a)

open Document

namespace Response

variable {α : Type}

/-- The statuses of errors. -/
def HasErrorStatus (r : Response) : Prop :=
  400 ≤ r.status ∧ r.status ≤ 599

theorem isError_iff (r : Response) : r.isError = true ↔ r.HasErrorStatus := by
  simp [isError, HasErrorStatus]

/-- The answer reports an error: the one that its text describes, or, if it describes none, one with
the status for its code. -/
inductive Reports (r : Response) (body : String) : ApiError → Prop where
  | described {e : ApiError} (hstatus : r.HasErrorStatus) (h : Denotes ApiError.ofJson body e) :
      Reports r body e
  | undescribed (hstatus : r.HasErrorStatus) (h : ∀ e, ¬ Denotes ApiError.ofJson body e) :
      Reports r body (.undescribed r.status body)

/-- The answer is no error, and its text is the document of a value. -/
structure Delivers (r : Response) (body : String) (read : Json → Except Fault α) (a : α) :
    Prop where
  success : ¬ r.HasErrorStatus
  denotes : Denotes read body a

/-- The answer is no error, but its text is not such a document. -/
structure Garbled (r : Response) (body : String) (read : Json → Except Fault α) : Prop where
  success : ¬ r.HasErrorStatus
  denotes : ∀ a, ¬ Denotes read body a

variable {r : Response} {body : String} {read : Json → Except Fault α}

/-! ## The error of an answer -/

theorem reports_iff {e : ApiError} :
    r.Reports body e ↔ r.HasErrorStatus ∧ ApiError.ofResponse r.status body = e := by
  unfold ApiError.ofResponse
  constructor
  · rintro (⟨hstatus, h⟩ | ⟨hstatus, h⟩)
    · refine ⟨hstatus, ?_⟩
      rw [show (Json.read? body).map ApiError.ofJson = some (.ok e) from h]
    · refine ⟨hstatus, ?_⟩
      split
      next e hdescribed => exact absurd hdescribed (h e)
      next => rfl
  · rintro ⟨hstatus, rfl⟩
    split
    next e hdescribed => exact .described hstatus hdescribed
    next hnone => exact .undescribed hstatus hnone

theorem Reports.unique {e e' : ApiError} (h : r.Reports body e) (h' : r.Reports body e') : e = e' :=
  (reports_iff.1 h).2.symm.trans (reports_iff.1 h').2

/-- An error is described by the text, or is made up from the status. -/
theorem Reports.described_or {e : ApiError} (h : r.Reports body e) :
    Denotes ApiError.ofJson body e ∨
      (∀ e', ¬ Denotes ApiError.ofJson body e') ∧ e.code.toNat = r.status ∧
        e.reason = "Failed to parse error data" := by
  rcases h with ⟨-, h⟩ | ⟨⟨hlow, hhigh⟩, h⟩
  · exact .inl h
  · refine .inr ⟨h, ?_, rfl⟩
    show (UInt16.ofNat r.status).toNat = r.status
    exact UInt16.toNat_ofNat_of_lt (by simp only [UInt16.size]; omega)

/-- Every answer with a text is one of the three. -/
theorem reports_or (r : Response) (body : String) (read : Json → Except Fault α) :
    (∃ e, r.Reports body e) ∨ (∃ a, r.Delivers body read a) ∨ r.Garbled body read := by
  by_cases hstatus : r.HasErrorStatus
  · exact .inl ⟨_, reports_iff.2 ⟨hstatus, rfl⟩⟩
  · by_cases hdenotes : ∃ a, Denotes read body a
    · exact .inr (.inl (hdenotes.imp fun a h => ⟨hstatus, h⟩))
    · exact .inr (.inr ⟨hstatus, not_exists.1 hdenotes⟩)

/-! ## Reading an answer -/

/-- The causes for which no document is had from an answer. -/
inductive Fails (r : Response) (body : String) (read : Json → Except Fault α) : Cause → Prop where
  | reported {e : ApiError} (h : r.Reports body e) : Fails r body read (.api e)
  | garbled (h : r.Garbled body read) : Fails r body read .undecodable

theorem document_of_reports (hbody : r.body.read = .ok body) {e : ApiError}
    (h : r.Reports body e) : r.document read = .error (.api e) := by
  obtain ⟨hstatus, rfl⟩ := reports_iff.1 h
  have htext : r.text = .error (.api (.ofResponse r.status body)) := by
    simp only [text, hbody, Except.mapError, ok_bind, r.isError_iff.2 hstatus, if_true]
  rw [document, htext]
  rfl

theorem document_of_success (hbody : r.body.read = .ok body) (h : ¬ r.HasErrorStatus) :
    r.document read =
      match (Json.read? body).map read with
      | some (.ok a) => .ok a
      | _ => .error .undecodable := by
  have htext : r.text = .ok body := by
    simp only [text, hbody, Except.mapError, ok_bind, mt r.isError_iff.1 h]
    rfl
  rw [document, htext]
  rfl

theorem document_of_delivers (hbody : r.body.read = .ok body) {a : α}
    (h : r.Delivers body read a) : r.document read = .ok a := by
  rw [document_of_success hbody h.success,
    show (Json.read? body).map read = some (.ok a) from h.denotes]

theorem document_of_garbled (hbody : r.body.read = .ok body) (h : r.Garbled body read) :
    r.document read = .error .undecodable := by
  rw [document_of_success hbody h.success]
  split
  next a hdenotes => exact absurd hdenotes (h.denotes a)
  next => rfl

theorem document_eq_ok_iff (hbody : r.body.read = .ok body) {a : α} :
    r.document read = .ok a ↔ r.Delivers body read a := by
  refine ⟨fun h => ?_, document_of_delivers hbody⟩
  rcases r.reports_or body read with ⟨e, he⟩ | ⟨b, hb⟩ | hgarbled
  · rw [document_of_reports hbody he] at h
    cases h
  · rw [document_of_delivers hbody hb] at h
    exact Except.ok.inj h ▸ hb
  · rw [document_of_garbled hbody hgarbled] at h
    cases h

theorem document_eq_error_iff (hbody : r.body.read = .ok body) {cause : Cause} :
    r.document read = .error cause ↔ r.Fails body read cause := by
  constructor
  · intro h
    rcases r.reports_or body read with ⟨e, he⟩ | ⟨b, hb⟩ | hgarbled
    · rw [document_of_reports hbody he] at h
      cases h
      exact .reported he
    · rw [document_of_delivers hbody hb] at h
      cases h
    · rw [document_of_garbled hbody hgarbled] at h
      cases h
      exact .garbled hgarbled
  · rintro (h | h)
    · exact document_of_reports hbody h
    · exact document_of_garbled hbody h

/-! ## Asking for one object -/

/-- What an answer about one object says: that there is none, or here it is. -/
inductive Finds (r : Response) (body : String) (read : Json → Except Fault α) :
    Option α → Prop where
  | absent {e : ApiError} (h : r.Reports body e) (hreason : e.reason = ApiError.notFoundReason) :
      Finds r body read none
  | present {a : α} (h : r.Delivers body read a) : Finds r body read (some a)

/-- The causes for which it is not known whether there is such an object. -/
inductive FindFails (r : Response) (body : String) (read : Json → Except Fault α) :
    Cause → Prop where
  | reported {e : ApiError} (h : r.Reports body e) (hreason : e.reason ≠ ApiError.notFoundReason) :
      FindFails r body read (.api e)
  | garbled (h : r.Garbled body read) : FindFails r body read .undecodable

theorem document?_eq_ok_iff (hbody : r.body.read = .ok body) {found : Option α} :
    r.document? read = .ok found ↔ r.Finds body read found := by
  constructor
  · intro h
    unfold document? at h
    split at h
    next a hread =>
      cases h
      exact .present ((document_eq_ok_iff hbody).1 hread)
    next e hread =>
      split at h
      next hreason =>
        cases h
        obtain ⟨he⟩ := (document_eq_error_iff hbody).1 hread
        exact .absent he hreason
      next => cases h
    next => cases h
  · rintro (⟨h, hreason⟩ | h)
    · rw [document?, document_of_reports hbody h]
      exact if_pos hreason
    · rw [document?, document_of_delivers hbody h]

theorem document?_eq_error_iff (hbody : r.body.read = .ok body) {cause : Cause} :
    r.document? read = .error cause ↔ r.FindFails body read cause := by
  constructor
  · intro h
    unfold document? at h
    split at h
    next => cases h
    next e hread =>
      split at h
      next => cases h
      next hreason =>
        cases h
        obtain ⟨he⟩ := (document_eq_error_iff hbody).1 hread
        exact .reported he hreason
    next hother hread =>
      cases h
      rcases (document_eq_error_iff hbody).1 hread with he | hgarbled
      · exact absurd rfl (hother _)
      · exact .garbled hgarbled
  · rintro (⟨h, hreason⟩ | h)
    · rw [document?, document_of_reports hbody h]
      exact if_neg hreason
    · rw [document?, document_of_garbled hbody h]

end Response

/-! ## Failures of writes -/

/-- The failure of a write to the target: a conflict if the answer reports an error of the code for
it, whatever its status, and else a failed write. -/
inductive Response.WriteFails {α : Type} (r : Response) (body : String)
    (read : Json → Except Fault α) (target : String) : PassError → Prop where
  | conflict {e : ApiError} (h : r.Reports body e) (hcode : e.code = ApiError.conflictCode) :
      WriteFails r body read target (.conflict target (.api e))
  | refused {e : ApiError} (h : r.Reports body e) (hcode : e.code ≠ ApiError.conflictCode) :
      WriteFails r body read target (.write target (.api e))
  | garbled (h : r.Garbled body read) : WriteFails r body read target (.write target .undecodable)

theorem PassError.ofWrite_conflict {target : String} {e : ApiError}
    (h : e.code = ApiError.conflictCode) :
    ofWrite target (.api e) = .conflict target (.api e) := by
  rw [ofWrite, if_pos h]

theorem PassError.ofWrite_refused {target : String} {e : ApiError}
    (h : e.code ≠ ApiError.conflictCode) : ofWrite target (.api e) = .write target (.api e) := by
  rw [ofWrite, if_neg h]

theorem Response.writeFails_iff {α : Type} {r : Response} {body : String}
    {read : Json → Except Fault α} {target : String} {error : PassError} :
    r.WriteFails body read target error ↔
      ∃ cause, r.Fails body read cause ∧ PassError.ofWrite target cause = error := by
  constructor
  · rintro (⟨h, hcode⟩ | ⟨h, hcode⟩ | h)
    · exact ⟨_, .reported h, PassError.ofWrite_conflict hcode⟩
    · exact ⟨_, .reported h, PassError.ofWrite_refused hcode⟩
    · exact ⟨_, .garbled h, rfl⟩
  · rintro ⟨cause, h | h, rfl⟩
    case reported e =>
      by_cases hcode : e.code = ApiError.conflictCode
      · rw [PassError.ofWrite_conflict hcode]
        exact .conflict h hcode
      · rw [PassError.ofWrite_refused hcode]
        exact .refused h hcode
    case garbled => exact .garbled h

theorem PassError.retryable_ofWrite (target : String) (cause : Cause) :
    (ofWrite target cause).retryable = true := by
  unfold ofWrite
  split
  · split <;> rfl
  · rfl

/-- No failed call makes a pass fail for good. -/
theorem StoreCall.retryable_failure (call : StoreCall) (cause : Cause) :
    (call.failure cause).retryable = true := by
  unfold failure
  split
  · exact PassError.retryable_ofWrite call.target cause
  · rfl

/-! ## Store calls -/

namespace Remote

/-- What a store call comes to when the cluster answers its request in this way. -/
def outcome (r : Response) (call : StoreCall) : Except PassError call.Answer :=
  (exchange (fun _ => r) call).2

theorem outcome_eq {r : Response} {call : StoreCall} {request : Request}
    (h : Request.ofCall call = .ok request) :
    outcome r call = (r.answer call).mapError call.failure := by
  simp only [outcome, exchange, h]

/-- The outcome of a call is told exactly: which results it can have, and with which failures it can
end, each of which may go away by itself. -/
structure Classified {β : Type} (result : Except PassError β) (succeeds : β → Prop)
    (fails : PassError → Prop) : Prop where
  ok_iff : ∀ b, result = .ok b ↔ succeeds b
  error_iff : ∀ error, result = .error error ↔ fails error
  retryable : ∀ error, fails error → error.retryable = true

/-- An outcome is classified with the answer behind it. -/
theorem Classified.of_answer {r : Response} {call : StoreCall} {request : Request}
    {succeeds : call.Answer → Prop} {causes : Cause → Prop} {fails : PassError → Prop}
    (hrequest : Request.ofCall call = .ok request)
    (hok : ∀ a, r.answer call = .ok a ↔ succeeds a)
    (herror : ∀ cause, r.answer call = .error cause ↔ causes cause)
    (hfails : ∀ error, fails error ↔ ∃ cause, causes cause ∧ call.failure cause = error) :
    Classified (outcome r call) succeeds fails where
  ok_iff a := by
    rw [outcome_eq hrequest, mapError_eq_ok, hok]
  error_iff error := by
    simp only [outcome_eq hrequest, mapError_eq_error, herror, hfails]
  retryable error h := by
    obtain ⟨cause, -, rfl⟩ := (hfails error).1 h
    exact call.retryable_failure cause

section Calls

variable {r : Response} {body : String}

theorem classified_getPolicy (hbody : r.body.read = .ok body) {name : String} (h : UrlSafe name) :
    Classified (outcome r (.getPolicy name)) (r.Finds body Policy.ofJson) fun error =>
      ∃ cause, r.FindFails body Policy.ofJson cause ∧
        .read ("NodeLabelPolicy " ++ name) cause = error :=
  .of_answer (Request.ofCall_getPolicy h) (fun _ => Response.document?_eq_ok_iff hbody)
    (fun _ => Response.document?_eq_error_iff hbody) fun _ => Iff.rfl

theorem classified_listNodes (hbody : r.body.read = .ok body) :
    Classified (outcome r .listNodes) (r.Delivers body (Document.items Node.ofJson)) fun error =>
      ∃ cause, r.Fails body (Document.items Node.ofJson) cause ∧ .read "nodes" cause = error :=
  have hrequest : Request.ofCall .listNodes = .ok ⟨.get, Request.nodesPath ++ "?", none⟩ := by rfl
  .of_answer hrequest (fun _ => Response.document_eq_ok_iff hbody)
    (fun _ => Response.document_eq_error_iff hbody) fun _ => Iff.rfl

theorem classified_updateNode (hbody : r.body.read = .ok body) {n : Node} (h : UrlSafe n.name) :
    Classified (outcome r (.updateNode n)) (r.Delivers body Node.ofJson)
      (r.WriteFails body Node.ofJson ("node " ++ n.name)) :=
  .of_answer (Request.ofCall_updateNode h) (fun _ => Response.document_eq_ok_iff hbody)
    (fun _ => Response.document_eq_error_iff hbody) fun _ => Response.writeFails_iff

theorem classified_updatePolicy (hbody : r.body.read = .ok body) {p : Policy}
    (h : UrlSafe p.name) :
    Classified (outcome r (.updatePolicy p)) (r.Delivers body Policy.ofJson)
      (r.WriteFails body Policy.ofJson ("NodeLabelPolicy " ++ p.name)) :=
  .of_answer (Request.ofCall_updatePolicy h) (fun _ => Response.document_eq_ok_iff hbody)
    (fun _ => Response.document_eq_error_iff hbody) fun _ => Response.writeFails_iff

theorem classified_updateStatus (hbody : r.body.read = .ok body) {name : String}
    (h : UrlSafe name) (status : PolicyStatus) :
    Classified (outcome r (.updateStatus name status))
      (fun _ => ∃ p, r.Delivers body Policy.ofJson p)
      (r.WriteFails body Policy.ofJson ("NodeLabelPolicy " ++ name ++ " status")) := by
  refine .of_answer (Request.ofCall_updateStatus h status) (fun _ => ?_) (fun cause => ?_)
    fun _ => Response.writeFails_iff
  · simp only [Response.answer, ← Response.document_eq_ok_iff hbody]
    cases r.document Policy.ofJson <;> simp
  · rw [← Response.document_eq_error_iff hbody, Response.answer]
    cases r.document Policy.ofJson <;> simp

/-- What every store call makes of an answer with a text. Which error an answer with an error status
reports, its text decides, and only where this describes none, the status. There is no policy
exactly if the reason of the error is that none was found; a write is a conflict exactly if the code
of the error is the one for it, and it succeeds exactly if the answer is no error and has the
document of such an object. All other answers are failures that name what was read or written. -/
theorem answers_classified (hbody : r.body.read = .ok body) :
    (∀ name, UrlSafe name →
      Classified (outcome r (.getPolicy name)) (r.Finds body Policy.ofJson) fun error =>
        ∃ cause, r.FindFails body Policy.ofJson cause ∧
          .read ("NodeLabelPolicy " ++ name) cause = error) ∧
    (Classified (outcome r .listNodes) (r.Delivers body (Document.items Node.ofJson)) fun error =>
      ∃ cause, r.Fails body (Document.items Node.ofJson) cause ∧ .read "nodes" cause = error) ∧
    (∀ n : Node, UrlSafe n.name →
      Classified (outcome r (.updateNode n)) (r.Delivers body Node.ofJson)
        (r.WriteFails body Node.ofJson ("node " ++ n.name))) ∧
    (∀ p : Policy, UrlSafe p.name →
      Classified (outcome r (.updatePolicy p)) (r.Delivers body Policy.ofJson)
        (r.WriteFails body Policy.ofJson ("NodeLabelPolicy " ++ p.name))) ∧
    (∀ name, UrlSafe name → ∀ status,
      Classified (outcome r (.updateStatus name status))
        (fun _ => ∃ p, r.Delivers body Policy.ofJson p)
        (r.WriteFails body Policy.ofJson ("NodeLabelPolicy " ++ name ++ " status"))) ∧
    ∀ e, r.Reports body e →
      Document.Denotes ApiError.ofJson body e ∨
        (∀ e', ¬ Document.Denotes ApiError.ofJson body e') ∧ e.code.toNat = r.status ∧
          e.reason = "Failed to parse error data" :=
  ⟨fun _ h => classified_getPolicy hbody h, classified_listNodes hbody,
    fun _ h => classified_updateNode hbody h, fun _ h => classified_updatePolicy hbody h,
    fun _ h => classified_updateStatus hbody h, fun _ h => h.described_or⟩

end Calls

/-- An error of a conflict, for the reason that there is no such object. -/
def overtakenByDeletion : ApiError where
  status := "Failure"
  message := "the object was deleted in between"
  reason := ApiError.notFoundReason
  code := ApiError.conflictCode

/-- An answer that describes this error, under a third status. -/
def overtakenAnswer : Response :=
  .reply .compact 503 overtakenByDeletion.toJson

/-- Neither the code nor the reason of an error need be what its status says. -/
theorem answers_classified_overtaken :
    outcome overtakenAnswer (.getPolicy "web") = .ok none ∧
      outcome overtakenAnswer .listNodes = .error (.read "nodes" (.api overtakenByDeletion)) ∧
      outcome overtakenAnswer (.updateStatus "web" {}) =
        .error (.conflict "NodeLabelPolicy web status" (.api overtakenByDeletion)) := by
  have hbody : overtakenAnswer.body.read = .ok overtakenByDeletion.toJson.text := rfl
  have hreports : overtakenAnswer.Reports overtakenByDeletion.toJson.text overtakenByDeletion := by
    refine .described ⟨by decide, by decide⟩ ?_
    rw [Document.Denotes, Json.read?_text overtakenByDeletion.isLegible_toJson, Option.map_some,
      overtakenByDeletion.ofJson_toJson]
  obtain ⟨hget, hlist, -, -, hstatus, -⟩ := answers_classified hbody
  exact ⟨((hget "web" (by decide)).ok_iff none).2 (.absent hreports rfl),
    (hlist.error_iff _).2 ⟨_, .reported hreports, rfl⟩,
    ((hstatus "web" (by decide) {}).error_iff _).2 (.conflict hreports rfl)⟩

end Remote

end FleetLabels
