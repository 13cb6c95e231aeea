import FleetLabels.Proofs.Retry
import FleetLabels.Proofs.Versioned.Alone

/-!
# A policy does not wake itself

A pass of a policy is due when the change mark of its record is a new one. Every pass that gets
through writes a status with a new time, and so writes the record whose changes it is woken by. It
comes to an end only because the mark leaves out what the passes keep rewriting.

The stores that this is said of are `RecordStore`s. Any call to them may fail, a status write may
change the status of a record and its version and nothing else, and a record that is replaced by
itself with other finalizers keeps its identity, its generation and its time of deletion. Over such
a store the mark of a live record changes once at most in a whole run of passes, whatever becomes of
each of them: when a record without the finalizer gets it. A pass that finds the finalizer does not
write the record at all.

The store with versions is one of these, and any of them stays one behind a gate.

## Main results

* `RecordStore.spares_reconcile` — a pass that finds the finalizer leaves the mark as it is.
* `RecordStore.course_reconcile`, `RecordStore.course_passes` — the mark in the course of one pass,
  and of a run of passes.
* `RecordStore.mark_changes_once` — the mark after every call of a run.
-/

namespace FleetLabels

variable {α σ τ : Type}

/-! ## The states of a run -/

namespace Pass

/-- The states of a store after each call of a program. -/
def trail (handler : Handler σ) : Pass α → σ → List σ
  | .done _, _ => []
  | .ask call next, s =>
      match handler call s with
      | (.ok answer, s) => s :: (next answer).trail handler s
      | (.error _, s) => [s]

/-- The states after each call of consecutive passes of a policy, aborted ones among them. -/
def trailOfPasses (handler : Handler σ) (name : String) : List PassSettings → σ → List σ
  | [], _ => []
  | settings :: rest, s =>
      (reconcile settings name).trail handler s ++
        trailOfPasses handler name rest ((reconcile settings name).run handler s).2

/-- The state after consecutive passes of a policy. -/
def afterPasses (handler : Handler σ) (name : String) (passes : List PassSettings) (s : σ) : σ :=
  passes.foldl (fun s settings => ((reconcile settings name).run handler s).2) s

/-! ## What a program spares -/

/-- Whatever the program is answered, it takes no state out of a set. -/
def Spares (handler : Handler σ) (I : σ → Prop) (p : Pass α) : Prop :=
  ∀ s, I s → (∀ t ∈ p.trail handler s, I t) ∧ I (p.run handler s).2

namespace Spares

variable {handler : Handler σ} {I : σ → Prop}

theorem done (r : Except PassError α) : (Pass.done r).Spares handler I :=
  fun _ hs => ⟨fun _ ht => (nomatch ht), hs⟩

theorem ask {call : StoreCall} {next : call.Answer → Pass α}
    (hcall : ∀ s, I s → I (handler call s).2) (hnext : ∀ answer, (next answer).Spares handler I) :
    (Pass.ask call next).Spares handler I := by
  intro s hs
  have hafter := hcall s hs
  simp only [trail, run]
  rcases hanswer : handler call s with ⟨e | answer, s'⟩
  · rw [hanswer] at hafter
    exact ⟨List.forall_mem_singleton.2 hafter, hafter⟩
  · rw [hanswer] at hafter
    obtain ⟨htrail, hend⟩ := hnext answer s' hafter
    exact ⟨List.forall_mem_cons.2 ⟨hafter, htrail⟩, hend⟩

theorem writeAll_bind (hwrite : ∀ w s, I s → I (handler (.updateNode w) s).2) (writes : List Node)
    {f : Unit → Pass α} (hf : (f ()).Spares handler I) :
    ((writeAll writes).bind f).Spares handler I := by
  induction writes with
  | nil => exact hf
  | cons w rest ih => exact ask (hwrite w) fun _ => ih

end Spares

end Pass

/-! ## Stores of records -/

/-- A record without its status and its version. -/
def Policy.withoutStatus (p : Policy) : Policy :=
  { p with metadata := { p.metadata with resourceVersion := none }, status := none }

/-- What becomes of a record that is replaced by itself with other finalizers. -/
structure Policy.Refinalized (r : Policy) (finalizers : List String) (stored : Policy) : Prop where
  name : stored.name = r.name
  uid : stored.metadata.uid = r.metadata.uid
  generation : stored.metadata.generation = r.metadata.generation
  deletion : stored.metadata.deletionTimestamp = r.metadata.deletionTimestamp
  finalizers : stored.finalizers = finalizers

/-- Whether a call may write records. -/
def StoreCall.writesRecords : StoreCall → Bool
  | .getPolicy _ | .listNodes | .updateNode _ => false
  | .updatePolicy _ | .updateStatus .. => true

/-- A store that keeps live records of policies. Nothing is said about which calls succeed, nor
about what else the store does with nodes and records. -/
structure RecordStore (σ : Type) where
  handler : Pass.Handler σ
  /-- The record of a name, if there is one. -/
  record? : σ → String → Option Policy
  /-- A look-up that succeeds shows the record. -/
  reads : ∀ {s name found}, (handler (.getPolicy name) s).1 = .ok found → found = record? s name
  /-- No call but the two writes of records changes one. -/
  spares : ∀ {call : StoreCall}, call.writesRecords = false →
    ∀ s name, record? (handler call s).2 name = record? s name
  /-- A status write changes nothing of a record but its status and its version. -/
  status : ∀ {s name r}, record? s name = some r → r.isDeleting = false → ∀ policy status,
    ∃ stored, record? (handler (.updateStatus policy status) s).2 name = some stored ∧
      stored.withoutStatus = r.withoutStatus
  /-- A record that is to get other finalizers stays as it is, or gets them. -/
  replaces : ∀ {s r}, record? s r.name = some r → r.isDeleting = false → ∀ finalizers,
    ∃ stored,
      record? (handler (.updatePolicy (r.withFinalizers finalizers)) s).2 r.name = some stored ∧
        (stored = r ∨ r.Refinalized finalizers stored)

/-- The store that stamps versions keeps records. -/
def VersionedFleet.recordStore (supply : VersionSupply) : RecordStore VersionedFleet where
  handler := handler supply
  record? s name := s.policies.get? name
  reads h := (Except.ok.inj h).symm
  spares := by
    intro call hcall s name
    unfold handler
    split
    next answer s' hserve =>
      cases call with
      | getPolicy name => cases hserve; rfl
      | listNodes => cases hserve; rfl
      | updateNode w =>
          obtain ⟨-, rfl, -⟩ := serve_updateNode hserve
          rfl
      | updatePolicy p => cases hcall
      | updateStatus policy status => cases hcall
    next => rfl
  status := by
    intro s name r hr hlive policy status
    unfold handler
    split
    next answer s' hserve =>
      obtain ⟨p, hp, rfl⟩ := serve_updateStatus hserve
      show ∃ stored, (s.putPolicy _ p).policies.get? name = some stored ∧ _
      rw [get?_putPolicy]
      split
      next hname =>
        obtain rfl : p = r := by
          rw [hname, s.keyed policy p hp, hp] at hr
          exact Option.some.inj hr
        rw [hlive]
        exact ⟨_, rfl, rfl⟩
      next => exact ⟨r, hr, rfl⟩
    next => exact ⟨r, hr, rfl⟩
  replaces := by
    intro s r hr hlive finalizers
    unfold handler
    split
    next answer s' hserve =>
      obtain ⟨-, rfl⟩ := serve_updatePolicy hserve
      have hlive' : (r.withFinalizers finalizers).isDeleting = false := hlive
      show ∃ stored, (s.putPolicy _ _).policies.get? r.name = some stored ∧ _
      have hname : r.name = (r.withFinalizers finalizers).name := rfl
      rw [get?_putPolicy, if_pos hname, hlive']
      exact ⟨_, rfl, .inr ⟨rfl, rfl, rfl, rfl, rfl⟩⟩
    next => exact ⟨r, hr, .inl rfl⟩

/-- The mark of a record once it has got the finalizer. -/
def Policy.ChangeMark.tracked (m : ChangeMark) : ChangeMark :=
  { m with finalizers := m.finalizers ++ [finalizer] }

namespace RecordStore

/-- The store behind a gate that may turn calls down. -/
def gated (store : RecordStore τ) (gate : Gate σ) : RecordStore (σ × τ) where
  handler call := fun (s, t) =>
    match gate call s with
    | (some e, s) => (.error e, s, t)
    | (none, s) => ((store.handler call t).1, s, (store.handler call t).2)
  record? st name := store.record? st.2 name
  reads := by
    intro (s, t) name found h
    simp only at h
    split at h
    · cases h
    · exact store.reads h
  spares := by
    intro call hcall (s, t) name
    simp only
    split
    · rfl
    · exact store.spares hcall t name
  status := by
    intro (s, t) name r hr hlive policy status
    simp only
    split
    · exact ⟨r, hr, rfl⟩
    · exact store.status hr hlive policy status
  replaces := by
    intro (s, t) r hr hlive finalizers
    simp only
    split
    · exact ⟨r, hr, .inl rfl⟩
    · exact store.replaces hr hlive finalizers

/-! ## The mark of a record -/

variable (store : RecordStore σ) {s : σ} {name : String} {m m' : Policy.ChangeMark}

/-- The change mark of the record of a name, if there is one. -/
def mark? (s : σ) (name : String) : Option Policy.ChangeMark :=
  (store.record? s name).map Policy.changeMark

/-- The record stands under its own name and has the mark. -/
def Bears (name : String) (m : Policy.ChangeMark) (s : σ) : Prop :=
  ∃ r, store.record? s name = some r ∧ r.name = name ∧ r.changeMark = m

/-- The mark in the course of a run, by the states after each call and by the last state: it stays,
or it turns into another one and stays that. -/
inductive Course (name : String) (m m' : Policy.ChangeMark) : List σ → σ → Prop where
  | steady {trail : List σ} {last : σ} (htrail : ∀ t ∈ trail, store.Bears name m t)
      (hlast : store.Bears name m last) : Course name m m' trail last
  | turned {before after : List σ} {last : σ} (hbefore : ∀ t ∈ before, store.Bears name m t)
      (hafter : ∀ t ∈ after, store.Bears name m' t) (hlast : store.Bears name m' last) :
      Course name m m' (before ++ after) last

variable {store}

theorem Bears.mark? (h : store.Bears name m s) : store.mark? s name = some m := by
  obtain ⟨r, hr, -, rfl⟩ := h
  rw [RecordStore.mark?, hr]
  rfl

/-- A course ends with one of the two marks. -/
theorem Course.last {trail : List σ} {last : σ} (h : store.Course name m m' trail last) :
    store.Bears name m last ∨ store.Bears name m' last := by
  cases h with
  | steady _ hlast => exact .inl hlast
  | turned _ _ hlast => exact .inr hlast

/-- The mark may have turned before the first call. -/
theorem Course.of_turned {trail : List σ} {last : σ} (htrail : ∀ t ∈ trail, store.Bears name m' t)
    (hlast : store.Bears name m' last) : store.Course name m m' trail last := by
  show store.Course name m m' ([] ++ trail) last
  exact .turned (fun _ ht => nomatch ht) htrail hlast

/-- A call before the course that leaves the mark as it is. -/
theorem Course.cons {trail : List σ} {last : σ} (hs : store.Bears name m s)
    (h : store.Course name m m' trail last) : store.Course name m m' (s :: trail) last := by
  cases h with
  | steady htrail hlast => exact .steady (List.forall_mem_cons.2 ⟨hs, htrail⟩) hlast
  | turned hbefore hafter hlast =>
      rw [← List.cons_append]
      exact .turned (List.forall_mem_cons.2 ⟨hs, hbefore⟩) hafter hlast

/-- The course of one run after another: the second one starts with what the first one ended
with. -/
theorem Course.append {trail rest : List σ} {last : σ} (h : store.Course name m m' trail s)
    (hsteady : store.Bears name m s → store.Course name m m' rest last)
    (hturned : store.Bears name m' s →
      (∀ t ∈ rest, store.Bears name m' t) ∧ store.Bears name m' last) :
    store.Course name m m' (trail ++ rest) last := by
  cases h with
  | steady htrail hlast =>
      cases hsteady hlast with
      | steady hrest hlast' => exact .steady (List.forall_mem_append.2 ⟨htrail, hrest⟩) hlast'
      | turned hbefore hafter hlast' =>
          rw [← List.append_assoc]
          exact .turned (List.forall_mem_append.2 ⟨htrail, hbefore⟩) hafter hlast'
  | turned hbefore hafter hlast =>
      obtain ⟨hrest, hlast'⟩ := hturned hlast
      rw [List.append_assoc]
      exact .turned hbefore (List.forall_mem_append.2 ⟨hafter, hrest⟩) hlast'

/-- A call that replaces no record leaves the mark of a live one as it is. -/
theorem Bears.call (h : store.Bears name m s) (hlive : m.isDeleting = false) {call : StoreCall}
    (hcall : ∀ p, call ≠ .updatePolicy p) : store.Bears name m (store.handler call s).2 := by
  obtain ⟨r, hr, hname, rfl⟩ := h
  have hspared : call.writesRecords = false →
      store.Bears name r.changeMark (store.handler call s).2 := fun hcall =>
    ⟨r, (store.spares hcall s name).trans hr, hname, rfl⟩
  cases call with
  | getPolicy name => exact hspared rfl
  | listNodes => exact hspared rfl
  | updateNode w => exact hspared rfl
  | updatePolicy p => exact absurd rfl (hcall p)
  | updateStatus policy status =>
      obtain ⟨stored, hstored, hsame⟩ := store.status hr hlive policy status
      refine ⟨stored, hstored, ?_, ?_⟩
      · rw [← hname]
        show stored.withoutStatus.name = r.withoutStatus.name
        rw [hsame]
      · show stored.withoutStatus.changeMark = r.withoutStatus.changeMark
        rw [hsame]

/-! ## The mark in the course of a pass -/

/-- The work of a live policy leaves the mark as it is, whatever fleet is listed and whichever
record the work is for. -/
theorem spares_apply (hlive : m.isDeleting = false) (settings : PassSettings) (p : Policy) :
    (Pass.apply settings p).Spares store.handler (store.Bears name m) := by
  have hcall : ∀ {call : StoreCall}, (∀ q, call ≠ .updatePolicy q) → ∀ s,
      store.Bears name m s → store.Bears name m (store.handler call s).2 :=
    fun hother s hs => hs.call hlive hother
  rw [Pass.apply_eq]
  refine .ask (hcall fun q => nofun) fun nodes => ?_
  show ((Pass.ofExcept (select nodes p.spec.strategy settings.draws)).bind _).Spares _ _
  cases select nodes p.spec.strategy settings.draws with
  | error e => exact .done _
  | ok selected =>
      show ((Pass.writeAll (Pass.applyWrites p nodes selected)).bind _).Spares _ _
      exact .writeAll_bind (fun w => hcall fun q => nofun) _
        (.ask (hcall fun q => nofun) fun _ => .done _)

/-- A record that has been replaced by itself with the finalizer has the mark that goes with it, or
is as it was. -/
theorem bears_track {r : Policy} (hr : store.record? s name = some r) (hname : r.name = name)
    (hlive : r.isDeleting = false) :
    let after := (store.handler (.updatePolicy r.track) s).2
    store.Bears name r.changeMark after ∨ store.Bears name r.track.changeMark after := by
  subst hname
  obtain ⟨stored, hstored, rfl | hfinalized⟩ :=
    store.replaces hr hlive (r.finalizers ++ [Policy.finalizer])
  · exact .inl ⟨stored, hstored, rfl, rfl⟩
  · refine .inr ⟨stored, hstored, hfinalized.name, ?_⟩
    have hdeletion : stored.isDeleting = r.isDeleting := by
      rw [Policy.isDeleting, hfinalized.deletion, Policy.isDeleting]
    rw [Policy.changeMark, hfinalized.uid, hfinalized.generation, hdeletion, hfinalized.finalizers]
    rfl

/-- A pass of a policy whose record is there ends with its first call, or goes on with the
record. -/
theorem look_up (hs : store.Bears name m s) (hlive : m.isDeleting = false)
    (settings : PassSettings) :
    let pass := Pass.reconcile settings name
    ∃ s₁, store.Bears name m s₁ ∧
      (pass.trail store.handler s = [s₁] ∧ (pass.run store.handler s).2 = s₁ ∨
        ∃ r, store.record? s₁ name = some r ∧ r.name = name ∧ r.changeMark = m ∧
          let rest := Pass.proceed settings name (.of (some r))
          pass.trail store.handler s = s₁ :: rest.trail store.handler s₁ ∧
            (pass.run store.handler s).2 = (rest.run store.handler s₁).2) := by
  intro pass
  have hpass : pass = Pass.ask (.getPolicy name) fun record =>
      Pass.proceed settings name (.of record) := Pass.reconcile_eq settings name
  have hbears : store.Bears name m (store.handler (.getPolicy name) s).2 :=
    hs.call hlive fun q => nofun
  obtain ⟨r, hr, hname, hmark⟩ := hs
  have hread : StoreCall.writesRecords (.getPolicy name) = false := rfl
  have hr₁ := (store.spares hread s name).trans hr
  rw [hpass]
  simp only [Pass.trail, Pass.run]
  rcases hanswer : store.handler (.getPolicy name) s with ⟨e | found, s₁⟩
  · rw [hanswer] at hbears
    exact ⟨s₁, hbears, .inl ⟨rfl, rfl⟩⟩
  · rw [hanswer] at hbears hr₁
    obtain rfl : found = some r := (store.reads (congrArg Prod.fst hanswer)).trans hr
    exact ⟨s₁, hbears, .inr ⟨r, hr₁, hname, hmark, rfl, rfl⟩⟩

/-- A pass that finds the finalizer leaves the mark as it is. -/
theorem spares_reconcile (hlive : m.isDeleting = false) (htracked : Policy.finalizer ∈ m.finalizers)
    (settings : PassSettings) :
    (Pass.reconcile settings name).Spares store.handler (store.Bears name m) := by
  intro s hs
  obtain ⟨s₁, hs₁, ⟨htrail, hend⟩ | ⟨r, -, -, rfl, htrail, hend⟩⟩ := look_up hs hlive settings
  · rw [htrail, hend]
    exact ⟨List.forall_mem_singleton.2 hs₁, hs₁⟩
  · have hstate : Policy.State.of (some r) = .tracked r :=
      Policy.State.of_eq_iff.2 ⟨rfl, hlive, r.hasFinalizer_iff.2 htracked⟩
    rw [hstate] at htrail hend
    obtain ⟨hrest, hlast⟩ := spares_apply hlive settings r s₁ hs₁
    rw [htrail, hend]
    exact ⟨List.forall_mem_cons.2 ⟨hs₁, hrest⟩, hlast⟩

/-- A pass that does not find the finalizer may change the mark with its second call. -/
theorem course_reconcile (hs : store.Bears name m s) (hlive : m.isDeleting = false)
    (settings : PassSettings) :
    let pass := Pass.reconcile settings name
    store.Course name m m.tracked (pass.trail store.handler s) (pass.run store.handler s).2 := by
  intro pass
  by_cases htracked : Policy.finalizer ∈ m.finalizers
  · obtain ⟨htrail, hlast⟩ := spares_reconcile hlive htracked settings s hs
    exact .steady htrail hlast
  obtain ⟨s₁, hs₁, ⟨htrail, hend⟩ | ⟨r, hr, hname, rfl, htrail, hend⟩⟩ := look_up hs hlive settings
  · rw [htrail, hend]
    exact .steady (List.forall_mem_singleton.2 hs₁) hs₁
  have huntracked : r.hasFinalizer = false :=
    eq_false_of_ne_true fun h => htracked (r.hasFinalizer_iff.1 h)
  have hstate : Policy.State.of (some r) = .untracked r :=
    Policy.State.of_eq_iff.2 ⟨rfl, hlive, huntracked⟩
  have hproceed : Pass.proceed settings name (.untracked r) =
      Pass.ask (.updatePolicy r.track) (Pass.apply settings) := rfl
  have hwritten := bears_track hr hname hlive
  rw [hstate, hproceed] at htrail hend
  simp only [Pass.trail, Pass.run] at htrail hend
  rw [htrail, hend]
  refine .cons hs₁ ?_
  -- The mark with which the record comes out of the write is the one that it keeps.
  rcases hanswer : store.handler (.updatePolicy r.track) s₁ with ⟨e | stored, s₂⟩
  · rw [hanswer] at hwritten
    rcases hwritten with hsame | hnew
    · exact .steady (List.forall_mem_singleton.2 hsame) hsame
    · exact .of_turned (List.forall_mem_singleton.2 hnew) hnew
  · rw [hanswer] at hwritten
    rcases hwritten with hsame | hnew
    · obtain ⟨hrest, hlast⟩ := spares_apply hlive settings stored s₂ hsame
      exact .steady (List.forall_mem_cons.2 ⟨hsame, hrest⟩) hlast
    · obtain ⟨hrest, hlast⟩ := spares_apply (m := r.track.changeMark) hlive settings stored s₂ hnew
      exact .of_turned (List.forall_mem_cons.2 ⟨hnew, hrest⟩) hlast

/-! ## The mark in the course of many passes -/

/-- A run of passes that find the finalizer leaves the mark as it is. -/
theorem bears_of_passes (hs : store.Bears name m s) (hlive : m.isDeleting = false)
    (htracked : Policy.finalizer ∈ m.finalizers) (passes : List PassSettings) :
    (∀ t ∈ Pass.trailOfPasses store.handler name passes s, store.Bears name m t) ∧
      store.Bears name m (Pass.afterPasses store.handler name passes s) := by
  induction passes generalizing s with
  | nil => exact ⟨fun _ ht => (nomatch ht), hs⟩
  | cons settings rest ih =>
      obtain ⟨htrail, hlast⟩ := spares_reconcile hlive htracked settings s hs
      obtain ⟨hrest, hend⟩ := ih hlast
      exact ⟨List.forall_mem_append.2 ⟨htrail, hrest⟩, hend⟩

/-- The course of a run of passes. -/
theorem course_passes (hs : store.Bears name m s) (hlive : m.isDeleting = false)
    (passes : List PassSettings) :
    store.Course name m m.tracked (Pass.trailOfPasses store.handler name passes s)
      (Pass.afterPasses store.handler name passes s) := by
  induction passes generalizing s with
  | nil => exact .steady (fun _ ht => (nomatch ht)) hs
  | cons settings rest ih =>
      have htracked : Policy.finalizer ∈ m.tracked.finalizers :=
        List.mem_append_right _ (List.mem_singleton_self _)
      exact (course_reconcile hs hlive settings).append (fun hsame => ih hsame) fun hnew =>
        bears_of_passes hnew hlive htracked rest

end RecordStore

/-- **A policy does not wake itself.** Over a store of records, the record of a live policy has one
change mark at the start of a run of passes and after every call up to some call, and from that call
on the mark that comes with the finalizer; if the finalizer is there from the start, the mark is the
same after every call. In particular, a pass after any others that starts with the finalizer in
place leaves the mark as it was before. The mark is made of identity, generation, whether deletion
was requested, and finalizers, so that it is the same for any two records that agree in these. -/
theorem RecordStore.mark_changes_once (store : RecordStore σ) {s : σ} {p : Policy}
    (hstored : store.record? s p.name = some p) (hlive : p.isDeleting = false)
    (passes : List PassSettings) :
    (∃ before after,
        s :: Pass.trailOfPasses store.handler p.name passes s = before ++ after ∧
          (∀ t ∈ before, store.mark? t p.name = some p.changeMark) ∧
          (∀ t ∈ after, store.mark? t p.name = some p.track.changeMark) ∧
          (p.hasFinalizer = true → after = [])) ∧
      (let t := Pass.afterPasses store.handler p.name passes s
        ∃ r, store.record? t p.name = some r ∧
          (r.hasFinalizer = true → ∀ settings,
            let pass := Pass.reconcile settings p.name
            ∀ u ∈ pass.trail store.handler t ++ [(pass.run store.handler t).2],
              store.mark? u p.name = some r.changeMark)) ∧
      ∀ q r : Policy, q.changeMark = r.changeMark ↔
        q.metadata.uid = r.metadata.uid ∧ q.metadata.generation = r.metadata.generation ∧
          q.isDeleting = r.isDeleting ∧ q.finalizers = r.finalizers := by
  have hs : store.Bears p.name p.changeMark s := ⟨p, hstored, rfl, rfl⟩
  have hcourse := course_passes hs hlive passes
  refine ⟨?_, ?_, fun q r => Policy.ChangeMark.mk.injEq .. ▸ Iff.rfl⟩
  · have htracked : p.hasFinalizer = true →
        ∀ t ∈ Pass.trailOfPasses store.handler p.name passes s,
          store.Bears p.name p.changeMark t := fun h =>
      (bears_of_passes hs hlive (p.hasFinalizer_iff.1 h) passes).1
    generalize Pass.trailOfPasses store.handler p.name passes s = trail at hcourse htracked ⊢
    by_cases hsteady : ∀ t ∈ trail, store.Bears p.name p.changeMark t
    · exact ⟨_, [], (List.append_nil _).symm,
        List.forall_mem_cons.2 ⟨hs.mark?, fun t ht => (hsteady t ht).mark?⟩,
        fun _ ht => (nomatch ht), fun _ => rfl⟩
    · cases hcourse with
      | steady htrail _ => exact absurd htrail hsteady
      | @turned before after _ hbefore hafter _ =>
          exact ⟨s :: before, after, rfl,
            List.forall_mem_cons.2 ⟨hs.mark?, fun t ht => (hbefore t ht).mark?⟩,
            fun t ht => (hafter t ht).mark?, fun h => absurd (htracked h) hsteady⟩
  · have hlast : ∃ m, m.isDeleting = false ∧
        store.Bears p.name m (Pass.afterPasses store.handler p.name passes s) :=
      hcourse.last.elim (fun h => ⟨_, hlive, h⟩) fun h => ⟨_, hlive, h⟩
    obtain ⟨_, hlive', r, hr, hname, rfl⟩ := hlast
    refine ⟨r, hr, fun htracked settings => ?_⟩
    obtain ⟨htrail, hend⟩ := spares_reconcile hlive' (r.hasFinalizer_iff.1 htracked) settings _
      ⟨r, hr, hname, rfl⟩
    exact List.forall_mem_append.2 ⟨fun u hu => (htrail u hu).mark?,
      List.forall_mem_singleton.2 hend.mark?⟩

/-- A record as it was created, under its first version. -/
def createdRecord : Policy :=
  { Policy.plain "web" "oldest" 1 [("tier", "front")] with
    metadata := { name := some "web", uid := some "u-1", generation := some 1,
                  resourceVersion := some "1" } }

/-- A store with that record and one ready node, where the finalizer cannot be written at first, and
the node cannot be written once. -/
def createdStore : List FaultRule × VersionedFleet :=
  ([{ verb := "update_policy", times := some 1, cause := .lines },
    { verb := "update_node", times := some 1, cause := .lines }],
   (VersionedFleet.ofNodes [.plain "a" "True" []] (by decide)).putPolicy "1" createdRecord)

/-- The first pass is aborted at the finalizer, the second one writes it and is aborted at the node,
the third one gets through: of the ten calls the fourth one changes the mark. -/
theorem RecordStore.mark_changes_once_createdStore :
    let store := (VersionedFleet.recordStore .growing).gated FaultRule.gate
    let trail := Pass.trailOfPasses store.handler "web" [.plain, .plain, .plain] createdStore
    trail.map (store.mark? · "web") = List.replicate 3 (some createdRecord.changeMark) ++
        List.replicate 7 (some createdRecord.track.changeMark) ∧
      ∃ before after, createdStore :: trail = before ++ after ∧
        (∀ t ∈ before, store.mark? t "web" = some createdRecord.changeMark) ∧
        (∀ t ∈ after, store.mark? t "web" = some createdRecord.track.changeMark) := by
  intro store trail
  have hstored : store.record? createdStore createdRecord.name = some createdRecord := by
    decide +kernel
  obtain ⟨before, after, htrail, hbefore, hafter, -⟩ :=
    (mark_changes_once store hstored (by decide +kernel) [.plain, .plain, .plain]).1
  exact ⟨by decide +kernel, before, after, htrail, hbefore, hafter⟩

end FleetLabels
