import Mathlib
import AgentPlatform.ChannelInbound
import AgentPlatform.EnvelopeCodec
import AgentPlatform.OutboxDispatch
import AgentPlatform.Submission

/-!
# The envelopes of submissions

A submission stores its request as an Outbox record, whose payload is a `jsonb` column; the
dispatcher builds an envelope from the row, and a worker decodes the bytes that are
published. `envelope_round_trip` says that nothing is lost on the way: every record that any
number of submissions at once have stored is decoded to what one of them asked for.

What a `jsonb` column gives back for a document is a parameter, as is the ISO text of a
time. That the document is equal to the stored one is assumed where the record is read.
-/

/-- The name of a classification. -/
def DataClassification.str : DataClassification → String
  | .PUBLIC => "PUBLIC"
  | .INTERNAL => "INTERNAL"
  | .CONFIDENTIAL => "CONFIDENTIAL"
  | .RESTRICTED => "RESTRICTED"

/-! ## Payloads as documents -/

/-- An optional dictionary, absent as `null`. -/
def Json.ofOptionalDict (d : Option (List (String × String))) : Json :=
  (d.map Json.ofDict).getD .null

/-- **`model_dump`** of `ExecutionRequestedData`. -/
def ExecutionRequestedData.modelDump (d : ExecutionRequestedData) : List (String × Json) :=
  [("tenant_id", .str d.tenantId.str), ("application_id", .str d.applicationId.str),
    ("execution_id", .str d.executionId.str), ("release_id", .str d.releaseId.str),
    ("environment", .str d.environment.str), ("session_id", .str d.sessionId),
    ("messages", .arr (d.messages.map Json.ofDict)),
    ("channel_context", Json.ofOptionalDict d.channelContext),
    ("trace_parent", Json.ofOption d.traceParent)]

/-- **`model_dump`** of `ExecutionCompletedData`. -/
def ExecutionCompletedData.modelDump (d : ExecutionCompletedData) : List (String × Json) :=
  [("tenant_id", .str d.tenantId.str), ("execution_id", .str d.executionId.str),
    ("release_id", .str d.releaseId.str), ("session_id", .str d.sessionId),
    ("completion", .obj d.completion), ("channel_context", Json.ofOptionalDict d.channelContext),
    ("trace_parent", Json.ofOption d.traceParent)]

/-- The payload that `commit_session_events` writes. -/
def SessionEventsCommittedData.payload (d : SessionEventsCommittedData) : List (String × Json) :=
  [("tenant_id", .str d.tenantId.str), ("session_id", .str d.sessionId),
    ("execution_id", .str d.executionId.str), ("from_version", .num (toString d.fromVersion)),
    ("to_version", .num (toString d.toVersion)),
    ("event_kinds", .arr (d.eventKinds.map Json.str))]

/-- The document of a payload. -/
def OutboxPayload.document : OutboxPayload → Json
  | .executionRequested d => .obj d.modelDump
  | .executionCompleted d => .obj d.modelDump
  | .sessionEventsCommitted d => .obj d.payload
  | .other j => j

/-! ## Envelopes of rows -/

/-- `dict(row["payload"])`. -/
def rowData : Json → List (String × Json)
  | .obj fields => fields
  | _ => []

/-- The trace of a row: the `trace_parent` of its payload, if that is a string. -/
def rowTraceParent (payload : Json) : Option String :=
  Json.asStr ((rowData payload).lookup "trace_parent")

/-- **The envelope that `dispatch_pending` builds from a row**, where `jsonb` is what the
payload column gives back. -/
def OutboxRecord.dispatched (jsonb : Json → Json) (isoformat : Timestamp → String)
    (r : OutboxRecord) : ExecutionBus.ExecutionEnvelope where
  messageId := r.messageId
  source := r.source
  eventType := r.eventType.str
  partitionKey := r.partitionKey
  time := isoformat r.createdAt
  tenantId := r.tenantId.str
  dataSchema := r.eventType.str ++ ".schema.json"
  data := rowData (jsonb r.payload.document)
  causationId := r.causationId
  correlationId := r.correlationId
  dataClassification := r.dataClassification.map DataClassification.str
  traceParent := rowTraceParent (jsonb r.payload.document)

/-- The trace of a payload is the one of its document. -/
theorem rowTraceParent_document (payload : OutboxPayload) :
    rowTraceParent payload.document = payload.traceParent := by
  have hoption : ∀ o : Option String, Json.asStr (some (Json.ofOption o)) = o := by
    intro o
    cases o <;> rfl
  cases payload with
  | executionRequested d => exact hoption d.traceParent
  | executionCompleted d => exact hoption d.traceParent
  | sessionEventsCommitted d => rfl
  | other j => cases j <;> rfl

/-- Entries that are equal have one text. -/
theorem asStr_of_canon {v v' : Option Json} (h : v.map Json.canon = v'.map Json.canon) :
    Json.asStr v' = Json.asStr v := by
  have hstr : ∀ {u u' : Option Json} {s}, u.map Json.canon = u'.map Json.canon →
      u = some (.str s) → u' = some (.str s) := by
    intro u u' s hu hs
    rw [hs] at hu
    obtain ⟨j, hj, hcanon⟩ := Option.map_eq_some_iff.mp hu.symm
    rw [hj, Json.eq_str_of_canon hcanon.symm]
  have hiff : ∀ {u : Option Json} {s}, Json.asStr u = some s ↔ u = some (.str s) := by
    intro u s
    unfold Json.asStr
    split <;> simp_all
  refine Option.ext (fun s => ?_)
  rw [hiff, hiff]
  exact ⟨hstr h.symm, hstr h⟩

/-- Equal documents have one trace. -/
theorem rowTraceParent_same {j j' : Json} (h : j.Same j') :
    rowTraceParent j' = rowTraceParent j := by
  cases j with
  | obj fs =>
    obtain ⟨gs, rfl⟩ := h.obj
    exact asStr_of_canon (h.lookup "trace_parent")
  | _ =>
    cases j' with
    | obj gs => simp [Json.Same, Json.canon] at h
    | _ => rfl

/-! ## What submissions store -/

/-- The submissions of a run, and the classifications of the releases. -/
structure Submitted where
  calls : AgentExecutionSubmission → Prop
  classified : Uuid → Uuid → Option DataClassification → Prop

namespace Submitted

/-- **A record stores a submission of the run**, under its message and the classification of
its release. -/
def Stores (S : Submitted) (r : OutboxRecord) (sub : AgentExecutionSubmission) (m : String)
    (releaseId executionId : Uuid) (classification : Option DataClassification) : Prop :=
  S.calls sub ∧ sub.UsesMessage m ∧ S.classified sub.tenantId releaseId classification
    ∧ ∃ outboxId now, r = requestedRecord sub releaseId executionId outboxId m classification now

/-- The record stores some submission. -/
def StoresSome (S : Submitted) (r : OutboxRecord) : Prop :=
  ∃ sub m releaseId executionId classification,
    S.Stores r sub m releaseId executionId classification

/-- A request inserts only records of submissions. -/
def InsertsOnly (S : Submitted) : TxOp SubmitOp → Prop
  | .run (.insertOutbox r) => S.StoresSome r
  | _ => True

/-- An answer gives a release its classification. -/
def Answers (S : Submitted) : (op : TxOp SubmitOp) → Except PyException (TxRes SubmitRes op) → Prop
  | .run (.selectRelease tenantId releaseId), .ok (some classification) =>
    S.classified tenantId releaseId classification
  | _, _ => True

variable {S : Submitted} {sub : AgentExecutionSubmission} {α : Type}

/-- A program that inserts only records of submissions, and ends with `Q`. -/
abbrev Inserts (S : Submitted) (p : SubmitProg α) (Q : Except PyException α → Prop) : Prop :=
  p.Asks S.InsertsOnly S.Answers Q

/-- One request, and what follows its answer. -/
theorem inserts_then {op : TxOp SubmitOp} {f : TxRes SubmitRes op → SubmitProg α}
    (hop : S.InsertsOnly op) (hf : ∀ a, S.Answers op (.ok a) → S.Inserts (f a) (fun _ => True)) :
    S.Inserts (Engine.request op >>= f) (fun _ => True) :=
  Prog.Asks.bind (Prog.asks_perform hop (fun _ h => h)) hf (fun _ _ => trivial)

theorem inserts_deduplicated (m hash : String) (releaseId : Uuid) :
    S.Inserts (deduplicatedSubmission sub m hash releaseId) (fun _ => True) := by
  refine inserts_then trivial (fun found _ => ?_)
  cases found with
  | none => trivial
  | some x =>
    obtain ⟨id, storedHash⟩ := x
    dsimp only
    split_ifs <;> trivial

/-- What follows a look for a duplicate: it is answered, or the program goes on. -/
theorem inserts_unless_duplicate (m hash : String) (releaseId : Uuid)
    {p : SubmitProg AgentExecutionAccepted} (hp : S.Inserts p (fun _ => True)) :
    S.Inserts (do
      match ← deduplicatedSubmission sub m hash releaseId with
      | some duplicate => return duplicate
      | none => p) (fun _ => True) := by
  refine (inserts_deduplicated m hash releaseId).bind (fun found _ => ?_) (fun _ _ => trivial)
  cases found with
  | none => exact hp
  | some accepted => trivial

theorem inserts_insertRequested (hcall : S.calls sub) {m : String} (hm : sub.UsesMessage m)
    (hash : String) {releaseId : Uuid} {classification : Option DataClassification}
    (hclass : S.classified sub.tenantId releaseId classification) :
    S.Inserts (insertRequested sub m hash releaseId classification) (fun _ => True) := by
  refine inserts_then trivial (fun id _ => ?_)
  refine inserts_then trivial (fun inserted _ => ?_)
  cases inserted with
  | none => exact inserts_unless_duplicate m hash releaseId trivial
  | some executionId =>
    refine inserts_then trivial (fun outboxId _ => ?_)
    have hstores : S.StoresSome (requestedRecord sub releaseId executionId outboxId m
        classification 0) :=
      ⟨sub, m, releaseId, executionId, classification, hcall, hm, hclass, outboxId, 0, rfl⟩
    exact inserts_then hstores (fun _ _ => trivial)

theorem inserts_submitTransaction (hcall : S.calls sub) {m : String} (hm : sub.UsesMessage m)
    (policy : CapacityPolicy) (hash : String) (releaseId : Uuid) :
    S.Inserts (submitTransaction policy sub m hash releaseId) (fun _ => True) := by
  refine inserts_then trivial (fun found hfound => ?_)
  cases found with
  | none => trivial
  | some classification =>
    refine inserts_unless_duplicate m hash releaseId ?_
    refine inserts_then trivial (fun (admission : Admission) _ => ?_)
    split
    · exact inserts_unless_duplicate m hash releaseId trivial
    · refine Prog.Asks.bind (Q := fun _ => True) ?_
        (fun _ _ => inserts_insertRequested hcall hm hash hfound) (fun _ _ => trivial)
      unfold createSessionIfMissing
      split
      · trivial
      · exact Prog.asks_perform trivial (fun _ _ => trivial)

/-- The message id of a submission is its own, or drawn. -/
theorem inserts_messageId :
    S.Inserts (submissionMessageId sub) (fun r => ∀ m, r = .ok m → sub.UsesMessage m) := by
  unfold submissionMessageId
  split
  · rename_i m hsome
    have hne : m ≠ "" := by
      rintro rfl
      exact absurd (sub.messageId_length "" hsome).1 (by decide)
    rw [if_neg hne]
    intro m' h
    exact .inl (hsome.trans (congrArg some (Except.ok.inj h)))
  · rename_i hnone
    refine (Prog.asks_perform (Q := fun _ => True) trivial (fun _ _ => trivial)).bind
      (fun id _ => ?_) (fun e _ m h => nomatch h)
    intro m' h
    exact .inr ⟨hnone, id, (Except.ok.inj h).symm⟩

/-- **A submission of the run** inserts only its own records. -/
theorem inserts_submit (hcall : S.calls sub) (sha256 : String → String) (policy : CapacityPolicy) :
    S.Inserts (submit sha256 policy sub) (fun _ => True) := by
  refine inserts_then trivial (fun found _ => ?_)
  cases found with
  | none => trivial
  | some releaseId =>
    refine inserts_messageId.bind (fun m hm => ?_) (fun _ _ => trivial)
    refine inserts_then trivial (fun _ _ => ?_)
    refine Prog.Asks.bind (Q := fun _ => True) ?_ (fun accepted _ => ?_) (fun _ _ => trivial)
    · exact (inserts_submitTransaction hcall (hm m rfl) policy _ releaseId).tryCatch
        (fun _ h => h) (fun e _ => inserts_then trivial (fun _ _ => trivial))
    · exact inserts_then trivial (fun _ _ => trivial)

end Submitted

/-! ## Runs -/

namespace Submitted

variable {S : Submitted} {sha256 : String → String} {policy : CapacityPolicy}

/-- Every record that is written or waits for its commit stores a submission. -/
def AllStored (S : Submitted) (s : GatewayState) : Prop :=
  (∀ q ws, s.pending q = some ws → ∀ w ∈ ws, ∀ r, w = .insertOutbox r → S.StoresSome r)
    ∧ ∀ r ∈ s.committed.outbox, S.StoresSome r

/-- The time a record is inserted at is the database's. -/
theorem StoresSome.createdAt {r : OutboxRecord} (h : S.StoresSome r) (now : Timestamp) :
    S.StoresSome { r with createdAt := now } := by
  obtain ⟨sub, m, releaseId, executionId, classification, hcall, hm, hclass, outboxId, -, rfl⟩ := h
  exact ⟨sub, m, releaseId, executionId, classification, hcall, hm, hclass, outboxId, now, rfl⟩

theorem AllStored.close {s : GatewayState} (h : S.AllStored s) (pid : ℕ) :
    S.AllStored (Engine.close s pid) := by
  refine ⟨fun q ws hq => ?_, h.2⟩
  by_cases hqp : q = pid
  · subst hqp
    simp [Engine.close] at hq
  · simp only [Engine.close, Function.update_of_ne hqp] at hq
    exact h.1 q ws hq

/-- **A request stores submissions only**, when what it inserts does. -/
theorem AllStored.request {s s' : GatewayState} {pid : ℕ} {c : Choice GatewayAnswer}
    {op : TxOp SubmitOp} {r : Except PyException (TxRes SubmitRes op)} (h : S.AllStored s)
    (hop : S.InsertsOnly op) (hh : gatewayEngine.handler pid c op s = some (r, s')) :
    S.AllStored s' := by
  refine Engine.writes_of_handler (F := fun w => ∀ r, w = .insertOutbox r → S.StoresSome r)
    (C := fun db => ∀ r ∈ db.outbox, S.StoresSome r) ?_ ?_ h.1 h.2 hh
  · rintro o rfl a fr db x w hw rec rfl
    cases o with
    | insertOutbox rec' =>
      simp only [gatewayEngine, SubmitOp.exec] at hw
      split at hw
      · obtain rfl := GatewayWrite.insertOutbox.inj (List.mem_singleton.mp hw)
        exact StoresSome.createdAt hop a.now
      · cases hw
    | insertExecution row =>
      simp only [gatewayEngine, SubmitOp.exec] at hw
      split at hw
      · cases hw
      · split at hw
        · cases hw
        · cases List.mem_singleton.mp hw
    | tryAdmit policy =>
      simp only [gatewayEngine, SubmitOp.exec] at hw
      split at hw
      · cases hw
      · cases List.mem_singleton.mp hw
    | insertSession tenantId applicationId sessionId =>
      simp only [gatewayEngine, SubmitOp.exec, sessionWrites] at hw
      split at hw
      · cases hw
      · cases List.mem_singleton.mp hw
    | resolveDeployment t app env n => cases hw
    | uuid7 => cases hw
    | selectRelease t r => cases hw
    | selectExecution t n => cases hw
  · intro w db hw hdb
    cases w with
    | insertOutbox rec =>
      intro r' hr'
      rcases List.mem_append.mp hr' with hold | hnew
      · exact hdb r' hold
      · obtain rfl := List.mem_singleton.mp hnew
        exact hw r' rfl
    | insertExecution row => exact hdb
    | setBucket b => exact hdb
    | insertSession row => exact hdb

/-- The releases of a run have their classifications. -/
def Serves (S : Submitted) (_ : ℕ) (c : Choice GatewayAnswer) (op : TxOp SubmitOp)
    (_ : GatewayState) : Prop :=
  ∀ tenantId releaseId a classification, op = .run (.selectRelease tenantId releaseId) →
    c = .serve a → a.release = some classification →
    S.classified tenantId releaseId classification

theorem answers_of_handler {s s' : GatewayState} {pid : ℕ} {c : Choice GatewayAnswer}
    {op : TxOp SubmitOp} {r : Except PyException (TxRes SubmitRes op)}
    (hserves : S.Serves pid c op s) (hh : gatewayEngine.handler pid c op s = some (r, s')) :
    S.Answers op r := by
  cases op with
  | run o =>
    cases o with
    | selectRelease tenantId releaseId =>
      rcases gatewayEngine.run_cases hh with ⟨-, hr, -⟩ | ⟨a, hc, -, hr, -⟩
      · rw [hr]
        trivial
      · have hanswer : r = .ok a.release := hr
        rw [hanswer]
        cases hrelease : a.release with
        | none => trivial
        | some classification => exact hserves _ _ a classification rfl hc hrelease
    | _ => trivial
  | _ => trivial

/-- **The discipline of the records**: they store submissions of the run. -/
def discipline (S : Submitted) (sha256 : String → String) (policy : CapacityPolicy) :
    Pool.Discipline (submitters sha256 policy) gatewayStart (fun _ sub => S.calls sub) S.Serves
      (fun _ _ => True) where
  inv := S.AllStored
  unused _ _ := True
  rely _ _ _ := True
  post _ _ _ _ := True
  rely_refl _ _ := trivial
  rely_trans _ _ _ _ _ _ := trivial
  unused_rely _ _ _ _ _ := trivial
  start_ok := by
    rintro s ⟨now, rfl⟩
    refine ⟨⟨fun q ws hq => ?_, fun r hr => ?_⟩, fun _ => trivial⟩
    · cases hq
    · cases hr
  safe_body pid s sub hcall hinv _ := by
    refine Prog.Safe.mono (Prog.Asks.safe_keeping (F := S.AllStored) (fun a b _ hab => hab.1) ?_
      (inserts_submit hcall sha256 policy) hinv) (fun _ _ _ => trivial)
    rintro op hop a r b ha ⟨c, hserves, hh⟩
    have hb : S.AllStored b := ha.request hop hh
    exact ⟨⟨hb, fun _ _ => trivial⟩, hb, answers_of_handler hserves hh⟩
  safe_crash pid s h := ⟨h.close pid, fun _ _ => trivial⟩
  safe_env u s s' _ h he := by
    obtain rfl := Option.some.inj he
    exact ⟨h, fun _ => trivial⟩

/-- The runs of these submissions and releases. -/
abbrev Runs (S : Submitted) : SubmittersState → SubmittersLabel → Prop :=
  Pool.stepOk (fun _ sub => S.calls sub) S.Serves (fun _ _ => True)

/-- The execution of a record is stored. -/
theorem execution_of_stores {w : SubmittersState}
    (h : (submittersMachine sha256 policy).Reach S.Runs w) {r : OutboxRecord}
    (hr : r ∈ w.shared.committed.outbox) {sub : AgentExecutionSubmission} {m : String}
    {releaseId executionId : Uuid} {classification : Option DataClassification}
    (hstores : S.Stores r sub m releaseId executionId classification) :
    ∃ row ∈ w.shared.committed.executions, row.tenantId = sub.tenantId ∧ row.messageId = m
      ∧ row.id = executionId := by
  have hreach := reach_of_servesWell (h.mono (fun w l _ => by
    cases l with
    | act pid c => exact fun _ _ _ _ hfalse => hfalse.elim
    | _ => trivial) : (submittersMachine sha256 policy).Reach (servesWell (fun _ => False)) w)
  have hinv : Consistent False w.shared :=
    (Pool.reach_safe (submissionDiscipline False (fun _ => False) sha256 policy) hreach).inv
  obtain ⟨-, -, -, outboxId, now, rfl⟩ := hstores
  have hrequest : (sub.tenantId, m, executionId) ∈ w.shared.committed.requests :=
    List.mem_filterMap.mpr ⟨_, hr, rfl⟩
  rw [hinv.coherent.paired] at hrequest
  obtain ⟨row, hrow, heq⟩ := List.mem_map.mp hrequest
  obtain ⟨htenant, hrest⟩ := Prod.mk.inj heq
  obtain ⟨hmessage, hid⟩ := Prod.mk.inj hrest
  exact ⟨row, hrow, htenant, hmessage, hid⟩

end Submitted

/-! ## The round trip -/

/-- The data that a submission asks for. -/
def AgentExecutionSubmission.requestedData (sub : AgentExecutionSubmission)
    (releaseId executionId : Uuid) : ExecutionRequestedData where
  tenantId := sub.tenantId
  applicationId := sub.applicationId
  executionId := executionId
  releaseId := releaseId
  environment := sub.environment
  sessionId := sub.sessionId
  messages := sub.messages
  channelContext := sub.channelContext
  traceParent := sub.traceParent

/-- **An envelope carries a submission** that was entered under a message id. -/
structure Carries (e : ExecutionBus.ExecutionEnvelope) (sub : AgentExecutionSubmission)
    (m : String) (releaseId executionId : Uuid) (classification : Option DataClassification) :
    Prop where
  messageId : e.messageId = m
  tenantId : e.tenantId = sub.tenantId.str
  partitionKey : e.partitionKey = sub.tenantId.str ++ ":" ++ sub.sessionId
  data : (Json.obj (sub.requestedData releaseId executionId).modelDump).Same (.obj e.data)
  correlationId : e.correlationId = some executionId.str
  dataClassification : e.dataClassification = classification.map DataClassification.str
  traceParent : e.traceParent = sub.traceParent

/-- **Nothing is lost on the way**: an envelope is decoded to an equal one; and in every run
of any number of submissions, every stored record is decoded to what one of them asked for,
with the execution that is stored for it and the classification of its release. -/
theorem envelope_round_trip (loads : ByteArray → Except PyException Json) (repr : Json → String)
    (jsonb : Json → Json) (isoformat : Timestamp → String) (eventTopics : List (String × String))
    (S : Submitted) (sha256 : String → String) (policy : CapacityPolicy) :
    (∀ e : ExecutionBus.ExecutionEnvelope, ExecutionBus.ReadsBack loads (.obj e.toDict) →
        ∃ e', ExecutionBus.decode loads repr (some (ExecutionBus.publish eventTopics e).value)
          = .ok e' ∧ e.Same e')
      ∧ ∀ w, (submittersMachine sha256 policy).Reach S.Runs w →
        ∀ r ∈ w.shared.committed.outbox, ∃ sub m releaseId executionId classification,
          S.calls sub ∧ sub.UsesMessage m ∧ S.classified sub.tenantId releaseId classification
          ∧ (∃ row ∈ w.shared.committed.executions, row.tenantId = sub.tenantId
              ∧ row.messageId = m ∧ row.id = executionId)
          ∧ (r.payload.document.Same (jsonb r.payload.document) →
            ExecutionBus.ReadsBack loads (.obj (r.dispatched jsonb isoformat).toDict) →
            ∃ e', ExecutionBus.decode loads repr
                (some (ExecutionBus.publish eventTopics (r.dispatched jsonb isoformat)).value)
                = .ok e'
              ∧ Carries e' sub m releaseId executionId classification) := by
  refine ⟨fun e h => ExecutionBus.decode_publish repr eventTopics h, fun w h r hr => ?_⟩
  obtain ⟨sub, m, releaseId, executionId, classification, hstores⟩ :=
    (Pool.reach_safe (S.discipline sha256 policy) h).inv.2 r hr
  have hrow := Submitted.execution_of_stores h hr hstores
  obtain ⟨hcall, hm, hclass, outboxId, now, rfl⟩ := hstores
  refine ⟨sub, m, releaseId, executionId, classification, hcall, hm, hclass, hrow,
    fun hjsonb hreads => ?_⟩
  obtain ⟨e', hdecode, hsame⟩ := ExecutionBus.decode_publish repr eventTopics hreads
  refine ⟨e', hdecode, hsame.messageId, hsame.tenantId, hsame.partitionKey, ?_,
    hsame.correlationId, hsame.dataClassification, ?_⟩
  · obtain ⟨gs, hgs⟩ := hjsonb.obj
    have hdata := hsame.data
    rw [OutboxRecord.dispatched, hgs] at hdata
    rw [hgs] at hjsonb
    exact hjsonb.trans hdata
  · exact hsame.traceParent.trans ((rowTraceParent_same hjsonb).trans
      (rowTraceParent_document _))

/-! ### A submission with a trace -/

/-- A submission that belongs to a trace. -/
def tracedGreeting : AgentExecutionSubmission :=
  { greeting with
    traceParent := some "00-1-2-01"
    traceParent_length := by decide }

/-- Submissions of that message and trace, of internal releases. -/
def tracedSubmitted : Submitted where
  calls sub := sub.messageId = some "m" ∧ sub.traceParent = some "00-1-2-01"
  classified _ _ classification := classification = some .INTERNAL

/-- A reader that knows one document. -/
def readsOne (j : Json) (text : ByteArray) : Except PyException Json :=
  if text = j.dumps.toUTF8 then .ok j else .error (.value "Expecting value")

/-- The steps of the submission: its identifiers are 100 and 101. -/
def tracedRun : List SubmittersLabel :=
  .spawn tracedGreeting :: (List.replicate 8 (.act 0 (answering 100))
    ++ List.replicate 3 (.act 0 (answering 101)))
where
  answering (uuid : Uuid) : Choice GatewayAnswer :=
    .serve { deployment := some 7, release := some (some .INTERNAL), uuid := uuid }

/-- A test of `tracedSubmitted.Runs`. -/
def tracedTest (_ : SubmittersState) : SubmittersLabel → Bool
  | .spawn sub => sub.messageId = some "m" && sub.traceParent = some "00-1-2-01"
  | .act _ (.serve a) => a.release = some (some .INTERNAL)
  | _ => false

theorem traced_of_test (w : SubmittersState) (l : SubmittersLabel) (h : tracedTest w l = true) :
    tracedSubmitted.Runs w l := by
  cases l with
  | spawn sub =>
    obtain ⟨hmessage, htrace⟩ := (Bool.and_eq_true _ _).mp h
    exact ⟨of_decide_eq_true hmessage, of_decide_eq_true htrace⟩
  | act pid c =>
    intro call op k _ tenantId releaseId a classification _ hc hrelease
    subst hc
    have hinternal : a.release = some (some .INTERNAL) := of_decide_eq_true h
    exact Option.some.inj (hrelease.symm.trans hinternal)
  | _ => cases h

/-- The stored record of the submission is decoded to what it asked for. -/
theorem envelope_round_trip_traced : ∃ (w : SubmittersState) (r : OutboxRecord)
    (e' : ExecutionBus.ExecutionEnvelope),
    (submittersMachine id {}).Reach tracedSubmitted.Runs w ∧ r ∈ w.shared.committed.outbox
      ∧ ExecutionBus.decode (readsOne (.obj (r.dispatched id (fun _ => "now")).toDict))
          (fun _ => "")
          (some (ExecutionBus.publish [] (r.dispatched id (fun _ => "now"))).value) = .ok e'
      ∧ e'.messageId = "m" ∧ e'.traceParent = some "00-1-2-01"
      ∧ e'.dataClassification = some "INTERNAL" := by
  have hrun : ((submittersMachine id {}).runIf tracedTest gatewayIdle tracedRun).map
      (fun w => !w.shared.committed.outbox.isEmpty) = some true := by
    decide +kernel
  obtain ⟨w, hw, htest⟩ := Machine.reach_of_runIf traced_of_test (gatewayIdle_init id {}) hrun
  obtain ⟨r, hr⟩ := List.isEmpty_eq_false_iff_exists_mem.mp (Bool.not_eq_true' _ ▸ htest)
  obtain ⟨sub, m, releaseId, executionId, classification, hcall, hm, hclass, -, hdecoded⟩ :=
    (envelope_round_trip (readsOne (.obj (r.dispatched id (fun _ => "now")).toDict)) (fun _ => "")
      id (fun _ => "now") [] tracedSubmitted id {}).2 w hw r hr
  obtain ⟨e', hdecode, hcarries⟩ := hdecoded (.refl _) ⟨_, if_pos rfl, .refl _⟩
  refine ⟨w, r, e', hw, hr, hdecode, ?_, hcarries.traceParent.trans hcall.2, ?_⟩
  · rcases hm with hown | ⟨hnone, -⟩
    · exact hcarries.messageId.trans (Option.some.inj (hown.symm.trans hcall.1))
    · rw [hcall.1] at hnone
      cases hnone
  · rw [hcarries.dataClassification, show classification = some .INTERNAL from hclass]
    rfl
