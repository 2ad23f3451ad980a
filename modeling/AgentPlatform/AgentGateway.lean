import AgentPlatform.Sessions
import AgentPlatform.Transaction

/-!
# Submitting an execution

The embedding of `AgentExecutionSubmitter.submit` and of the database function
`platform.try_admit_execution` it calls. The gateway resolves a deployment to a
release and then, in one transaction, looks for an earlier submission of the
same message, asks for admission, creates the Session if it is missing and
writes the execution together with the Outbox record that requests it.

`submit` is a program whose requests are SQL statements, so that other
submissions can run between any two of them. The statements lock what
PostgreSQL locks: the admission function takes an advisory lock and its bucket
row, an insert takes the unique keys it enters – a second insert of such a key
waits until the first transaction ends.

Which release a deployment resolves to, the classification of a release, the
clock and the identifiers drawn by `uuid7()` are answers of the environment
and may change from one request to the next.
-/

/-! ## What is submitted and what is answered -/

/-- **`AgentExecutionSubmission`**, with the bounds its fields are validated
against. -/
structure AgentExecutionSubmission where
  tenantId : Uuid
  applicationId : Uuid
  environment : Environment
  sessionId : String
  subjectId : Option String := none
  memoryPolicyVersion : String := "policy:none"
  messages : List ChatMessage
  messageId : Option String := none
  channelContext : Option (List (String × String)) := none
  traceParent : Option String := none
  sessionId_length : 1 ≤ sessionId.length ∧ sessionId.length ≤ 512 := by decide
  subjectId_length : ∀ s ∈ subjectId, 1 ≤ s.length ∧ s.length ≤ 256 := by decide
  memoryPolicyVersion_length :
    1 ≤ memoryPolicyVersion.length ∧ memoryPolicyVersion.length ≤ 128 := by decide
  messages_length : 1 ≤ messages.length ∧ messages.length ≤ 200 := by decide
  messageId_length : ∀ m ∈ messageId, 1 ≤ m.length ∧ m.length ≤ 256 := by decide
  traceParent_length : ∀ t ∈ traceParent, 1 ≤ t.length ∧ t.length ≤ 128 := by decide

/-- `AgentExecutionAccepted`. -/
structure AgentExecutionAccepted where
  executionId : Uuid
  releaseId : Uuid
  sessionId : String
  deduplicated : Bool := false
  deriving DecidableEq, Repr

/-- `CapacityPolicy`. -/
structure CapacityPolicy where
  sustainedPerSecond : ℤ := 1000
  burstPerSecond : ℤ := 3000
  burstSeconds : ℤ := 60
  maxInFlight : ℤ := 10000

/-- **`_payload_hash`**: the hash of the canonical text of what a message id
stands for. The trace parent is not part of it. -/
def payloadHash (sha256 : String → String) (sub : AgentExecutionSubmission) : String :=
  sha256 (Json.dumps (.obj
    [("tenant_id", .str sub.tenantId.str),
     ("application_id", .str sub.applicationId.str),
     ("environment", .str sub.environment.str),
     ("session_id", .str sub.sessionId),
     ("subject_id", Json.ofOption sub.subjectId),
     ("memory_policy_version", .str sub.memoryPolicyVersion),
     ("messages", .arr (sub.messages.map Json.ofDict)),
     ("channel_context", (sub.channelContext.map Json.ofDict).getD .null)]))

/-! ## Admission -/

/-- What `platform.try_admit_execution` answers. -/
inductive Admission where
  | ALLOWED
  | INFLIGHT_SATURATED
  | RATE_EXCEEDED
  deriving DecidableEq, Repr

/-- The text of an admission decision. -/
def Admission.str : Admission → String
  | .ALLOWED => "ALLOWED"
  | .INFLIGHT_SATURATED => "INFLIGHT_SATURATED"
  | .RATE_EXCEEDED => "RATE_EXCEEDED"

/-- The tokens of the bucket after the time since the last refill. -/
def refillTokens (policy : CapacityPolicy) (clock : Timestamp) (bucket : AdmissionBucket) : ℚ :=
  min ((policy.burstPerSecond * policy.burstSeconds : ℤ) : ℚ)
    (bucket.tokens
      + max 0 (((clock - bucket.lastRefillAt : ℤ) : ℚ) / 1000000 * policy.sustainedPerSecond))

/-- **`platform.try_admit_execution`**: the in-flight cap is checked before
the token bucket. `clock` is read for the refill and `clock'` when the bucket
is written. -/
def tryAdmitExecution (policy : CapacityPolicy) (clock clock' : Timestamp)
    (db : ExecutionDb) : Except PyException (Admission × AdmissionBucket) :=
  if policy.maxInFlight < 1 ∨ policy.sustainedPerSecond < 1 ∨ policy.burstPerSecond < 1
      ∨ policy.burstSeconds < 1 then
    .error .sqlAlchemy
  else
    let tokens := refillTokens policy clock db.bucket
    let pendingCount := (db.executions.filter (fun e => e.status = .pending)).length
    if policy.maxInFlight ≤ pendingCount then
      .ok (.INFLIGHT_SATURATED, ⟨tokens, clock'⟩)
    else if tokens < 1 then
      .ok (.RATE_EXCEEDED, ⟨tokens, clock'⟩)
    else
      .ok (.ALLOWED, ⟨tokens - 1, clock'⟩)

/-- The settings `platform.try_admit_execution` accepts. -/
def CapacityPolicy.Positive (policy : CapacityPolicy) : Prop :=
  1 ≤ policy.maxInFlight ∧ 1 ≤ policy.sustainedPerSecond ∧ 1 ≤ policy.burstPerSecond
    ∧ 1 ≤ policy.burstSeconds

instance (policy : CapacityPolicy) : Decidable policy.Positive :=
  inferInstanceAs (Decidable (_ ∧ _))

/-- **The admission function raises for bad settings only**, and then the
database's error. -/
theorem tryAdmitExecution_error {policy : CapacityPolicy} {clock clock' : Timestamp}
    {db : ExecutionDb} {e : PyException}
    (h : tryAdmitExecution policy clock clock' db = .error e) :
    e = .sqlAlchemy ∧ ¬ policy.Positive := by
  unfold tryAdmitExecution at h
  split at h
  · rename_i hbad
    refine ⟨(Except.error.inj h).symm, fun hpos => ?_⟩
    unfold CapacityPolicy.Positive at hpos
    omega
  · simp only at h
    split at h
    · cases h
    · split at h <;> cases h

/-! ## The statements of a submission -/

/-- What a submission asks of the database and its surroundings. -/
inductive SubmitOp where
  /-- `DatabaseDeploymentRouteResolver.resolve`. -/
  | resolveDeployment (tenantId applicationId : Uuid) (environment : Environment)
      (sessionId : String)
  /-- `uuid7()`. -/
  | uuid7
  /-- The classification of a release. -/
  | selectRelease (tenantId releaseId : Uuid)
  /-- The execution of a message: its id and payload hash. -/
  | selectExecution (tenantId : Uuid) (messageId : String)
  | tryAdmit (policy : CapacityPolicy)
  /-- `INSERT INTO tenant.agent_session … ON CONFLICT DO NOTHING`. -/
  | insertSession (tenantId applicationId : Uuid) (sessionId : String)
  /-- `INSERT INTO tenant.agent_execution … ON CONFLICT DO NOTHING RETURNING id`. -/
  | insertExecution (row : AgentExecution)
  /-- `INSERT INTO platform.outbox_record`; `created_at` is set by the
  database. -/
  | insertOutbox (rec : OutboxRecord)

/-- The answers. -/
abbrev SubmitRes : SubmitOp → Type
  | .resolveDeployment .. => Option Uuid
  | .uuid7 => Uuid
  | .selectRelease .. => Option (Option DataClassification)
  | .selectExecution .. => Option (Uuid × String)
  | .tryAdmit _ => Admission
  | .insertSession .. => Unit
  | .insertExecution _ => Option Uuid
  | .insertOutbox _ => Unit

/-- What the environment supplies to an answer. -/
structure GatewayAnswer where
  deployment : Option Uuid := none
  release : Option (Option DataClassification) := none
  uuid : Uuid := 0
  now : Timestamp := 0
  clock : Timestamp := 0
  clock' : Timestamp := 0

/-- The row writes of a submission. -/
inductive GatewayWrite where
  | setBucket (bucket : AdmissionBucket)
  | insertSession (row : AgentSession)
  | insertExecution (row : AgentExecution)
  | insertOutbox (rec : OutboxRecord)

/-- What a submission locks. -/
inductive GatewayRow where
  /-- `pg_advisory_xact_lock(9042, 34)`. -/
  | admissionLock
  | bucket
  | session (tenantId : Uuid) (id : String)
  | executionId (tenantId id : Uuid)
  | executionMessage (tenantId : Uuid) (messageId : String)
  | outboxId (id : Uuid)
  | outboxMessage (tenantId : Uuid) (messageId : String)
  deriving DecidableEq

/-- The effect of a row write. -/
def GatewayWrite.apply : GatewayWrite → ExecutionDb → ExecutionDb
  | .setBucket bucket, db => { db with bucket := bucket }
  | .insertSession row, db =>
    { db with sessions := ExecutionDb.setEntry db.sessions row.tenantId row.id row }
  | .insertExecution row, db => { db with executions := db.executions ++ [row] }
  | .insertOutbox rec, db => { db with outbox := db.outbox ++ [rec] }

/-- The row a write is keyed by. -/
def GatewayWrite.key : GatewayWrite → GatewayRow
  | .setBucket _ => .bucket
  | .insertSession row => .session row.tenantId row.id
  | .insertExecution row => .executionMessage row.tenantId row.messageId
  | .insertOutbox rec => .outboxId rec.id

/-- The rows a statement locks. -/
def SubmitOp.locks : SubmitOp → List GatewayRow
  | .tryAdmit _ => [.admissionLock, .bucket]
  | .insertSession tenantId _ sessionId => [.session tenantId sessionId]
  | .insertExecution row =>
    [.executionMessage row.tenantId row.messageId, .executionId row.tenantId row.id]
  | .insertOutbox rec => [.outboxId rec.id, .outboxMessage rec.tenantId rec.messageId]
  | _ => []

/-- The rows `create_session_if_missing` writes. -/
def sessionWrites (db : ExecutionDb) (tenantId applicationId : Uuid) (sessionId : String) :
    List GatewayWrite :=
  match db.sessions tenantId sessionId with
  | some _ => []
  | none => [.insertSession ⟨tenantId, applicationId, sessionId, 0⟩]

/-- **One statement of a submission**, run on what its transaction sees. The
primary key of `agent_execution` and its foreign key to the Session are
enforced; a foreign key to a table that is not modelled can be violated only
as a fault. -/
def SubmitOp.exec (a : GatewayAnswer) : (op : SubmitOp) → ExecutionDb →
    Except PyException (SubmitRes op) × List GatewayWrite
  | .resolveDeployment .., _ => (.ok a.deployment, [])
  | .uuid7, _ => (.ok a.uuid, [])
  | .selectRelease .., _ => (.ok a.release, [])
  | .selectExecution tenantId messageId, db =>
    (.ok ((db.executionByMessage tenantId messageId).map (fun e => (e.id, e.payloadHash))), [])
  | .tryAdmit policy, db =>
    match tryAdmitExecution policy a.clock a.clock' db with
    | .error e => (.error e, [])
    | .ok (admission, bucket) => (.ok admission, [.setBucket bucket])
  | .insertSession tenantId applicationId sessionId, db =>
    (.ok (), sessionWrites db tenantId applicationId sessionId)
  | .insertExecution row, db =>
    if (db.executionByMessage row.tenantId row.messageId).isSome then
      (.ok none, [])
    else if db.executions.any (fun e => e.tenantId = row.tenantId ∧ e.id = row.id)
        ∨ (db.sessions row.tenantId row.sessionId).isNone then
      (.error .sqlAlchemy, [])
    else
      (.ok (some row.id), [.insertExecution row])
  | .insertOutbox rec, db =>
    if db.outboxFresh { rec with createdAt := a.now } then
      (.ok (), [.insertOutbox { rec with createdAt := a.now }])
    else
      (.error .sqlAlchemy, [])

/-- **The statements of a submission, as an engine.** -/
def gatewayEngine :
    Engine SubmitOp SubmitRes PyException GatewayAnswer ExecutionDb GatewayWrite GatewayRow
      Unit where
  apply := GatewayWrite.apply
  key := GatewayWrite.key
  locks := fun op _ _ _ => op.locks
  exec := fun a op _ db x => ((op.exec a db).1, (op.exec a db).2, x)
  dbError := .sqlAlchemy

/-! ## The program -/

/-- A program over the statements of a submission. -/
abbrev SubmitProg (α : Type) := Prog (TxOp SubmitOp) (TxRes SubmitRes) PyException α

/-- Issue one statement. -/
abbrev SubmitOp.ask (op : SubmitOp) : SubmitProg (SubmitRes op) := Engine.stmt op

/-- `_deduplicated_submission`. -/
def deduplicatedSubmission (sub : AgentExecutionSubmission) (messageId hash : String)
    (releaseId : Uuid) : SubmitProg (Option AgentExecutionAccepted) := do
  match ← SubmitOp.ask (.selectExecution sub.tenantId messageId) with
  | none => return none
  | some (id, storedHash) =>
    if storedHash ≠ hash then
      throw (.agentGateway "MESSAGE_PAYLOAD_CONFLICT")
    else
      return some
        { executionId := id, releaseId := releaseId, sessionId := sub.sessionId
          deduplicated := true }

/-- `create_session_if_missing`. -/
def createSessionIfMissing (tenantId applicationId : Uuid) (sessionId : String) :
    SubmitProg Unit :=
  if ¬ (1 ≤ sessionId.length ∧ sessionId.length ≤ maxSessionIdLength) then
    throw (.value "session_id length is out of range")
  else
    SubmitOp.ask (.insertSession tenantId applicationId sessionId)

/-- The execution row of a submission; the status takes its default. -/
def newExecution (sub : AgentExecutionSubmission) (releaseId id : Uuid)
    (messageId hash : String) : AgentExecution where
  tenantId := sub.tenantId
  id := id
  applicationId := sub.applicationId
  releaseId := releaseId
  environment := sub.environment
  sessionId := sub.sessionId
  subjectId := sub.subjectId
  memoryPolicyVersion := sub.memoryPolicyVersion
  messageId := messageId
  payloadHash := hash
  status := .pending
  knowledgeRevisionIds := []

/-- The Outbox record that requests an execution. -/
def requestedRecord (sub : AgentExecutionSubmission) (releaseId executionId outboxId : Uuid)
    (messageId : String) (classification : Option DataClassification) (now : Timestamp) :
    OutboxRecord where
  tenantId := sub.tenantId
  id := outboxId
  messageId := messageId
  source := gatewaySource
  eventType := .executionRequested
  partitionKey := sessionPartitionKey sub.tenantId sub.sessionId
  causationId := none
  correlationId := some executionId.str
  dataClassification := classification
  payload := .executionRequested
    { tenantId := sub.tenantId
      applicationId := sub.applicationId
      executionId := executionId
      releaseId := releaseId
      environment := sub.environment
      sessionId := sub.sessionId
      messages := sub.messages
      channelContext := sub.channelContext
      traceParent := sub.traceParent }
  status := .pending
  attempts := 0
  createdAt := now

/-- `submission.message_id or str(uuid7())`: an empty message id counts as
none. -/
def submissionMessageId (sub : AgentExecutionSubmission) : SubmitProg String :=
  match sub.messageId with
  | some m => if m = "" then drawn else return m
  | none => drawn
where
  drawn : SubmitProg String := do
    let id ← SubmitOp.ask .uuid7
    return Uuid.str id

/-- The execution and its Outbox record, unless a submission that committed
while this one waited has the message. -/
def insertRequested (sub : AgentExecutionSubmission) (messageId hash : String)
    (releaseId : Uuid) (classification : Option DataClassification) :
    SubmitProg AgentExecutionAccepted := do
  let id ← SubmitOp.ask .uuid7
  match ← SubmitOp.ask (.insertExecution (newExecution sub releaseId id messageId hash)) with
  | none =>
    match ← deduplicatedSubmission sub messageId hash releaseId with
    | some duplicate => return duplicate
    | none => throw (.agentGateway "MESSAGE_PAYLOAD_CONFLICT")
  | some executionId =>
    let outboxId ← SubmitOp.ask .uuid7
    let _ ← SubmitOp.ask
      (.insertOutbox (requestedRecord sub releaseId executionId outboxId messageId
        classification 0))
    return { executionId := executionId, releaseId := releaseId, sessionId := sub.sessionId }

/-- What follows an admission: the Session, the execution and its Outbox
record. -/
def enterExecution (sub : AgentExecutionSubmission) (messageId hash : String)
    (releaseId : Uuid) (classification : Option DataClassification) :
    SubmitProg AgentExecutionAccepted := do
  createSessionIfMissing sub.tenantId sub.applicationId sub.sessionId
  insertRequested sub messageId hash releaseId classification

/-- The transaction of a submission. -/
def submitTransaction (policy : CapacityPolicy) (sub : AgentExecutionSubmission)
    (messageId hash : String) (releaseId : Uuid) : SubmitProg AgentExecutionAccepted := do
  match ← SubmitOp.ask (.selectRelease sub.tenantId releaseId) with
  | none => throw (.agentGateway "DEPLOYMENT_NOT_FOUND")
  | some classification =>
    match ← deduplicatedSubmission sub messageId hash releaseId with
    | some duplicate => return duplicate
    | none =>
      let admission : Admission ← SubmitOp.ask (.tryAdmit policy)
      if admission ≠ Admission.ALLOWED then
        match ← deduplicatedSubmission sub messageId hash releaseId with
        | some duplicate => return duplicate
        | none => throw (.agentGateway admission.str)
      else
        enterExecution sub messageId hash releaseId classification

/-- **`AgentExecutionSubmitter.submit`.** -/
def submit (sha256 : String → String) (policy : CapacityPolicy)
    (sub : AgentExecutionSubmission) : SubmitProg AgentExecutionAccepted := do
  match ← SubmitOp.ask (.resolveDeployment sub.tenantId sub.applicationId sub.environment
      sub.sessionId) with
  | none => throw (.agentGateway "DEPLOYMENT_NOT_FOUND")
  | some releaseId =>
    let messageId ← submissionMessageId sub
    Engine.transaction
      (submitTransaction policy sub messageId (payloadHash sha256 sub) releaseId)
