import AgentPlatform.Sessions
import AgentPlatform.LLMGateway

/-!
# Handling an execution

The embedding of `AgentExecutionProcessor`: what a worker does with one
delivery of an execution-requested message. It checks the worker pool of the
tenant's storage, skips executions that have ended, acquires the lease of the
Session, resolves the release and the knowledge it refers to, asks the model
for a completion, renews the lease and commits. A model gateway error at any
point marks the execution as failed.

Each method of the processor that touches the database is one transaction, so
`handle` is a program whose requests are these transactions and the calls of
the injected services. Between two of its requests other workers run. A
request can fail: a transaction may raise before it did anything, or *after*
it took effect (`WorkerChoice.lost`), and a service may raise anything.
-/

/-- The fields of `ReleaseRoute` the processor reads. -/
structure ReleaseRoute where
  dataClassification : DataClassification
  knowledgeRefs : List String := []

/-- The fields of an `ExecutionEnvelope` the processor reads. -/
structure ExecutionEnvelope where
  messageId : String
  eventType : EventType
  data : OutboxPayload

/-- A delivery: the configuration of the worker that got it, and the
envelope. -/
structure Delivery where
  ownerId : String
  workerPool : String := "shared-workers"
  envelope : ExecutionEnvelope

/-! ## The transactions of the processor -/

/-- `UPDATE tenant.agent_execution … WHERE tenant_id=$1 AND id=$2`. -/
def updateExecution (f : AgentExecution → AgentExecution) (tenantId id : Uuid) : Tx Unit := do
  let db ← get
  set { db with executions := db.executions.map update }
where
  /-- What becomes of one row. -/
  update (e : AgentExecution) : AgentExecution :=
    if e.tenantId = tenantId ∧ e.id = id then f e else e

/-- `_execution_status`. -/
def executionStatus (tenantId : Uuid) (messageId : String) : Tx (Option ExecutionStatus) := do
  let db ← get
  return (db.executionByMessage tenantId messageId).map (·.status)

/-- `_mark_failed`: only a pending execution fails. -/
def markFailed (tenantId id : Uuid) : Tx Unit :=
  updateExecution (fun e => if e.status = .pending then { e with status := .failed } else e)
    tenantId id

/-- The knowledge revisions an execution runs with. -/
def setKnowledgeRevisions (tenantId id : Uuid) (revisions : List String) : Tx Unit :=
  updateExecution (fun e => { e with knowledgeRevisionIds := revisions }) tenantId id

/-- The Outbox record of a completed execution. -/
def completedRecord (now : Timestamp) (ids : OutboxIds) (c : SessionCommit)
    (completed : ExecutionCompletedData) : OutboxRecord where
  tenantId := completed.tenantId
  id := ids.id
  messageId := ids.messageId.str
  source := workerSource
  eventType := .executionCompleted
  partitionKey := sessionPartitionKey completed.tenantId completed.sessionId
  causationId := some c.idempotencyKey
  correlationId := some completed.executionId.str
  dataClassification := c.dataClassification
  payload := .executionCompleted completed
  status := .pending
  attempts := 0
  createdAt := now

/-- **The commit of a worker**: the Session events, the status and the
completed record, in one transaction. -/
def commitExecution (now : Timestamp) (ids completedIds : OutboxIds) (c : SessionCommit)
    (completed : ExecutionCompletedData) : Tx Unit := do
  match ← commitSessionEvents now ids c with
  | none => return ()
  | some _ =>
    updateExecution (fun e => { e with status := .succeeded }) c.tenantId c.executionId
    insertOutboxRecord (completedRecord now completedIds c completed)

/-- **What an update of executions does.** -/
theorem updateExecution_ok {f : AgentExecution → AgentExecution} {t id : Uuid}
    {db db' : ExecutionDb} {u : Unit} (h : (updateExecution f t id).run db = .ok (u, db')) :
    db' = { db with executions := db.executions.map (updateExecution.update f t id) } := by
  obtain ⟨d, db₁, hget, hrest⟩ := Tx.bind_ok.mp h
  obtain ⟨rfl, rfl⟩ := Tx.get_ok.mp hget
  exact Tx.set_ok.mp hrest

/-- The database after a worker's commit that appended. -/
def committed (now : Timestamp) (ids completedIds : OutboxIds) (c : SessionCommit)
    (completed : ExecutionCompletedData) (session : AgentSession) (db : ExecutionDb) :
    ExecutionDb :=
  { appended now ids c session db with
    executions := db.executions.map
      (updateExecution.update (fun e => { e with status := .succeeded }) c.tenantId
        c.executionId)
    outbox := db.outbox ++ [committedRecord now ids c]
      ++ [completedRecord now completedIds c completed] }

/-- **What the commit of a worker did when it succeeded**: nothing, for an
execution that had succeeded before; or it appended, after all its checks. -/
theorem commitExecution_ok {now : Timestamp} {ids completedIds : OutboxIds}
    {c : SessionCommit} {completed : ExecutionCompletedData} {db db' : ExecutionDb} {u : Unit}
    (h : (commitExecution now ids completedIds c completed).run db = .ok (u, db')) :
    db' = db ∨ ∃ execution session,
      db.executionByMessage c.tenantId c.idempotencyKey = some execution
        ∧ execution.status ≠ .succeeded ∧ CommitChecks now c db ∧ c.events ≠ []
        ∧ db.sessions c.tenantId c.sessionId = some session
        ∧ session.version = c.expectedVersion
        ∧ db' = committed now ids completedIds c completed session db := by
  obtain ⟨r, db₁, hcommit, hrest⟩ := Tx.bind_ok.mp h
  obtain ⟨execution, hexec, ⟨rfl, rfl, -⟩ | ⟨rfl, hevents, hstatus, hchecks, session,
    hsession, hversion, rfl⟩⟩ := commitSessionEvents_ok hcommit
  · exact .inl (Tx.pure_ok.mp hrest).2.symm
  · obtain ⟨_, db₂, hupdate, hrest⟩ := Tx.bind_ok.mp hrest
    obtain rfl := updateExecution_ok hupdate
    obtain ⟨-, rfl⟩ := insertOutboxRecord_ok hrest
    exact .inr ⟨execution, session, hexec, hstatus, hchecks, hevents, hsession, hversion, rfl⟩

/-! ## The requests of the processor -/

/-- What the processor asks for. -/
inductive WorkerOp where
  /-- The worker pool of the tenant's storage profile. -/
  | resolveStorage (tenantId : Uuid)
  | executionStatus (tenantId : Uuid) (messageId : String)
  | acquire (tenantId : Uuid) (sessionId ownerId : String)
  | resolveRelease (tenantId releaseId : Uuid)
  | resolveKnowledge (tenantId : Uuid) (baseId : String) (environment : Environment)
      (sessionId : String)
  | setKnowledge (tenantId id : Uuid) (revisions : List String)
  /-- `AgentWorker.complete`. -/
  | complete (data : ExecutionRequestedData)
  | renew (tenantId : Uuid) (sessionId ownerId : String) (fencingToken : ℕ)
  /-- `current_traceparent()`. -/
  | traceParent
  | commit (c : SessionCommit) (completed : ExecutionCompletedData)
  | markFailed (tenantId id : Uuid)

/-- The answers. -/
abbrev WorkerRes : WorkerOp → Type
  | .resolveStorage _ => Option String
  | .executionStatus .. => Option ExecutionStatus
  | .acquire .. => LeaseGrant
  | .resolveRelease .. => Option ReleaseRoute
  | .resolveKnowledge .. => Option String
  | .setKnowledge .. => Unit
  | .complete _ => GatewayResult
  | .renew .. => Unit
  | .traceParent => Option String
  | .commit .. => Unit
  | .markFailed .. => Unit

/-- What the environment supplies to an answer. -/
structure WorkerAnswer where
  ttl : Timestamp := defaultLeaseTtl
  now : Timestamp := 0
  ids : OutboxIds := ⟨0, 0⟩
  completedIds : OutboxIds := ⟨0, 0⟩
  storage : Option String := none
  route : Option ReleaseRoute := none
  revision : Option String := none
  result : GatewayResult := ⟨"", false, []⟩
  traceParent : Option String := none

/-- **What the environment chooses for a request**: to serve it, to raise
instead of doing anything, or – for a transaction – to let it take effect and
raise. -/
inductive WorkerChoice where
  | serve (a : WorkerAnswer)
  | raise (e : PyException)
  | lost (a : WorkerAnswer) (e : PyException)

/-- A transaction under a choice. The database raises no model gateway error
of its own. -/
def performTx {α : Type} (c : WorkerChoice) (tx : WorkerAnswer → Tx α) (db : ExecutionDb) :
    Option (Except PyException α × ExecutionDb) :=
  match c with
  | .serve a =>
    match (tx a).run db with
    | .ok (r, db') => some (.ok r, db')
    | .error e => some (.error e, db)
  | .raise e => if e.isModelGatewayError then none else some (.error e, db)
  | .lost a e =>
    if e.isModelGatewayError then none
    else match (tx a).run db with
      | .ok (_, db') => some (.error e, db')
      | .error _ => none

/-- A call of a service under a choice: it may raise anything. -/
def performCall {α : Type} (c : WorkerChoice) (f : WorkerAnswer → α) (db : ExecutionDb) :
    Option (Except PyException α × ExecutionDb) :=
  match c with
  | .serve a => some (.ok (f a), db)
  | .raise e => some (.error e, db)
  | .lost .. => none

/-- **The handler of the processor's requests.** -/
def workerHandler (c : WorkerChoice) : (op : WorkerOp) → ExecutionDb →
    Option (Except PyException (WorkerRes op) × ExecutionDb)
  | .resolveStorage _, db => performCall c (·.storage) db
  | .executionStatus tenantId messageId, db =>
    performTx c (fun _ => executionStatus tenantId messageId) db
  | .acquire tenantId sessionId ownerId, db =>
    performTx c (fun a => acquire a.ttl a.now tenantId sessionId ownerId) db
  | .resolveRelease .., db => performCall c (·.route) db
  | .resolveKnowledge .., db => performCall c (·.revision) db
  | .setKnowledge tenantId id revisions, db =>
    performTx c (fun _ => setKnowledgeRevisions tenantId id revisions) db
  | .complete _, db => performCall c (·.result) db
  | .renew tenantId sessionId ownerId fencingToken, db =>
    performTx c (fun a => renew a.now tenantId sessionId ownerId fencingToken) db
  | .traceParent, db => performCall c (·.traceParent) db
  | .commit commit completed, db =>
    performTx c (fun a => commitExecution a.now a.ids a.completedIds commit completed) db
  | .markFailed tenantId id, db => performTx c (fun _ => markFailed tenantId id) db

/-! ## The program -/

/-- A program over the requests of the processor. -/
abbrev WorkerProg (α : Type) := Prog WorkerOp WorkerRes PyException α

/-- Issue one request. -/
abbrev WorkerOp.ask (op : WorkerOp) : WorkerProg (WorkerRes op) := Prog.perform op

/-- The knowledge revisions of a release, one per base; a base without a
deployment fails the execution. -/
def resolveKnowledgeAll (data : ExecutionRequestedData) : List String → WorkerProg (List String)
  | [] => return []
  | baseId :: rest => do
    match ← WorkerOp.ask (.resolveKnowledge data.tenantId baseId data.environment
        data.sessionId) with
    | none => throw (.modelGateway "KNOWLEDGE_DEPLOYMENT_NOT_FOUND")
    | some revision =>
      let revisions ← resolveKnowledgeAll data rest
      return revision :: revisions

/-- Resolve and record the knowledge of a route, if it refers to any. -/
def pinKnowledge (data : ExecutionRequestedData) (route : ReleaseRoute) :
    WorkerProg (List String) := do
  if route.knowledgeRefs.isEmpty then
    return []
  else
    let revisions ← resolveKnowledgeAll data route.knowledgeRefs
    let _ ← WorkerOp.ask (.setKnowledge data.tenantId data.executionId revisions)
    return revisions

/-- The two events of an execution: the last message and the reply. -/
def executionEvents (data : ExecutionRequestedData) (result : GatewayResult)
    (revisions : List String) : List SessionEvent :=
  [⟨"USER_MESSAGE", .obj [("content",
      .str (((data.messages.getLast?.getD []).lookup "content").getD ""))]⟩,
   ⟨"AGENT_REPLY", .obj
      [("model_alias", .str result.modelAlias),
       ("fallback_used", .bool result.fallbackUsed),
       ("completion", .obj result.completion),
       ("knowledge_revision_ids", .arr (revisions.map .str))]⟩]

/-- The arguments of the commit. -/
def executionCommit (d : Delivery) (data : ExecutionRequestedData) (route : ReleaseRoute)
    (grant : LeaseGrant) (result : GatewayResult) (revisions : List String) :
    SessionCommit where
  tenantId := data.tenantId
  sessionId := data.sessionId
  ownerId := d.ownerId
  fencingToken := grant.fencingToken
  expectedVersion := grant.sessionVersion
  executionId := data.executionId
  idempotencyKey := d.envelope.messageId
  events := executionEvents data result revisions
  dataClassification := some route.dataClassification

/-- The payload of the completed record. -/
def executionCompleted (data : ExecutionRequestedData) (result : GatewayResult)
    (traceParent : Option String) : ExecutionCompletedData where
  tenantId := data.tenantId
  executionId := data.executionId
  releaseId := data.releaseId
  sessionId := data.sessionId
  completion := result.completion
  channelContext := data.channelContext
  traceParent := traceParent

/-- What a worker does once it holds the lease. -/
def executeUnderLease (d : Delivery) (data : ExecutionRequestedData) (grant : LeaseGrant) :
    WorkerProg Unit := do
  match ← WorkerOp.ask (.resolveRelease data.tenantId data.releaseId) with
  | none => throw (.modelGateway "RELEASE_NOT_FOUND")
  | some route =>
    let revisions ← pinKnowledge data route
    let result ← WorkerOp.ask (.complete data)
    let _ ← WorkerOp.ask (.renew data.tenantId data.sessionId d.ownerId grant.fencingToken)
    let traceParent ← WorkerOp.ask .traceParent
    WorkerOp.ask (.commit (executionCommit d data route grant result revisions)
      (executionCompleted data result traceParent))

/-- **`AgentExecutionProcessor._handle`.** -/
def handleExecution (d : Delivery) (data : ExecutionRequestedData) : WorkerProg Unit := do
  let storage : Option String ← WorkerOp.ask (.resolveStorage data.tenantId)
  if storage.any (· ≠ d.workerPool) then
    throw (.modelGateway "STORAGE_WORKER_POOL_MISMATCH")
  else
    let status : Option ExecutionStatus ←
      WorkerOp.ask (.executionStatus data.tenantId d.envelope.messageId)
    if status = some .succeeded ∨ status = some .failed then
      return ()
    else
      let grant ← WorkerOp.ask (.acquire data.tenantId data.sessionId d.ownerId)
      executeUnderLease d data grant

/-- **`AgentExecutionProcessor.handle`**: a model gateway error marks the
execution as failed and is raised again. -/
def handle (d : Delivery) : WorkerProg Unit :=
  if d.envelope.eventType ≠ .executionRequested then
    throw (.value "unexpected agent worker event type")
  else
    match d.envelope.data with
    | .executionRequested data =>
      tryCatch (handleExecution d data) (fun e =>
        if e.isModelGatewayError then do
          let _ ← WorkerOp.ask (.markFailed data.tenantId data.executionId)
          throw e
        else throw e)
    | _ => throw (.value "ExecutionRequestedData")

/-! ## What the program can ask for -/

/-- The request is one that handling `data` under `d` makes; for a commit, its
arguments are those of the message. -/
def WorkerOp.Concerns (d : Delivery) (data : ExecutionRequestedData) : WorkerOp → Prop
  | .commit c completed =>
    c.tenantId = data.tenantId ∧ c.sessionId = data.sessionId
      ∧ c.executionId = data.executionId ∧ c.idempotencyKey = d.envelope.messageId
      ∧ completed.tenantId = data.tenantId ∧ completed.executionId = data.executionId
  | _ => True

section Issued

variable {d : Delivery} {data : ExecutionRequestedData}

theorem issues_ask {op : WorkerOp} (h : op.Concerns d data) :
    Prog.Issues (WorkerOp.Concerns d data) op.ask :=
  Prog.issues_perform h

theorem issues_resolveKnowledgeAll (refs : List String) :
    (resolveKnowledgeAll data refs).Issues (WorkerOp.Concerns d data) := by
  induction refs with
  | nil => trivial
  | cons baseId rest ih =>
    refine (issues_ask (by trivial)).bind (fun revision => ?_)
    cases revision with
    | none => trivial
    | some revision => exact ih.bind (fun _ => trivial)

theorem issues_pinKnowledge (route : ReleaseRoute) :
    (pinKnowledge data route).Issues (WorkerOp.Concerns d data) := by
  unfold pinKnowledge
  split
  · trivial
  · exact (issues_resolveKnowledgeAll _).bind
      (fun _ => (issues_ask (by trivial)).bind (fun _ => trivial))

theorem issues_executeUnderLease (grant : LeaseGrant) :
    (executeUnderLease d data grant).Issues (WorkerOp.Concerns d data) := by
  refine (issues_ask (by trivial)).bind (fun route => ?_)
  cases route with
  | none => trivial
  | some route =>
    refine (issues_pinKnowledge route).bind (fun revisions => ?_)
    refine (issues_ask (by trivial)).bind (fun result => ?_)
    refine (issues_ask (by trivial)).bind (fun _ => ?_)
    refine (issues_ask (by trivial)).bind (fun traceParent => ?_)
    exact issues_ask ⟨rfl, rfl, rfl, rfl, rfl, rfl⟩

theorem issues_handleExecution :
    (handleExecution d data).Issues (WorkerOp.Concerns d data) := by
  refine (issues_ask (by trivial)).bind (fun storage => ?_)
  split
  · trivial
  · refine (issues_ask (by trivial)).bind (fun status => ?_)
    split
    · trivial
    · exact (issues_ask (by trivial)).bind (fun grant => issues_executeUnderLease grant)

/-- **The requests of `handle`**: every commit it makes is for the execution
and the message it was handed. -/
theorem issues_handle (hdata : d.envelope.data = .executionRequested data) :
    (handle d).Issues (WorkerOp.Concerns d data) := by
  unfold handle
  split
  · trivial
  · rw [hdata]
    refine issues_handleExecution.tryCatch (fun e => ?_)
    split
    · exact (issues_ask (by trivial)).bind (fun _ => trivial)
    · trivial

end Issued
