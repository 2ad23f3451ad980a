import AgentPlatform.ChannelInbound
import AgentPlatform.Submission

/-!
# The inbound ledger among concurrent events

`ingestions` is the system of any number of `ingest_verified` calls at once over
the tables of `channels/store.py` and the database of the gateway. Each
statement of the ledger is a transaction of its own – `ON CONFLICT DO NOTHING`
followed by the `SELECT` of the row that was there – and takes effect at once;
the submission runs statement by statement, as it does in `submitters`. A
connection can fail before a statement took effect or after it, a call can
crash at any point, channels are bound, disabled and enabled, and workers move
executions on.
-/

/-- A row of `tenant.channel_binding`. -/
structure ChannelBindingRow where
  tenantId : Uuid
  bindingId : Uuid
  channelType : ChannelType
  externalBotId : String
  applicationId : Uuid
  environment : Environment
  secretRef : String
  status : ChannelBindingStatus
  tenantId_lt : tenantId < 2 ^ 128
  bindingId_lt : bindingId < 2 ^ 128
  applicationId_lt : applicationId < 2 ^ 128
  externalBotId_ne : externalBotId ≠ ""

/-- `_binding_from_row`. -/
def ChannelBindingRow.binding (row : ChannelBindingRow) : ChannelBinding where
  tenantId := row.tenantId.str
  bindingId := row.bindingId.str
  channelType := row.channelType
  externalBotId := row.externalBotId
  applicationId := row.applicationId.str
  environment := row.environment
  secretRef := row.secretRef
  status := row.status

/-- The primary key of `tenant.inbound_message`. -/
abbrev LedgerKey := Uuid × Uuid × String

/-- A row of `tenant.inbound_message`, without its key. -/
structure InboundRow where
  payloadHash : String
  externalUserId : String
  executionId : Option Uuid
  releaseId : Option Uuid
  status : InboundStatus
  occurredAt : Timestamp
  externalUserId_length : 1 ≤ externalUserId.length ∧ externalUserId.length ≤ 128

/-- A row of `tenant.inbound_conflict`. -/
structure ConflictRow where
  key : LedgerKey
  recordedHash : String
  receivedHash : String
  detectedAt : Timestamp
  deriving DecidableEq

/-- **The state of the inbound service**: the tables of the channels, the
database of the gateway, and what the submitter was called with so far. -/
structure InboundState where
  bindings : List ChannelBindingRow
  messages : LedgerKey → Option InboundRow
  conflicts : List ConflictRow
  gateway : GatewayState
  submitted : List AgentExecutionSubmission

/-! ## The statements of the store -/

/-- The key of a message, unless an identifier is no UUID. -/
def ledgerKey (tenantId bindingId messageKey : String) : Option LedgerKey :=
  (Uuid.parse tenantId).bind (fun t => (Uuid.parse bindingId).map (fun b => (t, b, messageKey)))

/-- The row `insert` enters; the database sets its time. -/
def InboundMessage.row (message : InboundMessage) (now : Timestamp) : InboundRow where
  payloadHash := message.payloadHash
  externalUserId := message.externalUserId
  executionId := message.executionId
  releaseId := message.releaseId
  status := message.status
  occurredAt := now
  externalUserId_length := message.externalUserId_length

/-- `_inbound_from_row`, of the row with the key of a message. -/
def inboundFromRow (message : InboundMessage) (key : LedgerKey) (row : InboundRow) :
    InboundMessage where
  tenantId := key.1.str
  bindingId := key.2.1.str
  messageKey := message.messageKey
  payloadHash := row.payloadHash
  externalUserId := row.externalUserId
  executionId := row.executionId
  releaseId := row.releaseId
  status := row.status
  occurredAt := row.occurredAt
  messageKey_length := message.messageKey_length
  externalUserId_length := row.externalUserId_length

/-- `DatabaseBindingStore.resolve`, under the status check of the registry. -/
def InboundState.resolve (s : InboundState) (tenantId : Uuid) (channelType externalBotId : String) :
    Option ChannelBindingRow :=
  s.bindings.find? (fun row => row.tenantId = tenantId ∧ row.channelType.str = channelType
    ∧ row.externalBotId = externalBotId ∧ row.status = .ACTIVE)

/-- Write a row of the ledger. -/
def InboundState.setMessage (s : InboundState) (key : LedgerKey) (row : InboundRow) :
    InboundState :=
  { s with messages := fun k => if k = key then some row else s.messages k }

/-- **A request of the service that is not one of its submission.** -/
def InboundOp.exec (now : Timestamp) (traceParent : Option String) : (op : InboundOp) →
    InboundState → Except PyException (InboundRes op) × InboundState
  | .resolveBinding tenantId channelType externalBotId, s =>
    match Uuid.parse tenantId with
    | none => (.error badlyFormedUuid, s)
    | some t => (.ok ((s.resolve t channelType externalBotId).map ChannelBindingRow.binding), s)
  | .now, s => (.ok now, s)
  | .insertMessage message, s =>
    match ledgerKey message.tenantId message.bindingId message.messageKey with
    | none => (.error badlyFormedUuid, s)
    | some key =>
      match s.messages key with
      | some row => (.ok (inboundFromRow message key row, false), s)
      | none =>
        (.ok (inboundFromRow message key (message.row now), true),
          s.setMessage key (message.row now))
  | .recordConflict conflict, s =>
    match ledgerKey conflict.tenantId conflict.bindingId conflict.messageKey with
    | none => (.error badlyFormedUuid, s)
    | some key =>
      (.ok (),
        { s with
          conflicts := s.conflicts
            ++ [⟨key, conflict.recordedHash, conflict.receivedHash, now⟩] })
  | .currentTraceparent, s => (.ok traceParent, s)
  | .submitter submission, s => (.ok (), { s with submitted := s.submitted ++ [submission] })
  | .gateway _, s => (.error .sqlAlchemy, s)
  | .attachExecution tenantId bindingId messageKey executionId releaseId, s =>
    match ledgerKey tenantId bindingId messageKey with
    | none => (.error badlyFormedUuid, s)
    | some key =>
      match s.messages key with
      | none => (.ok (), s)
      | some row =>
        (.ok (), s.setMessage key
          { row with
            executionId := some executionId
            releaseId := some releaseId })

/-- What the environment does with a request. -/
inductive InboundChoice where
  /-- It is answered; the clock and the trace context are read. -/
  | serve (now : Timestamp) (traceParent : Option String)
  /-- The connection fails before the statement takes effect. -/
  | fail
  /-- The connection fails after it. -/
  | lost (now : Timestamp)
  /-- A statement of the gateway is answered. -/
  | gateway (c : Choice GatewayAnswer)

/-- It is a statement of the store, so its connection can fail. -/
def InboundOp.isStatement : InboundOp → Bool
  | .resolveBinding .. | .insertMessage _ | .recordConflict _ | .attachExecution .. => true
  | _ => false

/-- How a request that is not one of the submission is answered. -/
def InboundOp.respond (c : InboundChoice) (op : InboundOp) (s : InboundState) :
    Option (Except PyException (InboundRes op) × InboundState) :=
  match c with
  | .serve t traceParent => some (op.exec t traceParent s)
  | .fail => if op.isStatement then some (.error .sqlAlchemy, s) else none
  | .lost t => if op.isStatement then some (.error .sqlAlchemy, (op.exec t none s).2) else none
  | .gateway _ => none

/-- **The handler of the inbound service.** -/
def inboundHandler (pid : ℕ) (c : InboundChoice) : (op : InboundOp) → InboundState →
    Option (Except PyException (InboundRes op) × InboundState)
  | .gateway op, s =>
    match c with
    | .gateway c => (gatewayEngine.handler pid c op s.gateway).map
        (fun x => (x.1, { s with gateway := x.2 }))
    | _ => none
  | op, s => op.respond c s

/-- **Inversion of the handler**, for a request that is not one of the
submission. -/
theorem inboundHandler_cases {pid : ℕ} {c : InboundChoice} {op : InboundOp}
    (hop : ∀ g, op ≠ .gateway g) {s s' : InboundState} {r : Except PyException (InboundRes op)}
    (h : inboundHandler pid c op s = some (r, s')) :
    (∃ now traceParent, c = .serve now traceParent ∧ r = (op.exec now traceParent s).1
        ∧ s' = (op.exec now traceParent s).2)
      ∨ (c = .fail ∧ r = .error .sqlAlchemy ∧ s' = s)
      ∨ ∃ now, c = .lost now ∧ r = .error .sqlAlchemy ∧ s' = (op.exec now none s).2 := by
  have hout : ∀ {x y : Except PyException (InboundRes op) × InboundState},
      some x = some y → y.1 = x.1 ∧ y.2 = x.2 := fun hxy => by
    rw [Option.some.inj hxy]
    exact ⟨rfl, rfl⟩
  have hrule : op.respond c s = some (r, s') := by
    cases op with
    | gateway g => exact absurd rfl (hop g)
    | _ => exact h
  cases c with
  | serve now traceParent => exact .inl ⟨now, traceParent, rfl, hout hrule⟩
  | fail =>
    simp only [InboundOp.respond] at hrule
    split at hrule
    · exact .inr (.inl ⟨rfl, hout hrule⟩)
    · cases hrule
  | lost now =>
    simp only [InboundOp.respond] at hrule
    split at hrule
    · exact .inr (.inr ⟨now, rfl, hout hrule⟩)
    · cases hrule
  | gateway g => cases hrule

/-! ## The system -/

/-- What others do to the tables. -/
inductive InboundEvent where
  /-- `DatabaseBindingStore.insert` of a new binding. -/
  | bind (row : ChannelBindingRow)
  /-- `DatabaseBindingStore.set_status`. -/
  | setStatus (tenantId bindingId : Uuid) (status : ChannelBindingStatus)
  /-- A worker moves an execution on. -/
  | execution (u : StatusUpdate)

/-- The route of a binding, unique in its table. -/
def ChannelBindingRow.routeKey (row : ChannelBindingRow) : Uuid × ChannelType × String :=
  (row.tenantId, row.channelType, row.externalBotId)

/-- The primary key of a binding. -/
def ChannelBindingRow.key (row : ChannelBindingRow) : Uuid × Uuid := (row.tenantId, row.bindingId)

/-- The effect of such an event. -/
def InboundEvent.apply : InboundEvent → InboundState → Option InboundState
  | .bind row, s =>
    if s.bindings.any (fun b => b.routeKey = row.routeKey ∨ b.key = row.key) then none
    else some { s with bindings := s.bindings ++ [row] }
  | .setStatus tenantId bindingId status, s => some
    { s with
      bindings := s.bindings.map (fun b =>
        if b.key = (tenantId, bindingId) then { b with status := status } else b) }
  | .execution u, s => some
    { s with
      gateway := { s.gateway with committed := setExecutionStatus u s.gateway.committed } }

/-- **A call of `ingest_verified`.** -/
structure InboundCall where
  tenantId : String
  event : ChannelEvent

/-- **Any number of events at once.** -/
def ingestions (sha256 uuid5 : String → String) (policy : CapacityPolicy) :
    Pool InboundOp InboundRes PyException InboundChoice InboundState InboundCall
      AgentExecutionAccepted InboundEvent where
  handler := inboundHandler
  body := fun call => ingestVerified sha256 uuid5 policy call.tenantId call.event
  abandon := fun pid s => { s with gateway := Engine.close s.gateway pid }
  env := InboundEvent.apply

/-- **The service starts** on an empty gateway, with bindings of its own and
perhaps a ledger from before scoped sessions, whose hashes did not cover the
scope. -/
structure InboundStart (sha256 : String → String) (s : InboundState) : Prop where
  gateway : gatewayStart s.gateway
  submitted : s.submitted = []
  routes : (s.bindings.map ChannelBindingRow.routeKey).Nodup
  keys : (s.bindings.map ChannelBindingRow.key).Nodup
  legacy : ∀ key row, s.messages key = some row →
    (∃ text, row.payloadHash = legacyInboundPayloadHash sha256 text row.externalUserId)
      ∧ (row.executionId.isSome ↔ row.releaseId.isSome) ∧ key.2.1 < 2 ^ 128
