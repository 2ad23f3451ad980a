import AgentPlatform.ExecutionStore
import AgentPlatform.Transaction

/-!
# Dispatching the Outbox

The embedding of `OutboxDispatcher`: in one transaction, the oldest pending
records of the Outbox that nobody else holds are selected and locked, and one
after the other they are published to the bus and marked as published. If a
publication fails the transaction is rolled back; what has been published
stays published, and the records will be published again.

Any number of dispatchers run at once. The bus is outside the database: the
external state of the engine is the list of what it has accepted, in order.
Business transactions append records to the Outbox; a record becomes visible
when its transaction commits, which is a step of the environment here.
-/

/-- An envelope of the execution bus. Its `time` is written in ISO format. -/
structure BusEnvelope where
  messageId : String
  source : String
  eventType : EventType
  partitionKey : String
  time : Timestamp
  tenantId : Uuid
  dataSchema : String
  data : OutboxPayload
  causationId : Option String
  correlationId : Option String
  dataClassification : Option DataClassification
  traceParent : Option String

/-- The trace a payload belongs to, when it names one. -/
def OutboxPayload.traceParent : OutboxPayload → Option String
  | .executionRequested data => data.traceParent
  | .executionCompleted data => data.traceParent
  | .sessionEventsCommitted _ => none
  | .other (.obj fields) => match fields.lookup "trace_parent" with
    | some (.str s) => some s
    | _ => none
  | .other _ => none

/-- The envelope of a record. -/
def OutboxRecord.envelope (r : OutboxRecord) : BusEnvelope where
  messageId := r.messageId
  source := r.source
  eventType := r.eventType
  partitionKey := r.partitionKey
  time := r.createdAt
  tenantId := r.tenantId
  dataSchema := r.eventType.str ++ ".schema.json"
  data := r.payload
  causationId := r.causationId
  correlationId := r.correlationId
  dataClassification := r.dataClassification
  traceParent := r.payload.traceParent

/-- The order `ORDER BY created_at, id`. -/
def recordLe (r r' : OutboxRecord) : Prop :=
  r.createdAt < r'.createdAt ∨ (r.createdAt = r'.createdAt ∧ r.id ≤ r'.id)

instance (r r' : OutboxRecord) : Decidable (recordLe r r') :=
  inferInstanceAs (Decidable (_ ∨ _))

/-- The pending records that are free, in order. -/
def freePending (free : Uuid → Bool) (outbox : List OutboxRecord) : List OutboxRecord :=
  ((outbox.filter (fun r => r.status = .pending)).insertionSort recordLe).filter
    (fun r => free r.id)

/-- The records that `LIMIT … FOR UPDATE SKIP LOCKED` claims: the oldest of
those that are free. -/
def claimPending (limit : ℕ) (free : Uuid → Bool) (outbox : List OutboxRecord) :
    List OutboxRecord :=
  (freePending free outbox).take limit

/-- Mark a pending record as published. -/
def setPublished (id : Uuid) (outbox : List OutboxRecord) : List OutboxRecord :=
  outbox.map (fun r => if r.id = id ∧ r.status = .pending
    then { r with status := .published, attempts := r.attempts + 1 } else r)

/-! ## Statements -/

/-- The requests of a dispatcher. -/
inductive DispatchOp where
  | selectPending (limit : ℕ)
  | publish (recordId : Uuid) (envelope : BusEnvelope)
  | markPublished (id : Uuid)

/-- What a request answers. -/
abbrev DispatchRes : DispatchOp → Type
  | .selectPending _ => List OutboxRecord
  | .publish .. => Unit
  | .markPublished _ => Unit

/-- What the bus makes of a publication: it accepts it, refuses it, or accepts
it while the publisher is told otherwise. -/
inductive DispatchAnswer where
  | accepted
  | refused (e : PyException)
  | lost (e : PyException)

/-- A publication: the record it was made for, and the envelope. -/
structure Publication where
  recordId : Uuid
  envelope : BusEnvelope

/-- What the bus makes of a publication. -/
def acceptPublication (p : Publication) (bus : List Publication) :
    DispatchAnswer → Except PyException Unit × List Publication
  | .accepted => (.ok (), bus ++ [p])
  | .refused e => (.error e, bus)
  | .lost e => (.error e, bus ++ [p])

/-- **The statements of a dispatcher.** A write marks the record it is keyed
by. -/
def outboxEngine :
    Engine DispatchOp DispatchRes PyException DispatchAnswer (List OutboxRecord) Uuid Uuid
      (List Publication) where
  apply := setPublished
  key := id
  locks := fun op free outbox _ => match op with
    | .selectPending limit => (claimPending limit free outbox).map OutboxRecord.id
    | .publish .. => []
    | .markPublished id => [id]
  exec := fun a op free outbox bus => match op with
    | .selectPending limit => (.ok (claimPending limit free outbox), [], bus)
    | .publish recordId envelope =>
      let (r, bus') := acceptPublication ⟨recordId, envelope⟩ bus a
      (r, [], bus')
    | .markPublished id => (.ok (), [id], bus)
  dbError := .sqlAlchemy

/-! ## The program -/

/-- A program of a dispatcher. -/
abbrev DispatchProg (α : Type) := Prog (TxOp DispatchOp) (TxRes DispatchRes) PyException α

/-- Publish the rows one by one, marking each. -/
def publishRows : List OutboxRecord → DispatchProg ℕ
  | [] => return 0
  | r :: rows => do
    let _ ← Engine.stmt (.publish r.id r.envelope)
    let _ ← Engine.stmt (.markPublished r.id)
    let published ← publishRows rows
    return published + 1

/-- **`dispatch_pending`.** -/
def dispatchPending (batchSize : ℕ) : DispatchProg ℕ :=
  Engine.transaction (do
    let rows ← Engine.stmt (.selectPending batchSize)
    publishRows rows)

/-- The state of Outbox and bus under dispatchers. -/
abbrev DispatchState := TxState (List OutboxRecord) Uuid Uuid (List Publication)

/-- A record may be inserted: it is pending, and `id` and
`(tenant_id, message_id)` are unique. -/
def insertable (r : OutboxRecord) (outbox : List OutboxRecord) : Bool :=
  r.status = .pending && r.attempts = 0
    && outbox.all (fun r' => r'.id ≠ r.id
      ∧ ¬ (r'.tenantId = r.tenantId ∧ r'.messageId = r.messageId))

/-- **Dispatchers at work**, called with any batch sizes, while business
transactions insert records. -/
def dispatchers :
    Pool (TxOp DispatchOp) (TxRes DispatchRes) PyException (Choice DispatchAnswer) DispatchState
      ℕ ℕ OutboxRecord where
  handler := outboxEngine.handler
  body := dispatchPending
  abandon := fun pid s => Engine.close s pid
  env := fun r s =>
    if insertable r s.committed then some { s with committed := s.committed ++ [r] } else none

/-- Nothing has been inserted or published. -/
def dispatchStart (s : DispatchState) : Prop := s = Engine.quiet [] []

/-- **The transition system of the dispatchers.** -/
def dispatchMachine := dispatchers.machine dispatchStart
