import AgentPlatform.Base64
import AgentPlatform.ExecutionStore
import AgentPlatform.Server

/-!
# Consuming the execution bus

The embedding of `KafkaExecutionConsumer`: one record at a time is fetched,
decoded and handed to the handler, and its offset is committed. A record that
fails is fetched again, until – if there is a dead-letter topic – it has failed
often enough to be published there and skipped.

The broker keeps the committed offset of each partition; the consumer keeps a
position, which fetching advances and `seek` moves back, and counts failures
per record. A restarted process resumes at the committed offsets and has
forgotten its counts. Requests to the broker may raise, and a publication or a
commit may raise after it took effect.

`history` is kept for the sake of the statements: what was handled, what
failed, and what was dead-lettered, in the order it happened.
-/

/-- A partition of a topic. -/
structure TopicPartition where
  topic : String
  partition : ℤ
  deriving DecidableEq, Repr

/-- A record as it is fetched. Its value may be null. -/
structure KafkaRecord where
  offset : ℕ
  value : Option (List UInt8)
  deriving DecidableEq, Repr

/-- **The consumer's construction.** `decode` reads an envelope from the bytes
of a record; `deadLetter` says whether there is a dead-letter producer. -/
structure KafkaExecutionConsumer (Envelope : Type) where
  maxDeliveryAttempts : ℕ
  maxDeliveryAttempts_pos : 1 ≤ maxDeliveryAttempts
  deadLetter : Bool
  decode : List UInt8 → Except PyException Envelope

/-- What a dead-letter message says. -/
structure DeadLetter where
  sourceTopic : String
  sourcePartition : ℤ
  sourceOffset : ℕ
  attempts : ℕ
  errorType : String
  payloadBase64 : String
  deriving DecidableEq, Repr

/-- The dead letter of a record. A null value has no bytes. -/
def deadLetterOf (tp : TopicPartition) (record : KafkaRecord) (attempts : ℕ)
    (errorType : String) : DeadLetter where
  sourceTopic := tp.topic
  sourcePartition := tp.partition
  sourceOffset := record.offset
  attempts := attempts
  errorType := errorType
  payloadBase64 := String.ofList (Base64.encode (record.value.getD []))

/-- What happened to a record. -/
inductive BusEvent where
  | handled (tp : TopicPartition) (offset : ℕ)
  | failed (tp : TopicPartition) (offset : ℕ)
  | deadLettered (letter : DeadLetter)
  deriving DecidableEq, Repr

/-- **The state of a consumer**: what the broker has committed, the memory of
the process, and the history. -/
structure ConsumerState where
  committed : TopicPartition → ℕ
  position : TopicPartition → ℕ
  failureAttempts : TopicPartition × ℕ → ℕ
  history : List BusEvent

/-! ## Requests -/

/-- The requests of `process_once`. -/
inductive ConsumerOp (Envelope : Type) where
  | getmany
  | handle (tp : TopicPartition) (offset : ℕ) (envelope : Envelope)
  | seek (tp : TopicPartition) (offset : ℕ)
  /-- One more failure of a record is counted; the answer is the new count. -/
  | countFailure (tp : TopicPartition) (offset : ℕ)
  | forgetFailures (tp : TopicPartition) (offset : ℕ)
  | publishDeadLetter (letter : DeadLetter)
  | commit (tp : TopicPartition) (offset : ℕ)

/-- What a request is answered with. -/
abbrev ConsumerRes {Envelope : Type} : ConsumerOp Envelope → Type
  | .getmany => List (TopicPartition × List KafkaRecord)
  | .handle .. => Unit
  | .seek .. => Unit
  | .countFailure .. => ℕ
  | .forgetFailures .. => Unit
  | .publishDeadLetter _ => Unit
  | .commit .. => Unit

/-- **What the environment chooses**: a fetch finds a record of a partition
between batches that are empty, or finds nothing; a request is done; it raises
without effect; it raises after it took effect. -/
inductive ConsumerChoice where
  | fetched (before : List TopicPartition) (found : Option (TopicPartition × ℕ))
      (after : List TopicPartition)
  | done
  | raised (e : PyException)
  | lost (e : PyException)

/-- The records of the partitions, by offset. Offsets need not be
consecutive. -/
abbrev KafkaLog := TopicPartition → ℕ → Option (Option (List UInt8))

/-- Batches without records. -/
def emptyBatches (tps : List TopicPartition) : List (TopicPartition × List KafkaRecord) :=
  tps.map (fun tp => (tp, []))

/-- A fetch: the first record of a partition at or after its position, which
moves past it. -/
def fetch (log : KafkaLog) (before : List TopicPartition) (found : Option (TopicPartition × ℕ))
    (after : List TopicPartition) (s : ConsumerState) :
    Option (List (TopicPartition × List KafkaRecord) × ConsumerState) :=
  match found with
  | none => some (emptyBatches before ++ emptyBatches after, s)
  | some (tp, offset) =>
    match log tp offset with
    | none => none
    | some value =>
      if s.position tp ≤ offset ∧ ∀ o < offset, s.position tp ≤ o → log tp o = none then
        some (emptyBatches before ++ (tp, [⟨offset, value⟩]) :: emptyBatches after,
          { s with position := Function.update s.position tp (offset + 1) })
      else none

/-- A request that takes effect, or not, and returns or raises. -/
def effect {α : Type} (answer : α) (s s' : ConsumerState) :
    ConsumerChoice → Option (Except PyException α × ConsumerState)
  | .done => some (.ok answer, s')
  | .raised e => some (.error e, s)
  | .lost e => some (.error e, s')
  | .fetched .. => none

/-- A request to the memory of the process. -/
def inMemory {α : Type} (answer : α) (s' : ConsumerState) :
    ConsumerChoice → Option (Except PyException α × ConsumerState)
  | .done => some (.ok answer, s')
  | _ => none

/-- What a request does under a choice. -/
def serveConsumer {Envelope : Type} (log : KafkaLog) (c : ConsumerChoice)
    (op : ConsumerOp Envelope) (s : ConsumerState) :
    Option (Except PyException (ConsumerRes op) × ConsumerState) :=
  match op with
  | .getmany => match c with
    | .fetched before found after =>
      (fetch log before found after s).map (fun x => (.ok x.1, x.2))
    | .raised e => some (.error e, s)
    | _ => none
  | .handle tp offset _ => match c with
    | .done => some (.ok (), { s with history := s.history ++ [.handled tp offset] })
    | .raised e => some (.error e, s)
    | _ => none
  | .seek tp offset =>
    inMemory () { s with position := Function.update s.position tp offset } c
  | .countFailure tp offset =>
    let attempts := s.failureAttempts (tp, offset) + 1
    inMemory attempts
      { s with
        failureAttempts := Function.update s.failureAttempts (tp, offset) attempts
        history := s.history ++ [.failed tp offset] } c
  | .forgetFailures tp offset =>
    inMemory ()
      { s with failureAttempts := Function.update s.failureAttempts (tp, offset) 0 } c
  | .publishDeadLetter letter =>
    effect () s { s with history := s.history ++ [.deadLettered letter] } c
  | .commit tp offset =>
    effect () s { s with committed := Function.update s.committed tp offset } c

/-! ## The program -/

section Program

variable {Envelope : Type} (k : KafkaExecutionConsumer Envelope)

/-- A program of the consumer. -/
abbrev ConsumerProg (Envelope α : Type) := Prog (ConsumerOp Envelope) ConsumerRes PyException α

/-- Issue a request. -/
def ConsumerOp.ask (op : ConsumerOp Envelope) : ConsumerProg Envelope (ConsumerRes op) :=
  Prog.perform op

/-- `_decode`, then the handler. -/
def deliver (tp : TopicPartition) (record : KafkaRecord) : ConsumerProg Envelope Unit :=
  match record.value with
  | none => throw (.value "execution bus record value must not be null")
  | some bytes => match k.decode bytes with
    | .error e => throw e
    | .ok envelope => ConsumerOp.ask (.handle tp record.offset envelope)

/-- `_commit`: the next offset to be read is committed. -/
def commitOffset (tp : TopicPartition) (offset : ℕ) : ConsumerProg Envelope Unit :=
  ConsumerOp.ask (.commit tp (offset + 1))

/-- `type(error).__name__`. -/
def PyException.typeName : PyException → String
  | .value _ => "ValueError"
  | .sessionLease _ => "SessionLeaseError"
  | .sessionVersionConflict _ => "SessionVersionConflictError"
  | .agentGateway _ => "AgentGatewayError"
  | .modelGateway _ => "ModelGatewayError"
  | .budgetExceeded _ => "BudgetExceeded"
  | .budgetStateUnknown _ => "BudgetStateUnknown"
  | .sqlAlchemy => "SQLAlchemyError"
  | .httpx => "HTTPError"
  | .other name => name
  | .cancelled => "CancelledError"

/-- `_publish_dead_letter`; a record that could not be published is fetched
again. -/
def publishDeadLetter (tp : TopicPartition) (record : KafkaRecord) (attempts : ℕ)
    (e : PyException) : ConsumerProg Envelope Unit :=
  (ConsumerOp.ask (.publishDeadLetter (deadLetterOf tp record attempts e.typeName))).tryCatch
    (fun e' => do
      if e'.isException then ConsumerOp.ask (.seek tp record.offset)
      throw e')

/-- A record failed. -/
def recordFailed (tp : TopicPartition) (record : KafkaRecord) (e : PyException) :
    ConsumerProg Envelope Bool := do
  let attempts ← ConsumerOp.ask (.countFailure tp record.offset)
  if k.deadLetter ∧ k.maxDeliveryAttempts ≤ attempts then
    publishDeadLetter tp record attempts e
    commitOffset tp record.offset
    ConsumerOp.ask (.forgetFailures tp record.offset)
    return true
  else
    ConsumerOp.ask (.seek tp record.offset)
    throw e

/-- A record was handled. -/
def recordHandled (tp : TopicPartition) (record : KafkaRecord) :
    ConsumerProg Envelope Bool := do
  commitOffset tp record.offset
  ConsumerOp.ask (.forgetFailures tp record.offset)
  return true

/-- One record: a cancelled handler gives it back, a failing one counts. -/
def processRecord (tp : TopicPartition) (record : KafkaRecord) :
    ConsumerProg Envelope Bool := do
  match ← (deliver k tp record).capture some with
  | .ok _ => recordHandled tp record
  | .error e =>
    if e.isException then recordFailed k tp record e
    else
      ConsumerOp.ask (.seek tp record.offset)
      throw e

/-- The loop over the batches: the first record is processed. -/
def processBatches : List (TopicPartition × List KafkaRecord) → ConsumerProg Envelope Bool
  | [] => return false
  | (_, []) :: batches => processBatches batches
  | (tp, record :: _) :: _ => processRecord k tp record

/-- **`process_once`.** -/
def processOnce : ConsumerProg Envelope Bool := do
  processBatches k (← ConsumerOp.ask .getmany)

end Program

/-- **The consumer process**, which `run_forever` keeps calling `process_once`.
A cancellation ends it; a new process starts at the committed offsets. -/
def consumerServer {Envelope : Type} (k : KafkaExecutionConsumer Envelope) (log : KafkaLog) :
    Server (ConsumerOp Envelope) ConsumerRes PyException ConsumerChoice ConsumerState Bool where
  handler := serveConsumer log
  body := processOnce k
  fatal := fun e => !e.isException
  restart := fun s => { s with position := s.committed, failureAttempts := fun _ => 0 }
