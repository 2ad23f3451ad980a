import AgentPlatform.SoleCaller
import AgentPlatform.ReplyPrograms

/-!
# Reply deliveries over any transport

`ReplyDeliveryService` of `channels/delivery.py` with its transport left open, as
the protocol `ReplyTransport` leaves it: `send` comes to some outcome or raises,
`reconcile` comes to some verdict. A worker makes one call of the service after
the other.

What the transport was asked, and when a delivery became `QUEUED`, goes to a log.
`Account` reads off it what the sends of a delivery came to since then.
-/

/-- **What the service asks for.** -/
inductive CourierOp where
  /-- `get_delivery`. -/
  | getDelivery (key : DeliveryKey)
  /-- `save_delivery`. -/
  | saveDelivery (delivery : ReplyDelivery)
  /-- `claim_attempt`. -/
  | claimAttempt (key : DeliveryKey) (fromStatus : DeliveryState) (attemptNo : ℕ)
  /-- `save_attempt`. -/
  | saveAttempt (attempt : DeliveryAttempt)
  | uuid4
  /-- `asyncio.sleep(backoff_delay(attempts, ...))`. -/
  | sleep (attempts : ℕ)
  /-- `ReplyTransport.send`. -/
  | send (delivery : ReplyDelivery) (attemptNo : ℕ)
  /-- `ReplyTransport.reconcile`. -/
  | reconcile (delivery : ReplyDelivery) (attemptNo : ℕ)

/-- The answers. -/
abbrev CourierRes : CourierOp → Type
  | .getDelivery _ => Option ReplyDelivery
  | .saveDelivery _ => Unit
  | .claimAttempt .. => Option ReplyDelivery
  | .saveAttempt _ => Unit
  | .uuid4 => String
  | .sleep _ => Unit
  | .send .. => ChannelTransportOutcome
  | .reconcile .. => ReconcileVerdict

/-- A program of the service. -/
abbrev CourierProg (α : Type) := Prog CourierOp CourierRes PyException α

/-- Issue one request. -/
abbrev CourierOp.ask (op : CourierOp) : CourierProg (CourierRes op) := Prog.perform op

/-! ## The service -/

namespace CourierProg

/-- **`enqueue`.** -/
def enqueue (tenantId bindingId executionId : String) (externalConversationId content : Text)
    (deliveryId : Option String) : CourierProg ReplyDelivery := do
  let stableId ← match deliveryId.filter (fun id => id ≠ "") with
    | some id => pure id
    | none => CourierOp.ask .uuid4
  let existing ← match deliveryId with
    | some _ => CourierOp.ask (.getDelivery (tenantId, stableId))
    | none => pure none
  match existing with
  | some delivery => return delivery
  | none =>
    let delivery : ReplyDelivery := ⟨tenantId, stableId, bindingId, executionId,
      externalConversationId, content, .queued, 0⟩
    if delivery.isValid then
      let _ ← CourierOp.ask (.saveDelivery delivery)
      return delivery
    else throw validationError

/-- **`_load`.** -/
def load (key : DeliveryKey) : CourierProg ReplyDelivery := do
  match ← CourierOp.ask (.getDelivery key) with
  | some delivery => return delivery
  | none => throw (replyDeliveryError "DELIVERY_NOT_FOUND")

/-- **`_transition`.** -/
def transition (delivery : ReplyDelivery) (status : DeliveryState) (attempts : Option ℕ) :
    CourierProg ReplyDelivery := do
  let updated := delivery.copy status (attempts.getD delivery.attempts)
  let _ ← CourierOp.ask (.saveDelivery updated)
  return updated

/-- **`_record_attempt`.** -/
def recordAttempt (delivery : ReplyDelivery) (attemptNo : ℕ) (outcome : String)
    (errorCode : Option String) : CourierProg Unit := do
  let attemptId ← CourierOp.ask .uuid4
  CourierOp.ask (.saveAttempt ⟨attemptId, delivery.tenantId, delivery.deliveryId, attemptNo,
    outcome, errorCode⟩)

/-- An attempt is recorded, and the delivery moves on. -/
def close (delivery : ReplyDelivery) (attemptNo : ℕ) (outcome : String) (errorCode : Option String)
    (status : DeliveryState) (attempts : Option ℕ) : CourierProg ReplyDelivery := do
  recordAttempt delivery attemptNo outcome errorCode
  transition delivery status attempts

/-- **`_resume_reconciliation`.** -/
def resumeReconciliation (delivery : ReplyDelivery) : CourierProg ReplyDelivery := do
  match ← CourierOp.ask (.reconcile delivery delivery.attempts) with
  | .delivered => transition delivery .delivered none
  | .unknown => return delivery
  | .notDelivered => transition delivery .failed none

/-- What a send came to: the loop of `run` ends, or goes on. -/
def afterSend (delivery : ReplyDelivery) (attemptNo : ℕ)
    (result : Except PyException ChannelTransportOutcome) :
    CourierProg (ReplyDelivery ⊕ ReplyDelivery) := do
  match result with
  | .error _ =>
    return .inl (← close delivery attemptNo "OUTCOME_UNKNOWN" (some "CHANNEL_SEND_FAILED")
      .outcomeUnknown none)
  | .ok outcome =>
    if outcome.delivered then
      return .inl (← close delivery attemptNo "DELIVERED" none .delivered (some attemptNo))
    else if outcome.outcomeUnknown then
      match ← CourierOp.ask (.reconcile delivery attemptNo) with
      | .delivered =>
        return .inl (← close delivery attemptNo "RECONCILED_DELIVERED" outcome.errorCode .delivered
          (some attemptNo))
      | .unknown =>
        return .inl (← close delivery attemptNo "OUTCOME_UNKNOWN" outcome.errorCode .outcomeUnknown
          none)
      | .notDelivered =>
        return .inr (← close delivery attemptNo "RECONCILED_NOT_DELIVERED" outcome.errorCode
          .failed (some attemptNo))
    else if outcome.rateLimited then
      return .inr (← close delivery attemptNo "RATE_LIMITED" outcome.errorCode .rateLimited
        (some attemptNo))
    else
      return .inr (← close delivery attemptNo "FAILED" outcome.errorCode .failed (some attemptNo))

/-- The loop of `run`, for a number of turns: rate limits may keep it going. -/
def runLoop (budget : ℕ) (key : DeliveryKey) : ℕ → ReplyDelivery → CourierProg ReplyDelivery
  | 0, _ => throw (.other "the loop goes on")
  | turns + 1, delivery => do
    if budget ≤ delivery.attempts ∧ delivery.status ≠ .rateLimited then
      transition delivery .deadLetter none
    else
      let _ ← if 0 < delivery.attempts then CourierOp.ask (.sleep delivery.attempts) else pure ()
      let attemptNo := delivery.attempts + 1
      match ← CourierOp.ask (.claimAttempt key delivery.status attemptNo) with
      | none => return delivery
      | some claimed =>
        let result ← (CourierOp.ask (.send claimed attemptNo)).capture
          (fun e => if e.isException then some e else none)
        match ← afterSend claimed attemptNo result with
        | .inl ended => return ended
        | .inr next => runLoop budget key turns next

/-- **`run`**, with the budget it comes to. -/
def run (budget turns : ℕ) (key : DeliveryKey) : CourierProg ReplyDelivery := do
  let delivery ← load key
  if delivery.status.isTerminal then return delivery
  else if delivery.status = .outcomeUnknown then
    let delivery ← resumeReconciliation delivery
    if delivery.status.isTerminal ∨ delivery.status = .outcomeUnknown then return delivery
    else runLoop budget key turns delivery
  else runLoop budget key turns delivery

/-- **`replay`.** -/
def replay (turns : ℕ) (key : DeliveryKey) : CourierProg ReplyDelivery := do
  let delivery ← load key
  if delivery.status ≠ .deadLetter then throw (replyDeliveryError "DELIVERY_NOT_DEAD_LETTER")
  else
    let delivery ← transition delivery .queued none
    run (delivery.attempts + 1) turns key

/-- **`update`.** -/
def update (key : DeliveryKey) (content : Text) : CourierProg ReplyDelivery := do
  let delivery ← load key
  if delivery.status ≠ .delivered then throw (replyDeliveryError "DELIVERY_NOT_UPDATABLE")
  else
    let updated := delivery.requeued content
    let _ ← CourierOp.ask (.saveDelivery updated)
    return updated

end CourierProg

/-- **A call of the service.** A `run` without `maxAttempts` goes by the budget of
the service. The loop of a call goes on for a number of turns. -/
inductive CourierCall where
  | enqueue (tenantId bindingId executionId : String) (externalConversationId content : Text)
      (deliveryId : Option String)
  | run (maxAttempts : Option ℕ) (turns : ℕ) (key : DeliveryKey)
  | replay (turns : ℕ) (key : DeliveryKey)
  | update (key : DeliveryKey) (content : Text)

/-- The program of a call; `maxAttempts` is that of the service. -/
def CourierCall.body (maxAttempts : ℕ) : CourierCall → CourierProg ReplyDelivery
  | .enqueue tenantId bindingId executionId externalConversationId content deliveryId =>
    CourierProg.enqueue tenantId bindingId executionId externalConversationId content deliveryId
  | .run budget turns key => CourierProg.run (budget.getD maxAttempts) turns key
  | .replay turns key => CourierProg.replay turns key
  | .update key content => CourierProg.update key content

/-! ## The store, the transport and the log -/

/-- An entry of the log. -/
inductive CourierEvent where
  /-- The delivery was stored as `QUEUED`. -/
  | queued (key : DeliveryKey)
  /-- A send ended. -/
  | sent (key : DeliveryKey) (attemptNo : ℕ) (result : Except PyException ChannelTransportOutcome)
  /-- `reconcile` came to a verdict. -/
  | reconciled (key : DeliveryKey) (attemptNo : ℕ) (verdict : ReconcileVerdict)

/-- **The stored deliveries and attempts**, and the log. -/
structure CourierState where
  rows : Dictionary DeliveryKey ReplyDelivery
  attempts : List DeliveryAttempt
  log : List CourierEvent

/-- The delivery an attempt is of. -/
def DeliveryAttempt.delivery (a : DeliveryAttempt) : DeliveryKey := (a.tenantId, a.deliveryId)

namespace CourierState

/-- An entry of the log. -/
def note (s : CourierState) (e : CourierEvent) : CourierState := { s with log := s.log ++ [e] }

/-- A row is written. -/
def put (s : CourierState) (d : ReplyDelivery) : CourierState :=
  let stored := { s with rows := s.rows.set d.key d }
  if d.status = .queued then stored.note (.queued d.key) else stored

end CourierState

/-- What the environment answers with. -/
structure CourierChoice where
  uuid : String := ""
  result : Except PyException ChannelTransportOutcome := .ok .landed
  verdict : Except PyException ReconcileVerdict := .ok .unknown

/-- **One request.** `uuid4` gives no id that a delivery has. -/
def courierHandler (c : CourierChoice) : (op : CourierOp) → CourierState →
    Option (Except PyException (CourierRes op) × CourierState)
  | .getDelivery key, s => some (.ok (s.rows.get key), s)
  | .saveDelivery d, s => some (.ok (), s.put d)
  | .claimAttempt key fromStatus attemptNo, s =>
    match s.rows.get key with
    | none => some (.ok none, s)
    | some d =>
      if d.status ≠ fromStatus then some (.ok none, s)
      else
        let claimed := d.copy .inFlight attemptNo
        some (.ok (some claimed), { s with rows := s.rows.set key claimed })
  | .saveAttempt a, s => some (.ok (), { s with attempts := s.attempts ++ [a] })
  | .uuid4, s =>
    if s.rows.items.any (fun e => e.1.2 = c.uuid) then none else some (.ok c.uuid, s)
  | .sleep _, s => some (.ok (), s)
  | .send d attemptNo, s => some (c.result, s.note (.sent d.key attemptNo c.result))
  | .reconcile d attemptNo, s =>
    match c.verdict with
    | .ok verdict => some (.ok verdict, s.note (.reconciled d.key attemptNo verdict))
    | .error e => some (.error e, s)

/-- **A worker of the service**, whose budget is `maxAttempts`. -/
def courier (maxAttempts : ℕ) :
    SoleCaller CourierOp CourierRes PyException CourierChoice CourierState CourierCall
      ReplyDelivery where
  handler := courierHandler
  body := CourierCall.body maxAttempts

/-- A state of the worker. -/
abbrev CourierWorker :=
  SoleCaller.State CourierOp CourierRes PyException CourierState CourierCall ReplyDelivery

/-- A step of it. -/
abbrev CourierLabel := SoleCaller.Label CourierChoice CourierCall

/-- Nothing has happened yet. -/
def CourierState.empty : CourierState := ⟨.empty, [], []⟩

/-! ## What the sends of a delivery came to -/

/-- What a send came to. -/
inductive SendEnd where
  | landed
  | limited
  | unknown
  | failed
  deriving DecidableEq

/-- What a send comes to by what the transport answers. -/
def sendEnd : Except PyException ChannelTransportOutcome → SendEnd
  | .error _ => .unknown
  | .ok outcome =>
    if outcome.delivered then .landed
    else if outcome.outcomeUnknown then .unknown
    else if outcome.rateLimited then .limited
    else .failed

/-- **The account of a delivery since it was last `QUEUED`**: its last send, with
what it came to, and how many of its sends failed. -/
structure SendAccount where
  last : Option (ℕ × SendEnd)
  failures : ℕ
  deriving DecidableEq

/-- Nothing was sent. -/
def SendAccount.opened : SendAccount := ⟨none, 0⟩

namespace SendAccount

/-- A send ends. -/
def sent (acc : SendAccount) (attemptNo : ℕ) (ended : SendEnd) : SendAccount :=
  ⟨some (attemptNo, ended), if ended = .failed then acc.failures + 1 else acc.failures⟩

/-- A verdict on the last send says what it came to, whatever was thought before. -/
def settled (acc : SendAccount) (attemptNo : ℕ) (verdict : ReconcileVerdict) : SendAccount :=
  match acc.last with
  | none => acc
  | some (last, ended) =>
    if last ≠ attemptNo then acc
    else
      match verdict with
      | .delivered =>
        ⟨some (attemptNo, .landed), if ended = .failed then acc.failures - 1 else acc.failures⟩
      | .notDelivered =>
        ⟨some (attemptNo, .failed), if ended = .failed then acc.failures else acc.failures + 1⟩
      | .unknown => acc

/-- The last send was confirmed. -/
def Confirmed (acc : SendAccount) : Prop := ∃ attemptNo, acc.last = some (attemptNo, .landed)

end SendAccount

/-- One more entry of the log. -/
def SendAccount.after (key : DeliveryKey) (acc : SendAccount) : CourierEvent → SendAccount
  | .queued k => if k = key then .opened else acc
  | .sent k attemptNo result => if k = key then acc.sent attemptNo (sendEnd result) else acc
  | .reconciled k attemptNo verdict => if k = key then acc.settled attemptNo verdict else acc

/-- The number of a send of a delivery. -/
def CourierEvent.sendOf (key : DeliveryKey) : CourierEvent → Option ℕ
  | .sent k attemptNo _ => if k = key then some attemptNo else none
  | _ => none

namespace CourierState

variable (s : CourierState) (key : DeliveryKey)

/-- What the sends of a delivery came to. -/
def account : SendAccount := s.log.foldl (SendAccount.after key) .opened

/-- The numbers of the sends of a delivery, in order. -/
def sends : List ℕ := s.log.filterMap (CourierEvent.sendOf key)

/-- The numbers of its recorded attempts, in order. -/
def recorded : List ℕ := (s.attempts.filter (fun a => a.delivery = key)).map DeliveryAttempt.attemptNo

end CourierState
