import AgentPlatform.ChannelInbound
import AgentPlatform.ReplyDeliveries

/-!
# Reply deliveries as programs

`ReplyDeliveryService` of `channels/delivery.py` once more, request by request,
with both transports: `WeComReplyTransport` of `channels/wecom.py`, and
`FeishuCardTransport` over `HttpFeishuCardClient` of `channels/feishu.py`. Between
two requests another worker may read or write the same delivery, and a worker can
crash at any of them.

An HTTP request is two requests here: `request` puts it on the wire, `answer`
waits for what becomes of it. What happens in between – the provider acts on the
request or does not, the worker dies – is up to the environment.
-/

deriving instance DecidableEq for ReplyDelivery

/-- The primary key of `tenant.reply_delivery`. -/
abbrev DeliveryKey := String × String

/-- The key of a delivery. -/
def ReplyDelivery.key (d : ReplyDelivery) : DeliveryKey := (d.tenantId, d.deliveryId)

/-! ## HTTP -/

/-- **How an HTTP call ends**: with a response, or with an exception. The
`TimeoutException` of httpx is not a `TimeoutError`. `json` is what
`response.json()` returns, unless it raises `ValueError`. -/
inductive HttpAnswer where
  | response (statusCode : ℕ) (json : Option Json)
  | timeoutError
  | timeoutException
  | otherException

/-- A request to a channel. -/
inductive ChannelRequest where
  /-- WeCom: a text for a response URL. -/
  | post (url content : Text)
  /-- Feishu: a card for a conversation; the delivery is its `uuid`. -/
  | createCard (receiveIdType receiveId content : Text)
  /-- Feishu: new content for a card. -/
  | patchCard (messageId : String) (content : Text)
  deriving DecidableEq

/-- What a request shows. -/
def ChannelRequest.content : ChannelRequest → Text
  | .post _ content | .createCard _ _ content | .patchCard _ content => content

/-! ## Requests -/

/-- **What the service asks for.** A `client` is an instance of
`HttpFeishuCardClient` with its transport; what it remembers goes by the key of a
delivery, as a client serves one tenant. -/
inductive ReplyOp where
  /-- `get_delivery`. -/
  | getDelivery (key : DeliveryKey)
  /-- `save_delivery`. -/
  | saveDelivery (delivery : ReplyDelivery)
  /-- `claim_attempt`. -/
  | claimAttempt (key : DeliveryKey) (fromStatus : DeliveryState) (attemptNo : ℕ)
  /-- `save_attempt`. -/
  | saveAttempt (attempt : DeliveryAttempt)
  /-- `list_dead_letters`. -/
  | listDeadLetters (tenantId : String)
  | uuid4
  /-- `asyncio.sleep(backoff_delay(attempts, ...))`. -/
  | sleep (attempts : ℕ)
  /-- `WeComRateLimiter.try_acquire`. -/
  | tryAcquire
  /-- The clock of the transport. -/
  | clock
  /-- `self._updated_at.get(...)`. -/
  | updatedAt (client : ℕ) (key : DeliveryKey)
  /-- `self._updated_at[...] = now`. -/
  | setUpdatedAt (client : ℕ) (key : DeliveryKey) (now : ℚ)
  /-- `self._message_ids.get(...)`. -/
  | messageId (client : ℕ) (key : DeliveryKey)
  /-- `self._message_ids[...] = returned_id`. -/
  | setMessageId (client : ℕ) (key : DeliveryKey) (messageId : String)
  /-- An HTTP request goes out, for an attempt of a delivery. -/
  | request (key : DeliveryKey) (attemptNo : ℕ) (r : ChannelRequest)
  /-- It ends. -/
  | answer
  /-- `reconcile` returned a verdict for an attempt. -/
  | reconciled (key : DeliveryKey) (attemptNo : ℕ) (verdict : ReconcileVerdict)

/-- The answers. -/
abbrev ReplyRes : ReplyOp → Type
  | .getDelivery _ => Option ReplyDelivery
  | .saveDelivery _ => Unit
  | .claimAttempt .. => Option ReplyDelivery
  | .saveAttempt _ => Unit
  | .listDeadLetters _ => List ReplyDelivery
  | .uuid4 => String
  | .sleep _ => Unit
  | .tryAcquire => Bool
  | .clock => ℚ
  | .updatedAt .. => Option ℚ
  | .setUpdatedAt .. => Unit
  | .messageId .. => Option String
  | .setMessageId .. => Unit
  | .request .. => Unit
  | .answer => HttpAnswer
  | .reconciled .. => Unit

/-- A program of the service. -/
abbrev ReplyProg (α : Type) := Prog ReplyOp ReplyRes PyException α

/-- Issue one request. -/
abbrev ReplyOp.ask (op : ReplyOp) : ReplyProg (ReplyRes op) := Prog.perform op

/-! ## The transports -/

/-- An outcome that names an error and nothing else. -/
def ChannelTransportOutcome.failed (code : String) : ChannelTransportOutcome :=
  ⟨false, false, false, some code⟩

/-- A rate limit. -/
def ChannelTransportOutcome.limited (code : String) : ChannelTransportOutcome :=
  ⟨false, true, false, some code⟩

/-- An outcome that is not known. -/
def ChannelTransportOutcome.unknown (code : String) : ChannelTransportOutcome :=
  ⟨false, false, true, some code⟩

/-- The message is there. -/
def ChannelTransportOutcome.landed : ChannelTransportOutcome := ⟨true, false, false, none⟩

/-- What `WeComReplyTransport.send` makes of the end of its call. -/
def wecomOutcome : HttpAnswer → ChannelTransportOutcome
  | .timeoutError => .unknown "WECOM_REPLY_TIMEOUT"
  | .timeoutException | .otherException => .failed "WECOM_REPLY_FAILED"
  | .response statusCode _ =>
    if statusCode = 429 then .limited "WECOM_RATE_LIMITED"
    else if 200 ≤ statusCode ∧ statusCode < 300 then .landed
    else .failed ("WECOM_REPLY_HTTP_" ++ toString statusCode)

/-- **`WeComReplyTransport.send`.** -/
def wecomSend (delivery : ReplyDelivery) (attemptNo : ℕ) : ReplyProg ChannelTransportOutcome := do
  if ← ReplyOp.ask .tryAcquire then
    let _ ← ReplyOp.ask (.request delivery.key attemptNo
      (.post delivery.externalConversationId delivery.content))
    let answer ← ReplyOp.ask .answer
    return wecomOutcome answer
  else return .limited "WECOM_RATE_LIMITED"

/-- **`_feishu_receive_id`**, unless it raises `ValueError`. -/
def feishuReceiveId (conversationId : Text) : Option (Text × Text) :=
  match splitOnce ':' conversationId with
  | none => none
  | some (receiveIdType, receiveId) =>
    if (receiveIdType = "chat_id".toList ∨ receiveIdType = "open_id".toList) ∧ receiveId ≠ [] then
      some (receiveIdType, receiveId)
    else none

/-- `value == 0`, of a JSON value. -/
def Json.isZero : Json → Bool
  | .num literal => (literal.toList.takeWhile (fun c => c ≠ 'e' && c ≠ 'E')).all
      (fun c => c = '0' || c = '.' || c = '-')
  | .bool b => !b
  | _ => false

/-- **What `upsert_card` makes of a response**; `patched` says whether the card
was there. With the outcome comes the message id to remember, if any. -/
def cardResponse (patched : Bool) (statusCode : ℕ) (json : Option Json) :
    ChannelTransportOutcome × Option String :=
  if statusCode = 429 then (.limited "FEISHU_CARD_RATE_LIMITED", none)
  else if ¬ (200 ≤ statusCode ∧ statusCode < 300) then
    (.failed ("FEISHU_CARD_HTTP_" ++ toString statusCode), none)
  else
    match json with
    | none => (.failed "FEISHU_CARD_RESPONSE_INVALID", none)
    | some payload =>
      if ¬ Json.isObject (some payload) ∨ (payload.field "code").any (fun code => !code.isZero) then
        (.failed "FEISHU_CARD_API_FAILED", none)
      else if patched then (.landed, none)
      else
        match Json.asStr (Json.get "message_id" (payload.field "data")) with
        | none => (.failed "FEISHU_CARD_RESPONSE_INVALID", none)
        | some returnedId =>
          if returnedId = "" then (.failed "FEISHU_CARD_RESPONSE_INVALID", none)
          else (.landed, some returnedId)

/-- The request of `upsert_card`, unless `_feishu_receive_id` raises. -/
def cardRequest (delivery : ReplyDelivery) : Option String → Option ChannelRequest
  | some messageId => some (.patchCard messageId delivery.content)
  | none => (feishuReceiveId delivery.externalConversationId).map
      (fun receive => .createCard receive.1 receive.2 delivery.content)

/-- **`HttpFeishuCardClient.upsert_card`**; nothing for a timeout, which it raises
again. -/
def upsertCard (client : ℕ) (delivery : ReplyDelivery) (attemptNo : ℕ) :
    ReplyProg (Option ChannelTransportOutcome) := do
  let messageId ← ReplyOp.ask (.messageId client delivery.key)
  match cardRequest delivery messageId with
  | none => return some (.failed "FEISHU_CARD_REQUEST_FAILED")
  | some r =>
    let _ ← ReplyOp.ask (.request delivery.key attemptNo r)
    match ← ReplyOp.ask .answer with
    | .timeoutError | .timeoutException => return none
    | .otherException => return some (.failed "FEISHU_CARD_REQUEST_FAILED")
    | .response statusCode json =>
      match cardResponse messageId.isSome statusCode json with
      | (outcome, some returnedId) =>
        let _ ← ReplyOp.ask (.setMessageId client delivery.key returnedId)
        return some outcome
      | (outcome, none) => return some outcome

/-- **`FeishuCardTransport.send`.** -/
def feishuSend (client : ℕ) (delivery : ReplyDelivery) (attemptNo : ℕ) :
    ReplyProg ChannelTransportOutcome := do
  let now ← ReplyOp.ask .clock
  let lastUpdate ← ReplyOp.ask (.updatedAt client delivery.key)
  if FeishuCardTransport.isThrottled now lastUpdate then
    return .limited "FEISHU_CARD_THROTTLED"
  else
    match ← upsertCard client delivery attemptNo with
    | none => return .unknown "FEISHU_CARD_TIMEOUT"
    | some outcome =>
      let _ ← ReplyOp.ask (.setUpdatedAt client delivery.key now)
      return outcome

/-- `ReplyTransport`. -/
inductive ReplyTransport where
  | wecom
  | feishu (client : ℕ)
  deriving DecidableEq

/-- `send`. -/
def ReplyTransport.send (t : ReplyTransport) (delivery : ReplyDelivery) (attemptNo : ℕ) :
    ReplyProg ChannelTransportOutcome :=
  match t with
  | .wecom => wecomSend delivery attemptNo
  | .feishu client => feishuSend client delivery attemptNo

/-- **`reconcile`.** WeCom has nothing to ask, and assumes that the attempt
landed; Feishu goes by the message ids it remembers. -/
def ReplyTransport.reconcile (t : ReplyTransport) (delivery : ReplyDelivery) (attemptNo : ℕ) :
    ReplyProg ReconcileVerdict := do
  let verdict ← match t with
    | .wecom => pure ReconcileVerdict.delivered
    | .feishu client => do
      let messageId ← ReplyOp.ask (.messageId client delivery.key)
      pure (if messageId.isSome then .delivered else .notDelivered)
  let _ ← ReplyOp.ask (.reconciled delivery.key attemptNo verdict)
  return verdict

/-! ## The service -/

namespace ReplyProg

/-- **`enqueue`.** -/
def enqueue (tenantId bindingId executionId : String) (externalConversationId content : Text)
    (deliveryId : Option String) : ReplyProg ReplyDelivery := do
  let stableId ← match deliveryId.filter (fun id => id ≠ "") with
    | some id => pure id
    | none => ReplyOp.ask .uuid4
  let existing ← match deliveryId with
    | some _ => ReplyOp.ask (.getDelivery (tenantId, stableId))
    | none => pure none
  match existing with
  | some delivery => return delivery
  | none =>
    let delivery : ReplyDelivery := ⟨tenantId, stableId, bindingId, executionId,
      externalConversationId, content, .queued, 0⟩
    if delivery.isValid then
      let _ ← ReplyOp.ask (.saveDelivery delivery)
      return delivery
    else throw validationError

/-- **`_load`.** -/
def load (key : DeliveryKey) : ReplyProg ReplyDelivery := do
  match ← ReplyOp.ask (.getDelivery key) with
  | some delivery => return delivery
  | none => throw (replyDeliveryError "DELIVERY_NOT_FOUND")

/-- **`_transition`.** -/
def transition (delivery : ReplyDelivery) (status : DeliveryState) (attempts : Option ℕ) :
    ReplyProg ReplyDelivery := do
  let updated := delivery.copy status (attempts.getD delivery.attempts)
  let _ ← ReplyOp.ask (.saveDelivery updated)
  return updated

/-- **`_record_attempt`.** -/
def recordAttempt (delivery : ReplyDelivery) (attemptNo : ℕ) (outcome : String)
    (errorCode : Option String) : ReplyProg Unit := do
  let attemptId ← ReplyOp.ask .uuid4
  ReplyOp.ask (.saveAttempt ⟨attemptId, delivery.tenantId, delivery.deliveryId, attemptNo, outcome,
    errorCode⟩)

/-- An attempt is recorded, and the delivery moves on. -/
def close (delivery : ReplyDelivery) (attemptNo : ℕ) (outcome : String) (errorCode : Option String)
    (status : DeliveryState) (attempts : Option ℕ) : ReplyProg ReplyDelivery := do
  recordAttempt delivery attemptNo outcome errorCode
  transition delivery status attempts

variable (t : ReplyTransport)

/-- **`_resume_reconciliation`.** -/
def resumeReconciliation (delivery : ReplyDelivery) : ReplyProg ReplyDelivery := do
  match ← t.reconcile delivery delivery.attempts with
  | .delivered => transition delivery .delivered none
  | .unknown => return delivery
  | .notDelivered => transition delivery .failed none

/-- What a send came to: the loop of `run` ends, or goes on. -/
def afterSend (delivery : ReplyDelivery) (attemptNo : ℕ)
    (result : Except PyException ChannelTransportOutcome) :
    ReplyProg (ReplyDelivery ⊕ ReplyDelivery) := do
  match result with
  | .error _ =>
    return .inl (← close delivery attemptNo "OUTCOME_UNKNOWN" (some "CHANNEL_SEND_FAILED")
      .outcomeUnknown none)
  | .ok outcome =>
    if outcome.delivered then
      return .inl (← close delivery attemptNo "DELIVERED" none .delivered (some attemptNo))
    else if outcome.outcomeUnknown then
      match ← t.reconcile delivery attemptNo with
      | .delivered =>
        return .inl (← close delivery attemptNo "RECONCILED_DELIVERED" outcome.errorCode .delivered
          (some attemptNo))
      | .unknown =>
        return .inl (← close delivery attemptNo "OUTCOME_UNKNOWN" outcome.errorCode .outcomeUnknown
          none)
      | .notDelivered =>
        return .inr (← close delivery attemptNo "RECONCILED_NOT_DELIVERED" outcome.errorCode
          .failed (some attemptNo))
    else if outcome.rateLimited then
      return .inr (← close delivery attemptNo "RATE_LIMITED" outcome.errorCode .rateLimited
        (some attemptNo))
    else
      return .inr (← close delivery attemptNo "FAILED" outcome.errorCode .failed (some attemptNo))

/-- The loop of `run`, for a number of turns: rate limits may keep it going. -/
def runLoop (budget : ℕ) (key : DeliveryKey) : ℕ → ReplyDelivery → ReplyProg ReplyDelivery
  | 0, _ => throw (.other "the loop goes on")
  | turns + 1, delivery => do
    if budget ≤ delivery.attempts ∧ delivery.status ≠ .rateLimited then
      transition delivery .deadLetter none
    else
      let _ ← if 0 < delivery.attempts then ReplyOp.ask (.sleep delivery.attempts) else pure ()
      let attemptNo := delivery.attempts + 1
      match ← ReplyOp.ask (.claimAttempt key delivery.status attemptNo) with
      | none => return delivery
      | some claimed =>
        let result ← (t.send claimed attemptNo).capture
          (fun e => if e.isException then some e else none)
        match ← afterSend t claimed attemptNo result with
        | .inl ended => return ended
        | .inr next => runLoop budget key turns next

/-- **`run`.** -/
def run (maxAttempts turns : ℕ) (key : DeliveryKey) : ReplyProg ReplyDelivery := do
  let delivery ← load key
  if delivery.status.isTerminal then return delivery
  else if delivery.status = .outcomeUnknown then
    let delivery ← resumeReconciliation t delivery
    if delivery.status.isTerminal ∨ delivery.status = .outcomeUnknown then return delivery
    else runLoop t maxAttempts key turns delivery
  else runLoop t maxAttempts key turns delivery

/-- **`replay`.** -/
def replay (turns : ℕ) (key : DeliveryKey) : ReplyProg ReplyDelivery := do
  let delivery ← load key
  if delivery.status ≠ .deadLetter then throw (replyDeliveryError "DELIVERY_NOT_DEAD_LETTER")
  else
    let delivery ← transition delivery .queued none
    run t (delivery.attempts + 1) turns key

/-- **`update`.** -/
def update (key : DeliveryKey) (content : Text) : ReplyProg ReplyDelivery := do
  let delivery ← load key
  if delivery.status ≠ .delivered then throw (replyDeliveryError "DELIVERY_NOT_UPDATABLE")
  else
    let updated := delivery.requeued content
    let _ ← ReplyOp.ask (.saveDelivery updated)
    return updated

end ReplyProg
