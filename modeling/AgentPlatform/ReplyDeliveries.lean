import AgentPlatform.AdaptiveReply
import AgentPlatform.Dictionary

/-!
# Reply deliveries

The data model of `channels/delivery.py`, and the throttle of
`FeishuCardTransport` of `channels/feishu.py`. A delivery keeps its id and
counts its attempts; an update of a delivered card queues new content under the
same id, and the count goes on.
-/

/-- `DeliveryState`. -/
inductive DeliveryState where
  | queued
  | inFlight
  | delivered
  | rateLimited
  | failed
  | outcomeUnknown
  | deadLetter
  deriving DecidableEq

/-- `TERMINAL_STATES`. -/
def DeliveryState.isTerminal : DeliveryState → Bool
  | .delivered | .deadLetter => true
  | _ => false

/-- **`ReplyDelivery`.** -/
structure ReplyDelivery where
  tenantId : String
  deliveryId : String
  bindingId : String
  executionId : String
  externalConversationId : Text
  content : Text
  status : DeliveryState
  attempts : ℕ

/-- `delivery.model_copy(update={"status": status, "attempts": attempts})`. -/
def ReplyDelivery.copy (d : ReplyDelivery) (status : DeliveryState) (attempts : ℕ) :
    ReplyDelivery :=
  { d with
    status := status
    attempts := attempts }

/-- `delivery.model_copy(update={"content": content, "status": DeliveryState.QUEUED})`. -/
def ReplyDelivery.requeued (d : ReplyDelivery) (content : Text) : ReplyDelivery :=
  { d with
    content := content
    status := .queued }

/-- The validation of a new `ReplyDelivery`. -/
def ReplyDelivery.isValid (d : ReplyDelivery) : Bool :=
  d.deliveryId ≠ "" && d.bindingId ≠ "" && d.executionId ≠ ""
    && 1 ≤ d.externalConversationId.length && d.externalConversationId.length ≤ 256
    && 1 ≤ d.content.length

/-- `DeliveryAttempt`. -/
structure DeliveryAttempt where
  attemptId : String
  tenantId : String
  deliveryId : String
  attemptNo : ℕ
  outcome : String
  errorCode : Option String

/-- `ChannelTransportOutcome`, and `FeishuCardResponse`. -/
structure ChannelTransportOutcome where
  delivered : Bool
  rateLimited : Bool
  outcomeUnknown : Bool
  errorCode : Option String

/-- `ReconcileVerdict`. -/
inductive ReconcileVerdict where
  | delivered
  | notDelivered
  | unknown
  deriving DecidableEq

/-- `ReplyDeliveryError`. -/
def replyDeliveryError (code : String) : PyException := .other code

namespace FeishuCardTransport

/-- `min_update_interval_seconds`. -/
def minUpdateIntervalSeconds : ℚ := 1

/-- The card was updated too recently. -/
def isThrottled (now : ℚ) : Option ℚ → Bool
  | some lastUpdate => decide (now - lastUpdate < minUpdateIntervalSeconds)
  | none => false

end FeishuCardTransport
