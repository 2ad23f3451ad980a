import AgentPlatform.AgentGateway
import AgentPlatform.Dictionary
import AgentPlatform.Embedding

/-!
# Inbound channel events

The embedding of `channels/inbound.py`: how an event of a channel is signed and
verified, which Session and subject it belongs to, and how
`ChannelInboundService` records it in the inbound ledger and submits it to the
gateway. With it come the parts of `channels/bindings.py` and
`channels/store.py` the service works on, and the two functions that bring the
messages of WeCom and Feishu into the common shape.

A tenant reaches the service as the text of the callback's path. The ledger
reads it as a UUID, so one tenant has many spellings; the message id of an
execution is made from the text itself.

The digests are parameters: `hmac` of a key and a text, `sha256` and `uuid5` of
a text. So is `json.loads`, which Feishu's content goes through.
-/

/-! ## Channel bindings -/

/-- `_CHANNEL_TYPES`. -/
inductive ChannelType where
  | FAKE
  | WECOM
  | FEISHU
  deriving DecidableEq, Repr

/-- The text of a channel type. -/
def ChannelType.str : ChannelType → String
  | .FAKE => "FAKE"
  | .WECOM => "WECOM"
  | .FEISHU => "FEISHU"

/-- `ChannelBindingStatus`. -/
inductive ChannelBindingStatus where
  | ACTIVE
  | DISABLED
  deriving DecidableEq, Repr

/-- **`ChannelBinding`.** -/
structure ChannelBinding where
  tenantId : String
  bindingId : String
  channelType : ChannelType
  externalBotId : String
  applicationId : String
  environment : Environment
  secretRef : String
  status : ChannelBindingStatus := .ACTIVE
  deriving DecidableEq

/-! ## Events -/

/-- An event: `dict[str, str]`. -/
abbrev ChannelEvent := Dictionary String String

namespace ChannelEvent

/-- `event[name]`, for a field that was found to be there. -/
def item (event : ChannelEvent) (name : String) : String := (event.get name).getD ""

/-- The fields an event must have. -/
def required : List String :=
  ["channel_type", "external_bot_id", "message_key", "text", "external_user_id"]

/-- `not event.get(field)` for one of the required fields. -/
def isInvalid (event : ChannelEvent) : Bool := required.any (fun field => event.item field = "")

/-- `event.get("session_key", f"direct:{event['external_user_id']}")`. -/
def sessionScope (event : ChannelEvent) : String :=
  (event.get "session_key").getD ("direct:" ++ event.item "external_user_id")

/-- The scope an event states or implies: `session_key or
f"direct:{external_user_id}"`, where an empty key counts as none. -/
def scopeOf (externalUserId : String) (sessionKey : Option String) : String :=
  if sessionKey.getD "" = "" then "direct:" ++ externalUserId else sessionKey.getD ""

end ChannelEvent

/-- `InboundError`. -/
def inboundError (code : String) : PyException := .other ("InboundError " ++ code)

/-! ## Signatures -/

/-- **`fake_channel_signature`.** -/
def fakeChannelSignature (hmac : String → String → String) (material messageKey text
    externalUserId : String) (sessionKey : Option String) : String :=
  "fake:" ++ hmac material
    (messageKey ++ "\n" ++ text ++ "\n" ++ externalUserId ++ "\n" ++ sessionKey.getD "")

/-- **`_legacy_fake_channel_signature`.** -/
def legacyFakeChannelSignature (hmac : String → String → String) (material messageKey text
    externalUserId : String) : String :=
  "fake:" ++ hmac material (messageKey ++ "\n" ++ text ++ "\n" ++ externalUserId)

/-- The check of `ingest`: the signature, or the one from before scoped
sessions for an event without a session key. -/
def signatureAccepted (hmac : String → String → String) (material : String)
    (event : ChannelEvent) : Bool :=
  let signature := event.item "signature"
  signature = fakeChannelSignature hmac material (event.item "message_key") (event.item "text")
      (event.item "external_user_id") (event.get "session_key")
    || ((event.get "session_key").isNone
      && signature = legacyFakeChannelSignature hmac material (event.item "message_key")
        (event.item "text") (event.item "external_user_id"))

/-! ## Sessions and subjects -/

/-- `subject_for`. -/
def subjectFor (binding : ChannelBinding) (externalUserId : String) : String :=
  "im:" ++ binding.channelType.str ++ ":" ++ binding.bindingId ++ ":" ++ externalUserId

/-- The part of a text before the first occurrence of a character and the part
after it. -/
def splitOnce (sep : Char) (text : List Char) : Option (List Char × List Char) :=
  match text with
  | [] => none
  | c :: cs =>
    if c = sep then some ([], cs)
    else (splitOnce sep cs).map (fun parts => (c :: parts.1, parts.2))

/-- `scope.split(":", 2)` of `"thread:" + rest` has three parts, the last two
not empty. -/
def isThread (rest : List Char) : Bool :=
  match splitOnce ':' rest with
  | none => false
  | some (chat, root) => chat ≠ [] && root ≠ []

/-- What `session_for` raises for a scope, if anything. -/
def scopeError (externalUserId scope : String) : Option String :=
  if "direct:".toList.isPrefixOf scope.toList then
    if scope ≠ "direct:" ++ externalUserId then some "SESSION_SCOPE_INVALID" else none
  else if "group:".toList.isPrefixOf scope.toList then
    if scope.toList.drop 6 = [] then some "GROUP_SESSION_ID_REQUIRED" else none
  else if "thread:".toList.isPrefixOf scope.toList then
    if ¬ isThread (scope.toList.drop 7) then some "GROUP_SESSION_ID_REQUIRED" else none
  else some "SESSION_SCOPE_INVALID"

/-- The name a Session ID is derived from. -/
def sessionName (binding : ChannelBinding) (scope : String) : String :=
  "session:v1|" ++ binding.tenantId ++ "|" ++ binding.applicationId ++ "|" ++ binding.bindingId
    ++ "|" ++ scope

/-- **`session_for`.** -/
def sessionFor (uuid5 : String → String) (binding : ChannelBinding) (event : ChannelEvent) :
    Except PyException String :=
  match scopeError (event.item "external_user_id") event.sessionScope with
  | some code => .error (inboundError code)
  | none => .ok ("session:" ++ uuid5 (sessionName binding event.sessionScope))

/-- **`memory_policy_for_session_scope`.** -/
def memoryPolicyForSessionScope (sessionKey : String) : Except PyException String :=
  if "direct:".toList.isPrefixOf sessionKey.toList then .ok "im-subject-direct-v1"
  else if "group:".toList.isPrefixOf sessionKey.toList
      ∨ "thread:".toList.isPrefixOf sessionKey.toList then
    .ok "im-group-isolated-v1"
  else .error (.value "SESSION_SCOPE_INVALID")

/-! ## Bounded texts -/

/-- A text has at least as many bytes as characters. -/
theorem length_le_utf8ByteSize (s : String) : s.length ≤ s.utf8ByteSize := by
  have hlist : ∀ cs : List Char, cs.length ≤ cs.utf8Encode.size := by
    intro cs
    induction cs with
    | nil => exact Nat.zero_le _
    | cons c cs ih =>
      have hsize : [c].utf8Encode.size = c.utf8Size := by
        rw [List.utf8Encode_singleton, List.size_toByteArray, String.length_utf8EncodeChar]
      have hpos := c.utf8Size_pos
      rw [List.utf8Encode_cons, ByteArray.size_append, hsize, List.length_cons]
      omega
  have hbytes := hlist s.toList
  rw [String.utf8Encode_toList] at hbytes
  exact hbytes

namespace Bounded

/-- Whether a text keeps to a bound is told by its bytes, unless it has more of
them than characters are allowed. -/
scoped instance decidableBounded (s : String) (n : ℕ) : Decidable (1 ≤ s.length ∧ s.length ≤ n) :=
  if h : 1 ≤ s.utf8ByteSize ∧ s.utf8ByteSize ≤ n then
    .isTrue ⟨Nat.one_le_iff_ne_zero.mpr (fun hzero => by
      have hne := String.utf8ByteSize_eq_zero_iff.mpr (String.length_eq_zero_iff.mp hzero)
      omega), (length_le_utf8ByteSize s).trans h.2⟩
  else inferInstanceAs (Decidable (_ ∧ _))

end Bounded

/-! ## The inbound ledger -/

/-- `inbound_payload_hash`. -/
def inboundPayloadHash (sha256 : String → String) (text externalUserId : String)
    (sessionKey : Option String) : String :=
  sha256 (Json.dumps (.obj
    [("text", .str text),
     ("external_user_id", .str externalUserId),
     ("session_key", .str (ChannelEvent.scopeOf externalUserId sessionKey))]))

/-- `_legacy_inbound_payload_hash`. -/
def legacyInboundPayloadHash (sha256 : String → String) (text externalUserId : String) : String :=
  sha256 (Json.dumps (.obj [("text", .str text), ("external_user_id", .str externalUserId)]))

/-- `execution_message_id`. -/
def executionMessageId (uuid5 : String → String) (tenantId bindingId messageKey : String) :
    String :=
  "inbound-" ++ uuid5 ("inbound:" ++ tenantId ++ "|" ++ bindingId ++ "|" ++ messageKey)

/-- `InboundStatus`. -/
inductive InboundStatus where
  | ACCEPTED
  | CONFLICTED
  deriving DecidableEq, Repr

/-- **`InboundMessage`**, with the bounds its fields are validated against. An
execution and a release are known by their UUIDs. -/
structure InboundMessage where
  tenantId : String
  bindingId : String
  messageKey : String
  payloadHash : String
  externalUserId : String
  executionId : Option Uuid := none
  releaseId : Option Uuid := none
  status : InboundStatus := .ACCEPTED
  occurredAt : Timestamp
  messageKey_length : 1 ≤ messageKey.length ∧ messageKey.length ≤ 256
  externalUserId_length : 1 ≤ externalUserId.length ∧ externalUserId.length ≤ 128

/-- `InboundConflict`. -/
structure InboundConflict where
  tenantId : String
  bindingId : String
  messageKey : String
  recordedHash : String
  receivedHash : String
  detectedAt : Timestamp

open scoped Bounded in
/-- `InboundMessage(...)` of a new event, unless its validation fails. -/
def InboundMessage.new (tenantId bindingId messageKey payloadHash externalUserId : String)
    (occurredAt : Timestamp) : Option InboundMessage :=
  if h : (1 ≤ messageKey.length ∧ messageKey.length ≤ 256)
      ∧ (1 ≤ externalUserId.length ∧ externalUserId.length ≤ 128) then
    some
      { tenantId := tenantId, bindingId := bindingId, messageKey := messageKey
        payloadHash := payloadHash, externalUserId := externalUserId, occurredAt := occurredAt
        messageKey_length := h.1, externalUserId_length := h.2 }
  else none

/-! ## The requests of the service -/

/-- **What the inbound service asks for.** `submitter` marks the call of
`self._submitter.submit`; the statements of the submission follow it as
`gateway` requests. -/
inductive InboundOp where
  /-- `ChannelBindingRegistry.resolve`. -/
  | resolveBinding (tenantId channelType externalBotId : String)
  /-- `datetime.now(UTC)`. -/
  | now
  /-- `InboundStore.insert`. -/
  | insertMessage (message : InboundMessage)
  /-- `InboundStore.record_conflict`. -/
  | recordConflict (conflict : InboundConflict)
  /-- `current_traceparent()`. -/
  | currentTraceparent
  | submitter (submission : AgentExecutionSubmission)
  | gateway (op : TxOp SubmitOp)
  /-- `InboundStore.attach_execution`. -/
  | attachExecution (tenantId bindingId messageKey : String) (executionId releaseId : Uuid)

/-- The answers. -/
abbrev InboundRes : InboundOp → Type
  | .resolveBinding .. => Option ChannelBinding
  | .now => Timestamp
  | .insertMessage _ => InboundMessage × Bool
  | .recordConflict _ => Unit
  | .currentTraceparent => Option String
  | .submitter _ => Unit
  | .gateway op => TxRes SubmitRes op
  | .attachExecution .. => Unit

/-- A program of the inbound service. -/
abbrev InboundProg (α : Type) := Prog InboundOp InboundRes PyException α

/-- Issue one request. -/
abbrev InboundOp.ask (op : InboundOp) : InboundProg (InboundRes op) := Prog.perform op

/-- The program of a submission, run by the service. -/
def InboundProg.ofGateway {α : Type} (p : SubmitProg α) : InboundProg α :=
  p.embed InboundOp.gateway (fun _ r => r)

/-! ## Submitting an event -/

/-- The fields of an event that its execution is told. -/
def channelContextKeys : List String :=
  ["channel_type", "external_bot_id", "external_user_id", "message_key", "session_key",
   "response_url", "chat_type", "chat_id"]

/-- The channel context of a submission. -/
def channelContext (binding : ChannelBinding) (event : ChannelEvent) : List (String × String) :=
  channelContextKeys.filterMap (fun key => (event.get key).map (fun value => (key, value)))
    ++ [("binding_id", binding.bindingId)]

/-- The error of `UUID(text)`. -/
def badlyFormedUuid : PyException := .value "badly formed hexadecimal UUID string"

/-- Pydantic's `ValidationError`. -/
def validationError : PyException := .value "ValidationError"

open scoped Bounded in
/-- **`_build_submission`.** -/
def buildSubmission (uuid5 : String → String) (binding : ChannelBinding) (event : ChannelEvent)
    (messageId : String) (traceParent : Option String) :
    Except PyException AgentExecutionSubmission := do
  let sessionId ← sessionFor uuid5 binding event
  let tenantId ← (Uuid.parse binding.tenantId).elim (.error badlyFormedUuid) .ok
  let applicationId ← (Uuid.parse binding.applicationId).elim (.error badlyFormedUuid) .ok
  let subjectId := subjectFor binding (event.item "external_user_id")
  let policy ← memoryPolicyForSessionScope event.sessionScope
  if h : (1 ≤ sessionId.length ∧ sessionId.length ≤ 512)
      ∧ (1 ≤ subjectId.length ∧ subjectId.length ≤ 256)
      ∧ (1 ≤ policy.length ∧ policy.length ≤ 128)
      ∧ (1 ≤ messageId.length ∧ messageId.length ≤ 256)
      ∧ (∀ t ∈ traceParent, 1 ≤ t.length ∧ t.length ≤ 128) then
    .ok
      { tenantId := tenantId
        applicationId := applicationId
        environment := binding.environment
        sessionId := sessionId
        subjectId := some subjectId
        memoryPolicyVersion := policy
        messages := [[("role", "user"), ("content", event.item "text")]]
        messageId := some messageId
        channelContext := some (channelContext binding event)
        traceParent := traceParent
        sessionId_length := h.1
        subjectId_length := fun _ hs => Option.some.inj hs ▸ h.2.1
        memoryPolicyVersion_length := h.2.2.1
        messages_length := ⟨Nat.le_refl 1, Nat.le_add_left 1 199⟩
        messageId_length := fun _ hm => Option.some.inj hm ▸ h.2.2.2.1
        traceParent_length := h.2.2.2.2 }
  else .error validationError

/-! ## The service -/

section Service

variable (sha256 uuid5 : String → String) (policy : CapacityPolicy)

/-- The payload hash of an event. -/
def ChannelEvent.payloadHash (event : ChannelEvent) : String :=
  inboundPayloadHash sha256 (event.item "text") (event.item "external_user_id")
    (event.get "session_key")

/-- `payload_matches`: the stored hash is that of the event, or – for an event
without a session key – the one from before scoped sessions. -/
def ChannelEvent.payloadMatches (event : ChannelEvent) (storedHash : String) : Bool :=
  storedHash = event.payloadHash sha256
    || ((event.get "session_key").isNone
      && storedHash = legacyInboundPayloadHash sha256 (event.item "text")
        (event.item "external_user_id"))

/-- The newcomer is isolated: a conflict is recorded and the event refused. -/
def isolate (tenantId : String) (binding : ChannelBinding) (event : ChannelEvent)
    (storedHash : String) : InboundProg AgentExecutionAccepted := do
  let detectedAt ← InboundOp.ask .now
  let _ ← InboundOp.ask (.recordConflict
    { tenantId := tenantId
      bindingId := binding.bindingId
      messageKey := event.item "message_key"
      recordedHash := storedHash
      receivedHash := event.payloadHash sha256
      detectedAt := detectedAt })
  throw (inboundError "INBOUND_PAYLOAD_CONFLICT")

/-- The submitter is called, and the execution attached to the ledger. -/
def submitEvent (tenantId : String) (binding : ChannelBinding) (event : ChannelEvent)
    (submission : AgentExecutionSubmission) : InboundProg AgentExecutionAccepted := do
  let _ ← InboundOp.ask (.submitter submission)
  let accepted ← InboundProg.ofGateway (submit sha256 policy submission)
  let _ ← InboundOp.ask (.attachExecution tenantId binding.bindingId (event.item "message_key")
    accepted.executionId accepted.releaseId)
  return accepted

/-- The event is submitted under the message id of its key. -/
def route (tenantId : String) (binding : ChannelBinding) (event : ChannelEvent) :
    InboundProg AgentExecutionAccepted := do
  let messageId := executionMessageId uuid5 tenantId binding.bindingId (event.item "message_key")
  let traceParent ← InboundOp.ask .currentTraceparent
  match buildSubmission uuid5 binding event messageId traceParent with
  | .error e => throw e
  | .ok submission => submitEvent sha256 policy tenantId binding event submission

/-- What follows the ledger's answer. -/
def afterInsert (tenantId : String) (binding : ChannelBinding) (event : ChannelEvent)
    (stored : InboundMessage) (created : Bool) : InboundProg AgentExecutionAccepted :=
  if created = false ∧ event.payloadMatches sha256 stored.payloadHash = false then
    isolate sha256 tenantId binding event stored.payloadHash
  else
    match created, stored.executionId, stored.releaseId with
    | false, some executionId, some releaseId =>
      match sessionFor uuid5 binding event with
      | .error e => .raise e
      | .ok sessionId => .ret
        { executionId := executionId
          releaseId := releaseId
          sessionId := sessionId
          deduplicated := true }
    | _, _, _ => route sha256 uuid5 policy tenantId binding event

/-- **`ingest_verified`.** -/
def ingestVerified (tenantId : String) (event : ChannelEvent) :
    InboundProg AgentExecutionAccepted := do
  if event.isInvalid then throw (inboundError "EVENT_INVALID")
  else
    match ← InboundOp.ask (.resolveBinding tenantId (event.item "channel_type")
        (event.item "external_bot_id")) with
    | none => throw (inboundError "BINDING_NOT_FOUND")
    | some binding =>
      let occurredAt ← InboundOp.ask .now
      match InboundMessage.new tenantId binding.bindingId (event.item "message_key")
          (event.payloadHash sha256) (event.item "external_user_id") occurredAt with
      | none => throw validationError
      | some message =>
        let (stored, created) ← InboundOp.ask (.insertMessage message)
        afterInsert sha256 uuid5 policy tenantId binding event stored created

variable (hmac : String → String → String) (secrets : String → String)

/-- **`signed_event`.** -/
def signedEvent (tenantId channelType externalBotId messageKey text externalUserId : String)
    (sessionKey : Option String) : InboundProg ChannelEvent := do
  match ← InboundOp.ask (.resolveBinding tenantId channelType externalBotId) with
  | none => throw (inboundError "BINDING_NOT_FOUND")
  | some binding =>
    let event := (((((Dictionary.empty.set "channel_type" channelType).set "external_bot_id"
      externalBotId).set "message_key" messageKey).set "text" text).set "external_user_id"
      externalUserId).set "signature" (fakeChannelSignature hmac (secrets binding.secretRef)
        messageKey text externalUserId sessionKey)
    match sessionKey with
    | none => return event
    | some key => return event.set "session_key" key

/-- **`ingest`.** `hmac.compare_digest` of texts raises for a signature that is
not ASCII. -/
def ingest (tenantId : String) (event : ChannelEvent) : InboundProg AgentExecutionAccepted := do
  if event.isInvalid then throw (inboundError "EVENT_INVALID")
  else
    match ← InboundOp.ask (.resolveBinding tenantId (event.item "channel_type")
        (event.item "external_bot_id")) with
    | none => throw (inboundError "BINDING_NOT_FOUND")
    | some binding =>
      if (event.item "signature").toList.any (fun c => 127 < c.toNat) then
        throw (.other "TypeError")
      else if signatureAccepted hmac (secrets binding.secretRef) event = false then
        throw (inboundError "SIGNATURE_INVALID")
      else ingestVerified sha256 uuid5 policy tenantId event

end Service

/-! ## The messages of the channels -/

/-- `WeComEvent`, the fields a message is made from. -/
structure WeComEvent where
  msgid : String
  aibotid : String
  chattype : String
  chatid : String
  fromUserid : String
  textContent : String

/-- `WeComProtocolError`. -/
def weComProtocolError (code : String) : PyException := .other ("WeComProtocolError " ++ code)

/-- `FeishuAdapterError`. -/
def feishuAdapterError (code : String) : PyException := .other ("FeishuAdapterError " ++ code)

/-- The common shape of a message. -/
def inboundShape (channelType externalBotId messageKey text externalUserId sessionKey : String) :
    ChannelEvent :=
  (((((Dictionary.empty.set "channel_type" channelType).set "external_bot_id"
    externalBotId).set "message_key" messageKey).set "text" text).set "external_user_id"
    externalUserId).set "session_key" sessionKey

/-- **`normalize_to_inbound`.** -/
def normalizeToInbound (event : WeComEvent) : Except PyException ChannelEvent := do
  let sessionKey ←
    if event.chattype = "group" then
      if event.chatid = "" then .error (weComProtocolError "WECOM_GROUP_CHAT_ID_REQUIRED")
      else .ok ("group:" ++ event.chatid)
    else if event.chattype = "single" then .ok ("direct:" ++ event.fromUserid)
    else .error (weComProtocolError "WECOM_EVENT_INVALID")
  return inboundShape "WECOM" event.aibotid event.msgid event.textContent event.fromUserid
    sessionKey

namespace Json

/-- `value.get(name)` of a JSON object, and `None` for anything else. -/
def field (name : String) : Json → Option Json
  | .obj fields => (fields.find? (fun f => f.1 = name)).map (fun f => f.2)
  | _ => none

/-- The text of a JSON string. -/
def asStr : Option Json → Option String
  | some (.str s) => some s
  | _ => none

/-- It is a JSON object. -/
def isObject : Option Json → Bool
  | some (.obj _) => true
  | _ => false

/-- `value.get(name)` of what was found before. -/
def get (name : String) (value : Option Json) : Option Json := value.bind (field name)

end Json

/-- The scope of a Feishu message. -/
def feishuSessionKey (chatType externalUserId : String) (chatId rootId : Option String) :
    Except PyException String :=
  if chatType = "p2p" then .ok ("direct:" ++ externalUserId)
  else if chatId.getD "" = "" then .error (feishuAdapterError "FEISHU_CONVERSATION_INVALID")
  else if rootId.getD "" ≠ "" then .ok ("thread:" ++ chatId.getD "" ++ ":" ++ rootId.getD "")
  else .ok ("group:" ++ chatId.getD "")

/-- The kinds of message that go through the artifact scan. -/
def attachmentTypes : List String := ["file", "image", "media", "audio", "video"]

/-- `json.loads(content)`, for a message with a content. -/
def feishuContent (loads : String → Option Json) (message : Option Json) :
    Except PyException (Option Json) :=
  match Json.asStr (Json.get "content" message) with
  | none => .ok none
  | some content =>
    match loads content with
    | none => .error (feishuAdapterError "FEISHU_CONTENT_INVALID")
    | some value => .ok (some value)

/-- The checks of a decoded message, and its common shape. -/
def feishuShape (header event decoded : Option Json) : Except PyException ChannelEvent :=
  let message := Json.get "message" event
  let text := (Json.asStr (Json.get "text" decoded)).getD ""
  match Json.asStr (Json.get "event_id" header), Json.asStr (Json.get "app_id" header),
      Json.asStr (Json.get "open_id" (Json.get "sender_id" (Json.get "sender" event))),
      Json.asStr (Json.get "chat_type" message) with
  | some eventId, some appId, some userId, some chatType =>
    if Json.asStr (Json.get "event_type" header) ≠ some "im.message.receive_v1" ∨ text = ""
        ∨ Json.asStr (Json.get "message_type" message) ≠ some "text"
        ∨ (chatType ≠ "p2p" ∧ chatType ≠ "group") then
      .error (feishuAdapterError "FEISHU_EVENT_INVALID")
    else
      (feishuSessionKey chatType userId (Json.asStr (Json.get "chat_id" message))
        (Json.asStr (Json.get "root_id" message))).map
          (fun sessionKey => inboundShape "FEISHU" appId eventId text userId sessionKey)
  | _, _, _, _ => .error (feishuAdapterError "FEISHU_EVENT_INVALID")

/-- **`normalize_feishu_message`.** -/
def normalizeFeishuMessage (loads : String → Option Json) (payload : Json) :
    Except PyException ChannelEvent :=
  let header := payload.field "header"
  let event := payload.field "event"
  let message := Json.get "message" event
  if ¬ Json.isObject header ∨ ¬ Json.isObject event then
    .error (feishuAdapterError "FEISHU_EVENT_INVALID")
  else if (Json.asStr (Json.get "message_type" message)).any (fun t => t ∈ attachmentTypes) then
    .error (feishuAdapterError "FEISHU_ATTACHMENT_REQUIRES_ARTIFACT_SCAN")
  else (feishuContent loads message).bind (feishuShape header event)
