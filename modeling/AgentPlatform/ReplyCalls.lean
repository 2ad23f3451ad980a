import AgentPlatform.ReplyPrograms
import AgentPlatform.Interleaving

/-!
# Reply deliveries among workers

`replies` is the system of any number of calls of the service at once, over one
store, any number of clients and the channels. A statement of the store takes
effect at once; one that fails ends its call, as a crash before or after it does.

Two things are kept that no table holds. `hand` is the delivery each call last
read or wrote, its local variable; `holder` is the call that claimed an attempt
and has not stored what became of it. What the channels were asked, and what they
said, goes to `log`.
-/

/-- **Where deliveries are stored**: `MemoryDeliveryStore`, or
`DatabaseDeliveryStore`, which validates what it reads and numbers attempts
uniquely. -/
inductive DeliveryStoreKind where
  | memory
  | database
  deriving DecidableEq

/-- A request on the wire; `applied` says whether the provider has acted on it. -/
structure Outgoing where
  key : DeliveryKey
  attemptNo : ℕ
  request : ChannelRequest
  applied : Bool
  deriving DecidableEq

/-- An entry of the log. -/
inductive DeliveryEvent where
  /-- A request went out. -/
  | issued (key : DeliveryKey) (attemptNo : ℕ)
  /-- A response came back. -/
  | answered (key : DeliveryKey) (attemptNo : ℕ)
  /-- `reconcile` returned. -/
  | reconciled (key : DeliveryKey) (attemptNo : ℕ) (verdict : ReconcileVerdict)

/-- A card at the provider. -/
structure ProviderCard where
  messageId : String
  content : Text

/-- **The state of the service.** -/
structure ReplyState where
  rows : Dictionary DeliveryKey ReplyDelivery
  createdAt : DeliveryKey → Timestamp
  attempts : List DeliveryAttempt
  messageIds : ℕ → DeliveryKey → Option String
  updatedAt : ℕ → DeliveryKey → Option ℚ
  cards : Dictionary DeliveryKey ProviderCard
  wire : ℕ → Option Outgoing
  hand : ℕ → Option (DeliveryKey × Option ReplyDelivery)
  holder : DeliveryKey → Option ℕ
  log : List DeliveryEvent

namespace ReplyState

variable (s : ReplyState) (pid : ℕ) (key : DeliveryKey)

/-- What a call knows of a delivery. -/
def known : Option ReplyDelivery := (s.hand pid).bind (fun h => if h.1 = key then h.2 else none)

/-- A call has read or written a delivery. -/
def knowing (d : Option ReplyDelivery) : ReplyState :=
  { s with hand := Function.update s.hand pid (some (key, d)) }

/-- A row is written. -/
def setRow (d : ReplyDelivery) (now : Timestamp) : ReplyState :=
  { s with
    rows := s.rows.set key d
    createdAt := if (s.rows.get key).isSome then s.createdAt else Function.update s.createdAt
      key now }

/-- Nobody holds a delivery any more that `pid` held. -/
def released : ReplyState := { s with holder := Function.update s.holder key none }

/-- An entry of the log. -/
def note (e : DeliveryEvent) : ReplyState := { s with log := s.log ++ [e] }

end ReplyState

/-- `ON CONFLICT ... DO UPDATE`: only these columns are written. -/
def ReplyDelivery.merged (old d : ReplyDelivery) : ReplyDelivery :=
  { old with
    content := d.content
    status := d.status
    attempts := d.attempts }

/-- What `save_delivery` leaves in the row. -/
def DeliveryStoreKind.saved (store : DeliveryStoreKind) (old : Option ReplyDelivery)
    (d : ReplyDelivery) :
    ReplyDelivery :=
  match store with
  | .memory => d
  | .database => old.elim d (fun old => old.merged d)

/-- `_delivery_from_row` succeeds. -/
def DeliveryStoreKind.reads (store : DeliveryStoreKind) (d : ReplyDelivery) : Bool :=
  store = .memory || d.isValid

/-- The delivery of an attempt. -/
def DeliveryAttempt.key (a : DeliveryAttempt) : DeliveryKey := (a.tenantId, a.deliveryId)

/-- `UNIQUE (tenant_id, delivery_id, attempt_no)`. -/
def DeliveryAttempt.number (a : DeliveryAttempt) : DeliveryKey × ℕ := (a.key, a.attemptNo)

/-- An HTTP call ended with a response. -/
def HttpAnswer.isResponse : HttpAnswer → Bool
  | .response .. => true
  | _ => false

/-- What the environment answers with. -/
structure ReplyChoice where
  now : Timestamp := 0
  clock : ℚ := 0
  uuid : String := ""
  acquired : Bool := true
  answer : HttpAnswer := .timeoutError

/-- **One request of the call running as `pid`.** -/
def replyHandler (store : DeliveryStoreKind) (pid : ℕ) (c : ReplyChoice) : (op : ReplyOp) →
    ReplyState →
    Option (Except PyException (ReplyRes op) × ReplyState)
  | .getDelivery key, s =>
    match s.rows.get key with
    | none => some (.ok none, s.knowing pid key none)
    | some d =>
      if store.reads d then some (.ok (some d), s.knowing pid key (some d))
      else some (.error validationError, s)
  | .saveDelivery d, s =>
    let s := (s.setRow d.key (store.saved (s.rows.get d.key) d) c.now).knowing pid d.key (some d)
    some (.ok (), if s.holder d.key = some pid then s.released d.key else s)
  | .claimAttempt key fromStatus attemptNo, s =>
    match s.rows.get key with
    | none => some (.ok none, s)
    | some d =>
      if d.status ≠ fromStatus then some (.ok none, s)
      else
        let claimed := d.copy .inFlight attemptNo
        let s := s.setRow key claimed c.now
        if store.reads claimed then
          some (.ok (some claimed),
            { s.knowing pid key (some claimed) with
              holder := Function.update s.holder key (some pid) })
        else some (.error validationError, s)
  | .saveAttempt a, s =>
    if store = .database ∧ s.attempts.any (fun b => b.tenantId = a.tenantId
        ∧ b.attemptId = a.attemptId) then some (.ok (), s)
    else if store = .database ∧ s.attempts.any (fun b => b.number = a.number) then
      some (.error .sqlAlchemy, s)
    else some (.ok (), { s with attempts := s.attempts ++ [a] })
  | .listDeadLetters tenantId, s =>
    let letters := (s.rows.items.map Prod.snd).filter (fun d => d.tenantId = tenantId
      ∧ d.status = .deadLetter)
    if letters.all store.reads then some (.ok letters, s) else some (.error validationError, s)
  | .uuid4, s => some (.ok c.uuid, s)
  | .sleep _, s => some (.ok (), s)
  | .tryAcquire, s => some (.ok c.acquired, s)
  | .clock, s => some (.ok c.clock, s)
  | .updatedAt client key, s => some (.ok (s.updatedAt client key), s)
  | .setUpdatedAt client key now, s =>
    some (.ok (), { s with
      updatedAt := Function.update s.updatedAt client
        (Function.update (s.updatedAt client) key (some now)) })
  | .messageId client key, s => some (.ok (s.messageIds client key), s)
  | .setMessageId client key messageId, s =>
    some (.ok (), { s with
      messageIds := Function.update s.messageIds client
        (Function.update (s.messageIds client) key (some messageId)) })
  | .request key attemptNo r, s =>
    some (.ok (), { s.note (.issued key attemptNo) with
      wire := Function.update s.wire pid (some ⟨key, attemptNo, r, false⟩) })
  | .answer, s =>
    match s.wire pid with
    | none => none
    | some o =>
      let s := { s with wire := Function.update s.wire pid none }
      some (.ok c.answer,
        if c.answer.isResponse then s.note (.answered o.key o.attemptNo) else s)
  | .reconciled key attemptNo verdict, s =>
    some (.ok (), s.note (.reconciled key attemptNo verdict))

/-! ## The provider -/

/-- **A request is acted on.** A card with a known `uuid` is returned as it is; a
patch replaces the content. -/
def applyRequest (cards : Dictionary DeliveryKey ProviderCard) (key : DeliveryKey)
    (newId : String) : ChannelRequest → Dictionary DeliveryKey ProviderCard
  | .post .. => cards
  | .createCard _ _ content =>
    if (cards.get key).isSome then cards else cards.set key ⟨newId, content⟩
  | .patchCard messageId content =>
    match cards.items.find? (fun e => e.2.messageId = messageId) with
    | none => cards
    | some e => cards.set e.1 ⟨messageId, content⟩

/-- A request of a call reaches the provider, which has a message id of its own
for what is new. -/
structure ProviderEvent where
  pid : ℕ
  newId : String

/-- The effect of the event. A message id is not given twice. -/
def ProviderEvent.apply (e : ProviderEvent) (s : ReplyState) : Option ReplyState :=
  match s.wire e.pid with
  | none => none
  | some o =>
    if o.applied ∨ s.cards.items.any (fun c => c.2.messageId = e.newId) then none
    else some { s with
      cards := applyRequest s.cards o.key e.newId o.request
      wire := Function.update s.wire e.pid (some { o with applied := true }) }

/-! ## The system -/

/-- A call of the service. A transport belongs to the caller's instance of it. -/
inductive ReplyCall where
  | enqueue (tenantId bindingId executionId : String) (externalConversationId content : Text)
      (deliveryId : Option String)
  | run (t : ReplyTransport) (maxAttempts turns : ℕ) (key : DeliveryKey)
  | replay (t : ReplyTransport) (turns : ℕ) (key : DeliveryKey)
  | update (key : DeliveryKey) (content : Text)
  | listDeadLetters (tenantId : String)

/-- The program of a call. -/
def ReplyCall.body : ReplyCall → ReplyProg (List ReplyDelivery)
  | .enqueue tenantId bindingId executionId externalConversationId content deliveryId =>
    (ReplyProg.enqueue tenantId bindingId executionId externalConversationId content
      deliveryId).bind (fun d => .ret [d])
  | .run t maxAttempts turns key =>
    (ReplyProg.run t maxAttempts turns key).bind (fun d => .ret [d])
  | .replay t turns key => (ReplyProg.replay t turns key).bind (fun d => .ret [d])
  | .update key content => (ReplyProg.update key content).bind (fun d => .ret [d])
  | .listDeadLetters tenantId => ReplyOp.ask (.listDeadLetters tenantId)

/-- A crashed call holds nothing and waits for nothing. -/
def ReplyState.abandoned (s : ReplyState) (pid : ℕ) : ReplyState :=
  { s with
    wire := Function.update s.wire pid none
    hand := Function.update s.hand pid none
    holder := fun key => if s.holder key = some pid then none else s.holder key }

/-- **Any number of calls at once**, with what else can happen to the state. -/
def repliesAmong (store : DeliveryStoreKind) {Env : Type}
    (env : Env → ReplyState → Option ReplyState) :
    Pool ReplyOp ReplyRes PyException ReplyChoice ReplyState ReplyCall
      (List ReplyDelivery) Env where
  handler := replyHandler store
  body := ReplyCall.body
  abandon := fun pid s => s.abandoned pid
  env := env

/-- The calls, and the provider. -/
abbrev replies (store : DeliveryStoreKind) :=
  repliesAmong store ProviderEvent.apply

/-- A state of the system. -/
abbrev RepliesState :=
  Pool.State ReplyOp ReplyRes PyException ReplyState ReplyCall (List ReplyDelivery)

/-- A step of it. -/
abbrev RepliesLabel := Pool.Label ReplyChoice ReplyCall ProviderEvent

/-! ## Attempts without an answer -/

/-- The attempts of a delivery whose request went out, that had no response and
no verdict `not_delivered`, after one more entry of the log. -/
def stillOpen (key : DeliveryKey) (attempts : List ℕ) : DeliveryEvent → List ℕ
  | .issued k n => if k = key then attempts ++ [n] else attempts
  | .answered k n => if k = key then attempts.filter (fun m => m ≠ n) else attempts
  | .reconciled k n verdict =>
    if k = key ∧ verdict = .notDelivered then attempts.filter (fun m => m ≠ n) else attempts

/-- **The attempts of a delivery that may have reached the channel** without a
definite answer. -/
def openAttempts (log : List DeliveryEvent) (key : DeliveryKey) : List ℕ :=
  log.foldl (stillOpen key) []

@[simp] theorem openAttempts_append (log : List DeliveryEvent) (e : DeliveryEvent)
    (key : DeliveryKey) :
    openAttempts (log ++ [e]) key = stillOpen key (openAttempts log key) e := by
  simp [openAttempts, List.foldl_append]

/-- **No blind resend**: a request of a delivery goes out only when no attempt of
it is open. -/
def NeverBlind (log : List DeliveryEvent) : Prop :=
  ∀ before key attemptNo later, log = before ++ DeliveryEvent.issued key attemptNo :: later →
    openAttempts before key = []

theorem neverBlind_nil : NeverBlind [] := by
  intro before key attemptNo later h
  cases before <;> cases h

/-- One more entry. -/
theorem NeverBlind.append {log : List DeliveryEvent} {e : DeliveryEvent} (h : NeverBlind log)
    (he : ∀ key attemptNo, e = .issued key attemptNo → openAttempts log key = []) :
    NeverBlind (log ++ [e]) := by
  intro before key attemptNo later heq
  rcases List.eq_nil_or_concat later with rfl | ⟨rest, last, rfl⟩
  · obtain ⟨rfl, hlast⟩ := List.append_inj' heq rfl
    exact he key attemptNo (List.singleton_inj.mp hlast)
  · rw [List.concat_eq_append, ← List.cons_append, ← List.append_assoc] at heq
    obtain ⟨hlog, -⟩ := List.append_inj' heq rfl
    exact h before key attemptNo rest hlog
