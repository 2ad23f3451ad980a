import AgentPlatform.InboundRuns

/-!
# What the inbound ledger promises

`ingest_once` says what the ledger and the gateway promise together: a message
key has one payload, at most one execution, and an event with another payload is
isolated. `ingest_heals` says what becomes of an event whose execution was
created and never attached: it is found again by an event with the same channel
context. The gateway hashes that context, and the ledger does not.

Both are about every run in which a tenant is spelled alike.
-/

/-! ## Executions and what they are told -/

/-- The ledger key that a channel context names. -/
def inboundKeyOf (tenantId : Uuid) (ctx : Option (List (String × String))) : Option LedgerKey := do
  let ctx ← ctx
  let bindingId ← (contextValue "binding_id" ctx).bind Uuid.parse
  let messageKey ← contextValue "message_key" ctx
  return (tenantId, bindingId, messageKey)

/-- The payload that messages and a channel context carry. -/
def inboundPayloadOf (messages : List ChatMessage) (ctx : Option (List (String × String))) :
    Option InboundPayload := do
  let ctx ← ctx
  let text ← messages.head?.bind (contextValue "content")
  let externalUserId ← contextValue "external_user_id" ctx
  return ⟨text, externalUserId,
    ChannelEvent.scopeOf externalUserId (contextValue "session_key" ctx)⟩

/-- **The execution of a key**: the Outbox has its request, with the channel
context of the key. -/
def ExecutionOfKey (key : LedgerKey) (x : AgentExecution) (data : ExecutionRequestedData)
    (db : ExecutionDb) : Prop :=
  x ∈ db.executions ∧ ∃ r ∈ db.outbox, r.payload = .executionRequested data
    ∧ r.request? = some x.request ∧ inboundKeyOf r.tenantId data.channelContext = some key

/-- **A message is recorded**: the ledger has a row for its key, with its
payload. -/
def RecordedMessage (sha256 : String → String) (s : InboundState) (tenantId : Uuid)
    (messages : List ChatMessage) (ctx : Option (List (String × String))) : Prop :=
  ∃ key row p, inboundKeyOf tenantId ctx = some key ∧ s.messages key = some row
    ∧ inboundPayloadOf messages ctx = some p ∧ row.Records sha256 p

/-- A state of the service. -/
abbrev IngestionsState :=
  Pool.State InboundOp InboundRes PyException InboundState InboundCall AgentExecutionAccepted

/-- The service as a transition system. -/
abbrev ingestionsMachine (sha256 uuid5 : String → String) (policy : CapacityPolicy) :
    Machine IngestionsState (Pool.Label InboundChoice InboundCall InboundEvent) :=
  (ingestions sha256 uuid5 policy).machine (InboundStart sha256)

/-- **The steps in which calls spell tenants alike**, and the calls in `healthy`
are served well. -/
abbrev spelledSteps (spell : Uuid → String) (healthy : ℕ → Prop) :
    IngestionsState → Pool.Label InboundChoice InboundCall InboundEvent → Prop :=
  Pool.stepOk (fun _ call => Spelled spell call) (inboundAllow healthy) (fun _ _ => True)

section Promises

variable {sha256 uuid5 : String → String} {spell : Uuid → String} {s : InboundState}

/-- A routed submission names its key and its payload. -/
theorem Routed.names {sub : AgentExecutionSubmission} {b : ChannelBindingRow} {e : ChannelEvent}
    (h : Routed sha256 uuid5 spell s sub b e) :
    sub.tenantId = b.tenantId
      ∧ inboundKeyOf sub.tenantId sub.channelContext
        = some (b.tenantId, b.bindingId, e.item "message_key")
      ∧ inboundPayloadOf sub.messages sub.channelContext = some e.payload := by
  have hall := isInvalid_eq_false_iff.mp h.wellFormed.complete
  have htenant : sub.tenantId = b.tenantId :=
    Option.some.inj (h.built.tenant.symm.trans (Uuid.parse_str b.tenantId_lt))
  have hkey : contextValue "message_key" (channelContext b.binding e)
      = some (e.item "message_key") := by
    rw [contextValue_channelContext _ _ (by decide), get_of_item_ne (hall _ (by decide))]
  have huser : contextValue "external_user_id" (channelContext b.binding e)
      = some (e.item "external_user_id") := by
    rw [contextValue_channelContext _ _ (by decide), get_of_item_ne (hall _ (by decide))]
  have hbinding : (contextValue "binding_id" (channelContext b.binding e)).bind Uuid.parse
      = some b.bindingId := by
    rw [contextValue_bindingId]
    exact Uuid.parse_str b.bindingId_lt
  have hsession : contextValue "session_key" (channelContext b.binding e) = e.get "session_key" :=
    contextValue_channelContext _ _ (by decide)
  refine ⟨htenant, ?_, ?_⟩
  · rw [h.built.channelContext, inboundKeyOf, htenant]
    simp only [Option.bind_eq_bind, Option.bind_some, hbinding, hkey, Option.pure_def]
  · rw [h.built.channelContext, h.built.messages, inboundPayloadOf]
    simp only [Option.bind_eq_bind, Option.bind_some, huser, hsession, List.head?_cons,
      Option.pure_def]
    rfl

/-- What the submitter is called with is recorded. -/
theorem InboundInv.submission_recorded (h : InboundInv sha256 uuid5 spell s)
    {sub : AgentExecutionSubmission} (hsub : sub ∈ s.submitted) :
    RecordedMessage sha256 s sub.tenantId sub.messages sub.channelContext := by
  obtain ⟨b, e, hr⟩ := h.routed sub hsub
  obtain ⟨row, hrow, hmatch⟩ := hr.recorded
  obtain ⟨-, hkey, hpayload⟩ := hr.names
  exact ⟨_, row, _, hkey, hrow, hpayload, records_of_payloadMatches hmatch⟩

/-- **A key has at most one execution.** -/
theorem InboundInv.execution_unique (h : InboundInv sha256 uuid5 spell s) {key : LedgerKey}
    {x y : AgentExecution} {data data' : ExecutionRequestedData}
    (hx : ExecutionOfKey key x data s.gateway.committed)
    (hy : ExecutionOfKey key y data' s.gateway.committed) : x = y := by
  have hmessage : ∀ {x : AgentExecution} {data : ExecutionRequestedData},
      ExecutionOfKey key x data s.gateway.committed →
      x.tenantId = key.1 ∧ x.messageId = messageIdOf uuid5 spell key := by
    rintro x data ⟨hx, r, hr, hdata, hrequest, hkey⟩
    obtain ⟨sub, hsub, releaseId, id, outboxId, m, classification, now, hm, rfl⟩ := h.tables.2 r hr
    obtain ⟨b, e, hrouted⟩ := h.routed sub hsub
    obtain ⟨htenant, hkey', -⟩ := hrouted.names
    cases hdata
    obtain rfl := Option.some.inj (hkey'.symm.trans hkey)
    have hreq := Option.some.inj hrequest
    simp only [AgentExecution.request, Prod.mk.injEq] at hreq
    refine ⟨hreq.1.symm.trans htenant, hreq.2.1.symm.trans ?_⟩
    exact Option.some.inj (hm.symm.trans hrouted.built.messageId)
  obtain ⟨htx, hmx⟩ := hmessage hx
  obtain ⟨hty, hmy⟩ := hmessage hy
  exact List.inj_on_of_nodup_map h.gateway.coherent.unique hx.1 hy.1 (by rw [htx, hmx, hty, hmy])

end Promises

/-- **The inbound ledger.** In every run whose calls spell a tenant alike – with
any number of events at once, crashes and lost connections anywhere – the row of
a message key, once entered, keeps its payload hash, which is that of one payload;
the key leads to at most one execution, and what was submitted for it, executed or
not, has the recorded payload; an event with another payload is refused, and if it
is well-formed and was served well, as a conflict that is recorded. -/
theorem ingest_once {sha256 uuid5 : String → String} (hsha : Function.Injective sha256)
    (huuid : Function.Injective uuid5) (policy : CapacityPolicy) (spell : Uuid → String)
    (healthy : ℕ → Prop) {w w' : IngestionsState}
    (h : (ingestionsMachine sha256 uuid5 policy).Reach (spelledSteps spell healthy) w)
    (hs : (ingestionsMachine sha256 uuid5 policy).Steps (spelledSteps spell healthy) w w') :
    (∀ key row, w.shared.messages key = some row →
      ∃ row', w'.shared.messages key = some row' ∧ row'.payloadHash = row.payloadHash)
    ∧ (∀ key row, w'.shared.messages key = some row → ∃! p, row.Records sha256 p)
    ∧ (∀ key x y data data', ExecutionOfKey key x data w'.shared.gateway.committed →
      ExecutionOfKey key y data' w'.shared.gateway.committed → x = y)
    ∧ (∀ key x data, ExecutionOfKey key x data w'.shared.gateway.committed →
      RecordedMessage sha256 w'.shared x.tenantId data.messages data.channelContext)
    ∧ (∀ sub ∈ w'.shared.submitted,
      RecordedMessage sha256 w'.shared sub.tenantId sub.messages sub.channelContext)
    ∧ ∀ x ∈ w'.replies, ∀ b row, Bound x.state x.call b →
      x.state.messages (x.call.key b) = some row → ¬ row.Records sha256 x.call.event.payload →
      (∃ e, x.outcome = .error e)
        ∧ (healthy x.pid → x.call.event.WellFormed → x.outcome = .error inboundPayloadConflict
          ∧ ConflictRecorded sha256 x.call b row.payloadHash x.state) := by
  let D := @inboundDiscipline sha256 uuid5 huuid spell healthy policy
  have hgood := Pool.reach_safe D (h.steps hs)
  have hinv : InboundInv sha256 uuid5 spell w'.shared := hgood.inv
  refine ⟨?_, fun key row hrow => ?_, fun key x y data data' hx hy => hinv.execution_unique hx hy,
    ?_, fun sub hsub => hinv.submission_recorded hsub, ?_⟩
  · refine Machine.Steps.trans_rel (M := ingestionsMachine sha256 uuid5 policy)
      (R := fun a b => ∀ key row, a.shared.messages key = some row →
        ∃ row', b.shared.messages key = some row' ∧ row'.payloadHash = row.payloadHash)
      (fun _ _ row hr => ⟨row, hr, rfl⟩) ?_ (fun a l b ha hok hstep => ?_) h hs
    · intro a b c hab hbc key row hr
      obtain ⟨row₁, hr₁, hh₁⟩ := hab key row hr
      obtain ⟨row₂, hr₂, hh₂⟩ := hbc key row₁ hr₁
      exact ⟨row₂, hr₂, hh₂.trans hh₁⟩
    · obtain ⟨q, hq⟩ := D.step_rely (Pool.reach_safe D ha) hok hstep
      exact hq.messages
  · obtain ⟨p, hp⟩ := hinv.recorded key row hrow
    exact ⟨p, hp, fun q hq => hq.unique hsha hp⟩
  · rintro key x data ⟨hx, r, hr, hdata, hrequest, hkey⟩
    obtain ⟨sub, hsub, releaseId, id, outboxId, m, classification, now, hm, rfl⟩ :=
      hinv.tables.2 r hr
    cases hdata
    have hreq := Option.some.inj hrequest
    simp only [AgentExecution.request, Prod.mk.injEq] at hreq
    rw [← hreq.1]
    exact hinv.submission_recorded hsub
  · intro x hx b row hb hrow hother
    have hpost : Ingested sha256 uuid5 spell healthy x.pid x.call none x.outcome x.state :=
      hgood.replies x hx
    have hroutes := (D.reply_inv (h.steps hs) x hx).routes
    have hmiss : x.call.event.payloadMatches sha256 row.payloadHash = false := by
      cases hm : x.call.event.payloadMatches sha256 row.payloadHash with
      | false => rfl
      | true => exact absurd (records_of_payloadMatches hm) hother
    cases hout : x.outcome with
    | ok accepted =>
      obtain ⟨b', row', hb', hrow', hmatch, -⟩ := hpost.accepted accepted hout
      rw [hb'.key_eq hb hroutes, hrow] at hrow'
      rw [← Option.some.inj hrow', hmiss] at hmatch
      cases hmatch
    | error e =>
      refine ⟨⟨e, rfl⟩, fun hp hwell => ?_⟩
      obtain ⟨rfl, hrec⟩ := hpost.isolated e hout hp hwell b row hb hrow hmiss
      exact ⟨rfl, hrec⟩

/-! ### Runs of the service -/

/-- The request of an execution for a key is in the Outbox. -/
def requestsKey (key : LedgerKey) (x : AgentExecution) (r : OutboxRecord) : Bool :=
  match r.payload with
  | .executionRequested data =>
    decide (r.request? = some x.request ∧ inboundKeyOf r.tenantId data.channelContext = some key)
  | _ => false

theorem executionOfKey_of_test {key : LedgerKey} {x : AgentExecution} {db : ExecutionDb}
    (hx : x ∈ db.executions) (h : db.outbox.any (requestsKey key x) = true) :
    ∃ data, ExecutionOfKey key x data db := by
  obtain ⟨r, hr, htest⟩ := List.any_eq_true.mp h
  unfold requestsKey at htest
  split at htest
  · rename_i data hdata
    exact ⟨data, hx, r, hr, hdata, of_decide_eq_true htest⟩
  · cases htest

/-- The service before its first event. -/
def inboundIdle : IngestionsState := Pool.idle sampleInbound

theorem inboundIdle_init : (ingestionsMachine id id {}).init inboundIdle := by
  refine ⟨sampleInbound, ⟨⟨0, rfl⟩, rfl, ?_, ?_, fun key row hr => ?_⟩, rfl⟩
  · exact List.nodup_singleton _
  · exact List.nodup_singleton _
  · cases hr

/-- An event that is submitted and accepted, up to its attachment. -/
def submittedRun (pid : ℕ) (call : InboundCall) (uuid : Uuid) :
    List (Pool.Label InboundChoice InboundCall InboundEvent) :=
  Pool.Label.spawn call :: (List.replicate 5 (Pool.Label.act pid inboundServed)
    ++ (acceptedSubmission uuid).map (fun c => Pool.Label.act pid c))

/-- The message `m1` of the sample channel. -/
def sampleCall (tenantId text : String) : InboundCall where
  tenantId := tenantId
  event := fakeEvent "m1" text ""

/-- The tenant of the sample, spelled without hyphens. -/
def bareTenant : String := "00000000000000000000000000000001"

/-- A test of `WellServed`. -/
def wellServedTest (c : InboundChoice) (op : InboundOp) (s : InboundState) : Bool :=
  match op, c with
  | .gateway (.run (.tryAdmit policy)), .gateway (.serve _) => policy.Positive
  | .gateway _, .gateway (.serve a) => a.deployment.isSome && a.release.isSome
  | .gateway _, _ => false
  | .resolveBinding tenantId channelType externalBotId, .serve _ _ =>
    (Uuid.parse tenantId).all (fun t => (s.resolve t channelType externalBotId).isSome)
  | .currentTraceparent, .serve _ traceParent => traceParent = none
  | _, .serve _ _ => true
  | _, _ => false

theorem wellServed_of_test {c : InboundChoice} {op : InboundOp} {s : InboundState}
    (h : wellServedTest c op s = true) : WellServed c op s := by
  cases op with
  | gateway op =>
    cases c with
    | gateway c =>
      refine ⟨c, rfl, ?_⟩
      cases c with
      | serve a =>
        refine ⟨a, rfl, ?_⟩
        cases op with
        | run op =>
          cases op with
          | tryAdmit policy => exact of_decide_eq_true h
          | resolveDeployment t app env n => exact ((Bool.and_eq_true _ _).mp h).1
          | selectRelease t r => exact ((Bool.and_eq_true _ _).mp h).2
          | _ => trivial
        | _ => trivial
      | _ => cases op <;> first | cases h | (rename_i op; cases op <;> cases h)
    | _ => cases op <;> first | cases h | (rename_i op; cases op <;> cases h)
  | resolveBinding tenantId channelType externalBotId =>
    cases c with
    | serve now traceParent =>
      refine ⟨now, traceParent, rfl, fun t ht => ?_⟩
      simpa [wellServedTest, ht] using h
    | _ => cases h
  | currentTraceparent =>
    cases c with
    | serve now traceParent =>
      refine ⟨now, traceParent, rfl, ?_⟩
      rw [of_decide_eq_true h]
      exact fun t ht => (nomatch ht)
    | _ => cases h
  | _ =>
    cases c with
    | serve now traceParent => exact ⟨now, traceParent, rfl⟩
    | _ => cases h

/-- A test of runs in which everything is served well and the tenant has one
spelling. -/
def wellServedRunTest (w : IngestionsState) :
    Pool.Label InboundChoice InboundCall InboundEvent → Bool
  | .spawn call => call.tenantId = sampleTenant
  | l => Pool.actTest (fun _ => wellServedTest) w l

theorem spelledSteps_of_test (w : IngestionsState)
    (l : Pool.Label InboundChoice InboundCall InboundEvent) (h : wellServedRunTest w l = true) :
    spelledSteps (fun _ => sampleTenant) (fun _ => True) w l := by
  cases l with
  | spawn call => exact fun t _ => of_decide_eq_true h
  | act pid c =>
    intro call op k hth _
    simp only [wellServedRunTest, Pool.actTest, hth] at h
    exact wellServed_of_test h
  | crash pid => trivial
  | env e => trivial

/-- Two runs in which an event is submitted and its call crashes before the attachment:
another spelling of its tenant follows, or another text. -/
theorem submitted_again_runs :
    ((ingestionsMachine id id {}).run inboundIdle
      (submittedRun 0 (sampleCall sampleTenant "hello") 100 ++ [Pool.Label.crash 0]
        ++ submittedRun 1 (sampleCall bareTenant "hello") 200)).map
          (fun w => w.shared.gateway.committed.executions.any (fun x =>
            w.shared.gateway.committed.executions.any (fun y => decide (x.id ≠ y.id)
              && w.shared.gateway.committed.outbox.any (requestsKey (1, 2, "m1") x)
              && w.shared.gateway.committed.outbox.any (requestsKey (1, 2, "m1") y))))
        = some true
    ∧ ((ingestionsMachine id id {}).runIf wellServedRunTest inboundIdle
      (submittedRun 0 (sampleCall sampleTenant "hello") 100 ++ [Pool.Label.crash 0])).bind (fun w =>
        ((ingestionsMachine id id {}).runIf wellServedRunTest w
          (Pool.Label.spawn (sampleCall sampleTenant "bye") :: List.replicate 5
           (Pool.Label.act 1 inboundServed))).map
            (fun w' => w'.replies.any (fun x => x.call.event.item "text" = "bye"
              ∧ inboundPayloadConflict.raisedBy x.outcome))) = some true := by
  decide +kernel

/-- **A key with two executions**: after a crash before the attachment, the
event arrives again under another spelling of its tenant. -/
theorem executions_of_two_spellings :
    ¬ ∀ w, (ingestionsMachine id id {}).Reach Machine.anyStep w → ∀ key x y data data',
      ExecutionOfKey key x data w.shared.gateway.committed →
      ExecutionOfKey key y data' w.shared.gateway.committed → x = y := by
  intro hall
  have hrun := submitted_again_runs.1
  obtain ⟨w, hw, htest⟩ := Machine.reach_of_run inboundIdle_init hrun
  obtain ⟨x, hx, htest⟩ := List.any_eq_true.mp htest
  obtain ⟨y, hy, htest⟩ := List.any_eq_true.mp htest
  obtain ⟨htest, hkeyY⟩ := (Bool.and_eq_true _ _).mp htest
  obtain ⟨hne, hkeyX⟩ := (Bool.and_eq_true _ _).mp htest
  obtain ⟨data, hofX⟩ := executionOfKey_of_test hx hkeyX
  obtain ⟨data', hofY⟩ := executionOfKey_of_test hy hkeyY
  exact of_decide_eq_true hne (by rw [hall w hw _ x y data data' hofX hofY])

/-- **An event of a known key with another text**: the first one crashes before
its execution is attached, and the second is isolated. -/
theorem ingest_once_changed_text :
    ∃ w w' : IngestionsState,
      (ingestionsMachine id id {}).Reach (spelledSteps (fun _ => sampleTenant) (fun _ => True)) w
      ∧ (∃ x, x ∈ w'.replies ∧ x.call.event.item "text" = "bye"
        ∧ x.outcome = .error inboundPayloadConflict)
      ∧ (∀ key row, w.shared.messages key = some row →
        ∃ row', w'.shared.messages key = some row' ∧ row'.payloadHash = row.payloadHash)
      ∧ ∀ key x y data data', ExecutionOfKey key x data w'.shared.gateway.committed →
        ExecutionOfKey key y data' w'.shared.gateway.committed → x = y := by
  have hrun := submitted_again_runs.2
  obtain ⟨w, w', hw, hsteps, htest⟩ := Machine.steps_of_runIf_runIf
    (p := fun _ w' => w'.replies.any (fun x => x.call.event.item "text" = "bye"
              ∧ inboundPayloadConflict.raisedBy x.outcome)) spelledSteps_of_test
    inboundIdle_init hrun
  obtain ⟨x, hx, htest⟩ := List.any_eq_true.mp htest
  obtain ⟨htext, hout⟩ := of_decide_eq_true htest
  obtain ⟨hkept, -, hone, -⟩ := ingest_once Function.injective_id Function.injective_id {}
    (fun _ => sampleTenant) (fun _ => True) hw hsteps
  exact ⟨w, w', hw, ⟨x, hx, htext, PyException.raisedBy_iff.mp hout⟩, hkept, hone⟩

/-! ## An event that arrives again -/

/-- **The gateway accepted a submission for a key** as the execution `x`: the
submitter was called with it, and the execution has its payload. -/
def AcceptedAs (sha256 : String → String) (s : InboundState) (key : LedgerKey)
    (sub : AgentExecutionSubmission) (x : Uuid) : Prop :=
  sub ∈ s.submitted ∧ inboundKeyOf sub.tenantId sub.channelContext = some key
    ∧ ∃ m, sub.messageId = some m ∧ Stored sha256 sub m x s.gateway.committed

/-- **The ledger regards an event as the recorded one**: its key has a row, and
the payload matches. -/
def Regarded (sha256 : String → String) (s : InboundState) (call : InboundCall)
    (b : ChannelBindingRow) : Prop :=
  Bound s call b ∧ ∃ row, s.messages (call.key b) = some row
    ∧ call.event.payloadMatches sha256 row.payloadHash = true

section Again

variable {sha256 uuid5 : String → String} {spell : Uuid → String} {s : InboundState}
  {call : InboundCall} {b : ChannelBindingRow} {sub : AgentExecutionSubmission} {x : Uuid}

/-- Events with one channel context agree on the fields it has. -/
theorem get_of_channelContext {binding binding' : ChannelBinding} {e e' : ChannelEvent}
    (h : channelContext binding e = channelContext binding' e') {name : String}
    (hname : name ∈ channelContextKeys) : e.get name = e'.get name := by
  rw [← contextValue_channelContext binding e hname, h, contextValue_channelContext _ _ hname]

/-- **An event with the channel context of an accepted one** is the same message
to both layers. -/
theorem expects_of_acceptedAs (hsha : Function.Injective sha256)
    (h : InboundInv sha256 uuid5 spell s) (hregarded : Regarded sha256 s call b)
    (haccepted : AcceptedAs sha256 s (call.key b) sub x)
    (hcontext : sub.channelContext = some (channelContext b.binding call.event)) :
    Expects sha256 uuid5 spell s call x := by
  obtain ⟨hsub, hkey, m, hm, hst⟩ := haccepted
  obtain ⟨hbound, row, hrow, hmatch⟩ := hregarded
  obtain ⟨b', e, hrouted⟩ := h.routed sub hsub
  obtain ⟨-, hkey', -⟩ := hrouted.names
  have hkeys := Option.some.inj (hkey'.symm.trans hkey)
  have htenant : b'.tenantId = b.tenantId := congrArg Prod.fst hkeys
  have hbinding : b'.bindingId = b.bindingId := congrArg (fun k => k.2.1) hkeys
  have hmessageKey : e.item "message_key" = call.event.item "message_key" :=
    congrArg (fun k => k.2.2) hkeys
  -- the primary key of the table tells that it is one binding
  have hfixed : b'.fixed = b.fixed := by
    refine List.inj_on_of_nodup_map (f := ChannelBindingRow.key) ?_ hrouted.bound hbound.mem ?_
    · rw [List.map_map]
      exact h.keys
    · exact Prod.ext htenant hbinding
  obtain ⟨htenant', -, htype, -⟩ := binding_of_fixed hfixed
  have hbot : b'.fixed.externalBotId = b.fixed.externalBotId := by rw [hfixed]
  have hctx : channelContext b'.binding e = channelContext b.binding call.event :=
    Option.some.inj (hrouted.built.channelContext.symm.trans hcontext)
  -- the text is the one the ledger recorded
  have hpayload : e.payload = call.event.payload := by
    obtain ⟨row', hrow', hmatch'⟩ := hrouted.recorded
    rw [show (b'.tenantId, b'.bindingId, e.item "message_key") = call.key b from hkeys,
      hrow] at hrow'
    obtain rfl := Option.some.inj hrow'
    exact (records_of_payloadMatches hmatch').unique hsha (records_of_payloadMatches hmatch)
  refine ⟨sub, b', e, hsub, hrouted, ⟨?_, ?_, hrouted.bound⟩, ⟨hmessageKey, ?_, ?_, ?_⟩, ?_⟩
  · rw [htenant']
    exact hbound.tenant
  · rw [htype]
    exact ⟨hbound.channel.1, hbot.trans hbound.channel.2⟩
  · exact congrArg InboundPayload.text hpayload
  · exact congrArg InboundPayload.externalUserId hpayload
  · intro name hname
    refine get_of_channelContext hctx ?_
    simp only [List.mem_cons, List.not_mem_nil, or_false] at hname
    rcases hname with rfl | rfl | rfl | rfl <;> decide
  · rw [show call.key b' = (b'.tenantId, b'.bindingId, e.item "message_key") by
      rw [hmessageKey]; rfl]
    obtain rfl : m = _ := Option.some.inj (hm.symm.trans hrouted.built.messageId)
    exact hst

end Again

/-- **Redelivery heals.** In every run whose calls spell a tenant alike, an event
that arrives after the gateway accepted a submission for its key, that the ledger
regards as the recorded one and that has the channel context of the submission,
is answered with the execution of the submission if it is served well – whether
that was attached, or its call crashed before. -/
theorem ingest_heals {sha256 uuid5 : String → String} (hsha : Function.Injective sha256)
    (huuid : Function.Injective uuid5) (policy : CapacityPolicy) (spell : Uuid → String)
    (healthy : ℕ → Prop) {w w₁ w' : IngestionsState}
    (h : (ingestionsMachine sha256 uuid5 policy).Reach (spelledSteps spell healthy) w)
    {call : InboundCall} {b : ChannelBindingRow} {sub : AgentExecutionSubmission} {x : Uuid}
    (haccepted : AcceptedAs sha256 w.shared (call.key b) sub x)
    (hregarded : Regarded sha256 w.shared call b) (hspelled : Spelled spell call)
    (hcontext : sub.channelContext = some (channelContext b.binding call.event))
    (hspawn : (ingestionsMachine sha256 uuid5 policy).step w (.spawn call) = some w₁)
    (hs : (ingestionsMachine sha256 uuid5 policy).Steps (spelledSteps spell healthy) w₁ w')
    (hhealthy : healthy w.spawned) :
    ∀ r ∈ w'.replies, r.pid = w.spawned →
      ∃ accepted, r.outcome = .ok accepted ∧ accepted.executionId = x := by
  let D := @inboundDiscipline sha256 uuid5 huuid spell healthy policy
  have hgood := Pool.reach_safe D h
  have hinv : InboundInv sha256 uuid5 spell w.shared := hgood.inv
  obtain ⟨hpending, hquiet⟩ := hgood.unused w.spawned (Nat.le_refl _)
  have hexpects := expects_of_acceptedAs hsha hinv hregarded haccepted hcontext
  have hsafe : KeepsInbound sha256 uuid5 spell healthy w.spawned
      (ingestVerified sha256 uuid5 policy call.tenantId call.event)
      (Ingested sha256 uuid5 spell healthy w.spawned call (some x)) w.shared :=
    keeps_ingestVerified huuid hspelled
      ⟨hinv, hpending, hquiet, fun y hy => Option.some.inj hy ▸ hexpects⟩
  intro r hr hpid
  exact (D.reply_of_spawn h hsafe hspawn hs r hr hpid).expected x rfl hhealthy

/-! ### Two redeliveries -/

/-- A test of `Regarded`. -/
def regardedTest (s : InboundState) (call : InboundCall) (b : ChannelBindingRow) : Bool :=
  decide (Uuid.parse call.tenantId = some b.tenantId
      ∧ b.channelType.str = call.event.item "channel_type"
      ∧ b.externalBotId = call.event.item "external_bot_id")
    && (s.messages (call.key b)).any (fun row => call.event.payloadMatches id row.payloadHash)

theorem regarded_of_test {s : InboundState} {call : InboundCall} {b : ChannelBindingRow}
    (hb : b ∈ s.bindings) (h : regardedTest s call b = true) : Regarded id s call b := by
  obtain ⟨hbound, hrow⟩ := (Bool.and_eq_true _ _).mp h
  obtain ⟨htenant, hchannel⟩ := of_decide_eq_true hbound
  obtain ⟨row, hrow, hmatch⟩ := (Option.any_eq_true _ _).mp hrow
  exact ⟨⟨htenant, hchannel, List.mem_map_of_mem hb⟩, row, hrow, hmatch⟩

/-- A test of `AcceptedAs`. -/
def acceptedAsTest (s : InboundState) (key : LedgerKey) (x : Uuid)
    (sub : AgentExecutionSubmission) : Bool :=
  decide (inboundKeyOf sub.tenantId sub.channelContext = some key)
    && sub.messageId.any (fun m => s.gateway.committed.executions.any (fun e =>
      e.tenantId = sub.tenantId ∧ e.messageId = m ∧ e.id = x ∧ e.payloadHash = payloadHash id sub))

theorem acceptedAs_of_test {s : InboundState} {key : LedgerKey} {x : Uuid}
    {sub : AgentExecutionSubmission} (hsub : sub ∈ s.submitted)
    (h : acceptedAsTest s key x sub = true) : AcceptedAs id s key sub x := by
  obtain ⟨hkey, hstored⟩ := (Bool.and_eq_true _ _).mp h
  obtain ⟨m, hm, hstored⟩ := (Option.any_eq_true _ _).mp hstored
  obtain ⟨e, he, hstored⟩ := List.any_eq_true.mp hstored
  exact ⟨hsub, of_decide_eq_true hkey, m, hm, e, he, of_decide_eq_true hstored⟩

/-- A message with a response URL. -/
def urlCall (url : String) : InboundCall where
  tenantId := sampleTenant
  event := (fakeEvent "m1" "hello" "").set "response_url" url

/-- **An event arrives again** after its submission was accepted as the execution
`100` and its call crashed; it is submitted once more, under `url`. -/
def redelivered (url : String) (rest : List (Pool.Label InboundChoice InboundCall InboundEvent))
    (p : IngestionsState → IngestionsState → Bool) : Option Bool :=
  ((ingestionsMachine id id {}).runIf wellServedRunTest inboundIdle
    (submittedRun 0 (urlCall "a") 100 ++ [Pool.Label.crash 0])).bind (fun w =>
      ((ingestionsMachine id id {}).step w (Pool.Label.spawn (urlCall url))).bind (fun w₁ =>
        ((ingestionsMachine id id {}).runIf wellServedRunTest w₁
          (List.replicate 5 (Pool.Label.act 1 inboundServed)
            ++ ((acceptedSubmission 200).take 5).map (fun c => Pool.Label.act 1 c) ++ rest)).map
              (p w)))

theorem steps_of_redelivered {url : String}
    {rest : List (Pool.Label InboundChoice InboundCall InboundEvent)}
    {p : IngestionsState → IngestionsState → Bool} (h : redelivered url rest p = some true) :
    ∃ w w₁ w', (ingestionsMachine id id {}).Reach
        (spelledSteps (fun _ => sampleTenant) (fun _ => True)) w
      ∧ (ingestionsMachine id id {}).step w (.spawn (urlCall url)) = some w₁
      ∧ (ingestionsMachine id id {}).Steps
        (spelledSteps (fun _ => sampleTenant) (fun _ => True)) w₁ w' ∧ p w w' = true := by
  obtain ⟨w, hw, h⟩ := Option.bind_eq_some_iff.mp h
  obtain ⟨w₁, hw₁, h⟩ := Option.bind_eq_some_iff.mp h
  obtain ⟨w', hw', hp⟩ := Option.map_eq_some_iff.mp h
  exact ⟨w, w₁, w', (Machine.Reach.of_init inboundIdle_init).steps
    (Machine.steps_of_runIf spelledSteps_of_test hw), hw₁,
    Machine.steps_of_runIf spelledSteps_of_test hw', hp⟩

/-- The ledger regards the event that arrives again as the recorded one, whose
submission was accepted; `same` says whether it has its channel context. -/
def arrivedAgain (call : InboundCall) (same : Bool) (s : InboundState) : Bool :=
  s.bindings.any (fun b => regardedTest s call b
    && s.submitted.any (fun sub => acceptedAsTest s (call.key b) 100 sub
      && (decide (sub.channelContext = some (channelContext b.binding call.event)) == same)))

/-- The event arrives again under another response URL, and under its own. -/
theorem redelivered_runs :
    redelivered "b" [] (fun w w' => arrivedAgain (urlCall "b") false w.shared
      && w'.replies.any (fun r => r.pid = w.spawned
        ∧ messagePayloadConflict.raisedBy r.outcome)) = some true
    ∧ redelivered "a" [.act 1 inboundServed] (fun w w' =>
      arrivedAgain (urlCall "a") true w.shared
        && w'.replies.any (fun r => r.pid = w.spawned)) = some true := by
  decide +kernel

/-- **Redelivery does not heal every event**: with another response URL the
gateway takes the event for a different message. -/
theorem redelivery_conflict :
    ¬ ∀ (w w₁ w' : IngestionsState) (call : InboundCall) (b : ChannelBindingRow)
        (sub : AgentExecutionSubmission) (x : Uuid),
      (ingestionsMachine id id {}).Reach
        (spelledSteps (fun _ => sampleTenant) (fun _ => True)) w →
      AcceptedAs id w.shared (call.key b) sub x → Regarded id w.shared call b →
      (ingestionsMachine id id {}).step w (.spawn call) = some w₁ →
      (ingestionsMachine id id {}).Steps
        (spelledSteps (fun _ => sampleTenant) (fun _ => True)) w₁ w' →
      ∀ r ∈ w'.replies, r.pid = w.spawned →
        ∃ accepted, r.outcome = .ok accepted ∧ accepted.executionId = x := by
  intro hall
  have hrun := redelivered_runs.1
  obtain ⟨w, w₁, w', hw, hw₁, hw', htest⟩ := steps_of_redelivered hrun
  obtain ⟨hagain, hreply⟩ := (Bool.and_eq_true _ _).mp htest
  obtain ⟨b, hb, hagain⟩ := List.any_eq_true.mp hagain
  obtain ⟨hregarded, hagain⟩ := (Bool.and_eq_true _ _).mp hagain
  obtain ⟨sub, hsub, hagain⟩ := List.any_eq_true.mp hagain
  obtain ⟨r, hr, hreply⟩ := List.any_eq_true.mp hreply
  obtain ⟨hpid, hout⟩ := of_decide_eq_true hreply
  obtain ⟨accepted, hok, -⟩ := hall w w₁ w' _ b sub 100 hw
    (acceptedAs_of_test hsub ((Bool.and_eq_true _ _).mp hagain).1)
    (regarded_of_test hb hregarded) hw₁ hw' r hr hpid
  rw [PyException.raisedBy_iff, hok] at hout
  cases hout

/-- With the same response URL the event finds the execution of the crashed
call. -/
theorem ingest_heals_same_url :
    ∃ w' : IngestionsState, ∃ r ∈ w'.replies, ∃ accepted, r.outcome = .ok accepted
      ∧ accepted.executionId = 100 := by
  have hrun := redelivered_runs.2
  obtain ⟨w, w₁, w', hw, hw₁, hw', htest⟩ := steps_of_redelivered hrun
  obtain ⟨hagain, hreply⟩ := (Bool.and_eq_true _ _).mp htest
  obtain ⟨b, hb, hagain⟩ := List.any_eq_true.mp hagain
  obtain ⟨hregarded, hagain⟩ := (Bool.and_eq_true _ _).mp hagain
  obtain ⟨sub, hsub, hagain⟩ := List.any_eq_true.mp hagain
  obtain ⟨haccepted, hcontext⟩ := (Bool.and_eq_true _ _).mp hagain
  obtain ⟨r, hr, hpid⟩ := List.any_eq_true.mp hreply
  exact ⟨w', r, hr, ingest_heals Function.injective_id Function.injective_id {}
    (fun _ => sampleTenant) (fun _ => True) hw (acceptedAs_of_test hsub haccepted)
    (regarded_of_test hb hregarded) (fun _ _ => rfl)
    (of_decide_eq_true (beq_iff_eq.mp hcontext)) hw₁ hw' trivial r hr (of_decide_eq_true hpid)⟩
