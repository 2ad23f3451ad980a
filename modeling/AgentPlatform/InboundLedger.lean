import AgentPlatform.InboundIdentity
import AgentPlatform.JsonCanonical

/-!
# The inbound ledger

What the ledger of inbound messages keeps while any number of events are
ingested at once, with crashes and lost connections anywhere: the row of a
message key is entered once and its payload hash never changes; what is
submitted for the key has the payload of that row; and the gateway has at most
one execution for it.

There are two layers of idempotency. The ledger compares payload hashes and may
find no execution attached yet – another event of the key may be on its way, or
a crash may have come between the submission and the attachment – so several
events of a key can be submitted. The gateway then sees one message id. It is
made from the *text* the tenant was named by, and the ledger reads that text as
a UUID; so the argument needs that calls spell a tenant alike (`Spelled`).

`InboundInv` is the invariant, `InboundKept` what a call relies on the others to
do. The gateway's own discipline is used through `Prog.safe_embed`.
-/

/-! ## Payloads -/

/-- What an event says: a text, by a user, in a session scope. -/
structure InboundPayload where
  text : String
  externalUserId : String
  scope : String
  deriving DecidableEq

/-- The payload of an event. -/
def ChannelEvent.payload (e : ChannelEvent) : InboundPayload where
  text := e.item "text"
  externalUserId := e.item "external_user_id"
  scope := e.scope

/-- The document of a payload. -/
def InboundPayload.json (p : InboundPayload) : Json :=
  .obj [("text", .str p.text), ("external_user_id", .str p.externalUserId),
    ("session_key", .str p.scope)]

/-- The document of a payload from before scoped sessions. -/
def InboundPayload.legacyJson (p : InboundPayload) : Json :=
  .obj [("text", .str p.text), ("external_user_id", .str p.externalUserId)]

/-- **The payload a row records**: the one its hash is of, or – for a hash from
before scoped sessions – the one with the direct scope. -/
def InboundRow.Records (sha256 : String → String) (row : InboundRow) (p : InboundPayload) : Prop :=
  row.payloadHash = sha256 p.json.dumps
    ∨ (row.payloadHash = sha256 p.legacyJson.dumps ∧ p.scope = "direct:" ++ p.externalUserId)

theorem payloadHash_eq (sha256 : String → String) (e : ChannelEvent) :
    e.payloadHash sha256 = sha256 e.payload.json.dumps := rfl

section Payloads

variable {sha256 : String → String}

/-- The keys of a payload are sorted once and for all. -/
theorem InboundPayload.json_canon (p : InboundPayload) :
    p.json.canon = .obj [("external_user_id", .str p.externalUserId),
      ("session_key", .str p.scope), ("text", .str p.text)] := by
  have hsorted : p.json.canon = .obj (List.insertionSort (fun a b => a.1 ≤ b.1)
      [("text", .str p.text), ("external_user_id", .str p.externalUserId),
        ("session_key", .str p.scope)]) := rfl
  rw [hsorted]
  simp [List.insertionSort, List.orderedInsert]

theorem InboundPayload.legacyJson_canon (p : InboundPayload) :
    p.legacyJson.canon = .obj [("external_user_id", .str p.externalUserId),
      ("text", .str p.text)] := by
  have hsorted : p.legacyJson.canon = .obj (List.insertionSort (fun a b => a.1 ≤ b.1)
      [("text", .str p.text), ("external_user_id", .str p.externalUserId)]) := rfl
  rw [hsorted]
  simp [List.insertionSort, List.orderedInsert]

theorem InboundPayload.json_wellFormed (p : InboundPayload) : p.json.WellFormed :=
  ⟨trivial, trivial, trivial, trivial⟩

theorem InboundPayload.legacyJson_wellFormed (p : InboundPayload) : p.legacyJson.WellFormed :=
  ⟨trivial, trivial, trivial⟩

/-- **A row records one payload.** -/
theorem InboundRow.Records.unique (hsha : Function.Injective sha256) {row : InboundRow}
    {p q : InboundPayload} (hp : row.Records sha256 p) (hq : row.Records sha256 q) : p = q := by
  have hmixed : ∀ a b : InboundPayload, sha256 a.json.dumps = sha256 b.legacyJson.dumps →
      False := by
    intro a b h
    have hcanon := Json.canon_eq_of_dumps a.json_wellFormed b.legacyJson_wellFormed (hsha h)
    rw [a.json_canon, b.legacyJson_canon] at hcanon
    simp at hcanon
  rcases hp with hp | ⟨hp, hscope⟩ <;> rcases hq with hq | ⟨hq, hscope'⟩
  · have hcanon := Json.canon_eq_of_dumps p.json_wellFormed q.json_wellFormed
      (hsha (hp.symm.trans hq))
    rw [p.json_canon, q.json_canon] at hcanon
    simp only [Json.obj.injEq, List.cons.injEq, Prod.mk.injEq, Json.str.injEq, true_and,
      and_true] at hcanon
    obtain ⟨huser, hscope, htext⟩ := hcanon
    exact InboundPayload.mk.injEq .. ▸ ⟨htext, huser, hscope⟩
  · exact (hmixed p q (hp.symm.trans hq)).elim
  · exact (hmixed q p (hq.symm.trans hp)).elim
  · have hcanon := Json.canon_eq_of_dumps p.legacyJson_wellFormed q.legacyJson_wellFormed
      (hsha (hp.symm.trans hq))
    rw [p.legacyJson_canon, q.legacyJson_canon] at hcanon
    simp only [Json.obj.injEq, List.cons.injEq, Prod.mk.injEq, Json.str.injEq, true_and,
      and_true] at hcanon
    obtain ⟨huser, htext⟩ := hcanon
    rw [huser, ← hscope'] at hscope
    exact InboundPayload.mk.injEq .. ▸ ⟨htext, huser, hscope⟩

/-- **A payload that matches is the recorded one.** The converse fails for a row
from before scoped sessions and an event that states its direct scope. -/
theorem records_of_payloadMatches {e : ChannelEvent} {row : InboundRow}
    (h : e.payloadMatches sha256 row.payloadHash = true) : row.Records sha256 e.payload := by
  simp only [ChannelEvent.payloadMatches, Bool.or_eq_true, Bool.and_eq_true,
    decide_eq_true_eq] at h
  rcases h with h | ⟨hnone, h⟩
  · exact .inl h
  · refine .inr ⟨h, ?_⟩
    rw [Option.isNone_iff_eq_none] at hnone
    simp [ChannelEvent.payload, ChannelEvent.scope, ChannelEvent.scopeOf, hnone]

/-- An event matches the hash it would be recorded with. -/
theorem payloadMatches_self (e : ChannelEvent) :
    e.payloadMatches sha256 (e.payloadHash sha256) = true := by
  simp [ChannelEvent.payloadMatches]

end Payloads

/-! ## Submissions of the service -/

section Submissions

variable {uuid5 : String → String}

/-- A value of a channel context. -/
def contextValue (name : String) (ctx : List (String × String)) : Option String :=
  (ctx.find? (fun f => f.1 = name)).map (fun f => f.2)

/-- Of the entries made for some keys, one is found under each key that has a
value. -/
theorem contextValue_filterMap (g : String → Option String) (name : String)
    (keys : List String) (rest : List (String × String)) :
    contextValue name (keys.filterMap (fun k => (g k).map (fun v => (k, v))) ++ rest)
      = (if name ∈ keys then g name else none).or (contextValue name rest) := by
  induction keys with
  | nil => rfl
  | cons k ks ih =>
    cases hk : g k with
    | none =>
      rw [List.filterMap_cons_none (by rw [hk]; rfl), ih]
      by_cases hname : name = k
      · subst hname
        rw [if_pos List.mem_cons_self, hk]
        split <;> rfl
      · simp [hname]
    | some v =>
      rw [List.filterMap_cons_some (by rw [hk]; rfl), List.cons_append]
      by_cases hname : k = name
      · subst hname
        rw [if_pos List.mem_cons_self, hk]
        simp [contextValue]
      · have hskip : contextValue name ((k, v) :: (ks.filterMap (fun k => (g k).map
            (fun v => (k, v))) ++ rest)) = contextValue name (ks.filterMap (fun k => (g k).map
            (fun v => (k, v))) ++ rest) := by
          simp [contextValue, hname]
        rw [hskip, ih]
        simp [Ne.symm hname]

/-- A field of the event is found in its context. -/
theorem contextValue_channelContext (b : ChannelBinding) (e : ChannelEvent) {name : String}
    (h : name ∈ channelContextKeys) :
    contextValue name (channelContext b e) = e.get name := by
  have hne : ("binding_id" : String) ≠ name := by
    rintro rfl
    exact absurd h (by decide)
  rw [channelContext, contextValue_filterMap, if_pos h]
  simp [contextValue, hne]

/-- So is the binding. -/
theorem contextValue_bindingId (b : ChannelBinding) (e : ChannelEvent) :
    contextValue "binding_id" (channelContext b e) = some b.bindingId := by
  rw [channelContext, contextValue_filterMap, if_neg (by decide)]
  simp [contextValue]

/-- **What `_build_submission` makes of an event.** -/
structure BuiltFrom (uuid5 : String → String) (b : ChannelBinding) (e : ChannelEvent)
    (messageId : String) (sub : AgentExecutionSubmission) : Prop where
  session : sessionFor uuid5 b e = .ok sub.sessionId
  tenant : Uuid.parse b.tenantId = some sub.tenantId
  application : Uuid.parse b.applicationId = some sub.applicationId
  environment : sub.environment = b.environment
  subject : sub.subjectId = some (subjectFor b (e.item "external_user_id"))
  memoryPolicy : memoryPolicyForSessionScope e.sessionScope = .ok sub.memoryPolicyVersion
  messages : sub.messages = [[("role", "user"), ("content", e.item "text")]]
  messageId : sub.messageId = some messageId
  channelContext : sub.channelContext = some (channelContext b e)

theorem builtFrom_of_build {b : ChannelBinding} {e : ChannelEvent} {messageId : String}
    {traceParent : Option String} {sub : AgentExecutionSubmission}
    (h : buildSubmission uuid5 b e messageId traceParent = .ok sub) :
    BuiltFrom uuid5 b e messageId sub := by
  unfold buildSubmission at h
  cases hsession : sessionFor uuid5 b e with
  | error x => rw [hsession] at h; cases h
  | ok sessionId =>
    cases htenant : Uuid.parse b.tenantId with
    | none => rw [hsession, htenant] at h; cases h
    | some t =>
      cases happ : Uuid.parse b.applicationId with
      | none => rw [hsession, htenant, happ] at h; cases h
      | some a =>
        cases hpolicy : memoryPolicyForSessionScope e.sessionScope with
        | error x => rw [hsession, htenant, happ, hpolicy] at h; cases h
        | ok policy =>
          rw [hsession, htenant, happ, hpolicy] at h
          simp only [bind, Except.bind, Option.elim_some] at h
          split at h
          · obtain rfl := Except.ok.inj h
            exact ⟨hsession, htenant, happ, rfl, rfl, hpolicy, rfl, rfl, rfl⟩
          · cases h

end Submissions

/-! ## What a run keeps -/

/-- The columns of a binding that never change. -/
def ChannelBindingRow.fixed (b : ChannelBindingRow) : ChannelBindingRow :=
  { b with status := .ACTIVE }

section Ledger

variable (sha256 uuid5 : String → String) (spell : Uuid → String)

/-- The message id of a key, for tenants spelled by `spell`. -/
def messageIdOf (key : LedgerKey) : String :=
  executionMessageId uuid5 (spell key.1) key.2.1.str key.2.2

/-- **The message id tells the key**, for a tenant. -/
theorem messageIdOf_inj (hinj : Function.Injective uuid5) {key key' : LedgerKey}
    (htenant : key.1 = key'.1) (hk : key.2.1 < 2 ^ 128) (hk' : key'.2.1 < 2 ^ 128)
    (h : messageIdOf uuid5 spell key = messageIdOf uuid5 spell key') : key = key' := by
  obtain ⟨t, b, k⟩ := key
  obtain ⟨t', b', k'⟩ := key'
  obtain rfl : t = t' := htenant
  have hderived : uuid5 ("inbound:" ++ spell t ++ "|" ++ b.str ++ "|" ++ k)
      = uuid5 ("inbound:" ++ spell t ++ "|" ++ b'.str ++ "|" ++ k') := by
    have hlist := congrArg String.toList h
    simp only [messageIdOf, executionMessageId, String.toList_append] at hlist
    exact String.toList_inj.mp (List.append_cancel_left hlist)
  have hlist := congrArg String.toList (hinj hderived)
  simp only [String.toList_append, List.append_assoc] at hlist
  have hrest := List.append_cancel_left (List.append_cancel_left (List.append_cancel_left hlist))
  obtain ⟨hb, hrest⟩ := List.append_inj hrest (by rw [Uuid.length_str, Uuid.length_str])
  have hk := String.toList_inj.mp (List.append_cancel_left hrest)
  have hb := Uuid.str_inj ‹_› ‹_› (String.toList_inj.mp hb)
  rw [hb, hk]

/-- The gateway has the execution `x` for a key. -/
def LeadsTo (key : LedgerKey) (x : Uuid) (s : InboundState) : Prop :=
  ∃ e ∈ s.gateway.committed.executions, e.tenantId = key.1
    ∧ e.messageId = messageIdOf uuid5 spell key ∧ e.id = x

/-- An event that passes the checks of the service. -/
structure ChannelEvent.WellFormed (e : ChannelEvent) : Prop where
  complete : e.isInvalid = false
  messageKey : 1 ≤ (e.item "message_key").length ∧ (e.item "message_key").length ≤ 256
  externalUserId : 1 ≤ (e.item "external_user_id").length
    ∧ (e.item "external_user_id").length ≤ 128

/-- **A submission was routed**: it was built from an event of a binding in the
table, whose payload the ledger records. -/
structure Routed (s : InboundState) (sub : AgentExecutionSubmission) (b : ChannelBindingRow)
    (e : ChannelEvent) : Prop where
  wellFormed : e.WellFormed
  channel : b.channelType.str = e.item "channel_type" ∧ b.externalBotId = e.item "external_bot_id"
  bound : b.fixed ∈ s.bindings.map ChannelBindingRow.fixed
  built : BuiltFrom uuid5 b.binding e
    (messageIdOf uuid5 spell (b.tenantId, b.bindingId, e.item "message_key")) sub
  recorded : ∃ row, s.messages (b.tenantId, b.bindingId, e.item "message_key") = some row
    ∧ e.payloadMatches sha256 row.payloadHash = true

/-- An execution row made from a submission, statuses apart. -/
def ExecutionOf (sub : AgentExecutionSubmission) (e : AgentExecution) : Prop :=
  ∃ releaseId id m, sub.messageId = some m
    ∧ e.identity = newExecution sub releaseId id m (payloadHash sha256 sub)

/-- A request made from a submission. -/
def RequestOf (sub : AgentExecutionSubmission) (r : OutboxRecord) : Prop :=
  ∃ releaseId id outboxId m classification now, sub.messageId = some m
    ∧ r = requestedRecord sub releaseId id outboxId m classification now

/-- A write made for one of the submissions. -/
def WriteOf (subs : List AgentExecutionSubmission) : GatewayWrite → Prop
  | .insertExecution row => ∃ sub ∈ subs, ExecutionOf sha256 sub row
  | .insertOutbox rec => ∃ sub ∈ subs, RequestOf sub rec
  | _ => True

/-- Tables made for some submissions. -/
def TablesOf (subs : List AgentExecutionSubmission) (db : ExecutionDb) : Prop :=
  (∀ e ∈ db.executions, ∃ sub ∈ subs, ExecutionOf sha256 sub e)
    ∧ ∀ r ∈ db.outbox, ∃ sub ∈ subs, RequestOf sub r

/-- **The invariant.** An execution attached to a row is the one the gateway has
for its key – or was attached before scoped sessions, and then nothing was
submitted for the key. -/
structure InboundInv (s : InboundState) : Prop where
  gateway : Consistent False s.gateway
  routes : (s.bindings.map ChannelBindingRow.routeKey).Nodup
  keys : (s.bindings.map ChannelBindingRow.key).Nodup
  bounded : ∀ key row, s.messages key = some row → key.2.1 < 2 ^ 128
  recorded : ∀ key row, s.messages key = some row → ∃ p, row.Records sha256 p
  routed : ∀ sub ∈ s.submitted, ∃ b e, Routed sha256 uuid5 spell s sub b e
  pending : ∀ q ws, s.gateway.pending q = some ws → ∀ w ∈ ws, WriteOf sha256 s.submitted w
  tables : TablesOf sha256 s.submitted s.gateway.committed
  attached : ∀ key row x, s.messages key = some row → row.executionId = some x →
    LeadsTo uuid5 spell key x s ∨ ∀ sub ∈ s.submitted,
      ¬ (sub.tenantId = key.1 ∧ sub.messageId = some (messageIdOf uuid5 spell key))
  released : ∀ key row, s.messages key = some row →
    (row.executionId.isSome ↔ row.releaseId.isSome)

/-- No execution is attached to the key but the one the gateway has for it. -/
def Unclaimed (key : LedgerKey) (s : InboundState) : Prop :=
  ∀ row x, s.messages key = some row → row.executionId = some x → LeadsTo uuid5 spell key x s

/-- **What a call relies on the others to do.** -/
structure InboundKept (pid : ℕ) (s s' : InboundState) : Prop where
  gateway : Undisturbed pid s.gateway s'.gateway
  messages : ∀ key row, s.messages key = some row →
    ∃ row', s'.messages key = some row' ∧ row'.payloadHash = row.payloadHash
  unclaimed : ∀ key, Unclaimed uuid5 spell key s → Unclaimed uuid5 spell key s'
  bindings : s.bindings.map ChannelBindingRow.fixed ⊆ s'.bindings.map ChannelBindingRow.fixed
  submitted : s.submitted ⊆ s'.submitted
  conflicts : s.conflicts ⊆ s'.conflicts

/-- What a request of `pid` owes the others. -/
def InboundOwes (pid : ℕ) (s s' : InboundState) : Prop :=
  InboundInv sha256 uuid5 spell s' ∧ ∀ q, q ≠ pid → InboundKept uuid5 spell q s s'

/-- A step that every call can rely on, also the one that makes it. -/
def InboundStep (s s' : InboundState) : Prop :=
  InboundInv sha256 uuid5 spell s' ∧ ∀ q, InboundKept uuid5 spell q s s'

end Ledger

section Steps

variable {sha256 uuid5 : String → String} {spell : Uuid → String} {pid : ℕ}
  {s s' s'' : InboundState}

theorem InboundKept.refl (pid : ℕ) (s : InboundState) : InboundKept uuid5 spell pid s s :=
  ⟨.refl pid _, fun _ row h => ⟨row, h, rfl⟩, fun _ h => h, fun _ h => h, fun _ h => h,
    fun _ h => h⟩

theorem InboundKept.trans (h : InboundKept uuid5 spell pid s s')
    (h' : InboundKept uuid5 spell pid s' s'') : InboundKept uuid5 spell pid s s'' := by
  refine ⟨h.gateway.trans h'.gateway, fun key row hrow => ?_,
    fun key hu => h'.unclaimed key (h.unclaimed key hu), fun _ hb => h'.bindings (h.bindings hb),
    fun _ hb => h'.submitted (h.submitted hb), fun _ hb => h'.conflicts (h.conflicts hb)⟩
  obtain ⟨row₁, hrow₁, hhash₁⟩ := h.messages key row hrow
  obtain ⟨row₂, hrow₂, hhash₂⟩ := h'.messages key row₁ hrow₁
  exact ⟨row₂, hrow₂, hhash₂.trans hhash₁⟩

theorem LeadsTo.kept {key : LedgerKey} {x : Uuid} (h : LeadsTo uuid5 spell key x s)
    (hk : Kept s.gateway.committed s'.gateway.committed) : LeadsTo uuid5 spell key x s' := by
  obtain ⟨e, he, ht, hm, hx⟩ := h
  obtain ⟨e', he', hid⟩ := hk e he
  obtain ⟨ht', hx', hm', -⟩ := AgentExecution.of_identity hid
  exact ⟨e', he', ht'.trans ht, hm'.trans hm, hx'.trans hx⟩

/-- A routed submission stays routed while rows keep their hashes. -/
theorem Routed.kept {sub : AgentExecutionSubmission} {b : ChannelBindingRow} {e : ChannelEvent}
    (h : Routed sha256 uuid5 spell s sub b e)
    (hmessages : ∀ key row, s.messages key = some row →
      ∃ row', s'.messages key = some row' ∧ row'.payloadHash = row.payloadHash)
    (hbindings : s.bindings.map ChannelBindingRow.fixed
      ⊆ s'.bindings.map ChannelBindingRow.fixed) : Routed sha256 uuid5 spell s' sub b e := by
  obtain ⟨row, hrow, hmatch⟩ := h.recorded
  obtain ⟨row', hrow', hhash⟩ := hmessages _ row hrow
  exact ⟨h.wellFormed, h.channel, hbindings h.bound, h.built, row', hrow',
    by rw [hhash]; exact hmatch⟩

/-- A step of the ledger alone keeps what others rely on, when rows keep their
hashes and claim nothing the gateway does not have. -/
theorem InboundKept.of_ledger (hgateway : s'.gateway = s.gateway)
    (hmessages : ∀ key row, s.messages key = some row →
      ∃ row', s'.messages key = some row' ∧ row'.payloadHash = row.payloadHash)
    (hunclaimed : ∀ key, Unclaimed uuid5 spell key s → Unclaimed uuid5 spell key s')
    (hbindings : s.bindings.map ChannelBindingRow.fixed
      ⊆ s'.bindings.map ChannelBindingRow.fixed)
    (hsubmitted : s.submitted ⊆ s'.submitted) (hconflicts : s.conflicts ⊆ s'.conflicts) :
    InboundKept uuid5 spell pid s s' :=
  ⟨hgateway ▸ .refl pid _, hmessages, hunclaimed, hbindings, hsubmitted, hconflicts⟩

/-- **A row is written**: its hash stays if it was there, and it claims no
execution but the one the gateway has for its key. -/
theorem InboundInv.setMessage (h : InboundInv sha256 uuid5 spell s) {key : LedgerKey}
    {row' : InboundRow} (hbounded : key.2.1 < 2 ^ 128)
    (hhash : ∀ row, s.messages key = some row → row'.payloadHash = row.payloadHash)
    (hrecords : ∃ p, row'.Records sha256 p)
    (hclaim : ∀ x, row'.executionId = some x → LeadsTo uuid5 spell key x s)
    (hreleased : row'.executionId.isSome ↔ row'.releaseId.isSome) :
    InboundStep sha256 uuid5 spell s (s.setMessage key row') := by
  have hmessages : ∀ k r, s.messages k = some r →
      ∃ r', (s.setMessage key row').messages k = some r' ∧ r'.payloadHash = r.payloadHash := by
    intro k r hr
    by_cases hk : k = key
    · subst hk
      exact ⟨row', by simp [InboundState.setMessage], hhash r hr⟩
    · exact ⟨r, by simp [InboundState.setMessage, hk, hr], rfl⟩
  have hcases : ∀ k r, (s.setMessage key row').messages k = some r →
      (k = key ∧ r = row') ∨ s.messages k = some r := by
    intro k r hr
    simp only [InboundState.setMessage] at hr
    split at hr
    · rename_i hk
      exact .inl ⟨hk, (Option.some.inj hr).symm⟩
    · exact .inr hr
  refine ⟨⟨h.gateway, h.routes, h.keys, ?_, ?_, ?_, h.pending, h.tables, ?_, ?_⟩, fun q => ?_⟩
  · intro k r hr
    rcases hcases k r hr with ⟨rfl, -⟩ | hr
    · exact hbounded
    · exact h.bounded k r hr
  · intro k r hr
    rcases hcases k r hr with ⟨-, rfl⟩ | hr
    · exact hrecords
    · exact h.recorded k r hr
  · intro sub hsub
    obtain ⟨b, e, hrouted⟩ := h.routed sub hsub
    exact ⟨b, e, hrouted.kept hmessages (fun _ hb => hb)⟩
  · intro k r x hr hx
    rcases hcases k r hr with ⟨rfl, rfl⟩ | hr
    · exact .inl (hclaim x hx)
    · exact h.attached k r x hr hx
  · intro k r hr
    rcases hcases k r hr with ⟨-, rfl⟩ | hr
    · exact hreleased
    · exact h.released k r hr
  · refine .of_ledger rfl hmessages (fun k hu r x hr hx => ?_) (fun _ hb => hb) (fun _ hb => hb)
      (fun _ hb => hb)
    rcases hcases k r hr with ⟨rfl, rfl⟩ | hr
    · exact hclaim x hx
    · exact hu r x hr hx

theorem InboundStep.same (h : InboundInv sha256 uuid5 spell s) :
    InboundStep sha256 uuid5 spell s s := ⟨h, fun q => .refl q s⟩

/-- A conflict is recorded. -/
theorem InboundInv.conflict (h : InboundInv sha256 uuid5 spell s) (c : ConflictRow) :
    InboundStep sha256 uuid5 spell s { s with conflicts := s.conflicts ++ [c] } :=
  ⟨⟨h.gateway, h.routes, h.keys, h.bounded, h.recorded, fun sub hsub => by
      obtain ⟨b, e, hrouted⟩ := h.routed sub hsub
      exact ⟨b, e, hrouted.wellFormed, hrouted.channel, hrouted.bound, hrouted.built,
        hrouted.recorded⟩,
      h.pending, h.tables, h.attached, h.released⟩,
    fun _ => .of_ledger rfl (fun _ row hr => ⟨row, hr, rfl⟩) (fun _ hu => hu) (fun _ hb => hb)
      (fun _ hb => hb) (List.subset_append_left _ _)⟩

/-- **The submitter is called** with a routed submission, for a key nobody else's
execution is attached to. -/
theorem InboundInv.submitter (h : InboundInv sha256 uuid5 spell s)
    {sub : AgentExecutionSubmission} {b : ChannelBindingRow} {e : ChannelEvent}
    (hrouted : Routed sha256 uuid5 spell s sub b e)
    (hunclaimed : ∀ key, key.2.1 < 2 ^ 128 → sub.tenantId = key.1 →
      sub.messageId = some (messageIdOf uuid5 spell key) → Unclaimed uuid5 spell key s) :
    InboundStep sha256 uuid5 spell s { s with submitted := s.submitted ++ [sub] } := by
  have hwrite : ∀ w, WriteOf sha256 s.submitted w → WriteOf sha256 (s.submitted ++ [sub]) w := by
    intro w hw
    cases w with
    | insertExecution row =>
      obtain ⟨x, hx, hof⟩ := hw
      exact ⟨x, List.mem_append_left _ hx, hof⟩
    | insertOutbox rec =>
      obtain ⟨x, hx, hof⟩ := hw
      exact ⟨x, List.mem_append_left _ hx, hof⟩
    | setBucket bucket => trivial
    | insertSession row => trivial
  refine ⟨⟨h.gateway, h.routes, h.keys, h.bounded, h.recorded, ?_, fun q ws hq w hw =>
    hwrite w (h.pending q ws hq w hw), ⟨?_, ?_⟩, ?_, h.released⟩, fun q => ?_⟩
  · intro x hx
    rcases List.mem_append.mp hx with hx | hx
    · obtain ⟨b', e', hr⟩ := h.routed x hx
      exact ⟨b', e', hr.wellFormed, hr.channel, hr.bound, hr.built, hr.recorded⟩
    · obtain rfl := List.mem_singleton.mp hx
      exact ⟨b, e, hrouted.wellFormed, hrouted.channel, hrouted.bound, hrouted.built,
        hrouted.recorded⟩
  · intro x hx
    obtain ⟨y, hy, hof⟩ := h.tables.1 x hx
    exact ⟨y, List.mem_append_left _ hy, hof⟩
  · intro x hx
    obtain ⟨y, hy, hof⟩ := h.tables.2 x hx
    exact ⟨y, List.mem_append_left _ hy, hof⟩
  · intro key row x hrow hx
    by_cases hkey : sub.tenantId = key.1 ∧ sub.messageId = some (messageIdOf uuid5 spell key)
    · exact .inl (hunclaimed key (h.bounded key row hrow) hkey.1 hkey.2 row x hrow hx)
    · refine (h.attached key row x hrow hx).imp_right (fun hnone y hy => ?_)
      rcases List.mem_append.mp hy with hy | hy
      · exact hnone y hy
      · obtain rfl := List.mem_singleton.mp hy
        exact hkey
  · exact .of_ledger rfl (fun _ row hr => ⟨row, hr, rfl⟩) (fun _ hu => hu) (fun _ hb => hb)
      (List.subset_append_left _ _) (fun _ hb => hb)

/-! ### The statements of a submission -/

/-- What the submission `sub` writes is made from it. -/
def SubmitsFor (sha256 : String → String) (sub : AgentExecutionSubmission) : TxOp SubmitOp → Prop
  | .run (.insertExecution row) => ExecutionOf sha256 sub row
  | .run (.insertOutbox rec) => RequestOf sub rec
  | _ => True

theorem issues_deduplicated {sub : AgentExecutionSubmission} {m hash : String} {releaseId : Uuid} :
    (deduplicatedSubmission sub m hash releaseId).Issues (SubmitsFor sha256 sub) := by
  refine (Prog.issues_perform trivial).bind (fun found => ?_)
  cases found with
  | none => trivial
  | some x =>
    obtain ⟨id, stored⟩ := x
    by_cases hne : stored ≠ hash
    · simp [hne]
    · simp [hne]

theorem issues_insertRequested {sub : AgentExecutionSubmission} {m : String}
    (hm : sub.messageId = some m) {releaseId : Uuid}
    {classification : Option DataClassification} :
    (insertRequested sub m (payloadHash sha256 sub) releaseId classification).Issues
      (SubmitsFor sha256 sub) := by
  refine (Prog.issues_perform trivial).bind (fun id => ?_)
  have hexecution : SubmitsFor sha256 sub (.run (.insertExecution
      (newExecution sub releaseId id m (payloadHash sha256 sub)))) :=
    ⟨releaseId, id, m, hm, rfl⟩
  refine (Prog.issues_perform hexecution).bind (fun inserted => ?_)
  cases inserted with
  | none =>
    refine issues_deduplicated.bind (fun duplicate => ?_)
    cases duplicate <;> trivial
  | some executionId =>
    refine (Prog.issues_perform trivial).bind (fun outboxId => ?_)
    have hrequest : SubmitsFor sha256 sub (.run (.insertOutbox
        (requestedRecord sub releaseId executionId outboxId m classification 0))) :=
      ⟨releaseId, executionId, outboxId, m, classification, 0, hm, rfl⟩
    exact (Prog.issues_perform hrequest).bind (fun _ => trivial)

/-- **A submission writes nothing but its own execution and request.** -/
theorem issues_submit {policy : CapacityPolicy} {sub : AgentExecutionSubmission} {m : String}
    (hm : sub.messageId = some m) :
    (submit sha256 policy sub).Issues (SubmitsFor sha256 sub) := by
  have hne : m ≠ "" := by
    rintro rfl
    exact absurd (sub.messageId_length "" hm).1 (by decide)
  refine (Prog.issues_perform trivial).bind (fun found => ?_)
  cases found with
  | none => trivial
  | some releaseId =>
    have hid : submissionMessageId sub = .ret m := by
      unfold submissionMessageId
      simp only [hm, if_neg hne]
      rfl
    simp only [hid, Prog.bind_eq, Prog.bind]
    refine Engine.issues_transaction ?_ ⟨trivial, trivial, trivial⟩
    refine (Prog.issues_perform trivial).bind (fun release => ?_)
    cases release with
    | none => trivial
    | some classification =>
      refine issues_deduplicated.bind (fun duplicate => ?_)
      cases duplicate with
      | some accepted => trivial
      | none =>
        refine (Prog.issues_perform trivial).bind (fun (admission : Admission) => ?_)
        split
        · refine issues_deduplicated.bind (fun duplicate => ?_)
          cases duplicate <;> trivial
        · refine Prog.Issues.bind ?_ (fun _ => issues_insertRequested hm)
          unfold createSessionIfMissing
          split
          · trivial
          · exact Prog.issues_perform trivial

/-- Its statements make writes of its own. -/
theorem writeOf_exec {subs : List AgentExecutionSubmission} {sub : AgentExecutionSubmission}
    (hsub : sub ∈ subs) {op : SubmitOp} (hop : SubmitsFor sha256 sub (.run op)) (a : GatewayAnswer)
    (db : ExecutionDb) : ∀ w ∈ (op.exec a db).2, WriteOf sha256 subs w := by
  intro w hw
  cases op with
  | insertExecution row =>
    simp only [SubmitOp.exec] at hw
    split at hw
    · cases hw
    · split at hw
      · cases hw
      · obtain rfl := List.mem_singleton.mp hw
        exact ⟨sub, hsub, hop⟩
  | insertOutbox rec =>
    simp only [SubmitOp.exec] at hw
    split at hw
    · obtain rfl := List.mem_singleton.mp hw
      obtain ⟨releaseId, id, outboxId, m, classification, now, hm, rfl⟩ := hop
      exact ⟨sub, hsub, releaseId, id, outboxId, m, classification, a.now, hm, rfl⟩
    · cases hw
  | tryAdmit policy =>
    simp only [SubmitOp.exec] at hw
    split at hw
    · cases hw
    · obtain rfl := List.mem_singleton.mp hw
      trivial
  | insertSession tenantId applicationId sessionId =>
    simp only [SubmitOp.exec, sessionWrites] at hw
    split at hw
    · cases hw
    · obtain rfl := List.mem_singleton.mp hw
      trivial
  | resolveDeployment t app env n => cases hw
  | uuid7 => cases hw
  | selectRelease t r => cases hw
  | selectExecution t n => cases hw

/-- Writes made for some submissions keep the tables made for them. -/
theorem tablesOf_apply {subs : List AgentExecutionSubmission} {w : GatewayWrite} {db : ExecutionDb}
    (hw : WriteOf sha256 subs w) (h : TablesOf sha256 subs db) :
    TablesOf sha256 subs (w.apply db) := by
  cases w with
  | insertExecution row =>
    refine ⟨fun e he => ?_, h.2⟩
    rcases List.mem_append.mp he with he | he
    · exact h.1 e he
    · obtain rfl := List.mem_singleton.mp he
      exact hw
  | insertOutbox rec =>
    refine ⟨h.1, fun r hr => ?_⟩
    rcases List.mem_append.mp hr with hr | hr
    · exact h.2 r hr
    · obtain rfl := List.mem_singleton.mp hr
      exact hw
  | setBucket bucket => exact h
  | insertSession row => exact h

/-- The database of the gateway changes, and nothing else. -/
theorem InboundInv.setGateway (h : InboundInv sha256 uuid5 spell s) {g : GatewayState}
    (hinv : Consistent False g)
    (hpending : ∀ q ws, g.pending q = some ws → ∀ w ∈ ws, WriteOf sha256 s.submitted w)
    (htables : TablesOf sha256 s.submitted g.committed)
    (hkept : Kept s.gateway.committed g.committed) :
    InboundInv sha256 uuid5 spell { s with gateway := g } where
  gateway := hinv
  routes := h.routes
  keys := h.keys
  bounded := h.bounded
  recorded := h.recorded
  routed := fun sub hsub => by
    obtain ⟨b, e, hr⟩ := h.routed sub hsub
    exact ⟨b, e, hr.wellFormed, hr.channel, hr.bound, hr.built, hr.recorded⟩
  pending := hpending
  tables := htables
  attached := fun key row x hrow hx =>
    (h.attached key row x hrow hx).imp_left (fun hl => LeadsTo.kept hl hkept)
  released := h.released

/-- What others see of it. -/
theorem InboundKept.setGateway {g : GatewayState} (h : Undisturbed pid s.gateway g) :
    InboundKept uuid5 spell pid s { s with gateway := g } :=
  ⟨h, fun _ row hr => ⟨row, hr, rfl⟩,
    fun _ hu row x hrow hx => LeadsTo.kept (hu row x hrow hx) h.kept,
    fun _ hb => hb, fun _ hb => hb, fun _ hb => hb⟩

/-- **A statement of a submission that the submitter was called with.** -/
theorem InboundInv.gatewayStep (h : InboundInv sha256 uuid5 spell s)
    {sub : AgentExecutionSubmission} (hsub : sub ∈ s.submitted) {op : TxOp SubmitOp}
    (hop : SubmitsFor sha256 sub op) {c : Choice GatewayAnswer}
    {r : Except PyException (TxRes SubmitRes op)} {g : GatewayState}
    (hh : gatewayEngine.handler pid c op s.gateway = some (r, g))
    (howes : Owes False pid s.gateway g) :
    InboundOwes sha256 uuid5 spell pid s { s with gateway := g } := by
  have hwrites := gatewayEngine.writes_of_handler (F := WriteOf sha256 s.submitted)
    (C := TablesOf sha256 s.submitted) (by
      rintro o rfl a fr db x w hw
      exact writeOf_exec hsub hop a db w hw) (fun w db hw hdb => tablesOf_apply hw hdb)
    h.pending h.tables hh
  exact ⟨h.setGateway howes.1 hwrites.1 hwrites.2 howes.kept,
    fun q hq => .setGateway (howes.2 q hq)⟩

end Steps

/-! ## The call of an event -/

/-- **A request is served as it should be**: the connections hold, the binding is
found, the trace context is one, and the gateway serves the submission. -/
def WellServed (c : InboundChoice) (op : InboundOp) (s : InboundState) : Prop :=
  match op with
  | .gateway op => ∃ c', c = .gateway c' ∧ ServedWell c' op
  | .resolveBinding tenantId channelType externalBotId =>
    ∃ now traceParent, c = .serve now traceParent ∧ ∀ t, Uuid.parse tenantId = some t →
      (s.resolve t channelType externalBotId).isSome = true
  | .currentTraceparent =>
    ∃ now traceParent, c = .serve now traceParent
      ∧ ∀ t ∈ traceParent, 1 ≤ t.length ∧ t.length ≤ 128
  | _ => ∃ now traceParent, c = .serve now traceParent

/-- The calls in `healthy` are served well. -/
def inboundAllow (healthy : ℕ → Prop) (pid : ℕ) (c : InboundChoice) (op : InboundOp)
    (s : InboundState) : Prop :=
  healthy pid → WellServed c op s

/-- **The binding of a call** is in the table. -/
structure Bound (s : InboundState) (call : InboundCall) (b : ChannelBindingRow) : Prop where
  tenant : Uuid.parse call.tenantId = some b.tenantId
  channel : b.channelType.str = call.event.item "channel_type"
    ∧ b.externalBotId = call.event.item "external_bot_id"
  mem : b.fixed ∈ s.bindings.map ChannelBindingRow.fixed

/-- The ledger key of a call with a binding. -/
def InboundCall.key (call : InboundCall) (b : ChannelBindingRow) : LedgerKey :=
  (b.tenantId, b.bindingId, call.event.item "message_key")

/-- **Two events are the same to both layers**: the message, and what its
execution is told of the channel. -/
structure SameMessage (e e' : ChannelEvent) : Prop where
  messageKey : e.item "message_key" = e'.item "message_key"
  text : e.item "text" = e'.item "text"
  externalUserId : e.item "external_user_id" = e'.item "external_user_id"
  context : ∀ name ∈ ["session_key", "response_url", "chat_type", "chat_id"],
    e.get name = e'.get name

/-- **The gateway has accepted a call's message** as the execution `x`: the
submitter was called with the same message, and it is stored. -/
def Expects (sha256 uuid5 : String → String) (spell : Uuid → String) (s : InboundState)
    (call : InboundCall) (x : Uuid) : Prop :=
  ∃ sub b e, sub ∈ s.submitted ∧ Routed sha256 uuid5 spell s sub b e ∧ Bound s call b
    ∧ SameMessage e call.event
    ∧ Stored sha256 sub (messageIdOf uuid5 spell (call.key b)) x s.gateway.committed

section Call

variable {sha256 uuid5 : String → String} {spell : Uuid → String} {healthy : ℕ → Prop} {pid : ℕ}
  {call : InboundCall} {b b' : ChannelBindingRow} {s s' : InboundState} {α : Type}

theorem ChannelType.str_injective : Function.Injective ChannelType.str := by
  intro a b h
  cases a <;> cases b <;> first | rfl | exact absurd h (by decide)

/-- A call has one binding. -/
theorem Bound.unique (h : Bound s call b) (h' : Bound s call b')
    (hroutes : (s.bindings.map ChannelBindingRow.routeKey).Nodup) : b.fixed = b'.fixed := by
  have hfixed : (s.bindings.map ChannelBindingRow.fixed).map ChannelBindingRow.routeKey
      = s.bindings.map ChannelBindingRow.routeKey := by
    rw [List.map_map]
    rfl
  refine List.inj_on_of_nodup_map (hfixed ▸ hroutes) h.mem h'.mem ?_
  have htenant : b.tenantId = b'.tenantId := Option.some.inj (h.tenant.symm.trans h'.tenant)
  have htype : b.channelType = b'.channelType :=
    ChannelType.str_injective (h.channel.1.trans h'.channel.1.symm)
  have hbot : b.externalBotId = b'.externalBotId := h.channel.2.trans h'.channel.2.symm
  simp only [ChannelBindingRow.routeKey, ChannelBindingRow.fixed, htenant, htype, hbot]

/-- Bindings that agree but for their status agree on the rest. -/
theorem binding_of_fixed (h : b.fixed = b'.fixed) :
    b.tenantId = b'.tenantId ∧ b.bindingId = b'.bindingId ∧ b.channelType = b'.channelType
      ∧ b.applicationId = b'.applicationId ∧ b.environment = b'.environment := by
  simp only [ChannelBindingRow.fixed, ChannelBindingRow.mk.injEq] at h
  exact ⟨h.1, h.2.1, h.2.2.1, h.2.2.2.2.1, h.2.2.2.2.2.1⟩

theorem Bound.key_eq (h : Bound s call b) (h' : Bound s call b')
    (hroutes : (s.bindings.map ChannelBindingRow.routeKey).Nodup) : call.key b = call.key b' := by
  obtain ⟨ht, hb, -⟩ := binding_of_fixed (h.unique h' hroutes)
  simp only [InboundCall.key, ht, hb]

theorem Bound.kept (h : Bound s call b) (hk : InboundKept uuid5 spell pid s s') :
    Bound s' call b := ⟨h.tenant, h.channel, hk.bindings h.mem⟩

theorem Expects.kept {x : Uuid} (h : Expects sha256 uuid5 spell s call x)
    (hk : InboundKept uuid5 spell pid s s') : Expects sha256 uuid5 spell s' call x := by
  obtain ⟨sub, b, e, hsub, hrouted, hbound, hsame, hst⟩ := h
  exact ⟨sub, b, e, hk.submitted hsub, hrouted.kept hk.messages hk.bindings, hbound.kept hk, hsame,
    hst.kept hk.gateway.kept⟩

/-- **Where the ledger found the row of a call**, and the hash it has. -/
def Located (s : InboundState) (call : InboundCall) (b : ChannelBindingRow) (hash : String) :
    Prop :=
  Bound s call b ∧ ∃ row, s.messages (call.key b) = some row ∧ row.payloadHash = hash

theorem Located.kept {hash : String} (h : Located s call b hash)
    (hk : InboundKept uuid5 spell pid s s') : Located s' call b hash := by
  obtain ⟨hbound, row, hrow, hhash⟩ := h
  obtain ⟨row', hrow', hhash'⟩ := hk.messages _ row hrow
  exact ⟨hbound.kept hk, row', hrow', hhash'.trans hhash⟩

/-- The hash found is that of the row, whichever way the binding is known. -/
theorem Located.hash_eq {hash : String} (h : Located s call b hash)
    (hroutes : (s.bindings.map ChannelBindingRow.routeKey).Nodup) (hb : Bound s call b')
    {row : InboundRow} (hrow : s.messages (call.key b') = some row) : row.payloadHash = hash := by
  obtain ⟨hbound, row', hrow', hhash⟩ := h
  rw [hb.key_eq hbound hroutes, hrow'] at hrow
  rw [← Option.some.inj hrow, hhash]

/-! ### A message the gateway has -/

/-- A required field is there. -/
theorem get_of_item_ne {e : ChannelEvent} {name : String} (h : e.item name ≠ "") :
    e.get name = some (e.item name) := by
  unfold ChannelEvent.item at h ⊢
  cases hget : e.get name with
  | none => rw [hget] at h; exact absurd rfl h
  | some value => rfl

theorem isInvalid_eq_false_iff {e : ChannelEvent} :
    e.isInvalid = false ↔ ∀ name ∈ ChannelEvent.required, e.item name ≠ "" := by
  simp [ChannelEvent.isInvalid, ChannelEvent.required]

/-- The same message of the same channel has the required fields. -/
theorem SameMessage.wellFormed {e e' : ChannelEvent} (h : SameMessage e e') (he : e.WellFormed)
    (htype : e'.item "channel_type" = e.item "channel_type")
    (hbot : e'.item "external_bot_id" = e.item "external_bot_id") : e'.WellFormed := by
  refine ⟨?_, h.messageKey ▸ he.messageKey, h.externalUserId ▸ he.externalUserId⟩
  rw [isInvalid_eq_false_iff]
  have hall := isInvalid_eq_false_iff.mp he.complete
  intro name hname
  simp only [ChannelEvent.required, List.mem_cons, List.not_mem_nil, or_false] at hname
  rcases hname with rfl | rfl | rfl | rfl | rfl
  · exact htype ▸ hall _ (by decide)
  · exact hbot ▸ hall _ (by decide)
  · exact h.messageKey ▸ hall _ (by decide)
  · exact h.text ▸ hall _ (by decide)
  · exact h.externalUserId ▸ hall _ (by decide)

theorem SameMessage.payloadMatches {e e' : ChannelEvent} (h : SameMessage e e') (hash : String) :
    e'.payloadMatches sha256 hash = e.payloadMatches sha256 hash := by
  unfold ChannelEvent.payloadMatches ChannelEvent.payloadHash
  rw [h.text, h.externalUserId, h.context "session_key" (by decide)]

theorem SameMessage.sessionScope {e e' : ChannelEvent} (h : SameMessage e e') :
    e'.sessionScope = e.sessionScope := by
  simp only [ChannelEvent.sessionScope, h.externalUserId, h.context "session_key" (by decide)]

/-- The name of a Session is told by three identifiers and the scope. -/
theorem sessionName_congr {binding binding' : ChannelBinding} (scope : String)
    (ht : binding.tenantId = binding'.tenantId)
    (ha : binding.applicationId = binding'.applicationId)
    (hb : binding.bindingId = binding'.bindingId) :
    sessionName binding scope = sessionName binding' scope := by
  show "session:v1|" ++ binding.tenantId ++ "|" ++ binding.applicationId ++ "|"
      ++ binding.bindingId ++ "|" ++ scope
    = "session:v1|" ++ binding'.tenantId ++ "|" ++ binding'.applicationId ++ "|"
      ++ binding'.bindingId ++ "|" ++ scope
  rw [ht, ha, hb]

theorem sessionFor_of_sameMessage {e e' : ChannelEvent} (h : SameMessage e e')
    (hfixed : b.fixed = b'.fixed) :
    sessionFor uuid5 b'.binding e' = sessionFor uuid5 b.binding e := by
  obtain ⟨ht, hb, -, ha, -⟩ := binding_of_fixed hfixed
  have hname : sessionName b'.binding e.sessionScope = sessionName b.binding e.sessionScope :=
    sessionName_congr _ (congrArg Uuid.str ht.symm) (congrArg Uuid.str ha.symm)
      (congrArg Uuid.str hb.symm)
  unfold sessionFor
  rw [h.sessionScope, ← h.externalUserId, hname]

/-- The same message of one binding has one channel context. -/
theorem channelContext_of_sameMessage {e e' : ChannelEvent} (h : SameMessage e e')
    (he : e.WellFormed)
    (he' : e'.WellFormed) (htype : e'.item "channel_type" = e.item "channel_type")
    (hbot : e'.item "external_bot_id" = e.item "external_bot_id") (hfixed : b.fixed = b'.fixed) :
    channelContext b'.binding e' = channelContext b.binding e := by
  have hall := isInvalid_eq_false_iff.mp he.complete
  have hall' := isInvalid_eq_false_iff.mp he'.complete
  have hget : ∀ name ∈ channelContextKeys, e'.get name = e.get name := by
    have hrequired : ∀ name, name ∈ ChannelEvent.required → e'.item name = e.item name →
        e'.get name = e.get name := fun name hname heq => by
      rw [get_of_item_ne (hall name hname), get_of_item_ne (hall' name hname), heq]
    intro name hname
    simp only [channelContextKeys, List.mem_cons, List.not_mem_nil, or_false] at hname
    rcases hname with rfl | rfl | rfl | rfl | rfl | rfl | rfl | rfl
    · exact hrequired _ (by decide) htype
    · exact hrequired _ (by decide) hbot
    · exact hrequired _ (by decide) h.externalUserId.symm
    · exact hrequired _ (by decide) h.messageKey.symm
    all_goals exact (h.context _ (by decide)).symm
  obtain ⟨-, hb, -⟩ := binding_of_fixed hfixed
  unfold channelContext
  rw [show b'.binding.bindingId = b.binding.bindingId from congrArg Uuid.str hb.symm]
  congr 1
  exact List.filterMap_congr (fun name hname => by rw [hget name hname])

/-- The gateway's payload hash is told by the fields it covers. -/
theorem payloadHash_congr {sub sub' : AgentExecutionSubmission}
    (htenant : sub.tenantId = sub'.tenantId) (happ : sub.applicationId = sub'.applicationId)
    (henv : sub.environment = sub'.environment) (hsession : sub.sessionId = sub'.sessionId)
    (hsubject : sub.subjectId = sub'.subjectId)
    (hpolicy : sub.memoryPolicyVersion = sub'.memoryPolicyVersion)
    (hmessages : sub.messages = sub'.messages)
    (hcontext : sub.channelContext = sub'.channelContext) :
    payloadHash sha256 sub = payloadHash sha256 sub' := by
  unfold payloadHash
  rw [htenant, happ, henv, hsession, hsubject, hpolicy, hmessages, hcontext]

/-- The trace context apart, an event is built into one submission. -/
theorem BuiltFrom.stored {binding : ChannelBinding} {e : ChannelEvent} {m : String}
    {sub sub' : AgentExecutionSubmission} (h : BuiltFrom uuid5 binding e m sub)
    (h' : BuiltFrom uuid5 binding e m sub') {x : Uuid} {db : ExecutionDb}
    (hst : Stored sha256 sub m x db) : Stored sha256 sub' m x db := by
  obtain ⟨y, hy, hty, hmy, hxy, hhash⟩ := hst
  have htenant : sub.tenantId = sub'.tenantId := Option.some.inj (h.tenant.symm.trans h'.tenant)
  refine ⟨y, hy, hty.trans htenant, hmy, hxy, hhash.trans ?_⟩
  refine payloadHash_congr htenant (Option.some.inj (h.application.symm.trans h'.application))
    (h.environment.trans h'.environment.symm) (Except.ok.inj (h.session.symm.trans h'.session))
    (h.subject.trans h'.subject.symm)
    (Except.ok.inj (h.memoryPolicy.symm.trans h'.memoryPolicy))
    (h.messages.trans h'.messages.symm) (h.channelContext.trans h'.channelContext.symm)

/-- What is known of an expected call: it passes the checks, its payload is the
recorded one, and it is built into a submission the gateway has. -/
structure Resubmittable (sha256 uuid5 : String → String) (spell : Uuid → String)
    (s : InboundState) (call : InboundCall) (b : ChannelBindingRow) (x : Uuid) : Prop where
  wellFormed : call.event.WellFormed
  recorded : ∃ row, s.messages (call.key b) = some row
    ∧ call.event.payloadMatches sha256 row.payloadHash = true
  session : ∃ sessionId, sessionFor uuid5 b.binding call.event = .ok sessionId
  built : ∀ traceParent : Option String, (∀ t ∈ traceParent, 1 ≤ t.length ∧ t.length ≤ 128) →
    ∃ sub, buildSubmission uuid5 b.binding call.event (messageIdOf uuid5 spell (call.key b))
        traceParent = .ok sub
      ∧ Stored sha256 sub (messageIdOf uuid5 spell (call.key b)) x s.gateway.committed
  submitted : ∃ sub ∈ s.submitted, sub.tenantId = b.tenantId
    ∧ sub.messageId = some (messageIdOf uuid5 spell (call.key b))

theorem Expects.resubmittable {x : Uuid} (h : Expects sha256 uuid5 spell s call x)
    (hroutes : (s.bindings.map ChannelBindingRow.routeKey).Nodup) (hb : Bound s call b) :
    Resubmittable sha256 uuid5 spell s call b x := by
  obtain ⟨sub, b₀, e, hsub, hrouted, hbound, hsame, hst⟩ := h
  have hfixed := hbound.unique hb hroutes
  obtain ⟨ht, hbid, htype, happ, henv⟩ := binding_of_fixed hfixed
  have hkey : call.key b₀ = call.key b := hbound.key_eq hb hroutes
  have hkey₀ : (b₀.tenantId, b₀.bindingId, e.item "message_key") = call.key b := by
    rw [hsame.messageKey]
    exact hkey
  have htype' : call.event.item "channel_type" = e.item "channel_type" :=
    hbound.channel.1.symm.trans hrouted.channel.1
  have hbot' : call.event.item "external_bot_id" = e.item "external_bot_id" :=
    hbound.channel.2.symm.trans hrouted.channel.2
  have hwell := hsame.wellFormed hrouted.wellFormed htype' hbot'
  have hbuilt := hrouted.built
  rw [hkey₀] at hbuilt
  have hsession : sessionFor uuid5 b.binding call.event = .ok sub.sessionId := by
    rw [sessionFor_of_sameMessage hsame hfixed]
    exact hbuilt.session
  have htenant : Uuid.parse b.binding.tenantId = some sub.tenantId := by
    rw [← hbuilt.tenant]
    exact congrArg (fun t => Uuid.parse (Uuid.str t)) ht.symm
  have happlication : Uuid.parse b.binding.applicationId = some sub.applicationId := by
    rw [← hbuilt.application]
    exact congrArg (fun t => Uuid.parse (Uuid.str t)) happ.symm
  have hpolicy : memoryPolicyForSessionScope call.event.sessionScope
      = .ok sub.memoryPolicyVersion := by
    rw [hsame.sessionScope]
    exact hbuilt.memoryPolicy
  have hsubject : subjectFor b.binding (call.event.item "external_user_id")
      = subjectFor b₀.binding (e.item "external_user_id") := by
    simp only [subjectFor, ChannelBindingRow.binding, htype, hbid, hsame.externalUserId]
  have hcontext : channelContext b.binding call.event = channelContext b₀.binding e :=
    channelContext_of_sameMessage hsame hrouted.wellFormed hwell htype' hbot' hfixed
  refine ⟨hwell, ?_, ⟨_, hsession⟩, fun traceParent htrace => ?_, sub, hsub, ?_, hbuilt.messageId⟩
  · obtain ⟨row, hrow, hmatch⟩ := hrouted.recorded
    rw [hkey₀] at hrow
    exact ⟨row, hrow, by rw [hsame.payloadMatches]; exact hmatch⟩
  · have hbounds : (1 ≤ sub.sessionId.length ∧ sub.sessionId.length ≤ 512)
        ∧ (1 ≤ (subjectFor b.binding (call.event.item "external_user_id")).length
          ∧ (subjectFor b.binding (call.event.item "external_user_id")).length ≤ 256)
        ∧ (1 ≤ sub.memoryPolicyVersion.length ∧ sub.memoryPolicyVersion.length ≤ 128)
        ∧ (1 ≤ (messageIdOf uuid5 spell (call.key b)).length
          ∧ (messageIdOf uuid5 spell (call.key b)).length ≤ 256)
        ∧ (∀ t ∈ traceParent, 1 ≤ t.length ∧ t.length ≤ 128) :=
      ⟨sub.sessionId_length, by rw [hsubject]; exact sub.subjectId_length _ hbuilt.subject,
        sub.memoryPolicyVersion_length, sub.messageId_length _ hbuilt.messageId, htrace⟩
    have hbuild : ∃ sub', buildSubmission uuid5 b.binding call.event
        (messageIdOf uuid5 spell (call.key b)) traceParent = .ok sub' := by
      unfold buildSubmission
      rw [hsession, htenant, happlication, hpolicy]
      simp only [bind, Except.bind, Option.elim_some, dif_pos hbounds]
      exact ⟨_, rfl⟩
    obtain ⟨sub', hsub'⟩ := hbuild
    have hbuilt' := builtFrom_of_build hsub'
    have htenants : sub.tenantId = sub'.tenantId :=
      Option.some.inj (htenant.symm.trans hbuilt'.tenant)
    refine ⟨sub', hsub', ?_⟩
    -- the trace context is not part of the payload
    obtain ⟨y, hy, hty, hmy, hxy, hhash⟩ := hst
    rw [hkey] at hmy
    refine ⟨y, hy, hty.trans htenants, hmy, hxy, hhash.trans ?_⟩
    refine payloadHash_congr htenants
      (Option.some.inj (happlication.symm.trans hbuilt'.application)) ?_
      (Except.ok.inj (hsession.symm.trans hbuilt'.session)) ?_
      (Except.ok.inj (hpolicy.symm.trans hbuilt'.memoryPolicy)) ?_ ?_
    · rw [hbuilt.environment, hbuilt'.environment]
      exact henv
    · rw [hbuilt.subject, hbuilt'.subject, hsubject]
    · rw [hbuilt.messages, hbuilt'.messages, hsame.text]
    · rw [hbuilt.channelContext, hbuilt'.channelContext, hcontext]
  · refine Option.some.inj (htenant.symm.trans ?_)
    exact Uuid.parse_str b.tenantId_lt

end Call
