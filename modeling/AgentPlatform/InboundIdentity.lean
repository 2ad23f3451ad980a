import AgentPlatform.InboundStore
import AgentPlatform.Separated

/-!
# What a signature and a Session ID stand for

Both are digests of texts joined from fields: a signature of the fields of an
event, separated by newlines, a Session ID of a binding and a scope, separated
by bars – and the scope of a thread of a chat and a root, separated by a colon.
No field is escaped. The digests are taken to be injective, so what they stand
for is decided by the texts, and `Separated.joined_inj_iff` says how much of the
fields a text gives away.
-/

namespace Prog

variable {Op C E S α : Type} {Res : Op → Type}

/-- An evaluated run is a run. -/
theorem runs_of_eval {h : C → (op : Op) → S → Option (Except E (Res op) × S)}
    {p : Prog Op Res E α} {cs : List C} {s s' : S} {r : Except E α}
    (heval : p.eval h cs s = some (r, s')) :
    p.Runs (Handled h (fun _ _ _ => True)) s r s' := by
  induction p generalizing cs s with
  | ret a =>
    cases cs with
    | nil => exact ⟨(Prod.mk.inj (Option.some.inj heval)).1.symm,
        (Prod.mk.inj (Option.some.inj heval)).2.symm⟩
    | cons c cs => cases heval
  | raise e =>
    cases cs with
    | nil => exact ⟨(Prod.mk.inj (Option.some.inj heval)).1.symm,
        (Prod.mk.inj (Option.some.inj heval)).2.symm⟩
    | cons c cs => cases heval
  | call op k ih =>
    cases cs with
    | nil => cases heval
    | cons c cs =>
      obtain ⟨x, hx, hrest⟩ := Option.bind_eq_some_iff.mp heval
      exact ⟨x.1, x.2, ⟨c, trivial, hx⟩, ih x.1 hrest⟩

/-- A run that returns a value with a property, by evaluation. -/
theorem runs_of_eval_test {h : C → (op : Op) → S → Option (Except E (Res op) × S)}
    {p : Prog Op Res E α} {cs : List C} {s : S} {test : α → Bool}
    (heval : (p.eval h cs s).map (fun x => x.1.toOption.any test) = some true) :
    ∃ a s', test a = true ∧ p.Runs (Handled h (fun _ _ _ => True)) s (.ok a) s' := by
  obtain ⟨x, hx, htest⟩ := Option.map_eq_some_iff.mp heval
  obtain ⟨r, s'⟩ := x
  cases r with
  | error e => cases htest
  | ok a => exact ⟨a, s', htest, runs_of_eval hx⟩

end Prog

/-! ## Signatures -/

/-- The fields of an event that its signature covers before the last newline. -/
def ChannelEvent.signedFields (event : ChannelEvent) : List String :=
  [event.item "message_key", event.item "text", event.item "external_user_id"]

/-- The session scope of an event, explicit or implied. -/
def ChannelEvent.scope (event : ChannelEvent) : String :=
  ChannelEvent.scopeOf (event.item "external_user_id") (event.get "session_key")

/-- **Two events are the same to the platform**: the same message key, text,
user and session scope. -/
def SameEvent (e e' : ChannelEvent) : Prop :=
  e.item "message_key" = e'.item "message_key" ∧ e.item "text" = e'.item "text"
    ∧ e.item "external_user_id" = e'.item "external_user_id" ∧ e.scope = e'.scope

/-- The message key, the text and the user of the one event hold as many
newlines as those of the other. -/
def SameNewlines (e e' : ChannelEvent) : Prop :=
  e.signedFields.map (fun f => f.toList.count '\n')
    = e'.signedFields.map (fun f => f.toList.count '\n')

section Signatures

variable {hmac : String → String → String} {material : String}

/-- The text that is signed. -/
def signedText (e : ChannelEvent) : List Char :=
  Separated.joined '\n' (e.signedFields.map String.toList) ((e.get "session_key").getD "").toList

/-- The text that was signed before scoped sessions. -/
def legacyText (e : ChannelEvent) : List Char :=
  Separated.joined '\n' [(e.item "message_key").toList, (e.item "text").toList]
    (e.item "external_user_id").toList

theorem counts_signedFields (e : ChannelEvent) :
    Separated.counts '\n' (e.signedFields.map String.toList)
      = e.signedFields.map (fun f => f.toList.count '\n') := by
  rw [Separated.counts, List.map_map]
  rfl

/-- **An accepted signature was made of one of the two texts.** -/
theorem text_of_accepted (hinj : Function.Injective (hmac material)) {e e' : ChannelEvent}
    (haccept : signatureAccepted hmac material e = true)
    (hsig : e.item "signature" = fakeChannelSignature hmac material (e'.item "message_key")
      (e'.item "text") (e'.item "external_user_id") (e'.get "session_key")) :
    signedText e = signedText e' ∨ (e.get "session_key" = none ∧ legacyText e = signedText e') := by
  -- a signature is a fixed text followed by a digest, and the digest tells its text
  have hdigest : ∀ a b : String, "fake:" ++ hmac material a = "fake:" ++ hmac material b →
      a.toList = b.toList := by
    intro a b hab
    have hlist := congrArg String.toList hab
    rw [String.toList_append, String.toList_append] at hlist
    rw [hinj (String.toList_inj.mp (List.append_cancel_left hlist))]
  unfold signatureAccepted at haccept
  simp only [hsig, Bool.or_eq_true, Bool.and_eq_true, decide_eq_true_eq] at haccept
  rcases haccept with hnew | ⟨hnone, hold⟩
  · refine .inl (Eq.symm ?_)
    have htext := hdigest _ _ hnew
    simp only [String.toList_append, List.append_assoc] at htext
    exact htext
  · refine .inr ⟨Option.isNone_iff_eq_none.mp hnone, Eq.symm ?_⟩
    have htext := hdigest _ _ hold
    simp only [String.toList_append, List.append_assoc] at htext
    exact htext

/-- The fields of a signed text and its session key, when the newlines
agree. -/
theorem sameEvent_of_signedText {e e' : ChannelEvent} (htext : signedText e = signedText e')
    (hlines : SameNewlines e e') : SameEvent e e' := by
  have hcounts : Separated.counts '\n' (e.signedFields.map String.toList)
      = Separated.counts '\n' (e'.signedFields.map String.toList) := by
    rw [counts_signedFields, counts_signedFields]
    exact hlines
  have hlen : (e.signedFields.map String.toList).length
      = (e'.signedFields.map String.toList).length := rfl
  obtain ⟨hfields, hkey⟩ := (Separated.joined_inj_iff hlen htext).mpr hcounts
  simp only [ChannelEvent.signedFields, List.map_cons, List.map_nil, List.cons.injEq,
    String.toList_inj] at hfields hkey
  obtain ⟨hmessage, htext', huser, -⟩ := hfields
  exact ⟨hmessage, htext', huser, by
    rw [ChannelEvent.scope, ChannelEvent.scope, ChannelEvent.scopeOf, ChannelEvent.scopeOf, huser,
      hkey]⟩

/-- The two texts of events whose newlines agree differ: the legacy text has
one less. -/
theorem legacyText_ne_signedText {e e' : ChannelEvent} (hlines : SameNewlines e e') :
    legacyText e ≠ signedText e' := by
  intro htext
  have hcount := congrArg (List.count '\n') htext
  rw [legacyText, signedText, Separated.count_joined, Separated.count_joined,
    counts_signedFields, ← hlines] at hcount
  simp only [Separated.counts, ChannelEvent.signedFields, List.map_cons, List.map_nil,
    List.sum_cons, List.sum_nil, List.length_cons, List.length_nil] at hcount
  omega

end Signatures

/-- **The registry answers with bindings of one signing material.** -/
def SignsWith {S : Type} (secrets : String → String) (material : String)
    (H : (op : InboundOp) → S → Except PyException (InboundRes op) → S → Prop) : Prop :=
  ∀ tenantId channelType externalBotId s binding s',
    H (.resolveBinding tenantId channelType externalBotId) s (.ok (some binding)) s' →
      secrets binding.secretRef = material

section Runs

variable {sha256 uuid5 : String → String} {policy : CapacityPolicy}
  {hmac : String → String → String} {secrets : String → String} {material : String} {S : Type}
  {H : (op : InboundOp) → S → Except PyException (InboundRes op) → S → Prop} {s s' : S}

/-- What `ingest` accepts has a signature of the material. -/
theorem signatureAccepted_of_ingest (hH : SignsWith secrets material H) {tenantId : String}
    {e : ChannelEvent} {accepted : AgentExecutionAccepted}
    (h : (ingest sha256 uuid5 policy hmac secrets tenantId e).Runs H s (.ok accepted) s') :
    signatureAccepted hmac material e = true := by
  unfold ingest at h
  split at h
  · cases h.1
  · obtain ⟨r, s₁, hr, h⟩ := h
    cases r with
    | error x => cases h.1
    | ok found =>
      cases found with
      | none => cases h.1
      | some binding =>
        simp only [Prog.bind] at h
        split at h
        · cases h.1
        · split at h
          · cases h.1
          · rename_i hsig
            rw [hH _ _ _ _ _ _ hr] at hsig
            simpa using hsig

/-- What `signed_event` returns: the fields it was given, and their
signature. -/
theorem fields_of_signedEvent (hH : SignsWith secrets material H)
    {tenantId channelType externalBotId messageKey text externalUserId : String}
    {sessionKey : Option String} {e : ChannelEvent}
    (h : (signedEvent hmac secrets tenantId channelType externalBotId messageKey text
      externalUserId sessionKey).Runs H s (.ok e) s') :
    e.item "signature" = fakeChannelSignature hmac material (e.item "message_key")
      (e.item "text") (e.item "external_user_id") (e.get "session_key") := by
  obtain ⟨r, s₁, hr, h⟩ := h
  cases r with
  | error x => cases h.1
  | ok found =>
    cases found with
    | none => cases h.1
    | some binding =>
      have hbinding := hH _ _ _ _ _ _ hr
      cases sessionKey with
      | none =>
        obtain rfl := Except.ok.inj h.1
        simp [ChannelEvent.item, Dictionary.get_set, hbinding]
      | some key =>
        obtain rfl := Except.ok.inj h.1
        simp [ChannelEvent.item, Dictionary.get_set, hbinding]

/-- **When a signature binds the event.** The event `ingest` accepts under a
signature and the event `signed_event` made it for are the same exactly when
their message keys, texts and users hold newlines equally often. -/
theorem sameEvent_iff_sameNewlines (hinj : Function.Injective (hmac material))
    (hH : SignsWith secrets material H)
    {tenantId' channelType' externalBotId' messageKey' text' externalUserId' : String}
    {sessionKey' : Option String} {e' : ChannelEvent} {s₀ s₀' : S}
    (hsigned : (signedEvent hmac secrets tenantId' channelType' externalBotId' messageKey' text'
      externalUserId' sessionKey').Runs H s₀ (.ok e') s₀')
    {tenantId : String} {e : ChannelEvent} {accepted : AgentExecutionAccepted}
    (haccepted : (ingest sha256 uuid5 policy hmac secrets tenantId e).Runs H s (.ok accepted) s')
    (hsig : e.item "signature" = e'.item "signature") :
    SameEvent e e' ↔ SameNewlines e e' := by
  constructor
  · rintro ⟨hmessage, htext, huser, -⟩
    rw [SameNewlines, ChannelEvent.signedFields, ChannelEvent.signedFields, hmessage, htext, huser]
  · intro hlines
    have htext := text_of_accepted hinj (signatureAccepted_of_ingest hH haccepted)
      (hsig.trans (fields_of_signedEvent hH hsigned))
    rcases htext with hnew | ⟨-, hold⟩
    · exact sameEvent_of_signedText hnew hlines
    · exact absurd hold (legacyText_ne_signedText hlines)

end Runs

/-! ### A signature that fits another event -/

/-- A Fake Channel bound to an application. -/
def sampleBindingRow : ChannelBindingRow where
  tenantId := 1
  bindingId := 2
  channelType := .FAKE
  externalBotId := "bot"
  applicationId := 3
  environment := .production
  secretRef := "vault://channels#bot"
  status := .ACTIVE
  tenantId_lt := by decide
  bindingId_lt := by decide
  applicationId_lt := by decide
  externalBotId_ne := by decide

/-- The service with this binding, before its first event. -/
def sampleInbound : InboundState where
  bindings := [sampleBindingRow]
  messages := fun _ => none
  conflicts := []
  gateway := Engine.quiet (ExecutionDb.empty 0) ()
  submitted := []

/-- A request that is answered. -/
def inboundServed : InboundChoice := .serve 0 none

/-- The statements of a submission that is accepted; its identifiers are `uuid`
and `uuid + 1`. -/
def acceptedSubmission (uuid : Uuid) : List InboundChoice :=
  List.replicate 8 (answering uuid) ++ List.replicate 3 (answering (uuid + 1))
where
  answering (uuid : Uuid) : InboundChoice :=
    .gateway (.serve { deployment := some 7, release := some none, uuid := uuid })

/-- A keyed text in the place of a digest. -/
def plainMac (material text : String) : String := material ++ ":" ++ text

theorem plainMac_injective (material : String) : Function.Injective (plainMac material) := by
  intro a b hab
  have hlist := congrArg String.toList hab
  simp only [plainMac, String.toList_append] at hlist
  exact String.toList_inj.mp (List.append_cancel_left hlist)

/-- An event of the Fake Channel. -/
def fakeEvent (messageKey text signature : String) : ChannelEvent :=
  (((((Dictionary.empty.set "channel_type" "FAKE").set "external_bot_id" "bot").set "message_key"
    messageKey).set "text" text).set "external_user_id" "alice").set "signature" signature

/-- The handler of the service, with every choice of the environment. -/
abbrev anyInbound := Prog.Handled (inboundHandler 0) (fun _ _ _ => True)

/-- Every binding in the sample table has one material. -/
theorem signsWith_sample :
    SignsWith (fun _ => "key") "key" anyInbound := fun _ _ _ _ _ _ _ => rfl

/-- The tenant of the sample, as text. -/
def sampleTenant : String := "00000000-0000-0000-0000-000000000001"


/-- The signature of the message `m1` with a text of two lines. -/
def twoLineSignature : String := "fake:key:m1\nhello\nworld\nalice\n"

/-- **A signature does not bind its event**: the line break of a text moves into
the message key. -/
theorem signature_fits_another_event :
    ¬ ∀ (messageKey text externalUserId : String) (sessionKey : Option String)
        (e e' : ChannelEvent) (accepted : AgentExecutionAccepted)
        (s₀ s₀' s s' : InboundState),
      (signedEvent plainMac (fun _ => "key") sampleTenant "FAKE" "bot" messageKey text
        externalUserId sessionKey).Runs anyInbound s₀ (.ok e') s₀' →
      (ingest id id {} plainMac (fun _ => "key") sampleTenant e).Runs anyInbound s
        (.ok accepted) s' →
      e.item "signature" = e'.item "signature" → SameEvent e e' := by
  intro hall
  have hsigned : ((signedEvent plainMac (fun _ => "key") sampleTenant "FAKE" "bot" "m1"
      "hello\nworld" "alice" none).eval (inboundHandler 0) [inboundServed] sampleInbound).map
        (fun x => x.1.toOption.any (fun e => e.item "message_key" = "m1"
          && e.item "signature" = twoLineSignature)) = some true := by
    decide +kernel
  have haccepted : ((ingest id id {} plainMac (fun _ => "key") sampleTenant
      (fakeEvent "m1\nhello" "world" twoLineSignature)).eval (inboundHandler 0)
        (List.replicate 6 inboundServed ++ acceptedSubmission 100 ++ [inboundServed])
          sampleInbound).map
          (fun x => x.1.toOption.any (fun _ => true)) = some true := by
    decide +kernel
  obtain ⟨e', s₀', htest, hrun'⟩ := Prog.runs_of_eval_test hsigned
  obtain ⟨accepted, s', -, hrun⟩ := Prog.runs_of_eval_test haccepted
  rw [Bool.and_eq_true, decide_eq_true_eq, decide_eq_true_eq] at htest
  have hsame := hall _ _ _ _ _ _ _ _ _ _ _ hrun' hrun (by rw [htest.2]; decide)
  rw [SameEvent, htest.1] at hsame
  exact absurd hsame.1 (by decide)

/-- The signature of a message binds it when it is ingested as it was signed. -/
theorem sameEvent_iff_sameNewlines_resent : ∃ e e' : ChannelEvent,
    (SameEvent e e' ↔ SameNewlines e e') ∧ SameNewlines e e' := by
  have hsigned : ((signedEvent plainMac (fun _ => "key") sampleTenant "FAKE" "bot" "m1"
      "hello\nworld" "alice" none).eval (inboundHandler 0) [inboundServed] sampleInbound).map
        (fun x => x.1.toOption.any (fun e => e.signedFields = ["m1", "hello\nworld", "alice"]
          && e.item "signature" = twoLineSignature)) = some true := by
    decide +kernel
  have haccepted : ((ingest id id {} plainMac (fun _ => "key") sampleTenant
      (fakeEvent "m1" "hello\nworld" twoLineSignature)).eval (inboundHandler 0)
        (List.replicate 6 inboundServed ++ acceptedSubmission 100 ++ [inboundServed])
          sampleInbound).map
          (fun x => x.1.toOption.any (fun _ => true)) = some true := by
    decide +kernel
  obtain ⟨e', s₀', htest, hrun'⟩ := Prog.runs_of_eval_test hsigned
  obtain ⟨accepted, s', -, hrun⟩ := Prog.runs_of_eval_test haccepted
  rw [Bool.and_eq_true, decide_eq_true_eq, decide_eq_true_eq] at htest
  have hlines : SameNewlines (fakeEvent "m1" "hello\nworld" twoLineSignature) e' := by
    rw [SameNewlines, htest.1]
    decide
  exact ⟨_, e', sameEvent_iff_sameNewlines (plainMac_injective "key") signsWith_sample hrun' hrun
    (by rw [htest.2]; decide), hlines⟩

/-! ## Sessions -/

/-- **What a message belongs to**: a direct user, a group chat, or a thread of a
chat. -/
inductive Conversation where
  | direct (user : String)
  | group (chatId : String)
  | thread (chatId rootId : String)
  deriving DecidableEq

namespace Conversation

/-- The scope of a conversation, as text. -/
def scope : Conversation → String
  | .direct user => "direct:" ++ user
  | .group chatId => "group:" ++ chatId
  | .thread chatId rootId => "thread:" ++ chatId ++ ":" ++ rootId

/-- How many colons the chat of a thread has in its id. -/
def chatColons : Conversation → ℕ
  | .thread chatId _ => chatId.toList.count ':'
  | _ => 0

/-- **A scope tells its conversation** up to where the chat of a thread ends. -/
theorem eq_iff_chatColons {c c' : Conversation} (h : c.scope = c'.scope) :
    c = c' ↔ c.chatColons = c'.chatColons := by
  refine ⟨fun heq => by rw [heq], fun hcolons => ?_⟩
  have hlist := congrArg String.toList h
  cases c <;> cases c' <;>
    simp only [scope, String.toList_append, List.append_assoc] at hlist
  case direct.direct u u' =>
    rw [String.toList_inj.mp (List.append_cancel_left hlist)]
  case group.group g g' =>
    rw [String.toList_inj.mp (List.append_cancel_left hlist)]
  case thread.thread g r g' r' =>
    have hjoined : Separated.joined ':' [g.toList] r.toList
        = Separated.joined ':' [g'.toList] r'.toList := List.append_cancel_left hlist
    have hlen : [g.toList].length = [g'.toList].length := rfl
    have hcounts : Separated.counts ':' [g.toList] = Separated.counts ':' [g'.toList] :=
      congrArg (fun n => [n]) hcolons
    obtain ⟨hg, hr⟩ := (Separated.joined_inj_iff hlen hjoined).mpr hcounts
    rw [String.toList_inj.mp (List.singleton_inj.mp hg), String.toList_inj.mp hr]
  -- the first letters of two kinds of scope differ
  all_goals exact absurd (List.head_eq_of_cons_eq hlist) (by decide)

end Conversation

/-- **A message of a channel**, as the platform receives it. -/
inductive ChannelMessage where
  | wecom (event : WeComEvent)
  | feishu (payload : Json)

/-- The message in the common shape. -/
def ChannelMessage.normalize (loads : String → Option Json) :
    ChannelMessage → Except PyException ChannelEvent
  | .wecom event => normalizeToInbound event
  | .feishu payload => normalizeFeishuMessage loads payload

/-- The conversation a message belongs to: WeCom tells groups by `chattype`,
Feishu by `chat_type`, and a thread by its root. -/
def ChannelMessage.conversation : ChannelMessage → Conversation
  | .wecom event =>
    if event.chattype = "group" then .group event.chatid else .direct event.fromUserid
  | .feishu payload =>
    let event := payload.field "event"
    let message := Json.get "message" event
    let chatId := (Json.asStr (Json.get "chat_id" message)).getD ""
    let rootId := (Json.asStr (Json.get "root_id" message)).getD ""
    if Json.asStr (Json.get "chat_type" message) = some "p2p" then
      .direct ((Json.asStr (Json.get "open_id" (Json.get "sender_id"
        (Json.get "sender" event)))).getD "")
    else if rootId ≠ "" then .thread chatId rootId
    else .group chatId

@[simp] theorem sessionScope_inboundShape (a b c d e key : String) :
    (inboundShape a b c d e key).sessionScope = key := by
  rw [ChannelEvent.sessionScope, inboundShape, Dictionary.get_set, if_pos rfl, Option.getD_some]

/-- The scope of a Feishu message is that of its conversation. -/
theorem scope_of_feishuSessionKey {chatType userId key : String} {chatId rootId : Option String}
    (h : feishuSessionKey chatType userId chatId rootId = .ok key) :
    key = (if chatType = "p2p" then Conversation.direct userId
      else if rootId.getD "" ≠ "" then .thread (chatId.getD "") (rootId.getD "")
      else .group (chatId.getD "")).scope := by
  unfold feishuSessionKey at h
  split at h
  · rename_i hp
    rw [if_pos hp]
    exact (Except.ok.inj h).symm
  · rename_i hp
    rw [if_neg hp]
    split at h
    · cases h
    · split at h
      · rename_i hroot
        rw [if_pos hroot]
        exact (Except.ok.inj h).symm
      · rename_i hroot
        rw [if_neg hroot]
        exact (Except.ok.inj h).symm

theorem sessionScope_of_feishuShape {payload : Json} {decoded : Option Json} {e : ChannelEvent}
    (h : feishuShape (payload.field "header") (payload.field "event") decoded = .ok e) :
    e.sessionScope = (ChannelMessage.feishu payload).conversation.scope := by
  simp only [feishuShape] at h
  split at h
  · rename_i eventId appId userId chatType _ _ huser htype
    split at h
    · cases h
    · generalize hkey : feishuSessionKey _ _ _ _ = key? at h
      cases key? with
      | error x => cases h
      | ok key =>
        obtain rfl := Except.ok.inj h
        rw [sessionScope_inboundShape, scope_of_feishuSessionKey hkey]
        simp only [ChannelMessage.conversation, huser, htype, Option.getD_some, Option.some.injEq]
  · cases h

/-- **The scope of a message is that of its conversation.** -/
theorem sessionScope_of_normalize {loads : String → Option Json} {m : ChannelMessage}
    {e : ChannelEvent} (h : m.normalize loads = .ok e) :
    e.sessionScope = m.conversation.scope := by
  cases m with
  | wecom event =>
    simp only [ChannelMessage.normalize, normalizeToInbound] at h
    simp only [ChannelMessage.conversation]
    split at h
    · rename_i hgroup
      rw [if_pos hgroup]
      split at h
      · cases h
      · obtain rfl := Except.ok.inj h
        rw [sessionScope_inboundShape]
        rfl
    · rename_i hgroup
      rw [if_neg hgroup]
      split at h
      · obtain rfl := Except.ok.inj h
        rw [sessionScope_inboundShape]
        rfl
      · cases h
  | feishu payload =>
    simp only [ChannelMessage.normalize, normalizeFeishuMessage] at h
    split at h
    · cases h
    · split at h
      · cases h
      · cases hcontent : feishuContent loads (Json.get "message" (payload.field "event")) with
        | error x =>
          rw [hcontent] at h
          cases h
        | ok decoded =>
          rw [hcontent] at h
          exact sessionScope_of_feishuShape h

/-! ### When two messages share a Session -/

/-- The identifiers a Session ID is made of before its scope. -/
def ChannelBinding.sessionFields (b : ChannelBinding) : List String :=
  [b.tenantId, b.applicationId, b.bindingId]

/-- **The same conversation**: of one tenant, application and binding, and the
same direct user, group chat or thread. -/
def SameConversation (b b' : ChannelBinding) (m m' : ChannelMessage) : Prop :=
  b.tenantId = b'.tenantId ∧ b.applicationId = b'.applicationId ∧ b.bindingId = b'.bindingId
    ∧ m.conversation = m'.conversation

/-- The identifiers of the two bindings hold bars equally often, and the chats of
two threads colons. -/
def SameSeparators (b b' : ChannelBinding) (m m' : ChannelMessage) : Prop :=
  b.sessionFields.map (fun f => f.toList.count '|')
      = b'.sessionFields.map (fun f => f.toList.count '|')
    ∧ m.conversation.chatColons = m'.conversation.chatColons

/-- A Session ID is the digest of its name. -/
theorem sessionId_of_sessionFor {uuid5 : String → String} {b : ChannelBinding} {e : ChannelEvent}
    {sessionId : String} (h : sessionFor uuid5 b e = .ok sessionId) :
    sessionId = "session:" ++ uuid5 (sessionName b e.sessionScope) := by
  unfold sessionFor at h
  split at h
  · cases h
  · exact (Except.ok.inj h).symm

/-- The name of a Session is its fields, joined by bars. -/
theorem toList_sessionName (b : ChannelBinding) (scope : String) :
    (sessionName b scope).toList = "session:v1|".toList
      ++ Separated.joined '|' (b.sessionFields.map String.toList) scope.toList := by
  show ("session:v1|" ++ b.tenantId ++ "|" ++ b.applicationId ++ "|" ++ b.bindingId ++ "|"
    ++ scope).toList = _
  simp only [String.toList_append, List.append_assoc]
  rfl

/-- **When a Session ID tells the conversation.** Two messages that get the same
Session ID belong to the same conversation exactly when the identifiers of their
bindings hold bars equally often and – of two threads – the chat ids colons. -/
theorem sameConversation_iff_sameSeparators {uuid5 : String → String}
    (hinj : Function.Injective uuid5) {loads : String → Option Json} {b b' : ChannelBinding}
    {m m' : ChannelMessage} {e e' : ChannelEvent} (hm : m.normalize loads = .ok e)
    (hm' : m'.normalize loads = .ok e') {sessionId : String}
    (hs : sessionFor uuid5 b e = .ok sessionId) (hs' : sessionFor uuid5 b' e' = .ok sessionId) :
    SameConversation b b' m m' ↔ SameSeparators b b' m m' := by
  have hname : sessionName b m.conversation.scope = sessionName b' m'.conversation.scope := by
    rw [← sessionScope_of_normalize hm, ← sessionScope_of_normalize hm']
    have hid := (sessionId_of_sessionFor hs).symm.trans (sessionId_of_sessionFor hs')
    have hlist := congrArg String.toList hid
    rw [String.toList_append, String.toList_append] at hlist
    exact hinj (String.toList_inj.mp (List.append_cancel_left hlist))
  have hjoined : Separated.joined '|' (b.sessionFields.map String.toList)
        m.conversation.scope.toList
      = Separated.joined '|' (b'.sessionFields.map String.toList)
        m'.conversation.scope.toList := by
    have hlist := congrArg String.toList hname
    rw [toList_sessionName, toList_sessionName] at hlist
    exact List.append_cancel_left hlist
  have hlen : (b.sessionFields.map String.toList).length
      = (b'.sessionFields.map String.toList).length := rfl
  constructor
  · rintro ⟨ht, ha, hb, hc⟩
    exact ⟨by rw [ChannelBinding.sessionFields, ChannelBinding.sessionFields, ht, ha, hb],
      by rw [hc]⟩
  · rintro ⟨hbars, hcolons⟩
    have hcounts : Separated.counts '|' (b.sessionFields.map String.toList)
        = Separated.counts '|' (b'.sessionFields.map String.toList) := by
      rw [Separated.counts, Separated.counts, List.map_map, List.map_map]
      exact hbars
    obtain ⟨hfields, hscope⟩ := (Separated.joined_inj_iff hlen hjoined).mpr hcounts
    simp only [ChannelBinding.sessionFields, List.map_cons, List.map_nil, List.cons.injEq,
      String.toList_inj] at hfields hscope
    exact ⟨hfields.1, hfields.2.1, hfields.2.2.1,
      (Conversation.eq_iff_chatColons hscope).mpr hcolons⟩

/-- A text message in a topic of a Feishu chat. -/
def topicMessage (chatId rootId : String) : ChannelMessage :=
  .feishu (.obj
    [("header", .obj [("event_type", .str "im.message.receive_v1"), ("event_id", .str "e1"),
      ("app_id", .str "cli_1")]),
     ("event", .obj
       [("sender", .obj [("sender_id", .obj [("open_id", .str "ou_1")])]),
        ("message", .obj [("message_type", .str "text"), ("content", .str "hi"),
          ("chat_type", .str "group"), ("chat_id", .str chatId), ("root_id", .str rootId)])])])

/-- A decoder for the content of these messages. -/
def plainContent (content : String) : Option Json := some (.obj [("text", .str content)])

/-- The event of a topic message. -/
def topicEvent (chatId rootId : String) : ChannelEvent :=
  inboundShape "FEISHU" "cli_1" "e1" "hi" "ou_1" ("thread:" ++ chatId ++ ":" ++ rootId)

/-- **Two threads of different chats can share a Session**: where the chat ends
and the root begins is not told. -/
theorem session_shared_by_threads :
    ¬ ∀ (b b' : ChannelBinding) (m m' : ChannelMessage) (e e' : ChannelEvent)
        (sessionId : String), m.normalize plainContent = .ok e →
      m'.normalize plainContent = .ok e' → sessionFor id b e = .ok sessionId →
      sessionFor id b' e' = .ok sessionId → SameConversation b b' m m' := by
  intro hall
  have hm : (topicMessage "oc:a" "b").normalize plainContent = .ok (topicEvent "oc:a" "b") := by
    rfl
  have hm' : (topicMessage "oc" "a:b").normalize plainContent = .ok (topicEvent "oc" "a:b") := by
    rfl
  have hsame := hall sampleBindingRow.binding sampleBindingRow.binding _ _ _ _ _ hm hm' rfl rfl
  exact absurd hsame.2.2.2 (by decide)

/-- Two messages of one thread share its Session, and belong to it. -/
theorem sameConversation_iff_sameSeparators_topic :
    (SameConversation sampleBindingRow.binding sampleBindingRow.binding (topicMessage "oc" "a")
        (topicMessage "oc" "a")
      ↔ SameSeparators sampleBindingRow.binding sampleBindingRow.binding (topicMessage "oc" "a")
        (topicMessage "oc" "a"))
    ∧ SameSeparators sampleBindingRow.binding sampleBindingRow.binding (topicMessage "oc" "a")
        (topicMessage "oc" "a") := by
  have hm : (topicMessage "oc" "a").normalize plainContent = .ok (topicEvent "oc" "a") := by
    rfl
  exact ⟨sameConversation_iff_sameSeparators Function.injective_id hm hm rfl rfl, rfl, rfl⟩
