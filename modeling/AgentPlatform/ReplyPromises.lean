import AgentPlatform.ReplyRuns

/-!
# What deliveries promise

Three promises of the delivery service, each in every run that meets a condition
on its requests, and each with a run of the service that breaks it.

* `one_sender`: one request of a delivery at a time, attempts with numbers of
  their own, and `DELIVERED` for good.
* `never_blind`: no request goes out while an attempt is open.
* `delivered_shown`: what is `DELIVERED` is what the card shows.
-/

/-! ## The conditions can be tested -/

instance (pid : ℕ) (key : DeliveryKey) (s : ReplyState) : Decidable (Fresh pid key s) :=
  inferInstanceAs (Decidable (s.rows.get key = s.known pid key ∧ ∀ q ∈ s.holder key, q = pid))

instance (pid : ℕ) (op : ReplyOp) (s : ReplyState) : Decidable (FreshOp pid op s) :=
  match op with
  | .saveDelivery d => inferInstanceAs (Decidable (Fresh pid d.key s))
  | .claimAttempt key fromStatus _ =>
    inferInstanceAs (Decidable (∀ d ∈ s.rows.get key, d.status = fromStatus → Fresh pid key s))
  | .getDelivery _ | .saveAttempt _ | .listDeadLetters _ | .uuid4 | .sleep _ | .tryAcquire | .clock
  | .updatedAt .. | .setUpdatedAt .. | .messageId .. | .setMessageId .. | .request .. | .answer
  | .reconciled .. => isTrue trivial

instance (pid : ℕ) (c : ReplyChoice) (op : ReplyOp) (s : ReplyState) :
    Decidable (CautiousOp pid c op s) :=
  match op with
  | .answer => inferInstanceAs (Decidable (∀ o ∈ s.wire pid, o.request.recognises c.answer = true))
  | .claimAttempt key fromStatus _ =>
    inferInstanceAs (Decidable (∀ d ∈ s.rows.get key, d.status = fromStatus →
      fromStatus = .inFlight → openAttempts s.log key = []))
  | .saveDelivery d =>
    inferInstanceAs (Decidable (d.status = .queued → openAttempts s.log d.key = []))
  | .getDelivery _ | .saveAttempt _ | .listDeadLetters _ | .uuid4 | .sleep _ | .tryAcquire | .clock
  | .updatedAt .. | .setUpdatedAt .. | .messageId .. | .setMessageId .. | .request ..
  | .reconciled .. => isTrue trivial

instance (pid : ℕ) (c : ReplyChoice) (op : ReplyOp) (s : ReplyState) :
    Decidable (TruthfulOp pid c op s) :=
  match op with
  | .answer => inferInstanceAs (Decidable (∀ o ∈ s.wire pid,
      (o.request.outcome c.answer).1.delivered = true →
        o.applied = true ∧ ∀ id ∈ (o.request.outcome c.answer).2,
          (s.cards.get o.key).map ProviderCard.messageId = some id))
  | .saveDelivery _ | .claimAttempt .. | .getDelivery _ | .saveAttempt _ | .listDeadLetters _
  | .uuid4 | .sleep _ | .tryAcquire | .clock | .updatedAt .. | .setUpdatedAt .. | .messageId ..
  | .setMessageId .. | .request .. | .reconciled .. => isTrue trivial

instance (pid : ℕ) (c : ReplyChoice) (op : ReplyOp) (s : ReplyState) :
    Decidable (VisibleOp pid c op s) :=
  match op with
  | .answer => inferInstanceAs (Decidable (∀ o ∈ s.wire pid,
      (o.request.isPatch = false → (o.request.outcome c.answer).1.delivered = true →
        s.shownAt o.key = some o.request.content)
      ∧ (o.request.isPatch = true → (o.request.outcome c.answer).1.outcomeUnknown = true →
        o.applied = true)))
  | .saveDelivery _ | .claimAttempt .. | .getDelivery _ | .saveAttempt _ | .listDeadLetters _
  | .uuid4 | .sleep _ | .tryAcquire | .clock | .updatedAt .. | .setUpdatedAt .. | .messageId ..
  | .setMessageId .. | .request .. | .reconciled .. => isTrue trivial

/-! ## One sender at a time -/

/-- A call of `run`. -/
def ReplyCall.isRun : ReplyCall → Bool
  | .run .. => true
  | _ => false

/-- **Workers that call `run`**, and steps of theirs that meet a condition. -/
abbrev runSteps (allow : ℕ → ReplyChoice → ReplyOp → ReplyState → Prop) :
    RepliesState → RepliesLabel → Prop :=
  Pool.stepOk (fun _ call => call.isRun = true) allow (fun _ _ => True)

/-- The runs of the service from a start. -/
abbrev repliesMachine (store : DeliveryStoreKind) (m : ReplyRules) :
    Machine RepliesState RepliesLabel :=
  (replies store).machine (ReplyStart m)

/-- The rules of workers that call `run`. -/
def ReplyRules.runs : ReplyRules := ⟨True, False, False⟩

/-- **One request of a delivery at a time.** -/
def OneSender (s : ReplyState) : Prop :=
  ∀ pid pid' o o', s.wire pid = some o → s.wire pid' = some o' → o.key = o'.key → pid = pid'

/-- What is delivered stays as it is. -/
def DeliveredStays (s s' : ReplyState) : Prop :=
  ∀ key d, s.rows.get key = some d → d.status = .delivered → s'.rows.get key = some d

/-- Fresh steps follow the rules. -/
theorem stepOk_of_runSteps {w : RepliesState} {l : RepliesLabel}
    (h : runSteps (fun pid _ => FreshOp pid) w l) :
    Pool.stepOk (replyAccept .runs) (replyAllow .runs) (fun _ _ => True) w l := by
  refine Pool.stepOk.mono (fun s call hcall => ⟨fun _ => ?_, fun hm => hm.elim⟩)
    (fun _ _ _ _ hfresh => ⟨hfresh, fun hm => hm.elim, fun hm => hm.elim⟩) (fun _ _ _ => trivial) h
  cases call with
  | run t maxAttempts turns key => exact ⟨t, maxAttempts, turns, key, rfl⟩
  | _ => cases hcall

/-- **One sender at a time.** In every run of workers that call `run` and whose
claims and saves are fresh, a delivery has one request on the wire at most, the
recorded attempts have numbers of their own, and `DELIVERED` is not replaced. -/
theorem one_sender (store : DeliveryStoreKind) {w : RepliesState}
    (h : (repliesMachine store .runs).Reach (runSteps (fun pid _ => FreshOp pid)) w) :
    OneSender w.shared ∧ (w.shared.attempts.map DeliveryAttempt.number).Nodup
      ∧ ∀ w', (repliesMachine store .runs).Steps (runSteps (fun pid _ => FreshOp pid)) w w' →
        DeliveredStays w.shared w'.shared := by
  let D := replyDiscipline store .runs
  have hreach := h.mono (fun _ _ => stepOk_of_runSteps)
  have hinv : ReplyInv .runs w.shared := (Pool.reach_safe D hreach).inv
  refine ⟨fun pid pid' o o' ho ho' hkey => ?_, hinv.distinct, fun w' hs => ?_⟩
  · have hp := (hinv.wired pid o ho).1
    have hp' := (hinv.wired pid' o' ho').1
    rw [hkey] at hp
    exact Option.some.inj (hp.symm.trans hp')
  · -- one step leaves a delivered row alone, whoever takes it
    induction hs with
    | refl => exact fun _ _ hd _ => hd
    | tail hbefore hnext ih =>
      obtain ⟨l, hok, hl⟩ := hnext
      have hall := Machine.Steps.mono (fun _ _ => stepOk_of_runSteps) hbefore
      obtain ⟨q, hq⟩ := D.step_rely (Pool.reach_safe D (hreach.steps hall))
        (stepOk_of_runSteps hok) hl
      exact fun key d hd hst => hq.delivered trivial key d (ih key d hd hst) hst

/-! ### Two workers -/

/-- A reply for a WeCom conversation. -/
def sampleReply : ReplyDelivery :=
  ⟨"t", "d", "b", "e", "u".toList, "hello".toList, .queued, 0⟩

/-- One queued reply, and nothing in progress. -/
def sampleReplies (d : ReplyDelivery) : ReplyState where
  rows := Dictionary.empty.set d.key d
  createdAt := fun _ => 0
  attempts := []
  messageIds := fun _ _ => none
  updatedAt := fun _ _ => none
  cards := .empty
  wire := fun _ => none
  hand := fun _ => none
  holder := fun _ => none
  log := []

theorem sampleReplies_start (m : ReplyRules) {d : ReplyDelivery} (hd : d.status = .queued) :
    ReplyStart m (sampleReplies d) := by
  have hrow : ∀ key e, (sampleReplies d).rows.get key = some e → key = d.key ∧ e = d := by
    intro key e he
    have hset := (Dictionary.get_set Dictionary.empty d.key key d).symm.trans he
    split at hset
    · rename_i hk
      exact ⟨hk, (Option.some.inj hset).symm⟩
    · cases hset
  refine ⟨fun key e he => ?_, fun a ha => (by cases ha), List.nodup_nil, fun _ => rfl, fun _ => rfl,
    fun _ => rfl, rfl, fun _ => ⟨fun key e he hst => ?_, fun _ _ _ h => (by cases h),
      fun _ _ _ _ h => (by cases h), fun _ _ _ _ h => (by cases h)⟩⟩
  · obtain ⟨rfl, rfl⟩ := hrow key e he
    rfl
  · obtain ⟨-, rfl⟩ := hrow key e he
    rw [hd] at hst
    rcases hst with hst | hst <;> cases hst

/-- A state of the system in which no call has arrived. -/
def repliesIdle (d : ReplyDelivery) : RepliesState := Pool.idle (sampleReplies d)

theorem repliesIdle_init (store : DeliveryStoreKind) (m : ReplyRules) {d : ReplyDelivery}
    (hd : d.status = .queued) : (repliesMachine store m).init (repliesIdle d) :=
  ⟨_, sampleReplies_start m hd, rfl⟩

/-- A request that ends with a response. -/
def respond (statusCode : ℕ) : ReplyChoice := { answer := .response statusCode none }

/-- The id of an attempt. -/
def named (uuid : String) : ReplyChoice := { uuid := uuid }

/-- A worker calls `run`, claims an attempt and puts its request on the wire;
`pause` says that there was an attempt before. -/
def claimAndSend (pid : ℕ) (pause : Bool) : List RepliesLabel :=
  .spawn (.run .wecom 5 9 sampleReply.key)
    :: List.replicate (if pause then 5 else 4) (.act pid {})

/-- The request ends, the attempt is recorded, and the delivery is saved. -/
def endAndSave (pid : ℕ) (c : ReplyChoice) (attemptId : String) : List RepliesLabel :=
  [.act pid c, .act pid (named attemptId), .act pid {}, .act pid {}]

/-- The status of the sample delivery. -/
def statusIs (w : RepliesState) (status : DeliveryState) : Bool :=
  (w.shared.rows.get sampleReply.key).any (fun d => d.status = status)

/-- Two workers whose requests overlap, and two of which the first crashes. -/
theorem two_workers_runs :
    ((repliesMachine .database .runs).runIf
      (fun w l => decide (runSteps (fun _ _ _ _ => True) w l)) (repliesIdle sampleReply)
      (claimAndSend 0 false ++ claimAndSend 1 true)).map (fun w =>
        (w.shared.wire 0).any (fun o => (w.shared.wire 1).any (fun o' => o.key = o'.key)))
        = some true
    ∧ ((repliesMachine .database .runs).runIf
      (fun w l => decide (runSteps (fun _ _ _ _ => True) w l)) (repliesIdle sampleReply)
      (claimAndSend 0 false ++ claimAndSend 1 true ++ endAndSave 0 (respond 200) "a0")).bind
      (fun w => ((repliesMachine .database .runs).runIf
        (fun w l => decide (runSteps (fun _ _ _ _ => True) w l)) w
        (endAndSave 1 (respond 500) "a1")).map
          (fun w' => statusIs w .delivered && statusIs w' .failed)) = some true
    ∧ ((repliesMachine .database .runs).runIf
      (fun w l => decide (runSteps (fun pid _ => FreshOp pid) w l)) (repliesIdle sampleReply)
      (claimAndSend 0 false ++ ([.crash 0] : List RepliesLabel) ++ claimAndSend 1 true
        ++ endAndSave 1 (respond 200) "a1")).bind
      (fun w => ((repliesMachine .database .runs).runIf
        (fun w l => decide (runSteps (fun pid _ => FreshOp pid) w l)) w
        [.spawn (.run .wecom 5 9 sampleReply.key), .act 2 {}]).map
          (fun w' => statusIs w .delivered && w'.replies.length = 2)) = some true := by
  decide +kernel

/-- **Two senders.** A worker that finds a delivery in flight claims the next
attempt of it, while the worker that claimed the first still sends: two requests
are on the wire. The first stores `DELIVERED`, and the second, whose request
failed, stores `FAILED` over it. -/
theorem two_senders :
    (∃ w, (repliesMachine .database .runs).Reach (runSteps (fun _ _ _ _ => True)) w
      ∧ ¬ OneSender w.shared)
    ∧ ∃ w w', (repliesMachine .database .runs).Reach (runSteps (fun _ _ _ _ => True)) w
      ∧ (repliesMachine .database .runs).Steps (runSteps (fun _ _ _ _ => True)) w w'
      ∧ ¬ DeliveredStays w.shared w'.shared := by
  constructor
  · have hrun := two_workers_runs.1
    obtain ⟨w, hw, htest⟩ := Machine.reach_of_runIf (fun _ _ => of_decide_eq_true)
      (repliesIdle_init .database .runs rfl) hrun
    refine ⟨w, hw, fun hone => ?_⟩
    obtain ⟨o, ho, htest⟩ := (Option.any_eq_true _ _).mp htest
    obtain ⟨o', ho', hkey⟩ := (Option.any_eq_true _ _).mp htest
    exact absurd (hone 0 1 o o' ho ho' (of_decide_eq_true hkey)) (by decide)
  · have hrun := two_workers_runs.2.1
    obtain ⟨w, w', hw, hs, htest⟩ := Machine.steps_of_runIf_runIf
      (p := fun w w' => statusIs w .delivered && statusIs w' .failed)
      (fun _ _ => of_decide_eq_true) (repliesIdle_init .database .runs rfl) hrun
    refine ⟨w, w', hw, hs, fun hstays => ?_⟩
    obtain ⟨hbefore, hafter⟩ := (Bool.and_eq_true _ _).mp htest
    obtain ⟨d, hd, hst⟩ := (Option.any_eq_true _ _).mp hbefore
    obtain ⟨d', hd', hst'⟩ := (Option.any_eq_true _ _).mp hafter
    have hst := of_decide_eq_true hst
    obtain rfl := Option.some.inj ((hstays _ d hd hst).symm.trans hd')
    rw [hst] at hst'
    cases of_decide_eq_true hst'

/-- **A worker resumes what another left**: the first crashes while its request is
out; the next finds the delivery in flight and delivers it, and one that comes
later finds it delivered. -/
theorem one_sender_resumed :
    ∃ w w', (repliesMachine .database .runs).Reach (runSteps (fun pid _ => FreshOp pid)) w
      ∧ (repliesMachine .database .runs).Steps (runSteps (fun pid _ => FreshOp pid)) w w'
      ∧ statusIs w .delivered = true ∧ OneSender w.shared
      ∧ (w.shared.attempts.map DeliveryAttempt.number).Nodup
      ∧ DeliveredStays w.shared w'.shared := by
  have hrun := two_workers_runs.2.2
  obtain ⟨w, w', hw, hs, htest⟩ := Machine.steps_of_runIf_runIf
    (p := fun w w' => statusIs w .delivered && w'.replies.length = 2)
    (fun _ _ => of_decide_eq_true) (repliesIdle_init .database .runs rfl) hrun
  obtain ⟨hone, hdistinct, hstays⟩ := one_sender .database hw
  exact ⟨w, w', hw, hs, ((Bool.and_eq_true _ _).mp htest).1, hone, hdistinct, hstays w' hs⟩

/-! ## No blind resend -/

/-- The rules of careful runs. -/
def ReplyRules.careful : ReplyRules := ⟨False, True, False⟩

/-- **Careful steps**: fresh, and cautious. -/
abbrev carefulSteps : RepliesState → RepliesLabel → Prop :=
  Pool.stepOk (fun _ _ => True) (fun pid c op s => FreshOp pid op s ∧ CautiousOp pid c op s)
    (fun _ _ => True)

/-- Careful steps follow the rules. -/
theorem stepOk_of_carefulSteps {w : RepliesState} {l : RepliesLabel} (h : carefulSteps w l) :
    Pool.stepOk (replyAccept .careful) (replyAllow .careful) (fun _ _ => True) w l :=
  Pool.stepOk.mono (fun _ _ _ => ⟨fun hm => hm.elim, fun hm => hm.elim⟩)
    (fun _ _ _ _ hc => ⟨hc.1, fun _ => hc.2, fun hm => hm.elim⟩) (fun _ _ _ => trivial) h

/-- **No blind resend.** In every run of careful steps, a request of a delivery
goes out only when every earlier one had a response, or its reconciliation
returned `not_delivered`. -/
theorem never_blind (store : DeliveryStoreKind) {w : RepliesState}
    (h : (repliesMachine store .careful).Reach carefulSteps w) : NeverBlind w.shared.log := by
  have hreach := h.mono (fun _ _ => stepOk_of_carefulSteps)
  have hinv : ReplyInv .careful w.shared :=
    (Pool.reach_safe (replyDiscipline store .careful) hreach).inv
  exact (hinv.sends trivial).1

deriving instance DecidableEq for DeliveryEvent

/-- **A blind resend.** The request of WeCom ends with the `TimeoutException` of
httpx, which the transport takes for a failure; the loop of `run` sends again. -/
theorem blind_resend :
    ∃ w, (repliesMachine .database .careful).Reach Machine.anyStep w
      ∧ ¬ NeverBlind w.shared.log := by
  have hrun : ((repliesMachine .database .careful).run (repliesIdle sampleReply)
      (claimAndSend 0 false ++ endAndSave 0 { answer := .timeoutException } "a0"
        ++ (List.replicate 4 (.act 0 {}) : List RepliesLabel))).map (fun w => decide (w.shared.log
          = [.issued sampleReply.key 1, .issued sampleReply.key 2])) = some true := by
    decide +kernel
  obtain ⟨w, hw, htest⟩ := Machine.reach_of_run (repliesIdle_init .database .careful rfl) hrun
  refine ⟨w, hw, fun hnever => ?_⟩
  have hopen := hnever [.issued sampleReply.key 1] sampleReply.key 2 [] (of_decide_eq_true htest)
  exact absurd hopen (by decide)

/-- A reply for a Feishu conversation. -/
def sampleCard : ReplyDelivery := { sampleReply with externalConversationId := "chat_id:c".toList }

/-- A Feishu worker claims an attempt and puts its request on the wire; the card
was not updated for `now` seconds. -/
def claimAndUpdate (pid client : ℕ) (pause : Bool) (now : ℚ) : List RepliesLabel :=
  (.spawn (.run (.feishu client) 5 9 sampleCard.key)
    :: List.replicate (if pause then 3 else 2) (.act pid {}) : List RepliesLabel)
    ++ ([.act pid { clock := now }, .act pid {}, .act pid {}, .act pid {}] : List RepliesLabel)

/-- **A resend that is not blind**: the request for a new card ends with a timeout;
the client remembers no card, and reconciles the attempt as not delivered. -/
theorem never_blind_reconciled :
    ∃ w, (repliesMachine .database .careful).Reach carefulSteps w
      ∧ w.shared.log = [.issued sampleCard.key 1, .reconciled sampleCard.key 1 .notDelivered,
        .issued sampleCard.key 2] ∧ NeverBlind w.shared.log := by
  have hrun : ((repliesMachine .database .careful).runIf (fun w l => decide (carefulSteps w l))
      (repliesIdle sampleCard) (claimAndUpdate 0 0 false 0
        ++ ([.act 0 { answer := .timeoutException }, .act 0 {}, .act 0 {}, .act 0 (named "a0"),
          .act 0 {}, .act 0 {}] : List RepliesLabel)
        ++ (List.replicate 6 (.act 0 {}) : List RepliesLabel))).map (fun w => decide (w.shared.log
          = [.issued sampleCard.key 1, .reconciled sampleCard.key 1 .notDelivered,
            .issued sampleCard.key 2])) = some true := by
    decide +kernel
  obtain ⟨w, hw, htest⟩ := Machine.reach_of_runIf (fun _ _ => of_decide_eq_true)
    (repliesIdle_init .database .careful rfl) hrun
  exact ⟨w, hw, of_decide_eq_true htest, never_blind .database hw⟩

/-! ## What is delivered is shown -/

/-- The rules of cards. -/
def ReplyRules.showing : ReplyRules := ⟨False, False, True⟩

/-- A call that does not send to WeCom. -/
def ReplyCall.isCard : ReplyCall → Bool
  | .run .wecom .. | .replay .wecom .. => false
  | _ => true

/-- **Deliveries of cards to a truthful provider**, with a condition on steps. -/
abbrev cardSteps (allow : ℕ → ReplyChoice → ReplyOp → ReplyState → Prop) :
    RepliesState → RepliesLabel → Prop :=
  Pool.stepOk (fun _ call => call.isCard = true)
    (fun pid c op s => TruthfulOp pid c op s ∧ allow pid c op s) (fun _ _ => True)

/-- Such steps follow the rules of cards. -/
theorem stepOk_of_cardSteps {w : RepliesState} {l : RepliesLabel}
    (h : cardSteps (fun pid c op s => FreshOp pid op s ∧ VisibleOp pid c op s) w l) :
    Pool.stepOk (replyAccept .showing) (replyAllow .showing) (fun _ _ => True) w l := by
  refine Pool.stepOk.mono (fun s call hcall => ⟨fun hm => hm.elim, fun _ t ht => ?_⟩)
    (fun _ _ _ _ hc => ⟨hc.2.1, fun hm => hm.elim, fun _ => ⟨hc.1, hc.2.2⟩⟩)
    (fun _ _ _ => trivial) h
  cases t with
  | feishu client => exact ⟨client, rfl⟩
  | wecom =>
    -- a call with the transport of WeCom is not accepted
    rcases ht with ⟨_, _, _, rfl⟩ | ⟨_, _, rfl⟩ <;> cases hcall

/-- **What is delivered is shown.** In every run of card deliveries with a truthful
provider whose steps are fresh and in which no card stays behind, the card of a
delivery that is `DELIVERED` shows its content. -/
theorem delivered_shown (store : DeliveryStoreKind) {w : RepliesState}
    (h : (repliesMachine store .showing).Reach
      (cardSteps (fun pid c op s => FreshOp pid op s ∧ VisibleOp pid c op s)) w)
    {key : DeliveryKey} {d : ReplyDelivery} (hd : w.shared.rows.get key = some d)
    (hst : d.status = .delivered) : w.shared.shownAt key = some d.content := by
  have hreach := h.mono (fun _ _ => stepOk_of_cardSteps)
  have hinv : ReplyInv .showing w.shared :=
    (Pool.reach_safe (replyDiscipline store .showing) hreach).inv
  exact (hinv.cards trivial).shows key d hd (.inl hst)

/-- The response of Feishu for a card. -/
def cardMade (messageId : String) : ReplyChoice :=
  { answer := .response 200 (some (.obj [("code", .num "0"),
      ("data", .obj [("message_id", .str messageId)])])) }

/-- A first message is delivered as a card, and new content is queued for it. -/
def placeholderAndUpdate : List RepliesLabel :=
  claimAndUpdate 0 0 false 0
    ++ ([.env ⟨0, "m1"⟩, .act 0 (cardMade "m1")] : List RepliesLabel)
    ++ (List.replicate 2 (.act 0 {}) : List RepliesLabel)
    ++ ([.act 0 (named "a0"), .act 0 {}, .act 0 {}] : List RepliesLabel)
    ++ ([.spawn (.update sampleCard.key "done".toList), .act 1 {}, .act 1 {}] :
      List RepliesLabel)

/-- The card is delivered with the new content, and shows `content`. -/
def doneAndShows (w : RepliesState) (content : Text) : Bool :=
  (w.shared.rows.get sampleCard.key).any (fun d => d.status = .delivered
    ∧ d.content = "done".toList) && w.shared.shownAt sampleCard.key = some content

/-- A card that is updated by a fresh client, and by the one that delivered it. -/
theorem updated_card_runs :
    ((repliesMachine .database .showing).runIf
      (fun w l => decide (cardSteps (fun _ _ _ _ => True) w l)) (repliesIdle sampleCard)
      (placeholderAndUpdate ++ claimAndUpdate 2 1 true 5
        ++ ([.env ⟨2, "m2"⟩, .act 2 (cardMade "m1")] : List RepliesLabel)
        ++ (List.replicate 2 (.act 2 {}) : List RepliesLabel)
        ++ ([.act 2 (named "a1"), .act 2 {}, .act 2 {}] : List RepliesLabel))).map
          (fun w => doneAndShows w "hello".toList) = some true
    ∧ ((repliesMachine .database .showing).runIf (fun w l => decide
      (cardSteps (fun pid c op s => FreshOp pid op s ∧ VisibleOp pid c op s) w l))
      (repliesIdle sampleCard) (placeholderAndUpdate ++ claimAndUpdate 2 0 true 5
        ++ ([.env ⟨2, "m2"⟩, .act 2 (cardMade "m1"), .act 2 {}] : List RepliesLabel)
        ++ ([.act 2 (named "a1"), .act 2 {}, .act 2 {}] : List RepliesLabel))).map
          (fun w => doneAndShows w "done".toList) = some true := by
  decide +kernel

/-- **A card that stays behind.** A fresh client delivers the update: it remembers
no card, asks for a new one, and Feishu returns the one that is there, unchanged. -/
theorem stale_card :
    ∃ w, (repliesMachine .database .showing).Reach (cardSteps (fun _ _ _ _ => True)) w
      ∧ ∃ d, w.shared.rows.get sampleCard.key = some d ∧ d.status = .delivered
        ∧ w.shared.shownAt sampleCard.key ≠ some d.content := by
  have hrun := updated_card_runs.1
  obtain ⟨w, hw, htest⟩ := Machine.reach_of_runIf (fun _ _ => of_decide_eq_true)
    (repliesIdle_init .database .showing rfl) hrun
  obtain ⟨hrow, hshown⟩ := (Bool.and_eq_true _ _).mp htest
  obtain ⟨d, hd, hd'⟩ := (Option.any_eq_true _ _).mp hrow
  obtain ⟨hst, hcontent⟩ := of_decide_eq_true hd'
  refine ⟨w, hw, d, hd, hst, ?_⟩
  rw [of_decide_eq_true hshown, hcontent]
  decide

/-- **A card that is patched**: the client that delivered the first message
delivers the update. -/
theorem delivered_shown_patched :
    ∃ w, (repliesMachine .database .showing).Reach
        (cardSteps (fun pid c op s => FreshOp pid op s ∧ VisibleOp pid c op s)) w
      ∧ ∃ d, w.shared.rows.get sampleCard.key = some d ∧ d.status = .delivered
        ∧ d.content = "done".toList ∧ w.shared.shownAt sampleCard.key = some d.content := by
  have hrun := updated_card_runs.2
  obtain ⟨w, hw, htest⟩ := Machine.reach_of_runIf (fun _ _ => of_decide_eq_true)
    (repliesIdle_init .database .showing rfl) hrun
  obtain ⟨hrow, -⟩ := (Bool.and_eq_true _ _).mp htest
  obtain ⟨d, hd, hd'⟩ := (Option.any_eq_true _ _).mp hrow
  obtain ⟨hst, hcontent⟩ := of_decide_eq_true hd'
  exact ⟨w, hw, d, hd, hst, hcontent, delivered_shown .database hw hd hst⟩
