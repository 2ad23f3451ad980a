import AgentPlatform.ReplyCalls

/-!
# What workers may count on

The service claims an attempt by comparing the status of a row and nothing else,
and stores what became of it without comparing at all. So what a worker has in
hand can be out of date when it writes. `Fresh` says that it is not: the row is as
the worker knows it, and nobody else is at work on it. It is the comparison that
the store does not make.

In runs whose writes are fresh, `ReplyInv` holds. Three more promises go along
with it, each under its own conditions (`ReplyRules`): that `DELIVERED` stays,
that no delivery is resent blindly, and that a delivered card shows its content.
-/

/-- **What a run is held to**, apart from fresh writes: only `run` is called;
requests that end without an answer are recognised and not forgotten; the provider
is truthful, and no card stays behind its delivery. -/
structure ReplyRules where
  runsOnly : Prop
  cautious : Prop
  shown : Prop

/-! ## Conditions on requests -/

/-- **A write is fresh**: the row is as the call knows it, and no other call has
claimed it. -/
def Fresh (pid : ℕ) (key : DeliveryKey) (s : ReplyState) : Prop :=
  s.rows.get key = s.known pid key ∧ ∀ q, s.holder key = some q → q = pid

/-- The writes of a request are fresh. -/
def FreshOp (pid : ℕ) (op : ReplyOp) (s : ReplyState) : Prop :=
  match op with
  | .saveDelivery d => Fresh pid d.key s
  | .claimAttempt key fromStatus _ =>
    ∀ d, s.rows.get key = some d → d.status = fromStatus → Fresh pid key s
  | _ => True

/-- A transport takes the end of a call for what it is: a response, or an outcome
that is not known. -/
def ChannelRequest.recognises (r : ChannelRequest) : HttpAnswer → Bool
  | .response .. | .timeoutError => true
  | .timeoutException =>
    match r with
    | .post .. => false
    | _ => true
  | .otherException => false

/-- **Caution**: a call that ends without a response ends with a timeout its
transport recognises; while an attempt is open, an interrupted delivery is not
claimed again, nor a delivery queued anew. -/
def CautiousOp (pid : ℕ) (c : ReplyChoice) (op : ReplyOp) (s : ReplyState) : Prop :=
  match op with
  | .answer => ∀ o, s.wire pid = some o → o.request.recognises c.answer = true
  | .claimAttempt key fromStatus _ => ∀ d, s.rows.get key = some d → d.status = fromStatus →
      fromStatus = .inFlight → openAttempts s.log key = []
  | .saveDelivery d => d.status = .queued → openAttempts s.log d.key = []
  | _ => True

/-- The request was a patch. -/
def ChannelRequest.isPatch : ChannelRequest → Bool
  | .patchCard .. => true
  | _ => false

/-- What the client makes of an answer to a card request: the outcome, and the
message id to remember. -/
def ChannelRequest.outcome (r : ChannelRequest) : HttpAnswer →
    ChannelTransportOutcome × Option String
  | .response statusCode json => cardResponse r.isPatch statusCode json
  | .timeoutError | .timeoutException => (.unknown "FEISHU_CARD_TIMEOUT", none)
  | .otherException => (.failed "FEISHU_CARD_REQUEST_FAILED", none)

/-- **The provider is truthful**: it reports success for what it has acted on, and
names the message of the card. -/
def TruthfulOp (pid : ℕ) (c : ReplyChoice) (op : ReplyOp) (s : ReplyState) : Prop :=
  match op with
  | .answer => ∀ o, s.wire pid = some o → (o.request.outcome c.answer).1.delivered = true →
      o.applied = true ∧ ∀ id, (o.request.outcome c.answer).2 = some id →
        (s.cards.get o.key).map ProviderCard.messageId = some id
  | _ => True

/-- What a card shows. -/
def ReplyState.shownAt (s : ReplyState) (key : DeliveryKey) : Option Text :=
  (s.cards.get key).map ProviderCard.content

/-- **No card stays behind**: a card that is created anew shows the content it is
created with, unless the provider refuses it; a patch that timed out was acted
on. -/
def VisibleOp (pid : ℕ) (c : ReplyChoice) (op : ReplyOp) (s : ReplyState) : Prop :=
  match op with
  | .answer => ∀ o, s.wire pid = some o →
      (o.request.isPatch = false → (o.request.outcome c.answer).1.delivered = true →
        s.shownAt o.key = some o.request.content)
      ∧ (o.request.isPatch = true → (o.request.outcome c.answer).1.outcomeUnknown = true →
        o.applied = true)
  | _ => True

/-- The states in which an attempt of a delivery can be open: it is in flight, or
was parked, taken for delivered or given up. -/
def DeliveryState.leavesOpen : DeliveryState → Bool
  | .inFlight | .outcomeUnknown | .delivered | .deadLetter => true
  | _ => false

/-- The condition on requests. -/
def replyAllow (m : ReplyRules) (pid : ℕ) (c : ReplyChoice) (op : ReplyOp) (s : ReplyState) :
    Prop :=
  FreshOp pid op s ∧ (m.cautious → CautiousOp pid c op s)
    ∧ (m.shown → TruthfulOp pid c op s ∧ VisibleOp pid c op s)

/-- The condition on calls. -/
def replyAccept (m : ReplyRules) (_s : ReplyState) (call : ReplyCall) : Prop :=
  (m.runsOnly → ∃ t maxAttempts turns key, call = .run t maxAttempts turns key)
    ∧ (m.shown → ∀ t, (∃ maxAttempts turns key, call = .run t maxAttempts turns key)
      ∨ (∃ turns key, call = .replay t turns key) → ∃ client, t = .feishu client)

/-! ## The invariant -/

/-- **Cards and what is known of them.** A delivered card shows its content; a
client remembers the message of the card; messages are told apart by their ids;
and a patch goes to the message of its card, which shows it when the provider has
acted. -/
structure CardsInv (s : ReplyState) : Prop where
  shows : ∀ key d, s.rows.get key = some d → d.status = .delivered ∨ d.status = .outcomeUnknown →
    s.shownAt key = some d.content
  remembered : ∀ client key id, s.messageIds client key = some id →
    (s.cards.get key).map ProviderCard.messageId = some id
  unique : ∀ key key' card card', s.cards.get key = some card → s.cards.get key' = some card' →
    card.messageId = card'.messageId → key = key'
  patches : ∀ pid o id content, s.wire pid = some o → o.request = .patchCard id content →
    (s.cards.get o.key).map ProviderCard.messageId = some id
      ∧ (o.applied = true → s.shownAt o.key = some content)

/-- **The invariant.** -/
structure ReplyInv (m : ReplyRules) (s : ReplyState) : Prop where
  keyed : ∀ key d, s.rows.get key = some d → d.key = key
  held : ∀ key pid, s.holder key = some pid →
    ∃ d, s.hand pid = some (key, some d) ∧ s.rows.get key = some d ∧ d.status = .inFlight
  wired : ∀ pid o, s.wire pid = some o → s.holder o.key = some pid
    ∧ ∀ d, s.rows.get o.key = some d → o.attemptNo = d.attempts ∧ o.request.content = d.content
  numbered : ∀ a ∈ s.attempts, ∃ d, s.rows.get a.key = some d ∧ a.attemptNo ≤ d.attempts
  distinct : (s.attempts.map DeliveryAttempt.number).Nodup
  sends : m.cautious → NeverBlind s.log ∧ ∀ key, ∀ n ∈ openAttempts s.log key,
    ∃ d, s.rows.get key = some d ∧ d.attempts = n ∧ d.status.leavesOpen = true
  cards : m.shown → CardsInv s

/-- The request, whether the provider has acted on it or not. -/
def Outgoing.sent (o : Outgoing) : Outgoing := { o with applied := false }

/-- **What a call relies on the others to do**: they leave alone what it has in
hand and the deliveries it holds; attempts are counted upwards, and an attempt
that is over is not opened again. -/
structure ReplyKept (m : ReplyRules) (pid : ℕ) (s s' : ReplyState) : Prop where
  hand : s'.hand pid = s.hand pid
  wire : (s'.wire pid).map Outgoing.sent = (s.wire pid).map Outgoing.sent
  holder : ∀ key, s'.holder key = some pid ↔ s.holder key = some pid
  attempts : ∀ key, s.holder key = some pid → ∀ a ∈ s'.attempts, a.key = key → a ∈ s.attempts
  log : ∀ key, s.holder key = some pid → openAttempts s'.log key ⊆ openAttempts s.log key
  rows : ∀ key d, s.rows.get key = some d → ∃ d', s'.rows.get key = some d'
    ∧ d.attempts ≤ d'.attempts
    ∧ (d'.attempts = d.attempts → d'.status = .inFlight → d.status = .inFlight)
  past : ∀ key d, s.rows.get key = some d → ∀ n,
    (n < d.attempts ∨ (n = d.attempts ∧ d.status ≠ .inFlight)) →
      n ∈ openAttempts s'.log key → n ∈ openAttempts s.log key
  delivered : m.runsOnly → ∀ key d, s.rows.get key = some d → d.status = .delivered →
    s'.rows.get key = some d
  memory : m.shown → ∀ key, s.holder key = some pid → ∀ client,
    s'.messageIds client key = s.messageIds client key
  card : m.shown → ∀ key, s.holder key = some pid → s.wire pid = none →
    s'.cards.get key = s.cards.get key

/-- What a request of `pid` owes the others. -/
def ReplyOwes (m : ReplyRules) (pid : ℕ) (s s' : ReplyState) : Prop :=
  ReplyInv m s' ∧ ∀ q, q ≠ pid → ReplyKept m q s s'

section Kept

variable {m : ReplyRules} {pid : ℕ} {s s' s'' : ReplyState}

theorem ReplyKept.refl (pid : ℕ) (s : ReplyState) : ReplyKept m pid s s where
  hand := rfl
  wire := rfl
  holder := fun _ => Iff.rfl
  attempts := fun _ _ _ ha _ => ha
  log := fun _ _ _ hn => hn
  rows := fun _ d hd => ⟨d, hd, Nat.le_refl _, fun _ h => h⟩
  past := fun _ _ _ _ _ hn => hn
  delivered := fun _ _ _ hd _ => hd
  memory := fun _ _ _ _ => rfl
  card := fun _ _ _ _ => rfl

theorem ReplyKept.wire_none (h : ReplyKept m pid s s') (hw : s.wire pid = none) :
    s'.wire pid = none := by
  have hmap := h.wire
  rw [hw, Option.map_none] at hmap
  exact Option.map_eq_none_iff.mp hmap

theorem ReplyKept.trans (h : ReplyKept m pid s s') (h' : ReplyKept m pid s' s'') :
    ReplyKept m pid s s'' where
  hand := h'.hand.trans h.hand
  wire := h'.wire.trans h.wire
  holder := fun key => (h'.holder key).trans (h.holder key)
  attempts := fun key hk a ha heq =>
    h.attempts key hk a (h'.attempts key ((h.holder key).mpr hk) a ha heq) heq
  log := fun key hk _ hn => h.log key hk (h'.log key ((h.holder key).mpr hk) hn)
  rows := fun key d hd => by
    obtain ⟨d₁, hd₁, hle₁, hin₁⟩ := h.rows key d hd
    obtain ⟨d₂, hd₂, hle₂, hin₂⟩ := h'.rows key d₁ hd₁
    refine ⟨d₂, hd₂, hle₁.trans hle₂, fun heq hflight => ?_⟩
    have heq₂ : d₂.attempts = d₁.attempts := by omega
    exact hin₁ (by omega) (hin₂ heq₂ hflight)
  past := fun key d hd n hn hopen => by
    obtain ⟨d₁, hd₁, hle₁, hin₁⟩ := h.rows key d hd
    refine h.past key d hd n hn (h'.past key d₁ hd₁ n ?_ hopen)
    -- a delivery goes into flight with a new number only
    rcases hn with hlt | ⟨heq, hst⟩
    · exact .inl (by omega)
    · by_cases hsame : d₁.attempts = d.attempts
      · exact .inr ⟨by omega, fun hflight => hst (hin₁ hsame hflight)⟩
      · exact .inl (by omega)
  delivered := fun hr key d hd hst => h'.delivered hr key d (h.delivered hr key d hd hst) hst
  memory := fun hm key hk client =>
    (h'.memory hm key ((h.holder key).mpr hk) client).trans (h.memory hm key hk client)
  card := fun hm key hk hw =>
    (h'.card hm key ((h.holder key).mpr hk) (h.wire_none hw)).trans (h.card hm key hk hw)

theorem ReplyOwes.same (h : ReplyInv m s) : ReplyOwes m pid s s := ⟨h, fun q _ => .refl q s⟩

end Kept

/-! ## What each request does to it -/

section Steps

variable {m : ReplyRules} {pid : ℕ} {s : ReplyState}

/-- Cards are judged by the rows, the clients, the provider and the wire. -/
theorem CardsInv.of_same {s' : ReplyState} (h : CardsInv s) (hrows : s'.rows = s.rows)
    (hids : s'.messageIds = s.messageIds) (hcards : s'.cards = s.cards) (hwire : s'.wire = s.wire) :
    CardsInv s' := by
  refine ⟨?_, ?_, ?_, ?_⟩
  · rw [hrows]
    intro key d hd hst
    show (s'.cards.get key).map _ = _
    rw [hcards]
    exact h.shows key d hd hst
  · rw [hids, hcards]
    exact h.remembered
  · rw [hcards]
    exact h.unique
  · rw [hwire]
    intro q o id content ho hr
    show _ ∧ (_ → (s'.cards.get o.key).map _ = _)
    rw [hcards]
    exact h.patches q o id content ho hr

/-- **A row is written**, and what else may change with it. -/
structure RowWritten (pid : ℕ) (key : DeliveryKey) (d : ReplyDelivery) (s s' : ReplyState) :
    Prop where
  rows : ∀ k, s'.rows.get k = if k = key then some d else s.rows.get k
  hand : ∀ q, q ≠ pid → s'.hand q = s.hand q
  holder : ∀ k, k ≠ key → s'.holder k = s.holder k
  attempts : s'.attempts = s.attempts
  log : s'.log = s.log
  messageIds : s'.messageIds = s.messageIds
  cards : s'.cards = s.cards
  wire : s'.wire = s.wire

/-- **A row is written** by a call that holds nothing else: nobody else holds it,
its attempts are counted upwards, no attempt is forgotten, and what is delivered
shows. -/
theorem ReplyInv.write {s' : ReplyState} (h : ReplyInv m s) {key : DeliveryKey} {d : ReplyDelivery}
    (hw : RowWritten pid key d s s') (hkey : d.key = key) (hwire : s.wire pid = none)
    (honly : ∀ k, s.holder k = some pid → k = key)
    (hfree : ∀ q, s.holder key = some q → q = pid)
    (hholder : ∀ q, s'.holder key = some q →
      q = pid ∧ s'.hand pid = some (key, some d) ∧ d.status = .inFlight)
    (hold : ∀ old, s.rows.get key = some old → old.attempts ≤ d.attempts
      ∧ (d.attempts = old.attempts → d.status = .inFlight → old.status = .inFlight)
      ∧ (m.runsOnly → old.status ≠ .delivered))
    (hopen : m.cautious → ∀ n ∈ openAttempts s.log key,
      d.attempts = n ∧ d.status.leavesOpen = true)
    (hshow : m.shown → d.status = .delivered ∨ d.status = .outcomeUnknown →
      s.shownAt key = some d.content) : ReplyOwes m pid s s' := by
  have hself : s'.rows.get key = some d := by rw [hw.rows, if_pos rfl]
  have hother : ∀ {k}, k ≠ key → s'.rows.get k = s.rows.get k := fun hk => by
    rw [hw.rows, if_neg hk]
  -- a request on the wire belongs to another row
  have hunwired : ∀ q o, s.wire q = some o → o.key ≠ key := by
    intro q o ho heq
    have hq := (h.wired q o ho).1
    rw [heq] at hq
    rw [hfree q hq, hwire] at ho
    cases ho
  constructor
  · refine ⟨?_, ?_, ?_, ?_, hw.attempts ▸ h.distinct, ?_, fun hm => ?_⟩
    · intro k e he
      by_cases hk : k = key
      · rw [hk, hself] at he
        rw [← Option.some.inj he, hkey, hk]
      · exact h.keyed k e ((hother hk).symm.trans he)
    · intro k q hq
      by_cases hk : k = key
      · rw [hk] at hq ⊢
        obtain ⟨rfl, hh, hst⟩ := hholder q hq
        exact ⟨d, hh, hself, hst⟩
      · rw [hw.holder k hk] at hq
        obtain ⟨e, he, hre, hst⟩ := h.held k q hq
        have hne : q ≠ pid := fun heq => hk (honly k (heq ▸ hq))
        exact ⟨e, (hw.hand q hne).trans he, (hother hk).trans hre, hst⟩
    · intro q o ho
      rw [hw.wire] at ho
      have hk := hunwired q o ho
      obtain ⟨hq, hd⟩ := h.wired q o ho
      exact ⟨(hw.holder _ hk).trans hq, fun e he => hd e ((hother hk).symm.trans he)⟩
    · intro a ha
      rw [hw.attempts] at ha
      obtain ⟨e, he, hle⟩ := h.numbered a ha
      by_cases hk : a.key = key
      · rw [hk] at he ⊢
        exact ⟨d, hself, hle.trans (hold e he).1⟩
      · exact ⟨e, (hother hk).trans he, hle⟩
    · intro hm
      obtain ⟨hblind, hsend⟩ := h.sends hm
      rw [hw.log]
      refine ⟨hblind, fun k n hn => ?_⟩
      by_cases hk : k = key
      · rw [hk] at hn ⊢
        obtain ⟨hattempts, hst⟩ := hopen hm n hn
        exact ⟨d, hself, hattempts, hst⟩
      · obtain ⟨e, he, hattempts, hst⟩ := hsend k n hn
        exact ⟨e, (hother hk).trans he, hattempts, hst⟩
    · have hcards := h.cards hm
      refine ⟨fun k e he hst => ?_, ?_, ?_, ?_⟩
      · show (s'.cards.get k).map _ = _
        rw [hw.cards]
        by_cases hk : k = key
        · rw [hk, hself] at he
          obtain rfl := Option.some.inj he
          rw [hk]
          exact hshow hm hst
        · exact hcards.shows k e ((hother hk).symm.trans he) hst
      · rw [hw.messageIds, hw.cards]
        exact hcards.remembered
      · rw [hw.cards]
        exact hcards.unique
      · rw [hw.wire]
        intro q o id content ho hr
        show _ ∧ (_ → (s'.cards.get o.key).map _ = _)
        rw [hw.cards]
        exact hcards.patches q o id content ho hr
  · intro q hq
    refine ⟨hw.hand q hq, by rw [hw.wire], fun k => ?_, fun _ _ _ ha _ => hw.attempts ▸ ha,
      fun _ _ => by rw [hw.log]; exact fun _ hn => hn, fun k e he => ?_,
      fun _ _ _ _ _ hn => hw.log ▸ hn, fun hr k e he hst => ?_, fun _ _ _ _ => by
        rw [hw.messageIds],
      fun _ _ _ _ => by rw [hw.cards]⟩
    · by_cases hk : k = key
      · rw [hk]
        exact ⟨fun heq => absurd (hholder q heq).1 hq, fun heq => absurd (hfree q heq) hq⟩
      · rw [hw.holder k hk]
    · by_cases hk : k = key
      · rw [hk] at he ⊢
        obtain ⟨hle, hin, -⟩ := hold e he
        exact ⟨d, hself, hle, hin⟩
      · exact ⟨e, (hother hk).trans he, Nat.le_refl _, fun _ hst => hst⟩
    · by_cases hk : k = key
      · rw [hk] at he
        exact absurd hst ((hold e he).2.2 hr)
      · exact (hother hk).trans he

/-- A call that holds nothing reads a row. -/
theorem ReplyInv.knowing (h : ReplyInv m s) (hfree : ∀ k, s.holder k ≠ some pid)
    (key : DeliveryKey) (d : Option ReplyDelivery) : ReplyOwes m pid s (s.knowing pid key d) := by
  refine ⟨⟨h.keyed, fun k q hq => ?_, h.wired, h.numbered, h.distinct, h.sends,
    fun hm => (h.cards hm).of_same rfl rfl rfl rfl⟩, fun q hq => ?_⟩
  · obtain ⟨e, he, hrow, hst⟩ := h.held k q hq
    have hne : q ≠ pid := fun heq => hfree k (heq ▸ hq)
    exact ⟨e, (Function.update_of_ne hne _ _).trans he, hrow, hst⟩
  · exact { ReplyKept.refl q s with hand := Function.update_of_ne hq _ _ }

theorem openAttempts_note_subset {log : List DeliveryEvent} {e : DeliveryEvent} (key : DeliveryKey)
    (he : ∀ n, e ≠ .issued key n) : openAttempts (log ++ [e]) key ⊆ openAttempts log key := by
  intro n hn
  rw [openAttempts_append] at hn
  cases e with
  | issued k n' =>
    have hk : k ≠ key := fun hk => he n' (by rw [hk])
    simpa [stillOpen, hk] using hn
  | answered k n' =>
    simp only [stillOpen] at hn
    split at hn
    · exact List.mem_of_mem_filter hn
    · exact hn
  | reconciled k n' v =>
    simp only [stillOpen] at hn
    split at hn
    · exact List.mem_of_mem_filter hn
    · exact hn

/-- **An entry of the log that is no request.** -/
theorem ReplyInv.note (h : ReplyInv m s) {e : DeliveryEvent} (he : ∀ k n, e ≠ .issued k n) :
    ReplyInv m (s.note e) ∧ ∀ q, ReplyKept m q s (s.note e) := by
  have hsub : ∀ k, openAttempts (s.log ++ [e]) k ⊆ openAttempts s.log k :=
    fun k => openAttempts_note_subset k (he k)
  refine ⟨⟨h.keyed, h.held, h.wired, h.numbered, h.distinct, fun hm => ?_,
    fun hm => (h.cards hm).of_same rfl rfl rfl rfl⟩, fun q => ?_⟩
  · obtain ⟨hblind, hsend⟩ := h.sends hm
    exact ⟨hblind.append (fun k n heq => absurd heq (he k n)), fun k n hn => hsend k n (hsub k hn)⟩
  · exact { ReplyKept.refl q s with
      log := fun k _ => hsub k
      past := fun k _ _ n _ hn => hsub k hn }

/-- **A request goes out** for a delivery that the call holds and that has no open
attempt. -/
theorem ReplyInv.request (h : ReplyInv m s) {key : DeliveryKey} {d : ReplyDelivery}
    {r : ChannelRequest} (hholder : s.holder key = some pid) (hrow : s.rows.get key = some d)
    (hcontent : r.content = d.content) (hopen : m.cautious → openAttempts s.log key = [])
    (hpatch : m.shown → ∀ id content, r = .patchCard id content →
      (s.cards.get key).map ProviderCard.messageId = some id) :
    ReplyOwes m pid s { s.note (.issued key d.attempts) with
      wire := Function.update s.wire pid (some ⟨key, d.attempts, r, false⟩) } := by
  obtain ⟨e, -, he, hflight⟩ := h.held key pid hholder
  obtain rfl := Option.some.inj (hrow.symm.trans he)
  have hopens : ∀ k n, n ∈ openAttempts (s.log ++ [.issued key d.attempts]) k →
      (k = key ∧ n = d.attempts) ∨ n ∈ openAttempts s.log k := by
    intro k n hn
    simp only [openAttempts_append, stillOpen] at hn
    split at hn
    · rename_i hk
      rcases List.mem_append.mp hn with hn | hn
      · exact .inr hn
      · exact .inl ⟨hk.symm, List.mem_singleton.mp hn⟩
    · exact .inr hn
  constructor
  · refine ⟨h.keyed, h.held, fun q o ho => ?_, h.numbered, h.distinct, fun hm => ?_, fun hm => ?_⟩
    · by_cases hq : q = pid
      · subst hq
        obtain rfl : _ = o := Option.some.inj ((Function.update_self q _ s.wire).symm.trans ho)
        refine ⟨hholder, fun e he' => ?_⟩
        obtain rfl := Option.some.inj (hrow.symm.trans he')
        exact ⟨rfl, hcontent⟩
      · exact h.wired q o ((Function.update_of_ne hq _ _).symm.trans ho)
    · obtain ⟨hblind, hsend⟩ := h.sends hm
      refine ⟨hblind.append (fun k n heq => ?_), fun k n hn => ?_⟩
      · cases heq
        exact hopen hm
      · rcases hopens k n hn with ⟨rfl, rfl⟩ | hn
        · exact ⟨d, hrow, rfl, by rw [hflight]; rfl⟩
        · exact hsend k n hn
    · have hcards := h.cards hm
      refine ⟨hcards.shows, hcards.remembered, hcards.unique, fun q o id content ho hr => ?_⟩
      by_cases hq : q = pid
      · subst hq
        obtain rfl : _ = o := Option.some.inj ((Function.update_self q _ s.wire).symm.trans ho)
        exact ⟨hpatch hm id content hr, fun happlied => (nomatch happlied)⟩
      · exact hcards.patches q o id content ((Function.update_of_ne hq _ _).symm.trans ho) hr
  · intro q hq
    refine { ReplyKept.refl q s with
      wire := by
        show (Function.update s.wire pid _ q).map _ = _
        rw [Function.update_of_ne hq]
      log := fun k hk n hn => ?_
      past := fun k e' hrow' n hn hmem => ?_
      card := fun _ _ _ _ => rfl }
    · rcases hopens k n hn with ⟨rfl, -⟩ | hn
      · exact absurd (Option.some.inj (hk.symm.trans hholder)) hq
      · exact hn
    · rcases hopens k n hmem with ⟨rfl, rfl⟩ | hmem
      · obtain rfl := Option.some.inj (hrow.symm.trans hrow')
        rcases hn with hlt | ⟨-, hne⟩
        · exact absurd hlt (Nat.lt_irrefl _)
        · exact absurd hflight hne
      · exact hmem

/-- A call waits no longer. -/
theorem ReplyInv.unwire (h : ReplyInv m s) (pid : ℕ) :
    ReplyOwes m pid s { s with wire := Function.update s.wire pid none } := by
  have hwire : ∀ q o, Function.update s.wire pid none q = some o → s.wire q = some o := by
    intro q o ho
    by_cases hq : q = pid
    · rw [hq, Function.update_self] at ho
      cases ho
    · exact (Function.update_of_ne hq _ _).symm.trans ho
  refine ⟨⟨h.keyed, h.held, fun q o ho => h.wired q o (hwire q o ho), h.numbered, h.distinct,
    h.sends,
    fun hm => ?_⟩, fun q hq => ?_⟩
  · have hcards := h.cards hm
    exact ⟨hcards.shows, hcards.remembered, hcards.unique,
      fun q o id content ho hr => hcards.patches q o id content (hwire q o ho) hr⟩
  · exact { ReplyKept.refl q s with
      wire := by
        show (Function.update s.wire pid none q).map _ = _
        rw [Function.update_of_ne hq]
      card := fun _ _ _ _ => rfl }

/-- **An attempt is recorded** by the call that holds its delivery, once. -/
theorem ReplyInv.attempt (h : ReplyInv m s) {d : ReplyDelivery} {a : DeliveryAttempt}
    (hholder : s.holder a.key = some pid) (hrow : s.rows.get a.key = some d)
    (hno : a.attemptNo = d.attempts)
    (hnew : ∀ b ∈ s.attempts, b.key = a.key → b.attemptNo < d.attempts) :
    ReplyOwes m pid s { s with attempts := s.attempts ++ [a] } := by
  refine ⟨⟨h.keyed, h.held, h.wired, fun b hb => ?_, ?_, h.sends,
    fun hm => (h.cards hm).of_same rfl rfl rfl rfl⟩, fun q hq => ?_⟩
  · rcases List.mem_append.mp hb with hb | hb
    · exact h.numbered b hb
    · obtain rfl := List.mem_singleton.mp hb
      exact ⟨d, hrow, Nat.le_of_eq hno⟩
  · rw [List.map_append, List.nodup_append]
    refine ⟨h.distinct, List.nodup_singleton _, fun x hx y hy hxy => ?_⟩
    obtain ⟨b, hb, rfl⟩ := List.mem_map.mp hx
    rw [List.map_singleton, List.mem_singleton] at hy
    rw [hy] at hxy
    obtain ⟨hkey, hnumber⟩ := Prod.mk.inj hxy
    have hlt := hnew b hb hkey
    omega
  · refine { ReplyKept.refl q s with attempts := fun k hk b hb hbk => ?_ }
    rcases List.mem_append.mp hb with hb | hb
    · exact hb
    · obtain rfl := List.mem_singleton.mp hb
      rw [hbk, hk] at hholder
      exact absurd (Option.some.inj hholder) hq

/-- A client remembers the message of a card whose delivery the call holds. -/
theorem ReplyInv.remember (h : ReplyInv m s) {key : DeliveryKey} {client : ℕ} {id : String}
    (hholder : s.holder key = some pid)
    (hcard : m.shown → (s.cards.get key).map ProviderCard.messageId = some id) :
    ReplyOwes m pid s { s with
      messageIds := Function.update s.messageIds client
        (Function.update (s.messageIds client) key (some id)) } := by
  have hids : ∀ client' k, Function.update s.messageIds client
      (Function.update (s.messageIds client) key (some id)) client' k
        = if client' = client ∧ k = key then some id else s.messageIds client' k := by
    intro client' k
    by_cases hc : client' = client
    · subst hc
      rw [Function.update_self]
      by_cases hk : k = key
      · simp [hk]
      · simp [hk]
    · rw [Function.update_of_ne hc]
      simp [hc]
  refine ⟨⟨h.keyed, h.held, h.wired, h.numbered, h.distinct, h.sends, fun hm => ?_⟩, fun q hq => ?_⟩
  · have hcards := h.cards hm
    refine ⟨hcards.shows, fun client' k id' hid => ?_, hcards.unique, hcards.patches⟩
    have hid' := (hids client' k).symm.trans hid
    split at hid'
    · rename_i hk
      obtain rfl := Option.some.inj hid'
      rw [hk.2]
      exact hcard hm
    · exact hcards.remembered client' k id' hid'
  · refine { ReplyKept.refl q s with
      memory := fun _ k hk client' => ?_
      card := fun _ _ _ _ => rfl }
    have hne : k ≠ key := by
      rintro rfl
      exact absurd (Option.some.inj (hk.symm.trans hholder)) hq
    exact (hids client' k).trans (if_neg (fun hand => hne hand.2))

/-- A transport remembers when it updated a card. -/
theorem ReplyInv.pace (h : ReplyInv m s) (updatedAt : ℕ → DeliveryKey → Option ℚ) :
    ReplyOwes m pid s { s with updatedAt := updatedAt } :=
  ⟨⟨h.keyed, h.held, h.wired, h.numbered, h.distinct, h.sends,
    fun hm => (h.cards hm).of_same rfl rfl rfl rfl⟩, fun q _ => { ReplyKept.refl q s with
      card := fun _ _ _ _ => rfl }⟩

/-- **A crash.** -/
theorem ReplyInv.abandoned (h : ReplyInv m s) (pid : ℕ) : ReplyOwes m pid s (s.abandoned pid) := by
  have hholder : ∀ k q, (s.abandoned pid).holder k = some q ↔ s.holder k = some q ∧ q ≠ pid := by
    intro k q
    show (if s.holder k = some pid then none else s.holder k) = some q ↔ _
    split
    · rename_i hk
      rw [hk]
      exact ⟨fun heq => (nomatch heq), fun ⟨heq, hne⟩ => absurd (Option.some.inj heq).symm hne⟩
    · rename_i hk
      exact ⟨fun heq => ⟨heq, fun hq => hk (hq ▸ heq)⟩, fun heq => heq.1⟩
  have hun := h.unwire pid
  refine ⟨⟨h.keyed, fun k q hq => ?_, fun q o ho => ?_, h.numbered, h.distinct, h.sends,
    fun hm => (hun.1.cards hm).of_same rfl rfl rfl rfl⟩, fun q hq => ?_⟩
  · obtain ⟨hk, hne⟩ := (hholder k q).mp hq
    obtain ⟨d, hd, hrow, hst⟩ := h.held k q hk
    exact ⟨d, (Function.update_of_ne hne _ _).trans hd, hrow, hst⟩
  · obtain ⟨hk, hd⟩ := hun.1.wired q o ho
    refine ⟨(hholder _ q).mpr ⟨hk, ?_⟩, hd⟩
    rintro rfl
    have hnone : Function.update s.wire q none q = some o := ho
    rw [Function.update_self] at hnone
    cases hnone
  · exact { hun.2 q hq with
      hand := Function.update_of_ne hq _ _
      holder := fun k => ⟨fun hk => ((hholder k q).mp hk).1, fun hk => (hholder k q).mpr ⟨hk, hq⟩⟩
      card := fun _ _ _ _ => rfl }

/-- What the provider does to the cards: a card keeps its message, and shows what
it did before or, for the card of the request, its content. -/
theorem cards_applyRequest (h : CardsInv s) {pid : ℕ} {o : Outgoing} (ho : s.wire pid = some o)
    (newId : String) (key : DeliveryKey) :
    (applyRequest s.cards o.key newId o.request).get key
      = if key = o.key then
          match o.request with
          | .post .. => s.cards.get key
          | .createCard _ _ content => some ((s.cards.get key).getD ⟨newId, content⟩)
          | .patchCard id content => some ⟨id, content⟩
        else s.cards.get key := by
  cases hr : o.request with
  | post url content => simp [applyRequest]
  | createCard receiveIdType receiveId content =>
    simp only [applyRequest]
    cases hcard : s.cards.get o.key with
    | some card =>
      simp only [Option.isSome_some, if_true]
      split
      · rename_i hk
        rw [hk, hcard]
        rfl
      · rfl
    | none =>
      simp only [Option.isSome_none, Bool.false_eq_true, if_false]
      rw [Dictionary.get_set]
      split
      · rename_i hk
        rw [hk, hcard]
        rfl
      · rfl
  | patchCard id content =>
    obtain ⟨hid, -⟩ := h.patches pid o id content ho hr
    obtain ⟨card, hcard, rfl⟩ := Option.map_eq_some_iff.mp hid
    -- the message is found under the key of the request
    have hfind : ∃ e, s.cards.items.find? (fun e => e.2.messageId = card.messageId) = some e
        ∧ e.1 = o.key := by
      have hsome : (s.cards.items.find? (fun e => e.2.messageId = card.messageId)).isSome :=
        List.find?_isSome.mpr ⟨(o.key, card), Dictionary.get_eq_some_iff.mp hcard, by simp⟩
      obtain ⟨e, he⟩ := Option.isSome_iff_exists.mp hsome
      have hsame : e.2.messageId = card.messageId := by simpa using List.find?_some he
      exact ⟨e, he, h.unique e.1 o.key e.2 card
        (Dictionary.get_eq_some_iff.mpr (List.mem_of_find?_eq_some he)) hcard hsame⟩
    obtain ⟨e, he, hkey⟩ := hfind
    simp only [applyRequest, he, hkey]
    exact Dictionary.get_set _ _ _ _

/-- A card keeps its message. -/
theorem messageId_applyRequest (h : CardsInv s) {pid : ℕ} {o : Outgoing} (ho : s.wire pid = some o)
    (newId : String) {key : DeliveryKey} {id : String}
    (hid : (s.cards.get key).map ProviderCard.messageId = some id) :
    ((applyRequest s.cards o.key newId o.request).get key).map ProviderCard.messageId
      = some id := by
  rw [cards_applyRequest h ho]
  split
  · rename_i hk
    obtain ⟨card, hcard, rfl⟩ := Option.map_eq_some_iff.mp hid
    split
    · exact hid
    · rw [hcard]
      rfl
    · rename_i id' content hr
      obtain ⟨hid', -⟩ := h.patches pid o id' content ho hr
      rw [← hk, hcard] at hid'
      exact hid'.symm
  · exact hid

/-- A card the provider has was there, or is new. -/
theorem card_of_applyRequest (h : CardsInv s) {pid : ℕ} {o : Outgoing} (ho : s.wire pid = some o)
    (newId : String) {key : DeliveryKey} {card : ProviderCard}
    (hcard : (applyRequest s.cards o.key newId o.request).get key = some card) :
    (∃ old, s.cards.get key = some old ∧ old.messageId = card.messageId)
      ∨ (key = o.key ∧ card.messageId = newId) := by
  cases hold : s.cards.get key with
  | some old =>
    have hid : (s.cards.get key).map ProviderCard.messageId = some old.messageId := by
      rw [hold]
      rfl
    have hid := messageId_applyRequest h ho newId hid
    rw [hcard] at hid
    exact .inl ⟨old, rfl, (Option.some.inj hid).symm⟩
  | none =>
    rw [cards_applyRequest h ho, hold] at hcard
    split at hcard
    · rename_i hk
      split at hcard
      · cases hcard
      · exact .inr ⟨hk, by rw [← Option.some.inj hcard]; rfl⟩
      · rename_i id content hr
        obtain ⟨hid, -⟩ := h.patches pid o id content ho hr
        rw [← hk, hold] at hid
        cases hid
    · cases hcard

/-- **The provider acts.** -/
theorem ReplyInv.provider {s' : ReplyState} (h : ReplyInv m s) {e : ProviderEvent}
    (he : e.apply s = some s') : ReplyInv m s' ∧ ∀ q, ReplyKept m q s s' := by
  unfold ProviderEvent.apply at he
  split at he
  · cases he
  · rename_i o ho
    split at he
    · cases he
    · rename_i hnew
      obtain rfl := Option.some.inj he
      obtain ⟨hholder, hrow⟩ := h.wired e.pid o ho
      have hfresh : ∀ key card, s.cards.get key = some card → card.messageId ≠ e.newId := by
        intro key card hcard heq
        refine hnew (.inr (List.any_eq_true.mpr ⟨(key, card), ?_, decide_eq_true heq⟩))
        exact Dictionary.get_eq_some_iff.mp hcard
      -- the card of another request is left alone
      have hapart : ∀ q o', s.wire q = some o' → q ≠ e.pid → o'.key ≠ o.key := by
        intro q o' ho' hq heq
        have hq' := (h.wired q o' ho').1
        rw [heq, hholder] at hq'
        exact hq (Option.some.inj hq').symm
      refine ⟨⟨h.keyed, h.held, fun q o' ho' => ?_, h.numbered, h.distinct, h.sends, fun hm => ?_⟩,
        fun q => ?_⟩
      · by_cases hq : q = e.pid
        · subst hq
          obtain rfl := Option.some.inj ((Function.update_self e.pid _ s.wire).symm.trans ho')
          exact ⟨hholder, hrow⟩
        · exact h.wired q o' ((Function.update_of_ne hq _ _).symm.trans ho')
      · have hcards := h.cards hm
        have happly := cards_applyRequest hcards ho e.newId
        refine ⟨fun key d hd hst => ?_, fun client key id hid => ?_,
          fun key key' card card' hc hc' heq =>
          ?_, fun q o' id content ho' hr => ?_⟩
        · show ((applyRequest s.cards o.key e.newId o.request).get key).map _ = _
          rw [happly, if_neg]
          · exact hcards.shows key d hd hst
          · rintro rfl
            obtain ⟨d', -, hd', hflight⟩ := h.held o.key e.pid hholder
            obtain rfl := Option.some.inj (hd.symm.trans hd')
            rw [hflight] at hst
            rcases hst with hst | hst <;> cases hst
        · exact messageId_applyRequest hcards ho e.newId (hcards.remembered client key id hid)
        · rcases card_of_applyRequest hcards ho e.newId hc with ⟨old, hold, hid⟩ | ⟨rfl, hid⟩
          · rcases card_of_applyRequest hcards ho e.newId hc' with ⟨old', hold', hid'⟩ | ⟨rfl, hid'⟩
            · exact hcards.unique key key' old old' hold hold' (hid.trans (heq.trans hid'.symm))
            · exact absurd (hid.trans (heq.trans hid')) (hfresh key old hold)
          · rcases card_of_applyRequest hcards ho e.newId hc' with ⟨old', hold', hid'⟩ | ⟨rfl, -⟩
            · exact absurd (hid'.trans (heq.symm.trans hid)) (hfresh key' old' hold')
            · rfl
        · by_cases hq : q = e.pid
          · subst hq
            obtain rfl := Option.some.inj ((Function.update_self e.pid _ s.wire).symm.trans ho')
            refine ⟨messageId_applyRequest hcards ho e.newId
              (hcards.patches e.pid o id content ho hr).1, fun _ => ?_⟩
            show ((applyRequest s.cards o.key e.newId o.request).get o.key).map _ = _
            rw [happly, if_pos rfl, show o.request = .patchCard id content from hr]
            rfl
          · have ho'' := (Function.update_of_ne hq _ _).symm.trans ho'
            obtain ⟨hid, hshows⟩ := hcards.patches q o' id content ho'' hr
            refine ⟨messageId_applyRequest hcards ho e.newId hid, fun happlied => ?_⟩
            show ((applyRequest s.cards o.key e.newId o.request).get o'.key).map _ = _
            rw [happly, if_neg (hapart q o' ho'' hq)]
            exact hshows happlied
      · refine { ReplyKept.refl q s with
          wire := ?_
          card := fun hm key hkey hnone => ?_ }
        · show (Function.update s.wire e.pid _ q).map _ = _
          by_cases hq : q = e.pid
          · rw [hq, Function.update_self, ho]
            rfl
          · rw [Function.update_of_ne hq]
        · show (applyRequest s.cards o.key e.newId o.request).get key = _
          rw [cards_applyRequest (h.cards hm) ho, if_neg]
          rintro rfl
          rw [hholder] at hkey
          rw [← Option.some.inj hkey, ho] at hnone
          cases hnone

end Steps
