import AgentPlatform.ReplyDiscipline

/-!
# The calls of the delivery service, one by one

Every call keeps `ReplyInv`, whatever the others do between its requests. The
lemmas follow the programs: a call reads a delivery, claims an attempt, sends,
reconciles what it cannot tell, records the attempt and moves the delivery on.

What a call knows on the way is an assertion that lasts while others run: nothing
yet (`AtRest`), a delivery it has read or written (`Knows`), one that it holds
(`HoldsDelivery`), what its request came to (`Sent`).
-/

section Walk

variable (store : DeliveryStoreKind) (m : ReplyRules) (pid : ℕ)

/-- A program of `pid` is safe among other calls. -/
abbrev KeepsReplies {α : Type} (p : ReplyProg α) (Q : Except PyException α → ReplyState → Prop)
    (s : ReplyState) : Prop :=
  p.Safe (Prog.Handled (replyHandler store pid) (replyAllow m pid))
    (fun a b => ReplyInv m b ∧ ReplyKept m pid a b) (ReplyOwes m pid) Q s

/-- An assertion lasts while others run. -/
def LastsFor (I : ReplyState → Prop) : Prop :=
  ∀ a a', I a → ReplyInv m a' → ReplyKept m pid a a' → I a'

/-- A postcondition of answers. -/
abbrev Gives {α : Type} (P : α → ReplyState → Prop) : Except PyException α → ReplyState → Prop :=
  Prog.outcome P (fun _ _ => True)

/-- The call holds nothing. -/
structure AtRest (s : ReplyState) : Prop where
  wire : s.wire pid = none
  free : ∀ k, s.holder k ≠ some pid

/-- The call has read or written a delivery, and holds nothing. -/
structure Knows (d : ReplyDelivery) (s : ReplyState) : Prop where
  calm : AtRest pid s
  hand : s.hand pid = some (d.key, some d)

/-- **The call holds a delivery.** -/
structure HoldsDelivery (d : ReplyDelivery) (s : ReplyState) : Prop where
  wire : s.wire pid = none
  holder : s.holder d.key = some pid
  only : ∀ k, s.holder k = some pid → k = d.key
  hand : s.hand pid = some (d.key, some d)

/-- No attempt is recorded under the number of the delivery yet. -/
def Unrecorded (d : ReplyDelivery) (s : ReplyState) : Prop :=
  ∀ a ∈ s.attempts, a.key = d.key → a.attemptNo < d.attempts

end Walk

section Rules

variable {store : DeliveryStoreKind} {m : ReplyRules} {pid : ℕ} {s s' : ReplyState}
  {d : ReplyDelivery}

/-- **Request rule**, for a call that knows `I`. -/
theorem keeps_ask {op : ReplyOp} {I : ReplyState → Prop}
    {Q : Except PyException (ReplyRes op) → ReplyState → Prop} (hI : LastsFor m pid I) (hs : I s)
    (hop : ∀ s₁ c r s₂, I s₁ → ReplyInv m s₁ → replyAllow m pid c op s₁ →
      replyHandler store pid c op s₁ = some (r, s₂) → ReplyOwes m pid s₁ s₂ ∧ Q r s₂) :
    KeepsReplies store m pid op.ask Q s := by
  refine (Prog.safe_perform _ _ _).mpr ?_
  rintro s₁ ⟨hinv, hk⟩ r s₂ ⟨c, hallow, hh⟩
  exact hop s₁ c r s₂ (hI s s₁ hs hinv hk) hinv hallow hh

/-- A request that only asks. -/
theorem keeps_look {op : ReplyOp} {I : ReplyState → Prop} {F : PyException → ReplyState → Prop}
    (hI : LastsFor m pid I) (hs : I s) (hlook : ∀ c s₁ r s₂,
      replyHandler store pid c op s₁ = some (r, s₂) → s₂ = s₁ ∧ ∃ a, r = .ok a) :
    KeepsReplies store m pid op.ask (Prog.outcome (fun _ => I) F) s := by
  refine keeps_ask hI hs (fun s₁ c r s₂ hs₁ hinv _ hh => ?_)
  obtain ⟨rfl, a, rfl⟩ := hlook c s₁ r s₂ hh
  exact ⟨.same hinv, hs₁⟩

/-- What a request that always answers comes to. -/
theorem look_eq {α : Type} {a : α} {r : Except PyException α} {s₁ s₂ : ReplyState}
    (h : some (.ok a, s₁) = some (r, s₂)) : s₂ = s₁ ∧ ∃ a, r = .ok a := by
  obtain ⟨rfl, rfl⟩ := Prod.mk.inj (Option.some.inj h)
  exact ⟨rfl, a, rfl⟩

/-- Sequencing, when exceptions need no care. -/
theorem keeps_bind {α β : Type} {p : ReplyProg α} {f : α → ReplyProg β} {P : α → ReplyState → Prop}
    {P' : β → ReplyState → Prop} (h : KeepsReplies store m pid p (Gives P) s)
    (hf : ∀ a s', P a s' → KeepsReplies store m pid (f a) (Gives P') s') :
    KeepsReplies store m pid (p.bind f) (Gives P') s :=
  h.bind hf (fun _ _ _ => trivial)

/-! ## What lasts -/

theorem AtRest.kept (h : AtRest pid s) (hk : ReplyKept m pid s s') : AtRest pid s' :=
  ⟨hk.wire_none h.wire, fun k hp => h.free k ((hk.holder k).mp hp)⟩

theorem lasts_atRest : LastsFor m pid (AtRest pid) := fun _ _ h _ hk => h.kept hk

theorem Knows.kept (h : Knows pid d s) (hk : ReplyKept m pid s s') : Knows pid d s' :=
  ⟨h.calm.kept hk, hk.hand.trans h.hand⟩

theorem lasts_knows : LastsFor m pid (Knows pid d) := fun _ _ h _ hk => h.kept hk

theorem Knows.known (h : Knows pid d s) : s.known pid d.key = some d := by
  simp [ReplyState.known, h.hand]

theorem HoldsDelivery.kept (h : HoldsDelivery pid d s) (hk : ReplyKept m pid s s') :
    HoldsDelivery pid d s' :=
  ⟨hk.wire_none h.wire, (hk.holder _).mpr h.holder, fun k hp => h.only k ((hk.holder k).mp hp),
    hk.hand.trans h.hand⟩

/-- What a call holds is in the row, in flight. -/
theorem ReplyInv.row_of_holder (hinv : ReplyInv m s) (hholder : s.holder d.key = some pid)
    (hhand : s.hand pid = some (d.key, some d)) :
    s.rows.get d.key = some d ∧ d.status = .inFlight := by
  obtain ⟨e, he, hrow, hst⟩ := hinv.held d.key pid hholder
  obtain rfl : d = e := by simpa [hhand] using he
  exact ⟨hrow, hst⟩

theorem HoldsDelivery.row (h : HoldsDelivery pid d s) (hinv : ReplyInv m s) : s.rows.get d.key
    = some d :=
  (hinv.row_of_holder h.holder h.hand).1

/-- An open attempt of a delivery that the call holds is the one at hand. -/
theorem ReplyInv.open_eq (hinv : ReplyInv m s) (hm : m.cautious) (hrow : s.rows.get d.key = some d)
    {n : ℕ} (hn : n ∈ openAttempts s.log d.key) : d.attempts = n ∧ d.status.leavesOpen = true := by
  obtain ⟨e, he, hattempts, hst⟩ := (hinv.sends hm).2 d.key n hn
  obtain rfl := Option.some.inj (hrow.symm.trans he)
  exact ⟨hattempts, hst⟩

theorem Unrecorded.kept (h : Unrecorded d s) (hh : s.holder d.key = some pid)
    (hk : ReplyKept m pid s s') : Unrecorded d s' :=
  fun a ha hkey => h a (hk.attempts d.key hh a ha hkey) hkey

theorem openAttempts_kept (hk : ReplyKept m pid s s') {key : DeliveryKey}
    (hh : s.holder key = some pid) (h : openAttempts s.log key = []) :
    openAttempts s'.log key = [] :=
  List.eq_nil_iff_forall_not_mem.mpr (fun n hn => by
    have hmem := hk.log key hh hn
    rw [h] at hmem
    cases hmem)

theorem shownAt_kept (hk : ReplyKept m pid s s') (hm : m.shown) {key : DeliveryKey}
    (hh : s.holder key = some pid) (hw : s.wire pid = none) : s'.shownAt key = s.shownAt key := by
  show (s'.cards.get key).map _ = _
  rw [hk.card hm key hh hw]
  rfl

/-! ## A row is saved -/

/-- **When a save is in order**: it replaces what the call knows, and what is
recorded stays true. -/
structure MaySave (m : ReplyRules) (pid : ℕ) (d : ReplyDelivery) (s : ReplyState) : Prop where
  wire : s.wire pid = none
  only : ∀ k, s.holder k = some pid → k = d.key
  old : ∀ old, s.rows.get d.key = some old → old.merged d = d ∧ old.attempts ≤ d.attempts
    ∧ (m.runsOnly → old.status ≠ .delivered)
  landed : d.status ≠ .inFlight
  unanswered : m.cautious → ∀ n ∈ openAttempts s.log d.key,
    d.attempts = n ∧ d.status.leavesOpen = true
  shows : m.shown → d.status = .delivered ∨ d.status = .outcomeUnknown →
    s.shownAt d.key = some d.content

theorem DeliveryStoreKind.saved_eq {old : Option ReplyDelivery}
    (h : ∀ o, old = some o → o.merged d = d) : store.saved old d = d := by
  cases store with
  | memory => rfl
  | database =>
    cases old with
    | none => rfl
    | some o => exact h o rfl

/-- **A save**, after which the call knows what it saved and holds nothing. -/
theorem keeps_save {I : ReplyState → Prop} (hI : LastsFor m pid I) (hs : I s)
    (hmay : ∀ s₁ c, I s₁ → ReplyInv m s₁ → replyAllow m pid c (.saveDelivery d) s₁ →
      MaySave m pid d s₁) :
    KeepsReplies store m pid (ReplyOp.ask (.saveDelivery d)) (Gives (fun _ => Knows pid d)) s := by
  refine keeps_ask hI hs (fun s₁ c r s₂ hs₁ hinv hallow hh => ?_)
  have hsave := hmay s₁ c hs₁ hinv hallow
  obtain ⟨-, hfree⟩ : Fresh pid d.key s₁ := hallow.1
  have hsaved : store.saved (s₁.rows.get d.key) d = d :=
    DeliveryStoreKind.saved_eq (fun o ho => (hsave.old o ho).1)
  simp only [replyHandler, hsaved] at hh
  obtain ⟨rfl, rfl⟩ := Prod.mk.inj (Option.some.inj hh)
  -- what was held is released
  have hreleased : ∀ s₂ : ReplyState, s₂ = (if ((s₁.setRow d.key d c.now).knowing pid d.key
      (some d)).holder d.key = some pid then ((s₁.setRow d.key d c.now).knowing pid d.key
        (some d)).released d.key else (s₁.setRow d.key d c.now).knowing pid d.key (some d)) →
      RowWritten pid d.key d s₁ s₂ ∧ s₂.holder d.key = none
        ∧ s₂.hand pid = some (d.key, some d) := by
    rintro s₂ rfl
    split
    · refine ⟨⟨fun k => Dictionary.get_set _ _ _ _, fun q hq => Function.update_of_ne hq _ _,
        fun k hk => Function.update_of_ne hk _ _, rfl, rfl, rfl, rfl, rfl⟩,
        Function.update_self _ _ _, Function.update_self _ _ _⟩
    · rename_i hnot
      refine ⟨⟨fun k => Dictionary.get_set _ _ _ _, fun q hq => Function.update_of_ne hq _ _,
        fun k hk => rfl, rfl, rfl, rfl, rfl, rfl⟩, ?_, Function.update_self _ _ _⟩
      refine Option.eq_none_iff_forall_ne_some.mpr (fun q hq => hnot ?_)
      exact hfree q hq ▸ hq
  obtain ⟨hwritten, hnone, hhand⟩ := hreleased _ rfl
  refine ⟨hinv.write hwritten rfl hsave.wire hsave.only hfree (fun q hq => ?_) (fun o ho => ?_)
    hsave.unanswered hsave.shows, ⟨?_, fun k hk => ?_⟩, hhand⟩
  · rw [hnone] at hq
    cases hq
  · obtain ⟨-, hle, hr⟩ := hsave.old o ho
    exact ⟨hle, fun _ hst => absurd hst hsave.landed, hr⟩
  · exact (congrFun hwritten.wire pid).trans hsave.wire
  · by_cases hkey : k = d.key
    · rw [hkey, hnone] at hk
      cases hk
    · rw [hwritten.holder k hkey] at hk
      exact hkey (hsave.only k hk)

end Rules

/-! ## An attempt is closed -/

section Close

variable {store : DeliveryStoreKind} {m : ReplyRules} {pid : ℕ} {s s' : ReplyState}
  {d : ReplyDelivery}

/-- **A delivery that is held may move on** to a state: with no open attempt left,
if the state does not leave one open, and with its content shown, if the state
says so. -/
structure ClosesAttempt (m : ReplyRules) (pid : ℕ) (d : ReplyDelivery) (status : DeliveryState)
    (s : ReplyState) : Prop where
  holding : HoldsDelivery pid d s
  unanswered : m.cautious → status.leavesOpen = false → openAttempts s.log d.key = []
  shows : m.shown → status = .delivered ∨ status = .outcomeUnknown →
    s.shownAt d.key = some d.content

variable {status : DeliveryState}

theorem ClosesAttempt.kept (h : ClosesAttempt m pid d status s) (hk : ReplyKept m pid s s') :
    ClosesAttempt m pid d status s' :=
  ⟨h.holding.kept hk, fun hm hst => openAttempts_kept hk h.holding.holder (h.unanswered hm hst),
    fun hm hst => (shownAt_kept hk hm h.holding.holder h.holding.wire).trans (h.shows hm hst)⟩

theorem lasts_closesAttempt (d : ReplyDelivery) (status : DeliveryState) :
    LastsFor m pid (ClosesAttempt m pid d status) := fun _ _ h _ hk => h.kept hk

/-- **`_record_attempt`**, of the attempt at hand. -/
theorem keeps_recordAttempt {outcome : String} {errorCode : Option String}
    (hs : ClosesAttempt m pid d status s) (hnew : Unrecorded d s) :
    KeepsReplies store m pid (ReplyProg.recordAttempt d d.attempts outcome errorCode)
      (Gives (fun _ => ClosesAttempt m pid d status)) s := by
  refine keeps_bind (P := fun _ s => ClosesAttempt m pid d status s ∧ Unrecorded d s) ?_ ?_
  · exact keeps_look (I := fun s => ClosesAttempt m pid d status s ∧ Unrecorded d s)
      (fun _ _ h _ hk => ⟨h.1.kept hk, h.2.kept h.1.holding.holder hk⟩) ⟨hs, hnew⟩
      (fun _ _ _ _ hh => look_eq hh)
  · rintro id s₁ ⟨hs₁, hnew₁⟩
    refine keeps_ask (I := fun s => ClosesAttempt m pid d status s ∧ Unrecorded d s)
      (fun _ _ h _ hk => ⟨h.1.kept hk, h.2.kept h.1.holding.holder hk⟩) ⟨hs₁, hnew₁⟩ ?_
    rintro s₂ c r s₃ ⟨hs₂, hnew₂⟩ hinv - hh
    simp only [replyHandler] at hh
    split at hh
    · obtain ⟨rfl, rfl⟩ := Prod.mk.inj (Option.some.inj hh)
      exact ⟨.same hinv, hs₂⟩
    · split at hh
      · obtain ⟨rfl, rfl⟩ := Prod.mk.inj (Option.some.inj hh)
        exact ⟨.same hinv, trivial⟩
      · obtain ⟨rfl, rfl⟩ := Prod.mk.inj (Option.some.inj hh)
        refine ⟨hinv.attempt hs₂.holding.holder (hs₂.holding.row hinv) rfl hnew₂, ?_⟩
        exact ⟨⟨hs₂.holding.wire, hs₂.holding.holder, hs₂.holding.only, hs₂.holding.hand⟩,
          hs₂.unanswered, hs₂.shows⟩

/-- **The delivery moves on**, and is held no longer. -/
theorem keeps_moveOn {attempts : Option ℕ} (hattempts : attempts.getD d.attempts = d.attempts)
    (hstatus : status ≠ .inFlight) (hs : ClosesAttempt m pid d status s) :
    KeepsReplies store m pid (ReplyProg.transition d status attempts)
      (Gives (fun d' s => d' = d.copy status d.attempts ∧ Knows pid d' s)) s := by
  unfold ReplyProg.transition
  rw [hattempts]
  refine keeps_bind (keeps_save (lasts_closesAttempt d status) hs ?_)
    (fun _ s₁ hs₁ => ⟨rfl, hs₁⟩)
  intro s₁ c hs₁ hinv _
  have hrow := hs₁.holding.row hinv
  have hflight := (hinv.row_of_holder hs₁.holding.holder hs₁.holding.hand).2
  refine ⟨hs₁.holding.wire, hs₁.holding.only, fun old hold => ?_, hstatus, fun hm n hn => ?_,
    hs₁.shows⟩
  · obtain rfl := Option.some.inj (hrow.symm.trans hold)
    refine ⟨rfl, Nat.le_refl _, fun _ hst => ?_⟩
    rw [hflight] at hst
    cases hst
  · refine ⟨(hinv.open_eq hm hrow hn).1, ?_⟩
    by_contra hclosed
    have hnil := hs₁.unanswered hm (Bool.eq_false_iff.mpr hclosed)
    have hn' : n ∈ openAttempts s₁.log d.key := hn
    rw [hnil] at hn'
    cases hn'

/-- **An attempt is recorded, and the delivery moves on.** -/
theorem keeps_close {outcome : String} {errorCode : Option String} {attempts : Option ℕ}
    (hattempts : attempts.getD d.attempts = d.attempts) (hstatus : status ≠ .inFlight)
    (hs : ClosesAttempt m pid d status s) (hnew : Unrecorded d s) :
    KeepsReplies store m pid (ReplyProg.close d d.attempts outcome errorCode status attempts)
      (Gives (fun d' s => d' = d.copy status d.attempts ∧ Knows pid d' s)) s :=
  keeps_bind (keeps_recordAttempt hs hnew) (fun _ _ hs₁ => keeps_moveOn hattempts hstatus hs₁)

/-! ## An attempt is claimed -/

/-- **Before a request goes out**: the delivery is held, the attempt is new and no
other is open. `memory` is what the clients remember of its card. -/
structure SendReady (m : ReplyRules) (pid : ℕ) (d : ReplyDelivery) (memory : ℕ → Option String)
    (s : ReplyState) : Prop where
  holding : HoldsDelivery pid d s
  unrecorded : Unrecorded d s
  remembered : m.shown → ∀ client, s.messageIds client d.key = memory client
  answered : m.cautious → openAttempts s.log d.key = []

theorem SendReady.kept {memory : ℕ → Option String} (h : SendReady m pid d memory s)
    (hk : ReplyKept m pid s s') : SendReady m pid d memory s' :=
  ⟨h.holding.kept hk, h.unrecorded.kept h.holding.holder hk,
    fun hm client => (hk.memory hm _ h.holding.holder client).trans (h.remembered hm client),
    fun hm => openAttempts_kept hk h.holding.holder (h.answered hm)⟩

theorem lasts_sendReady {memory : ℕ → Option String} : LastsFor m pid (SendReady m pid d memory) :=
  fun _ _ h _ hk => h.kept hk

/-- The row of a claim is written, by a call that knows what it claims. -/
theorem ReplyInv.claim (hinv : ReplyInv m s) (s' : ReplyState) (hs : Knows pid d s)
    (hstatus : d.status.leavesOpen = true → d.status = .inFlight)
    (hrow : s.rows.get d.key = some d) (hfree : ∀ q, s.holder d.key = some q → q = pid)
    (hopen : m.cautious → openAttempts s.log d.key = [])
    (hw : RowWritten pid d.key (d.copy .inFlight (d.attempts + 1)) s s')
    (hholder : ∀ q, s'.holder d.key = some q → q = pid
      ∧ s'.hand pid = some (d.key, some (d.copy .inFlight (d.attempts + 1)))) :
    ReplyOwes m pid s s' := by
  refine hinv.write hw rfl hs.calm.wire (fun k hk => absurd hk (hs.calm.free k)) hfree
    (fun q hq => ⟨(hholder q hq).1, (hholder q hq).2, rfl⟩) (fun old hold => ?_)
    (fun hm n hn => ?_) (fun _ hst => ?_)
  · obtain rfl := Option.some.inj (hrow.symm.trans hold)
    refine ⟨Nat.le_succ _, fun heq => absurd heq (Nat.succ_ne_self _), fun _ hst => ?_⟩
    have hflight := hstatus (by rw [hst]; rfl)
    rw [hst] at hflight
    cases hflight
  · rw [hopen hm] at hn
    cases hn
  · rcases hst with hst | hst <;> cases hst

/-- **A claim**, of a delivery that is not over. -/
theorem keeps_claim (hs : Knows pid d s)
    (hstatus : d.status.leavesOpen = true → d.status = .inFlight) :
    KeepsReplies store m pid (ReplyOp.ask (.claimAttempt d.key d.status (d.attempts + 1)))
      (Gives (fun r s => ∀ claimed, r = some claimed →
        claimed = d.copy .inFlight (d.attempts + 1) ∧ ∃ memory, SendReady m pid claimed memory s))
          s := by
  refine keeps_ask lasts_knows hs ?_
  intro s₁ c r s₂ hs₁ hinv hallow hh
  simp only [replyHandler] at hh
  split at hh
  · obtain ⟨rfl, rfl⟩ := Prod.mk.inj (Option.some.inj hh)
    exact ⟨.same hinv, fun _ h => (by cases h)⟩
  · rename_i e he
    split at hh
    · obtain ⟨rfl, rfl⟩ := Prod.mk.inj (Option.some.inj hh)
      exact ⟨.same hinv, fun _ h => (by cases h)⟩
    · rename_i hsame
      obtain ⟨hrow, hfree⟩ : Fresh pid d.key s₁ := hallow.1 e he (not_not.mp hsame)
      obtain rfl : d = e := by
        rw [hs₁.known, he] at hrow
        exact (Option.some.inj hrow).symm
      have hopen : m.cautious → openAttempts s₁.log d.key = [] := by
        intro hm
        refine List.eq_nil_iff_forall_not_mem.mpr (fun n hn => ?_)
        have hst := hstatus (hinv.open_eq hm he hn).2
        have hnil := hallow.2.1 hm d he rfl hst
        rw [hnil] at hn
        cases hn
      have hwrite := fun s₂ => hinv.claim s₂ hs₁ hstatus he hfree hopen
      split at hh
      · obtain ⟨rfl, rfl⟩ := Prod.mk.inj (Option.some.inj hh)
        refine ⟨hwrite _ ⟨fun k => Dictionary.get_set _ _ _ _,
          fun q hq => Function.update_of_ne hq _ _, fun k hk => Function.update_of_ne hk _ _,
          rfl, rfl, rfl, rfl, rfl⟩ (fun q hq => ⟨?_, Function.update_self _ _ _⟩),
          fun claimed hclaimed => ?_⟩
        · have hq' : Function.update s₁.holder d.key (some pid) d.key = some q := hq
          rw [Function.update_self] at hq'
          exact (Option.some.inj hq').symm
        · obtain rfl := Option.some.inj hclaimed
          refine ⟨rfl, fun client => s₁.messageIds client d.key, ⟨hs₁.calm.wire,
            Function.update_self _ _ _, fun k hk => ?_, Function.update_self _ _ _⟩,
            fun a ha hkey => ?_, fun _ _ => rfl, hopen⟩
          · by_contra hne
            have hne' : k ≠ d.key := hne
            have hk' : Function.update s₁.holder d.key (some pid) k = some pid := hk
            rw [Function.update_of_ne hne'] at hk'
            exact hs₁.calm.free k hk'
          · obtain ⟨e, hea, hle⟩ := hinv.numbered a ha
            rw [show a.key = d.key from hkey] at hea
            obtain rfl := Option.some.inj (he.symm.trans hea)
            exact Nat.lt_succ_of_le hle
      · -- the store cannot read what it has written
        obtain ⟨rfl, rfl⟩ := Prod.mk.inj (Option.some.inj hh)
        refine ⟨hwrite _ ⟨fun k => Dictionary.get_set _ _ _ _, fun q _ => rfl, fun k _ => rfl,
          rfl, rfl, rfl, rfl, rfl⟩ (fun q hq => ?_), trivial⟩
        have hq' : s₁.holder d.key = some q := hq
        exact absurd (hfree q hq' ▸ hq') (hs₁.calm.free d.key)

end Close

/-! ## A request goes out -/

section Send

variable {store : DeliveryStoreKind} {m : ReplyRules} {pid : ℕ} {s s' : ReplyState}
  {d : ReplyDelivery}
  {memory : ℕ → Option String} {r : ChannelRequest} {answer : HttpAnswer}

/-- **While a request is out**, the delivery stays with the call. -/
structure Awaiting (m : ReplyRules) (pid : ℕ) (d : ReplyDelivery) (memory : ℕ → Option String)
    (r : ChannelRequest) (s : ReplyState) : Prop where
  wire : (s.wire pid).map Outgoing.sent = some ⟨d.key, d.attempts, r, false⟩
  holder : s.holder d.key = some pid
  only : ∀ k, s.holder k = some pid → k = d.key
  hand : s.hand pid = some (d.key, some d)
  unrecorded : Unrecorded d s
  remembered : m.shown → ∀ client, s.messageIds client d.key = memory client

theorem Awaiting.kept (h : Awaiting m pid d memory r s) (hk : ReplyKept m pid s s') :
    Awaiting m pid d memory r s' :=
  ⟨hk.wire.trans h.wire, (hk.holder _).mpr h.holder, fun k hp => h.only k ((hk.holder k).mp hp),
    hk.hand.trans h.hand, h.unrecorded.kept h.holder hk,
    fun hm client => (hk.memory hm _ h.holder client).trans (h.remembered hm client)⟩

theorem lasts_awaiting : LastsFor m pid (Awaiting m pid d memory r) := fun _ _ h _ hk => h.kept hk

/-- **When a request has ended**: a response leaves no attempt open, and a success
or a patch without an answer shows the content. -/
structure SendEnded (m : ReplyRules) (pid : ℕ) (d : ReplyDelivery) (memory : ℕ → Option String)
    (r : ChannelRequest) (answer : HttpAnswer) (s : ReplyState) : Prop where
  holding : HoldsDelivery pid d s
  unrecorded : Unrecorded d s
  remembered : m.shown → ∀ client, s.messageIds client d.key = memory client
  recognised : m.cautious → r.recognises answer = true
  answered : m.cautious → answer.isResponse = true → openAttempts s.log d.key = []
  shows : m.shown → (r.outcome answer).1.delivered = true
      ∨ (r.isPatch = true ∧ (r.outcome answer).1.outcomeUnknown = true) →
    s.shownAt d.key = some d.content
  message : m.shown → (r.outcome answer).1.delivered = true → ∀ id, (r.outcome answer).2 = some id →
    (s.cards.get d.key).map ProviderCard.messageId = some id

theorem SendEnded.kept (h : SendEnded m pid d memory r answer s) (hk : ReplyKept m pid s s') :
    SendEnded m pid d memory r answer s' where
  holding := h.holding.kept hk
  unrecorded := h.unrecorded.kept h.holding.holder hk
  remembered := fun hm client =>
    (hk.memory hm _ h.holding.holder client).trans (h.remembered hm client)
  recognised := h.recognised
  answered := fun hm hr => openAttempts_kept hk h.holding.holder (h.answered hm hr)
  shows := fun hm hr =>
    (shownAt_kept hk hm h.holding.holder h.holding.wire).trans (h.shows hm hr)
  message := fun hm hr id hid => by
    rw [hk.card hm _ h.holding.holder h.holding.wire]
    exact h.message hm hr id hid

theorem lasts_sendEnded : LastsFor m pid (SendEnded m pid d memory r answer) :=
  fun _ _ h _ hk => h.kept hk

/-- **A request goes out.** A patch goes to a message that a client remembers. -/
theorem keeps_request {F : PyException → ReplyState → Prop} (hs : SendReady m pid d memory s)
    (hcontent : r.content = d.content)
    (hpatch : m.shown → ∀ id content, r = .patchCard id content → ∃ client, memory client
    = some id) :
    KeepsReplies store m pid (ReplyOp.ask (.request d.key d.attempts r))
      (Prog.outcome (fun _ => Awaiting m pid d memory r) F) s := by
  refine keeps_ask lasts_sendReady hs (fun s₁ c out s₂ hs₁ hinv _ hh => ?_)
  obtain ⟨rfl, rfl⟩ := Prod.mk.inj (Option.some.inj hh)
  have hhold := hs₁.holding
  refine ⟨hinv.request hhold.holder (hhold.row hinv) hcontent hs₁.answered
    (fun hm id content hr => ?_), ?_, hhold.holder, hhold.only, hhold.hand, hs₁.unrecorded,
    hs₁.remembered⟩
  · obtain ⟨client, hclient⟩ := hpatch hm id content hr
    exact (hinv.cards hm).remembered client d.key id ((hs₁.remembered hm client).trans hclient)
  · show (Function.update s₁.wire pid _ pid).map _ = _
    rw [Function.update_self]
    rfl

/-- After an entry of the log that closes the attempt at hand, none is open. -/
theorem ReplyInv.open_after (hinv : ReplyInv m s) (hm : m.cautious)
    (hrow : s.rows.get d.key = some d) {e : DeliveryEvent}
    (he : stillOpen d.key (openAttempts s.log d.key) e
      = (openAttempts s.log d.key).filter (fun n => n ≠ d.attempts)) :
    openAttempts (s.log ++ [e]) d.key = [] := by
  rw [openAttempts_append, he, List.filter_eq_nil_iff]
  intro n hn
  simp [(hinv.open_eq hm hrow hn).1]

/-- What the rules say of the end of a request. -/
theorem shows_of_answer {o : Outgoing} {c : ReplyChoice} (hinv : ReplyInv m s)
    (ho : s.wire pid = some o) (hcontent : o.request.content = d.content) (hkey : o.key = d.key)
    (hallow : replyAllow m pid c .answer s) (hm : m.shown)
    (hcard : ∀ url content, o.request ≠ .post url content)
    (h : (o.request.outcome c.answer).1.delivered = true
      ∨ (o.request.isPatch = true ∧ (o.request.outcome c.answer).1.outcomeUnknown = true)) :
    s.shownAt d.key = some d.content := by
  obtain ⟨htruth, hvisible⟩ := hallow.2.2 hm
  cases hr : o.request with
  | post url content => exact absurd hr (hcard url content)
  | createCard receiveIdType receiveId content =>
    have hpatch : o.request.isPatch = false := by rw [hr]; rfl
    rcases h with h | h
    · rw [← hkey, ← hcontent]
      exact (hvisible o ho).1 hpatch h
    · rw [hpatch] at h
      cases h.1
  | patchCard id content =>
    have happlied : o.applied = true := by
      rcases h with h | h
      · exact (htruth o ho h).1
      · exact (hvisible o ho).2 h.1 h.2
    rw [← hkey, ← hcontent, hr]
    exact ((hinv.cards hm).patches pid o id content ho hr).2 happlied

/-- **A request ends.** -/
theorem keeps_answer {F : PyException → ReplyState → Prop} (hs : Awaiting m pid d memory r s)
    (hcontent : r.content = d.content)
    (hcard : m.shown → ∀ url content, r ≠ .post url content) :
    KeepsReplies store m pid (ReplyOp.ask .answer)
      (Prog.outcome (fun answer => SendEnded m pid d memory r answer) F) s := by
  refine keeps_ask lasts_awaiting hs (fun s₁ c out s₂ hs₁ hinv hallow hh => ?_)
  obtain ⟨o, ho, hsent⟩ := Option.map_eq_some_iff.mp hs₁.wire
  obtain ⟨hkey, hno, rfl⟩ : o.key = d.key ∧ o.attemptNo = d.attempts ∧ o.request = r := by
    simp only [Outgoing.sent, Outgoing.mk.injEq] at hsent
    exact ⟨hsent.1, hsent.2.1, hsent.2.2.1⟩
  simp only [replyHandler, ho] at hh
  obtain ⟨rfl, rfl⟩ := Prod.mk.inj (Option.some.inj hh)
  have hrow := (hinv.row_of_holder hs₁.holder hs₁.hand).1
  have hun := hinv.unwire pid
  have hended : ∀ s₂ : ReplyState, s₂.wire = Function.update s₁.wire pid none →
      s₂.holder = s₁.holder → s₂.hand = s₁.hand → s₂.attempts = s₁.attempts →
      s₂.messageIds = s₁.messageIds → s₂.cards = s₁.cards →
      (m.cautious → c.answer.isResponse = true → openAttempts s₂.log d.key = []) →
      SendEnded m pid d memory o.request c.answer s₂ := by
    intro s₂ hwire hholder hhand hattempts hids hcards hlog
    refine ⟨⟨?_, ?_, ?_, ?_⟩, ?_, ?_, fun hm => hallow.2.1 hm o ho, hlog, fun hm h => ?_,
      fun hm h id hid => ?_⟩
    · rw [hwire, Function.update_self]
    · rw [hholder]
      exact hs₁.holder
    · rw [hholder]
      exact hs₁.only
    · rw [hhand]
      exact hs₁.hand
    · rw [Unrecorded, hattempts]
      exact hs₁.unrecorded
    · rw [hids]
      exact hs₁.remembered
    · show (s₂.cards.get d.key).map _ = _
      rw [hcards]
      exact shows_of_answer hinv ho hcontent hkey hallow hm (hcard hm) h
    · rw [hcards, ← hkey]
      exact ((hallow.2.2 hm).1 o ho h).2 id hid
  split
  · obtain ⟨hnote, hkept⟩ := hun.1.note (e := .answered o.key o.attemptNo) (fun _ _ h => nomatch h)
    refine ⟨⟨hnote, fun q hq => (hun.2 q hq).trans (hkept q)⟩, ?_⟩
    refine hended _ rfl rfl rfl rfl rfl rfl (fun hm _ => ?_)
    refine hinv.open_after hm hrow ?_
    rw [stillOpen, if_pos hkey, hno]
  · rename_i hresponse
    exact ⟨hun, hended _ rfl rfl rfl rfl rfl rfl (fun _ h => absurd h hresponse)⟩

/-! ## What a send came to -/

/-- **After a send.** Unless its outcome is unknown, no attempt is open; a success
shows the content, and so does a request without an answer for a card that the
client remembers. -/
structure Sent (m : ReplyRules) (pid : ℕ) (t : ReplyTransport) (d : ReplyDelivery)
    (outcome : ChannelTransportOutcome) (s : ReplyState) : Prop where
  holding : HoldsDelivery pid d s
  unrecorded : Unrecorded d s
  answered : m.cautious → outcome.outcomeUnknown = false → openAttempts s.log d.key = []
  shows : m.shown → outcome.delivered = true → s.shownAt d.key = some d.content
  patched : m.shown → outcome.outcomeUnknown = true → ∀ client, t = .feishu client →
    (s.messageIds client d.key).isSome = true → s.shownAt d.key = some d.content

variable {t : ReplyTransport} {outcome : ChannelTransportOutcome}

theorem Sent.kept (h : Sent m pid t d outcome s) (hk : ReplyKept m pid s s') :
    Sent m pid t d outcome s' where
  holding := h.holding.kept hk
  unrecorded := h.unrecorded.kept h.holding.holder hk
  answered := fun hm ho => openAttempts_kept hk h.holding.holder (h.answered hm ho)
  shows := fun hm ho => (shownAt_kept hk hm h.holding.holder h.holding.wire).trans (h.shows hm ho)
  patched := fun hm ho client ht hid => by
    rw [hk.memory hm _ h.holding.holder client] at hid
    exact (shownAt_kept hk hm h.holding.holder h.holding.wire).trans (h.patched hm ho client ht hid)

/-- Nothing was sent, or it failed with an answer. -/
theorem SendReady.sent (h : SendReady m pid d memory s) (hdelivered : outcome.delivered = false)
    (hunknown : outcome.outcomeUnknown = false) : Sent m pid t d outcome s := by
  refine ⟨h.holding, h.unrecorded, fun hm _ => h.answered hm, fun _ ho => ?_, fun _ ho => ?_⟩
  · rw [hdelivered] at ho
    cases ho
  · rw [hunknown] at ho
    cases ho

/-- **`WeComReplyTransport.send`.** -/
theorem keeps_wecomSend {F : PyException → ReplyState → Prop} (hm : ¬ m.shown)
    (hs : SendReady m pid d memory s) :
    KeepsReplies store m pid (wecomSend d d.attempts)
      (Prog.outcome (fun outcome => Sent m pid .wecom d outcome) F) s := by
  refine Prog.Safe.bind (keeps_look lasts_sendReady hs (fun _ _ _ _ hh => look_eq hh)) ?_
    (fun _ _ h => h)
  intro acquired s₁ hs₁
  cases acquired with
  | false => exact hs₁.sent rfl rfl
  | true =>
    refine Prog.Safe.bind (keeps_request hs₁ rfl (fun h => absurd h hm)) (fun _ s₂ hs₂ => ?_)
      (fun _ _ h => h)
    refine Prog.Safe.bind (keeps_answer hs₂ rfl (fun h => absurd h hm)) (fun answer s₃ hs₃ => ?_)
      (fun _ _ h => h)
    refine ⟨hs₃.holding, hs₃.unrecorded, fun hc ho => ?_, fun h => absurd h hm,
      fun h => absurd h hm⟩
    refine hs₃.answered hc ?_
    have hrecognised := hs₃.recognised hc
    cases answer with
    | response statusCode json => rfl
    | timeoutError => cases ho
    | timeoutException => cases hrecognised
    | otherException => cases hrecognised

/-- The outcome of a response is known, and a message to remember is shown. -/
theorem cardResponse_spec (patched : Bool) (statusCode : ℕ) (json : Option Json) :
    (cardResponse patched statusCode json).1.outcomeUnknown = false
      ∧ ((cardResponse patched statusCode json).2.isSome = true →
        (cardResponse patched statusCode json).1.delivered = true) := by
  unfold cardResponse
  repeat' split
  all_goals simp [ChannelTransportOutcome.limited, ChannelTransportOutcome.failed,
    ChannelTransportOutcome.landed]

theorem cardRequest_spec {messageId : Option String} (h : cardRequest d messageId = some r) :
    r.content = d.content ∧ r.isPatch = messageId.isSome ∧ (∀ url content, r ≠ .post url content)
      ∧ ∀ id content, r = .patchCard id content → messageId = some id := by
  cases messageId with
  | some id =>
    obtain rfl := Option.some.inj h
    refine ⟨rfl, rfl, fun _ _ hr => (nomatch hr), fun id' content hr => ?_⟩
    cases hr
    rfl
  | none =>
    obtain ⟨receive, -, rfl⟩ := Option.map_eq_some_iff.mp h
    exact ⟨rfl, rfl, fun _ _ hr => (nomatch hr), fun _ _ hr => (nomatch hr)⟩

/-- What the client answers for a request that has ended. -/
theorem SendEnded.sent {client : ℕ} {messageId : Option String}
    (h : SendEnded m pid d memory r answer s)
    (hpatch : r.isPatch = messageId.isSome) (hread : m.shown → messageId = memory client) :
    Sent m pid (.feishu client) d (r.outcome answer).1 s := by
  refine ⟨h.holding, h.unrecorded, fun hm ho => h.answered hm ?_, fun hm ho => h.shows hm (.inl ho),
    fun hm ho client' ht hid => h.shows hm (.inr ⟨?_, ho⟩)⟩
  · have hrecognised := h.recognised hm
    cases answer with
    | response statusCode json => rfl
    | timeoutError => cases ho
    | timeoutException => cases ho
    | otherException => cases hrecognised
  · cases ht
    rw [hpatch, hread hm, ← h.remembered hm client]
    exact hid

/-- **`upsert_card`.** -/
theorem keeps_upsertCard {F : PyException → ReplyState → Prop} {client : ℕ}
    (hs : SendReady m pid d memory s) :
    KeepsReplies store m pid (upsertCard client d d.attempts)
      (Prog.outcome (fun outcome => Sent m pid (.feishu client) d
        (outcome.getD (.unknown "FEISHU_CARD_TIMEOUT"))) F) s := by
  have hread : KeepsReplies store m pid (ReplyOp.ask (.messageId client d.key))
      (Prog.outcome (fun messageId s => SendReady m pid d memory s
        ∧ (m.shown → messageId = memory client)) F) s := by
    refine keeps_ask lasts_sendReady hs (fun s₁ c out s₂ hs₁ hinv _ hh => ?_)
    obtain ⟨rfl, rfl⟩ := Prod.mk.inj (Option.some.inj hh)
    exact ⟨.same hinv, hs₁, fun hm => hs₁.remembered hm client⟩
  refine Prog.Safe.bind hread ?_ (fun _ _ h => h)
  rintro messageId s₁ ⟨hs₁, hmemory⟩
  split
  · exact hs₁.sent rfl rfl
  · rename_i r hr
    obtain ⟨hcontent, hpatch, hcard, hid⟩ := cardRequest_spec hr
    refine Prog.Safe.bind (keeps_request hs₁ hcontent (fun hm id content hr' => ⟨client, ?_⟩))
      (fun _ s₂ hs₂ => ?_) (fun _ _ h => h)
    · rw [← hmemory hm]
      exact hid id content hr'
    refine Prog.Safe.bind (keeps_answer hs₂ hcontent (fun _ => hcard)) (fun answer s₃ hs₃ => ?_)
      (fun _ _ h => h)
    have hsent := hs₃.sent hpatch hmemory
    cases answer with
    | timeoutError => exact hsent
    | timeoutException => exact hsent
    | otherException => exact hsent
    | response statusCode json =>
      obtain ⟨hknown, hsome⟩ := cardResponse_spec messageId.isSome statusCode json
      have hout : r.outcome (.response statusCode json)
          = cardResponse messageId.isSome statusCode json := by
        rw [← hpatch]
        rfl
      cases hresponse : cardResponse messageId.isSome statusCode json with
      | mk outcome returned =>
        rw [hresponse] at hknown hsome
        rw [hout, hresponse] at hsent
        have hend : Prog.outcome (fun outcome => Sent m pid (.feishu client) d
            (outcome.getD (.unknown "FEISHU_CARD_TIMEOUT"))) F (.ok (some outcome)) s₃ := hsent
        cases returned with
        | none =>
          dsimp only
          rw [hresponse]
          exact hend
        | some returnedId =>
          dsimp only
          rw [hresponse]
          refine Prog.Safe.bind (Q := Prog.outcome
            (fun _ => Sent m pid (.feishu client) d outcome) F)
            ?_ (fun _ _ h => h) (fun _ _ h => h)
          refine keeps_ask lasts_sendEnded hs₃ (fun s₄ c out s₅ hs₄ hinv _ hh => ?_)
          obtain ⟨rfl, rfl⟩ := Prod.mk.inj (Option.some.inj hh)
          have hs₄' := hs₄.sent hpatch hmemory
          rw [hout, hresponse] at hs₄'
          refine ⟨hinv.remember hs₄.holding.holder (fun hm => hs₄.message hm ?_ returnedId ?_), ?_⟩
          · rw [hout, hresponse]
            exact hsome rfl
          · rw [hout, hresponse]
          · have hhold := hs₄.holding
            refine ⟨⟨hhold.wire, hhold.holder, hhold.only, hhold.hand⟩, hs₄'.unrecorded,
              hs₄'.answered, hs₄'.shows, fun _ ho => ?_⟩
            rw [hknown] at ho
            cases ho

/-- **`FeishuCardTransport.send`.** -/
theorem keeps_feishuSend {F : PyException → ReplyState → Prop} {client : ℕ}
    (hs : SendReady m pid d memory s) :
    KeepsReplies store m pid (feishuSend client d d.attempts)
      (Prog.outcome (fun outcome => Sent m pid (.feishu client) d outcome) F) s := by
  refine Prog.Safe.bind (keeps_look lasts_sendReady hs (fun _ _ _ _ hh => look_eq hh)) ?_
    (fun _ _ h => h)
  intro now s₁ hs₁
  refine Prog.Safe.bind (keeps_look lasts_sendReady hs₁ (fun _ _ _ _ hh => look_eq hh)) ?_
    (fun _ _ h => h)
  intro lastUpdate s₂ hs₂
  show KeepsReplies store m pid (if _ then _ else _) _ _
  split
  · exact hs₂.sent rfl rfl
  · refine Prog.Safe.bind (keeps_upsertCard hs₂) (fun out s₃ hs₃ => ?_) (fun _ _ h => h)
    cases out with
    | none => exact hs₃
    | some outcome =>
      refine Prog.Safe.bind (Q := Prog.outcome (fun _ => Sent m pid (.feishu client) d outcome) F)
        ?_ (fun _ _ h => h) (fun _ _ h => h)
      refine keeps_ask (fun _ _ h _ hk => Sent.kept h hk) hs₃ (fun s₄ c out s₅ hs₄ hinv _ hh => ?_)
      obtain ⟨rfl, rfl⟩ := Prod.mk.inj (Option.some.inj hh)
      have hhold := hs₄.holding
      exact ⟨hinv.pace _, ⟨hhold.wire, hhold.holder, hhold.only, hhold.hand⟩, hs₄.unrecorded,
        hs₄.answered, hs₄.shows, hs₄.patched⟩

/-- **`send`.** -/
theorem keeps_send {F : PyException → ReplyState → Prop}
    (ht : m.shown → ∃ client, t = .feishu client) (hs : SendReady m pid d memory s) :
    KeepsReplies store m pid (t.send d d.attempts)
      (Prog.outcome (fun outcome => Sent m pid t d outcome) F) s := by
  cases t with
  | wecom =>
    refine keeps_wecomSend (fun hm => ?_) hs
    obtain ⟨client, hclient⟩ := ht hm
    cases hclient
  | feishu client => exact keeps_feishuSend hs

end Send

/-! ## Reconciliation -/

section Reconcile

variable {store : DeliveryStoreKind} {m : ReplyRules} {pid : ℕ} {s s' : ReplyState}
  {d : ReplyDelivery}
  {t : ReplyTransport}

/-- **`reconcile`**, which comes to a verdict and notes it. -/
theorem keeps_reconcile {F : PyException → ReplyState → Prop} {attemptNo : ℕ}
    {I : ReplyState → Prop} {J P : ReconcileVerdict → ReplyState → Prop} (hI : LastsFor m pid I)
    (hJ : ∀ v, LastsFor m pid (J v)) (hs : I s)
    (hwecom : t = .wecom → ∀ s₁, I s₁ → J .delivered s₁)
    (hfeishu : ∀ client, t = .feishu client → ∀ s₁, I s₁ →
      J (if (s₁.messageIds client d.key).isSome then .delivered else .notDelivered) s₁)
    (hnote : ∀ v s₁, v ≠ .unknown → J v s₁ → ReplyInv m s₁ →
      P v (s₁.note (.reconciled d.key attemptNo v))) :
    KeepsReplies store m pid (t.reconcile d attemptNo) (Prog.outcome P F) s := by
  have hverdict : ∀ v s₁, v ≠ .unknown → J v s₁ → KeepsReplies store m pid
      ((ReplyOp.ask (.reconciled d.key attemptNo v)).bind (fun _ => .ret v))
        (Prog.outcome P F) s₁ := by
    intro v s₁ hv hs₁
    refine Prog.Safe.bind (Q := Prog.outcome (fun _ => P v) F) ?_ (fun _ _ h => h) (fun _ _ h => h)
    refine keeps_ask (hJ v) hs₁ (fun s₂ c out s₃ hs₂ hinv _ hh => ?_)
    obtain ⟨rfl, rfl⟩ := Prod.mk.inj (Option.some.inj hh)
    obtain ⟨hinv', hkept⟩ := hinv.note (e := .reconciled d.key attemptNo v)
      (fun _ _ h => (nomatch h))
    exact ⟨⟨hinv', fun q _ => hkept q⟩, hnote v s₂ hv hs₂ hinv⟩
  cases t with
  | wecom => exact hverdict .delivered s (by simp) (hwecom rfl s hs)
  | feishu client =>
    refine Prog.Safe.bind (Q := Prog.outcome (fun id s =>
      J (if Option.isSome id then .delivered else .notDelivered) s) F) ?_
      (fun id s₁ h => hverdict _ s₁ ?_ h) (fun _ _ h => h)
    · refine keeps_ask hI hs (fun s₁ c out s₂ hs₁ hinv _ hh => ?_)
      obtain ⟨rfl, rfl⟩ := Prod.mk.inj (Option.some.inj hh)
      exact ⟨.same hinv, hfeishu client rfl s₁ hs₁⟩
    · split <;> simp

/-- The state a verdict leads to. -/
def ReconcileVerdict.leadsTo : ReconcileVerdict → DeliveryState
  | .delivered => .delivered
  | .notDelivered => .failed
  | .unknown => .outcomeUnknown

/-- **Reconciling a send** whose outcome is unknown. -/
theorem keeps_reconcileSent {F : PyException → ReplyState → Prop}
    {outcome : ChannelTransportOutcome} (ht : m.shown → ∃ client, t = .feishu client)
    (hunknown : outcome.outcomeUnknown = true) (hs : Sent m pid t d outcome s) :
    KeepsReplies store m pid (t.reconcile d d.attempts)
      (Prog.outcome (fun v s => ClosesAttempt m pid d v.leadsTo s ∧ Unrecorded d s ∧ v ≠ .unknown)
       F) s := by
  refine keeps_reconcile (I := Sent m pid t d outcome)
    (J := fun v s => HoldsDelivery pid d s ∧ Unrecorded d s
      ∧ (m.shown → v = .delivered → s.shownAt d.key = some d.content))
    (fun _ _ h _ hk => h.kept hk) (fun v a a' h _ hk => ?_) hs ?_ ?_ ?_
  · exact ⟨h.1.kept hk, h.2.1.kept h.1.holder hk, fun hm hv =>
      (shownAt_kept hk hm h.1.holder h.1.wire).trans (h.2.2 hm hv)⟩
  · rintro rfl s₁ hs₁
    refine ⟨hs₁.holding, hs₁.unrecorded, fun hm => ?_⟩
    obtain ⟨client, hclient⟩ := ht hm
    cases hclient
  · rintro client rfl s₁ hs₁
    refine ⟨hs₁.holding, hs₁.unrecorded, fun hm hv => hs₁.patched hm hunknown client rfl ?_⟩
    by_contra hnone
    rw [if_neg hnone] at hv
    cases hv
  · rintro v s₁ hv ⟨hhold, hnew, hshows⟩ hinv
    refine ⟨⟨⟨hhold.wire, hhold.holder, hhold.only, hhold.hand⟩, fun hm hst => ?_,
      fun hm hst => ?_⟩,
      hnew, hv⟩
    · -- only a verdict `not_delivered` leaves nothing open
      have hnot : v = .notDelivered := by
        cases v with
        | notDelivered => rfl
        | delivered => cases hst
        | unknown => cases hst
      refine hinv.open_after hm (hhold.row hinv) ?_
      rw [hnot, stillOpen, if_pos ⟨rfl, rfl⟩]
    · refine hshows hm ?_
      cases v with
      | delivered => rfl
      | notDelivered => rcases hst with hst | hst <;> cases hst
      | unknown => exact absurd rfl hv

/-! ## The loop of `run` -/

/-- A delivery that a call of `run` goes on with: it knows it, and it is not over. -/
def GoesOn (pid : ℕ) (d : ReplyDelivery) (s : ReplyState) : Prop :=
  Knows pid d s ∧ (d.status.leavesOpen = true → d.status = .inFlight)

/-- What a send came to: the delivery is known, and goes on or not. -/
def After (pid : ℕ) (key : DeliveryKey) : ReplyDelivery ⊕ ReplyDelivery → ReplyState → Prop
  | .inl _, _ => True
  | .inr d, s => d.key = key ∧ GoesOn pid d s

/-- **What follows a send.** -/
theorem keeps_afterSend {outcome : ChannelTransportOutcome}
    (ht : m.shown → ∃ client, t = .feishu client) (hs : Sent m pid t d outcome s) :
    KeepsReplies store m pid (ReplyProg.afterSend t d d.attempts (.ok outcome))
      (Gives (After pid d.key)) s := by
  show KeepsReplies store m pid (if _ then _ else _) _ _
  split
  · rename_i hdelivered
    refine keeps_bind (keeps_close rfl (by simp) ⟨hs.holding, fun _ h => (nomatch h),
      fun hm _ => hs.shows hm hdelivered⟩ hs.unrecorded) (fun _ _ _ => trivial)
  · split
    · rename_i hunknown
      refine keeps_bind (keeps_reconcileSent ht hunknown hs) ?_
      rintro v s₁ ⟨hclosing, hnew, hv⟩
      cases v with
      | delivered =>
        exact keeps_bind (keeps_close rfl (by simp) hclosing hnew) (fun _ _ _ => trivial)
      | unknown => exact absurd rfl hv
      | notDelivered =>
        refine keeps_bind (keeps_close rfl (by simp) hclosing hnew) ?_
        rintro _ s₂ ⟨rfl, hknows⟩
        exact ⟨rfl, hknows, fun h => (nomatch h)⟩
    · rename_i hunknown
      have hclosed := fun hm => hs.answered hm (Bool.eq_false_iff.mpr hunknown)
      split
      · refine keeps_bind (keeps_close rfl (by simp) ⟨hs.holding, fun hm _ => hclosed hm,
          fun _ h => ?_⟩ hs.unrecorded) ?_
        · rcases h with h | h <;> cases h
        · rintro _ s₂ ⟨rfl, hknows⟩
          exact ⟨rfl, hknows, fun h => (nomatch h)⟩
      · refine keeps_bind (keeps_close rfl (by simp) ⟨hs.holding, fun hm _ => hclosed hm,
          fun _ h => ?_⟩ hs.unrecorded) ?_
        · rcases h with h | h <;> cases h
        · rintro _ s₂ ⟨rfl, hknows⟩
          exact ⟨rfl, hknows, fun h => (nomatch h)⟩

/-- **A delivery that is not held moves on**: what the call knows of it is still
true when it is saved. -/
theorem keeps_transition {status : DeliveryState} {I : ReplyState → Prop} (hI : LastsFor m pid I)
    (hs : I s) (hknows : ∀ s₁, I s₁ → Knows pid d s₁) (hstatus : status ≠ .inFlight)
    (hdelivered : m.runsOnly → d.status ≠ .delivered)
    (hopen : m.cautious → status.leavesOpen = false → ∀ s₁ c, I s₁ → ReplyInv m s₁ →
      replyAllow m pid c (.saveDelivery (d.copy status d.attempts)) s₁ →
      s₁.rows.get d.key = some d → openAttempts s₁.log d.key = [])
    (hshow : m.shown → status = .delivered ∨ status = .outcomeUnknown → d.status
    = .outcomeUnknown) :
    KeepsReplies store m pid (ReplyProg.transition d status none)
      (Gives (fun d' s => d' = d.copy status d.attempts ∧ Knows pid d' s)) s := by
  refine keeps_bind (keeps_save hI hs ?_) (fun _ s₁ hs₁ => ⟨rfl, hs₁⟩)
  intro s₁ c hs₁ hinv hallow
  have hk := hknows s₁ hs₁
  have hrow : s₁.rows.get d.key = some d := by
    have hfresh : Fresh pid d.key s₁ := hallow.1
    rw [hfresh.1, hk.known]
  refine ⟨hk.calm.wire, fun k hp => absurd hp (hk.calm.free k), fun old hold => ?_, hstatus,
    fun hm n hn => ⟨(hinv.open_eq hm hrow hn).1, ?_⟩, fun hm hst => ?_⟩
  · obtain rfl := Option.some.inj (hrow.symm.trans hold)
    exact ⟨rfl, Nat.le_refl _, hdelivered⟩
  · by_contra hclosed
    have hnil := hopen hm (Bool.eq_false_iff.mpr hclosed) s₁ c hs₁ hinv hallow hrow
    have hn' : n ∈ openAttempts s₁.log d.key := hn
    rw [hnil] at hn'
    cases hn'
  · exact (hinv.cards hm).shows d.key d hrow (.inr (hshow hm hst))

/-- The pause before another attempt. -/
theorem keeps_sleep {p : ReplyProg ReplyDelivery} {P : ReplyDelivery → ReplyState → Prop}
    (hs : Knows pid d s) (hp : ∀ s₁, Knows pid d s₁ → KeepsReplies store m pid p (Gives P) s₁) :
    KeepsReplies store m pid (if 0 < d.attempts then
      (ReplyOp.ask (.sleep d.attempts)).bind (fun _ => p) else p) (Gives P) s := by
  split
  · exact keeps_bind (keeps_look lasts_knows hs (fun _ _ _ _ hh => look_eq hh))
      (fun _ s₁ hs₁ => hp s₁ hs₁)
  · exact hp s hs

/-- **The loop of `run`**, by induction on the turns. -/
theorem keeps_runLoop (ht : m.shown → ∃ client, t = .feishu client) {budget : ℕ} {key : DeliveryKey}
    (turns : ℕ) (hkey : d.key = key) (hs : GoesOn pid d s) :
    KeepsReplies store m pid (ReplyProg.runLoop t budget key turns d)
      (Gives (fun _ _ => True)) s := by
  induction turns generalizing d s with
  | zero => trivial
  | succ turns ih =>
    subst hkey
    obtain ⟨hknows, hstatus⟩ := hs
    show KeepsReplies store m pid (if _ then _ else _) _ _
    split
    · refine (keeps_transition lasts_knows hknows (fun _ h => h) (by simp) (fun _ hst => ?_)
        (fun _ h => absurd h (by decide)) (fun _ h => ?_)).mono (fun r s' h => ?_)
      · have hflight := hstatus (by rw [hst]; rfl)
        rw [hst] at hflight
        cases hflight
      · rcases h with h | h <;> cases h
      · cases r <;> trivial
    · dsimp only
      refine keeps_sleep hknows (fun s₁ hs₁ => ?_)
      refine keeps_bind (keeps_claim hs₁ hstatus) (fun r s₂ hs₂ => ?_)
      cases r with
      | none => trivial
      | some claimed =>
        obtain ⟨rfl, memory, hready⟩ := hs₂ claimed rfl
        refine Prog.Safe.bind (Q := Prog.outcome (fun result s => ∃ outcome, result = .ok outcome
          ∧ Sent m pid t (d.copy .inFlight (d.attempts + 1)) outcome s) (fun _ _ => False)) ?_ ?_
          (fun _ _ h => h.elim)
        · refine (Prog.safe_capture _ _ _ _).mpr
            ((keeps_send (F := fun _ _ => False) ht hready).mono
            (fun r s' h => ?_))
          cases r with
          | ok outcome => exact ⟨outcome, rfl, h⟩
          | error e => exact h.elim
        · rintro _ s₃ ⟨outcome, rfl, hsent⟩
          refine keeps_bind (keeps_afterSend ht hsent) (fun next s₄ hs₄ => ?_)
          cases next with
          | inl ended => trivial
          | inr next => exact ih hs₄.1 hs₄.2

end Reconcile

/-! ## The calls -/

section Calls

variable {store : DeliveryStoreKind} {m : ReplyRules} {pid : ℕ} {s s' : ReplyState}
  {d : ReplyDelivery}
  {t : ReplyTransport}

/-- **`get_delivery`**, by a call that holds nothing. -/
theorem keeps_getDelivery {key : DeliveryKey} (hs : AtRest pid s) :
    KeepsReplies store m pid (ReplyOp.ask (.getDelivery key))
      (Gives (fun r s => AtRest pid s ∧ s.hand pid = some (key, r) ∧ s.rows.get key = r
        ∧ ∀ d, r = some d → d.key = key)) s := by
  refine keeps_ask lasts_atRest hs (fun s₁ c r s₂ hs₁ hinv _ hh => ?_)
  have hknowing : ∀ e, s₁.rows.get key = e → ReplyOwes m pid s₁ (s₁.knowing pid key e)
      ∧ (AtRest pid (s₁.knowing pid key e) ∧ (s₁.knowing pid key e).hand pid = some (key, e)
        ∧ (s₁.knowing pid key e).rows.get key = e ∧ ∀ d, e = some d → d.key = key) := by
    rintro e rfl
    exact ⟨hinv.knowing hs₁.free key _, ⟨hs₁.wire, hs₁.free⟩, Function.update_self _ _ _, rfl,
      fun d hd => hinv.keyed key d hd⟩
  simp only [replyHandler] at hh
  split at hh
  · rename_i hrow
    obtain ⟨rfl, rfl⟩ := Prod.mk.inj (Option.some.inj hh)
    exact hknowing none hrow
  · rename_i d hrow
    split at hh
    · obtain ⟨rfl, rfl⟩ := Prod.mk.inj (Option.some.inj hh)
      exact hknowing (some d) hrow
    · obtain ⟨rfl, rfl⟩ := Prod.mk.inj (Option.some.inj hh)
      exact ⟨.same hinv, trivial⟩

/-- **`_load`.** -/
theorem keeps_load {key : DeliveryKey} (hs : AtRest pid s) :
    KeepsReplies store m pid (ReplyProg.load key)
      (Gives (fun d s => d.key = key ∧ Knows pid d s ∧ s.rows.get key = some d)) s := by
  refine keeps_bind (keeps_getDelivery hs) ?_
  rintro r s₁ ⟨hcalm, hhand, hrow, hkey⟩
  cases r with
  | none => trivial
  | some d =>
    obtain rfl := hkey d rfl
    exact ⟨rfl, ⟨hcalm, hhand⟩, hrow⟩

/-- A parked delivery, as long as the call that resumes it can tell: it has not
gone into flight under the same number again. -/
structure Parked (m : ReplyRules) (pid : ℕ) (d : ReplyDelivery) (s : ReplyState) : Prop where
  knows : Knows pid d s
  row : ∃ e, s.rows.get d.key = some e ∧ d.attempts ≤ e.attempts
    ∧ (e.attempts = d.attempts → e.status ≠ .inFlight)

theorem Parked.kept (h : Parked m pid d s) (hk : ReplyKept m pid s s') : Parked m pid d s' := by
  obtain ⟨e, he, hle, hst⟩ := h.row
  obtain ⟨e', he', hle', hst'⟩ := hk.rows d.key e he
  refine ⟨h.knows.kept hk, e', he', hle.trans hle', fun heq hflight => ?_⟩
  have heq' : e.attempts = d.attempts := by omega
  exact hst heq' (hst' (by omega) hflight)

/-- **`_resume_reconciliation`.** -/
theorem keeps_resumeReconciliation (hs : Parked m pid d s) (hstatus : d.status = .outcomeUnknown) :
    KeepsReplies store m pid (ReplyProg.resumeReconciliation t d)
      (Gives (fun d' s => d'.key = d.key ∧ Knows pid d' s
        ∧ (d'.status = .delivered ∨ d'.status = .failed))) s := by
  have hpast : LastsFor m pid (fun s => Parked m pid d s
      ∧ (m.cautious → d.attempts ∉ openAttempts s.log d.key)) := by
    rintro a a' ⟨hp, hclosed⟩ - hk
    refine ⟨hp.kept hk, fun hm hn => hclosed hm ?_⟩
    obtain ⟨e, he, hle, hst⟩ := hp.row
    refine hk.past d.key e he d.attempts ?_ hn
    rcases Nat.lt_or_eq_of_le hle with hlt | heq
    · exact .inl hlt
    · exact .inr ⟨heq, hst heq.symm⟩
  refine keeps_bind (keeps_reconcile (P := fun v s => v ≠ .unknown ∧ Parked m pid d s
      ∧ (v = .notDelivered → m.cautious → d.attempts ∉ openAttempts s.log d.key))
    (fun _ _ h _ hk => Parked.kept h hk) (fun _ _ _ h _ hk => Parked.kept h hk) hs
    (fun _ _ h => h) (fun _ _ _ h => h) ?_) ?_
  · intro v s₁ hv hp _
    refine ⟨hv, ⟨⟨⟨hp.knows.calm.wire, hp.knows.calm.free⟩, hp.knows.hand⟩, hp.row⟩, ?_⟩
    rintro rfl - hn
    rw [ReplyState.note, openAttempts_append, stillOpen, if_pos ⟨rfl, rfl⟩] at hn
    simpa using List.of_mem_filter hn
  · rintro v s₁ ⟨hv, hp, hclosed⟩
    have hnot : m.runsOnly → d.status ≠ .delivered := fun _ h => by
      rw [hstatus] at h
      cases h
    cases v with
    | unknown => exact absurd rfl hv
    | delivered =>
      refine (keeps_transition (I := Parked m pid d) (fun _ _ h _ hk => h.kept hk) hp
        (fun _ h => h.knows) (by simp) hnot (fun _ h => absurd h (by decide))
        (fun _ _ => hstatus)).mono (fun r s' h => ?_)
      cases r with
      | error e => trivial
      | ok d' =>
        obtain ⟨rfl, hknows⟩ := h
        exact ⟨rfl, hknows, .inl rfl⟩
    | notDelivered =>
      refine (keeps_transition hpast ⟨hp, hclosed rfl⟩ (fun _ h => h.1.knows) (by simp) hnot
        (fun hm _ s₂ c hs₂ hinv _ hrow => ?_) (fun _ h => ?_)).mono (fun r s' h => ?_)
      · refine List.eq_nil_iff_forall_not_mem.mpr (fun n hn => ?_)
        obtain ⟨rfl, -⟩ := hinv.open_eq hm hrow hn
        exact hs₂.2 hm hn
      · rcases h with h | h <;> cases h
      · cases r with
        | error e => trivial
        | ok d' =>
          obtain ⟨rfl, hknows⟩ := h
          exact ⟨rfl, hknows, .inr rfl⟩

/-- **`run`.** -/
theorem keeps_run (ht : m.shown → ∃ client, t = .feishu client) {maxAttempts turns : ℕ}
    {key : DeliveryKey} (hs : AtRest pid s) :
    KeepsReplies store m pid (ReplyProg.run t maxAttempts turns key)
      (Gives (fun _ _ => True)) s := by
  refine keeps_bind (keeps_load hs) ?_
  rintro d s₁ ⟨hkey, hknows, hrow⟩
  show KeepsReplies store m pid (if _ then _ else _) _ _
  split
  · trivial
  · rename_i hterminal
    split
    · rename_i hunknown
      have hparked : Parked m pid d s₁ := by
        refine ⟨hknows, d, hkey ▸ hrow, Nat.le_refl _, fun _ hflight => ?_⟩
        rw [hunknown] at hflight
        cases hflight
      refine keeps_bind (keeps_resumeReconciliation hparked hunknown) ?_
      rintro d' s₂ ⟨hkey', hknows', hst⟩
      show KeepsReplies store m pid (if _ then _ else _) _ _
      split
      · trivial
      · rename_i hgo
        refine keeps_runLoop ht turns (hkey'.trans hkey) ⟨hknows', fun hopen => ?_⟩
        rcases hst with hst | hst
        · exact absurd (Or.inl (by rw [hst]; rfl)) hgo
        · rw [hst] at hopen
          cases hopen
    · rename_i hunknown
      refine keeps_runLoop ht turns hkey ⟨hknows, fun hopen => ?_⟩
      cases hst : d.status with
      | inFlight => rfl
      | outcomeUnknown => exact absurd hst hunknown
      | delivered => exact absurd (by rw [hst]; rfl) hterminal
      | deadLetter => exact absurd (by rw [hst]; rfl) hterminal
      | queued => rw [hst] at hopen; cases hopen
      | rateLimited => rw [hst] at hopen; cases hopen
      | failed => rw [hst] at hopen; cases hopen

/-- **`replay`.** -/
theorem keeps_replay (ht : m.shown → ∃ client, t = .feishu client) {turns : ℕ} {key : DeliveryKey}
    (hs : AtRest pid s) :
    KeepsReplies store m pid (ReplyProg.replay t turns key) (Gives (fun _ _ => True)) s := by
  refine keeps_bind (keeps_load hs) ?_
  rintro d s₁ ⟨-, hknows, -⟩
  show KeepsReplies store m pid (if _ then _ else _) _ _
  split
  · trivial
  · rename_i hdead
    refine keeps_bind (keeps_transition lasts_knows hknows (fun _ h => h) (by simp) (fun _ h => ?_)
      (fun hm _ s₂ c _ _ hallow _ => hallow.2.1 hm rfl) (fun _ h => ?_))
      (fun d' s₂ h => keeps_run ht h.2.calm)
    · exact hdead (by rw [h]; simp)
    · rcases h with h | h <;> cases h

/-- **`update`.** -/
theorem keeps_update (hruns : ¬ m.runsOnly) {key : DeliveryKey} {content : Text}
    (hs : AtRest pid s) :
    KeepsReplies store m pid (ReplyProg.update key content) (Gives (fun _ _ => True)) s := by
  refine keeps_bind (keeps_load hs) ?_
  rintro d s₁ ⟨-, hknows, -⟩
  show KeepsReplies store m pid (if _ then _ else _) _ _
  split
  · trivial
  · refine keeps_bind (keeps_save lasts_knows hknows (fun s₂ c hs₂ hinv hallow => ?_))
      (fun _ _ _ => trivial)
    have hrow : s₂.rows.get d.key = some d := by
      have hfresh : Fresh pid d.key s₂ := hallow.1
      rw [hfresh.1, hs₂.known]
    refine ⟨hs₂.calm.wire, fun k hp => absurd hp (hs₂.calm.free k), fun old hold => ?_, ?_,
      fun hm n hn => ?_, fun _ hst => ?_⟩
    · obtain rfl := Option.some.inj (hrow.symm.trans hold)
      exact ⟨rfl, Nat.le_refl _, fun h => absurd h hruns⟩
    · exact fun h => (nomatch h)
    · rw [hallow.2.1 hm rfl] at hn
      cases hn
    · rcases hst with hst | hst <;> cases hst

/-- A new row is saved by a call that knows of none. -/
theorem keeps_saveNew (hstatus : d.status = .queued) (hs : AtRest pid s)
    (hhand : s.known pid d.key = none) :
    KeepsReplies store m pid (ReplyOp.ask (.saveDelivery d)) (Gives (fun _ => Knows pid d)) s := by
  refine keeps_save (I := fun s => AtRest pid s ∧ s.known pid d.key = none) ?_ ⟨hs, hhand⟩ ?_
  · rintro a a' ⟨hc, hk⟩ - hkept
    refine ⟨hc.kept hkept, ?_⟩
    rw [ReplyState.known, hkept.hand]
    exact hk
  · rintro s₁ c ⟨hc, hk⟩ hinv hallow
    have hrow : s₁.rows.get d.key = none := by
      have hfresh : Fresh pid d.key s₁ := hallow.1
      rw [hfresh.1, hk]
    refine ⟨hc.wire, fun k hp => absurd hp (hc.free k), fun old hold => ?_, ?_, fun hm n hn => ?_,
      fun _ hst => ?_⟩
    · rw [hrow] at hold
      cases hold
    · rw [hstatus]
      exact fun h => (nomatch h)
    · obtain ⟨e, he, -⟩ := (hinv.sends hm).2 d.key n hn
      rw [hrow] at he
      cases he
    · rw [hstatus] at hst
      rcases hst with hst | hst <;> cases hst

end Calls

section Discipline

variable {store : DeliveryStoreKind} {m : ReplyRules} {pid : ℕ} {s s' : ReplyState}

/-- A call that has not begun. -/
def Unbegun (pid : ℕ) (s : ReplyState) : Prop := AtRest pid s ∧ s.hand pid = none

theorem Unbegun.kept (h : Unbegun pid s) (hk : ReplyKept m pid s s') : Unbegun pid s' :=
  ⟨h.1.kept hk, hk.hand.trans h.2⟩

/-- The look before a delivery is entered, if it has an id already. -/
theorem keeps_existing {tenantId stableId : String} {deliveryId : Option String}
    {K : Option ReplyDelivery → ReplyProg ReplyDelivery} {P : ReplyDelivery → ReplyState → Prop}
    (hs : Unbegun pid s) (hsome : ∀ d s₁, KeepsReplies store m pid (K (some d)) (Gives P) s₁)
    (hnone : ∀ s₁, AtRest pid s₁ → s₁.known pid (tenantId, stableId) = none →
      KeepsReplies store m pid (K none) (Gives P) s₁) :
    KeepsReplies store m pid (match deliveryId with
      | some _ => (ReplyOp.ask (.getDelivery (tenantId, stableId))).bind K
      | none => K none) (Gives P) s := by
  cases deliveryId with
  | none => exact hnone s hs.1 (by rw [ReplyState.known, hs.2]; rfl)
  | some id =>
    refine keeps_bind (keeps_getDelivery hs.1) ?_
    rintro r s₁ ⟨hcalm, hhand, -, -⟩
    cases r with
    | some d => exact hsome d s₁
    | none => exact hnone s₁ hcalm (by simp [ReplyState.known, hhand])

/-- **`enqueue`.** -/
theorem keeps_enqueue {tenantId bindingId executionId : String}
    {externalConversationId content : Text} {deliveryId : Option String} (hs : Unbegun pid s) :
    KeepsReplies store m pid (ReplyProg.enqueue tenantId bindingId executionId
      externalConversationId content deliveryId) (Gives (fun _ _ => True)) s := by
  unfold ReplyProg.enqueue
  dsimp only
  split
  · refine keeps_existing hs ?_ ?_
    · intro d s₁
      trivial
    · intro s₁ hs₁ hknown
      dsimp only
      split
      · exact keeps_bind (keeps_saveNew rfl hs₁ hknown) (fun _ _ _ => trivial)
      · trivial
  · refine keeps_bind (keeps_look (fun _ _ h _ hk => Unbegun.kept h hk) hs
      (fun _ _ _ _ hh => look_eq hh)) (fun stableId s₁ hs₁ => ?_)
    refine keeps_existing hs₁ ?_ ?_
    · intro d s₂
      trivial
    · intro s₂ hs₂ hknown
      dsimp only
      split
      · exact keeps_bind (keeps_saveNew rfl hs₂ hknown) (fun _ _ _ => trivial)
      · trivial

/-- **Every call**, in the runs it is accepted in. -/
theorem keeps_body {call : ReplyCall} (haccept : replyAccept m s call) (hs : Unbegun pid s) :
    KeepsReplies store m pid call.body (Gives (fun _ _ => True)) s := by
  cases call with
  | enqueue tenantId bindingId executionId externalConversationId content deliveryId =>
    exact keeps_bind (keeps_enqueue hs) (fun _ _ _ => trivial)
  | run t maxAttempts turns key =>
    exact keeps_bind (keeps_run (fun hm => haccept.2 hm t (.inl ⟨_, _, _, rfl⟩)) hs.1)
      (fun _ _ _ => trivial)
  | replay t turns key =>
    exact keeps_bind (keeps_replay (fun hm => haccept.2 hm t (.inr ⟨_, _, rfl⟩)) hs.1)
      (fun _ _ _ => trivial)
  | update key content =>
    refine keeps_bind (keeps_update (fun hr => ?_) hs.1) (fun _ _ _ => trivial)
    obtain ⟨t, maxAttempts, turns, key', hcall⟩ := haccept.1 hr
    cases hcall
  | listDeadLetters tenantId =>
    refine keeps_ask lasts_atRest hs.1 (fun s₁ c r s₂ _ hinv _ hh => ?_)
    simp only [replyHandler] at hh
    split at hh
    · obtain ⟨rfl, rfl⟩ := Prod.mk.inj (Option.some.inj hh)
      exact ⟨.same hinv, trivial⟩
    · obtain ⟨rfl, rfl⟩ := Prod.mk.inj (Option.some.inj hh)
      exact ⟨.same hinv, trivial⟩

/-- **Where a run starts**: with any deliveries and attempts that agree with each
other, and nothing in progress. -/
structure ReplyStart (m : ReplyRules) (s : ReplyState) : Prop where
  keyed : ∀ key d, s.rows.get key = some d → d.key = key
  numbered : ∀ a ∈ s.attempts, ∃ d, s.rows.get a.key = some d ∧ a.attemptNo ≤ d.attempts
  distinct : (s.attempts.map DeliveryAttempt.number).Nodup
  wire : ∀ pid, s.wire pid = none
  hand : ∀ pid, s.hand pid = none
  holder : ∀ key, s.holder key = none
  log : s.log = []
  cards : m.shown → CardsInv s

theorem ReplyStart.inv (h : ReplyStart m s) : ReplyInv m s where
  keyed := h.keyed
  held := fun key pid hp => by
    rw [h.holder] at hp
    cases hp
  wired := fun pid o ho => by
    rw [h.wire] at ho
    cases ho
  numbered := h.numbered
  distinct := h.distinct
  sends := fun _ => by
    rw [h.log]
    exact ⟨neverBlind_nil, fun _ _ hn => (nomatch hn)⟩
  cards := h.cards

/-- **The discipline of the service.** -/
def replyDiscipline (store : DeliveryStoreKind) (m : ReplyRules) :
    Pool.Discipline (replies store) (ReplyStart m) (replyAccept m) (replyAllow m)
      (fun _ _ => True) where
  inv := ReplyInv m
  unused := Unbegun
  rely := ReplyKept m
  post := fun _ _ => Gives (fun _ _ => True)
  rely_refl := ReplyKept.refl
  rely_trans := fun _ _ _ _ h h' => h.trans h'
  unused_rely := fun _ _ _ h hk => h.kept hk
  start_ok := fun s h => ⟨h.inv, fun pid => ⟨⟨h.wire pid, fun k hk => by
    rw [h.holder] at hk
    cases hk⟩, h.hand pid⟩⟩
  safe_body := fun _ _ _ haccept _ hun => keeps_body haccept hun
  safe_crash := fun pid _ hinv => hinv.abandoned pid
  safe_env := fun _ _ _ _ hinv he => hinv.provider he

end Discipline
