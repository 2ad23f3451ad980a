import AgentPlatform.TransportReplies

/-!
# What the deliveries of a worker agree with

The status of a delivery, its count of attempts, the attempts that are recorded
and the sends of the transport are four accounts of one history. Between two calls
they agree (`DeliveryView.Agrees`): attempts and sends are numbered from one up to
the count, and the status is the one the last send led to.

In the runs in which nothing but a failure is counted towards the budget
(`CourierRules.failuresOnly`), the count is covered by the failures as well.
-/

/-- **What a run is held to.** -/
structure CourierRules where
  /-- The budget of the service. -/
  maxAttempts : ℕ
  /-- Only failures count: an early rate limit does not happen, a delivered
  representation is not updated and an interrupted attempt not resumed. -/
  failuresOnly : Prop
  /-- No call is interrupted. -/
  orderly : Prop

namespace CourierRules

/-- The condition on calls. -/
def accept (m : CourierRules) (s : CourierState) (call : CourierCall) : Prop :=
  m.failuresOnly → match call with
    | .enqueue .. => True
    | .run _ _ key => ∀ d ∈ s.rows.get key, d.status ≠ .inFlight
    | .replay .. => False
    | .update key _ => ∀ d ∈ s.rows.get key, d.status ≠ .delivered

/-- The condition on requests. -/
def allow (m : CourierRules) (c : CourierChoice) (op : CourierOp) (_s : CourierState) : Prop :=
  match op with
  | .send _ attemptNo =>
    (m.failuresOnly → attemptNo < m.maxAttempts → sendEnd c.result ≠ .limited)
      ∧ (m.orderly → ∀ e, c.result = .error e → e.isException = true)
  | .reconcile .. => m.orderly → ∃ verdict, c.verdict = .ok verdict
  | _ => True

end CourierRules

/-! ## One delivery -/

/-- What there is of a delivery. -/
structure DeliveryView where
  row : Option ReplyDelivery
  recorded : List ℕ
  sends : List ℕ
  account : SendAccount

/-- The view of a delivery. -/
def CourierState.view (s : CourierState) (key : DeliveryKey) : DeliveryView :=
  ⟨s.rows.get key, s.recorded key, s.sends key, s.account key⟩

/-- **The failures cover the count**, as far as it goes towards the budget; one is
still to come when the last send was limited or is not decided. -/
def AttemptsCovered (maxAttempts : ℕ) (d : ReplyDelivery) (failures : ℕ) : Prop :=
  match d.status with
  | .queued | .failed => min d.attempts maxAttempts ≤ failures
  | .rateLimited => maxAttempts ≤ d.attempts ∧ maxAttempts ≤ failures + 1
  | .outcomeUnknown => min d.attempts maxAttempts ≤ failures + 1
  | .inFlight | .delivered | .deadLetter => True

/-- **A delivery whose last send has been dealt with.** -/
structure Accounted (m : CourierRules) (d : ReplyDelivery) (acc : SendAccount) : Prop where
  calm : d.status ≠ .inFlight
  parked : d.status = .outcomeUnknown → acc.last = some (d.attempts, .unknown)
  confirmed : d.status = .delivered ↔ acc.Confirmed
  covered : m.failuresOnly → AttemptsCovered m.maxAttempts d acc.failures

/-- **A parked delivery** on which a verdict may have come that was not stored. -/
structure ParkedAccount (m : CourierRules) (d : ReplyDelivery) (acc : SendAccount) : Prop where
  status : d.status = .outcomeUnknown
  last : ∃ ended, acc.last = some (d.attempts, ended) ∧ (m.failuresOnly →
    min d.attempts m.maxAttempts ≤ acc.failures + if ended = .failed then 0 else 1)

/-- What holds of a stored delivery; `torn` is whether a call may have stopped in
its middle. -/
def StoredOk (m : CourierRules) (torn : Prop) (d : ReplyDelivery) (v : DeliveryView) : Prop :=
  (torn ∧ d.status = .inFlight) ∨
    (v.recorded = List.range' 1 d.attempts ∧ v.sends = List.range' 1 d.attempts
      ∧ (Accounted m d v.account ∨ torn ∧ ParkedAccount m d v.account))

/-- **The accounts of a delivery agree.** -/
def DeliveryView.Agrees (m : CourierRules) (torn : Prop) (key : DeliveryKey) (v : DeliveryView) :
    Prop :=
  match v.row with
  | none => v.recorded = [] ∧ v.sends = []
  | some d => d.key = key ∧ StoredOk m torn d v

/-- **The accounts of every delivery agree.** -/
def CourierInv (m : CourierRules) (torn : Prop) (s : CourierState) : Prop :=
  ∀ key, (s.view key).Agrees m torn key

/-- A call is a `run` with the budget of the service. -/
def CourierCall.isDefault : CourierCall → Bool
  | .run none _ _ => true
  | _ => false

/-- **What a request of a call does to a delivery**: it keeps its id, attempts are
added to those there are, and a dead letter of a `run` with the budget of the
service has used it up. -/
structure ViewStep (m : CourierRules) (call : CourierCall) (v v' : DeliveryView) : Prop where
  kept : ∀ d, v.row = some d → ∃ d', v'.row = some d' ∧ d'.key = d.key ∧ d.attempts ≤ d'.attempts
  recorded : v.recorded <+: v'.recorded
  exhausted : m.failuresOnly → call.isDefault = true →
    (∀ d, v.row = some d → d.status ≠ .deadLetter) →
      (∃ d', v'.row = some d' ∧ d'.status = .deadLetter) → m.maxAttempts ≤ v'.account.failures

/-- What a request of a call does. -/
def CourierStep (m : CourierRules) (call : CourierCall) (s s' : CourierState) : Prop :=
  ∀ key, ViewStep m call (s.view key) (s'.view key)

section Views

variable {m : CourierRules} {call : CourierCall} {v v' : DeliveryView} {key : DeliveryKey}
  {torn : Prop}

/-- A row that stays, with what is recorded. -/
theorem ViewStep.of_row (hrow : v'.row = v.row) (hrec : v.recorded <+: v'.recorded) :
    ViewStep m call v v' where
  kept := fun d hd => ⟨d, hrow.trans hd, rfl, Nat.le_refl _⟩
  recorded := hrec
  exhausted := by
    rintro - - hbefore ⟨d', hd', hdead⟩
    exact absurd hdead (hbefore d' (hrow.symm.trans hd'))

theorem ViewStep.refl (v : DeliveryView) : ViewStep m call v v :=
  .of_row rfl List.prefix_rfl

/-- A row that is written and is no dead letter. -/
theorem ViewStep.of_write {d' : ReplyDelivery} (hrow : v'.row = some d')
    (hkept : ∀ d, v.row = some d → d'.key = d.key ∧ d.attempts ≤ d'.attempts)
    (hrec : v'.recorded = v.recorded) (halive : d'.status ≠ .deadLetter) :
    ViewStep m call v v' where
  kept := fun d hd => ⟨d', hrow, hkept d hd⟩
  recorded := hrec ▸ List.prefix_rfl
  exhausted := by
    rintro - - - ⟨d'', hd'', hdead⟩
    rw [hrow] at hd''
    obtain rfl := Option.some.inj hd''
    exact absurd hdead halive

theorem DeliveryView.Agrees.mono (h : v.Agrees m torn key) {torn' : Prop} (ht : torn → torn') :
    v.Agrees m torn' key := by
  unfold DeliveryView.Agrees at *
  cases hrow : v.row with
  | none => rw [hrow] at h; exact h
  | some d =>
    rw [hrow] at h
    refine ⟨h.1, ?_⟩
    rcases h.2 with ⟨hn, hfly⟩ | ⟨hrec, hsends, hacc | ⟨hn, hpark⟩⟩
    · exact .inl ⟨ht hn, hfly⟩
    · exact .inr ⟨hrec, hsends, .inl hacc⟩
    · exact .inr ⟨hrec, hsends, .inr ⟨ht hn, hpark⟩⟩

theorem DeliveryView.agrees_some {d : ReplyDelivery} (hrow : v.row = some d) :
    v.Agrees m torn key ↔ d.key = key ∧ StoredOk m torn d v := by
  unfold DeliveryView.Agrees
  rw [hrow]

theorem CourierInv.mono {s : CourierState} (h : CourierInv m torn s) {torn' : Prop}
    (ht : torn → torn') : CourierInv m torn' s :=
  fun key => (h key).mono ht

/-- What is stored under a key. -/
theorem CourierInv.stored {s : CourierState} (h : CourierInv m torn s) {d : ReplyDelivery}
    (hrow : s.rows.get key = some d) : d.key = key ∧ StoredOk m torn d (s.view key) :=
  (DeliveryView.agrees_some hrow).mp (h key)

theorem StoredOk.calm {d : ReplyDelivery} (h : StoredOk m torn d v) (hcalm : d.status ≠ .inFlight) :
    v.recorded = List.range' 1 d.attempts ∧ v.sends = List.range' 1 d.attempts
      ∧ (Accounted m d v.account ∨ torn ∧ ParkedAccount m d v.account) :=
  h.resolve_left (fun hfly => hcalm hfly.2)

/-- Apart from a parked delivery, nothing is left open. -/
theorem StoredOk.accounted {d : ReplyDelivery} (h : StoredOk m torn d v)
    (hcalm : d.status ≠ .inFlight) (hpark : d.status ≠ .outcomeUnknown) :
    v.recorded = List.range' 1 d.attempts ∧ v.sends = List.range' 1 d.attempts
      ∧ Accounted m d v.account := by
  obtain ⟨hrec, hsends, hacc⟩ := h.calm hcalm
  exact ⟨hrec, hsends, hacc.resolve_right (fun hp => hpark hp.2.status)⟩

end Views

/-! ## What a request does to the views -/

namespace CourierState

variable (s : CourierState) (key : DeliveryKey)

theorem view_note (e : CourierEvent) : (s.note e).view key
    = ⟨s.rows.get key, s.recorded key, s.sends key ++ (e.sendOf key).toList,
        (s.account key).after key e⟩ := by
  unfold view note sends account recorded
  rw [List.foldl_append, List.filterMap_append]
  cases h : e.sendOf key <;> simp [h]

/-- A delivery that is stored. -/
theorem view_put_self (d : ReplyDelivery) : (s.put d).view d.key
    = ⟨some d, s.recorded d.key, s.sends d.key,
        if d.status = .queued then .opened else s.account d.key⟩ := by
  unfold put
  dsimp only
  split
  · rw [view_note]
    simp [Dictionary.get_set, CourierEvent.sendOf, SendAccount.after, sends, recorded]
  · simp [view, Dictionary.get_set, sends, recorded, account]

/-- The others stay. -/
theorem view_put_ne {d : ReplyDelivery} (hkey : key ≠ d.key) :
    (s.put d).view key = s.view key := by
  unfold put
  dsimp only
  split
  · rw [view_note]
    simp [view, Dictionary.get_set, CourierEvent.sendOf, SendAccount.after, sends, recorded,
      account, hkey, hkey.symm]
  · simp [view, Dictionary.get_set, sends, recorded, account, hkey]

theorem view_rows (d : ReplyDelivery) (k : DeliveryKey) :
    ({ s with rows := s.rows.set k d } : CourierState).view key
      = if key = k then { s.view key with row := some d } else s.view key := by
  unfold view
  by_cases hk : key = k
  · simp [hk, Dictionary.get_set, sends, recorded, account]
  · simp [hk, Dictionary.get_set, sends, recorded, account]

theorem view_attempt (a : DeliveryAttempt) :
    ({ s with attempts := s.attempts ++ [a] } : CourierState).view key
      = if a.delivery = key then { s.view key with recorded := s.recorded key ++ [a.attemptNo] }
        else s.view key := by
  unfold view
  by_cases hk : a.delivery = key
  · simp [hk, sends, recorded, account]
  · simp [hk, sends, recorded, account]

end CourierState

/-! ## Calls, request by request -/

/-- **A program keeps the accounts** and ends with `Q`. -/
abbrev KeepsAccounts (m : CourierRules) (call : CourierCall) {α : Type} (p : CourierProg α)
    (Q : Except PyException α → CourierState → Prop) (s : CourierState) : Prop :=
  p.Safe (Prog.Handled courierHandler m.allow) Eq
    (fun a b => CourierInv m True b ∧ CourierStep m call a b) Q s

/-- **In the middle of a call**: the accounts of the other deliveries agree, and of
the one at hand there is `v`. -/
structure HoldingDelivery (m : CourierRules) (key : DeliveryKey) (v : DeliveryView) (s : CourierState) :
    Prop where
  others : ∀ k, k ≠ key → (s.view k).Agrees m (¬ m.orderly) k
  view : s.view key = v

/-- Between two calls. -/
abbrev AtEase (m : CourierRules) (s : CourierState) : Prop := CourierInv m (¬ m.orderly) s

section Calls

variable {m : CourierRules} {call : CourierCall} {s s' : CourierState} {key : DeliveryKey}
  {v v' : DeliveryView} {d : ReplyDelivery}

theorem CourierInv.holding (h : AtEase m s) (key : DeliveryKey) : HoldingDelivery m key (s.view key) s :=
  ⟨fun k _ => h k, rfl⟩

/-- The accounts agree when those of the delivery at hand do. -/
theorem HoldingDelivery.inv {torn : Prop} (h : HoldingDelivery m key v s) (ht : ¬ m.orderly → torn)
    (hv : v.Agrees m torn key) : CourierInv m torn s := by
  intro k
  by_cases hk : k = key
  · subst hk
    rw [h.view]
    exact hv
  · exact (h.others k hk).mono ht

/-- The delivery at hand has changed. -/
theorem HoldingDelivery.to (h : HoldingDelivery m key v s) (hothers : ∀ k, k ≠ key → s'.view k = s.view k)
    (hview : s'.view key = v') : HoldingDelivery m key v' s' :=
  ⟨fun k hk => by rw [hothers k hk]; exact h.others k hk, hview⟩

/-- **Request rule**: a request changes the delivery at hand only, and leaves its
accounts in order, up to what is torn. -/
theorem keepsAccounts_ask {op : CourierOp} {Q : Except PyException (CourierRes op) → CourierState →
    Prop} (h : HoldingDelivery m key v s)
    (hop : ∀ c r s', m.allow c op s → courierHandler c op s = some (r, s') →
      ∃ v', HoldingDelivery m key v' s' ∧ (∀ k, k ≠ key → s'.view k = s.view k) ∧ v'.Agrees m True key
        ∧ ViewStep m call v v' ∧ Q r s') :
    KeepsAccounts m call op.ask Q s := by
  refine (Prog.safe_perform _ _ _).mpr ?_
  rintro s₁ rfl r s₂ ⟨c, hallow, hh⟩
  obtain ⟨v', hv', hothers, hagrees, hstep, hQ⟩ := hop c r s₂ hallow hh
  refine ⟨⟨hv'.inv (fun _ => trivial) hagrees, fun k => ?_⟩, hQ⟩
  by_cases hk : k = key
  · subst hk
    rw [h.view, hv'.view]
    exact hstep
  · rw [hothers k hk]
    exact .refl _

/-- A request that leaves everything as it is. -/
theorem keepsAccounts_look {op : CourierOp} {Q : Except PyException (CourierRes op) →
    CourierState → Prop} (hinv : CourierInv m True s)
    (hop : ∀ c r s', courierHandler c op s = some (r, s') → s' = s ∧ Q r s) :
    KeepsAccounts m call op.ask Q s := by
  refine (Prog.safe_perform _ _ _).mpr ?_
  rintro s₁ rfl r s₂ ⟨c, -, hh⟩
  obtain ⟨rfl, hQ⟩ := hop c r s₂ hh
  exact ⟨⟨hinv, fun k => .refl _⟩, hQ⟩

/-- A delivery at hand that is in flight. -/
theorem agrees_flying (hrow : v.row = some d) (hkey : d.key = key) (hfly : d.status = .inFlight)
    {torn : Prop} (ht : torn) : v.Agrees m torn key :=
  (DeliveryView.agrees_some hrow).mpr ⟨hkey, .inl ⟨ht, hfly⟩⟩

/-- **`save_delivery`**, of the delivery at hand. -/
theorem keepsAccounts_save {Q : Except PyException Unit → CourierState → Prop}
    (h : HoldingDelivery m d.key v s)
    (hstep : ∀ v', v'.row = some d → v'.recorded = v.recorded →
      v'.account = (if d.status = .queued then .opened else v.account) → ViewStep m call v v')
    (hagrees : DeliveryView.Agrees m (¬ m.orderly) d.key ⟨some d, v.recorded, v.sends,
      if d.status = .queued then .opened else v.account⟩)
    (hQ : ∀ s', AtEase m s' → s'.rows.get d.key = some d → Q (.ok ()) s') :
    KeepsAccounts m call (CourierOp.ask (.saveDelivery d)) Q s := by
  refine keepsAccounts_ask h (fun c r s' _ hh => ?_)
  obtain ⟨rfl, rfl⟩ := Prod.mk.inj (Option.some.inj hh)
  have hothers : ∀ k, k ≠ d.key → (s.put d).view k = s.view k :=
    fun k hk => CourierState.view_put_ne s k hk
  have hview := CourierState.view_put_self s d
  have hself : (s.put d).view d.key = ⟨some d, v.recorded, v.sends,
      if d.status = .queued then .opened else v.account⟩ := by
    rw [hview, ← h.view]
    rfl
  have hheld := h.to hothers hself
  refine ⟨_, hheld, hothers, hagrees.mono (fun _ => trivial), hstep _ rfl rfl rfl,
    hQ _ (hheld.inv id hagrees) ?_⟩
  exact congrArg DeliveryView.row hself

/-- **`_transition`**, to a status that is neither `QUEUED` nor `DEAD_LETTER`. -/
theorem keepsAccounts_transition {status : DeliveryState} {attempts : Option ℕ}
    {Q : Except PyException ReplyDelivery → CourierState → Prop} (h : HoldingDelivery m key v s)
    (hrow : v.row = some d) (hkey : d.key = key) (hattempts : attempts.getD d.attempts = d.attempts)
    (hqueued : status ≠ .queued) (hdead : status ≠ .deadLetter)
    (hrec : v.recorded = List.range' 1 d.attempts) (hsends : v.sends = List.range' 1 d.attempts)
    (hacc : Accounted m (d.copy status d.attempts) v.account)
    (hQ : ∀ s', AtEase m s' → s'.rows.get key = some (d.copy status d.attempts) →
      Q (.ok (d.copy status d.attempts)) s') :
    KeepsAccounts m call (CourierProg.transition d status attempts) Q s := by
  subst hkey
  unfold CourierProg.transition
  rw [hattempts]
  have hstay : (d.copy status d.attempts).status ≠ .queued := hqueued
  refine Prog.Safe.bind (Q := fun r s' => ∃ u, r = .ok u ∧ AtEase m s'
    ∧ s'.rows.get d.key = some (d.copy status d.attempts)) ?_ ?_ ?_
  · refine keepsAccounts_save (d := d.copy status d.attempts) h ?_ ?_ ?_
    · intro v' hrow' hrec' _
      refine .of_write hrow' (fun d₀ hd₀ => ?_) hrec' hdead
      rw [hrow] at hd₀
      obtain rfl := Option.some.inj hd₀
      exact ⟨rfl, Nat.le_refl _⟩
    · rw [if_neg hstay]
      exact ⟨rfl, .inr ⟨hrec, hsends, .inl hacc⟩⟩
    · intro s' hease hget
      exact ⟨(), rfl, hease, hget⟩
  · rintro u s' ⟨-, -, hease, hget⟩
    exact hQ s' hease hget
  · rintro e s' ⟨u, hu, -⟩
    cases hu

/-- `uuid4` gives an id that no delivery has. -/
theorem uuid4_answer {c : CourierChoice} {r : Except PyException String}
    (h : courierHandler c .uuid4 s = some (r, s')) :
    s' = s ∧ r = .ok c.uuid ∧ ∀ tenantId, s.rows.get (tenantId, c.uuid) = none := by
  have hif : (if s.rows.items.any (fun e => e.1.2 = c.uuid) then none
      else some ((.ok c.uuid : Except PyException String), s)) = some (r, s') := h
  split at hif
  · cases hif
  · rename_i hnew
    obtain ⟨rfl, rfl⟩ := Prod.mk.inj (Option.some.inj hif)
    refine ⟨rfl, rfl, fun tenantId => ?_⟩
    cases hget : s.rows.get (tenantId, c.uuid) with
    | none => rfl
    | some d =>
      refine absurd (List.any_eq_true.mpr ⟨_, Dictionary.get_eq_some_iff.mp hget, ?_⟩) hnew
      exact decide_eq_true rfl

/-- **`save_attempt`**, of a delivery in flight. -/
theorem keepsAccounts_saveAttempt {Q : Except PyException Unit → CourierState → Prop}
    (h : HoldingDelivery m key v s) (hrow : v.row = some d) (hkey : d.key = key)
    (hfly : d.status = .inFlight) (a : DeliveryAttempt) (ha : a.delivery = key)
    (hno : a.attemptNo = d.attempts)
    (hQ : ∀ s', HoldingDelivery m key { v with recorded := v.recorded ++ [d.attempts] } s' → Q (.ok ()) s') :
    KeepsAccounts m call (CourierOp.ask (.saveAttempt a)) Q s := by
  refine keepsAccounts_ask h (fun c r s' _ hh => ?_)
  obtain ⟨rfl, rfl⟩ := Prod.mk.inj (Option.some.inj hh)
  have hothers : ∀ k, k ≠ key →
      ({ s with attempts := s.attempts ++ [a] } : CourierState).view k = s.view k := by
    intro k hk
    rw [CourierState.view_attempt, if_neg]
    rintro rfl
    exact hk ha
  have hself : ({ s with attempts := s.attempts ++ [a] } : CourierState).view key
      = { v with recorded := v.recorded ++ [d.attempts] } := by
    rw [CourierState.view_attempt, if_pos ha, hno, ← h.view]
    rfl
  have hheld := h.to hothers hself
  refine ⟨_, hheld, hothers, ?_, .of_row rfl (List.prefix_append _ _), hQ _ hheld⟩
  exact agrees_flying (v := { v with recorded := v.recorded ++ [d.attempts] }) hrow hkey hfly trivial

/-- **An attempt is recorded, and the delivery moves on.** -/
theorem keepsAccounts_close {outcome : String} {errorCode : Option String} {status : DeliveryState}
    {attempts : Option ℕ} {n : ℕ} {Q : Except PyException ReplyDelivery → CourierState → Prop}
    (h : HoldingDelivery m key v s) (hrow : v.row = some d) (hkey : d.key = key)
    (hfly : d.status = .inFlight) (hd : d.attempts = n + 1)
    (hattempts : attempts.getD d.attempts = d.attempts) (hqueued : status ≠ .queued)
    (hdead : status ≠ .deadLetter) (hrec : v.recorded = List.range' 1 n)
    (hsends : v.sends = List.range' 1 d.attempts)
    (hacc : Accounted m (d.copy status d.attempts) v.account)
    (hQ : ∀ s', AtEase m s' → s'.rows.get key = some (d.copy status d.attempts) →
      Q (.ok (d.copy status d.attempts)) s') :
    KeepsAccounts m call (CourierProg.close d d.attempts outcome errorCode status attempts) Q s := by
  have htorn : CourierInv m True s :=
    h.inv (fun _ => trivial) (agrees_flying hrow hkey hfly trivial)
  unfold CourierProg.close CourierProg.recordAttempt
  refine Prog.Safe.bind (Q := fun r s' => ∃ u, r = .ok u
    ∧ HoldingDelivery m key { v with recorded := v.recorded ++ [d.attempts] } s') ?_ ?_ ?_
  · refine Prog.Safe.bind (Q := fun r s' => s' = s ∧ ∃ id, r = .ok id) ?_ ?_ ?_
    · refine keepsAccounts_look htorn (fun c r s' hh => ?_)
      obtain ⟨rfl, rfl, -⟩ := uuid4_answer hh
      exact ⟨rfl, rfl, _, rfl⟩
    · rintro id s' ⟨rfl, -⟩
      exact keepsAccounts_saveAttempt h hrow hkey hfly _ hkey rfl (fun s'' hheld => ⟨(), rfl, hheld⟩)
    · rintro e s' ⟨-, id, hid⟩
      cases hid
  · rintro u s' ⟨-, -, hheld⟩
    refine keepsAccounts_transition hheld hrow hkey hattempts hqueued hdead ?_ hsends hacc hQ
    show v.recorded ++ [d.attempts] = _
    rw [hrec, hd, List.range'_concat, Nat.one_mul, Nat.add_comm 1 n]
  · rintro e s' ⟨u, hu, -⟩
    cases hu

/-! ## A send and what follows -/

/-- **The failures cover what was counted before a send.** -/
def Due (m : CourierRules) (attempts failures : ℕ) : Prop :=
  m.failuresOnly → min attempts m.maxAttempts ≤ failures
    ∨ (m.maxAttempts ≤ attempts ∧ m.maxAttempts ≤ failures + 1)

theorem Accounted.due {acc : SendAccount} (h : Accounted m d acc)
    (hhead : d.status = .queued ∨ d.status = .failed ∨ d.status = .rateLimited) :
    Due m d.attempts acc.failures := by
  intro hm
  have hcovered := h.covered hm
  unfold AttemptsCovered at hcovered
  rcases hhead with hs | hs | hs
  · rw [hs] at hcovered
    exact .inl hcovered
  · rw [hs] at hcovered
    exact .inl hcovered
  · rw [hs] at hcovered
    exact .inr hcovered

theorem sent_failures (acc : SendAccount) (n : ℕ) (ended : SendEnd) :
    (acc.sent n ended).failures = acc.failures + if ended = .failed then 1 else 0 := by
  unfold SendAccount.sent
  split <;> rfl

/-- A verdict on the last send. -/
theorem settled_last {acc : SendAccount} {n : ℕ} {ended : SendEnd} (h : acc.last = some (n, ended))
    (verdict : ReconcileVerdict) :
    acc.settled n verdict = match verdict with
      | .delivered =>
        ⟨some (n, .landed), if ended = .failed then acc.failures - 1 else acc.failures⟩
      | .notDelivered =>
        ⟨some (n, .failed), if ended = .failed then acc.failures else acc.failures + 1⟩
      | .unknown => acc := by
  unfold SendAccount.settled
  rw [h]
  exact if_neg (fun hne => hne rfl)

/-- **What a status has to say of the last send**, for the accounts to agree with
it. -/
structure LeadsToStatus (m : CourierRules) (d : ReplyDelivery) (status : DeliveryState)
    (acc : SendAccount) : Prop where
  calm : status ≠ .inFlight
  last : ∃ ended, acc.last = some (d.attempts, ended) ∧ (status = .delivered ↔ ended = .landed)
    ∧ (status = .outcomeUnknown → ended = .unknown)
  covered : m.failuresOnly → AttemptsCovered m.maxAttempts (d.copy status d.attempts) acc.failures

theorem LeadsToStatus.accounted {status : DeliveryState} {acc : SendAccount}
    (h : LeadsToStatus m d status acc) : Accounted m (d.copy status d.attempts) acc := by
  obtain ⟨ended, hlast, hlanded, hunknown⟩ := h.last
  refine ⟨h.calm, fun hs => ?_, ?_, h.covered⟩
  · rw [hlast, hunknown hs]
    rfl
  · show status = .delivered ↔ acc.Confirmed
    unfold SendAccount.Confirmed
    rw [hlanded, hlast]
    constructor
    · rintro rfl
      exact ⟨_, rfl⟩
    · rintro ⟨n, hn⟩
      exact (Prod.mk.inj (Option.some.inj hn)).2

/-- After an afterSend that goes on, the loop has its delivery. -/
def AtHead (key : DeliveryKey) (d : ReplyDelivery) (s : CourierState) : Prop :=
  s.rows.get key = some d ∧ (d.status = .queued ∨ d.status = .failed ∨ d.status = .rateLimited)

/-- What a send leaves: the accounts agree, and the loop may go on. -/
def AfterSend (m : CourierRules) (key : DeliveryKey) :
    Except PyException (ReplyDelivery ⊕ ReplyDelivery) → CourierState → Prop
  | .ok (.inr d), s => AtEase m s ∧ AtHead key d s
  | _, s => AtEase m s

theorem Due.failed {n failures : ℕ} (h : Due m n failures) (hm : m.failuresOnly) :
    min (n + 1) m.maxAttempts ≤ failures + 1 := by
  rcases h hm with hle | ⟨-, hle⟩ <;> omega

theorem Due.limited {n failures : ℕ} (h : Due m n failures) (hm : m.failuresOnly)
    (hlate : ¬ n + 1 < m.maxAttempts) :
    m.maxAttempts ≤ n + 1 ∧ m.maxAttempts ≤ failures + 1 := by
  rcases h hm with hle | ⟨-, hle⟩ <;> omega

/-- The delivery moves on, and with it the call. -/
theorem keepsAccounts_moves {outcome : String} {errorCode : Option String} {status : DeliveryState}
    {attempts : Option ℕ} {n : ℕ} {acc : SendAccount} (hkey : d.key = key)
    (hfly : d.status = .inFlight) (hd : d.attempts = n + 1)
    (h : HoldingDelivery m key ⟨some d, List.range' 1 n, List.range' 1 d.attempts, acc⟩ s)
    (hattempts : attempts.getD d.attempts = d.attempts) (hqueued : status ≠ .queued)
    (hdead : status ≠ .deadLetter) (hlead : LeadsToStatus m d status acc)
    (f : ReplyDelivery → ReplyDelivery ⊕ ReplyDelivery)
    (hf : ∀ d', (f d' = .inl d') ∨ (f d' = .inr d' ∧ (status = .failed ∨ status = .rateLimited))) :
    KeepsAccounts m call ((CourierProg.close d d.attempts outcome errorCode status attempts).bind
      (fun d' => .ret (f d'))) (AfterSend m key) s := by
  refine Prog.Safe.bind (Q := fun r s' => r = .ok (d.copy status d.attempts) ∧ AtEase m s'
    ∧ s'.rows.get key = some (d.copy status d.attempts)) ?_ ?_ ?_
  · exact keepsAccounts_close h rfl hkey hfly hd hattempts hqueued hdead rfl rfl hlead.accounted
      (fun s' hease hget => ⟨rfl, hease, hget⟩)
  · rintro d' s' ⟨hd', hease, hget⟩
    obtain rfl := Except.ok.inj hd'
    rw [Prog.safe_ret]
    rcases hf (d.copy status d.attempts) with hl | ⟨hr, hstatus⟩
    · rw [hl]
      exact hease
    · rw [hr]
      exact ⟨hease, hget, .inr hstatus⟩
  · rintro e s' ⟨he, -⟩
    cases he

/-- What a request to reconcile leaves: a verdict, or an exception in a run that is
not orderly. -/
def Reconciled (m : CourierRules) (key : DeliveryKey) (attemptNo : ℕ) (v : DeliveryView)
    (s : CourierState) : Except PyException ReconcileVerdict → CourierState → Prop
  | .ok verdict, s' =>
    HoldingDelivery m key { v with account := v.account.settled attemptNo verdict } s'
  | .error _, s' => ¬ m.orderly ∧ s' = s

/-- **`reconcile`**, of the delivery at hand. -/
theorem keepsAccounts_reconcile {attemptNo : ℕ} (h : HoldingDelivery m key v s) (hkey : d.key = key)
    (hhere : v.Agrees m True key)
    (hagrees : ∀ verdict, ({ v with account := v.account.settled attemptNo verdict } :
      DeliveryView).Agrees m True key) :
    KeepsAccounts m call (CourierOp.ask (.reconcile d attemptNo))
      (Reconciled m key attemptNo v s) s := by
  refine (Prog.safe_perform _ _ _).mpr ?_
  rintro s₁ rfl r s₂ ⟨c, hallow, hh⟩
  cases hverdict : c.verdict with
  | error e =>
    simp only [courierHandler, hverdict] at hh
    obtain ⟨rfl, rfl⟩ := Prod.mk.inj (Option.some.inj hh)
    refine ⟨⟨h.inv (fun _ => trivial) hhere, fun k => .refl _⟩, fun horderly => ?_, rfl⟩
    obtain ⟨verdict, hok⟩ := hallow horderly
    rw [hverdict] at hok
    cases hok
  | ok verdict =>
    simp only [courierHandler, hverdict] at hh
    obtain ⟨rfl, rfl⟩ := Prod.mk.inj (Option.some.inj hh)
    have hothers : ∀ k, k ≠ key → (s.note (.reconciled d.key attemptNo verdict)).view k
        = s.view k := by
      intro k hk
      rw [CourierState.view_note]
      simp [CourierState.view, CourierEvent.sendOf, SendAccount.after, hkey, hk.symm]
    have hself : (s.note (.reconciled d.key attemptNo verdict)).view key
        = { v with account := v.account.settled attemptNo verdict } := by
      rw [CourierState.view_note, ← h.view]
      simp [CourierState.view, CourierEvent.sendOf, SendAccount.after, hkey]
    have hheld := h.to hothers hself
    refine ⟨⟨hheld.inv (fun _ => trivial) (hagrees verdict), fun k => ?_⟩, hheld⟩
    by_cases hk : k = key
    · subst hk
      rw [h.view, hheld.view]
      exact .of_row rfl List.prefix_rfl
    · rw [hothers k hk]
      exact .refl _

/-- **What follows a send**: the attempt is recorded, and the delivery goes where
the outcome leads. -/
theorem keepsAccounts_afterSend {acc : SendAccount} {n : ℕ}
    {result : Except PyException ChannelTransportOutcome} (hkey : d.key = key)
    (hfly : d.status = .inFlight) (hd : d.attempts = n + 1)
    (h : HoldingDelivery m key ⟨some d, List.range' 1 n, List.range' 1 d.attempts,
      acc.sent d.attempts (sendEnd result)⟩ s)
    (hdue : Due m n acc.failures)
    (hlimited : m.failuresOnly → d.attempts < m.maxAttempts → sendEnd result ≠ .limited) :
    KeepsAccounts m call (CourierProg.afterSend d d.attempts result) (AfterSend m key) s := by
  have hlast : (acc.sent d.attempts (sendEnd result)).last
      = some (d.attempts, sendEnd result) := rfl
  have hfailures := sent_failures acc d.attempts (sendEnd result)
  -- The outcome is unknown: the delivery is parked.
  have hpark : ∀ acc' : SendAccount, acc'.last = some (d.attempts, .unknown) →
      acc'.failures = acc.failures → LeadsToStatus m d .outcomeUnknown acc' := by
    intro acc' hlast' hfail'
    refine ⟨by decide, ⟨_, hlast', by decide, fun _ => rfl⟩, fun hm => ?_⟩
    show min d.attempts m.maxAttempts ≤ acc'.failures + 1
    rw [hfail', hd]
    exact hdue.failed hm
  have hfail : ∀ acc' : SendAccount, acc'.last = some (d.attempts, .failed) →
      acc'.failures = acc.failures + 1 → LeadsToStatus m d .failed acc' := by
    intro acc' hlast' hfail'
    refine ⟨by decide, ⟨_, hlast', by decide, by decide⟩, fun hm => ?_⟩
    show min d.attempts m.maxAttempts ≤ acc'.failures
    rw [hfail', hd]
    exact hdue.failed hm
  have hland : ∀ acc' : SendAccount, acc'.last = some (d.attempts, .landed) →
      LeadsToStatus m d .delivered acc' :=
    fun acc' hlast' => ⟨by decide, ⟨_, hlast', by decide, by decide⟩, fun _ => trivial⟩
  unfold CourierProg.afterSend
  cases result with
  | error e =>
    exact keepsAccounts_moves hkey hfly hd h rfl (by decide) (by decide) (hpark _ hlast hfailures)
      .inl (fun _ => .inl rfl)
  | ok outcome =>
    dsimp only
    cases hdelivered : outcome.delivered with
    | true =>
      have hend : sendEnd (.ok outcome) = .landed := by simp [sendEnd, hdelivered]
      rw [hend] at h hlast
      exact keepsAccounts_moves hkey hfly hd h rfl (by decide) (by decide) (hland _ hlast)
        .inl (fun _ => .inl rfl)
    | false =>
      cases hunknown : outcome.outcomeUnknown with
      | true =>
        have hend : sendEnd (.ok outcome) = .unknown := by simp [sendEnd, hdelivered, hunknown]
        rw [hend] at h hlast hfailures
        refine Prog.Safe.bind (keepsAccounts_reconcile h hkey
          (agrees_flying rfl hkey hfly trivial) (fun verdict => agrees_flying rfl hkey hfly trivial)) ?_ ?_
        · rintro verdict s' hheld
          have hset := settled_last hlast verdict
          cases verdict with
          | delivered =>
            exact keepsAccounts_moves hkey hfly hd hheld rfl (by decide) (by decide)
              (hland _ (congrArg SendAccount.last hset)) .inl (fun _ => .inl rfl)
          | notDelivered =>
            refine keepsAccounts_moves hkey hfly hd hheld rfl (by decide) (by decide)
              (hfail _ (congrArg SendAccount.last hset) ?_) .inr (fun _ => .inr ⟨rfl, .inl rfl⟩)
            exact (congrArg SendAccount.failures hset).trans (congrArg (· + 1) hfailures)
          | unknown =>
            exact keepsAccounts_moves hkey hfly hd hheld rfl (by decide) (by decide)
              (hpark _ ((congrArg SendAccount.last hset).trans hlast)
                ((congrArg SendAccount.failures hset).trans hfailures)) .inl (fun _ => .inl rfl)
        · rintro e s' ⟨htorn, rfl⟩
          exact h.inv id (agrees_flying rfl hkey hfly htorn)
      | false =>
        cases hrate : outcome.rateLimited with
        | true =>
          have hend : sendEnd (.ok outcome) = .limited := by
            simp [sendEnd, hdelivered, hunknown, hrate]
          rw [hend] at h hlast hfailures hlimited
          refine keepsAccounts_moves hkey hfly hd h rfl (by decide) (by decide) ?_
            .inr (fun _ => .inr ⟨rfl, .inr rfl⟩)
          refine ⟨by decide, ⟨_, hlast, by decide, by decide⟩, fun hm => ?_⟩
          show m.maxAttempts ≤ d.attempts ∧ m.maxAttempts ≤ _ + 1
          rw [hfailures, hd]
          refine hdue.limited hm (fun hearly => hlimited hm ?_ rfl)
          rw [hd]
          exact hearly
        | false =>
          have hend : sendEnd (.ok outcome) = .failed := by
            simp [sendEnd, hdelivered, hunknown, hrate]
          rw [hend] at h hlast hfailures
          exact keepsAccounts_moves hkey hfly hd h rfl (by decide) (by decide)
            (hfail _ hlast hfailures) .inr (fun _ => .inr ⟨rfl, .inl rfl⟩)

/-! ## The loop -/

/-- After a send that came to `result`, or ended the call. -/
def SendConcluded (m : CourierRules) (key : DeliveryKey) (d : ReplyDelivery) (n : ℕ)
    (acc : SendAccount) :
    Except PyException (Except PyException ChannelTransportOutcome) → CourierState → Prop
  | .ok result, s =>
    HoldingDelivery m key ⟨some d, List.range' 1 n, List.range' 1 d.attempts,
      acc.sent d.attempts (sendEnd result)⟩ s
      ∧ (m.failuresOnly → d.attempts < m.maxAttempts → sendEnd result ≠ .limited)
  | .error _, s => AtEase m s

/-- **`send`**, of a delivery in flight. -/
theorem keepsAccounts_send {acc : SendAccount} {n : ℕ} (hkey : d.key = key)
    (hfly : d.status = .inFlight) (hd : d.attempts = n + 1)
    (h : HoldingDelivery m key ⟨some d, List.range' 1 n, List.range' 1 n, acc⟩ s) :
    KeepsAccounts m call ((CourierOp.ask (.send d d.attempts)).capture
      (fun e => if e.isException then some e else none)) (SendConcluded m key d n acc) s := by
  refine (Prog.safe_capture _ _ _ _).mpr (keepsAccounts_ask h (fun c r s' hallow hh => ?_))
  obtain ⟨rfl, rfl⟩ := Prod.mk.inj (Option.some.inj hh)
  have hothers : ∀ k, k ≠ key → (s.note (.sent d.key d.attempts c.result)).view k = s.view k := by
    intro k hk
    rw [CourierState.view_note]
    simp [CourierState.view, CourierEvent.sendOf, SendAccount.after, hkey, hk.symm]
  have hnumbers : List.range' 1 n ++ [d.attempts] = List.range' 1 d.attempts := by
    rw [hd, List.range'_concat, Nat.one_mul, Nat.add_comm 1 n]
  have hself : (s.note (.sent d.key d.attempts c.result)).view key
      = ⟨some d, List.range' 1 n, List.range' 1 d.attempts,
          acc.sent d.attempts (sendEnd c.result)⟩ := by
    have hview := h.view
    unfold CourierState.view at hview
    obtain ⟨hrow, hrec, hsends, hacc⟩ := DeliveryView.mk.inj hview
    rw [CourierState.view_note, hrow, hrec, hsends, hacc, ← hnumbers]
    simp [CourierEvent.sendOf, SendAccount.after, hkey]
  have hheld := h.to hothers hself
  refine ⟨_, hheld, hothers, agrees_flying rfl hkey hfly trivial, .of_row rfl List.prefix_rfl, ?_⟩
  cases hresult : c.result with
  | ok outcome =>
    rw [hresult] at hheld
    refine ⟨hheld, ?_⟩
    rw [← hresult]
    exact hallow.1
  | error e =>
    rw [hresult] at hheld
    by_cases he : e.isException = true
    · simp only [Prog.captured, he, if_true]
      exact ⟨hheld, fun _ _ => (by decide : SendEnd.unknown ≠ .limited)⟩
    · simp only [Prog.captured, if_neg he]
      -- What is no `Exception` interrupts the call.
      exact hheld.inv id (agrees_flying rfl hkey hfly (fun ho => he (hallow.2 ho e hresult)))

/-- **`claim_attempt`**, by the only worker: the attempt is claimed. -/
theorem keepsAccounts_claim (h : AtEase m s) (hhead : AtHead key d s) :
    KeepsAccounts m call (CourierOp.ask (.claimAttempt key d.status (d.attempts + 1)))
      (fun r s' => r = .ok (some (d.copy .inFlight (d.attempts + 1)))
        ∧ HoldingDelivery m key ⟨some (d.copy .inFlight (d.attempts + 1)), List.range' 1 d.attempts,
          List.range' 1 d.attempts, s.account key⟩ s') s := by
  obtain ⟨hrow, hstatus⟩ := hhead
  obtain ⟨hkey, hstored⟩ := h.stored hrow
  obtain ⟨hrec, hsends, -⟩ := hstored.accounted (by rcases hstatus with hs | hs | hs <;> simp [hs])
    (by rcases hstatus with hs | hs | hs <;> simp [hs])
  have hview : s.view key = ⟨some d, List.range' 1 d.attempts, List.range' 1 d.attempts,
      s.account key⟩ := by
    show (⟨s.rows.get key, s.recorded key, s.sends key, s.account key⟩ : DeliveryView) = _
    rw [hrow, show s.recorded key = _ from hrec, show s.sends key = _ from hsends]
  refine keepsAccounts_ask (h.holding key) (fun c r s' _ hh => ?_)
  simp only [courierHandler, hrow, ne_eq, not_true, if_false] at hh
  obtain ⟨rfl, rfl⟩ := Prod.mk.inj (Option.some.inj hh)
  have hothers : ∀ k, k ≠ key →
      ({ s with rows := s.rows.set key (d.copy .inFlight (d.attempts + 1)) } : CourierState).view k
        = s.view k := by
    intro k hk
    rw [CourierState.view_rows, if_neg hk]
  have hself : ({ s with rows := s.rows.set key (d.copy .inFlight (d.attempts + 1)) } :
      CourierState).view key = ⟨some (d.copy .inFlight (d.attempts + 1)),
        List.range' 1 d.attempts, List.range' 1 d.attempts, s.account key⟩ := by
    rw [CourierState.view_rows, if_pos rfl, hview]
  have hheld := (h.holding key).to hothers hself
  refine ⟨_, hheld, hothers, agrees_flying (d := d.copy .inFlight (d.attempts + 1)) rfl hkey rfl
    trivial, ?_, rfl, hheld⟩
  refine .of_write rfl (fun d₀ hd₀ => ?_) hrec.symm (by simp [ReplyDelivery.copy])
  rw [hview] at hd₀
  obtain rfl := Option.some.inj hd₀
  exact ⟨rfl, Nat.le_succ _⟩

/-- **A dead letter**: what is counted has used up the budget. -/
theorem keepsAccounts_bury {budget : ℕ} (h : AtEase m s) (hhead : AtHead key d s)
    (hbudget : call.isDefault = true → budget = m.maxAttempts)
    (hspent : budget ≤ d.attempts ∧ d.status ≠ .rateLimited) :
    KeepsAccounts m call (CourierProg.transition d .deadLetter none)
      (fun _ s' => AtEase m s') s := by
  obtain ⟨hrow, hstatus⟩ := hhead
  obtain ⟨rfl, hstored⟩ := h.stored hrow
  obtain ⟨hrec, hsends, hacc⟩ := hstored.accounted
    (by rcases hstatus with hs | hs | hs <;> simp [hs])
    (by rcases hstatus with hs | hs | hs <;> simp [hs])
  have hnotqueued : (d.copy .deadLetter d.attempts).status ≠ .queued := by
    simp [ReplyDelivery.copy]
  refine Prog.Safe.bind (Q := fun _ s' => AtEase m s') ?_ (fun _ _ hs => hs) (fun _ _ hs => hs)
  refine keepsAccounts_save (d := d.copy .deadLetter d.attempts) (h.holding d.key) ?_ ?_
    (fun s' hs _ => hs)
  · intro v' hrow' hrec' hacc'
    refine ⟨fun d₀ hd₀ => ⟨_, hrow', ?_⟩, hrec' ▸ List.prefix_rfl, fun hm hdefault _ _ => ?_⟩
    · rw [show (s.view d.key).row = some d from hrow] at hd₀
      obtain rfl := Option.some.inj hd₀
      exact ⟨rfl, Nat.le_refl _⟩
    · rw [hacc', if_neg hnotqueued]
      have hcovered := hacc.covered hm
      unfold AttemptsCovered at hcovered
      rw [hbudget hdefault] at hspent
      rcases hstatus with hs | hs | hs
      · rw [hs, Nat.min_eq_right hspent.1] at hcovered
        exact hcovered
      · rw [hs, Nat.min_eq_right hspent.1] at hcovered
        exact hcovered
      · exact absurd hs hspent.2
  · rw [if_neg hnotqueued]
    refine ⟨rfl, .inr ⟨hrec, hsends, .inl ⟨by simp [ReplyDelivery.copy], by simp [ReplyDelivery.copy],
      ?_, fun _ => trivial⟩⟩⟩
    -- What was not delivered before is not delivered as a dead letter.
    refine iff_of_false (by simp [ReplyDelivery.copy]) (fun hconf => ?_)
    have hdelivered := hacc.confirmed.mpr hconf
    rcases hstatus with hs | hs | hs <;> rw [hs] at hdelivered <;> cases hdelivered

/-- The pause before another attempt. -/
theorem keepsAccounts_sleep {p : CourierProg ReplyDelivery} {attempts : ℕ}
    {Q : Except PyException ReplyDelivery → CourierState → Prop} (h : AtEase m s)
    (hp : KeepsAccounts m call p Q s) :
    KeepsAccounts m call (if 0 < attempts then
      (CourierOp.ask (.sleep attempts)).bind (fun _ => p) else p) Q s := by
  split
  · refine Prog.Safe.bind (Q := fun r s' => s' = s ∧ r = .ok ()) ?_ ?_ ?_
    · refine keepsAccounts_look (h.mono (fun _ => trivial)) (fun c r s' hh => ?_)
      obtain ⟨rfl, rfl⟩ := Prod.mk.inj (Option.some.inj hh)
      exact ⟨rfl, rfl, rfl⟩
    · rintro - _ ⟨rfl, -⟩
      exact hp
    · rintro e _ ⟨-, he⟩
      cases he
  · exact hp

/-- **The loop of `run`**, by induction on the turns. -/
theorem keepsAccounts_runLoop {budget turns : ℕ}
    (hbudget : call.isDefault = true → budget = m.maxAttempts) (h : AtEase m s)
    (hhead : AtHead key d s) :
    KeepsAccounts m call (CourierProg.runLoop budget key turns d) (fun _ s' => AtEase m s') s := by
  induction turns generalizing d s with
  | zero => exact h
  | succ turns ih =>
    unfold CourierProg.runLoop
    by_cases hspent : budget ≤ d.attempts ∧ d.status ≠ .rateLimited
    · rw [if_pos hspent]
      exact keepsAccounts_bury h hhead hbudget hspent
    · rw [if_neg hspent]
      have hstored := (h.stored hhead.1).2.accounted
        (by rcases hhead.2 with hs | hs | hs <;> simp [hs])
        (by rcases hhead.2 with hs | hs | hs <;> simp [hs])
      have hdue := hstored.2.2.due hhead.2
      refine keepsAccounts_sleep h ?_
      refine Prog.Safe.bind (keepsAccounts_claim h hhead) ?_ ?_
      · rintro _ s' ⟨hclaimed, hheld⟩
        obtain rfl := Except.ok.inj hclaimed
        refine Prog.Safe.bind (keepsAccounts_send (h.stored hhead.1).1 rfl rfl hheld) ?_ ?_
        · rintro result s'' ⟨hsent, hlimited⟩
          refine Prog.Safe.bind (keepsAccounts_afterSend (h.stored hhead.1).1 rfl rfl hsent hdue
            hlimited) ?_ ?_
          · rintro (ended | next) s₃ hafter
            · exact hafter
            · exact ih hafter.1 hafter.2
          · exact fun _ _ hs => hs
        · exact fun _ _ hs => hs
      · rintro e s' ⟨he, -⟩
        cases he

/-! ## The calls -/

/-- **`_load`**, of a delivery that is there. -/
theorem keepsAccounts_load {α : Type} {f : ReplyDelivery → CourierProg α}
    {Q : Except PyException α → CourierState → Prop} (h : AtEase m s)
    (hf : ∀ d, s.rows.get key = some d → KeepsAccounts m call (f d) Q s)
    (hQ : ∀ e, Q (.error e) s) :
    KeepsAccounts m call ((CourierProg.load key).bind f) Q s := by
  refine Prog.Safe.bind (Q := fun r s' => s' = s ∧ ∀ d, r = .ok d → s.rows.get key = some d)
    ?_ ?_ ?_
  · refine Prog.Safe.bind (Q := fun r s' => s' = s ∧ r = .ok (s.rows.get key)) ?_ ?_ ?_
    · refine keepsAccounts_look (h.mono (fun _ => trivial)) (fun c r s' hh => ?_)
      obtain ⟨rfl, rfl⟩ := Prod.mk.inj (Option.some.inj hh)
      exact ⟨rfl, rfl, rfl⟩
    · rintro _ s' ⟨rfl, hfound⟩
      obtain rfl := Except.ok.inj hfound
      cases hrow : s'.rows.get key with
      | none => exact ⟨rfl, fun d hd => nomatch hd⟩
      | some d =>
        exact ⟨rfl, fun d' hd' => congrArg some (Except.ok.inj hd')⟩
    · rintro e s' ⟨-, he⟩
      cases he
  · rintro d s' ⟨rfl, hrow⟩
    exact hf d (hrow d rfl)
  · rintro e s' ⟨rfl, -⟩
    exact hQ e

/-- A parked delivery, whether or not a verdict on it was lost. -/
theorem StoredOk.parked (h : StoredOk m (¬ m.orderly) d v) (hstatus : d.status = .outcomeUnknown) :
    v.recorded = List.range' 1 d.attempts ∧ v.sends = List.range' 1 d.attempts
      ∧ ParkedAccount m d v.account := by
  obtain ⟨hrec, hsends, hacc | ⟨-, hpark⟩⟩ := h.calm (by rw [hstatus]; decide)
  · refine ⟨hrec, hsends, hstatus, _, hacc.parked hstatus, fun hm => ?_⟩
    have hcovered := hacc.covered hm
    unfold AttemptsCovered at hcovered
    rw [hstatus] at hcovered
    exact hcovered
  · exact ⟨hrec, hsends, hpark⟩

/-- What `_resume_reconciliation` leaves. -/
def Resumed (m : CourierRules) (key : DeliveryKey) :
    Except PyException ReplyDelivery → CourierState → Prop
  | .ok d, s => AtEase m s ∧ (d.status = .delivered ∨ d.status = .outcomeUnknown ∨ AtHead key d s)
  | .error _, s => AtEase m s

/-- **`_resume_reconciliation`**, of a parked delivery. -/
theorem keepsAccounts_resumeReconciliation (h : AtEase m s) (hrow : s.rows.get key = some d)
    (hstatus : d.status = .outcomeUnknown) :
    KeepsAccounts m call (CourierProg.resumeReconciliation d) (Resumed m key) s := by
  obtain ⟨hkey, hstored⟩ := h.stored hrow
  obtain ⟨hrec, hsends, -, ended, (hlast : (s.account key).last = _),
    (hcovered : _ → _ ≤ (s.account key).failures + _)⟩ := hstored.parked hstatus
  have hview : s.view key = ⟨some d, List.range' 1 d.attempts, List.range' 1 d.attempts,
      s.account key⟩ := by
    show (⟨s.rows.get key, s.recorded key, s.sends key, s.account key⟩ : DeliveryView) = _
    rw [hrow, show s.recorded key = _ from hrec, show s.sends key = _ from hsends]
  have hheld : HoldingDelivery m key ⟨some d, List.range' 1 d.attempts, List.range' 1 d.attempts,
      s.account key⟩ s := ⟨fun k _ => h k, hview⟩
  -- A verdict that is not stored leaves the delivery parked.
  have hfailed : (s.account key).settled d.attempts .notDelivered = ⟨some (d.attempts, .failed),
      if ended = .failed then (s.account key).failures else (s.account key).failures + 1⟩ :=
    settled_last hlast .notDelivered
  have hcount : m.failuresOnly → min d.attempts m.maxAttempts
      ≤ if ended = .failed then (s.account key).failures else (s.account key).failures + 1 := by
    intro hm
    have hle := hcovered hm
    split at hle <;> rename_i he
    · rw [if_pos he]; exact hle
    · rw [if_neg he]; exact hle
  have hlanded : (s.account key).settled d.attempts .delivered = ⟨some (d.attempts, .landed),
      if ended = .failed then (s.account key).failures - 1 else (s.account key).failures⟩ :=
    settled_last hlast .delivered
  have hparked : ∀ verdict, ParkedAccount m d ((s.account key).settled d.attempts verdict) := by
    intro verdict
    refine ⟨hstatus, ?_⟩
    cases verdict with
    | delivered =>
      rw [hlanded]
      refine ⟨_, rfl, fun hm => ?_⟩
      have hle := hcovered hm
      dsimp only
      rw [if_neg (by decide : SendEnd.landed ≠ .failed)]
      by_cases hended : ended = .failed
      · rw [if_pos hended] at hle ⊢
        omega
      · rw [if_neg hended] at hle ⊢
        exact hle
    | notDelivered =>
      rw [hfailed]
      exact ⟨_, rfl, fun hm => (hcount hm).trans (Nat.le_add_right _ _)⟩
    | unknown => exact ⟨ended, (congrArg _ (settled_last hlast .unknown)).trans hlast, fun hm => by
        rw [show (s.account key).settled d.attempts .unknown = s.account key from
          settled_last hlast .unknown]
        exact hcovered hm⟩
  unfold CourierProg.resumeReconciliation
  refine Prog.Safe.bind (keepsAccounts_reconcile hheld hkey (hview ▸ (h key).mono (fun _ => trivial))
    (fun verdict => ⟨hkey, .inr ⟨rfl, rfl, .inr ⟨trivial, hparked verdict⟩⟩⟩)) ?_ ?_
  · intro verdict s' hs'
    cases verdict with
    | delivered =>
      refine keepsAccounts_transition hs' rfl hkey rfl (by decide) (by decide) rfl rfl ?_
        (fun s₂ hs₂ _ => ⟨hs₂, .inl rfl⟩)
      refine LeadsToStatus.accounted ⟨by decide, ⟨_, congrArg SendAccount.last hlanded, by decide,
        by decide⟩, fun _ => trivial⟩
    | notDelivered =>
      refine keepsAccounts_transition hs' rfl hkey rfl (by decide) (by decide) rfl rfl ?_
        (fun s₂ hs₂ hget => ⟨hs₂, .inr (.inr ⟨hget, .inr (.inl rfl)⟩)⟩)
      refine LeadsToStatus.accounted ⟨by decide, ⟨_, congrArg SendAccount.last hfailed, by decide,
        by decide⟩, fun hm => ?_⟩
      show min d.attempts m.maxAttempts ≤ ((s.account key).settled d.attempts .notDelivered).failures
      rw [hfailed]
      exact hcount hm
    | unknown =>
      have hsame : (s.account key).settled d.attempts .unknown = s.account key :=
        settled_last hlast .unknown
      refine ⟨hs'.inv id ?_, .inr (.inl hstatus)⟩
      show DeliveryView.Agrees m _ key ⟨some d, List.range' 1 d.attempts, List.range' 1 d.attempts,
        (s.account key).settled d.attempts .unknown⟩
      rw [hsame, ← hview]
      exact h key
  · rintro e s' ⟨-, rfl⟩
    exact h

/-- **`run`**, of a delivery that is not left in flight. -/
theorem keepsAccounts_run {budget turns : ℕ}
    (hbudget : call.isDefault = true → budget = m.maxAttempts) (h : AtEase m s)
    (hcalm : ∀ d, s.rows.get key = some d → d.status ≠ .inFlight) :
    KeepsAccounts m call (CourierProg.run budget turns key) (fun _ s' => AtEase m s') s := by
  unfold CourierProg.run
  refine keepsAccounts_load h (fun d hrow => ?_) (fun _ => h)
  by_cases hterminal : d.status.isTerminal = true
  · rw [if_pos hterminal]
    exact h
  · rw [if_neg hterminal]
    by_cases hunknown : d.status = .outcomeUnknown
    · rw [if_pos hunknown]
      refine Prog.Safe.bind (keepsAccounts_resumeReconciliation h hrow hunknown) ?_ (fun _ _ hs => hs)
      rintro d' s' ⟨hs', hd'⟩
      by_cases hends : d'.status.isTerminal = true ∨ d'.status = .outcomeUnknown
      · rw [if_pos hends]
        exact hs'
      · rw [if_neg hends]
        rcases hd' with hd' | hd' | hhead
        · exact absurd (.inl (by rw [hd']; rfl)) hends
        · exact absurd (.inr hd') hends
        · exact keepsAccounts_runLoop hbudget hs' hhead
    · rw [if_neg hunknown]
      refine keepsAccounts_runLoop hbudget h ⟨hrow, ?_⟩
      have hfly := hcalm d hrow
      cases hstatus : d.status with
      | queued => exact .inl rfl
      | failed => exact .inr (.inl rfl)
      | rateLimited => exact .inr (.inr rfl)
      | inFlight => exact absurd hstatus hfly
      | outcomeUnknown => exact absurd hstatus hunknown
      | delivered => exact absurd (by rw [hstatus]; rfl) hterminal
      | deadLetter => exact absurd (by rw [hstatus]; rfl) hterminal

/-- **A delivery becomes `QUEUED` again**, in a run where other things than failures
count. -/
theorem keepsAccounts_requeue (d' : ReplyDelivery) (h : AtEase m s) (hm : ¬ m.failuresOnly)
    (hrow : s.rows.get d.key = some d) (hcalm : d.status ≠ .inFlight)
    (hpark : d.status ≠ .outcomeUnknown) (hkey : d'.key = d.key) (hattempts : d'.attempts = d.attempts)
    (hqueued : d'.status = .queued) {Q : Except PyException Unit → CourierState → Prop}
    (hQ : ∀ s', AtEase m s' → s'.rows.get d.key = some d' → Q (.ok ()) s') :
    KeepsAccounts m call (CourierOp.ask (.saveDelivery d')) Q s := by
  obtain ⟨-, hstored⟩ := h.stored hrow
  obtain ⟨hrec, hsends, -⟩ := hstored.accounted hcalm hpark
  rw [← hkey] at hrow hrec hsends hQ
  refine keepsAccounts_save (h.holding d'.key) ?_ ?_ hQ
  · intro v' hrow' hrec' _
    refine .of_write hrow' (fun d₀ hd₀ => ?_) hrec' (by rw [hqueued]; decide)
    rw [show (s.view d'.key).row = some d from hrow] at hd₀
    obtain rfl := Option.some.inj hd₀
    exact ⟨hkey, hattempts.ge⟩
  · rw [if_pos hqueued]
    refine ⟨rfl, .inr ⟨hattempts ▸ hrec, hattempts ▸ hsends, .inl ⟨?_, ?_, ?_, fun hf => (hm hf).elim⟩⟩⟩
    · rw [hqueued]; decide
    · rw [hqueued]; intro hs; cases hs
    · rw [hqueued]
      exact iff_of_false (by decide) (fun hconf => by obtain ⟨n, hn⟩ := hconf; cases hn)

/-- **`replay`.** -/
theorem keepsAccounts_replay {turns : ℕ} (h : AtEase m s) (hm : ¬ m.failuresOnly)
    (hcall : call.isDefault = false) :
    KeepsAccounts m call (CourierProg.replay turns key) (fun _ s' => AtEase m s') s := by
  unfold CourierProg.replay
  refine keepsAccounts_load h (fun d hrow => ?_) (fun _ => h)
  by_cases hdead : d.status ≠ .deadLetter
  · rw [if_pos hdead]
    exact h
  · rw [if_neg hdead]
    have hstatus := not_not.mp hdead
    obtain ⟨rfl, -⟩ := h.stored hrow
    refine Prog.Safe.bind (Q := fun r s' => r = .ok (d.copy .queued d.attempts) ∧ AtEase m s'
      ∧ s'.rows.get d.key = some (d.copy .queued d.attempts)) ?_ ?_ ?_
    · refine Prog.Safe.bind (Q := fun r s' => r = .ok () ∧ AtEase m s'
        ∧ s'.rows.get d.key = some (d.copy .queued d.attempts)) ?_ ?_ ?_
      · exact keepsAccounts_requeue (d.copy .queued d.attempts) h hm hrow
          (by rw [hstatus]; decide) (by rw [hstatus]; decide) rfl rfl rfl
          (fun s' hs' hget => ⟨rfl, hs', hget⟩)
      · rintro u s' ⟨-, hs'⟩
        exact ⟨rfl, hs'⟩
      · rintro e s' ⟨he, -⟩
        cases he
    · rintro _ s' ⟨-, hs', hget⟩
      refine keepsAccounts_run (fun hdefault => ?_) hs' (fun d' hd' => ?_)
      · rw [hcall] at hdefault
        cases hdefault
      · rw [hget] at hd'
        obtain rfl := Option.some.inj hd'
        simp [ReplyDelivery.copy]
    · rintro e s' ⟨he, -⟩
      cases he

/-- **`update`.** -/
theorem keepsAccounts_update {content : Text} (h : AtEase m s)
    (haccept : m.failuresOnly → ∀ d, s.rows.get key = some d → d.status ≠ .delivered) :
    KeepsAccounts m call (CourierProg.update key content) (fun _ s' => AtEase m s') s := by
  unfold CourierProg.update
  refine keepsAccounts_load h (fun d hrow => ?_) (fun _ => h)
  by_cases hdelivered : d.status ≠ .delivered
  · rw [if_pos hdelivered]
    exact h
  · rw [if_neg hdelivered]
    have hstatus := not_not.mp hdelivered
    obtain ⟨rfl, -⟩ := h.stored hrow
    refine Prog.Safe.bind (Q := fun _ s' => AtEase m s') ?_ (fun _ _ hs' => hs') (fun _ _ hs' => hs')
    exact keepsAccounts_requeue (Q := fun _ s' => AtEase m s') (d.requeued content) h
      (fun hm => haccept hm d hrow hstatus) hrow
      (by rw [hstatus]; decide) (by rw [hstatus]; decide) rfl rfl rfl (fun s' hs' _ => hs')

/-- **A new delivery.** -/
theorem keepsAccounts_saveNew (h : AtEase m s) (hnew : s.rows.get d.key = none)
    (hqueued : d.status = .queued) (hattempts : d.attempts = 0)
    {Q : Except PyException Unit → CourierState → Prop} (hQ : ∀ s', AtEase m s' → Q (.ok ()) s') :
    KeepsAccounts m call (CourierOp.ask (.saveDelivery d)) Q s := by
  have hnone : (s.view d.key).recorded = [] ∧ (s.view d.key).sends = [] := by
    have hagrees := h d.key
    unfold DeliveryView.Agrees at hagrees
    rw [show (s.view d.key).row = none from hnew] at hagrees
    exact hagrees
  refine keepsAccounts_save (h.holding d.key) ?_ ?_ (fun s' hs' _ => hQ s' hs')
  · intro v' hrow' hrec' _
    refine .of_write hrow' (fun d₀ hd₀ => ?_) hrec' (by rw [hqueued]; decide)
    rw [show (s.view d.key).row = none from hnew] at hd₀
    cases hd₀
  · rw [if_pos hqueued]
    refine ⟨rfl, .inr ⟨?_, ?_, .inl ⟨?_, ?_, ?_, fun _ => ?_⟩⟩⟩
    · rw [hattempts]; exact hnone.1
    · rw [hattempts]; exact hnone.2
    · rw [hqueued]; decide
    · rw [hqueued]; intro hs; cases hs
    · rw [hqueued]
      exact iff_of_false (by decide) (fun hconf => by obtain ⟨n, hn⟩ := hconf; cases hn)
    · unfold AttemptsCovered
      rw [hqueued, hattempts]
      exact Nat.zero_le _

/-- A new delivery is stored, when it is valid. -/
theorem keepsAccounts_store (h : AtEase m s) (hnew : s.rows.get d.key = none)
    (hqueued : d.status = .queued) (hattempts : d.attempts = 0) :
    KeepsAccounts m call (if d.isValid then
        (CourierOp.ask (.saveDelivery d)).bind (fun _ => .ret d)
      else .raise validationError) (fun _ s' => AtEase m s') s := by
  split
  · refine Prog.Safe.bind (Q := fun _ s' => AtEase m s') ?_ (fun _ _ hs' => hs')
      (fun _ _ hs' => hs')
    exact keepsAccounts_saveNew (Q := fun _ s' => AtEase m s') h hnew hqueued hattempts
      (fun s' hs' => hs')
  · exact h

/-- The delivery that is there already, if the caller has named it. -/
theorem keepsAccounts_existing {tenantId stableId : String} {deliveryId : Option String}
    (h : AtEase m s) (hnew : deliveryId = none → s.rows.get (tenantId, stableId) = none)
    {f : Option ReplyDelivery → CourierProg ReplyDelivery}
    (hf : ∀ existing, (existing = none → s.rows.get (tenantId, stableId) = none) →
      KeepsAccounts m call (f existing) (fun _ s' => AtEase m s') s) :
    KeepsAccounts m call (match deliveryId with
      | some _ => (CourierOp.ask (.getDelivery (tenantId, stableId))).bind f
      | none => f none) (fun _ s' => AtEase m s') s := by
  cases deliveryId with
  | none => exact hf none (fun _ => hnew rfl)
  | some id =>
    refine Prog.Safe.bind (Q := fun r s' => s' = s ∧ r = .ok (s.rows.get (tenantId, stableId)))
      ?_ ?_ ?_
    · refine keepsAccounts_look (h.mono (fun _ => trivial)) (fun c r s' hh => ?_)
      obtain ⟨rfl, rfl⟩ := Prod.mk.inj (Option.some.inj hh)
      exact ⟨rfl, rfl, rfl⟩
    · rintro existing _ ⟨rfl, hfound⟩
      obtain rfl := Except.ok.inj hfound
      exact hf _ (fun hnone => hnone)
    · rintro e _ ⟨rfl, -⟩
      exact h

/-- **`enqueue`.** -/
theorem keepsAccounts_enqueue {tenantId bindingId executionId : String}
    {externalConversationId content : Text} {deliveryId : Option String} (h : AtEase m s) :
    KeepsAccounts m call (CourierProg.enqueue tenantId bindingId executionId externalConversationId
      content deliveryId) (fun _ s' => AtEase m s') s := by
  unfold CourierProg.enqueue
  dsimp only
  cases hid : deliveryId.filter (fun id => id ≠ "") with
  | some id =>
    refine keepsAccounts_existing h ?_ (fun existing hnone => ?_)
    · rintro rfl
      cases hid
    · cases existing with
      | some delivery => exact h
      | none =>
        exact keepsAccounts_store (d := ⟨tenantId, id, bindingId, executionId,
          externalConversationId, content, .queued, 0⟩) h (hnone rfl) rfl rfl
  | none =>
    refine Prog.Safe.bind (Q := fun r s' => s' = s ∧ ∃ id, r = .ok id
      ∧ s.rows.get (tenantId, id) = none) ?_ ?_ ?_
    · refine keepsAccounts_look (h.mono (fun _ => trivial)) (fun c r s' hh => ?_)
      obtain ⟨rfl, rfl, hnew⟩ := uuid4_answer hh
      exact ⟨rfl, rfl, _, rfl, hnew tenantId⟩
    · rintro stableId _ ⟨rfl, id, hid', hnew⟩
      obtain rfl := Except.ok.inj hid'
      refine keepsAccounts_existing h (fun _ => hnew) (fun existing hnone => ?_)
      cases existing with
      | some delivery => exact h
      | none =>
        exact keepsAccounts_store (d := ⟨tenantId, stableId, bindingId, executionId,
          externalConversationId, content, .queued, 0⟩) h (hnone rfl) rfl rfl
    · rintro e _ ⟨rfl, -⟩
      exact h

/-- **Every call keeps the accounts**, in the runs that resume nothing by mistake. -/
theorem keepsAccounts_body (hm : m.failuresOnly ∨ m.orderly) (h : AtEase m s)
    (haccept : m.accept s call) :
    KeepsAccounts m call (call.body m.maxAttempts) (fun _ s' => AtEase m s') s := by
  cases call with
  | enqueue => exact keepsAccounts_enqueue h
  | run maxAttempts turns key =>
    refine keepsAccounts_run (fun hdefault => ?_) h (fun d hrow hfly => ?_)
    · cases maxAttempts with
      | none => rfl
      | some budget => cases hdefault
    · rcases hm with hm | hm
      · exact haccept hm d hrow hfly
      · rcases (h.stored hrow).2 with ⟨htorn, -⟩ | ⟨-, -, hacc | ⟨htorn, -⟩⟩
        · exact htorn hm
        · exact hacc.calm hfly
        · exact htorn hm
  | replay turns key => exact keepsAccounts_replay h (fun hf => haccept hf) rfl
  | update key content =>
    exact keepsAccounts_update h (fun hf d hrow => haccept hf d hrow)

/-- **The worker keeps the accounts.** Calls may be interrupted where the run need
not be orderly. -/
theorem courier_keeps (m : CourierRules) (hm : m.failuresOnly ∨ m.orderly) :
    (courier m.maxAttempts).Keeps m.accept m.allow (¬ m.orderly) (AtEase m) (CourierInv m True)
      (CourierStep m) where
  torn_of_idle := fun _ h => h.mono (fun _ => trivial)
  stop := fun hstop _ h => h.mono (fun _ => hstop)
  body := fun _ _ haccept h => keepsAccounts_body hm h haccept

theorem empty_atEase (m : CourierRules) : AtEase m .empty := fun _ => ⟨rfl, rfl⟩

end Calls
