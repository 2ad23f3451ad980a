import AgentPlatform.DeliveryAccounts

/-!
# What the counter of attempts says

`attempts_in_order` holds of every history that is not interrupted: attempts are
numbered as they are sent, through updates and replays, and a delivery is
`DELIVERED` just when its last send was confirmed.

The same counter is compared with the budget of failures, and there it says too
much: it counts sends that were rate limited, sends of earlier representations and
sends that were interrupted. `dead_letter_exhausted` says that nothing else is
wrong with it.
-/

instance (m : CourierRules) [Decidable m.failuresOnly] (s : CourierState) (call : CourierCall) :
    Decidable (m.accept s call) :=
  match call with
  | .enqueue .. => isTrue (fun _ => trivial)
  | .run _ _ key =>
    inferInstanceAs (Decidable (m.failuresOnly → ∀ d ∈ s.rows.get key, d.status ≠ .inFlight))
  | .replay .. => inferInstanceAs (Decidable (m.failuresOnly → False))
  | .update key _ =>
    inferInstanceAs (Decidable (m.failuresOnly → ∀ d ∈ s.rows.get key, d.status ≠ .delivered))

/-- An outcome that is an `Exception`, if it is none. -/
def CourierChoice.raisesException (c : CourierChoice) : Bool :=
  match c.result with
  | .ok _ => true
  | .error e => e.isException

theorem raisesException_iff (c : CourierChoice) :
    c.raisesException = true ↔ ∀ e, c.result = .error e → e.isException = true := by
  unfold CourierChoice.raisesException
  cases c.result with
  | ok outcome => exact ⟨(fun _ e he => nomatch he), fun _ => rfl⟩
  | error e => exact ⟨fun he e' h => Except.error.inj h ▸ he, fun h => h e rfl⟩

instance (m : CourierRules) [Decidable m.failuresOnly] [Decidable m.orderly] (c : CourierChoice)
    (op : CourierOp) (s : CourierState) : Decidable (m.allow c op s) :=
  match op with
  | .send _ attemptNo => decidable_of_iff
      ((m.failuresOnly → attemptNo < m.maxAttempts → sendEnd c.result ≠ .limited)
        ∧ (m.orderly → c.raisesException = true))
      (and_congr_right (fun _ => imp_congr_right (fun _ => raisesException_iff c)))
  | .reconcile .. =>
    match hverdict : c.verdict with
    | .ok verdict => isTrue (fun _ => ⟨verdict, hverdict⟩)
    | .error e => decidable_of_iff (¬ m.orderly)
        ⟨fun hno hm => absurd hm hno, fun h hm => by
          obtain ⟨verdict, hok⟩ := h hm
          cases hverdict.symm.trans hok⟩
  | .getDelivery _ | .saveDelivery _ | .claimAttempt .. | .saveAttempt _ | .uuid4 | .sleep _ =>
    isTrue trivial

/-- **The steps a run is held to.** -/
def CourierRules.steps (m : CourierRules) : CourierWorker → CourierLabel → Prop :=
  SoleCaller.stepOk m.accept m.allow (¬ m.orderly)

instance (m : CourierRules) [Decidable m.failuresOnly] [Decidable m.orderly] (w : CourierWorker)
    (l : CourierLabel) : Decidable (m.steps w l) :=
  inferInstanceAs (Decidable (SoleCaller.stepOk m.accept m.allow (¬ m.orderly) w l))

/-- The histories of a worker, from an empty store. -/
abbrev courierMachine (maxAttempts : ℕ) : Machine CourierWorker CourierLabel :=
  (courier maxAttempts).machine (fun s => s = .empty)

/-! ### A worker with one delivery -/

/-- The delivery of the runs below. -/
def sampleDeliveryKey : DeliveryKey := ("t", "d")

/-- It is enqueued, and a worker loads it for a `run`. -/
def enqueueAndLoad : List CourierLabel :=
  [.call (.enqueue "t" "b" "e" "u".toList "hello".toList (some "d")), .act {}, .act {},
    .call (.run none 9 sampleDeliveryKey), .act {}]

/-- One turn of the loop, with what `send` comes to. -/
def turnOf (pause : Bool) (outcome : ChannelTransportOutcome) : List CourierLabel :=
  List.replicate (if pause then 2 else 1) (.act {})
    ++ [.act { result := .ok outcome }, .act {}, .act {}, .act {}]

/-- Turn after turn. -/
def turnsOf : List ChannelTransportOutcome → List CourierLabel
  | [] => []
  | outcome :: rest => turnOf false outcome ++ rest.flatMap (turnOf true)

/-- The status of the sample delivery. -/
def deliveryIs (w : CourierWorker) (status : DeliveryState) : Bool :=
  (w.shared.rows.get sampleDeliveryKey).any (fun d => d.status = status)

/-! ## Attempts -/

/-- Histories without interruptions: `send` raises no more than an `Exception`, and
`reconcile` has a verdict. -/
def CourierRules.uninterrupted (maxAttempts : ℕ) : CourierRules := ⟨maxAttempts, False, True⟩

instance (maxAttempts : ℕ) : Decidable (CourierRules.uninterrupted maxAttempts).failuresOnly :=
  instDecidableFalse

instance (maxAttempts : ℕ) : Decidable (CourierRules.uninterrupted maxAttempts).orderly :=
  instDecidableTrue

/-- **Attempts in order.** In every history that is not interrupted, between two
calls: the attempts that are recorded and the sends of the transport are numbered
from one up to the count of the delivery, and the delivery is `DELIVERED` just when
the last send since it was `QUEUED` was confirmed. Whatever follows, the delivery
keeps its id and its attempts, and the numbers go on. -/
theorem attempts_in_order (maxAttempts : ℕ) {w w' : CourierWorker}
    (h : (courierMachine maxAttempts).Reach (CourierRules.uninterrupted maxAttempts).steps w)
    (hs : (courierMachine maxAttempts).Steps (CourierRules.uninterrupted maxAttempts).steps w w')
    (hrest : w.running = none) {key : DeliveryKey} {d : ReplyDelivery}
    (hrow : w.shared.rows.get key = some d) :
    d.key = key
      ∧ w.shared.recorded key = List.range' 1 d.attempts
      ∧ w.shared.sends key = List.range' 1 d.attempts
      ∧ (d.status = .delivered ↔ (w.shared.account key).Confirmed)
      ∧ ∃ d', w'.shared.rows.get key = some d' ∧ d'.deliveryId = d.deliveryId
          ∧ d.attempts ≤ d'.attempts ∧ w.shared.recorded key <+: w'.shared.recorded key := by
  let m := CourierRules.uninterrupted maxAttempts
  have hkeeps : (courier maxAttempts).Keeps m.accept m.allow (¬ m.orderly) (AtEase m)
      (CourierInv m True) (CourierStep m) := courier_keeps m (.inr trivial)
  have hstart : ∀ s, s = .empty → AtEase m s := by
    rintro s rfl
    exact empty_atEase m
  have hease : AtEase m w.shared := (hkeeps.reach hstart h).rest hrest
  obtain ⟨hkey, hstored⟩ := hease.stored hrow
  -- Nothing is torn in a run without interruptions.
  have hwhole : ∀ {P : Prop}, ¬ m.orderly ∧ P → False := fun hp => hp.1 trivial
  obtain ⟨hrec, hsends, hacc⟩ := hstored.resolve_left hwhole
  have hconfirmed := (hacc.resolve_right hwhole).confirmed
  have hgrow : ∀ k, (∀ d, w.shared.rows.get k = some d → ∃ d', w'.shared.rows.get k = some d'
        ∧ d'.key = d.key ∧ d.attempts ≤ d'.attempts)
      ∧ w.shared.recorded k <+: w'.shared.recorded k := by
    refine hkeeps.steps_rel hstart (T := fun a b => ∀ k, (∀ d, a.rows.get k = some d →
        ∃ d', b.rows.get k = some d' ∧ d'.key = d.key ∧ d.attempts ≤ d'.attempts)
      ∧ a.recorded k <+: b.recorded k) ?_ ?_ ?_ h hs
    · exact fun a k => ⟨fun d hd => ⟨d, hd, rfl, Nat.le_refl _⟩, List.prefix_rfl⟩
    · intro a b c hab hbc k
      refine ⟨fun d hd => ?_, (hab k).2.trans (hbc k).2⟩
      obtain ⟨d', hd', hk', hle'⟩ := (hab k).1 d hd
      obtain ⟨d'', hd'', hk'', hle''⟩ := (hbc k).1 d' hd'
      exact ⟨d'', hd'', hk''.trans hk', hle'.trans hle''⟩
    · exact fun call a b hg k => ⟨(hg k).kept, (hg k).recorded⟩
  obtain ⟨d', hd', hk', hle'⟩ := (hgrow key).1 d hrow
  exact ⟨hkey, hrec, hsends, hconfirmed, d', hd', congrArg Prod.snd hk', hle', (hgrow key).2⟩

/-- A delivery that lands, is updated, and lands at the second try, with its last
row. -/
theorem sample_update :
    ((courierMachine 5).runIf
      (fun w l => decide ((CourierRules.uninterrupted 5).steps w l)) ⟨.empty, none⟩
      (enqueueAndLoad ++ turnsOf [.landed])).bind (fun w =>
        ((courierMachine 5).runIf (fun w l => decide ((CourierRules.uninterrupted 5).steps w l)) w
          ([.call (.update sampleDeliveryKey "done".toList), .act {}, .act {},
            .call (.run none 9 sampleDeliveryKey), .act {}] ++ turnOf true (.failed "E")
            ++ turnOf true .landed)).map (fun w' => w.running.isNone && deliveryIs w .delivered
              && w'.shared.recorded sampleDeliveryKey = [1, 2, 3])) = some true := by
  decide +kernel

/-- The numbers go on through an update. -/
theorem attempts_in_order_updated :
    ∃ w w' d, (courierMachine 5).Reach (CourierRules.uninterrupted 5).steps w
      ∧ (courierMachine 5).Steps (CourierRules.uninterrupted 5).steps w w'
      ∧ w.shared.rows.get sampleDeliveryKey = some d ∧ w'.shared.recorded sampleDeliveryKey = [1, 2, 3]
      ∧ w.shared.recorded sampleDeliveryKey = List.range' 1 d.attempts
      ∧ w.shared.recorded sampleDeliveryKey <+: [1, 2, 3] := by
  obtain ⟨w, w', hreach, hs, htest⟩ := Machine.steps_of_runIf_runIf (M := courierMachine 5)
    (p := fun w w' => w.running.isNone && deliveryIs w .delivered
      && w'.shared.recorded sampleDeliveryKey = [1, 2, 3])
    (fun _ _ => of_decide_eq_true) ⟨rfl, rfl⟩ sample_update
  rw [Bool.and_eq_true, Bool.and_eq_true] at htest
  obtain ⟨⟨hrest, hdelivered⟩, hrecorded⟩ := htest
  have hrecorded := of_decide_eq_true hrecorded
  obtain ⟨d, hd, -⟩ := (Option.any_eq_true _ _).mp hdelivered
  obtain ⟨-, hnumbers, -, -, d', -, -, -, hfront⟩ :=
    attempts_in_order 5 hreach hs (Option.isNone_iff_eq_none.mp hrest) hd
  exact ⟨w, w', d, hreach, hs, hd, hrecorded, hnumbers, hrecorded ▸ hfront⟩

/-! ## Dead letters -/

/-- **A `run` with the budget of the service makes a delivery a dead letter.** -/
structure Buries (w w' : CourierWorker) (key : DeliveryKey) : Prop where
  call : ∃ call p, w.running = some (call, p) ∧ call.isDefault = true
  before : ∀ d, w.shared.rows.get key = some d → d.status ≠ .deadLetter
  after : ∃ d, w'.shared.rows.get key = some d ∧ d.status = .deadLetter

/-- Histories in which only failures count: no send with a number below the budget
is rate limited, no `DELIVERED` delivery is updated and none left `IN_FLIGHT` is run
again. Calls may be interrupted. -/
def CourierRules.failing (maxAttempts : ℕ) : CourierRules := ⟨maxAttempts, True, False⟩

instance (maxAttempts : ℕ) : Decidable (CourierRules.failing maxAttempts).failuresOnly :=
  instDecidableTrue

instance (maxAttempts : ℕ) : Decidable (CourierRules.failing maxAttempts).orderly :=
  instDecidableFalse

/-- **Only exhausted deliveries are dead letters**, in every history in which only
failures count. -/
theorem dead_letter_exhausted (maxAttempts : ℕ) {w w' : CourierWorker} {l : CourierLabel}
    (h : (courierMachine maxAttempts).Reach (CourierRules.failing maxAttempts).steps w)
    (hok : (CourierRules.failing maxAttempts).steps w l)
    (hstep : (courierMachine maxAttempts).step w l = some w') {key : DeliveryKey}
    (hburies : Buries w w' key) : maxAttempts ≤ (w'.shared.account key).failures := by
  let m := CourierRules.failing maxAttempts
  have hkeeps : (courier maxAttempts).Keeps m.accept m.allow (¬ m.orderly) (AtEase m)
      (CourierInv m True) (CourierStep m) := courier_keeps m (.inl trivial)
  have hstart : ∀ s, s = .empty → AtEase m s := by
    rintro s rfl
    exact empty_atEase m
  obtain ⟨call, p, hrunning, hdefault⟩ := hburies.call
  obtain ⟨d', hd', hdead⟩ := hburies.after
  rcases (hkeeps.step (hkeeps.reach hstart h) hok hstep).2 with hsame | ⟨call', p', hrunning', hg⟩
  · rw [hsame] at hd'
    exact absurd hdead (hburies.before d' hd')
  · obtain ⟨rfl, -⟩ := Prod.mk.inj (Option.some.inj (hrunning.symm.trans hrunning'))
    exact (hg key).exhausted trivial hdefault hburies.before ⟨d', hd', hdead⟩

/-! ### A budget of five -/

/-- The next request makes the sample delivery a dead letter. -/
def buriesSample (maxAttempts : ℕ) (w : CourierWorker) : Bool :=
  w.running.any (fun x => x.1.isDefault) && !deliveryIs w .deadLetter
    && (((courier maxAttempts).step w (.act {})).any (fun w' => deliveryIs w' .deadLetter))

theorem buries_of_test {maxAttempts : ℕ} {w : CourierWorker} (h : buriesSample maxAttempts w = true) :
    ∃ w', (courierMachine maxAttempts).step w (.act {}) = some w' ∧ Buries w w' sampleDeliveryKey := by
  unfold buriesSample at h
  rw [Bool.and_eq_true, Bool.and_eq_true] at h
  obtain ⟨⟨hcall, hbefore⟩, hafter⟩ := h
  obtain ⟨w', hstep, hdead⟩ := (Option.any_eq_true _ _).mp hafter
  obtain ⟨⟨call, p⟩, hrunning, hdefault⟩ := (Option.any_eq_true _ _).mp hcall
  obtain ⟨d, hd, hstatus⟩ := (Option.any_eq_true _ _).mp hdead
  refine ⟨w', hstep, ⟨call, p, hrunning, hdefault⟩, fun d₀ hd₀ hdead₀ => ?_,
    d, hd, of_decide_eq_true hstatus⟩
  rw [Bool.not_eq_true'] at hbefore
  have hfound : deliveryIs w .deadLetter = true :=
    (Option.any_eq_true _ _).mpr ⟨d₀, hd₀, decide_eq_true hdead₀⟩
  rw [hbefore] at hfound
  cases hfound

/-- Five failures, and a failure after four rate limits. -/
theorem sample_histories :
    ((courierMachine 5).runIf (fun w l => decide ((CourierRules.failing 5).steps w l))
      ⟨.empty, none⟩ (enqueueAndLoad ++ turnsOf (List.replicate 5 (.failed "E")))).map
        (fun w => buriesSample 5 w) = some true
    ∧ ((courierMachine 5).run ⟨.empty, none⟩
      (enqueueAndLoad ++ turnsOf (List.replicate 4 (.limited "E") ++ [.failed "E"]))).map
        (fun w => buriesSample 5 w && ((courier 5).step w (.act {})).any
          (fun w' => (w'.shared.account sampleDeliveryKey).failures = 1)) = some true := by
  decide +kernel

/-- Five failures are what a dead letter has behind it. -/
theorem dead_letter_exhausted_sample :
    ∃ w w', (courierMachine 5).Reach (CourierRules.failing 5).steps w ∧ Buries w w' sampleDeliveryKey
      ∧ 5 ≤ (w'.shared.account sampleDeliveryKey).failures := by
  obtain ⟨w, hreach, htest⟩ := Machine.reach_of_runIf (M := courierMachine 5)
    (fun _ _ => of_decide_eq_true) ⟨rfl, rfl⟩ sample_histories.1
  obtain ⟨w', hstep, hburies⟩ := buries_of_test htest
  have hok : (CourierRules.failing 5).steps w (.act {}) := by
    intro call op k _
    cases op with
    | send d attemptNo => exact ⟨fun _ _ => by decide, fun hno => hno.elim⟩
    | reconcile d attemptNo => exact fun hno => hno.elim
    | _ => trivial
  exact ⟨w, w', hreach, hburies, dead_letter_exhausted 5 hreach hok hstep hburies⟩

/-- **One failure is enough after four rate limits**, with a budget of five: the
counter stands at five. -/
theorem dead_letter_after_rate_limits :
    ¬ ∀ w l w', (courierMachine 5).Reach Machine.anyStep w →
      (courierMachine 5).step w l = some w' → Buries w w' sampleDeliveryKey →
        5 ≤ (w'.shared.account sampleDeliveryKey).failures := by
  intro hclaim
  obtain ⟨w, hreach, htest⟩ := Machine.reach_of_run (M := courierMachine 5) ⟨rfl, rfl⟩
    sample_histories.2
  obtain ⟨hburies, hone⟩ := (Bool.and_eq_true _ _).mp htest
  obtain ⟨w', hstep, hburies⟩ := buries_of_test hburies
  obtain ⟨w'', hstep', hone⟩ := (Option.any_eq_true _ _).mp hone
  obtain rfl := Option.some.inj (hstep.symm.trans hstep')
  have hfive := hclaim w _ w' hreach hstep hburies
  rw [of_decide_eq_true hone] at hfive
  exact absurd hfive (by decide)
