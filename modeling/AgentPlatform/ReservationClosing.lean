import AgentPlatform.LLMGateway

/-!
# Closing the reservation of a call

A call that reserved budget must give it back: it settles the reservation
when it returns a completion and releases it when it fails. The gateway
releases on a `ModelGatewayError` and on nothing else, so the question is
which exceptions of a dependency can reach the end of a call unconverted.

The answer is a property of the answers alone (`LlmAnswer.escapes`): the
resolver, the policy and the observer are called unguarded, the secret
provider is guarded against `Exception`, the client against HTTP errors and
the body against `ValueError`. What passes these guards passes the release
too. `Contained` is the invariant: a part of the call that ends with a
recognised exception, or none, was given no escaping answer, and one that
ends with any other was given one.
-/

/-- **An answer that escapes**: an exception that none of the gateway's
handlers turns into a `ModelGatewayError`. -/
def LlmAnswer.escapes : LlmAnswer → Bool
  | .profiles (.error e) => !e.isModelGatewayError
  | .policy (.error e) => !e.isModelGatewayError
  | .observer (.error e) => !e.isModelGatewayError
  | .secrets (.error e) => !e.isException
  | .client (.error e) => e.upstream.isNone
  | .client (.ok ⟨statusCode, .error e⟩) =>
    statusCode < 400 && !e.isValueError && e.upstream.isNone
  | _ => false

/-- The budget guard failed to close. -/
def LlmAnswer.guardFails : LlmAnswer → Bool
  | .settle (.error _) => true
  | .release (.error _) => true
  | _ => false

/-- The reservation an answer carries. -/
def LlmAnswer.reserved : LlmAnswer → Option BudgetReservationBundle
  | .reserve (.ok bundle) => some bundle
  | _ => none

/-- **The reservation was closed once**: settled by a call that returns,
released by one that raises, and nothing else. -/
def ClosedOnce {α : Type} (bundle : BudgetReservationBundle) :
    Except PyException α → List Closing → Prop
  | .ok _, closings => closings = [.settle bundle]
  | .error _, closings => ∃ reason, closings = [.release bundle reason]

/-- A call's state together with the turns it has been given. -/
abbrev LlmRecord := LlmState × List LlmTurn

/-- The handler of a call that keeps a record of its turns. -/
abbrev recordedLlm (g : LLMGateway) :
    (op : LlmOp) → LlmRecord → Except PyException (LlmRes op) → LlmRecord → Prop :=
  Prog.Handled (Prog.recorded (serveTurn g)) (fun _ _ _ => True)

/-- No answer has escaped so far. -/
def Calm (ts : List LlmTurn) : Prop := ∀ t ∈ ts, t.answer.escapes = false

/-- The reservations made so far. -/
def reservations (ts : List LlmTurn) : List BudgetReservationBundle :=
  ts.filterMap (fun t => t.answer.reserved)

/-- Closing calls and reservations, which the middle of a call leaves alone. -/
def budgetTrace (s : LlmRecord) : List Closing × List BudgetReservationBundle :=
  (s.1.closings, reservations s.2)

theorem calm_append {ts : List LlmTurn} {t : LlmTurn} (h : Calm ts) :
    Calm (ts ++ [t]) ↔ t.answer.escapes = false := by
  constructor
  · intro hc
    exact hc t (by simp)
  · intro ht u hu
    rcases List.mem_append.mp hu with hu | hu
    · exact h u hu
    · rw [List.mem_singleton.mp hu]
      exact ht

theorem reservations_append (ts : List LlmTurn) (t : LlmTurn) :
    reservations (ts ++ [t]) = reservations ts ++ t.answer.reserved.toList := by
  unfold reservations
  rw [List.filterMap_append]
  cases h : t.answer.reserved <;> simp [h]

/-! ## Parts that contain their exceptions -/

/-- What a part of a call must end with: nothing settled, released or
reserved, and an exception outside `f` exactly if an answer escaped. -/
def Guarded {α X : Type} (f : PyException → Option X)
    (b : List Closing × List BudgetReservationBundle) : Except PyException α → LlmRecord → Prop
  | .ok _, s => budgetTrace s = b ∧ Calm s.2
  | .error e, s => budgetTrace s = b ∧ ((f e).isSome = true ↔ Calm s.2)

/-- **A part of a call that lets only escaping answers past `f`.** -/
def Contained {α X : Type} (g : LLMGateway) (f : PyException → Option X) (p : LlmProg α) :
    Prop :=
  ∀ s, Calm s.2 → p.wp (recordedLlm g) (Guarded f (budgetTrace s)) s

variable {g : LLMGateway} {α β X Y : Type} {f : PyException → Option X}

theorem Contained.ret (a : α) : Contained g f (Prog.ret a) :=
  fun _ hs => ⟨rfl, hs⟩

theorem Contained.raise {e : PyException} (he : (f e).isSome = true) :
    Contained g f (Prog.raise e : LlmProg α) :=
  fun _ hs => ⟨rfl, iff_of_true he hs⟩

theorem Contained.bind {p : LlmProg α} {k : α → LlmProg β} (hp : Contained g f p)
    (hk : ∀ a, Contained g f (k a)) : Contained g f (p.bind k) := by
  intro s hs
  refine (Prog.wp_bind p k _ s).mpr (Prog.wp_mono (hp s hs) (fun r s' hr => ?_))
  cases r with
  | ok a =>
    rw [← hr.1]
    exact hk a s' hr.2
  | error e => exact hr

/-- **Capturing contains**: what `f` lets past must be nothing that `f'`
recognises. -/
theorem Contained.capture {f' : PyException → Option Y} {p : LlmProg α}
    (hp : Contained g f p) (hff : ∀ e, f e = none → f' e = none) :
    Contained g f' (p.capture f) := by
  intro s hs
  refine (Prog.safe_capture f p _ s).mpr (Prog.wp_mono (hp s hs) (fun r s' hr => ?_))
  cases r with
  | ok a => exact hr
  | error e =>
    cases hfe : f e with
    | some x =>
      rw [Prog.captured_of_some hfe]
      exact ⟨hr.1, hr.2.mp (by rw [hfe]; rfl)⟩
    | none =>
      rw [Prog.captured_of_none hfe]
      refine ⟨hr.1, ?_⟩
      rw [hff e hfe, ← hr.2, hfe]
      exact Iff.rfl

/-! ## Requests -/

/-- Every request but those to the budget guard leaves closings and
reservations alone. -/
def LlmOp.toGuard : LlmOp → Bool
  | .reserve _ => true
  | .settle _ => true
  | .release .. => true
  | _ => false

/-- What one request adds to the record. -/
theorem serveTurn_spec {t : LlmTurn} {op : LlmOp} {s s' : LlmState}
    {r : Except PyException (LlmRes op)} (hop : op.toGuard = false)
    (h : serveTurn g t op s = some (r, s')) :
    s'.closings = s.closings ∧ t.answer.reserved = none := by
  unfold serveTurn at h
  cases op <;> cases ha : t.answer <;> rw [ha] at h <;> cases h
    <;> first | exact ⟨rfl, rfl⟩ | cases hop

/-- **Inversion of a request** that does not go to the budget guard. -/
theorem recordedLlm_cases {op : LlmOp} {s s' : LlmRecord}
    {r : Except PyException (LlmRes op)} (hop : op.toGuard = false)
    (h : recordedLlm g op s r s') :
    ∃ t, s'.2 = s.2 ++ [t] ∧ serveTurn g t op s.1 = some (r, s'.1)
      ∧ budgetTrace s' = budgetTrace s := by
  obtain ⟨t, -, hh⟩ := h
  obtain ⟨⟨r₀, s₀⟩, hserve, heq⟩ := Option.map_eq_some_iff.mp hh
  cases heq
  obtain ⟨hclosed, hres⟩ := serveTurn_spec hop hserve
  refine ⟨t, rfl, hserve, ?_⟩
  unfold budgetTrace
  rw [hclosed, reservations_append, hres]
  simp

/-- **Request rule**: a request whose exceptions `f` fails to recognise
exactly when they escape, is contained. -/
theorem Contained.ask {op : LlmOp} (hop : op.toGuard = false)
    (hesc : ∀ t s r s', serveTurn g t op s = some (r, s') →
      match r with
      | .ok _ => t.answer.escapes = false
      | .error e => ((f e).isSome = true ↔ t.answer.escapes = false)) :
    Contained g f op.ask := by
  intro s hs
  refine (Prog.wp_perform op _ s).mpr (fun r s' hstep => ?_)
  obtain ⟨t, hts, hserve, htrace⟩ := recordedLlm_cases hop hstep
  have he := hesc t s.1 r s'.1 hserve
  cases r with
  | ok a =>
    refine ⟨htrace, ?_⟩
    rw [hts]
    exact (calm_append hs).mpr he
  | error e =>
    refine ⟨htrace, ?_⟩
    rw [hts]
    exact he.trans (calm_append hs).symm

/-- Requests to the resolver, the policy, the observer and the gateway's own
memory are made unguarded. -/
def LlmOp.unguarded : LlmOp → Bool
  | .resolveSecret .. => false
  | .post .. => false
  | .recordDenied .. => false
  | op => !op.toGuard

theorem PyException.modelGatewayCode_isSome (e : PyException) :
    e.modelGatewayCode.isSome = e.isModelGatewayError := by
  cases e <;> rfl

theorem contained_unguarded {op : LlmOp} (hop : op.unguarded = true) :
    Contained g PyException.modelGatewayCode op.ask := by
  have hguard : op.toGuard = false := by
    cases op <;> simp [LlmOp.unguarded, LlmOp.toGuard] at hop ⊢
  refine .ask hguard (fun t s r s' h => ?_)
  unfold serveTurn at h
  cases op <;> simp only [LlmOp.unguarded, LlmOp.toGuard, Bool.not_false, Bool.not_true,
    Bool.false_eq_true] at hop <;> cases ha : t.answer <;> rw [ha] at h <;> cases h
  all_goals first
    | rfl
    | (cases r with
       | ok a => rfl
       | error e => simp [LlmAnswer.escapes, PyException.modelGatewayCode_isSome])

theorem contained_resolveSecret (tenantId secretRef : String) :
    Contained g PyException.caughtByException (LlmOp.resolveSecret tenantId secretRef).ask := by
  refine .ask rfl (fun t s r s' h => ?_)
  unfold serveTurn at h
  cases ha : t.answer <;> rw [ha] at h <;> cases h
  cases r with
  | ok a => rfl
  | error e => simp [LlmAnswer.escapes, PyException.caughtByException]

/-! ## The parts of a call -/

/-- A response that cannot be read ends the call of the provider, with an
exception that the caller recognises unless the response escapes. -/
theorem guarded_readCompletion {response : HttpResponse} {s : LlmRecord}
    (hcalm : Calm s.2 ↔ (LlmAnswer.client (.ok response)).escapes = false) :
    (readCompletion response).wp (recordedLlm g) (Guarded PyException.upstream (budgetTrace s))
      s := by
  obtain ⟨statusCode, json⟩ := response
  unfold readCompletion
  split
  · rename_i hstatus
    refine ⟨rfl, iff_of_true rfl (hcalm.mpr ?_)⟩
    cases json with
    | ok j => rfl
    | error e => simp [LlmAnswer.escapes, not_lt.mpr hstatus]
  · rename_i hstatus
    cases json with
    | error e =>
      refine ⟨rfl, ?_⟩
      rw [hcalm]
      cases e <;> simp [LlmAnswer.escapes, PyException.upstream, PyException.isValueError,
        not_le.mp hstatus]
    | ok j =>
      cases j with
      | obj fields => exact ⟨rfl, hcalm.mpr rfl⟩
      | _ => exact ⟨rfl, iff_of_true rfl (hcalm.mpr rfl)⟩

/-- The provider's answer is read under the guard of its caller. -/
theorem contained_providerCompletion (profile : ModelProfile)
    (messages : List (List (String × String))) (credential : String) :
    Contained g PyException.upstream (providerCompletion profile messages credential) := by
  intro s hs
  unfold providerCompletion
  refine (Prog.wp_bind _ _ _ s).mpr ((Prog.wp_perform _ _ s).mpr ?_)
  rintro r ⟨s', ts⟩ hstep
  obtain ⟨t, hts, hserve, htrace⟩ := recordedLlm_cases rfl hstep
  have hcalm : Calm ts ↔ t.answer.escapes = false := by
    rw [show ts = s.2 ++ [t] from hts]
    exact calm_append hs
  unfold serveTurn at hserve
  cases ha : t.answer <;> rw [ha] at hserve <;> cases hserve
  rw [ha] at hcalm
  rw [← htrace]
  cases r with
  | ok response => exact guarded_readCompletion hcalm
  | error e =>
    refine ⟨rfl, ?_⟩
    rw [hcalm]
    show _ ↔ e.upstream.isNone = false
    cases e.upstream <;> simp

theorem contained_recordEvent (c : CallContext) (modelAlias : String) (fallbackUsed : Bool)
    (outcome : String) (errorCode responseContentHash : Option String)
    (completion : Option (List (String × Json))) :
    Contained g PyException.modelGatewayCode
      (recordEvent c modelAlias fallbackUsed outcome errorCode responseContentHash
        completion) :=
  .bind (contained_unguarded rfl) (fun _ => contained_unguarded rfl)

theorem contained_candidateProfile (request : GatewayRequest) (modelAlias : String) :
    Contained g PyException.modelGatewayCode (candidateProfile request modelAlias) := by
  unfold candidateProfile
  split
  · exact .ret _
  · split
    · exact contained_unguarded rfl
    · exact .ret _

/-- The loop over the aliases, by induction on the aliases still to come. -/
theorem contained_candidateLoop (request : GatewayRequest) (fuel : ℕ)
    (aliases seen : List String) (profiles : List ModelProfile) :
    Contained g PyException.modelGatewayCode
      (candidateLoop request fuel aliases seen profiles) := by
  induction fuel generalizing aliases seen profiles with
  | zero => exact .ret _
  | succ fuel ih =>
    unfold candidateLoop
    split
    · exact .ret _
    · refine .bind (contained_candidateProfile request _) (fun profile => ?_)
      cases profile with
      | none => exact ih _ _ _
      | some profile =>
        show Contained g _ (ite _ _ _)
        split
        · exact ih _ _ _
        · exact ih _ _ _

theorem contained_allows (c : CallContext) (profile : ModelProfile) :
    Contained g PyException.modelGatewayCode (allows c profile) := by
  unfold allows
  split
  · exact contained_unguarded rfl
  · exact .ret _

theorem contained_candidateFailed (c : CallContext) (profile : ModelProfile) (code : String)
    (t : Attempts) :
    Contained g PyException.modelGatewayCode (candidateFailed c profile code t) :=
  .bind (contained_unguarded rfl) (fun _ =>
    .bind (contained_recordEvent c _ _ _ _ _ _) (fun _ => .ret _))

theorem contained_candidateServed (c : CallContext) (profile : ModelProfile)
    (completion : List (String × Json)) :
    Contained g PyException.modelGatewayCode (candidateServed g c profile completion) := by
  refine .bind (contained_unguarded rfl) (fun _ => ?_)
  show Contained g _ (ite _ _ _)
  split
  · exact .bind (contained_unguarded rfl) (fun _ =>
      .bind (contained_recordEvent c _ _ _ _ _ _) (fun _ => .ret _))
  · exact .bind (contained_unguarded rfl) (fun _ =>
      .bind (contained_recordEvent c _ _ _ _ _ _) (fun _ => .ret _))

/-- **One candidate**: the secret provider's exceptions and the provider's are
captured, everything else is unguarded. -/
theorem contained_tryCandidate (c : CallContext) (profile : ModelProfile) (t : Attempts) :
    Contained g PyException.modelGatewayCode (tryCandidate g c profile t) := by
  refine .bind (contained_allows c profile) (fun allowed => ?_)
  cases allowed with
  | false => exact .ret _
  | true =>
    refine .bind (contained_unguarded rfl) (fun isOpen => ?_)
    cases isOpen with
    | true => exact .ret _
    | false =>
      refine .bind (contained_unguarded rfl) (fun within => ?_)
      cases within with
      | false => exact .ret _
      | true =>
        refine .bind ((contained_resolveSecret _ _).capture ?_) (fun credential => ?_)
        · intro e he
          cases e <;> first | rfl | cases he
        · cases credential with
          | error _ =>
            exact .bind (contained_candidateFailed c profile _ _) (fun _ => .ret _)
          | ok credential =>
            refine .bind ((contained_providerCompletion _ _ _).capture ?_) (fun r => ?_)
            · intro e he
              cases e <;> first | rfl | cases he
            · cases r with
              | error _ =>
                exact .bind (contained_candidateFailed c profile _ _) (fun _ => .ret _)
              | ok completion =>
                exact .bind (contained_candidateServed c profile completion) (fun _ => .ret _)

theorem contained_exhausted (c : CallContext) (t : Attempts) :
    Contained g PyException.modelGatewayCode (exhausted c t) := by
  unfold exhausted
  split
  · exact .bind (contained_recordEvent c _ _ _ _ _ _) (fun _ => .raise rfl)
  · exact .raise rfl

/-- The loop over the candidates. -/
theorem contained_tryCandidates (c : CallContext) (profiles : List ModelProfile)
    (t : Attempts) :
    Contained g PyException.modelGatewayCode (tryCandidates g c profiles t) := by
  induction profiles generalizing t with
  | nil => exact contained_exhausted c t
  | cons profile rest ih =>
    refine .bind (contained_tryCandidate c profile t) (fun r => ?_)
    cases r with
    | inl t => exact ih t
    | inr result => exact .ret _

/-- **The guarded part of a call is contained.** -/
theorem contained_completeWithGuard (c : CallContext) :
    Contained g PyException.modelGatewayCode (completeWithGuard g c) :=
  .bind (contained_candidateLoop c.request _ _ _ _)
    (fun profiles => contained_tryCandidates c profiles {})

/-! ## How a call ends -/

/-- What is to be shown of a call that has ended: if it reserved and the guard
did not fail it, the reservation is closed once exactly if no answer
escaped. -/
def Ended {α : Type} (r : Except PyException α) (s : LlmRecord) : Prop :=
  ∀ bundle ∈ reservations s.2, (∀ t ∈ s.2, t.answer.guardFails = false) →
    (ClosedOnce bundle r s.1.closings ↔ Calm s.2)

/-- A call without a reservation has nothing to close. -/
theorem ended_of_unreserved {r : Except PyException α} {s : LlmRecord}
    (h : reservations s.2 = []) : Ended r s := by
  intro bundle hb
  rw [h] at hb
  cases hb

/-- The call was let down by the guard. -/
theorem ended_of_guardFails {r : Except PyException α} {s : LlmRecord} {t : LlmTurn}
    (ht : t ∈ s.2) (h : t.answer.guardFails = true) : Ended r s := by
  intro bundle _ hguard
  rw [hguard t ht] at h
  cases h

/-- Inversion of a settlement. -/
theorem recordedLlm_settle {bundle : BudgetReservationBundle} {s s' : LlmRecord}
    {r : Except PyException Unit} (h : recordedLlm g (.settle bundle) s r s') :
    ∃ t : LlmTurn, s'.2 = s.2 ++ [t] ∧ t.answer = .settle r
      ∧ s'.1.closings = s.1.closings ++ [Closing.settle bundle] := by
  obtain ⟨t, -, hh⟩ := h
  obtain ⟨⟨r₀, s₀⟩, hserve, heq⟩ := Option.map_eq_some_iff.mp hh
  cases heq
  unfold serveTurn at hserve
  cases ha : t.answer <;> rw [ha] at hserve <;> cases hserve
  exact ⟨t, rfl, ha, rfl⟩

/-- Inversion of a release. -/
theorem recordedLlm_release {bundle : BudgetReservationBundle} {reason : String}
    {s s' : LlmRecord} {r : Except PyException Unit}
    (h : recordedLlm g (.release bundle reason) s r s') :
    ∃ t : LlmTurn, s'.2 = s.2 ++ [t] ∧ t.answer = .release r
      ∧ s'.1.closings = s.1.closings ++ [Closing.release bundle reason] := by
  obtain ⟨t, -, hh⟩ := h
  obtain ⟨⟨r₀, s₀⟩, hserve, heq⟩ := Option.map_eq_some_iff.mp hh
  cases heq
  unfold serveTurn at hserve
  cases ha : t.answer <;> rw [ha] at hserve <;> cases hserve
  exact ⟨t, rfl, ha, rfl⟩

/-- Inversion of a reservation. -/
theorem recordedLlm_reserve {request : GatewayRequest} {s s' : LlmRecord}
    {r : Except PyException BudgetReservationBundle}
    (h : recordedLlm g (.reserve request) s r s') :
    ∃ t : LlmTurn, s'.2 = s.2 ++ [t] ∧ t.answer = .reserve r
      ∧ s'.1.closings = s.1.closings := by
  obtain ⟨t, -, hh⟩ := h
  obtain ⟨⟨r₀, s₀⟩, hserve, heq⟩ := Option.map_eq_some_iff.mp hh
  cases heq
  unfold serveTurn at hserve
  cases ha : t.answer <;> rw [ha] at hserve <;> cases hserve
  exact ⟨t, rfl, ha, rfl⟩

/-- **A completed call settles.** -/
theorem ended_settleResult {bundle : BudgetReservationBundle} {result : GatewayResult}
    {s : LlmRecord} (hs : budgetTrace s = ([], [bundle])) (hcalm : Calm s.2) :
    (settleResult (some bundle) result).wp (recordedLlm g) Ended s := by
  refine (Prog.wp_bind _ _ _ s).mpr ((Prog.wp_perform _ _ s).mpr (fun r s' hstep => ?_))
  obtain ⟨t, hts, ha, hclosed⟩ := recordedLlm_settle hstep
  obtain ⟨hnone, hres⟩ := Prod.mk.inj hs
  cases r with
  | error e => exact ended_of_guardFails (t := t) (by simp [hts]) (by rw [ha]; rfl)
  | ok _ =>
    intro b hb _
    rw [hts, reservations_append, hres, ha] at hb
    have hbundle : b = bundle := List.mem_singleton.mp hb
    rw [hts, calm_append hcalm, ha, hclosed, hnone, hbundle]
    exact iff_of_true rfl rfl

/-- The reservation has been released, and no answer has escaped. -/
def Released (bundle : BudgetReservationBundle) (reason : String) (s : LlmRecord) : Prop :=
  budgetTrace s = ([.release bundle reason], [bundle]) ∧ Calm s.2

/-- A call that raises after the release has closed once. -/
theorem Released.ended {bundle : BudgetReservationBundle} {reason : String} {s : LlmRecord}
    (h : Released bundle reason s) (e : PyException) : Ended (.error e : Except _ α) s := by
  obtain ⟨hclosed, hres⟩ := Prod.mk.inj h.1
  intro b hb _
  rw [hres] at hb
  rw [hclosed, List.mem_singleton.mp hb]
  exact iff_of_true ⟨reason, rfl⟩ h.2

/-- **A failed call releases**, and whatever the audit sink then does, it
stays so. -/
theorem ended_failedUpstream {c : CallContext} {bundle : BudgetReservationBundle}
    {code : String} {s : LlmRecord} (hs : budgetTrace s = ([], [bundle])) (hcalm : Calm s.2) :
    (failedUpstream g c (some bundle) code).wp (recordedLlm g) Ended s := by
  refine (Prog.wp_bind _ _ _ s).mpr ((Prog.wp_bind _ _ _ s).mpr
    ((Prog.safe_capture _ _ _ s).mpr ((Prog.wp_perform _ _ s).mpr (fun r s' hstep => ?_))))
  obtain ⟨t, hts, ha, hclosed⟩ := recordedLlm_release hstep
  obtain ⟨hnone, hres⟩ := Prod.mk.inj hs
  cases r with
  | error e =>
    have hfails : ∀ r : Except PyException GatewayResult, Ended r s' :=
      fun r => ended_of_guardFails (t := t) (by simp [hts]) (by rw [ha]; rfl)
    cases hf : e.caughtByException with
    | some _ =>
      rw [Prog.captured_of_some hf]
      exact hfails _
    | none =>
      rw [Prog.captured_of_none hf]
      exact hfails _
  | ok _ =>
    have hreleased : Released bundle code s' := by
      refine ⟨?_, ?_⟩
      · unfold budgetTrace
        rw [hclosed, hnone, hts, reservations_append, hres, ha]
        rfl
      · rw [hts, calm_append hcalm, ha]
        rfl
    exact released_recordRestricted hreleased
where
  released_recordRestricted {s : LlmRecord} (h : Released bundle code s) :
      ((recordRestricted g c code).bind
        (fun _ => .raise (.modelGateway code) : Unit → LlmProg GatewayResult)).wp
          (recordedLlm g) Ended s := by
    unfold recordRestricted
    split
    · refine (Prog.wp_bind _ _ _ s).mpr ((Prog.wp_perform _ _ s).mpr ?_)
      rintro r ⟨s', ts⟩ hstep
      obtain ⟨t, hts, hserve, htrace⟩ := recordedLlm_cases rfl hstep
      have haudit : t.answer.escapes = false := by
        unfold serveTurn at hserve
        cases ha : t.answer <;> rw [ha] at hserve <;> cases hserve
        rfl
      have hend : Released bundle code (s', ts) := by
        refine ⟨htrace.trans h.1, ?_⟩
        rw [show ts = s.2 ++ [t] from hts, calm_append h.2]
        exact haudit
      cases r with
      | ok _ => exact hend.ended _
      | error e => exact hend.ended e
    · exact h.ended _

/-- **The call after its reservation.** -/
theorem ended_completeReserved {c : CallContext} {bundle : BudgetReservationBundle}
    {s : LlmRecord} (hs : budgetTrace s = ([], [bundle])) (hcalm : Calm s.2) :
    (completeReserved g c (some bundle)).wp (recordedLlm g) Ended s := by
  refine (Prog.wp_bind _ _ _ s).mpr ((Prog.safe_capture _ _ _ s).mpr
    (Prog.wp_mono (contained_completeWithGuard c s hcalm) (fun r s' hr => ?_)))
  rw [hs] at hr
  cases r with
  | ok result => exact ended_settleResult hr.1 hr.2
  | error e =>
    cases hf : e.modelGatewayCode with
    | some code =>
      rw [Prog.captured_of_some hf]
      exact ended_failedUpstream hr.1 (hr.2.mp (by rw [hf]; rfl))
    | none =>
      -- The exception passes the release: nothing has been closed.
      rw [Prog.captured_of_none hf]
      have hstorm : ¬ Calm s'.2 := by
        rw [← hr.2, hf]
        exact Bool.false_ne_true
      intro b _ _
      rw [(Prod.mk.inj hr.1).1]
      refine iff_of_false ?_ hstorm
      rintro ⟨reason, h⟩
      cases h

/-- A call blocked by the scanner reserves nothing. -/
theorem ended_secretDetected {request : GatewayRequest} {scan : ContentScanResult}
    {s : LlmRecord} (hs : reservations s.2 = []) :
    (secretDetected g request scan).wp (recordedLlm g) Ended s := by
  unfold secretDetected
  split
  · refine (Prog.wp_bind _ _ _ s).mpr ((Prog.safe_capture _ _ _ s).mpr
      ((Prog.wp_perform _ _ s).mpr (fun r s' hstep => ?_)))
    obtain ⟨t, -, -, htrace⟩ := recordedLlm_cases rfl hstep
    have hnone : reservations s'.2 = [] := (Prod.mk.inj htrace).2.trans hs
    cases r with
    | ok _ => exact ended_of_unreserved hnone
    | error e =>
      cases hf : e.caughtByException with
      | some _ =>
        rw [Prog.captured_of_some hf]
        exact ended_of_unreserved hnone
      | none =>
        rw [Prog.captured_of_none hf]
        exact ended_of_unreserved hnone
  · exact ended_of_unreserved hs

/-- A call of a gateway without a budget guard reserves nothing. -/
theorem ended_completeUnreserved {c : CallContext} {s : LlmRecord}
    (hs : reservations s.2 = []) (hcalm : Calm s.2) :
    (completeReserved g c none).wp (recordedLlm g) Ended s := by
  refine (Prog.wp_bind _ _ _ s).mpr ((Prog.safe_capture _ _ _ s).mpr
    (Prog.wp_mono (contained_completeWithGuard c s hcalm) (fun r s' hr => ?_)))
  have htrace : budgetTrace s' = budgetTrace s := by
    cases r with
    | ok _ => exact hr.1
    | error _ => exact hr.1
  have hnone : reservations s'.2 = [] := (Prod.mk.inj htrace).2.trans hs
  cases r with
  | ok result => exact ended_of_unreserved hnone
  | error e =>
    cases hf : e.modelGatewayCode with
    | none =>
      rw [Prog.captured_of_none hf]
      exact ended_of_unreserved hnone
    | some code =>
      rw [Prog.captured_of_some hf]
      show ((recordRestricted g c code).bind
        (fun _ => .raise (.modelGateway code) : Unit → LlmProg GatewayResult)).wp
          (recordedLlm g) Ended s'
      unfold recordRestricted
      split
      · refine (Prog.wp_bind _ _ _ s').mpr ((Prog.wp_perform _ _ s').mpr
          (fun r s'' hstep => ?_))
        obtain ⟨t, -, -, htrace'⟩ := recordedLlm_cases rfl hstep
        have hnone' : reservations s''.2 = [] := (Prod.mk.inj htrace').2.trans hnone
        cases r with
        | ok _ => exact ended_of_unreserved hnone'
        | error _ => exact ended_of_unreserved hnone'
      · exact ended_of_unreserved hnone

/-- **Every call ends as it should.** -/
theorem ended_complete (request : GatewayRequest) {s : LlmRecord}
    (hs : budgetTrace s = ([], [])) (hcalm : Calm s.2) :
    (complete g request).wp (recordedLlm g) Ended s := by
  have hclock : Contained g PyException.modelGatewayCode (LlmOp.ask .monotonic) :=
    contained_unguarded rfl
  refine (Prog.wp_bind _ _ _ s).mpr (Prog.wp_mono (hclock s hcalm) (fun r s₁ hr => ?_))
  rw [hs] at hr
  cases r with
  | error e => exact ended_of_unreserved (Prod.mk.inj hr.1).2
  | ok startedAt =>
    show (ite _ _ _ : LlmProg GatewayResult).wp _ _ _
    split
    · exact ended_secretDetected (Prod.mk.inj hr.1).2
    · split
      · refine (Prog.wp_bind _ _ _ s₁).mpr ((Prog.wp_perform _ _ s₁).mpr
          (fun r s₂ hstep => ?_))
        obtain ⟨t, hts, ha, hclosed⟩ := recordedLlm_reserve hstep
        obtain ⟨hnone, hres⟩ := Prod.mk.inj hr.1
        have hreserved : reservations s₂.2 = (LlmAnswer.reserve r).reserved.toList := by
          rw [hts, reservations_append, hres, ha]
          rfl
        have hcalm' : Calm s₂.2 := by
          rw [hts, calm_append hr.2, ha]
          rfl
        cases r with
        | error e => exact ended_of_unreserved hreserved
        | ok bundle =>
          refine ended_completeReserved ?_ hcalm'
          unfold budgetTrace
          rw [hclosed, hnone, hreserved]
          rfl
      · exact ended_completeUnreserved (Prod.mk.inj hr.1).2 hr.2

/-- **When a reservation is closed.** A call that reserved, in a gateway with a
budget guard that does not fail, closes its reservation exactly once – by
settlement if it returns, by release if it raises – if and only if no
dependency's answer escapes the gateway's handlers. Whatever the other calls of
the process do to the shared memory meanwhile plays no part. -/
theorem reservation_closed_iff (g : LLMGateway) (request : GatewayRequest) (memory : LlmMemory)
    (turns : List LlmTurn) (r : Except PyException GatewayResult) (s : LlmState)
    (bundle : BudgetReservationBundle)
    (hrun : (complete g request).eval (serveTurn g) turns { memory := memory } = some (r, s))
    (hreserved : ∃ t ∈ turns, t.answer = .reserve (.ok bundle))
    (hguard : ∀ t ∈ turns, t.answer.guardFails = false) :
    ClosedOnce bundle r s.closings ↔ ∀ t ∈ turns, t.answer.escapes = false := by
  have hend : Ended r (s, [] ++ turns) :=
    Prog.wp_eval (ended_complete request (s := ({ memory := memory }, [])) rfl
      (fun t ht => by cases ht)) (Prog.eval_recorded [] hrun)
  rw [List.nil_append] at hend
  refine hend bundle ?_ hguard
  obtain ⟨t, ht, ha⟩ := hreserved
  exact List.mem_filterMap.mpr ⟨t, ht, by rw [ha]; rfl⟩

/-- A gateway whose scanner finds nothing in a greeting, with the digests of
the greeting and of its completion. -/
def greetingGateway : LLMGateway where
  budget := true
  policyAudit := true
  search := fun _ _ => false
  contentHash := fun content => match content with
    | .arr _ => "b175c251fd8eaf9dcffc65541329ccf6e5bad4799072879ab18d647351133410"
    | _ => "70fa4698ba843ba91d429d5cc8e42ea516e23da0b87f95374048a0a5d3a15ed0"

/-- The profile the greeting is served by. -/
def greetingProfile : ModelProfile where
  tenantId := "t1"
  modelAlias := "chat"
  providerModel := "provider-chat"
  endpointUrl := "https://fake-llm.test/v1/chat/completions"
  secretRef := "vault://tenant/t1/chat#key"
  dataClassification := .INTERNAL
  region := "cn"
  fallbackAliases := []
  requestsPerMinute := 60

/-- A greeting to be completed. -/
def greetingCompletion : GatewayRequest where
  tenantId := "t1"
  modelAlias := "chat"
  messages := [[("role", "user"), ("content", "hello")]]
  dataClassification := .INTERNAL
  region := "cn"
  profileSnapshots := [greetingProfile]

/-- The reservation of the greeting. -/
def greetingBundle : BudgetReservationBundle where
  command := { tenantId := 1, applicationId := none, executionId := none,
               estimatedMicros := 0, priceVersion := some 1 }

/-- The turns of the greeting up to the call of the provider. -/
def greetingTurns : List LlmTurn :=
  [{ answer := .clock 0 }, { answer := .reserve (.ok greetingBundle) },
   { answer := .policy (.ok true) }, { answer := .clock 0 }, { answer := .clock 0 },
   { answer := .secrets (.ok "key") }]

/-- The provider answers, and the reservation is settled. -/
def greetingServed : List LlmTurn :=
  greetingTurns ++
    [{ answer := .client (.ok ⟨200, .ok (.obj [("id", .str "c1")])⟩) },
     { answer := .clock 1 }, { answer := .clock 1 }, { answer := .clock 1 },
     { answer := .observer (.ok ()) }, { answer := .settle (.ok ()) }]

theorem reservation_closed_iff_greeting :
    ∃ r s, (complete greetingGateway greetingCompletion).eval (serveTurn greetingGateway)
        greetingServed { memory := .empty } = some (r, s)
      ∧ ClosedOnce greetingBundle r s.closings := by
  refine ⟨_, _, rfl, ?_⟩
  refine (reservation_closed_iff greetingGateway greetingCompletion .empty greetingServed _ _
    greetingBundle rfl ⟨_, List.mem_cons_of_mem _ List.mem_cons_self, rfl⟩ ?_).mpr ?_
  · decide
  · decide

/-- The endpoint of the profile is no URL the client can use: its exception is
no HTTP error, so the call ends with it and the reservation stays open. -/
theorem reservation_leaks :
    ∃ r s, (complete greetingGateway greetingCompletion).eval (serveTurn greetingGateway)
        (greetingTurns ++ [{ answer := .client (.error (.other "InvalidURL")) }])
        { memory := .empty } = some (r, s)
      ∧ r.toOption.isNone = true ∧ s.closings = []
      ∧ ¬ ClosedOnce greetingBundle r s.closings := by
  refine ⟨_, _, rfl, rfl, rfl, ?_⟩
  rintro ⟨reason, h⟩
  cases h
