import AgentPlatform.LLMGateway
import AgentPlatform.BreadthFirst

/-!
# What a call of the gateway asks for

Two facts about a call that hold whatever its dependencies answer: it reserves
budget for its own request only, and it calls the provider of a profile only if
this profile is a candidate that passes the gateway's own rules. Both are
statements about the requests a program issues, so they are proved together,
part by part (`asks_complete`).

The candidates of a request are the requested model and the fallbacks that can
be reached from it through permitted aliases: `_candidate_profiles` is a
worklist search over the profiles.
-/

/-! ## Candidates -/

/-- The profile an alias stands for, when the resolver answers `resolve`. -/
def lookupProfile (request : GatewayRequest) (resolve : String → String → Option ModelProfile)
    (modelAlias : String) : Option ModelProfile :=
  match request.profileSnapshots.reverse.find? (fun p => p.modelAlias = modelAlias) with
  | some profile => some profile
  | none =>
    if request.profileSnapshots.isEmpty then resolve request.tenantId modelAlias else none

/-- The profile an alias stands for, if it is one of the tenant's. -/
def visitAlias (request : GatewayRequest) (resolve : String → String → Option ModelProfile)
    (modelAlias : String) : Option ModelProfile :=
  (lookupProfile request resolve modelAlias).filter (fun p => p.tenantId = request.tenantId)

/-- The fallbacks of a profile that a request permits. -/
def permittedFallbacks (request : GatewayRequest) (profile : ModelProfile) : List String :=
  profile.fallbackAliases.filter (fun f => f ∈ request.allowedFallbackAliases)

/-- **A candidate**: the requested model, or a permitted fallback of a candidate,
among the profiles of the tenant. -/
def Candidate (request : GatewayRequest) (resolve : String → String → Option ModelProfile)
    (profile : ModelProfile) : Prop :=
  ∃ modelAlias, Worklist.Reached (visitAlias request resolve) (permittedFallbacks request)
    [request.modelAlias] modelAlias profile

/-- The candidates in the order in which they are tried. -/
def candidateList (request : GatewayRequest) (resolve : String → String → Option ModelProfile) :
    List ModelProfile :=
  Worklist.search (visitAlias request resolve) (permittedFallbacks request)
    (request.allowedFallbackAliases.length + 2) [request.modelAlias] [] []

/-- No alias comes up but the requested one and the permitted ones. -/
theorem mem_of_pending {request : GatewayRequest}
    {resolve : String → String → Option ModelProfile} {modelAlias : String}
    (h : Worklist.Pending (visitAlias request resolve) (permittedFallbacks request)
      [request.modelAlias] modelAlias) :
    modelAlias ∈ request.modelAlias :: request.allowedFallbackAliases := by
  rcases h with ha | ⟨a', p, -, ha⟩
  · rw [List.mem_singleton.mp ha]
    exact List.mem_cons_self
  · exact List.mem_cons_of_mem _ (of_decide_eq_true (List.mem_filter.mp ha).2)

/-- **The candidates are what can be reached**: each round visits a new alias. -/
theorem mem_candidateList {request : GatewayRequest}
    {resolve : String → String → Option ModelProfile} {profile : ModelProfile} :
    profile ∈ candidateList request resolve ↔ Candidate request resolve profile := by
  refine (Worklist.inv_start [request.modelAlias]).mem_search_iff _
    (fun _ ha => mem_of_pending ha) ?_
  simp

/-- The resolver answers `resolve`, unless it raises. -/
def Resolving (resolve : String → String → Option ModelProfile) :
    (op : LlmOp) → Except PyException (LlmRes op) → Prop
  | .resolveProfile tenantId modelAlias, .ok profile => profile = resolve tenantId modelAlias
  | _, _ => True

/-! ## The requests of a call -/

/-- Neither a reservation nor a provider call. -/
def LlmOp.isPlain : LlmOp → Bool
  | .reserve _ => false
  | .post .. => false
  | _ => true

/-- **The gateway's own rules** for a profile. -/
def Passes (c : CallContext) (profile : ModelProfile) : Prop :=
  c.request.dataClassification ≠ .RESTRICTED ∧ c.effective ≠ .RESTRICTED
    ∧ c.request.region = profile.region
    ∧ c.request.dataClassification.rank ≤ profile.dataClassification.rank

/-- The effective classification of a request. -/
def effectiveClassification (g : LLMGateway) (request : GatewayRequest) : DataClassification :=
  highestClassification [some request.dataClassification,
    some (scanMessages g.search (request.messages.map Json.ofDict)).detectedClassification]

section Asks

variable {P : LlmOp → Prop} {A : (op : LlmOp) → Except PyException (LlmRes op) → Prop}
  {g : LLMGateway} {c : CallContext} {request : GatewayRequest}
  {resolve : String → String → Option ModelProfile}

/-- A plain request, with any answer. -/
theorem asks_plain (hplain : ∀ op, op.isPlain = true → P op) {op : LlmOp}
    (hop : op.isPlain = true) : (LlmOp.ask op).Asks P A (fun _ => True) :=
  Prog.asks_perform (hplain op hop) (fun _ _ => trivial)

/-- One request after another. -/
theorem asks_then {α β : Type} {p : LlmProg α} {f : α → LlmProg β}
    (hp : p.Asks P A (fun _ => True)) (hf : ∀ a, (f a).Asks P A (fun _ => True)) :
    (p.bind f).Asks P A (fun _ => True) :=
  hp.bind (fun a _ => hf a) (fun _ _ => trivial)

/-- The answer is `a`, or an exception of `F`. -/
def ReturnsOr {α : Type} (F : PyException → Prop) (a : α) : Except PyException α → Prop
  | .ok b => b = a
  | .error e => F e

theorem asks_candidateProfile {F : PyException → Prop}
    (hP : ∀ t a, P (.resolveProfile t a))
    (hA : ∀ t a r, A (.resolveProfile t a) r → ReturnsOr F (resolve t a) r) (modelAlias : String) :
    (candidateProfile request modelAlias).Asks P A
      (ReturnsOr F (lookupProfile request resolve modelAlias)) := by
  unfold candidateProfile lookupProfile
  cases request.profileSnapshots.reverse.find? (fun p => p.modelAlias = modelAlias) with
  | some profile => rfl
  | none =>
    dsimp only
    split
    · exact Prog.asks_perform (hP _ _) (hA _ _)
    · rfl

/-- **The program runs the search**, whatever its bound. -/
theorem candidateLoop_asks {F : PyException → Prop} (hP : ∀ t a, P (.resolveProfile t a))
    (hA : ∀ t a r, A (.resolveProfile t a) r → ReturnsOr F (resolve t a) r)
    (fuel : ℕ) (aliases seen : List String) (profiles : List ModelProfile) :
    (candidateLoop request fuel aliases seen profiles).Asks P A
      (ReturnsOr F (Worklist.search (visitAlias request resolve) (permittedFallbacks request) fuel
        aliases seen profiles)) := by
  induction fuel generalizing aliases seen profiles with
  | zero => rfl
  | succ fuel ih =>
    unfold candidateLoop
    cases hqueue : aliases.dropWhile (fun a => a ∈ seen) with
    | nil =>
      rw [Worklist.search_nil fuel hqueue]
      rfl
    | cons modelAlias rest =>
      refine (asks_candidateProfile hP hA modelAlias).bind (fun p? hp? => ?_) (fun _ he => he)
      obtain rfl : p? = _ := hp?
      cases hfound : lookupProfile request resolve modelAlias with
      | none =>
        rw [Worklist.search_none fuel hqueue (by simp [visitAlias, hfound])]
        exact ih rest (modelAlias :: seen) profiles
      | some profile =>
        dsimp only
        by_cases htenant : profile.tenantId = request.tenantId
        · have hvisit : visitAlias request resolve modelAlias = some profile := by
            simp [visitAlias, hfound, Option.filter, htenant]
          rw [if_neg (not_not.mpr htenant), Worklist.search_some fuel hqueue hvisit]
          exact ih _ _ _
        · have hvisit : visitAlias request resolve modelAlias = none := by
            simp [visitAlias, hfound, Option.filter, htenant]
          rw [if_pos htenant, Worklist.search_none fuel hqueue hvisit]
          exact ih _ _ _

variable (hplain : ∀ op, op.isPlain = true → P op)

include hplain

theorem asks_recordEvent (modelAlias : String) (fallbackUsed : Bool) (outcome : String)
    (errorCode responseContentHash : Option String) (completion : Option (List (String × Json))) :
    (recordEvent c modelAlias fallbackUsed outcome errorCode responseContentHash completion).Asks
      P A (fun _ => True) :=
  asks_then (asks_plain hplain rfl) (fun _ => asks_plain hplain rfl)

/-- The candidates are found by plain requests. -/
theorem asks_candidateLoop (fuel : ℕ) (aliases seen : List String) (profiles : List ModelProfile) :
    (candidateLoop request fuel aliases seen profiles).Asks P (Resolving resolve)
      (fun r => ∀ ps, r = .ok ps → ps = Worklist.search (visitAlias request resolve)
        (permittedFallbacks request) fuel aliases seen profiles) := by
  refine (@candidateLoop_asks P (Resolving resolve) _ resolve (fun _ => True)
    (fun _ _ => hplain _ rfl) (fun t a r hr => ?_) fuel aliases seen profiles).mono
    (fun r hr ps h => ?_)
  · cases r with
    | ok p? => exact hr
    | error e => trivial
  · subst h
    exact hr

/-- `_allows` says yes only to a profile that passes the rules. -/
theorem asks_allows (profile : ModelProfile) :
    (allows c profile).Asks P A (fun r => r = .ok true → Passes c profile) := by
  unfold allows
  split
  · rename_i hpass
    exact Prog.asks_perform (hplain _ rfl) (fun _ _ _ => hpass)
  · intro h
    cases h

theorem asks_candidateFailed (profile : ModelProfile) (code : String) (t : Attempts) :
    (candidateFailed c profile code t).Asks P A (fun _ => True) :=
  asks_then (asks_plain hplain rfl) (fun _ => asks_then (asks_recordEvent hplain _ _ _ _ _ _)
    (fun _ => trivial))

theorem asks_candidateServed (profile : ModelProfile) (completion : List (String × Json)) :
    (candidateServed g c profile completion).Asks P A (fun _ => True) := by
  refine asks_then (asks_plain hplain rfl) (fun _ => ?_)
  dsimp only
  split
  · exact asks_then (asks_plain hplain rfl)
      (fun _ => asks_then (asks_recordEvent hplain _ _ _ _ _ _) (fun _ => trivial))
  · exact asks_then (asks_plain hplain rfl)
      (fun _ => asks_then (asks_recordEvent hplain _ _ _ _ _ _) (fun _ => trivial))

omit hplain in
theorem asks_readCompletion (response : HttpResponse) :
    (readCompletion response).Asks P A (fun _ => True) := by
  unfold readCompletion
  split
  · trivial
  · split <;> trivial

/-- **One candidate is called only if it passes.** -/
theorem asks_tryCandidate {profile : ModelProfile}
    (hpost : Passes c profile → A (.withinRateLimit (profile.tenantId, profile.modelAlias)
      profile.requestsPerMinute) (.ok true) → ∀ headers body, P (.post profile headers body))
    (t : Attempts) : (tryCandidate g c profile t).Asks P A (fun _ => True) := by
  refine (asks_allows hplain profile).bind (fun allowed hallowed => ?_) (fun _ _ => trivial)
  cases allowed with
  | false => trivial
  | true =>
    have hpass := hallowed rfl
    refine asks_then (asks_plain hplain rfl) (fun isOpen => ?_)
    cases isOpen with
    | true => trivial
    | false =>
      refine (Prog.asks_perform (hplain _ rfl) (fun r hr => hr)).bind (fun within hwithin => ?_)
        (fun _ _ => trivial)
      cases within with
      | false => trivial
      | true =>
        refine asks_then (asks_plain hplain rfl).capture (fun credential => ?_)
        cases credential with
        | error _ => exact asks_then (asks_candidateFailed hplain _ _ _) (fun _ => trivial)
        | ok credential =>
          have hprovider : (providerCompletion profile c.request.messages credential).Asks P A
              (fun _ => True) :=
            asks_then (Prog.asks_perform (hpost hpass hwithin _ _) (fun _ _ => trivial))
              (fun _ => asks_readCompletion _)
          refine asks_then hprovider.capture (fun completion => ?_)
          cases completion with
          | error _ => exact asks_then (asks_candidateFailed hplain _ _ _) (fun _ => trivial)
          | ok completion => exact asks_then (asks_candidateServed hplain _ _) (fun _ => trivial)

theorem asks_tryCandidates {profiles : List ModelProfile}
    (hpost : ∀ profile ∈ profiles, Passes c profile →
      A (.withinRateLimit (profile.tenantId, profile.modelAlias) profile.requestsPerMinute)
        (.ok true) → ∀ headers body, P (.post profile headers body)) (t : Attempts) :
    (tryCandidates g c profiles t).Asks P A (fun _ => True) := by
  induction profiles generalizing t with
  | nil =>
    unfold tryCandidates exhausted
    cases t.failureRecorded with
    | true => trivial
    | false => exact asks_then (asks_recordEvent hplain _ _ _ _ _ _) (fun _ => trivial)
  | cons profile rest ih =>
    refine asks_then (asks_tryCandidate hplain (hpost profile List.mem_cons_self) t)
      (fun out => ?_)
    cases out with
    | inl t' => exact ih (fun p hp => hpost p (List.mem_cons_of_mem _ hp)) t'
    | inr result => trivial

/-- The closing of a call. -/
theorem asks_completeReserved (bundle : Option BudgetReservationBundle)
    (hcall : (completeWithGuard g c).Asks P A (fun _ => True)) :
    (completeReserved g c bundle).Asks P A (fun _ => True) := by
  refine asks_then hcall.capture (fun out => ?_)
  cases out with
  | ok result =>
    cases bundle with
    | none => trivial
    | some bundle => exact asks_then (asks_plain hplain rfl) (fun _ => trivial)
  | error code =>
    have hrelease : (releaseReservation bundle code).Asks P A (fun _ => True) := by
      cases bundle with
      | none => trivial
      | some bundle =>
        refine asks_then (asks_plain hplain rfl).capture (fun out => ?_)
        cases out <;> trivial
    refine asks_then hrelease (fun _ => asks_then ?_ (fun _ => trivial))
    unfold recordRestricted
    split
    · exact asks_plain hplain rfl
    · trivial

/-- **What a call asks for**: it reserves for its own request, and unless a secret
was detected it calls the providers of profiles that pass the rules, have room in
their rate limit, and satisfy `C`, if its candidates do. -/
theorem asks_complete {C : ModelProfile → Prop}
    (hcandidates : (candidateProfiles request).Asks P A
      (fun r => ∀ ps, r = .ok ps → ∀ p ∈ ps, C p))
    (hreserve : P (.reserve request))
    (hpost : (scanMessages g.search (request.messages.map Json.ofDict)).blocked = false →
      ∀ c profile, c.request = request → c.effective = effectiveClassification g request →
      C profile → Passes c profile →
      A (.withinRateLimit (profile.tenantId, profile.modelAlias) profile.requestsPerMinute)
        (.ok true) → ∀ headers body, P (.post profile headers body)) :
    (complete g request).Asks P A (fun _ => True) := by
  refine asks_then (asks_plain hplain rfl) (fun startedAt => ?_)
  dsimp only
  split
  · unfold secretDetected
    split
    · refine asks_then (asks_plain hplain rfl).capture (fun out => ?_)
      cases out <;> trivial
    · trivial
  · rename_i hclear
    have hcall : ∀ c : CallContext, c.request = request →
        c.effective = effectiveClassification g request →
        (completeWithGuard g c).Asks P A (fun _ => True) := by
      intro c hc heffective
      refine Prog.Asks.bind (by rw [hc]; exact hcandidates) (fun ps hps => ?_)
        (fun _ _ => trivial)
      exact asks_tryCandidates hplain
        (fun profile hp hpass => hpost (Bool.not_eq_true _ ▸ hclear) c profile hc heffective
          (hps ps rfl profile hp) hpass) _
    split
    · exact asks_then (Prog.asks_perform hreserve (fun _ _ => trivial))
        (fun bundle => asks_completeReserved hplain _ (hcall _ rfl rfl))
    · exact asks_completeReserved hplain _ (hcall _ rfl rfl)

end Asks
