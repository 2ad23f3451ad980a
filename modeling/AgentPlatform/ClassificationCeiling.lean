import AgentPlatform.LlmCalls

/-!
# The classification ceiling of a profile

A profile states up to which classification it may see data. A call has two
classifications: the one its request declares, and the effective one, which
the content scan may have raised. This module asks whether a provider can be
called with a profile below the effective classification.

The policy in front of a provider is `OpaOutboundPolicy`: it answers from the
response of the policy engine and fails closed. It is told the effective
classification but not the profile's, so the ceiling is left to the gateway's
own rules – and these compare the profile with the declared classification.
-/

/-! ## The outbound policy -/

/-- What `except (httpx.HTTPError, ValueError, AttributeError)` catches. -/
def PyException.deniesOutbound : PyException → Bool
  | .httpx => true
  | .value _ => true
  | .other name => name = "AttributeError"
  | _ => false

/-- The value of a field is `True`. -/
def Json.fieldTrue (fields : List (String × Json)) (name : String) : Bool :=
  match fields.lookup name with
  | some (.bool true) => true
  | _ => false

/-- The decision in a result of the policy engine. -/
def opaDecision (effective : DataClassification) : Option Json → Bool
  | some (.bool true) => effective ≠ .RESTRICTED
  | some (.obj fields) =>
    if !Json.fieldTrue fields "allow" then false
    else if effective = .RESTRICTED then
      Json.fieldTrue fields "allow_restricted" && Json.fieldTrue fields "private_endpoint"
    else effective ≠ .CONFIDENTIAL || Json.fieldTrue fields "private_endpoint"
  | _ => false

/-- **`OpaOutboundPolicy.allows`**, for what the policy engine returned or the
client raised. A response that is no success raises `HTTPStatusError`, and a body
that is no object has no `get`. -/
def opaAllows (response : Except PyException HttpResponse) (effective : DataClassification) :
    Except PyException Bool :=
  let body := response.bind (fun r =>
    if 200 ≤ r.statusCode ∧ r.statusCode < 300 then r.json else .error .httpx)
  match body with
  | .error e => if e.deniesOutbound then .ok false else .error e
  | .ok (.obj fields) => .ok (opaDecision effective (fields.lookup "result"))
  | .ok _ => .ok false

example : opaAllows (.ok ⟨200, .ok (.obj [("result", .bool true)])⟩) .RESTRICTED = .ok false := by
  rfl

/-! ## Calls of a provider -/

/-- What the environment may answer: the resolver answers `resolve` or raises, and
the policy is `OpaOutboundPolicy`. -/
def OutboundAnswer (resolve : String → String → Option ModelProfile) (t : LlmTurn) (op : LlmOp) :
    Prop :=
  match op, t.answer with
  | .resolveProfile tenantId modelAlias, .profiles (.ok profile) =>
    profile = resolve tenantId modelAlias
  | .allows _ _ effective, .policy r => ∃ response, r = opaAllows response effective
  | _, _ => True

/-- The handler of a call among other calls, with a log of its requests. -/
def outbound (g : LLMGateway) (resolve : String → String → Option ModelProfile) :
    (op : LlmOp) → LlmState × List LlmOp → Except PyException (LlmRes op) →
      LlmState × List LlmOp → Prop :=
  Prog.Handled (Prog.logged (serveTurn g)) (fun t op _ => OutboundAnswer resolve t op)

/-- **The ceiling is kept**: in every run of a call, whatever the process
remembers, other calls do and the dependencies answer, a provider is called with
a profile only if the effective classification is within the profile's and not
restricted. -/
def CeilingKept (g : LLMGateway) (resolve : String → String → Option ModelProfile)
    (request : GatewayRequest) : Prop :=
  ∀ s r s', (complete g request).Runs (outbound g resolve) (s, []) r s' →
    ∀ profile headers body, .post profile headers body ∈ s'.2 →
      (effectiveClassification g request).rank ≤ profile.dataClassification.rank
        ∧ effectiveClassification g request ≠ .RESTRICTED

/-- **No candidate lies between the two classifications**: the call is blocked,
its content is restricted, or every candidate of the region that may see the
declared classification, and may be called at all, may see the effective one. -/
def NothingBetween (g : LLMGateway) (resolve : String → String → Option ModelProfile)
    (request : GatewayRequest) : Prop :=
  (scanMessages g.search (request.messages.map Json.ofDict)).blocked = true
    ∨ effectiveClassification g request = .RESTRICTED
    ∨ ∀ profile, Candidate request resolve profile → request.region = profile.region →
      request.dataClassification.rank ≤ profile.dataClassification.rank →
      0 < profile.requestsPerMinute →
      (effectiveClassification g request).rank ≤ profile.dataClassification.rank

section Kept

variable {g : LLMGateway} {resolve : String → String → Option ModelProfile}
  {request : GatewayRequest}

/-- What an answer tells: the resolver answers `resolve`, and a request is
admitted only within a positive rate limit. -/
def Told (resolve : String → String → Option ModelProfile) :
    (op : LlmOp) → Except PyException (LlmRes op) → Prop
  | .resolveProfile tenantId modelAlias, .ok profile => profile = resolve tenantId modelAlias
  | .withinRateLimit _ limit, .ok true => 0 < limit
  | _, _ => True

theorem Told.resolving {op : LlmOp} {r : Except PyException (LlmRes op)}
    (h : Told resolve op r) : Resolving resolve op r := by
  cases op with
  | resolveProfile tenantId modelAlias =>
    cases r with
    | ok profile => exact h
    | error e => trivial
  | _ => cases r <;> trivial

theorem withinRateLimit_pos {key : ProfileKey} {limit : ℤ} {now : ℚ} {m : LlmMemory}
    (h : (m.withinRateLimit key limit now).1 = true) : 0 < limit := by
  unfold LlmMemory.withinRateLimit at h
  dsimp only at h
  split at h
  · cases h
  · omega

/-- Answers tell the truth, and requests are logged. -/
theorem told_of_outbound {op : LlmOp} {s s' : LlmState × List LlmOp}
    {r : Except PyException (LlmRes op)} (h : outbound g resolve op s r s') :
    Told resolve op r ∧ s'.2 = s.2 ++ [op] := by
  obtain ⟨t, hanswered, hserve⟩ := h
  unfold Prog.logged at hserve
  obtain ⟨⟨r', s₁⟩, hserved, heq⟩ := Option.map_eq_some_iff.mp hserve
  cases heq
  refine ⟨?_, rfl⟩
  cases op with
  | resolveProfile tenantId modelAlias =>
    cases hanswer : t.answer with
    | profiles found =>
      unfold serveTurn at hserved
      unfold OutboundAnswer at hanswered
      rw [hanswer] at hserved hanswered
      cases hserved
      cases r' with
      | ok profile => exact hanswered
      | error e => trivial
    | _ => unfold serveTurn at hserved; rw [hanswer] at hserved; cases hserved
  | withinRateLimit key limit =>
    cases hanswer : t.answer with
    | clock now =>
      unfold serveTurn at hserved
      rw [hanswer] at hserved
      have hwithin : r' = .ok ((t.others.getD s.1.memory).withinRateLimit key limit now).1 :=
        (congrArg Prod.fst (Option.some.inj hserved)).symm
      show Told resolve (.withinRateLimit key limit) r'
      cases hpos : ((t.others.getD s.1.memory).withinRateLimit key limit now).1 with
      | true =>
        rw [hwithin, hpos]
        exact withinRateLimit_pos hpos
      | false =>
        rw [hwithin, hpos]
        trivial
    | _ => unfold serveTurn at hserved; rw [hanswer] at hserved; cases hserved
  | _ => cases r' <;> trivial

/-- **With nothing in between, the ceiling is kept.** -/
theorem ceilingKept_of_nothingBetween (h : NothingBetween g resolve request) :
    CeilingKept g resolve request := by
  let P : LlmOp → Prop := fun op => ∀ profile headers body, op = .post profile headers body →
    (effectiveClassification g request).rank ≤ profile.dataClassification.rank
      ∧ effectiveClassification g request ≠ .RESTRICTED
  have hplain : ∀ op : LlmOp, op.isPlain = true → P op := by
    intro op hop profile headers body h
    subst h
    cases hop
  have hcandidates : (candidateProfiles request).Asks P (Told resolve)
      (fun r => ∀ ps, r = .ok ps → ∀ p ∈ ps, Candidate request resolve p) := by
    refine ((asks_candidateLoop hplain _ _ _ _).of_answers (fun _ _ => Told.resolving)).mono ?_
    intro r hr ps hps p hp
    rw [hr ps hps] at hp
    exact mem_candidateList.mp hp
  have hcall : (complete g request).Asks P (Told resolve) (fun _ => True) := by
    refine asks_complete hplain hcandidates (fun _ _ _ h => by cases h) ?_
    intro hclear c profile hc heffective hcandidate hpass hlimit headers body p hs b heq
    cases heq
    obtain ⟨-, hrestricted, hregion, hrank⟩ := hpass
    rw [heffective] at hrestricted
    rw [hc] at hregion hrank
    rcases h with hblocked | heff | hbetween
    · rw [hclear] at hblocked
      cases hblocked
    · exact absurd heff hrestricted
    · exact ⟨hbetween profile hcandidate hregion hrank hlimit, hrestricted⟩
  intro s r s' hrun profile headers body hpost
  have hlog := (Prog.Asks.runs Prod.snd (fun _ _ _ _ => told_of_outbound) hcall hrun
    (by simp)).2
  exact hlog _ hpost profile headers body rfl

end Kept

/-! ## A call that goes over the ceiling

If a candidate lies in between, the call can be led to it: the policy refuses
the candidates before it and allows this one. The provider call is then
cancelled, which no handler of the gateway intercepts. -/

section Over

variable {g : LLMGateway} {resolve : String → String → Option ModelProfile}
  {request : GatewayRequest} {c : CallContext} {s : LlmState} {log : List LlmOp}

/-- One request, answered with nothing else happening. -/
theorem runs_answer {op : LlmOp} (answer : LlmAnswer) {r : Except PyException (LlmRes op)}
    {s' : LlmState} (hserve : serveLlm g answer op s = some (r, s'))
    (hanswered : OutboundAnswer resolve { answer := answer } op) :
    (LlmOp.ask op).Runs (outbound g resolve) (s, log) r (s', log ++ [op]) := by
  refine Prog.runs_perform ⟨{ answer := answer }, hanswered, ?_⟩
  show (serveLlm g answer op s).map _ = _
  rw [hserve]
  rfl

/-- The candidates can be found. -/
theorem runs_candidateLoop (fuel : ℕ) (aliases seen : List String) (profiles : List ModelProfile)
    (log : List LlmOp) :
    ∃ log', (candidateLoop request fuel aliases seen profiles).Runs (outbound g resolve) (s, log)
      (.ok (Worklist.search (visitAlias request resolve) (permittedFallbacks request) fuel
        aliases seen profiles)) (s, log') := by
  induction fuel generalizing aliases seen profiles log with
  | zero => exact ⟨log, Prog.runs_ret _ _⟩
  | succ fuel ih =>
    unfold candidateLoop
    cases hqueue : aliases.dropWhile (fun a => a ∈ seen) with
    | nil =>
      rw [Worklist.search_nil fuel hqueue]
      exact ⟨log, Prog.runs_ret _ _⟩
    | cons modelAlias rest =>
      obtain ⟨log₁, hlookup⟩ : ∃ log₁, (candidateProfile request modelAlias).Runs
          (outbound g resolve) (s, log) (.ok (lookupProfile request resolve modelAlias))
          (s, log₁) := by
        unfold candidateProfile lookupProfile
        cases request.profileSnapshots.reverse.find? (fun p => p.modelAlias = modelAlias) with
        | some profile => exact ⟨log, Prog.runs_ret _ _⟩
        | none =>
          dsimp only
          split
          · exact ⟨_, runs_answer (.profiles (.ok _)) rfl rfl⟩
          · exact ⟨log, Prog.runs_ret _ _⟩
      cases hfound : lookupProfile request resolve modelAlias with
      | none =>
        rw [hfound] at hlookup
        rw [Worklist.search_none fuel hqueue (by simp [visitAlias, hfound])]
        obtain ⟨log₂, hrest⟩ := ih rest (modelAlias :: seen) profiles log₁
        exact ⟨log₂, hlookup.bind hrest⟩
      | some profile =>
        rw [hfound] at hlookup
        by_cases htenant : profile.tenantId = request.tenantId
        · have hvisit : visitAlias request resolve modelAlias = some profile := by
            simp [visitAlias, hfound, Option.filter, htenant]
          rw [Worklist.search_some fuel hqueue hvisit]
          obtain ⟨log₂, hrest⟩ := ih (rest ++ permittedFallbacks request profile)
            (modelAlias :: seen) (profiles ++ [profile]) log₁
          refine ⟨log₂, hlookup.bind ?_⟩
          dsimp only
          rw [if_neg (not_not.mpr htenant)]
          exact hrest
        · have hvisit : visitAlias request resolve modelAlias = none := by
            simp [visitAlias, hfound, Option.filter, htenant]
          rw [Worklist.search_none fuel hqueue hvisit]
          obtain ⟨log₂, hrest⟩ := ih rest (modelAlias :: seen) profiles log₁
          refine ⟨log₂, hlookup.bind ?_⟩
          dsimp only
          rw [if_pos htenant]
          exact hrest

/-- A candidate can be refused by the policy. -/
theorem runs_refused (profile : ModelProfile) (t : Attempts) (log : List LlmOp) :
    ∃ log', (tryCandidate g c profile t).Runs (outbound g resolve) (s, log) (.ok (.inl t))
      (s, log') := by
  obtain ⟨log₁, hallows⟩ : ∃ log₁, (allows c profile).Runs (outbound g resolve) (s, log)
      (.ok false) (s, log₁) := by
    unfold allows
    split
    · exact ⟨_, runs_answer (.policy (.ok false)) rfl ⟨.error .httpx, rfl⟩⟩
    · exact ⟨log, Prog.runs_ret _ _⟩
  exact ⟨log₁, hallows.bind (Prog.runs_ret _ _)⟩

/-- A response of the policy engine that allows whatever can be allowed. -/
def opaYes : HttpResponse where
  statusCode := 200
  json := .ok (.obj [("result", .obj [("allow", .bool true), ("allow_restricted", .bool true),
    ("private_endpoint", .bool true)])])

theorem opaAllows_yes (effective : DataClassification) :
    opaAllows (.ok opaYes) effective = .ok true := by
  cases effective <;> rfl

/-- **A candidate that passes the rules can be called**, by a process that
remembers nothing. -/
theorem runs_called {profile : ModelProfile} (hpass : Passes c profile)
    (hlimit : 0 < profile.requestsPerMinute) (hs : s.memory = .empty) (t : Attempts)
    (log : List LlmOp) :
    ∃ s' headers body, (tryCandidate g c profile t).Runs (outbound g resolve) (s, log)
      (.error .cancelled) s' ∧ LlmOp.post profile headers body ∈ s'.2 := by
  have hallows : (allows c profile).Runs (outbound g resolve) (s, log) (.ok true)
      (s, log ++ [LlmOp.allows c.request profile c.effective]) := by
    unfold allows
    split
    · exact runs_answer (.policy (.ok true)) rfl ⟨.ok opaYes, (opaAllows_yes _).symm⟩
    · rename_i hdenied
      exact absurd hpass hdenied
  obtain ⟨log₂, hcircuit⟩ : ∃ log₂,
      (LlmOp.ask (.circuitOpen (profile.tenantId, profile.modelAlias))).Runs (outbound g resolve)
        (s, log ++ [LlmOp.allows c.request profile c.effective]) (.ok false) (s, log₂) := by
    refine ⟨_, runs_answer (.clock 0) ?_ trivial⟩
    obtain ⟨memory, closings⟩ := s
    subst hs
    rfl
  obtain ⟨s₁, log₃, hrate⟩ : ∃ s₁ log₃, (LlmOp.ask (.withinRateLimit
      (profile.tenantId, profile.modelAlias) profile.requestsPerMinute)).Runs
        (outbound g resolve) (s, log₂) (.ok true) (s₁, log₃) := by
    have hempty : (LlmMemory.empty.withinRateLimit (profile.tenantId, profile.modelAlias)
        profile.requestsPerMinute 0).1 = true := by
      unfold LlmMemory.withinRateLimit
      dsimp only
      rw [if_neg (by simpa [LlmMemory.empty] using hlimit)]
    have hserve : serveLlm g (.clock 0) (.withinRateLimit (profile.tenantId, profile.modelAlias)
        profile.requestsPerMinute) s = some (.ok true, { s with memory :=
          (LlmMemory.empty.withinRateLimit (profile.tenantId, profile.modelAlias)
            profile.requestsPerMinute 0).2 }) := by
      show some (Except.ok (s.memory.withinRateLimit _ profile.requestsPerMinute 0).1,
        ({ s with memory := (s.memory.withinRateLimit _ profile.requestsPerMinute 0).2 } :
          LlmState)) = _
      rw [hs, hempty]
    exact ⟨_, _, runs_answer (.clock 0) hserve trivial⟩
  obtain ⟨log₄, hsecret⟩ : ∃ log₄,
      (LlmOp.ask (.resolveSecret profile.tenantId profile.secretRef)).Runs (outbound g resolve)
        (s₁, log₃) (.ok "") (s₁, log₄) :=
    ⟨_, runs_answer (.secrets (.ok "")) rfl trivial⟩
  obtain ⟨headers, body, log₅, hpost, hmem⟩ : ∃ headers body log₅,
      (providerCompletion profile c.request.messages "").Runs (outbound g resolve) (s₁, log₄)
        (.error .cancelled) (s₁, log₅) ∧ LlmOp.post profile headers body ∈ log₅ :=
    ⟨_, _, _, Prog.Runs.bind_error _ (runs_answer (.client (.error .cancelled)) rfl trivial),
      List.mem_append_right _ (List.mem_singleton.mpr rfl)⟩
  refine ⟨_, headers, body, hallows.bind (hcircuit.bind (hrate.bind
    ((hsecret.capture_ok _).bind (Prog.Runs.bind_error _ (hpost.capture_raise rfl))))), hmem⟩

/-- The loop over the candidates can be led to one that can be called. -/
theorem runs_tryCandidates {profile : ModelProfile} (hpass : Passes c profile)
    (hlimit : 0 < profile.requestsPerMinute) (hs : s.memory = .empty)
    {profiles : List ModelProfile} (hmem : profile ∈ profiles) (t : Attempts)
    (log : List LlmOp) :
    ∃ s' headers body, (tryCandidates g c profiles t).Runs (outbound g resolve) (s, log)
      (.error .cancelled) s' ∧ .post profile headers body ∈ s'.2 := by
  induction profiles generalizing t log with
  | nil => cases hmem
  | cons first rest ih =>
    rcases List.mem_cons.mp hmem with rfl | hmem
    · obtain ⟨s', headers, body, hrun, hpost⟩ := runs_called hpass hlimit hs t log
      exact ⟨s', headers, body, Prog.Runs.bind_error _ hrun, hpost⟩
    · obtain ⟨log₁, hrefused⟩ := runs_refused first t log
      obtain ⟨s', headers, body, hrun, hpost⟩ := ih hmem t log₁
      exact ⟨s', headers, body, hrefused.bind hrun, hpost⟩

/-- The effective classification is no lower than the declared one. -/
theorem declared_not_restricted (h : effectiveClassification g request ≠ .RESTRICTED) :
    request.dataClassification ≠ .RESTRICTED := by
  intro hdeclared
  refine h ?_
  unfold effectiveClassification highestClassification
  rw [hdeclared]
  cases (scanMessages g.search (request.messages.map Json.ofDict)).detectedClassification <;> rfl

/-- **A candidate in between takes the call over the ceiling.** -/
theorem nothingBetween_of_ceilingKept (h : CeilingKept g resolve request) :
    NothingBetween g resolve request := by
  by_contra hbetween
  unfold NothingBetween at hbetween
  push Not at hbetween
  obtain ⟨hclear, heffective, profile, hcandidate, hregion, hrank, hlimit, hover⟩ := hbetween
  let s : LlmState := { memory := .empty }
  let c : CallContext :=
    { request := request
      startedAt := 0
      requestContentHash := g.contentHash (.arr (request.messages.map Json.ofDict))
      effective := effectiveClassification g request }
  have hpass : Passes c profile := ⟨declared_not_restricted heffective, heffective, hregion, hrank⟩
  have hcall : ∀ log, ∃ s' headers body, (completeWithGuard g c).Runs (outbound g resolve) (s, log)
      (.error .cancelled) s' ∧ LlmOp.post profile headers body ∈ s'.2 := by
    intro log
    obtain ⟨log₁, hcandidates⟩ := runs_candidateLoop (s := s) (g := g)
      (request.allowedFallbackAliases.length + 2) [request.modelAlias] [] [] log
    have hempty : s.memory = .empty := rfl
    obtain ⟨s', headers, body, hrun, hpost⟩ := runs_tryCandidates hpass hlimit hempty
      (mem_candidateList.mpr hcandidate) {} log₁
    exact ⟨s', headers, body, hcandidates.bind hrun, hpost⟩
  have hstart : (LlmOp.ask .monotonic).Runs (outbound g resolve) (s, []) (.ok 0)
      (s, [] ++ [LlmOp.monotonic]) := runs_answer (.clock 0) rfl trivial
  obtain ⟨s', headers, body, hrun, hpost⟩ : ∃ s' headers body,
      (complete g request).Runs (outbound g resolve) (s, []) (.error .cancelled) s'
        ∧ LlmOp.post profile headers body ∈ s'.2 := by
    cases hbudget : g.budget with
    | true =>
      let bundle : BudgetReservationBundle := { command := ⟨0, none, none, 0, none⟩ }
      have hreserve : ∀ log, (LlmOp.ask (.reserve request)).Runs (outbound g resolve) (s, log)
          (.ok bundle) (s, log ++ [LlmOp.reserve request]) :=
        fun log => runs_answer (.reserve (.ok bundle)) rfl trivial
      obtain ⟨s', headers, body, hrun, hpost⟩ := hcall
        ([] ++ [LlmOp.monotonic] ++ [LlmOp.reserve request])
      refine ⟨s', headers, body, hstart.bind ?_, hpost⟩
      dsimp only
      rw [if_neg hclear, if_pos hbudget]
      exact (hreserve _).bind (Prog.Runs.bind_error _ (hrun.capture_raise rfl))
    | false =>
      obtain ⟨s', headers, body, hrun, hpost⟩ := hcall ([] ++ [LlmOp.monotonic])
      refine ⟨s', headers, body, hstart.bind ?_, hpost⟩
      dsimp only
      rw [if_neg hclear, if_neg (by simp [hbudget])]
      exact Prog.Runs.bind_error _ (hrun.capture_raise rfl)
  exact absurd (h s _ s' hrun profile headers body hpost).1 (not_le.mpr hover)

end Over

/-- **When the ceiling is kept**: exactly when no candidate lies between the
declared and the effective classification. -/
theorem ceiling_kept_iff (g : LLMGateway) (resolve : String → String → Option ModelProfile)
    (request : GatewayRequest) :
    CeilingKept g resolve request ↔ NothingBetween g resolve request :=
  ⟨nothingBetween_of_ceilingKept, ceilingKept_of_nothingBetween⟩

/-! ## A phone number for a public model -/

/-- A profile for public data. -/
def publicProfile : ModelProfile where
  tenantId := "t1"
  modelAlias := "chat"
  providerModel := "provider-chat"
  endpointUrl := "https://fake-llm.test/v1/chat/completions"
  secretRef := "vault://tenant/t1/chat#key"
  dataClassification := .PUBLIC
  region := "cn"
  fallbackAliases := []
  requestsPerMinute := 60

/-- A message declared public that has a phone number in it. -/
def phoneRequest : GatewayRequest where
  tenantId := "t1"
  modelAlias := "chat"
  messages := [[("role", "user"), ("content", "call 13800138000")]]
  dataClassification := .PUBLIC
  region := "cn"
  profileSnapshots := [publicProfile]

/-- The gateway; of all rules, only the one for phone numbers matches the
message. -/
def phoneGateway : LLMGateway where
  budget := false
  policyAudit := false
  search := fun pattern content => pattern = "\\b1[3-9]\\d\x7b9\x7d\\b"
    && content = "\x7b\"role\": \"user\", \"content\": \"call 13800138000\"\x7d"
  contentHash := fun _ => ""

theorem phoneRequest_effective :
    effectiveClassification phoneGateway phoneRequest = .INTERNAL := by decide +kernel

/-- **The phone number reaches the public model.** -/
theorem ceiling_exceeded : ¬ CeilingKept phoneGateway (fun _ _ => none) phoneRequest := by
  intro h
  rcases nothingBetween_of_ceilingKept h with hblocked | hrestricted | hbetween
  · have hclear : (scanMessages phoneGateway.search
        (phoneRequest.messages.map Json.ofDict)).blocked = false := by decide +kernel
    rw [hclear] at hblocked
    cases hblocked
  · rw [phoneRequest_effective] at hrestricted
    cases hrestricted
  · have hcandidate : Candidate phoneRequest (fun _ _ => none) publicProfile :=
      ⟨"chat", .start (List.mem_singleton.mpr rfl) rfl⟩
    have hrank := hbetween publicProfile hcandidate rfl (le_refl _) (by decide)
    rw [phoneRequest_effective] at hrank
    exact absurd hrank (by decide)
