import AgentPlatform.Budgets
import AgentPlatform.Governance

/-!
# The LLM gateway

The embedding of `LLMGateway`: how one completion request is served. The
messages are scanned, the estimated cost is reserved, and the candidate
profiles – the requested model and its permitted fallbacks – are tried in
turn: each must pass the outbound policy, its circuit must be closed, its rate
limit must leave room, and its credential must resolve before the provider is
called. The first completion is returned; when no candidate gives one, the
call fails with the code of what stood in the way.

A call is a program whose requests go to the dependencies the gateway was
built with – the profile resolver, the policy, the secret provider, the HTTP
client, the budget guard, the audit sink, the observer – and to the gateway's
own memory of failures, open circuits and recent requests, which all calls of
the process share. A dependency may answer anything or raise anything.
-/

/-- `GatewayResult`. -/
structure GatewayResult where
  modelAlias : String
  fallbackUsed : Bool
  completion : List (String × Json)

/-- `ModelProfile`. -/
structure ModelProfile where
  tenantId : String
  modelAlias : String
  providerModel : String
  endpointUrl : String
  secretRef : String
  dataClassification : DataClassification
  region : String
  fallbackAliases : List String
  requestsPerMinute : ℤ

/-- `GatewayRequest`. -/
structure GatewayRequest where
  tenantId : String
  modelAlias : String
  messages : List (List (String × String))
  dataClassification : DataClassification
  region : String
  allowedFallbackAliases : List String := []
  profileSnapshots : List ModelProfile := []
  releaseId : Option String := none
  applicationId : Option String := none
  executionId : Option String := none

/-- `GatewayEvent`, as the observer receives it. Token counts are the JSON
integers of the provider's usage report; `cost_micros` is always absent. -/
structure GatewayEvent where
  tenantId : String
  modelAlias : String
  fallbackUsed : Bool
  outcome : String
  errorCode : Option String
  requestContentHash : String
  responseContentHash : Option String
  latencyMs : ℤ
  inputTokens : Option Json
  outputTokens : Option Json

/-- The response of a provider: its status, and what reading its body as JSON
returns or raises. -/
structure HttpResponse where
  statusCode : ℤ
  json : Except PyException Json

/-- The gateway's construction: its settings, and which optional dependencies
it has. `search` and `contentHash` are the library functions it calls: a
regular expression search, and the SHA-256 of a value's `repr`. -/
structure LLMGateway where
  circuitFailureThreshold : ℤ := 3
  circuitResetSeconds : ℚ := 30
  budget : Bool
  policyAudit : Bool
  search : String → String → Bool
  contentHash : Json → String

/-- A profile is remembered by tenant and alias. -/
abbrev ProfileKey := String × String

/-- **What a gateway process remembers.** -/
structure LlmMemory where
  failures : ProfileKey → ℤ
  openedAt : ProfileKey → Option ℚ
  requests : ProfileKey → List ℚ
  /-- Reason and detail of the `MODEL` degradation, while there is one. -/
  degradation : Option (String × String)

namespace LlmMemory

/-- Nothing has happened yet. -/
def empty : LlmMemory where
  failures := fun _ => 0
  openedAt := fun _ => none
  requests := fun _ => []
  degradation := none

/-- `_circuit_open`, at the time `now`. An expired circuit is closed. -/
def circuitOpen (g : LLMGateway) (key : ProfileKey) (now : ℚ) (m : LlmMemory) :
    Bool × LlmMemory :=
  match m.openedAt key with
  | none => (false, m)
  | some openedAt =>
    if now - openedAt < g.circuitResetSeconds then (true, m)
    else (false, { m with
      openedAt := Function.update m.openedAt key none
      failures := Function.update m.failures key 0 })

/-- `_within_rate_limit`, at the time `now`. Requests older than a minute are
forgotten; an admitted request is remembered. -/
def withinRateLimit (key : ProfileKey) (limit : ℤ) (now : ℚ) (m : LlmMemory) :
    Bool × LlmMemory :=
  let recent := (m.requests key).dropWhile (fun t => t ≤ now - 60)
  if limit ≤ recent.length then
    (false, { m with requests := Function.update m.requests key recent })
  else
    (true, { m with requests := Function.update m.requests key (recent ++ [now]) })

/-- `_record_failure`, at the time `now`. -/
def recordFailure (g : LLMGateway) (key : ProfileKey) (now : ℚ) (m : LlmMemory) :
    LlmMemory :=
  let failures := m.failures key + 1
  { m with
    failures := Function.update m.failures key failures
    openedAt := if g.circuitFailureThreshold ≤ failures
      then Function.update m.openedAt key (some now) else m.openedAt }

/-- `_record_success`. -/
def recordSuccess (key : ProfileKey) (m : LlmMemory) : LlmMemory :=
  { m with
    failures := Function.update m.failures key 0
    openedAt := Function.update m.openedAt key none }

end LlmMemory

/-! ## Requests and answers -/

/-- The requests of a call. -/
inductive LlmOp where
  /-- The monotonic clock of the process, in seconds. -/
  | monotonic
  | circuitOpen (key : ProfileKey)
  | withinRateLimit (key : ProfileKey) (limit : ℤ)
  | recordFailure (key : ProfileKey)
  | recordSuccess (key : ProfileKey)
  /-- The degradation registry is told that a fallback served the call, … -/
  | degrade (reason detail : String)
  /-- … or that the primary model did. -/
  | restore (reason : String)
  | resolveProfile (tenantId modelAlias : String)
  | allows (request : GatewayRequest) (profile : ModelProfile) (effective : DataClassification)
  | resolveSecret (tenantId secretRef : String)
  /-- A `POST` to the endpoint of a profile. -/
  | post (profile : ModelProfile) (headers : List (String × String)) (body : Json)
  | recordEvent (event : GatewayEvent)
  | recordDenied (request : GatewayRequest) (effective : DataClassification) (reason : String)
  | reserve (request : GatewayRequest)
  | settle (bundle : BudgetReservationBundle)
  | release (bundle : BudgetReservationBundle) (reason : String)

/-- What a request is answered with. -/
abbrev LlmRes : LlmOp → Type
  | .monotonic => ℚ
  | .circuitOpen _ => Bool
  | .withinRateLimit .. => Bool
  | .recordFailure _ => Unit
  | .recordSuccess _ => Unit
  | .degrade .. => Unit
  | .restore _ => Unit
  | .resolveProfile .. => Option ModelProfile
  | .allows .. => Bool
  | .resolveSecret .. => String
  | .post .. => HttpResponse
  | .recordEvent _ => Unit
  | .recordDenied .. => Unit
  | .reserve _ => BudgetReservationBundle
  | .settle _ => Unit
  | .release .. => Unit

/-- **What the environment answers**, by the dependency that answers: a time
for the process's own bookkeeping, a value or an exception for the others. -/
inductive LlmAnswer where
  | clock (now : ℚ)
  | profiles (r : Except PyException (Option ModelProfile))
  | policy (r : Except PyException Bool)
  | secrets (r : Except PyException String)
  | client (r : Except PyException HttpResponse)
  | observer (r : Except PyException Unit)
  | audit (r : Except PyException Unit)
  | reserve (r : Except PyException BudgetReservationBundle)
  | settle (r : Except PyException Unit)
  | release (r : Except PyException Unit)

/-- A closing call made to the budget guard. -/
inductive Closing where
  | settle (bundle : BudgetReservationBundle)
  | release (bundle : BudgetReservationBundle) (reason : String)
  deriving DecidableEq, Repr

/-- The state a call runs in: the memory of the process, and the closing calls
it has made. -/
structure LlmState where
  memory : LlmMemory
  closings : List Closing := []

/-- What a request does under an answer; an answer of another dependency is
refused. -/
def serveLlm (g : LLMGateway) (a : LlmAnswer) (op : LlmOp) (s : LlmState) :
    Option (Except PyException (LlmRes op) × LlmState) :=
  match op, a with
  | .monotonic, .clock now => some (.ok now, s)
  | .circuitOpen key, .clock now =>
    let (isOpen, m) := s.memory.circuitOpen g key now
    some (.ok isOpen, { s with memory := m })
  | .withinRateLimit key limit, .clock now =>
    let (within, m) := s.memory.withinRateLimit key limit now
    some (.ok within, { s with memory := m })
  | .recordFailure key, .clock now =>
    some (.ok (), { s with memory := s.memory.recordFailure g key now })
  | .recordSuccess key, .clock _ =>
    some (.ok (), { s with memory := s.memory.recordSuccess key })
  | .degrade reason detail, .clock _ =>
    some (.ok (), { s with memory := { s.memory with degradation := some (reason, detail) } })
  | .restore _, .clock _ =>
    some (.ok (), { s with memory := { s.memory with degradation := none } })
  | .resolveProfile .., .profiles r => some (r, s)
  | .allows .., .policy r => some (r, s)
  | .resolveSecret .., .secrets r => some (r, s)
  | .post .., .client r => some (r, s)
  | .recordEvent _, .observer r => some (r, s)
  | .recordDenied .., .audit r => some (r, s)
  | .reserve _, .reserve r => some (r, s)
  | .settle bundle, .settle r =>
    some (r, { s with closings := s.closings ++ [.settle bundle] })
  | .release bundle reason, .release r =>
    some (r, { s with closings := s.closings ++ [.release bundle reason] })
  | _, _ => none

/-- One turn of the environment: what other calls made of the shared memory
since the last request – nothing, or anything – and the answer. -/
structure LlmTurn where
  others : Option LlmMemory := none
  answer : LlmAnswer

/-- The handler of a call among other calls of the process. -/
def serveTurn (g : LLMGateway) (t : LlmTurn) (op : LlmOp) (s : LlmState) :
    Option (Except PyException (LlmRes op) × LlmState) :=
  serveLlm g t.answer op { s with memory := t.others.getD s.memory }

/-! ## The program -/

/-- A program of the gateway. -/
abbrev LlmProg (α : Type) := Prog LlmOp LlmRes PyException α

/-- Issue a request. -/
def LlmOp.ask (op : LlmOp) : LlmProg (LlmRes op) := Prog.perform op

/-- The code of a `ModelGatewayError`. -/
def PyException.modelGatewayCode : PyException → Option String
  | .modelGateway code => some code
  | _ => none

/-- What `except Exception` catches. -/
def PyException.caughtByException (e : PyException) : Option Unit :=
  if e.isException then some () else none

/-- What `except (httpx.HTTPError, ModelGatewayError)` catches. -/
def PyException.upstream : PyException → Option Unit
  | .httpx => some ()
  | .modelGateway _ => some ()
  | _ => none

/-- What `except ValueError` catches. -/
def PyException.isValueError : PyException → Bool
  | .value _ => true
  | _ => false

/-- A JSON value that Python holds as an `int`: an integer literal, or a
boolean. -/
def Json.isInt : Json → Bool
  | .bool _ => true
  | .num literal => literal.toList.all (fun c => c.isDigit || c = '-')
  | _ => false

/-- `_token_count`: the first of the keys whose value is an integer. -/
def tokenCount (usage : List (String × Json)) (keys : List String) : Option Json :=
  keys.findSome? (fun key => (usage.lookup key).filter Json.isInt)

/-- The usage report of a completion, empty unless it is an object. -/
def usageOf (completion : Option (List (String × Json))) : List (String × Json) :=
  match completion.bind (fun c => c.lookup "usage") with
  | some (.obj fields) => fields
  | _ => []

/-- `int(x)`: a number without its fraction. -/
def truncate (x : ℚ) : ℤ := if 0 ≤ x then x.floor else x.ceil

/-- What all events of one call have in common. -/
structure CallContext where
  request : GatewayRequest
  startedAt : ℚ
  requestContentHash : String
  effective : DataClassification

/-- `_record_event`. -/
def recordEvent (c : CallContext) (modelAlias : String) (fallbackUsed : Bool)
    (outcome : String) (errorCode responseContentHash : Option String)
    (completion : Option (List (String × Json))) : LlmProg Unit := do
  let now ← LlmOp.ask .monotonic
  LlmOp.ask (.recordEvent
    { tenantId := c.request.tenantId
      modelAlias := modelAlias
      fallbackUsed := fallbackUsed
      outcome := outcome
      errorCode := errorCode
      requestContentHash := c.requestContentHash
      responseContentHash := responseContentHash
      latencyMs := truncate ((now - c.startedAt) * 1000)
      inputTokens := tokenCount (usageOf completion) ["prompt_tokens", "input_tokens"]
      outputTokens := tokenCount (usageOf completion) ["completion_tokens", "output_tokens"] })

/-- The profile an alias stands for. A request with snapshots is served from
them alone; the last snapshot of an alias counts. -/
def candidateProfile (request : GatewayRequest) (modelAlias : String) :
    LlmProg (Option ModelProfile) :=
  match request.profileSnapshots.reverse.find? (fun p => p.modelAlias = modelAlias) with
  | some profile => return some profile
  | none =>
    if request.profileSnapshots.isEmpty then
      LlmOp.ask (.resolveProfile request.tenantId modelAlias)
    else return none

/-- The loop of `_candidate_profiles`: `aliases` is the queue, `seen` what has
been taken from it. Aliases already seen are skipped, so `fuel` counts the
new ones only, and there are no more of them than the request permits. -/
def candidateLoop (request : GatewayRequest) :
    ℕ → List String → List String → List ModelProfile → LlmProg (List ModelProfile)
  | 0, _, _, profiles => return profiles
  | fuel + 1, aliases, seen, profiles =>
    match aliases.dropWhile (fun a => a ∈ seen) with
    | [] => return profiles
    | modelAlias :: rest => do
      match ← candidateProfile request modelAlias with
      | none => candidateLoop request fuel rest (modelAlias :: seen) profiles
      | some profile =>
        if profile.tenantId ≠ request.tenantId then
          candidateLoop request fuel rest (modelAlias :: seen) profiles
        else
          candidateLoop request fuel
            (rest ++ profile.fallbackAliases.filter
              (fun f => f ∈ request.allowedFallbackAliases))
            (modelAlias :: seen) (profiles ++ [profile])

/-- **`_candidate_profiles`**: the requested model and, breadth first, the
fallbacks the request permits. -/
def candidateProfiles (request : GatewayRequest) : LlmProg (List ModelProfile) :=
  candidateLoop request (request.allowedFallbackAliases.length + 2) [request.modelAlias] [] []

/-- `_allows`: the gateway's own rules, then the outbound policy. -/
def allows (c : CallContext) (profile : ModelProfile) : LlmProg Bool :=
  if c.request.dataClassification ≠ .RESTRICTED ∧ c.effective ≠ .RESTRICTED
      ∧ c.request.region = profile.region
      ∧ c.request.dataClassification.rank ≤ profile.dataClassification.rank then
    LlmOp.ask (.allows c.request profile c.effective)
  else return false

/-- The completion in a response: an object, read from a body of a status that
is no error. -/
def readCompletion (response : HttpResponse) : LlmProg (List (String × Json)) :=
  if 400 ≤ response.statusCode then throw (.modelGateway "UPSTREAM_FAILURE")
  else match response.json with
    | .error e =>
      throw (if e.isValueError then .modelGateway "UPSTREAM_INVALID_RESPONSE" else e)
    | .ok (.obj fields) => return fields
    | .ok _ => throw (.modelGateway "UPSTREAM_INVALID_RESPONSE")

/-- `_provider_completion`. -/
def providerCompletion (profile : ModelProfile) (messages : List (List (String × String)))
    (credential : String) : LlmProg (List (String × Json)) := do
  let response ← LlmOp.ask (.post profile
    [("Authorization", "Bearer " ++ credential), ("X-Model-Alias", profile.modelAlias)]
    (.obj [("model", .str profile.providerModel),
      ("messages", .arr (messages.map Json.ofDict))]))
  readCompletion response

/-- The local variables of the loop over the candidates. -/
structure Attempts where
  attempted : Bool := false
  rateLimited : Bool := false
  circuitOpen : Bool := false
  lastFailureCode : Option String := none
  failureRecorded : Bool := false

/-- A candidate failed with a code: the failure counts for its circuit and is
reported. -/
def candidateFailed (c : CallContext) (profile : ModelProfile) (code : String)
    (t : Attempts) : LlmProg Attempts := do
  LlmOp.ask (.recordFailure (profile.tenantId, profile.modelAlias))
  recordEvent c profile.modelAlias false "FAILURE" (some code) none none
  return { t with lastFailureCode := some code, failureRecorded := true }

/-- A candidate completed the call. -/
def candidateServed (g : LLMGateway) (c : CallContext) (profile : ModelProfile)
    (completion : List (String × Json)) : LlmProg GatewayResult := do
  LlmOp.ask (.recordSuccess (profile.tenantId, profile.modelAlias))
  let fallbackUsed := profile.modelAlias ≠ c.request.modelAlias
  if fallbackUsed then
    LlmOp.ask (.degrade "LLM_FALLBACK_USED"
      ("primary=" ++ c.request.modelAlias ++ " served_by=" ++ profile.modelAlias))
  else
    LlmOp.ask (.restore "PRIMARY_RECOVERED")
  recordEvent c profile.modelAlias fallbackUsed "SUCCESS" none
    (some (g.contentHash (.obj completion))) (some completion)
  return {
    modelAlias := profile.modelAlias
    fallbackUsed := fallbackUsed
    completion := completion }

/-- **One candidate**: a result, or the variables for the next round. -/
def tryCandidate (g : LLMGateway) (c : CallContext) (profile : ModelProfile) (t : Attempts) :
    LlmProg (Attempts ⊕ GatewayResult) := do
  if !(← allows c profile) then return .inl t
  let t := { t with attempted := true }
  let key := (profile.tenantId, profile.modelAlias)
  if ← LlmOp.ask (.circuitOpen key) then return .inl { t with circuitOpen := true }
  if !(← LlmOp.ask (.withinRateLimit key profile.requestsPerMinute)) then
    return .inl { t with rateLimited := true }
  match ← (LlmOp.ask (.resolveSecret profile.tenantId profile.secretRef)).capture
      PyException.caughtByException with
  | .error _ => return .inl (← candidateFailed c profile "SECRET_RESOLUTION_FAILED" t)
  | .ok credential =>
    match ← (providerCompletion profile c.request.messages credential).capture
        PyException.upstream with
    | .error _ => return .inl (← candidateFailed c profile "UPSTREAM_FAILURE" t)
    | .ok completion => return .inr (← candidateServed g c profile completion)

/-- The code of a call that no candidate completed. -/
def Attempts.code (t : Attempts) : String :=
  if !t.attempted then "MODEL_POLICY_DENIED"
  else if t.rateLimited && !t.circuitOpen then "RATE_LIMITED"
  else if t.circuitOpen && !t.rateLimited then "CIRCUIT_OPEN"
  else if t.lastFailureCode = some "SECRET_RESOLUTION_FAILED" then "SECRET_RESOLUTION_FAILED"
  else "MODEL_UNAVAILABLE"

/-- No candidate completed the call. -/
def exhausted (c : CallContext) (t : Attempts) : LlmProg GatewayResult := do
  if !t.failureRecorded then
    recordEvent c c.request.modelAlias false "FAILURE" (some t.code) none none
  throw (.modelGateway t.code)

/-- The loop over the candidates. -/
def tryCandidates (g : LLMGateway) (c : CallContext) :
    List ModelProfile → Attempts → LlmProg GatewayResult
  | [], t => exhausted c t
  | profile :: rest, t => do
    match ← tryCandidate g c profile t with
    | .inl t => tryCandidates g c rest t
    | .inr result => return result

/-- **`_complete_with_guard`.** -/
def completeWithGuard (g : LLMGateway) (c : CallContext) : LlmProg GatewayResult := do
  tryCandidates g c (← candidateProfiles c.request) {}

/-- A message with a secret in it: the denial is recorded, and a denial that
cannot be recorded is an error of its own. -/
def secretDetected (g : LLMGateway) (request : GatewayRequest) (scan : ContentScanResult) :
    LlmProg GatewayResult := do
  if g.policyAudit then
    match ← (LlmOp.ask (.recordDenied request
        (highestClassification
          [some request.dataClassification, some scan.detectedClassification])
        ("secret detected: " ++ ", ".intercalate scan.detectedSecrets))).capture
        PyException.caughtByException with
    | .error _ => throw (.modelGateway "AUDIT_UNAVAILABLE")
    | .ok _ => throw (.modelGateway "SECRET_DETECTED")
  else throw (.modelGateway "SECRET_DETECTED")

/-- The reservation is returned. -/
def releaseReservation (bundle : Option BudgetReservationBundle) (code : String) :
    LlmProg Unit := do
  match bundle with
  | none => return ()
  | some bundle =>
    match ← (LlmOp.ask (.release bundle code)).capture PyException.caughtByException with
    | .error _ => throw (.modelGateway "BUDGET_STATE_UNKNOWN")
    | .ok _ => return ()

/-- A denial of restricted content is recorded. -/
def recordRestricted (g : LLMGateway) (c : CallContext) (code : String) : LlmProg Unit :=
  if g.policyAudit ∧ c.effective = .RESTRICTED ∧ code = "MODEL_POLICY_DENIED" then
    LlmOp.ask (.recordDenied c.request c.effective code)
  else return ()

/-- The call failed upstream. -/
def failedUpstream (g : LLMGateway) (c : CallContext)
    (bundle : Option BudgetReservationBundle) (code : String) : LlmProg GatewayResult := do
  releaseReservation bundle code
  recordRestricted g c code
  throw (.modelGateway code)

/-- A call that completed is settled. -/
def settleResult (bundle : Option BudgetReservationBundle) (result : GatewayResult) :
    LlmProg GatewayResult := do
  match bundle with
  | none => return result
  | some bundle =>
    LlmOp.ask (.settle bundle)
    return result

/-- The call between reservation and closing. -/
def completeReserved (g : LLMGateway) (c : CallContext)
    (bundle : Option BudgetReservationBundle) : LlmProg GatewayResult := do
  match ← (completeWithGuard g c).capture PyException.modelGatewayCode with
  | .error code => failedUpstream g c bundle code
  | .ok result => settleResult bundle result

/-- **`complete`.** Governance runs before anything billable: a detected secret
blocks outright, and the raised classification rides the policy checks. -/
def complete (g : LLMGateway) (request : GatewayRequest) : LlmProg GatewayResult := do
  let startedAt ← LlmOp.ask .monotonic
  let messages := request.messages.map Json.ofDict
  let scan := scanMessages g.search messages
  if scan.blocked then secretDetected g request scan
  else do
    let c : CallContext :=
      { request := request
        startedAt := startedAt
        requestContentHash := g.contentHash (.arr messages)
        effective := highestClassification
          [some request.dataClassification, some scan.detectedClassification] }
    if g.budget then
      let bundle ← LlmOp.ask (.reserve request)
      completeReserved g c (some bundle)
    else completeReserved g c none
