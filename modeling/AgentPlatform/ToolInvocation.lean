import AgentPlatform.Approvals

/-!
# Governed tool invocation

The embedding of `ToolInvocationService` in `tool/executor.py`, with
`validate_params` of `tool/registry.py`. An invocation resolves the tool,
checks scopes and parameters, passes the approval gate when the tool has side
effects that need one, looks for a replay of its idempotency key, executes
under the retry contract of the side effect, and writes one record.
-/

/-- `a or b` on an optional text: an empty text counts as absent. -/
def orText (a : Option String) (b : String) : String :=
  match a with
  | some s => if s = "" then b else s
  | none => b

/-! ## Parameters -/

/-- `canonical_params_hash`. -/
def canonicalParamsHash (sha256 : String → String) (params : Dict) : String :=
  sha256 (Json.obj params).dumps

namespace ValidateParams

/-- `ToolInvocationError("TOOL_PARAMS_INVALID")`. -/
def invalid : ToolException := .toolInvocation "TOOL_PARAMS_INVALID"

/-- A `TypeError` of the runtime. -/
def typeError : ToolException := .py (.other "TypeError")

/-- One required key is present. A list or a dictionary cannot be a key. -/
def requiredKey (params : Dict) : Json → Except ToolException Unit
  | .str key => if params.any (fun f => f.1 = key) then .ok () else .error invalid
  | .arr _ => .error typeError
  | .obj _ => .error typeError
  | _ => .error invalid

/-- The keys `for key in schema.get("required", [])` goes through. -/
def requiredKeys : Option Json → Except ToolException (List Json)
  | none => .ok []
  | some (.arr items) => .ok items
  | some (.obj fields) => .ok (fields.map (fun f => .str f.1))
  | some (.str s) => .ok (s.toList.map (fun c => .str (String.ofList [c])))
  | some _ => .error typeError

/-- `isinstance(value, _JSON_TYPES.get(expected, (object,)))`, for a value that
is not a boolean where none is expected. -/
def hasType (expected : String) (value : Json) : Bool :=
  if expected = "string" then
    match value with
    | .str _ => true
    | _ => false
  else if expected = "number" then
    match value with
    | .num _ => true
    | _ => false
  else if expected = "integer" then
    match value with
    | .num literal => literal.toList.all (fun c => c.isDigit || c = '-')
    | _ => false
  else if expected = "boolean" then
    match value with
    | .bool _ => true
    | _ => false
  else if expected = "array" then
    match value with
    | .arr _ => true
    | _ => false
  else if expected = "object" then
    match value with
    | .obj _ => true
    | _ => false
  else true

/-- One parameter has the type its property declares. -/
def checkType (value : Json) : Option Json → Except ToolException Unit
  | none => .ok ()
  | some .null => .ok ()
  | some (.str expected) =>
    match value with
    | .bool _ => if expected = "boolean" then .ok () else .error invalid
    | _ => if hasType expected value then .ok () else .error invalid
  | some (.arr _) =>
    match value with
    | .bool _ => .error invalid
    | _ => .error typeError
  | some (.obj _) =>
    match value with
    | .bool _ => .error invalid
    | _ => .error typeError
  | some _ =>
    match value with
    | .bool _ => .error invalid
    | _ => .ok ()

/-- The type a property declares. -/
def declaredType (properties : Dict) (key : String) : Except ToolException (Option Json) :=
  match properties.get? key with
  | none => .ok none
  | some (.obj fields) => .ok (Dict.get? fields "type")
  | some _ => .error (.py (.other "AttributeError"))

end ValidateParams

open ValidateParams in
/-- **`validate_params`**: no parameter the schema does not declare, none
missing that it requires, and each of the declared type. -/
def validateParams (definition : ToolDefinition) (params : Dict) : Except ToolException Dict := do
  let properties ← match definition.inputSchema.get? "properties" with
    | none => .ok []
    | some (.obj fields) => .ok fields
    | some _ => .error typeError
  if params.any (fun f => !properties.any (fun p => p.1 = f.1)) then .error invalid
  else
    let required ← requiredKeys (definition.inputSchema.get? "required")
    required.forM (requiredKey params)
    params.forM (fun f => do checkType f.2 (← declaredType properties f.1))
    .ok params

/-! ## The service -/

namespace ToolInvocationService

variable (P : ToolPlatform)

/-- What a blocked invocation is recorded with. -/
structure Blocked where
  tenantId : Uuid
  toolName : String
  params : Dict
  requestedBy : String
  errorCode : String
  toolVersion : Option ℤ := none
  sideEffect : Option ToolSideEffect := none
  executionId : Option String := none
  sessionId : Option String := none
  releaseId : Option String := none

/-- The record of a blocked invocation. -/
def blockedRecord (b : Blocked) (callId : Uuid) : ToolInvocationRecord where
  callId := callId
  tenantId := b.tenantId
  toolName := b.toolName
  toolVersion := b.toolVersion
  sideEffect := b.sideEffect.map ToolSideEffect.str
  params := b.params
  paramsHash := canonicalParamsHash P.sha256 b.params
  idempotencyKey := none
  status := .BLOCKED
  attempts := 0
  costMicros := 0
  requestedBy := b.requestedBy
  executionId := b.executionId
  sessionId := b.sessionId
  releaseId := b.releaseId
  errorCode := some b.errorCode

/-- **`_record_blocked`.** -/
def recordBlocked (b : Blocked) : ToolProg Unit := do
  let callId ← ToolOp.uuid4.ask
  (ToolOp.record (blockedRecord P b callId)).ask

/-- The outcome of an execution: status, error code, result and attempts. -/
abbrev Outcome := ToolInvocationStatus × Option String × Option Dict × ℕ

/-- `_write_outcome`. -/
def writeOutcome (sideEffect : ToolSideEffect) (errorCode : String) (attempts : ℕ) : Outcome :=
  if sideEffect ≠ .READ_ONLY then (.OUTCOME_UNKNOWN, some errorCode, none, attempts)
  else (.FAILED, some errorCode, none, attempts)

/-- `can_retry`. -/
def canRetry (definition : ToolDefinition) (key : Option String) : Bool :=
  definition.sideEffect = .READ_ONLY
    || (definition.sideEffect = .IDEMPOTENT_WRITE && definition.supportsIdempotency && key.isSome)

/-- The contract lets an execution be tried again after the answer, if attempts
are left. -/
def triesAgain (retry : Bool) : BackendAnswer → Bool
  | .timeout => retry
  | .failed _ => retry
  | .done r => !r.ok && r.transient && retry

/-- What the contract makes of an answer that is not tried again. -/
def outcomeOf (definition : ToolDefinition) (retry : Bool) (attempts : ℕ) :
    BackendAnswer → Outcome
  | .timeout => writeOutcome definition.sideEffect "TOOL_TIMEOUT" attempts
  | .failed uncertain =>
    if uncertain && definition.sideEffect ≠ .READ_ONLY then
      (.OUTCOME_UNKNOWN, some "TOOL_BACKEND_UNAVAILABLE", none, attempts)
    else (.FAILED, some "TOOL_BACKEND_UNAVAILABLE", none, attempts)
  | .done r =>
    if r.ok then (.SUCCEEDED, none, r.result, attempts)
    else if r.transient && !retry then
      (.OUTCOME_UNKNOWN, some (orText r.errorCode "TOOL_FAILED"), none, attempts)
    else (.FAILED, some (orText r.errorCode "TOOL_FAILED"), none, attempts)

/-- The loop of `_execute_with_contract`: `left` attempts may follow the one
being made. -/
def attempt (definition : ToolDefinition) (params : Dict) (retry : Bool) :
    ℕ → ℕ → ToolProg Outcome
  | 0, attempts => do
    let a ← (ToolOp.execute definition params).ask
    return outcomeOf definition retry (attempts + 1) a
  | left + 1, attempts => do
    let a ← (ToolOp.execute definition params).ask
    if triesAgain retry a then attempt definition params retry left (attempts + 1)
    else return outcomeOf definition retry (attempts + 1) a

/-- **`_execute_with_contract`.** -/
def executeWithContract (definition : ToolDefinition) (params : Dict) (key : Option String) :
    ToolProg Outcome :=
  let retry := canRetry definition key
  attempt definition params retry (if retry then (max 1 P.maxReadAttempts).toNat - 1 else 0) 0

/-- The intent an approval is requested for. -/
def approvalIntent (definition : ToolDefinition) (i : Invocation) (params : Dict)
    (paramsHash : String) : ApprovalIntent where
  tenantId := definition.tenantId
  releaseId := orText i.releaseId "unknown"
  toolName := definition.name
  toolVersion := definition.version
  paramsHash := paramsHash
  params := params
  sideEffect := definition.sideEffect
  requestedBy := i.requestedBy
  requesterRole := "AGENT_RUNNER"
  policyVersion := orText i.policyVersion "unspecified"

/-- **`_gate_write_side_effect`**: `none` when the call may proceed, else the
approval it waits on. -/
def gateWriteSideEffect (definition : ToolDefinition) (i : Invocation) (params : Dict)
    (paramsHash : String) : ToolProg (Option Uuid) := do
  if P.approvals then
    let intent := approvalIntent definition i params paramsHash
    let query := intent.binding.toApprovalQuery
    match ← ApprovalService.findApproved definition.tenantId query with
    | some approved =>
      let _ ← ApprovalService.consume definition.tenantId approved.approvalId intent.binding
      return none
    | none =>
      match ← ApprovalService.findPending definition.tenantId query with
      | some pending => return some pending.approvalId
      | none =>
        let created ← ApprovalService.create P intent
        return some created.approvalId
  else if i.mode ≠ "conversation" ∧ definition.sideEffect ≠ .HIGH_RISK then return none
  else
    recordBlocked P {
      tenantId := definition.tenantId
      toolName := definition.name
      params := params
      requestedBy := i.requestedBy
      errorCode := "TOOL_AUTO_EXECUTION_BLOCKED"
      toolVersion := some definition.version
      sideEffect := some definition.sideEffect }
    throw (.toolInvocation "TOOL_AUTO_EXECUTION_BLOCKED")

/-- A blocked invocation of a resolved tool. -/
def blocked (definition : ToolDefinition) (i : Invocation) (params : Dict) (errorCode : String) :
    Blocked where
  tenantId := i.tenantId
  toolName := i.toolName
  params := params
  requestedBy := i.requestedBy
  errorCode := errorCode
  toolVersion := some definition.version
  sideEffect := some definition.sideEffect
  executionId := i.executionId
  sessionId := i.sessionId
  releaseId := i.releaseId

/-- The record of an executed invocation. -/
def executedRecord (definition : ToolDefinition) (i : Invocation) (params : Dict)
    (paramsHash : String) (callId : Uuid) (o : Outcome) : ToolInvocationRecord where
  callId := callId
  tenantId := i.tenantId
  toolName := definition.name
  toolVersion := some definition.version
  sideEffect := some definition.sideEffect.str
  params := params
  paramsHash := paramsHash
  idempotencyKey := i.idempotencyKey
  status := o.1
  attempts := o.2.2.2
  costMicros := definition.costPerCallMicros
  requestedBy := i.requestedBy
  executionId := i.executionId
  sessionId := i.sessionId
  releaseId := i.releaseId
  errorCode := o.2.1
  result := o.2.2.1
  dataClassification := some definition.dataClassification

/-- The end of `invoke`: execute under the contract and record. -/
def executeAndRecord (definition : ToolDefinition) (i : Invocation) (params : Dict)
    (paramsHash : String) : ToolProg ToolInvocationResult := do
  let o ← executeWithContract P definition params i.idempotencyKey
  let callId ← ToolOp.uuid4.ask
  (ToolOp.record (executedRecord definition i params paramsHash callId o)).ask
  return {
    status := o.1
    record := executedRecord definition i params paramsHash callId o
    errorCode := o.2.1 }

/-- The replay check of `invoke`, and what follows it. -/
def replayOrExecute (definition : ToolDefinition) (i : Invocation) (params : Dict)
    (paramsHash : String) : ToolProg ToolInvocationResult := do
  match i.idempotencyKey with
  | none => executeAndRecord P definition i params paramsHash
  | some key =>
    match ← (ToolOp.findReplay i.tenantId key).ask with
    | none => executeAndRecord P definition i params paramsHash
    | some replayed =>
      if replayed.paramsHash ≠ paramsHash then
        recordBlocked P (blocked definition i params "TOOL_IDEMPOTENCY_CONFLICT")
        throw (.toolInvocation "TOOL_IDEMPOTENCY_CONFLICT")
      else
        return {
          status := replayed.status
          record := replayed
          replayed := true
          errorCode := replayed.errorCode }

/-- What follows the checks of `invoke`: the gate, then the replay check. -/
def gateAndExecute (definition : ToolDefinition) (i : Invocation) (params : Dict) :
    ToolProg ToolInvocationResult := do
  let paramsHash := canonicalParamsHash P.sha256 params
  if definition.sideEffect ∈ autoExecutableSideEffects then
    replayOrExecute P definition i params paramsHash
  else
    match ← gateWriteSideEffect P definition i params paramsHash with
    | none => replayOrExecute P definition i params paramsHash
    | some approvalId =>
      recordBlocked P (blocked definition i params "TOOL_APPROVAL_REQUIRED")
      throw (.toolInvocation "TOOL_APPROVAL_REQUIRED" (some approvalId))

/-- An invocation of a tool that is not registered. -/
def notFound (i : Invocation) : ToolProg ToolInvocationResult := do
  let tenantDenied ← if P.hasNames then (ToolOp.hasName i.toolName).ask else pure false
  let code := if tenantDenied then "TOOL_TENANT_DENIED" else "TOOL_NOT_FOUND"
  recordBlocked P {
    tenantId := i.tenantId
    toolName := i.toolName
    params := i.params
    requestedBy := i.requestedBy
    errorCode := code
    executionId := i.executionId
    sessionId := i.sessionId
    releaseId := i.releaseId }
  throw (.toolInvocation code)

/-- The scopes of the tool are among those of the caller. -/
def inScope (definition : ToolDefinition) (i : Invocation) : Bool :=
  definition.scopes.all (fun scope => scope ∈ (i.scopes.getD definition.scopes))

/-- **`invoke`.** -/
def invoke (i : Invocation) : ToolProg ToolInvocationResult := do
  match ← (ToolOp.resolveTool i.tenantId i.toolName i.version).ask with
  | none => notFound P i
  | some definition =>
    if inScope definition i then
      match validateParams definition i.params with
      | .ok params => gateAndExecute P definition i params
      | .error e =>
        match e with
        | .toolInvocation code approvalId =>
          recordBlocked P (blocked definition i i.params "TOOL_PARAMS_INVALID")
          throw (.toolInvocation code approvalId)
        | e => throw e
    else
      recordBlocked P (blocked definition i i.params "TOOL_SCOPE_DENIED")
      throw (.toolInvocation "TOOL_SCOPE_DENIED")

end ToolInvocationService
