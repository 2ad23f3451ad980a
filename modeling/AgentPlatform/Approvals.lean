import AgentPlatform.ToolEffects

/-!
# Approvals with separation of duties and single use

The embedding of `ApprovalService` in `tool/approvals.py`. A request is created
`PENDING`, decided once, and consumed once by a compare-and-swap of its status.
Its expiry is written by two routes. `get`, on which `decide` and `consume`
rest, moves an expired request by a compare-and-swap; `find_approved` and
`find_pending` write back the copy they read, with its status replaced.
-/

namespace ApprovalService

variable (P : ToolPlatform)

/-- `APPROVER_ROLES`. -/
def approverRoles : List String := ["TENANT_ADMIN"]

/-- `SELF_SERVICE_ROLES`. -/
def selfServiceRoles : List String := ["TENANT_ADMIN", "AGENT_DEVELOPER"]

/-- The request an intent is stored as. -/
def newRequest (intent : ApprovalIntent) (approvalId : Uuid) (now : Timestamp) :
    ApprovalRequest where
  toApprovalIntent := intent
  approvalId := approvalId
  requestedAt := now
  expiresAt := now + P.defaultTtlSeconds * 1000000

/-- **`create`.** -/
def create (intent : ApprovalIntent) : ToolProg ApprovalRequest := do
  let now ← ToolOp.now.ask
  let approvalId ← ToolOp.uuid4.ask
  (ToolOp.upsertApproval (newRequest P intent approvalId now)).ask
  return newRequest P intent approvalId now

/-- **`get`**: a request that has expired is moved on the way. -/
def get (tenantId approvalId : Uuid) : ToolProg ApprovalRequest := do
  match ← (ToolOp.getApproval tenantId approvalId).ask with
  | none => throw (.approval "APPROVAL_NOT_FOUND")
  | some request =>
    if request.status = .PENDING ∨ request.status = .APPROVED then
      let now ← ToolOp.now.ask
      if request.expiresAt ≤ now then
        match ← (ToolOp.transition tenantId approvalId [.PENDING, .APPROVED] .EXPIRED none
            none).ask with
        | some expired => return expired
        | none => return request
      else return request
    else return request

/-- The separation of duties: what `decide` raises for a decider. -/
def decisionError (request : ApprovalRequest) (decidedBy decidedByRole : String) :
    Option ToolException :=
  if request.sideEffect = .HIGH_RISK then
    if decidedBy = request.requestedBy then some (.approval "APPROVAL_SELF_DENIED")
    else if decidedByRole ∈ approverRoles then none
    else some (.approval "APPROVER_ROLE_REQUIRED")
  else if decidedByRole ∈ selfServiceRoles ∪ approverRoles then none
  else some (.approval "APPROVER_ROLE_REQUIRED")

/-- The status a decision leads to. -/
def decidedStatus : ApprovalDecision → ApprovalStatus
  | .APPROVE => .APPROVED
  | .DENY => .DENIED

/-- **`decide`**: grant or deny a pending request. -/
def decide (tenantId approvalId : Uuid) (decision : ApprovalDecision)
    (decidedBy decidedByRole : String) : ToolProg ApprovalRequest := do
  let request ← get tenantId approvalId
  if request.status = .EXPIRED then throw (.approval "APPROVAL_EXPIRED")
  else if request.status ≠ .PENDING then throw (.approval "APPROVAL_ALREADY_DECIDED")
  else match decisionError request decidedBy decidedByRole with
    | some e => throw e
    | none =>
      let now ← ToolOp.now.ask
      match ← (ToolOp.transition tenantId approvalId [.PENDING] (decidedStatus decision)
          (some decidedBy) (some now)).ask with
      | none => throw (.approval "APPROVAL_ALREADY_DECIDED")
      | some decided => return decided

/-- **`consume`**: flip an approved request to `CONSUMED`. -/
def consume (tenantId approvalId : Uuid) (binding : ApprovalBinding) :
    ToolProg ApprovalRequest := do
  let request ← get tenantId approvalId
  if request.status = .EXPIRED then throw (.approval "APPROVAL_EXPIRED")
  else if request.status ≠ .APPROVED then throw (.approval "APPROVAL_NOT_APPROVED")
  else if request.binding ≠ binding then throw (.approval "APPROVAL_BINDING_MISMATCH")
  else match ← (ToolOp.transition tenantId approvalId [.APPROVED] .CONSUMED none none).ask with
    | none => throw (.approval "APPROVAL_NOT_APPROVED")
    | some consumed => return consumed

/-- What `find_approved` and `find_pending` share: look for a request of the
intent, and write it back as `EXPIRED` if it has expired. -/
def findUnexpired (status : ApprovalStatus) (tenantId : Uuid) (query : ApprovalQuery) :
    ToolProg (Option ApprovalRequest) := do
  match ← (ToolOp.findOpen tenantId query [status]).ask with
  | none => return none
  | some request =>
    let now ← ToolOp.now.ask
    if request.expiresAt ≤ now then
      (ToolOp.upsertApproval { request with status := .EXPIRED }).ask
      return none
    else return some request

/-- **`find_approved`**: a consumable approval for the intent. -/
def findApproved (tenantId : Uuid) (query : ApprovalQuery) :
    ToolProg (Option ApprovalRequest) :=
  findUnexpired .APPROVED tenantId query

/-- **`find_pending`**: an open request for the intent. -/
def findPending (tenantId : Uuid) (query : ApprovalQuery) :
    ToolProg (Option ApprovalRequest) :=
  findUnexpired .PENDING tenantId query

end ApprovalService
