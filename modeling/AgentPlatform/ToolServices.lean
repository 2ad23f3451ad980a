import AgentPlatform.ToolInvocation

/-!
# Checkpoints, reconciliation, and all services at once

The embedding of `CheckpointService` in `tool/checkpoints.py` and of
`ReconciliationService.resolve` in `tool/reconciliation.py`, and the pool of
calls of all the services of the tool plane over one shared state. Every
request of a call carries the call, so that the history knows what a write was
made for.
-/

namespace CheckpointService

/-- The checkpoint a parking is stored as. -/
def newCheckpoint (p : Parking) (checkpointId : Uuid) (now : Timestamp) :
    ExecutionCheckpoint where
  toParking := p
  checkpointId := checkpointId
  createdAt := some now

/-- **`park`**: the checkpoint is durable before the lease is released. -/
def park (p : Parking) : ToolProg ExecutionCheckpoint := do
  let checkpointId ← ToolOp.uuid4.ask
  let now ← ToolOp.now.ask
  (ToolOp.upsertCheckpoint (newCheckpoint p checkpointId now)).ask
  (ToolOp.releaseLease p.tenantId p.sessionId p.parkedBy).ask
  return newCheckpoint p checkpointId now

/-- The binding a checkpoint is resumed under. -/
def binding (c : ExecutionCheckpoint) : ApprovalBinding where
  toolName := c.toolName
  toolVersion := c.toolVersion
  paramsHash := c.paramsHash
  requestedBy := c.requestedBy
  releaseId := c.releaseId

/-- **`resume`**: acquire the lease, consume the approval, mark resumed. -/
def resume (tenantId checkpointId : Uuid) (resumedBy : String) : ToolProg LeaseGrant := do
  match ← (ToolOp.getCheckpoint tenantId checkpointId).ask with
  | none => throw (.checkpoint "CHECKPOINT_NOT_FOUND")
  | some checkpoint =>
    if checkpoint.status ≠ .WAITING_APPROVAL then throw (.checkpoint "CHECKPOINT_NOT_WAITING")
    else
      let grant ← (ToolOp.acquireLease tenantId checkpoint.sessionId resumedBy).ask
      tryCatch
        (do
          let _ ← ApprovalService.consume tenantId checkpoint.approvalId (binding checkpoint)
          pure ())
        (fun e =>
          if e.isException then do
            (ToolOp.releaseLease tenantId checkpoint.sessionId resumedBy).ask
            throw (.checkpoint "CHECKPOINT_APPROVAL_NOT_GRANTED")
          else throw e)
      let now ← ToolOp.now.ask
      (ToolOp.upsertCheckpoint
        { checkpoint with
          status := .RESUMED
          resumedBy := some resumedBy
          resumedAt := some now }).ask
      return grant

end CheckpointService

namespace ReconciliationService

/-- **`resolve`**: close the uncertainty of a call. -/
def resolve (tenantId callId : Uuid) (decision : ReconciliationDecision) (resolvedBy : String)
    (note : Option String) : ToolProg Reconciliation := do
  match ← (ToolOp.getCall tenantId callId).ask with
  | none => throw (.reconciliation "RECONCILIATION_CALL_NOT_FOUND")
  | some call =>
    if call.status ≠ .OUTCOME_UNKNOWN then
      throw (.reconciliation "RECONCILIATION_CALL_NOT_UNKNOWN")
    else
      match ← (ToolOp.getReconciliation tenantId callId).ask with
      | some _ => throw (.reconciliation "RECONCILIATION_ALREADY_RESOLVED")
      | none =>
        let now ← ToolOp.now.ask
        let reconciliation : Reconciliation :=
          { callId := callId
            tenantId := tenantId
            decision := decision
            resolvedBy := resolvedBy
            resolvedAt := now
            note := note }
        (ToolOp.upsertReconciliation reconciliation).ask
        return reconciliation

end ReconciliationService

/-! ## The pool -/

/-- The program of a call. -/
def ToolCall.program (P : ToolPlatform) : ToolCall → ToolProg ToolReply
  | .create intent => do return .request (← ApprovalService.create P intent)
  | .get t id => do return .request (← ApprovalService.get t id)
  | .decide t id decision by' role => do
    return .request (← ApprovalService.decide t id decision by' role)
  | .consume t id b => do return .request (← ApprovalService.consume t id b)
  | .findApproved t q => do return .found (← ApprovalService.findApproved t q)
  | .findPending t q => do return .found (← ApprovalService.findPending t q)
  | .invoke i => do return .invoked (← ToolInvocationService.invoke P i)
  | .park p => do return .parked (← CheckpointService.park p)
  | .resume t id by' => do return .resumed (← CheckpointService.resume t id by')
  | .resolve t id d by' note => do
    return .resolved (← ReconciliationService.resolve t id d by' note)

/-- What the environment does on its own: time passes. -/
inductive ToolEnv where
  | tick (now : Timestamp)

/-- **All calls of the tool plane over one shared state.** -/
def toolPool (P : ToolPlatform) :
    Pool (ToolCall × ToolOp) (fun x => ToolRes x.2) ToolException ToolChoice ToolPlane ToolCall
      ToolReply ToolEnv where
  handler pid c op s := serveTool P ⟨pid, op.1⟩ c s op.2
  body call := (call.program P).tag call
  abandon pid s := { s with unresolved := s.unresolved.filter (fun u => u.1 ≠ pid) }
  env
    | .tick now, s => if s.clock ≤ now then some { s with clock := now } else none

/-- The transition system of the tool plane, from empty stores. -/
def toolMachine (P : ToolPlatform) :=
  (toolPool P).machine (fun s => ∃ clock, s = ToolPlane.start clock)
