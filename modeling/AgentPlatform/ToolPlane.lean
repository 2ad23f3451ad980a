import AgentPlatform.Interleaving
import AgentPlatform.History
import AgentPlatform.Sessions
import AgentPlatform.ToolRegistry

/-!
# The shared state of the tool plane

Governed tool calls go through four stores: approval requests, tool-call
records, execution checkpoints and reconciliations. The services around them
are written against protocols with two implementations, dictionaries in memory
and the tables of `0013_tool_governance.sql` and `0014_approval_recovery.sql`.
This module has their rows, the requests the services issue, and the handler
that serves one request of one call. Every request to a store is one statement
in a transaction of its own, and so takes effect at once.

Besides the stores, the state keeps what the claims about whole runs speak of,
and what no service reads: the history of writes to approval requests, with
the call each was made for; the log of backend executions, of records and of
reconciliations; and the checks that have been passed and not yet acted on.

Identifiers drawn with `uuid4` are fresh. A tenant or approval is named by its
UUID; a text that is not one is refused by the store before anything happens,
like any other fault of a statement.
-/

/-! ## Approval requests -/

/-- `ApprovalStatus`. -/
inductive ApprovalStatus where
  | PENDING
  | APPROVED
  | DENIED
  | EXPIRED
  | CONSUMED
  deriving DecidableEq, Repr

/-- `ApprovalDecision`. -/
inductive ApprovalDecision where
  | APPROVE
  | DENY
  deriving DecidableEq, Repr

/-- What an approval request is created with. -/
structure ApprovalIntent where
  tenantId : Uuid
  releaseId : String
  toolName : String
  toolVersion : ℤ
  paramsHash : String
  params : Dict
  sideEffect : ToolSideEffect
  requestedBy : String
  requesterRole : String
  policyVersion : String

/-- `ApprovalRequest`: one expiring approval for one tool-call intent. -/
structure ApprovalRequest extends ApprovalIntent where
  approvalId : Uuid
  status : ApprovalStatus := .PENDING
  requestedAt : Timestamp
  expiresAt : Timestamp
  decidedBy : Option String := none
  decidedAt : Option Timestamp := none

/-- What an approval request is told apart by. -/
abbrev ApprovalKey := Uuid × Uuid

namespace ApprovalRequest

/-- The key of a request. -/
def key (r : ApprovalRequest) : ApprovalKey := (r.tenantId, r.approvalId)

/-- The request as it was created, without its status and its decision. -/
def core (r : ApprovalRequest) : ApprovalRequest :=
  { r with status := .PENDING, decidedBy := none, decidedAt := none }

theorem key_eq_of_core {r r' : ApprovalRequest} (h : r.core = r'.core) : r.key = r'.key := by
  have htenant : r.core.tenantId = r'.core.tenantId := by rw [h]
  have happroval : r.core.approvalId = r'.core.approvalId := by rw [h]
  exact Prod.ext htenant happroval

theorem intent_eq_of_core {r r' : ApprovalRequest} (h : r.core = r'.core) :
    r.toApprovalIntent = r'.toApprovalIntent := by
  have hintent : r.core.toApprovalIntent = r'.core.toApprovalIntent := by rw [h]
  exact hintent

end ApprovalRequest

/-- What `find_open` asks for. -/
structure ApprovalQuery where
  toolName : String
  toolVersion : ℤ
  paramsHash : String
  requestedBy : String
  deriving DecidableEq

/-- What a consumption is bound to. -/
structure ApprovalBinding extends ApprovalQuery where
  releaseId : String
  deriving DecidableEq

/-- The binding of a request. -/
def ApprovalIntent.binding (r : ApprovalIntent) : ApprovalBinding where
  toolName := r.toolName
  toolVersion := r.toolVersion
  paramsHash := r.paramsHash
  requestedBy := r.requestedBy
  releaseId := r.releaseId

/-! ## Tool calls -/

/-- `ToolInvocationStatus`. -/
inductive ToolInvocationStatus where
  | SUCCEEDED
  | FAILED
  | OUTCOME_UNKNOWN
  | BLOCKED
  deriving DecidableEq, Repr

/-- `ToolBackendResult`. -/
structure ToolBackendResult where
  ok : Bool
  result : Option Dict
  errorCode : Option String
  transient : Bool := false

/-- How one execution by the backend ends for the caller: with a result, with a
timeout, or with an exception, which may leave the outcome of the call open. -/
inductive BackendAnswer where
  | done (r : ToolBackendResult)
  | timeout
  | failed (uncertain : Bool)

/-- `ToolInvocationRecord`: a row of `tenant.tool_call`. -/
structure ToolInvocationRecord where
  callId : Uuid
  tenantId : Uuid
  toolName : String
  toolVersion : Option ℤ
  sideEffect : Option String
  params : Dict
  paramsHash : String
  idempotencyKey : Option String
  status : ToolInvocationStatus
  attempts : ℕ
  costMicros : ℤ
  requestedBy : String
  executionId : Option String := none
  sessionId : Option String := none
  releaseId : Option String := none
  errorCode : Option String := none
  result : Option Dict := none
  dataClassification : Option DataClassification := none

/-- `ToolInvocationResult`. -/
structure ToolInvocationResult where
  status : ToolInvocationStatus
  record : ToolInvocationRecord
  replayed : Bool := false
  errorCode : Option String := none

/-- The arguments of `invoke`. -/
structure Invocation where
  tenantId : Uuid
  toolName : String
  params : Dict
  scopes : Option (List String)
  requestedBy : String
  idempotencyKey : Option String := none
  mode : String := "conversation"
  version : Option ℤ := none
  executionId : Option String := none
  sessionId : Option String := none
  releaseId : Option String := none
  policyVersion : Option String := none

/-! ## Checkpoints and reconciliations -/

/-- `CheckpointStatus`. -/
inductive CheckpointStatus where
  | WAITING_APPROVAL
  | RESUMED
  | ABANDONED
  deriving DecidableEq, Repr

/-- The arguments of `park`, the lease manager apart. -/
structure Parking where
  tenantId : Uuid
  executionId : String
  sessionId : String
  releaseId : String
  approvalId : Uuid
  toolName : String
  toolVersion : ℤ
  paramsHash : String
  requestedBy : String
  parkedBy : String

/-- `ExecutionCheckpoint`: one parked execution. -/
structure ExecutionCheckpoint extends Parking where
  checkpointId : Uuid
  status : CheckpointStatus := .WAITING_APPROVAL
  createdAt : Option Timestamp := none
  resumedBy : Option String := none
  resumedAt : Option Timestamp := none

/-- `ReconciliationDecision`. -/
inductive ReconciliationDecision where
  | CONFIRMED_EXECUTED
  | CONFIRMED_NOT_EXECUTED
  deriving DecidableEq, Repr

/-- `Reconciliation`: a row of `tenant.tool_call_reconciliation`. -/
structure Reconciliation where
  callId : Uuid
  tenantId : Uuid
  decision : ReconciliationDecision
  resolvedBy : String
  resolvedAt : Timestamp
  note : Option String := none
  deriving DecidableEq

/-! ## Calls and requests -/

/-- **A call of one of the services of the tool plane.** -/
inductive ToolCall where
  | create (intent : ApprovalIntent)
  | get (tenantId approvalId : Uuid)
  | decide (tenantId approvalId : Uuid) (decision : ApprovalDecision)
      (decidedBy decidedByRole : String)
  | consume (tenantId approvalId : Uuid) (binding : ApprovalBinding)
  | findApproved (tenantId : Uuid) (query : ApprovalQuery)
  | findPending (tenantId : Uuid) (query : ApprovalQuery)
  | invoke (invocation : Invocation)
  | park (parking : Parking)
  | resume (tenantId checkpointId : Uuid) (resumedBy : String)
  | resolve (tenantId callId : Uuid) (decision : ReconciliationDecision) (resolvedBy : String)
      (note : Option String)

/-- What a call returns. -/
inductive ToolReply where
  | request (r : ApprovalRequest)
  | found (r : Option ApprovalRequest)
  | invoked (r : ToolInvocationResult)
  | parked (c : ExecutionCheckpoint)
  | resumed (grant : LeaseGrant)
  | resolved (r : Reconciliation)

/-- **The requests of the tool plane.** -/
inductive ToolOp where
  | now
  | uuid4
  | upsertApproval (request : ApprovalRequest)
  | transition (tenantId approvalId : Uuid) (fromStatuses : List ApprovalStatus)
      (toStatus : ApprovalStatus) (decidedBy : Option String) (decidedAt : Option Timestamp)
  | getApproval (tenantId approvalId : Uuid)
  | findOpen (tenantId : Uuid) (query : ApprovalQuery) (statuses : List ApprovalStatus)
  | resolveTool (tenantId : Uuid) (name : String) (version : Option ℤ)
  | hasName (name : String)
  | findReplay (tenantId : Uuid) (idempotencyKey : String)
  | record (record : ToolInvocationRecord)
  | getCall (tenantId callId : Uuid)
  | execute (definition : ToolDefinition) (params : Dict)
  | upsertCheckpoint (checkpoint : ExecutionCheckpoint)
  | getCheckpoint (tenantId checkpointId : Uuid)
  | acquireLease (tenantId : Uuid) (sessionId ownerId : String)
  | releaseLease (tenantId : Uuid) (sessionId ownerId : String)
  | upsertReconciliation (reconciliation : Reconciliation)
  | getReconciliation (tenantId callId : Uuid)

/-- The answers of the requests. -/
abbrev ToolRes : ToolOp → Type
  | .now => Timestamp
  | .uuid4 => Uuid
  | .upsertApproval _ => Unit
  | .transition .. => Option ApprovalRequest
  | .getApproval .. => Option ApprovalRequest
  | .findOpen .. => Option ApprovalRequest
  | .resolveTool .. => Option ToolDefinition
  | .hasName _ => Bool
  | .findReplay .. => Option ToolInvocationRecord
  | .record _ => Unit
  | .getCall .. => Option ToolInvocationRecord
  | .execute .. => BackendAnswer
  | .upsertCheckpoint _ => Unit
  | .getCheckpoint .. => Option ExecutionCheckpoint
  | .acquireLease .. => LeaseGrant
  | .releaseLease .. => Unit
  | .upsertReconciliation _ => Unit
  | .getReconciliation .. => Option Reconciliation

/-- A program of the tool plane. -/
abbrev ToolProg (α : Type) := Prog ToolOp ToolRes ToolException α

/-- Issue one request. -/
abbrev ToolOp.ask (op : ToolOp) : ToolProg (ToolRes op) := Prog.perform op

/-! ## The state and the handler -/

/-- The call a request is made for, and its number in the pool. -/
structure Caller where
  pid : ℕ
  call : ToolCall

/-- What the log keeps: an execution by the backend, a record written, and a
reconciliation that was to be written. -/
inductive ToolEvent where
  | executed (caller : Caller) (definition : ToolDefinition) (params : Dict)
      (answer : BackendAnswer)
  | recorded (caller : Caller) (record : ToolInvocationRecord)
  | reconciled (caller : Caller) (reconciliation : Reconciliation)

/-- The implementation of the stores. -/
inductive StoreKind where
  | memory
  | database
  deriving DecidableEq

/-- **How the tool plane is set up**: its stores, its parameters, and the
content of every version of every tool, of which the registry knows some. -/
structure ToolPlatform where
  kind : StoreKind
  approvals : Bool := true
  defaultTtlSeconds : ℤ := 900
  maxReadAttempts : ℤ := 3
  hasNames : Bool := false
  sha256 : String → String
  catalogue : Uuid → String → ℤ → ToolDefinition

/-- **The shared state of the tool plane.** The stores come first; `trail`,
`log`, `unreplayed` and `unresolved` are history that no request reads. -/
structure ToolPlane where
  clock : Timestamp
  issued : List (ℕ × Uuid)
  approvals : List ApprovalRequest
  calls : List ToolInvocationRecord
  checkpoints : List ExecutionCheckpoint
  reconciliations : List Reconciliation
  /-- The writes to approval requests. -/
  trail : List (Write Caller ApprovalRequest)
  /-- The executions, the records and the reconciliations. -/
  log : List ToolEvent
  /-- The calls that have found no replay of a key, and have recorded nothing. -/
  unreplayed : List (ℕ × Uuid × String)
  /-- The calls that have found a tool call unresolved, and have written
  nothing. -/
  unresolved : List (ℕ × Uuid × Uuid)

/-- What the environment decides about a request: that it is served, fails
before or after it took effect, and what only the environment knows. -/
inductive ToolChoice where
  | ok
  | fault (e : PyException)
  | lost (e : PyException)
  | pick (i : ℕ)
  | drawn (id : Uuid)
  | version (v : ℤ)
  | absent
  | flag (b : Bool)
  | answer (a : BackendAnswer)
  | grant (g : LeaseGrant)

namespace ToolPlane

/-- Nothing has happened yet. -/
def start (clock : Timestamp) : ToolPlane where
  clock := clock
  issued := []
  approvals := []
  calls := []
  checkpoints := []
  reconciliations := []
  trail := []
  log := []
  unreplayed := []
  unresolved := []

/-- The approval request under a key. -/
def approval? (s : ToolPlane) (k : ApprovalKey) : Option ApprovalRequest :=
  s.approvals.find? (fun r => r.key = k)

/-- `get` of an approval store. A dictionary is keyed by the approval alone. -/
def getApproval (kind : StoreKind) (tenantId approvalId : Uuid) (s : ToolPlane) :
    Option ApprovalRequest :=
  match kind with
  | .memory =>
    (s.approvals.find? (fun r => r.approvalId = approvalId)).filter
      (fun r => r.tenantId = tenantId)
  | .database => s.approval? (tenantId, approvalId)

/-- The rows an `upsert` of a request replaces. -/
def sameApproval (kind : StoreKind) (r row : ApprovalRequest) : Bool :=
  match kind with
  | .memory => row.approvalId = r.approvalId
  | .database => row.key = r.key

/-- What an `upsert` makes of a row: the dictionary takes the request as it is,
`ON CONFLICT DO UPDATE` its status and decision. -/
def overwriteApproval (kind : StoreKind) (r row : ApprovalRequest) : ApprovalRequest :=
  match kind with
  | .memory => r
  | .database =>
    { row with status := r.status, decidedBy := r.decidedBy, decidedAt := r.decidedAt }

/-- **`upsert` of an approval store.** -/
def upsertApproval (kind : StoreKind) (who : Caller) (r : ApprovalRequest) (s : ToolPlane) :
    ToolPlane :=
  match s.approvals.find? (sameApproval kind r) with
  | none =>
    { s with approvals := s.approvals ++ [r], trail := s.trail ++ [⟨who, none, r⟩] }
  | some row =>
    { s with
      approvals := s.approvals.map
        (fun x => if sameApproval kind r x then overwriteApproval kind r x else x)
      trail := s.trail ++ [⟨who, some row, overwriteApproval kind r row⟩] }

/-- The row a transition leaves. -/
def transitioned (toStatus : ApprovalStatus) (decidedBy : Option String)
    (decidedAt : Option Timestamp) (row : ApprovalRequest) : ApprovalRequest :=
  { row with
    status := toStatus
    decidedBy := decidedBy.or row.decidedBy
    decidedAt := decidedAt.or row.decidedAt }

/-- **`transition` of an approval store**: compare-and-swap of the status. -/
def transition (kind : StoreKind) (who : Caller) (tenantId approvalId : Uuid)
    (fromStatuses : List ApprovalStatus) (toStatus : ApprovalStatus)
    (decidedBy : Option String) (decidedAt : Option Timestamp) (s : ToolPlane) :
    Option ApprovalRequest × ToolPlane :=
  match s.getApproval kind tenantId approvalId with
  | none => (none, s)
  | some row =>
    if row.status ∈ fromStatuses then
      (some (transitioned toStatus decidedBy decidedAt row),
        { s with
          approvals := s.approvals.map (fun x => if x.key = row.key then
            transitioned toStatus decidedBy decidedAt row else x)
          trail := s.trail ++ [⟨who, some row, transitioned toStatus decidedBy decidedAt row⟩] })
    else (none, s)

/-- A request `find_open` looks for. -/
def isOpen (tenantId : Uuid) (q : ApprovalQuery) (statuses : List ApprovalStatus)
    (r : ApprovalRequest) : Bool :=
  r.tenantId = tenantId && r.binding.toApprovalQuery = q && decide (r.status ∈ statuses)

/-- **`find_open` of an approval store**: the first inserted, or one of the last
requested. -/
def findOpen (kind : StoreKind) (c : ToolChoice) (tenantId : Uuid) (q : ApprovalQuery)
    (statuses : List ApprovalStatus) (s : ToolPlane) : Option (Option ApprovalRequest) :=
  match kind, c with
  | .memory, .ok => some (s.approvals.find? (isOpen tenantId q statuses))
  | .database, .ok =>
    if s.approvals.any (isOpen tenantId q statuses) then none else some none
  | .database, .pick i =>
    let found := s.approvals.filter (isOpen tenantId q statuses)
    ((found.filter (fun r => found.all (fun x => x.requestedAt ≤ r.requestedAt)))[i]?).map some
  | _, _ => none

/-- `find_replay`. -/
def findReplay (tenantId : Uuid) (key : String) (s : ToolPlane) : Option ToolInvocationRecord :=
  s.calls.find? (fun r =>
    r.tenantId = tenantId && r.idempotencyKey = some key && r.status = .SUCCEEDED)

/-- The partial unique index `tool_call_idempotent_replay` refuses the record. -/
def replayTaken (r : ToolInvocationRecord) (s : ToolPlane) : Bool :=
  r.status = .SUCCEEDED && r.idempotencyKey.isSome
    && s.calls.any (fun x => x.tenantId = r.tenantId && x.idempotencyKey = r.idempotencyKey
      && x.status = .SUCCEEDED)

/-- **`record`**: the primary key absorbs a record that is there already; the
unique index raises. -/
def record (who : Caller) (r : ToolInvocationRecord) (s : ToolPlane) : Option ToolPlane :=
  if s.calls.any (fun x => x.tenantId = r.tenantId && x.callId = r.callId) then some s
  else if replayTaken r s then none
  else some { s with
    calls := s.calls ++ [r]
    log := s.log ++ [.recorded who r]
    unreplayed := s.unreplayed.filter (fun x => x.1 ≠ who.pid) }

/-- The rows an `upsert` of a checkpoint replaces. -/
def sameCheckpoint (kind : StoreKind) (c row : ExecutionCheckpoint) : Bool :=
  match kind with
  | .memory => row.checkpointId = c.checkpointId
  | .database => row.tenantId = c.tenantId && row.checkpointId = c.checkpointId

/-- **`upsert` of a checkpoint store.** -/
def upsertCheckpoint (kind : StoreKind) (c : ExecutionCheckpoint) (s : ToolPlane) : ToolPlane :=
  if s.checkpoints.any (sameCheckpoint kind c) then
    { s with
      checkpoints := s.checkpoints.map (fun row =>
        if sameCheckpoint kind c row then
          match kind with
          | .memory => c
          | .database =>
            { row with status := c.status, resumedBy := c.resumedBy, resumedAt := c.resumedAt }
        else row) }
  else { s with checkpoints := s.checkpoints ++ [c] }

/-- `get` of a checkpoint store. -/
def getCheckpoint (kind : StoreKind) (tenantId checkpointId : Uuid) (s : ToolPlane) :
    Option ExecutionCheckpoint :=
  match kind with
  | .memory =>
    (s.checkpoints.find? (fun c => c.checkpointId = checkpointId)).filter
      (fun c => c.tenantId = tenantId)
  | .database =>
    s.checkpoints.find? (fun c => c.tenantId = tenantId && c.checkpointId = checkpointId)

/-- `get` of a reconciliation store. -/
def getReconciliation (kind : StoreKind) (tenantId callId : Uuid) (s : ToolPlane) :
    Option Reconciliation :=
  match kind with
  | .memory =>
    (s.reconciliations.find? (fun r => r.callId = callId)).filter
      (fun r => r.tenantId = tenantId)
  | .database => s.reconciliations.find? (fun r => r.tenantId = tenantId && r.callId = callId)

/-- The rows an `upsert` of a reconciliation leaves: the dictionary keeps the
last writer's, `ON CONFLICT DO NOTHING` the first's. -/
def putReconciliation (kind : StoreKind) (r : Reconciliation) (rows : List Reconciliation) :
    List Reconciliation :=
  match kind with
  | .memory =>
    if rows.any (fun x => x.callId = r.callId) then
      rows.map (fun x => if x.callId = r.callId then r else x)
    else rows ++ [r]
  | .database =>
    if rows.any (fun x => x.tenantId = r.tenantId && x.callId = r.callId) then rows
    else rows ++ [r]

/-- **`upsert` of a reconciliation store.** -/
def upsertReconciliation (kind : StoreKind) (who : Caller) (r : Reconciliation) (s : ToolPlane) :
    ToolPlane :=
  { s with
    reconciliations := putReconciliation kind r s.reconciliations
    log := s.log ++ [.reconciled who r] }

end ToolPlane

/-- **A statement of a store**: it is served, or it fails – before it took
effect, or after. A dictionary does not fail. -/
def storeReply {α : Type} (kind : StoreKind) (c : ToolChoice) (x : α) (s s' : ToolPlane) :
    Option (Except ToolException α × ToolPlane) :=
  match kind, c with
  | _, .ok => some (.ok x, s')
  | .database, .fault e => some (.error (.py e), s)
  | .database, .lost e => some (.error (.py e), s')
  | _, _ => none

/-- **Serve one request** of a call, as the environment chooses. -/
def serveTool (P : ToolPlatform) (who : Caller) (c : ToolChoice) (s : ToolPlane) :
    (op : ToolOp) → Option (Except ToolException (ToolRes op) × ToolPlane)
  | .now =>
    match c with
    | .ok => some (.ok s.clock, s)
    | _ => none
  | .uuid4 =>
    match c with
    | .drawn id =>
      if id ∈ s.issued.map Prod.snd then none
      else some (.ok id, { s with issued := s.issued ++ [(who.pid, id)] })
    | _ => none
  | .upsertApproval r => storeReply P.kind c () s (s.upsertApproval P.kind who r)
  | .transition t id fromStatuses toStatus decidedBy decidedAt =>
    storeReply P.kind c
      (s.transition P.kind who t id fromStatuses toStatus decidedBy decidedAt).1 s
      (s.transition P.kind who t id fromStatuses toStatus decidedBy decidedAt).2
  | .getApproval t id => storeReply P.kind c (s.getApproval P.kind t id) s s
  | .findOpen t q statuses =>
    match c with
    | .fault e => storeReply P.kind (.fault e) none s s
    | _ => (s.findOpen P.kind c t q statuses).map (fun r => (.ok r, s))
  | .resolveTool t name version =>
    match c with
    | .version v =>
      if version = none ∨ version = some v then
        some (.ok (some { P.catalogue t name v with tenantId := t, name := name, version := v }),
          s)
      else none
    | .absent => some (.ok none, s)
    | .fault e => some (.error (.py e), s)
    | _ => none
  | .hasName _ =>
    match c with
    | .flag b => some (.ok b, s)
    | _ => none
  | .findReplay t key =>
    match c with
    | .ok =>
      match s.findReplay t key with
      | some r => some (.ok (some r), s)
      | none => some (.ok none, { s with unreplayed := s.unreplayed ++ [(who.pid, t, key)] })
    | .fault e => some (.error (.py e), s)
    | _ => none
  | .record r =>
    match s.record who r with
    | none => some (.error (.py .sqlAlchemy), s)
    | some s' => storeReply .database c () s s'
  | .getCall t id =>
    storeReply .database c
      (s.calls.find? (fun r => r.tenantId = t && r.callId = id)) s s
  | .execute definition params =>
    match c with
    | .answer a =>
      some (.ok a, { s with log := s.log ++ [.executed who definition params a] })
    | _ => none
  | .upsertCheckpoint cp => storeReply P.kind c () s (s.upsertCheckpoint P.kind cp)
  | .getCheckpoint t id => storeReply P.kind c (s.getCheckpoint P.kind t id) s s
  | .acquireLease _ _ _ =>
    match c with
    | .grant g => some (.ok g, s)
    | .fault e => some (.error (.py e), s)
    | _ => none
  | .releaseLease _ _ _ =>
    match c with
    | .ok => some (.ok (), s)
    | .fault e => some (.error (.py e), s)
    | _ => none
  | .upsertReconciliation r =>
    -- Whatever becomes of the statement, the check has been acted on.
    (storeReply P.kind c () s (s.upsertReconciliation P.kind who r)).map
      (fun x => (x.1, { x.2 with
        unresolved := x.2.unresolved.filter (fun u => u.1 ≠ who.pid) }))
  | .getReconciliation t id =>
    match c, s.getReconciliation P.kind t id with
    | .ok, none => some (.ok none, { s with unresolved := s.unresolved ++ [(who.pid, t, id)] })
    | c, r => storeReply P.kind c r s s
