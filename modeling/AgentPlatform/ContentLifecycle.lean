import AgentPlatform.Dictionary
import AgentPlatform.ExecutionStore
import AgentPlatform.RowLocks

/-!
# Erasing content

The embedding of `content_lifecycle.py` and of the lifecycle worker of
`artifacts.py`. Three workers destroy content of a tenant: `ContentDeletionWorker`
has every backend erase it on request, and stores a proof for each;
`RetentionSweep` removes what is older than the tenant's limits;
`ArtifactLifecycleWorker` deletes expired artifacts. Each asks first whether the
tenant is under an active legal hold.

They ask at different distances from what they destroy. The sweep asks in the
transaction that deletes, the deletion worker in one transaction before it calls
the backends, the artifact worker once before it deletes one artifact after the
other. Any number of them run at once; legal holds are approved and released
meanwhile, which are steps of the environment.

The backends of a deletion are outside the database. The external state is the
list of the erasures so far, each with the answer to whether its tenant was held
at that moment; nothing the workers do depends on it.
-/

/-! ## Rows -/

/-- `ContentBackend`. -/
inductive ContentBackend where
  | sql
  | redis
  | vector
  | object
  | derived
  | backup
  deriving DecidableEq, Repr

/-- The value of a backend. -/
def ContentBackend.str : ContentBackend → String
  | .sql => "SQL"
  | .redis => "REDIS"
  | .vector => "VECTOR"
  | .object => "OBJECT"
  | .derived => "DERIVED"
  | .backup => "BACKUP"

/-- The status of a legal hold. -/
inductive HoldStatus where
  | pendingApproval
  | active
  | released
  deriving DecidableEq, Repr

/-- A row of `tenant.legal_hold`. -/
structure LegalHold where
  tenantId : Uuid
  id : Uuid
  initiator : String
  approver : Option String
  status : HoldStatus
  deriving DecidableEq

/-- The status of a deletion request. -/
inductive DeletionStatus where
  | pending
  | retryable
  | processing
  | primaryErased
  | completed
  | blockedLegalHold
  deriving DecidableEq, Repr

/-- A row of `tenant.content_deletion_request`. -/
structure DeletionRequest where
  status : DeletionStatus
  attempts : ℕ
  nextAttemptAt : Option Timestamp
  processingAt : Option Timestamp
  lastError : Option String
  createdAt : Timestamp
  completedAt : Option Timestamp
  deriving DecidableEq

/-- The row of a new request. -/
def DeletionRequest.created (now : Timestamp) : DeletionRequest where
  status := .pending
  attempts := 0
  nextAttemptAt := some now
  processingAt := none
  lastError := none
  createdAt := now
  completedAt := none

/-- A row of `tenant.content_deletion_proof`. -/
structure DeletionProofRow where
  deletedCount : ℤ
  verified : Bool
  evidenceDigest : String
  completedAt : Timestamp
  deriving DecidableEq

/-- The tables a retention sweep goes through. -/
inductive RetentionTable where
  | inboundMessage
  | replyDelivery
  | sessionEvent
  | sessionSummary
  | memoryRecord
  deriving DecidableEq, Repr

/-- A row with content: when it was last of use – when it occurred, was created, when
its Session was updated or it was used – and whether its content is already
erased. -/
structure ContentRow where
  tenantId : Uuid
  table : RetentionTable
  stamp : Timestamp
  erased : Bool
  deriving DecidableEq

/-- `RetentionPolicy`, in days. -/
structure RetentionPolicy where
  inboundPayloadDays : ℕ := 7
  sessionDays : ℕ := 90
  memoryDays : ℕ := 365
  idempotencyTombstoneDays : ℕ := 365
  deriving DecidableEq

/-- The key of a request: its tenant and its number. -/
abbrev RequestKey := Uuid × Uuid

/-- **The tables of the content lifecycle.** -/
structure LifecycleDb where
  tenants : List Uuid
  holds : List LegalHold
  policies : Uuid → Option RetentionPolicy
  requests : Dictionary RequestKey DeletionRequest
  proofs : Dictionary (RequestKey × ContentBackend) DeletionProofRow
  content : Dictionary Uuid ContentRow
  artifacts : Dictionary (Uuid × Uuid) Timestamp

/-- `SELECT EXISTS(SELECT 1 FROM tenant.legal_hold … AND status='ACTIVE')`. -/
def LifecycleDb.held (db : LifecycleDb) (tenantId : Uuid) : Bool :=
  db.holds.any (fun h => h.tenantId = tenantId && h.status = .active)

/-! ## Times -/

/-- A number of days. -/
def days (n : ℕ) : Timestamp := 86400000000 * n

/-- A number of minutes. -/
def minutes (n : ℕ) : Timestamp := 60000000 * n

/-- `PRIMARY_ERASURE_WINDOW`. -/
def primaryErasureWindow : Timestamp := days 1

/-- `BACKUP_ERASURE_WINDOW`. -/
def backupErasureWindow : Timestamp := days 35

/-- `_RETRY_DELAY`. -/
def deletionRetryDelay : Timestamp := minutes 5

/-- `_PROCESSING_LEASE`. -/
def processingLease : Timestamp := minutes 15

/-- A worker may claim the request: it waits to be processed, or its processing has
outlived the lease. -/
def DeletionRequest.claimable (r : DeletionRequest) (current : Timestamp) : Bool :=
  r.status = .pending || r.status = .retryable || r.status = .blockedLegalHold
    || (r.status = .processing
      && match r.processingAt with
        | some t => t ≤ current - processingLease
        | none => false)

/-- A run of the worker looks at the request. -/
def DeletionRequest.due (r : DeletionRequest) (current : Timestamp) : Bool :=
  ((r.status = .pending || r.status = .retryable)
      && match r.nextAttemptAt with
        | some t => t ≤ current
        | none => false)
    || (r.status = .processing
      && match r.processingAt with
        | some t => t ≤ current - processingLease
        | none => false)
    || r.status = .blockedLegalHold

/-- The expiry of a row, in a table with a cutoff. -/
def ContentRow.expired (r : ContentRow) (table : RetentionTable) (tenantId : Uuid)
    (cutoff : Timestamp) : Bool :=
  r.tenantId = tenantId && r.table = table && r.stamp < cutoff && !r.erased

/-! ## Statements -/

/-- A change of one row. -/
inductive LifecycleWrite where
  | setRequest (key : RequestKey) (row : DeletionRequest)
  | putProof (key : RequestKey) (backend : ContentBackend) (row : DeletionProofRow)
  | expire (tenantId id : Uuid) (row : ContentRow)
  | deleteArtifact (tenantId id : Uuid)

/-- What can be locked. -/
inductive LifecycleKey where
  | request (key : RequestKey)
  | proof (key : RequestKey) (backend : ContentBackend)
  | content (id : Uuid)
  | artifact (tenantId id : Uuid)
  deriving DecidableEq

/-- The row a change touches. -/
def LifecycleWrite.key : LifecycleWrite → LifecycleKey
  | .setRequest key _ => .request key
  | .putProof key backend _ => .proof key backend
  | .expire _ id _ => .content id
  | .deleteArtifact tenantId id => .artifact tenantId id

/-- **The effect of a change.** A message that expires is deleted; of the other rows
only the content goes. -/
def LifecycleWrite.apply (w : LifecycleWrite) (db : LifecycleDb) : LifecycleDb :=
  match w with
  | .setRequest key row => { db with requests := db.requests.set key row }
  | .putProof key backend row => { db with proofs := db.proofs.set (key, backend) row }
  | .expire _ id row =>
    if row.table = .inboundMessage then { db with content := db.content.pop id }
    else { db with content := db.content.set id { row with erased := true } }
  | .deleteArtifact tenantId id => { db with artifacts := db.artifacts.pop (tenantId, id) }

/-- `ContentLifecycleError` with its code, what a backend raises, or an error of the
database. -/
inductive LifecycleException where
  | lifecycle (code : String)
  | backend
  | database
  deriving DecidableEq

/-- The requests of the workers. -/
inductive LifecycleOp where
  | clock
  | selectTenants
  | selectDue (tenantId : Uuid) (current : Timestamp)
  | selectHeld (tenantId : Uuid)
  | block (key : RequestKey)
  | claim (key : RequestKey) (current : Timestamp)
  | erase (backend : ContentBackend) (tenantId : Uuid)
  | verifyErased (backend : ContentBackend) (tenantId : Uuid)
  | upsertProof (key : RequestKey) (backend : ContentBackend) (row : DeletionProofRow)
  | setRetryable (key : RequestKey) (nextAttemptAt : Timestamp) (error : String)
  | setCompleted (key : RequestKey) (current : Timestamp)
  | selectPolicy (tenantId : Uuid)
  | expire (table : RetentionTable) (tenantId : Uuid) (cutoff : Timestamp)
  | listExpired (tenantId : Uuid) (now : Timestamp)
  | deleteArtifact (tenantId id : Uuid)
  | emitAudit (tenantId id : Uuid)

/-- What a request answers. -/
abbrev LifecycleRes : LifecycleOp → Type
  | .clock => Timestamp
  | .selectTenants => List Uuid
  | .selectDue .. => List Uuid
  | .selectHeld _ => Bool
  | .claim .. => Bool
  | .erase .. => ℤ
  | .verifyErased .. => Bool
  | .selectPolicy _ => Option RetentionPolicy
  | .expire .. => ℕ
  | .listExpired .. => List Uuid
  | _ => Unit

/-- What the environment chooses: the time, what a backend makes of an erasure and of
its verification, and whether an audit event can be stored. -/
structure LifecycleAnswer where
  now : Timestamp
  erased : Except LifecycleException ℤ
  verified : Except LifecycleException Bool
  audited : Except LifecycleException Unit

/-- An erasure by a backend, and whether the tenant was under an active hold then. -/
structure Erasure where
  backend : ContentBackend
  tenantId : Uuid
  held : Bool
  deriving DecidableEq

/-- The rows of a tenant's requests that are due and free, in order. -/
def dueRequests (free : LifecycleKey → Bool) (db : LifecycleDb) (tenantId : Uuid)
    (current : Timestamp) : List Uuid :=
  (((db.requests.items.filter
      (fun e => e.1.1 = tenantId && e.2.due current && free (.request e.1))).map
    (fun e => (e.2.createdAt, e.1.2))).insertionSort (fun a b => a.1 ≤ b.1)).map Prod.snd

/-- The rows of a table that expire. -/
def expiredRows (db : LifecycleDb) (table : RetentionTable) (tenantId : Uuid)
    (cutoff : Timestamp) : List (Uuid × ContentRow) :=
  db.content.items.filter (fun e => e.2.expired table tenantId cutoff)

/-- The artifacts of a tenant that are expired. -/
def expiredArtifacts (db : LifecycleDb) (tenantId : Uuid) (now : Timestamp) : List Uuid :=
  (db.artifacts.items.filter (fun e => e.1.1 = tenantId && e.2 ≤ now)).map (fun e => e.1.2)

/-- An update of a request, where there is one. -/
def updateRequest (db : LifecycleDb) (key : RequestKey)
    (f : DeletionRequest → DeletionRequest) : List LifecycleWrite :=
  match db.requests.get key with
  | some row => [.setRequest key (f row)]
  | none => []

/-- The lock of a request, where there is one. -/
def lockRequest (db : LifecycleDb) (key : RequestKey) : List LifecycleKey :=
  match db.requests.get key with
  | some _ => [.request key]
  | none => []

/-- The request can be claimed now. -/
def LifecycleDb.claimable (db : LifecycleDb) (key : RequestKey) (current : Timestamp) : Bool :=
  match db.requests.get key with
  | some row => row.claimable current
  | none => false

/-- **The statements of the workers.** -/
def lifecycleEngine :
    Engine LifecycleOp LifecycleRes LifecycleException LifecycleAnswer LifecycleDb
      LifecycleWrite LifecycleKey (List Erasure) where
  apply := LifecycleWrite.apply
  key := LifecycleWrite.key
  locks := fun op free db _ => match op with
    | .selectDue tenantId current =>
      (dueRequests free db tenantId current).map (fun id => .request (tenantId, id))
    | .block key => lockRequest db key
    | .claim key current => if db.claimable key current then [.request key] else []
    | .upsertProof key backend _ => [.proof key backend]
    | .setRetryable key _ _ => lockRequest db key
    | .setCompleted key _ => lockRequest db key
    | .expire table tenantId cutoff =>
      (expiredRows db table tenantId cutoff).map (fun e => .content e.1)
    | .deleteArtifact tenantId id =>
      (db.artifacts.get (tenantId, id)).toList.map (fun _ => .artifact tenantId id)
    | _ => []
  exec := fun a op free db x => match op with
    | .clock => (.ok a.now, [], x)
    | .selectTenants => (.ok db.tenants, [], x)
    | .selectDue tenantId current => (.ok (dueRequests free db tenantId current), [], x)
    | .selectHeld tenantId => (.ok (db.held tenantId), [], x)
    | .block key =>
      (.ok (), updateRequest db key (fun row =>
        { row with
          status := .blockedLegalHold
          nextAttemptAt := none
          lastError := some "DELETION_LEGAL_HOLD_ACTIVE" }), x)
    | .claim key current =>
      if db.claimable key current then
        (.ok true, updateRequest db key (fun row =>
          { row with
            status := .processing
            processingAt := some current }), x)
      else (.ok false, [], x)
    | .erase backend tenantId => (a.erased, [], x ++ [⟨backend, tenantId, db.held tenantId⟩])
    | .verifyErased _ _ => (a.verified, [], x)
    | .upsertProof key backend row =>
      if 0 ≤ row.deletedCount && row.deletedCount ≤ 9223372036854775807 then
        (.ok (), [.putProof key backend row], x)
      else (.error .database, [], x)
    | .setRetryable key nextAttemptAt error =>
      (.ok (), updateRequest db key (fun row =>
        { row with
          status := .retryable
          attempts := row.attempts + 1
          nextAttemptAt := some nextAttemptAt
          lastError := some error
          processingAt := none }), x)
    | .setCompleted key current =>
      (.ok (), updateRequest db key (fun row =>
        { row with
          status := .completed
          attempts := row.attempts + 1
          nextAttemptAt := none
          lastError := none
          processingAt := none
          completedAt := some current }), x)
    | .selectPolicy tenantId => (.ok (db.policies tenantId), [], x)
    | .expire table tenantId cutoff =>
      let rows := expiredRows db table tenantId cutoff
      (.ok rows.length, rows.map (fun e => .expire tenantId e.1 e.2), x)
    | .listExpired tenantId now => (.ok (expiredArtifacts db tenantId now), [], x)
    | .deleteArtifact tenantId id =>
      (.ok (), (db.artifacts.get (tenantId, id)).toList.map
       (fun _ => .deleteArtifact tenantId id), x)
    | .emitAudit _ _ => (a.audited, [], x)
  dbError := .database

/-! ## Programs -/

/-- A program of a worker. -/
abbrev LifecycleProg (α : Type) :=
  Prog (TxOp LifecycleOp) (TxRes LifecycleRes) LifecycleException α

/-- Add up what a program answers over a list. -/
def sumOver {β : Type} (f : β → LifecycleProg ℕ) : List β → LifecycleProg ℕ
  | [] => return 0
  | b :: bs => do
    let n ← f b
    let m ← sumOver f bs
    return n + m

/-- `now or datetime.now(UTC)`. -/
def orClock : Option Timestamp → LifecycleProg Timestamp
  | some now => return now
  | none => Engine.stmt LifecycleOp.clock

/-- `DeletionProof`. -/
structure DeletionProof where
  backend : ContentBackend
  deletedCount : ℤ
  verified : Bool
  completedAt : Timestamp
  deriving DecidableEq

/-- `DeletionOutcome`. -/
structure DeletionOutcome where
  primaryDueAt : Timestamp
  backupDueAt : Timestamp
  proofs : List DeletionProof
  retryable : Bool
  errorCode : Option String
  nextAttemptAt : Option Timestamp

/-- **`DeletionExecutor`**: its backends, in the order of the dictionary; none is
missing. -/
structure DeletionExecutor where
  backends : List ContentBackend
  nodup : backends.Nodup
  complete : ∀ b, b ∈ backends

namespace DeletionExecutor

/-- What `except ContentLifecycleError: raise` lets pass. -/
def retryableError : LifecycleException → Option LifecycleException
  | .lifecycle _ => none
  | e => some e

/-- The loop of `execute`: the proofs so far, and whether every backend was
reached. -/
def eraseBackends (tenantId : Uuid) (startedAt : Timestamp) :
    List ContentBackend → List DeletionProof → LifecycleProg (List DeletionProof × Bool)
  | [], proofs => return (proofs, true)
  | backend :: backends, proofs => do
    let erased ← Prog.capture retryableError (Engine.stmt (LifecycleOp.erase backend tenantId))
    match erased with
    | .error _ => return (proofs, false)
    | .ok deletedCount =>
      let checked ←
        Prog.capture retryableError (Engine.stmt (LifecycleOp.verifyErased backend tenantId))
      match checked with
      | .error _ => return (proofs, false)
      | .ok verified =>
        if verified = true then
          eraseBackends tenantId startedAt backends
            (proofs ++ [⟨backend, deletedCount, verified, startedAt⟩])
        else throw (LifecycleException.lifecycle "DELETION_BACKEND_UNVERIFIED")

/-- **`execute`.** -/
def execute (x : DeletionExecutor) (tenantId : Uuid) (legalHold : Bool)
    (now : Option Timestamp) : LifecycleProg DeletionOutcome :=
  if legalHold then throw (.lifecycle "DELETION_LEGAL_HOLD_ACTIVE")
  else do
    let startedAt ← orClock now
    let (proofs, finished) ← eraseBackends tenantId startedAt x.backends []
    if finished then
      return {
        primaryDueAt := startedAt + primaryErasureWindow
        backupDueAt := startedAt + backupErasureWindow
        proofs := proofs
        retryable := false
        errorCode := none
        nextAttemptAt := none }
    else
      return {
        primaryDueAt := startedAt + primaryErasureWindow
        backupDueAt := startedAt + backupErasureWindow
        proofs := proofs
        retryable := true
        errorCode := some "DELETION_BACKEND_RETRYABLE"
        nextAttemptAt := some (startedAt + minutes 5) }

end DeletionExecutor

/-- What the digest of a proof is computed with. -/
structure ProofHashing where
  sha256 : String → String
  isoformat : Timestamp → String

/-- **The digest of a stored proof**, of its own fields. -/
def ProofHashing.digest (H : ProofHashing) (requestId : Uuid) (backend : ContentBackend)
    (deletedCount : ℤ) (verified : Bool) (completedAt : Timestamp) : String :=
  H.sha256 (Uuid.str requestId ++ ":" ++ backend.str ++ ":" ++ toString deletedCount ++ ":"
    ++ (if verified then "True" else "False") ++ ":" ++ H.isoformat completedAt)

/-- The row of a proof. -/
def ProofHashing.row (H : ProofHashing) (requestId : Uuid) (proof : DeletionProof) :
    DeletionProofRow where
  deletedCount := proof.deletedCount
  verified := proof.verified
  evidenceDigest :=
    H.digest requestId proof.backend proof.deletedCount proof.verified proof.completedAt
  completedAt := proof.completedAt

/-- `ContentDeletionWorker`. -/
structure ContentDeletionWorker where
  executor : DeletionExecutor

namespace ContentDeletionWorker

/-- The first transaction of `process`: whether the request was claimed. -/
def claimRequest (key : RequestKey) (current : Timestamp) : LifecycleProg Bool := do
  let activeHold ← Engine.stmt (.selectHeld key.1)
  if activeHold then
    let _ ← Engine.stmt (.block key)
    return false
  else
    let claimed ← Engine.stmt (.claim key current)
    return claimed

/-- The execution; a `ContentLifecycleError` becomes an outcome. -/
def runExecutor (W : ContentDeletionWorker) (key : RequestKey) (current : Timestamp) :
    LifecycleProg DeletionOutcome :=
  tryCatch (W.executor.execute key.1 false (some current)) (fun e => match e with
    | .lifecycle code => return {
        primaryDueAt := current + primaryErasureWindow
        backupDueAt := current + backupErasureWindow
        proofs := []
        retryable := true
        errorCode := some code
        nextAttemptAt := some (current + deletionRetryDelay) }
    | e => throw e)

/-- The last transaction of `process`: whether the request is completed. -/
def recordOutcome (H : ProofHashing) (key : RequestKey) (current : Timestamp)
    (outcome : DeletionOutcome) : LifecycleProg Bool := do
  let _ ← Prog.forEach (fun proof : DeletionProof =>
    Engine.stmt (LifecycleOp.upsertProof key proof.backend (H.row key.2 proof))) outcome.proofs
  if outcome.retryable then
    let _ ← Engine.stmt (.setRetryable key
      (outcome.nextAttemptAt.getD (current + deletionRetryDelay))
      (outcome.errorCode.getD "DELETION_BACKEND_RETRYABLE"))
    return false
  else
    let _ ← Engine.stmt (.setCompleted key current)
    return true

/-- **`process`.** -/
def process (H : ProofHashing) (W : ContentDeletionWorker) (key : RequestKey)
    (now : Option Timestamp) :
    LifecycleProg Bool := do
  let current ← orClock now
  let claimed ← Engine.transaction (claimRequest key current)
  if claimed then
    let outcome ← W.runExecutor key current
    let completed ← Engine.transaction (recordOutcome H key current outcome)
    return completed
  else
    return false

/-- **`run_once`.** -/
def runOnce (H : ProofHashing) (W : ContentDeletionWorker) (now : Option Timestamp) :
    LifecycleProg ℕ := do
  let current ← orClock now
  let tenants ← Engine.transaction (Engine.stmt .selectTenants)
  sumOver (fun tenantId => do
    let requests ← Engine.transaction (Engine.stmt (.selectDue tenantId current))
    sumOver (fun requestId => do
      let completed ← process H W (tenantId, requestId) (some current)
      return if completed then 1 else 0) requests) tenants

end ContentDeletionWorker

namespace RetentionSweep

/-- The transaction of one tenant. -/
def sweepTenant (current : Timestamp) (tenantId : Uuid) : LifecycleProg ℕ := do
  let held ← Engine.stmt (.selectHeld tenantId)
  if held then
    return 0
  else
    let row ← Engine.stmt (.selectPolicy tenantId)
    let policy := Option.getD row {}
    sumOver (fun e => Engine.stmt (LifecycleOp.expire e.1 tenantId (current - days e.2)))
      [(RetentionTable.inboundMessage, policy.idempotencyTombstoneDays),
       (RetentionTable.replyDelivery, policy.inboundPayloadDays),
       (RetentionTable.sessionEvent, policy.sessionDays),
       (RetentionTable.sessionSummary, policy.sessionDays),
       (RetentionTable.memoryRecord, policy.memoryDays)]

/-- **`run_once`.** -/
def runOnce (now : Option Timestamp) : LifecycleProg ℕ := do
  let current ← orClock now
  let tenants ← Engine.transaction (Engine.stmt .selectTenants)
  sumOver (fun tenantId => Engine.transaction (sweepTenant current tenantId)) tenants

end RetentionSweep

namespace ArtifactLifecycleWorker

/-- **`ArtifactService.purge`.** -/
def purge (tenantId : Uuid) : LifecycleProg ℕ := do
  let now ← Engine.stmt .clock
  let expired ← Engine.transaction (Engine.stmt (.listExpired tenantId now))
  let _ ← Prog.forEach (fun id => do
    let _ ← Engine.transaction (Engine.stmt (.deleteArtifact tenantId id))
    Engine.stmt (LifecycleOp.emitAudit tenantId id)) expired
  return List.length expired

/-- **`run_once`.** -/
def runOnce : LifecycleProg ℕ := do
  let tenants ← Engine.transaction (Engine.stmt .selectTenants)
  sumOver (fun tenantId => do
    let held ← Engine.transaction (Engine.stmt (.selectHeld tenantId))
    if held then return 0 else purge tenantId) tenants

end ArtifactLifecycleWorker

/-! ## The system -/

/-- A call of a worker. -/
inductive LifecycleCall where
  | process (W : ContentDeletionWorker) (key : RequestKey) (now : Option Timestamp)
  | runDeletions (W : ContentDeletionWorker) (now : Option Timestamp)
  | sweep (now : Option Timestamp)
  | purgeArtifacts

/-- What a call answers. -/
inductive LifecycleResult where
  | done (completed : Bool)
  | count (n : ℕ)
  deriving DecidableEq

/-- The program of a call. -/
def LifecycleCall.body (H : ProofHashing) : LifecycleCall → LifecycleProg LifecycleResult
  | .process W key now => do
    let completed ← W.process H key now
    return .done completed
  | .runDeletions W now => do
    let n ← W.runOnce H now
    return .count n
  | .sweep now => do
    let n ← RetentionSweep.runOnce now
    return .count n
  | .purgeArtifacts => do
    let n ← ArtifactLifecycleWorker.runOnce
    return .count n

/-- `approve_legal_hold`: a pending hold is approved by another than its initiator. -/
def approveLegalHold (tenantId id : Uuid) (subject : String) (db : LifecycleDb) :
    Except String LifecycleDb :=
  match db.holds.find? (fun h => h.tenantId = tenantId && h.id = id) with
  | none => .error "LEGAL_HOLD_NOT_FOUND"
  | some hold =>
    if hold.initiator = subject then .error "LEGAL_HOLD_SELF_APPROVAL"
    else if hold.status ≠ .pendingApproval then .error "LEGAL_HOLD_NOT_PENDING"
    else .ok { db with
      holds := db.holds.map (fun h => if h.tenantId = tenantId ∧ h.id = id
        then { h with status := .active, approver := some subject } else h) }

/-- `release_legal_hold`: an active hold is released by a third. -/
def releaseLegalHold (tenantId id : Uuid) (subject : String) (db : LifecycleDb) :
    Except String LifecycleDb :=
  match db.holds.find? (fun h => h.tenantId = tenantId && h.id = id) with
  | none => .error "LEGAL_HOLD_NOT_FOUND"
  | some hold =>
    if hold.initiator = subject ∨ hold.approver = some subject then
      .error "LEGAL_HOLD_SELF_RELEASE"
    else if hold.status ≠ .active then .error "LEGAL_HOLD_NOT_ACTIVE"
    else .ok { db with
      holds := db.holds.map (fun h => if h.tenantId = tenantId ∧ h.id = id
        then { h with status := .released } else h) }

/-- What happens besides: tenants come, policies are approved, holds are created,
approved and released, deletions are requested, content and artifacts are stored. -/
inductive LifecycleEvent where
  | createTenant (id : Uuid)
  | setPolicy (tenantId : Uuid) (policy : RetentionPolicy)
  | createHold (tenantId id : Uuid) (initiator : String)
  | approveHold (tenantId id : Uuid) (subject : String)
  | releaseHold (tenantId id : Uuid) (subject : String)
  | createRequest (key : RequestKey) (now : Timestamp)
  | addContent (id : Uuid) (row : ContentRow)
  | addArtifact (tenantId id : Uuid) (expiresAt : Timestamp)

/-- **An event in the committed database.** A handler that refuses changes nothing. -/
def LifecycleEvent.apply (e : LifecycleEvent) (db : LifecycleDb) : Option LifecycleDb :=
  match e with
  | .createTenant id => some { db with tenants := db.tenants ++ [id] }
  | .setPolicy tenantId policy =>
    some { db with policies := Function.update db.policies tenantId (some policy) }
  | .createHold tenantId id initiator =>
    if db.holds.any (fun h => h.tenantId = tenantId && h.id = id) then none
    else some { db with holds := db.holds ++ [⟨tenantId, id, initiator, none, .pendingApproval⟩] }
  | .approveHold tenantId id subject => (approveLegalHold tenantId id subject db).toOption
  | .releaseHold tenantId id subject => (releaseLegalHold tenantId id subject db).toOption
  | .createRequest key now =>
    match db.requests.get key with
    | some _ => none
    | none =>
      if db.held key.1 then none
      else some { db with requests := db.requests.set key (.created now) }
  | .addContent id row =>
    match db.content.get id with
    | some _ => none
    | none => some { db with content := db.content.set id row }
  | .addArtifact tenantId id expiresAt =>
    match db.artifacts.get (tenantId, id) with
    | some _ => none
    | none => some { db with artifacts := db.artifacts.set (tenantId, id) expiresAt }

/-- The state of the tables under workers. -/
abbrev LifecycleState := TxState LifecycleDb LifecycleWrite LifecycleKey (List Erasure)

/-- **Workers of the content lifecycle.** -/
def lifecycleWorkers (H : ProofHashing) :
    Pool (TxOp LifecycleOp) (TxRes LifecycleRes) LifecycleException (Choice LifecycleAnswer)
      LifecycleState LifecycleCall LifecycleResult LifecycleEvent where
  handler := lifecycleEngine.handler
  body := LifecycleCall.body H
  abandon := fun pid s => Engine.close s pid
  env := fun e s => (e.apply s.committed).map (fun db => { s with committed := db })

/-- Empty tables, and nothing erased. -/
def emptyLifecycle : LifecycleState :=
  Engine.quiet ⟨[], [], fun _ => none, .empty, .empty, .empty, .empty⟩ []

/-- The workers start with empty tables. -/
def lifecycleStart (s : LifecycleState) : Prop := s = emptyLifecycle

/-- **The transition system of the workers.** -/
def lifecycleMachine (H : ProofHashing) := (lifecycleWorkers H).machine lifecycleStart
