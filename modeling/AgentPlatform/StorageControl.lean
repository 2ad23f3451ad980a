import Mathlib.Algebra.GroupWithZero.Nat
import AgentPlatform.StorageAdapters
import AgentPlatform.RowLocks

/-!
# The control plane of Storage Profiles

The embedding of `admin_api/storage_profiles.py`, `admin_api/storage_migrations.py`
and `storage_migration_worker.py`, over the tables of `0022_storage_profiles.sql`,
`0026_storage_migrations.sql` and the two migrations after it, of
`StorageMigrationStateMachine`, and of `DatabaseStorageProfileResolver`.

A partial unique index is a table of its own here: `active` lists the profiles of
a tenant that have `active` set, and a statement that changes the flag locks the
entry of the tenant. The identifiers of a tenant's migrations stand in the order in
which the rows were inserted; a statement that inserts one, or updates one, locks
the entry of the tenant in `storage_migration_one_open_per_tenant`.

The adapters of a profile are outside the database: what the worker does to them is
not undone by a rollback. `written` remembers which of them the business has written
to since the worker took their fingerprint; nothing reads it.
-/

/-! ## The state machine -/

/-- `StorageMigrationState`. -/
inductive StorageMigrationState where
  | PREPARED
  | BACKFILLING
  | CATCHING_UP
  | VALIDATING
  | READY_TO_SWITCH
  | OBSERVING
  | ROLLING_BACK
  | ROLLBACK_CATCHING_UP
  | ROLLBACK_VALIDATING
  | COMPLETED
  | ROLLED_BACK
  | FAILED
  deriving DecidableEq

/-- `MigrationOperation`. -/
inductive MigrationOperation where
  | START_BACKFILL
  | BACKFILL_COMPLETE
  | CATCH_UP_COMPLETE
  | VALIDATE
  | SWITCH
  | COMPLETE
  | START_ROLLBACK
  | ROLLBACK_BACKFILL_COMPLETE
  | ROLLBACK_CATCH_UP_COMPLETE
  | ROLLBACK_VALIDATE
  | FAIL
  deriving DecidableEq

/-- `ValidationEvidence`. -/
structure ValidationEvidence where
  sourceCount : ℕ
  targetCount : ℕ
  sourceDigest : String
  targetDigest : String
  sourceVersion : ℕ
  targetVersion : ℕ
  vectorRecall : ℚ
  deriving DecidableEq

/-- **`is_valid`.** -/
def ValidationEvidence.isValid (e : ValidationEvidence) : Bool :=
  e.sourceCount = e.targetCount && e.sourceDigest = e.targetDigest
    && e.sourceVersion = e.targetVersion && decide (19 / 20 ≤ e.vectorRecall)

namespace StorageMigrationState

/-- `_TRANSITIONS`. -/
def transition : StorageMigrationState → MigrationOperation → Option StorageMigrationState
  | .PREPARED, .START_BACKFILL => some .BACKFILLING
  | .BACKFILLING, .BACKFILL_COMPLETE => some .CATCHING_UP
  | .CATCHING_UP, .CATCH_UP_COMPLETE => some .VALIDATING
  | .VALIDATING, .VALIDATE => some .READY_TO_SWITCH
  | .READY_TO_SWITCH, .SWITCH => some .OBSERVING
  | .OBSERVING, .COMPLETE => some .COMPLETED
  | .OBSERVING, .START_ROLLBACK => some .ROLLING_BACK
  | .ROLLING_BACK, .ROLLBACK_BACKFILL_COMPLETE => some .ROLLBACK_CATCHING_UP
  | .ROLLBACK_CATCHING_UP, .ROLLBACK_CATCH_UP_COMPLETE => some .ROLLBACK_VALIDATING
  | .ROLLBACK_VALIDATING, .ROLLBACK_VALIDATE => some .ROLLED_BACK
  | _, _ => none

/-- The states in which `FAIL` is accepted. -/
def mayFail : StorageMigrationState → Bool
  | .PREPARED | .BACKFILLING | .CATCHING_UP | .VALIDATING | .READY_TO_SWITCH => true
  | _ => false

/-- **`advance`.** -/
def advance (state : StorageMigrationState) (operation : MigrationOperation)
    (validation : Option ValidationEvidence) : Except PyException StorageMigrationState :=
  if operation = .FAIL ∧ state.mayFail then .ok .FAILED
  else
    match state.transition operation with
    | none => .error (storageMigrationError "STORAGE_MIGRATION_INVALID_TRANSITION")
    | some next =>
      if operation = .VALIDATE ∧ ¬ validation.any ValidationEvidence.isValid then
        .error (storageMigrationError "STORAGE_MIGRATION_VALIDATION_FAILED")
      else .ok next

/-- The states of a rollback. -/
def isRollback : StorageMigrationState → Bool
  | .ROLLING_BACK | .ROLLBACK_CATCHING_UP | .ROLLBACK_VALIDATING => true
  | _ => false

/-- The states outside `storage_migration_one_open_per_tenant`. -/
def isClosed : StorageMigrationState → Bool
  | .COMPLETED | .ROLLED_BACK | .FAILED => true
  | _ => false

/-- The states in which the worker has a phase to run. -/
def isWorkable : StorageMigrationState → Bool
  | .BACKFILLING | .CATCHING_UP | .VALIDATING | .ROLLING_BACK | .ROLLBACK_CATCHING_UP
  | .ROLLBACK_VALIDATING => true
  | _ => false

end StorageMigrationState

/-! ## The tables -/

/-- `approval_status` and `rollback_approval_status`. -/
inductive MigrationApproval where
  | NONE
  | PENDING
  | APPROVED
  | DENIED
  deriving DecidableEq

/-- A row of `tenant.storage_migration`. -/
structure StorageMigration where
  tenantId : Uuid
  id : Uuid
  sourceProfileId : Uuid
  targetProfileId : Uuid
  state : StorageMigrationState
  approvalStatus : MigrationApproval
  requestedBy : String
  approvedBy : Option String
  rollbackApprovalStatus : MigrationApproval
  rollbackRequestedBy : Option String
  rollbackApprovedBy : Option String
  validation : Option ValidationEvidence
  observationSeconds : ℕ
  observationEndsAt : Option Timestamp
  version : ℕ
  createdAt : Timestamp
  deriving DecidableEq

/-- **`business_write_profile_id`.** -/
def StorageMigration.businessWriteProfileId (m : StorageMigration) : Option Uuid :=
  if m.state.isRollback then none
  else if m.state = .OBSERVING ∨ m.state = .COMPLETED then some m.targetProfileId
  else some m.sourceProfileId

/-- `AdapterKind`. -/
inductive AdapterKind where
  | SQL
  | REDIS
  | VECTOR
  | OBJECT
  | EXTERNAL_MEMORY
  deriving DecidableEq

/-- The value of a kind. -/
def AdapterKind.value : AdapterKind → String
  | .SQL => "SQL"
  | .REDIS => "REDIS"
  | .VECTOR => "VECTOR"
  | .OBJECT => "OBJECT"
  | .EXTERNAL_MEMORY => "EXTERNAL_MEMORY"

/-- `StorageBackend`. -/
structure StorageBackend where
  kind : AdapterKind
  endpoint : String
  secretRef : String
  dedicated : Bool
  deriving DecidableEq

/-- What a row of `tenant.storage_profile` says of the isolation of a tenant. -/
structure StorageConfig where
  name : String
  classification : DataClassification
  workerPool : String
  encryptionKeyRef : String
  backends : List StorageBackend
  deriving DecidableEq

/-- **`has_each_backend_once`.** -/
def StorageConfig.hasEachBackendOnce (c : StorageConfig) : Bool :=
  let kinds := c.backends.map StorageBackend.kind
  [AdapterKind.SQL, .REDIS, .VECTOR, .OBJECT].all (fun kind => kind ∈ kinds) && decide kinds.Nodup

/-- **`StorageRouter`** accepts it. -/
def StorageConfig.isIsolated (c : StorageConfig) : Bool :=
  !(c.classification = .CONFIDENTIAL || c.classification = .RESTRICTED)
    || (c.workerPool ≠ "shared-workers" && c.backends.all StorageBackend.dedicated)

/-- A row of `tenant.storage_profile`, without its flag. -/
structure StorageProfileRow where
  config : StorageConfig
  version : ℕ
  deriving DecidableEq

/-- A row of `tenant.storage_migration_checkpoint`. -/
structure MigrationCheckpoint where
  forwardWatermarks : List ℕ
  rollbackWatermarks : List ℕ
  deriving DecidableEq

/-- The tables. -/
structure StorageDb where
  profiles : Uuid → Uuid → Option StorageProfileRow
  /-- `storage_profile_one_active_per_tenant`. -/
  active : Uuid → List Uuid
  /-- `UNIQUE (tenant_id, alias)`. -/
  names : Uuid → String → Option Uuid
  /-- `platform.storage_resource_claim`. -/
  claims : String × String → Option Uuid
  migrations : Uuid → Uuid → Option StorageMigration
  /-- The migrations of a tenant, as they were inserted. -/
  order : Uuid → List Uuid
  checkpoints : Uuid → Uuid → Option MigrationCheckpoint

namespace StorageDb

/-- The tables of a new platform. -/
def empty : StorageDb :=
  ⟨fun _ _ => none, fun _ => [], fun _ _ => none, fun _ => none, fun _ _ => none, fun _ => [],
    fun _ _ => none⟩

/-- The migrations of a tenant. -/
def migrationsOf (db : StorageDb) (tenantId : Uuid) : List StorageMigration :=
  (db.order tenantId).filterMap (db.migrations tenantId)

/-- The most recent migration of a tenant. -/
def latest (db : StorageDb) (tenantId : Uuid) : Option StorageMigration :=
  (db.migrationsOf tenantId).getLast?

/-- **The profile the business of a tenant may write**: the one its most recent
migration names, or the active one. -/
def writeProfile (db : StorageDb) (tenantId : Uuid) : Option Uuid :=
  match db.latest tenantId with
  | some m => m.businessWriteProfileId
  | none => (db.active tenantId).head?

/-- No migration of the tenant is open. -/
def allClosed (db : StorageDb) (tenantId : Uuid) : Bool :=
  (db.migrationsOf tenantId).all (fun m => m.state.isClosed)

/-- **`DatabaseStorageProfileResolver.resolve`**: the active profile, unless a
migration to it is neither observing nor completed. -/
def resolve (db : StorageDb) (tenantId : Uuid) : Option Uuid :=
  (db.active tenantId).find? (fun id => (db.migrationsOf tenantId).all (fun m =>
    !(m.targetProfileId = id && !(m.state = .OBSERVING || m.state = .COMPLETED))))

/-- `ORDER BY created_at LIMIT 1`. -/
def earliest (ms : List StorageMigration) : Option StorageMigration :=
  ms.foldl (fun found m => match found with
    | none => some m
    | some m' => if m.createdAt < m'.createdAt then some m else some m') none

end StorageDb

/-! ## Statements -/

/-- What an `UPDATE` of a migration sets. -/
inductive MigrationUpdate where
  | decide (state : StorageMigrationState) (status : MigrationApproval) (approvedBy : String)
  | state (state : StorageMigrationState) (validation : Option ValidationEvidence)
  | advance (state : StorageMigrationState) (validation : Option ValidationEvidence)
      (observationEndsAt : Option Timestamp)
  | rollbackApproval (status : MigrationApproval) (requestedBy approvedBy : Option String)
  deriving DecidableEq

/-- The effect of an `UPDATE`. -/
def MigrationUpdate.apply (update : MigrationUpdate) (m : StorageMigration) : StorageMigration :=
  match update with
  | .decide next status approvedBy =>
    { m with
      state := next
      approvalStatus := status
      approvedBy := some approvedBy
      version := m.version + 1 }
  | .state next validation =>
    { m with
      state := next
      validation := validation.orElse (fun _ => m.validation)
      version := m.version + 1 }
  | .advance next validation observationEndsAt =>
    { m with
      state := next
      validation := validation
      observationEndsAt := observationEndsAt
      version := m.version + 1 }
  | .rollbackApproval status requestedBy approvedBy =>
    { m with
      rollbackApprovalStatus := status
      rollbackRequestedBy := requestedBy.orElse (fun _ => m.rollbackRequestedBy)
      rollbackApprovedBy := approvedBy
      version := m.version + 1 }

/-- The row that `create_migration` inserts. -/
def newMigration (tenantId migrationId source target : Uuid) (subject : String)
    (observationSeconds : ℕ) (now : Timestamp) : StorageMigration :=
  { tenantId := tenantId
    id := migrationId
    sourceProfileId := source
    targetProfileId := target
    state := .PREPARED
    approvalStatus := .PENDING
    requestedBy := subject
    approvedBy := none
    rollbackApprovalStatus := .NONE
    rollbackRequestedBy := none
    rollbackApprovedBy := none
    validation := none
    observationSeconds := observationSeconds
    observationEndsAt := none
    version := 1
    createdAt := now }

/-- What the environment supplies to a statement: the clock, and what the ledger of
idempotency keys answers. -/
structure StorageSupply where
  now : Timestamp := 0
  replayed : Option Uuid := none

/-- The adapters, and which of them the business has written to since their
fingerprint was taken. -/
structure StorageExt where
  stores : AdapterStores
  written : Uuid → ℕ → String → Bool

/-- The statements of the handlers and of the worker, and the requests to adapters. -/
inductive StorageOp where
  | setTenant (tenantId : Uuid)
  | replayFor
  | existsActive (tenantId : Uuid)
  | claimResource (kind fingerprint : String) (tenantId : Uuid)
  | selectClaim (kind fingerprint : String)
  | insertProfile (tenantId id : Uuid) (config : StorageConfig) (active : Bool)
  | selectActive (tenantId : Uuid)
  | selectProfile (tenantId id : Uuid)
  | insertMigration (row : StorageMigration)
  | lockMigration (tenantId id : Uuid)
  | lockWorkable (tenantId : Uuid)
  | lockCheckpoint (tenantId id : Uuid)
  | updateMigration (tenantId id : Uuid) (update : MigrationUpdate)
  | setActive (tenantId id : Uuid) (active : Bool)
  | upsertCheckpoint (tenantId id : Uuid) (forward rollback : Option (List ℕ))
  | utcNow
  | insertAudit (action : String)
  | remember
  | adapter (op : AdapterOp)
  | tenantFingerprint (profileId : Uuid) (index : ℕ) (tenantId : String)
  | vectorRecallAgainst (target source : Uuid) (index : ℕ) (tenantId : String)
  | businessWrite (tenantId : Uuid) (index : ℕ) (key : String) (value : Option Bytes)

/-- What a statement answers. -/
abbrev StorageRes : StorageOp → Type
  | .setTenant _ => Timestamp
  | .replayFor => Option Uuid
  | .existsActive _ => Bool
  | .selectClaim .. => Option Uuid
  | .selectActive _ => Option Uuid
  | .selectProfile .. => Option Bool
  | .insertMigration _ => StorageMigration
  | .lockMigration .. => Option StorageMigration
  | .lockWorkable _ => Option StorageMigration
  | .lockCheckpoint .. => Option MigrationCheckpoint
  | .updateMigration .. => Option StorageMigration
  | .utcNow => Timestamp
  | .adapter op => AdapterRes op
  | .tenantFingerprint .. => ℕ × String × ℕ
  | .vectorRecallAgainst .. => ℚ
  | .businessWrite .. => Bool
  | _ => Unit

/-- The row writes. -/
inductive StorageWrite where
  | profile (tenantId id : Uuid) (row : StorageProfileRow)
  | nameEntry (tenantId : Uuid) (name : String) (id : Uuid)
  | claim (kind fingerprint : String) (tenantId : Uuid)
  | activate (tenantId id : Uuid)
  | deactivate (tenantId id : Uuid)
  | append (tenantId id : Uuid)
  | migration (row : StorageMigration)
  | update (tenantId id : Uuid) (update : MigrationUpdate)
  | checkpoint (tenantId id : Uuid) (row : MigrationCheckpoint)

/-- The rows and index entries that can be locked. -/
inductive StorageRow where
  | profile (tenantId id : Uuid)
  | nameIndex (tenantId : Uuid) (name : String)
  | claim (kind fingerprint : String)
  | activeIndex (tenantId : Uuid)
  | openIndex (tenantId : Uuid)
  | migration (tenantId id : Uuid)
  | checkpoint (tenantId id : Uuid)
  deriving DecidableEq

/-- Change a table at one key. -/
def setAt {V : Type} (f : Uuid → Uuid → V) (t id : Uuid) (v : V) : Uuid → Uuid → V :=
  fun t' id' => if t' = t ∧ id' = id then v else f t' id'

namespace StorageWrite

/-- The effect of a write. -/
def apply : StorageWrite → StorageDb → StorageDb
  | .profile t id row, db => { db with profiles := setAt db.profiles t id (some row) }
  | .nameEntry t name id, db =>
    { db with names := fun t' name' =>
        if t' = t ∧ name' = name then some id else db.names t' name' }
  | .claim kind fingerprint t, db =>
    { db with claims := Function.update db.claims (kind, fingerprint) (some t) }
  | .activate t id, db => { db with active := Function.update db.active t (db.active t ++ [id]) }
  | .deactivate t id, db =>
    { db with active := Function.update db.active t ((db.active t).filter (fun x => x ≠ id)) }
  | .append t id, db => { db with order := Function.update db.order t (db.order t ++ [id]) }
  | .migration row, db =>
    { db with migrations := setAt db.migrations row.tenantId row.id (some row) }
  | .update t id u, db =>
    { db with migrations := setAt db.migrations t id ((db.migrations t id).map u.apply) }
  | .checkpoint t id row, db => { db with checkpoints := setAt db.checkpoints t id (some row) }

/-- The row a write touches. -/
def key : StorageWrite → StorageRow
  | .profile t id _ => .profile t id
  | .nameEntry t name _ => .nameIndex t name
  | .claim kind fingerprint _ => .claim kind fingerprint
  | .activate t _ => .activeIndex t
  | .deactivate t _ => .activeIndex t
  | .append t _ => .openIndex t
  | .migration row => .migration row.tenantId row.id
  | .update t id _ => .migration t id
  | .checkpoint t id _ => .checkpoint t id

end StorageWrite

/-- The migrations of a tenant that the worker finds: in a phase of its own, and not
locked by another. -/
def StorageDb.workable (db : StorageDb) (free : StorageRow → Bool) (tenantId : Uuid) :
    Option StorageMigration :=
  StorageDb.earliest ((db.migrationsOf tenantId).filter (fun m =>
    m.state.isWorkable && free (.migration tenantId m.id)))

/-- `COALESCE(CAST($3 AS jsonb), …)` on either column of a checkpoint. -/
def MigrationCheckpoint.upsert (row : Option MigrationCheckpoint)
    (forward rollback : Option (List ℕ)) : MigrationCheckpoint :=
  ⟨forward.getD ((row.map MigrationCheckpoint.forwardWatermarks).getD []),
    rollback.getD ((row.map MigrationCheckpoint.rollbackWatermarks).getD [])⟩

namespace StorageOp

/-- The rows and index entries a statement locks. -/
def locks (free : StorageRow → Bool) (db : StorageDb) : StorageOp → List StorageRow
  | .claimResource kind fingerprint _ => [.claim kind fingerprint]
  | .insertProfile t id config active =>
    [.profile t id, .nameIndex t config.name] ++ if active then [.activeIndex t] else []
  | .insertMigration row => [.openIndex row.tenantId, .migration row.tenantId row.id]
  | .lockMigration t id => [.migration t id]
  | .lockWorkable t =>
    match db.workable free t with
    | some m => [.migration t m.id]
    | none => []
  | .lockCheckpoint t id => [.checkpoint t id]
  | .updateMigration t id _ => [.openIndex t, .migration t id]
  | .setActive t id _ => [.profile t id, .activeIndex t]
  | .upsertCheckpoint t id _ _ => [.checkpoint t id]
  | _ => []

/-- An operation of the business on an adapter. -/
def writeAdapter (a : MemoryAdapter) (tenantId key : String) : Option Bytes → MemoryAdapter
  | some value => a.put tenantId key value
  | none => (a.eraseTenant tenantId).2

/-- The answer of a statement, its writes and the adapters after it. -/
def exec (sha256 : Bytes → String) (supply : StorageSupply) (free : StorageRow → Bool)
    (db : StorageDb) (ext : StorageExt) :
    (op : StorageOp) → Except PyException (StorageRes op) × List StorageWrite × StorageExt
  | .setTenant _ => (.ok supply.now, [], ext)
  | .replayFor => (.ok supply.replayed, [], ext)
  | .existsActive t => (.ok (!(db.active t).isEmpty), [], ext)
  | .claimResource kind fingerprint t =>
    (.ok (), if (db.claims (kind, fingerprint)).isNone then [.claim kind fingerprint t]
      else [], ext)
  | .selectClaim kind fingerprint => (.ok (db.claims (kind, fingerprint)), [], ext)
  | .insertProfile t id config active =>
    if (db.profiles t id).isSome ∨ (db.names t config.name).isSome
        ∨ (active ∧ db.active t ≠ []) then (.error .sqlAlchemy, [], ext)
    else (.ok (), [.profile t id ⟨config, 1⟩, .nameEntry t config.name id]
      ++ (if active then [.activate t id] else []), ext)
  | .selectActive t => (.ok (db.active t).head?, [], ext)
  | .selectProfile t id =>
    (.ok ((db.profiles t id).map (fun _ => decide (id ∈ db.active t))), [], ext)
  | .insertMigration row =>
    if (db.migrations row.tenantId row.id).isSome ∨ row.sourceProfileId = row.targetProfileId
        ∨ (db.profiles row.tenantId row.sourceProfileId).isNone
        ∨ (db.profiles row.tenantId row.targetProfileId).isNone
        ∨ db.allClosed row.tenantId = false then (.error .sqlAlchemy, [], ext)
    else (.ok row, [.append row.tenantId row.id, .migration row], ext)
  | .lockMigration t id => (.ok (db.migrations t id), [], ext)
  | .lockWorkable t => (.ok (db.workable free t), [], ext)
  | .lockCheckpoint t id => (.ok (db.checkpoints t id), [], ext)
  | .updateMigration t id u =>
    match db.migrations t id with
    | some m => (.ok (some (u.apply m)), [.update t id u], ext)
    | none => (.ok none, [], ext)
  | .setActive t id active =>
    match db.profiles t id with
    | none => (.ok (), [], ext)
    | some row =>
      if active then
        if id ∈ db.active t then (.ok (), [.profile t id ⟨row.config, row.version + 1⟩], ext)
        else if db.active t ≠ [] then (.error .sqlAlchemy, [], ext)
        else (.ok (), [.profile t id ⟨row.config, row.version + 1⟩, .activate t id], ext)
      else (.ok (), [.profile t id ⟨row.config, row.version + 1⟩, .deactivate t id], ext)
  | .upsertCheckpoint t id forward rollback =>
    (.ok (), [.checkpoint t id (.upsert (db.checkpoints t id) forward rollback)], ext)
  | .utcNow => (.ok supply.now, [], ext)
  | .insertAudit _ => (.ok (), [], ext)
  | .remember => (.ok (), [], ext)
  | .adapter op =>
    (.ok (op.serve ext.stores).1, [], { ext with stores := (op.serve ext.stores).2 })
  | .tenantFingerprint p i t =>
    (.ok ((ext.stores p i).tenantFingerprint sha256 t), [],
      { ext with written := fun p' i' t' =>
          if p' = p ∧ i' = i ∧ t' = t then false else ext.written p' i' t' })
  | .vectorRecallAgainst target source i t =>
    (.ok ((ext.stores target i).vectorRecallAgainst (ext.stores source i) t), [], ext)
  | .businessWrite t i key value =>
    match db.writeProfile t with
    | none => (.ok false, [], ext)
    | some p =>
      (.ok true, [],
        ⟨ext.stores.set p i (writeAdapter (ext.stores p i) t.str key value),
          fun p' i' t' => if p' = p ∧ i' = i ∧ t' = t.str then true else ext.written p' i' t'⟩)

end StorageOp

/-- **The tables under transactions**, with the adapters. -/
def storageEngine (sha256 : Bytes → String) : Engine StorageOp StorageRes PyException StorageSupply
    StorageDb StorageWrite StorageRow StorageExt where
  apply := StorageWrite.apply
  key := StorageWrite.key
  locks op free db _ := op.locks free db
  exec supply op free db ext := op.exec sha256 supply free db ext
  dbError := .sqlAlchemy

/-- A program of the handlers or of the worker. -/
abbrev StorageProg := Prog (TxOp StorageOp) (TxRes StorageRes) PyException

/-- A statement, or a request to an adapter. -/
abbrev storage (op : StorageOp) : StorageProg (StorageRes op) := Engine.stmt op

/-- `tenant_transaction`: the body is told what `now()` is. -/
def storageTransaction {α : Type} (tenantId : Uuid) (body : Timestamp → StorageProg α) :
    StorageProg α :=
  Engine.transaction (do
    let now ← storage (.setTenant tenantId)
    body now)

/-! ## Profiles -/

/-- `StorageProfileCreate`. -/
structure StorageProfileCreate where
  config : StorageConfig
  activate : Bool

/-- **`_validate_profile`**: the detail of the error, if there is one. -/
@[irreducible] def StorageProfileCreate.validate (payload : StorageProfileCreate)
    (tenantId : Uuid) : Option String :=
  let scope := ("vault://tenant/" ++ tenantId.str ++ "/").toList
  if ¬ scope.isPrefixOf payload.config.encryptionKeyRef.toList
      ∨ ¬ payload.config.backends.all (fun b => scope.isPrefixOf b.secretRef.toList) then
    some "STORAGE_SECRET_REF_SCOPE_INVALID"
  else if ¬ payload.config.hasEachBackendOnce then some "STORAGE_BACKENDS_INCOMPLETE"
  else if ¬ payload.config.isIsolated then some "DEDICATED_STORAGE_REQUIRED"
  else none

/-- The resources that a profile claims. -/
def StorageConfig.resources (c : StorageConfig) : List (String × String) :=
  (c.backends.filter StorageBackend.dedicated).map (fun b => (b.kind.value, b.endpoint))
    ++ if c.workerPool ≠ "shared-workers" then [("WORKER_POOL", c.workerPool)] else []

/-- **`_claim_dedicated_resources`.** -/
def claimDedicatedResources (sha256 : Bytes → String) (tenantId : Uuid) :
    List (String × String) → StorageProg Unit
  | [] => return ()
  | (kind, identity) :: rest => do
    let fingerprint := sha256 identity.toUTF8.toList
    let _ ← storage (.claimResource kind fingerprint tenantId)
    let owner ← storage (.selectClaim kind fingerprint)
    if owner ≠ some tenantId then throw (httpException 409 "STORAGE_RESOURCE_ALREADY_CLAIMED")
    else claimDedicatedResources sha256 tenantId rest

/-- **`create_profile`.** -/
def createProfile (sha256 : Bytes → String) (tenantId profileId : Uuid)
    (payload : StorageProfileCreate) : StorageProg Uuid :=
  match payload.validate tenantId with
  | some detail => throw (httpException 422 detail)
  | none => storageTransaction tenantId (fun _ => do
    let replayed ← storage .replayFor
    match replayed with
    | some reply => return reply
    | none => do
      let exists_ ← storage (.existsActive tenantId)
      if payload.activate ∧ exists_ then throw (httpException 409 "STORAGE_MIGRATION_REQUIRED")
      else do
        claimDedicatedResources sha256 tenantId payload.config.resources
        let _ ← storage (.insertProfile tenantId profileId payload.config payload.activate)
        let _ ← storage (.insertAudit "storage_profile.create")
        let _ ← storage .remember
        return profileId)

/-! ## Migrations -/

/-- **`_migration`**, for update. -/
def lockedMigration (tenantId migrationId : Uuid) : StorageProg StorageMigration := do
  match ← storage (.lockMigration tenantId migrationId) with
  | some row => return row
  | none => throw (httpException 404 "STORAGE_MIGRATION_NOT_FOUND")

/-- `_transition_error`. -/
def transitionError : PyException → PyException
  | .other code => httpException 409 code
  | e => e

/-- The `UPDATE` of a handler, with its audit. -/
def updateAudited (row : StorageMigration) (update : MigrationUpdate) (action : String) :
    StorageProg Unit := do
  let _ ← storage (.updateMigration row.tenantId row.id update)
  let _ ← storage (.insertAudit action)

/-- **`create_migration`.** -/
def createMigration (tenantId migrationId target : Uuid) (observationSeconds : ℕ)
    (subject : String) : StorageProg Unit :=
  storageTransaction tenantId (fun now => do
    let source ← storage (.selectActive tenantId)
    let targetActive ← storage (.selectProfile tenantId target)
    match source, targetActive with
    | some source, some targetActive =>
      if source = target ∨ targetActive then
        throw (httpException 409 "STORAGE_MIGRATION_INVALID_PROFILES")
      else do
        let _ ← storage (.insertMigration
          (newMigration tenantId migrationId source target subject observationSeconds now))
        let _ ← storage (.insertAudit "storage_migration.request")
        return ()
    | _, _ => throw (httpException 404 "STORAGE_PROFILE_NOT_FOUND"))

/-- **`decide_migration_approval`.** -/
def decideMigrationApproval (tenantId migrationId : Uuid) (approve : Bool) (subject : String) :
    StorageProg Unit :=
  storageTransaction tenantId (fun _ => do
    let row ← lockedMigration tenantId migrationId
    if row.approvalStatus ≠ .PENDING then
      throw (httpException 409 "STORAGE_MIGRATION_APPROVAL_ALREADY_DECIDED")
    else if subject = row.requestedBy then
      throw (httpException 409 "STORAGE_MIGRATION_SELF_APPROVAL_DENIED")
    else
      updateAudited row
        (if approve then .decide .PREPARED .APPROVED subject else .decide .FAILED .DENIED subject)
        "storage_migration.approve")

/-- **`start_migration`.** -/
def startMigration (tenantId migrationId : Uuid) : StorageProg Unit :=
  storageTransaction tenantId (fun _ => do
    let row ← lockedMigration tenantId migrationId
    if row.approvalStatus ≠ .APPROVED then
      throw (httpException 409 "STORAGE_MIGRATION_APPROVAL_REQUIRED")
    else
      match row.state.advance .START_BACKFILL none with
      | .error e => throw (transitionError e)
      | .ok next => updateAudited row (.state next none) "storage_migration.start")

/-- `StorageMigrationAdvance`. -/
inductive StorageMigrationAdvance where
  | SWITCH
  | COMPLETE
  deriving DecidableEq

/-- `MigrationOperation(payload.operation)`. -/
def StorageMigrationAdvance.operation : StorageMigrationAdvance → MigrationOperation
  | .SWITCH => .SWITCH
  | .COMPLETE => .COMPLETE

/-- **`advance_migration`.** -/
def advanceMigration (tenantId migrationId : Uuid) (payload : StorageMigrationAdvance) :
    StorageProg Unit :=
  storageTransaction tenantId (fun _ => do
    let row ← lockedMigration tenantId migrationId
    let now ← storage .utcNow
    if row.approvalStatus ≠ .APPROVED then
      throw (httpException 409 "STORAGE_MIGRATION_APPROVAL_REQUIRED")
    else if payload = .COMPLETE ∧ ¬ row.observationEndsAt.any (fun endsAt => endsAt ≤ now) then
      throw (httpException 409 "STORAGE_MIGRATION_OBSERVATION_REQUIRED")
    else
      match row.state.advance payload.operation none with
      | .error e => throw (transitionError e)
      | .ok next =>
        match payload with
        | .SWITCH => do
          let _ ← storage (.setActive tenantId row.sourceProfileId false)
          let _ ← storage (.setActive tenantId row.targetProfileId true)
          updateAudited row
            (.advance next row.validation (some (now + row.observationSeconds * 1000000)))
            "storage_migration.advance"
        | .COMPLETE =>
          updateAudited row (.advance next row.validation row.observationEndsAt)
            "storage_migration.advance")

/-- `StorageMigrationRollbackApproval`. -/
inductive RollbackDecision where
  | REQUEST
  | APPROVE
  | DENY
  deriving DecidableEq

/-- **`decide_rollback_approval`.** -/
def decideRollbackApproval (tenantId migrationId : Uuid) (decision : RollbackDecision)
    (subject : String) : StorageProg Unit :=
  storageTransaction tenantId (fun _ => do
    let row ← lockedMigration tenantId migrationId
    if row.state ≠ .OBSERVING then
      throw (httpException 409 "STORAGE_MIGRATION_ROLLBACK_UNAVAILABLE")
    else if decision = .REQUEST then
      if row.rollbackApprovalStatus ≠ .NONE then
        throw (httpException 409 "STORAGE_MIGRATION_ROLLBACK_ALREADY_REQUESTED")
      else
        updateAudited row (.rollbackApproval .PENDING (some subject) none)
          "storage_migration.rollback_approval"
    else if row.rollbackApprovalStatus ≠ .PENDING
        ∨ subject = row.rollbackRequestedBy.getD "None" then
      throw (httpException 409 "STORAGE_MIGRATION_ROLLBACK_APPROVAL_DENIED")
    else
      updateAudited row
        (.rollbackApproval (if decision = .APPROVE then .APPROVED else .DENIED) none (some subject))
        "storage_migration.rollback_approval")

/-- **`rollback_migration`.** -/
def rollbackMigration (tenantId migrationId : Uuid) : StorageProg Unit :=
  storageTransaction tenantId (fun _ => do
    let row ← lockedMigration tenantId migrationId
    if row.rollbackApprovalStatus ≠ .APPROVED then
      throw (httpException 409 "STORAGE_MIGRATION_ROLLBACK_APPROVAL_REQUIRED")
    else
      match row.state.advance .START_ROLLBACK none with
      | .error e => throw (transitionError e)
      | .ok next => updateAudited row (.state next none) "storage_migration.rollback")

/-! ## The worker -/

/-- A fingerprint of the source, one of the target, and the recall. -/
abbrev PairEvidence := (ℕ × String × ℕ) × (ℕ × String × ℕ) × ℚ

/-- The loop of `validate`. -/
def fingerprintPairs (tenantId : String) (source target : Uuid) :
    List ℕ → StorageProg (List PairEvidence)
  | [] => return []
  | i :: rest => do
    let fromSource ← storage (.tenantFingerprint source i tenantId)
    let fromTarget ← storage (.tenantFingerprint target i tenantId)
    let recalled ← storage (.vectorRecallAgainst target source i tenantId)
    let found ← fingerprintPairs tenantId source target rest
    return (fromSource, fromTarget, recalled) :: found

/-- The evidence of the pairs. The version of a target is that of its source when
their contents agree. -/
def ValidationEvidence.ofPairs (sha256 : Bytes → String) (found : List PairEvidence) :
    ValidationEvidence where
  sourceCount := (found.map (fun p => p.1.1)).sum
  targetCount := (found.map (fun p => p.2.1.1)).sum
  sourceDigest := sha256 (found.flatMap (fun p => p.1.2.1.toUTF8.toList))
  targetDigest := sha256 (found.flatMap (fun p => p.2.1.2.1.toUTF8.toList))
  sourceVersion := (found.map (fun p => p.1.2.2)).foldr max 0
  targetVersion := (found.map (fun p =>
    if p.1.1 = p.2.1.1 ∧ p.1.2.1 = p.2.1.2.1 then p.1.2.2 else p.2.1.2.2)).foldr max 0
  vectorRecall := (found.map (fun p => p.2.2)).foldr min 1

namespace StorageMigrationWorker

variable (sha256 : Bytes → String) (adapters : Uuid → Uuid → Uuid → ℕ)

/-- **`StorageMigrationExecutor.validate`.** -/
def validate (tenantId source target : Uuid) : StorageProg ValidationEvidence := do
  let pairs := adapters tenantId source target
  if pairs = 0 then throw (storageMigrationError "STORAGE_MIGRATION_ADAPTERS_UNAVAILABLE")
  else
    let found ← fingerprintPairs tenantId.str source target (List.range pairs)
    return .ofPairs sha256 found

/-- `backfill` of the executor. -/
def backfill (tenantId source target : Uuid) : StorageProg (List ℕ) :=
  StorageMigrationExecutor.backfill (fun op => storage (.adapter op))
    (adapters tenantId source target) tenantId.str source target

/-- `catch_up` of the executor. -/
def catchUp (tenantId source target : Uuid) (watermarks : List ℕ) : StorageProg (List ℕ) :=
  StorageMigrationExecutor.catchUp (fun op => storage (.adapter op))
    (adapters tenantId source target) tenantId.str source target watermarks

/-- **`_advance`.** -/
def advance (row : StorageMigration) (operation : MigrationOperation) (action : String)
    (evidence : Option ValidationEvidence) : StorageProg Unit := do
  match row.state.advance operation evidence with
  | .error e => throw e
  | .ok next => updateAudited row (.state next evidence) ("storage_migration.worker." ++ action)

/-- **`_execute_phase`.** -/
def executePhase (row : StorageMigration) : StorageProg Unit := do
  let t := row.tenantId
  let checkpoint ← storage (.lockCheckpoint t row.id)
  if row.state = .BACKFILLING then do
    let watermarks ← backfill adapters t row.sourceProfileId row.targetProfileId
    let _ ← storage (.upsertCheckpoint t row.id (some watermarks) none)
    advance row .BACKFILL_COMPLETE "backfill" none
  else
    match checkpoint with
    | none => throw (storageMigrationError "STORAGE_MIGRATION_CHECKPOINT_MISSING")
    | some checkpoint =>
      if row.state = .CATCHING_UP then do
        let watermarks ← catchUp adapters t row.sourceProfileId row.targetProfileId
          checkpoint.forwardWatermarks
        let _ ← storage (.upsertCheckpoint t row.id (some watermarks) none)
        advance row .CATCH_UP_COMPLETE "catch_up" none
      else if row.state = .VALIDATING then do
        let evidence ← validate sha256 adapters t row.sourceProfileId row.targetProfileId
        if evidence.isValid = false then
          throw (storageMigrationError "STORAGE_MIGRATION_VALIDATION_FAILED")
        else advance row .VALIDATE "validate" (some evidence)
      else if row.state = .ROLLING_BACK then do
        let watermarks ← backfill adapters t row.targetProfileId row.sourceProfileId
        let _ ← storage (.upsertCheckpoint t row.id none (some watermarks))
        advance row .ROLLBACK_BACKFILL_COMPLETE "rollback_backfill" none
      else if row.state = .ROLLBACK_CATCHING_UP then do
        let watermarks ← catchUp adapters t row.targetProfileId row.sourceProfileId
          checkpoint.rollbackWatermarks
        let _ ← storage (.upsertCheckpoint t row.id none (some watermarks))
        advance row .ROLLBACK_CATCH_UP_COMPLETE "rollback_catch_up" none
      else do
        let evidence ← validate sha256 adapters t row.targetProfileId row.sourceProfileId
        if evidence.isValid = false then
          throw (storageMigrationError "STORAGE_MIGRATION_ROLLBACK_VALIDATION_FAILED")
        else do
          let _ ← storage (.setActive t row.targetProfileId false)
          let _ ← storage (.setActive t row.sourceProfileId true)
          advance row .ROLLBACK_VALIDATE "rollback_switch" (some evidence)

/-- **`_record_failure`.** -/
def recordFailure (row : StorageMigration) : StorageProg Unit :=
  if row.state.isRollback then do
    let _ ← storage (.insertAudit "storage_migration.worker.failure")
    return ()
  else updateAudited row (.state .FAILED none) "storage_migration.worker.failure"

/-- `except StorageMigrationError` catches it. -/
def isMigrationError : PyException → Bool
  | .other _ => true
  | _ => false

/-- **`run_once`.** -/
def runOnce (tenantId : Uuid) : StorageProg Bool :=
  storageTransaction tenantId (fun _ => do
    match ← storage (.lockWorkable tenantId) with
    | none => return false
    | some row => do
      tryCatch (executePhase sha256 adapters row) (fun e =>
        if isMigrationError e then recordFailure row else throw e)
      return true)

end StorageMigrationWorker

/-! ## The system -/

/-- The requests of operators, the turns of workers, and the operations of the
business. -/
inductive StorageCall where
  | createProfile (tenantId profileId : Uuid) (payload : StorageProfileCreate)
  | createMigration (tenantId migrationId target : Uuid) (observationSeconds : ℕ)
      (subject : String)
  | decideMigrationApproval (tenantId migrationId : Uuid) (approve : Bool) (subject : String)
  | startMigration (tenantId migrationId : Uuid)
  | advanceMigration (tenantId migrationId : Uuid) (payload : StorageMigrationAdvance)
  | decideRollbackApproval (tenantId migrationId : Uuid) (decision : RollbackDecision)
      (subject : String)
  | rollbackMigration (tenantId migrationId : Uuid)
  | runOnce (tenantId : Uuid)
  | businessWrite (tenantId : Uuid) (index : ℕ) (key : String) (value : Option Bytes)

/-- What a call does; its reply is dropped. -/
def storageBody (sha256 : Bytes → String) (adapters : Uuid → Uuid → Uuid → ℕ) :
    StorageCall → StorageProg Unit
  | .createProfile t id payload => do
    let _ ← createProfile sha256 t id payload
  | .createMigration t id target seconds subject => createMigration t id target seconds subject
  | .decideMigrationApproval t id approve subject => decideMigrationApproval t id approve subject
  | .startMigration t id => startMigration t id
  | .advanceMigration t id payload => advanceMigration t id payload
  | .decideRollbackApproval t id decision subject => decideRollbackApproval t id decision subject
  | .rollbackMigration t id => rollbackMigration t id
  | .runOnce t => do
    let _ ← StorageMigrationWorker.runOnce sha256 adapters t
  | .businessWrite t i key value => do
    let _ ← storage (.businessWrite t i key value)

/-- Any number of them at once. -/
abbrev storagePool (sha256 : Bytes → String) (adapters : Uuid → Uuid → Uuid → ℕ) :=
  (storageEngine sha256).pool (storageBody sha256 adapters)

/-- The platform starts with empty tables, whatever its adapters hold. -/
def storageStart (s : TxState StorageDb StorageWrite StorageRow StorageExt) : Prop :=
  ∃ ext, s = Engine.quiet StorageDb.empty ext

/-- **The control plane as a transition system.** -/
abbrev storageMachine (sha256 : Bytes → String) (adapters : Uuid → Uuid → Uuid → ℕ) :=
  (storagePool sha256 adapters).machine storageStart
