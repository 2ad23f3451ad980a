import AgentPlatform.AuditChain
import AgentPlatform.RowLocks

/-!
# The writers of the audit trail

The embedding of `admin_api/audit.py`, `audit_chain/outbox.py` and
`audit_chain/manifest.py` over the tables of `0015_audit_chain_worm.sql`.

An audit event of a tenant is appended to the tenant's chain in the transaction
that causes it (`insert_audit`), or from the Audit Outbox by the dispatcher
(`dispatch_pending`). Both reserve a place with `append_to_chain`, which locks
the tenant's row of `audit_chain_state`, or creates it. Manifests seal the part
of a chain that has not been archived (`build_and_archive`).

The writers hash the values they are about to store, the verifier those it
reads back: `jsonb` is what a document looks like after a round trip through a
`jsonb` column, which may order its keys anew.
-/

/-- The primitives of the audit trail. -/
structure AuditPlatform extends AuditHashing where
  hmacSha256 : String → String → String
  isoformat : Timestamp → String
  /-- A document as it is read back from a `jsonb` column. -/
  jsonb : JsonDoc → JsonDoc
  jsonb_canon : ∀ d, (jsonb d).1.canon = d.1.canon

/-! ## Tables -/

/-- A row of `platform.audit_chain_state`. -/
structure ChainState where
  lastIndex : ℤ
  lastHash : String
  deriving DecidableEq

/-- A row of `platform.audit_outbox`. -/
structure AuditOutboxRow where
  id : Uuid
  tenantId : Uuid
  actor : String
  authMethod : String
  action : String
  decision : String
  targetType : Option String
  targetId : Option String
  details : JsonDoc
  traceId : Option String
  occurredAt : Timestamp
  dispatched : Bool

/-- A row of `platform.audit_manifest`. -/
structure AuditManifest where
  tenantId : Uuid
  manifestIndex : ℤ
  firstChainIndex : ℤ
  lastChainIndex : ℤ
  eventCount : ℕ
  chainHeadHash : String
  signature : String
  wormLocation : String
  createdAt : Timestamp
  deriving DecidableEq

/-- The audit tables. -/
structure AuditDb where
  events : List AuditEvent
  chainState : Uuid → Option ChainState
  outbox : List AuditOutboxRow
  manifests : List AuditManifest

/-- The chain an event has a place in. -/
def AuditEvent.chain (e : AuditEvent) : Option Uuid :=
  if e.chainIndex.isSome then e.tenantId else none

namespace AuditDb

/-- The events of a tenant's chain, in the order of their insertion. -/
def chained (db : AuditDb) (tenantId : Uuid) : List AuditEvent :=
  db.events.filter (fun e => e.chain = some tenantId)

/-- The manifests of a tenant. -/
def manifestsOf (db : AuditDb) (tenantId : Uuid) : List AuditManifest :=
  db.manifests.filter (fun m => m.tenantId = tenantId)

/-- `COALESCE(MAX(last_chain_index),0)`. -/
def lastArchived (db : AuditDb) (tenantId : Uuid) : ℤ :=
  (((db.manifestsOf tenantId).map AuditManifest.lastChainIndex).max?).getD 0

/-- `COALESCE(MAX(manifest_index),0) + 1`. -/
def nextManifestIndex (db : AuditDb) (tenantId : Uuid) : ℤ :=
  (((db.manifestsOf tenantId).map AuditManifest.manifestIndex).max?).getD 0 + 1

/-- The outbox rows a dispatcher takes. -/
def pendingAudits (db : AuditDb) (tenantId : Uuid) (limit : ℕ) : List AuditOutboxRow :=
  ((db.outbox.filter (fun r => r.tenantId = tenantId && !r.dispatched)).insertionSort
    (fun a b => a.id ≤ b.id)).take limit

end AuditDb

/-- The CHECK constraints on who acted how. -/
def auditChecks (authMethod decision : String) : Bool :=
  authMethod ∈ ["oidc", "emergency", "anonymous"] && decision ∈ ["ALLOW", "DENY"]

/-! ## Statements -/

/-- The statements of the audit writers, and the values they draw. -/
inductive AuditOp where
  | newId
  | now
  | selectChainState (tenantId : Uuid)
  | insertChainState (tenantId : Uuid)
  | updateChainState (tenantId : Uuid) (lastIndex : ℤ) (lastHash : String)
  | insertAuditEvent (e : AuditEvent)
  | insertAuditOutbox (row : AuditOutboxRow)
  | selectPendingAudits (tenantId : Uuid) (limit : ℕ)
  | markDispatched (id : Uuid)
  | selectLastArchived (tenantId : Uuid)
  | selectSegment (tenantId : Uuid) (lastArchived : ℤ)
  | selectNextManifestIndex (tenantId : Uuid)
  | wormPut (bucket key : String) (content : Json) (retainUntil : Timestamp)
  | insertManifest (m : AuditManifest)

/-- What a statement answers. -/
abbrev AuditRes : AuditOp → Type
  | .newId => Uuid
  | .now => Timestamp
  | .selectChainState _ => Option ChainState
  | .selectPendingAudits .. => List AuditOutboxRow
  | .selectLastArchived _ => ℤ
  | .selectSegment .. => List AuditEvent
  | .selectNextManifestIndex _ => ℤ
  | .wormPut .. => String
  | _ => Unit

/-- The row writes. -/
inductive AuditWrite where
  | setChainState (tenantId : Uuid) (row : ChainState)
  | insertEvent (e : AuditEvent)
  | insertOutbox (row : AuditOutboxRow)
  | setDispatched (id : Uuid)
  | insertManifest (m : AuditManifest)

/-- The rows that can be locked. The lock on a chain is the one on its row of
`audit_chain_state`; it covers the events of the chain, since nobody inserts
one without it. -/
inductive AuditRow where
  | chain (tenantId : Uuid)
  | event (id : Uuid)
  | outbox (id : Uuid)
  | manifest (tenantId : Uuid) (manifestIndex : ℤ)
  deriving DecidableEq

/-- What the environment supplies: a drawn identifier, the time, and where the
archive has put an object, if it has. -/
structure AuditAnswer where
  id : Uuid
  now : Timestamp
  location : Option String

/-- An object in the WORM archive. -/
structure WormObject where
  bucket : String
  key : String
  content : Json
  retainUntil : Timestamp

/-- The row an event is written behind. -/
def AuditEvent.row (e : AuditEvent) : AuditRow :=
  match e.chain with
  | some t => .chain t
  | none => .event e.id

namespace AuditWrite

/-- The effect of a write. -/
def apply : AuditWrite → AuditDb → AuditDb
  | .setChainState t row, db => { db with chainState := Function.update db.chainState t (some row) }
  | .insertEvent e, db => { db with events := db.events ++ [e] }
  | .insertOutbox row, db => { db with outbox := db.outbox ++ [row] }
  | .setDispatched id, db =>
    { db with outbox := db.outbox.map (fun r =>
        if r.id = id then { r with dispatched := true } else r) }
  | .insertManifest m, db => { db with manifests := db.manifests ++ [m] }

/-- The row a write touches. -/
def key : AuditWrite → AuditRow
  | .setChainState t _ => .chain t
  | .insertEvent e => e.row
  | .insertOutbox row => .outbox row.id
  | .setDispatched id => .outbox id
  | .insertManifest m => .manifest m.tenantId m.manifestIndex

end AuditWrite

namespace AuditOp

/-- The rows a statement locks. `SELECT … FOR UPDATE` finds nothing to lock
when the row is not there, and `INSERT … ON CONFLICT DO NOTHING` waits for
another insertion of the row only. -/
def locks (db : AuditDb) : AuditOp → List AuditRow
  | .selectChainState t => if (db.chainState t).isSome then [.chain t] else []
  | .insertChainState t => if (db.chainState t).isSome then [] else [.chain t]
  | .updateChainState t _ _ => if (db.chainState t).isSome then [.chain t] else []
  | .insertAuditEvent e => [.event e.id, e.row]
  | .insertAuditOutbox row => [.outbox row.id]
  | .selectPendingAudits t limit => (db.pendingAudits t limit).map (fun r => .outbox r.id)
  | .markDispatched id => [.outbox id]
  | .insertManifest m => [.manifest m.tenantId m.manifestIndex]
  | _ => []

/-- The answer of a statement, its writes and what it leaves in the archive. -/
def exec (P : AuditPlatform) (a : AuditAnswer) : (op : AuditOp) → AuditDb → List WormObject →
    Except PyException (AuditRes op) × List AuditWrite × List WormObject
  | .newId, _, x => (.ok a.id, [], x)
  | .now, _, x => (.ok a.now, [], x)
  | .selectChainState t, db, x => (.ok (db.chainState t), [], x)
  | .insertChainState t, db, x =>
    (.ok (), if (db.chainState t).isSome then [] else [.setChainState t ⟨0, genesisHash⟩], x)
  | .updateChainState t lastIndex lastHash, db, x =>
    (.ok (), if (db.chainState t).isSome then [.setChainState t ⟨lastIndex, lastHash⟩] else [], x)
  | .insertAuditEvent e, db, x =>
    if auditChecks e.authMethod e.decision = false ∨ db.events.any (fun e' => e'.id = e.id) = true
        ∨ (e.chain.isSome = true
          ∧ db.events.any (fun e' => e'.chain = e.chain && e'.chainIndex = e.chainIndex)
            = true) then
      (.error .sqlAlchemy, [], x)
    else (.ok (), [.insertEvent { e with details := P.jsonb e.details }], x)
  | .insertAuditOutbox row, db, x =>
    if auditChecks row.authMethod row.decision = false
        ∨ db.outbox.any (fun r => r.id = row.id) = true then
      (.error .sqlAlchemy, [], x)
    else
      (.ok (), [.insertOutbox
        { row with
          details := P.jsonb row.details
          occurredAt := a.now }], x)
  | .selectPendingAudits t limit, db, x => (.ok (db.pendingAudits t limit), [], x)
  | .markDispatched id, _, x => (.ok (), [.setDispatched id], x)
  | .selectLastArchived t, db, x => (.ok (db.lastArchived t), [], x)
  | .selectSegment t lastArchived, db, x =>
    (.ok ((chainRows t db.events).filter (fun e => lastArchived < e.chainIndex.getD 0)), [], x)
  | .selectNextManifestIndex t, db, x => (.ok (db.nextManifestIndex t), [], x)
  | .wormPut bucket key content retainUntil, _, x =>
    match a.location with
    | none => (.error .httpx, [], x)
    | some location => (.ok location, [], x ++ [⟨bucket, key, content, retainUntil⟩])
  | .insertManifest m, db, x =>
    if m.manifestIndex < 1 ∨ m.lastChainIndex < m.firstChainIndex
        ∨ (db.manifestsOf m.tenantId).any (fun m' => m'.manifestIndex = m.manifestIndex) = true then
      (.error .sqlAlchemy, [], x)
    else (.ok (), [.insertManifest m], x)

end AuditOp

/-- **The audit tables under transactions.** -/
def auditEngine (P : AuditPlatform) :
    Engine AuditOp AuditRes PyException AuditAnswer AuditDb AuditWrite AuditRow
      (List WormObject) where
  apply := AuditWrite.apply
  key := AuditWrite.key
  locks op _ db _ := op.locks db
  exec a op _ db x := op.exec P a db x
  dbError := .sqlAlchemy

/-- A program of an audit writer. -/
abbrev AuditProg := Prog (TxOp AuditOp) (TxRes AuditRes) PyException

/-- A statement of an audit writer. -/
abbrev audit (op : AuditOp) : AuditProg (AuditRes op) := Engine.stmt op

/-! ## Appending to a chain -/

/-- **`append_to_chain`.** -/
def appendToChain (A : AuditHashing) (tenantId : Uuid) (event : Fingerprint) :
    AuditProg (ℤ × String × String) := do
  let found ← audit (.selectChainState tenantId)
  let state ← match found with
    | some row => pure (some row)
    | none => do
      let _ ← audit (.insertChainState tenantId)
      audit (.selectChainState tenantId)
  match state with
  | none => throw (.other "AssertionError")
  | some row => do
    let current := event.eventHash A
    let newIndex := row.lastIndex + 1
    let _ ← audit (.updateChainState tenantId newIndex (chainHash A row.lastHash current))
    return (newIndex, current, row.lastHash)

/-- The caller of an admin command. -/
structure Principal where
  subject : String
  authMethod : String

/-- The arguments of `insert_audit`. -/
structure AuditIntent where
  principal : Option Principal
  action : String
  decision : String
  targetType : Option String
  targetId : Option String
  tenantId : Option Uuid
  details : Option JsonDoc
  traceId : Option String

namespace AuditIntent

/-- `principal.subject if principal else "anonymous"`. -/
def actor (i : AuditIntent) : String := (i.principal.map Principal.subject).getD "anonymous"

/-- `principal.auth_method if principal else "anonymous"`. -/
def authMethod (i : AuditIntent) : String :=
  (i.principal.map Principal.authMethod).getD "anonymous"

/-- `details or {}`. -/
def payload (i : AuditIntent) : JsonDoc := (i.details.map orEmpty).getD emptyDict

/-- `_fingerprint`. -/
def fingerprint (A : AuditHashing) (i : AuditIntent) (eventId : Uuid) (occurredAt : Timestamp) :
    Fingerprint where
  id := eventId.str
  occurredAt := A.occurredEpochMicros occurredAt
  actor := i.actor
  authMethod := i.authMethod
  action := i.action
  decision := i.decision
  targetType := i.targetType
  targetId := i.targetId
  details := i.payload

/-- The row of the event, without its place in a chain. -/
def event (i : AuditIntent) (eventId : Uuid) (occurredAt : Timestamp) : AuditEvent where
  id := eventId
  tenantId := i.tenantId
  occurredAt := occurredAt
  actor := i.actor
  authMethod := i.authMethod
  action := i.action
  decision := i.decision
  targetType := i.targetType
  targetId := i.targetId
  details := i.payload
  traceId := i.traceId
  chainIndex := none
  eventHash := none
  prevEventHash := none

end AuditIntent

/-- The row of an event with its place in a chain. -/
def AuditEvent.placed (e : AuditEvent) (slot : ℤ × String × String) : AuditEvent :=
  { e with chainIndex := some slot.1, eventHash := some slot.2.1, prevEventHash := some slot.2.2 }

/-- **`insert_audit`.** -/
def insertAudit (A : AuditHashing) (i : AuditIntent) : AuditProg Unit := do
  let eventId ← audit .newId
  let occurredAt ← audit .now
  match i.tenantId with
  | none => audit (.insertAuditEvent (i.event eventId occurredAt))
  | some tenantId => do
    let slot ← appendToChain A tenantId (i.fingerprint A eventId occurredAt)
    audit (.insertAuditEvent ((i.event eventId occurredAt).placed slot))

/-! ## The Audit Outbox -/

/-- The arguments of `enqueue_audit`. -/
structure AuditEnqueue where
  tenantId : Uuid
  actor : String
  authMethod : String
  action : String
  decision : String
  targetType : Option String
  targetId : Option String
  details : Option JsonDoc
  traceId : Option String

/-- **`enqueue_audit`.** The time of the row is the default of its column. -/
def enqueueAudit (q : AuditEnqueue) : AuditProg Unit := do
  let outboxId ← audit .newId
  audit (.insertAuditOutbox
    { id := outboxId
      tenantId := q.tenantId
      actor := q.actor
      authMethod := q.authMethod
      action := q.action
      decision := q.decision
      targetType := q.targetType
      targetId := q.targetId
      details := (q.details.map orEmpty).getD emptyDict
      traceId := q.traceId
      occurredAt := 0
      dispatched := false })

namespace AuditOutboxRow

/-- The fingerprint of the event an outbox row becomes. -/
def fingerprint (A : AuditHashing) (r : AuditOutboxRow) (eventId : Uuid) : Fingerprint where
  id := eventId.str
  occurredAt := A.occurredEpochMicros r.occurredAt
  actor := r.actor
  authMethod := r.authMethod
  action := r.action
  decision := r.decision
  targetType := r.targetType
  targetId := r.targetId
  details := orEmpty r.details

/-- The event an outbox row of a tenant becomes, without its place. -/
def event (r : AuditOutboxRow) (tenantId eventId : Uuid) : AuditEvent where
  id := eventId
  tenantId := some tenantId
  occurredAt := r.occurredAt
  actor := r.actor
  authMethod := r.authMethod
  action := r.action
  decision := r.decision
  targetType := r.targetType
  targetId := r.targetId
  details := orEmpty r.details
  traceId := r.traceId
  chainIndex := none
  eventHash := none
  prevEventHash := none

end AuditOutboxRow

/-- One turn of the loop of `dispatch_pending`. -/
def AuditOutboxDispatcher.dispatchRow (A : AuditHashing) (tenantId : Uuid) (row : AuditOutboxRow) :
    AuditProg Unit := do
  let eventId ← audit .newId
  let slot ← appendToChain A tenantId (row.fingerprint A eventId)
  let _ ← audit (.insertAuditEvent ((row.event tenantId eventId).placed slot))
  audit (.markDispatched row.id)

/-- **`AuditOutboxDispatcher.dispatch_pending`.** -/
def AuditOutboxDispatcher.dispatchPending (A : AuditHashing) (tenantId : Uuid) (batchSize : ℕ) :
    AuditProg ℕ :=
  Engine.transaction (do
    let rows ← audit (.selectPendingAudits tenantId batchSize)
    let _ ← Prog.forEach (AuditOutboxDispatcher.dispatchRow A tenantId) rows
    return rows.length)

/-! ## Manifests -/

/-- The settings of an `AuditManifestService`. -/
structure ManifestSettings where
  signingKey : String
  bucket : String
  retentionDays : ℕ

/-- The document a manifest signs. -/
def AuditManifest.document (P : AuditPlatform) (m : AuditManifest) : Json :=
  .obj
    [("tenant_id", .str (Uuid.str m.tenantId)),
     ("manifest_index", .num (Int.repr m.manifestIndex)),
     ("first_chain_index", .num (Int.repr m.firstChainIndex)),
     ("last_chain_index", .num (Int.repr m.lastChainIndex)),
     ("event_count", .num (Nat.repr m.eventCount)),
     ("chain_head", .str m.chainHeadHash),
     ("created_at", .str (P.isoformat m.createdAt))]

/-- **`sign_manifest`.** The texts of a document are ASCII. -/
def signManifest (P : AuditPlatform) (document : Json) (signingKey : String) : String :=
  P.hmacSha256 signingKey document.dumps

/-- **`verify_manifest_signature`.** -/
def verifyManifestSignature (P : AuditPlatform) (document : Json) (signature signingKey : String) :
    Bool :=
  signManifest P document signingKey = signature

/-- A number with leading zeros. -/
def zeroPadded (width : ℕ) (n : ℤ) : String :=
  String.ofList (List.replicate (width - (Int.repr n).length) '0') ++ Int.repr n

/-- **`AuditManifestService.build_and_archive`.** The head goes on from the one
the first event of the segment extends. -/
def AuditManifestService.buildAndArchive (P : AuditPlatform) (settings : ManifestSettings)
    (tenantId : Uuid) :
    AuditProg (Option AuditManifest) :=
  Engine.transaction (do
    let lastArchived ← audit (.selectLastArchived tenantId)
    let rows ← audit (.selectSegment tenantId lastArchived)
    match rows with
    | [] => return none
    | first :: rest => do
      let last := (first :: rest).getLast (List.cons_ne_nil first rest)
      let chainHead := (first :: rest).foldl (fun h e => chainHash P.toAuditHashing h e.storedHash)
        first.storedPrev
      let createdAt ← audit .now
      let manifestIndex ← audit (.selectNextManifestIndex tenantId)
      let draft : AuditManifest :=
        { tenantId := tenantId
          manifestIndex := manifestIndex
          firstChainIndex := first.chainIndex.getD 0
          lastChainIndex := last.chainIndex.getD 0
          eventCount := (first :: rest).length
          chainHeadHash := chainHead
          signature := ""
          wormLocation := ""
          createdAt := createdAt }
      let signature := signManifest P (draft.document P) settings.signingKey
      let archivedAt ← audit .now
      let location ← audit (.wormPut settings.bucket
        (tenantId.str ++ "/manifest-" ++ zeroPadded 12 manifestIndex ++ ".json")
        (.arr [draft.document P, .str signature])
        (archivedAt + settings.retentionDays * 86400000000))
      let manifest := { draft with signature := signature, wormLocation := location }
      let _ ← audit (.insertManifest manifest)
      return some manifest)

/-- What `verify_tenant_evidence` returns. -/
structure EvidenceReport where
  chain : ChainReport
  manifests : ℕ
  manifestSignaturesValid : Bool
  tamperDetected : Bool

/-- `chain.get("valid", False)`. -/
def ChainReport.isValid : ChainReport → Bool
  | .valid .. => true
  | .broken .. => false

/-- **`AuditManifestService.verify_tenant_evidence`.** -/
def AuditManifestService.verifyTenantEvidence (P : AuditPlatform) (settings : ManifestSettings)
    (tenantId : Uuid)
    (db : AuditDb) : EvidenceReport :=
  let chain := verifyTenantChain P.toAuditHashing tenantId db.events
  let rows := (db.manifestsOf tenantId).insertionSort (fun a b => a.manifestIndex ≤ b.manifestIndex)
  let valid := rows.all (fun m =>
    verifyManifestSignature P (m.document P) m.signature settings.signingKey)
  { chain := chain
    manifests := rows.length
    manifestSignaturesValid := valid
    tamperDetected := !chain.isValid || !valid }

/-! ## The system -/

/-- A statement of a business transaction that has to do with the audit
trail. -/
inductive AuditStep where
  | insert (i : AuditIntent)
  | enqueue (q : AuditEnqueue)
  | fail (e : PyException)

/-- The program of a step. -/
def AuditStep.program (A : AuditHashing) : AuditStep → AuditProg Unit
  | .insert i => insertAudit A i
  | .enqueue q => enqueueAudit q
  | .fail e => throw e

/-- The transactions of the audit trail. -/
inductive AuditCall where
  | business (steps : List AuditStep)
  | dispatch (tenantId : Uuid) (batchSize : ℕ)
  | archive (tenantId : Uuid)

/-- What they return. -/
inductive AuditReturn where
  | done
  | dispatched (count : ℕ)
  | archived (manifest : Option AuditManifest)

/-- The program of a call. -/
def AuditCall.program (P : AuditPlatform) (settings : ManifestSettings) :
    AuditCall → AuditProg AuditReturn
  | .business steps => do
    let _ ← Engine.transaction (Prog.forEach (AuditStep.program P.toAuditHashing) steps)
    return .done
  | .dispatch tenantId batchSize => do
    let count ← AuditOutboxDispatcher.dispatchPending P.toAuditHashing tenantId batchSize
    return .dispatched count
  | .archive tenantId => do
    let manifest ← AuditManifestService.buildAndArchive P settings tenantId
    return .archived manifest

/-- The audit tables and their open transactions. -/
abbrev AuditState := TxState AuditDb AuditWrite AuditRow (List WormObject)

/-- Before the first event is chained: there may be events from the time before
chains. -/
def auditStart (s : AuditState) : Prop :=
  ∃ legacy : List AuditEvent, (∀ e ∈ legacy, e.chainIndex = none)
    ∧ s = Engine.quiet ⟨legacy, fun _ => none, [], []⟩ []

/-- **Any number of audited transactions, dispatchers and archivings at
once.** -/
def auditMachine (P : AuditPlatform) (settings : ManifestSettings) :
    Machine (Pool.State (TxOp AuditOp) (TxRes AuditRes) PyException AuditState AuditCall
      AuditReturn)
      (Pool.Label (Choice AuditAnswer) AuditCall Empty) :=
  ((auditEngine P).pool (AuditCall.program P settings)).machine auditStart
