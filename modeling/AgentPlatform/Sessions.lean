import AgentPlatform.ExecutionStore

/-!
# Session leases, fencing tokens and the authoritative commit

The embedding of `sessions.py`. Each method runs in one transaction, and a
transaction that raises leaves the database as it was: `Tx` is a state monad
over exceptions, in which an exception drops the state it was reached with.

`now` is the `now()` of PostgreSQL, which is the start of the transaction and
the same for all of its statements; the identifiers a method draws with
`uuid7()` are arguments as well. A lease carries a *fencing token*, which
every acquisition increments; `commitSessionEvents` appends events only for
the owner and the token of the current, unexpired lease, at the version the
Session was at when the lease was acquired.
-/

/-- **A transaction on the tables of the execution plane.** -/
abbrev Tx (α : Type) := StateT ExecutionDb (Except PyException) α

namespace Tx

variable {α β : Type} {db db' : ExecutionDb}

/-- **A sequence of statements succeeds** when each does. -/
theorem bind_ok {x : Tx α} {f : α → Tx β} {b : β} :
    (x >>= f).run db = .ok (b, db')
      ↔ ∃ a db₁, x.run db = .ok (a, db₁) ∧ (f a).run db₁ = .ok (b, db') := by
  rw [StateT.run_bind]
  cases hx : x.run db with
  | error e =>
    constructor
    · intro h
      cases h
    · rintro ⟨a, db₁, h, -⟩
      cases h
  | ok p =>
    refine ⟨fun h => ⟨p.1, p.2, rfl, h⟩, ?_⟩
    rintro ⟨a, db₁, h, hf⟩
    cases h
    exact hf

theorem pure_ok {a b : α} : (pure a : Tx α).run db = .ok (b, db') ↔ a = b ∧ db = db' := by
  rw [StateT.run_pure]
  exact ⟨fun h => by cases h; exact ⟨rfl, rfl⟩, by rintro ⟨rfl, rfl⟩; rfl⟩

theorem get_ok {d : ExecutionDb} : (get : Tx ExecutionDb).run db = .ok (d, db') ↔
    d = db ∧ db' = db := by
  rw [StateT.run_get]
  exact ⟨fun h => by cases h; exact ⟨rfl, rfl⟩, by rintro ⟨rfl, rfl⟩; rfl⟩

theorem set_ok {d : ExecutionDb} {u : PUnit} : (set d : Tx PUnit).run db = .ok (u, db') ↔
    db' = d := by
  rw [StateT.run_set]
  exact ⟨fun h => by cases h; rfl, by rintro rfl; rfl⟩

theorem throw_ok {e : PyException} {a : α} :
    ¬ (throw e : Tx α).run db = .ok (a, db') := by
  intro h
  cases h

/-- The database after a transaction: unchanged if it raised. -/
def after (tx : Tx α) (db : ExecutionDb) : ExecutionDb :=
  match tx.run db with
  | .ok (_, db') => db'
  | .error _ => db

/-- **A transaction leaves the database alone or succeeds.** -/
theorem after_cases (tx : Tx α) (db : ExecutionDb) :
    tx.after db = db ∨ ∃ r, tx.run db = .ok (r, tx.after db) := by
  unfold after
  split
  · rename_i r db' h
    exact .inr ⟨r, h⟩
  · exact .inl rfl

end Tx

/-- `MAX_SESSION_ID_LENGTH`. -/
def maxSessionIdLength : ℕ := 512

/-- `MAX_OWNER_ID_LENGTH`. -/
def maxOwnerIdLength : ℕ := 256

/-- `DEFAULT_LEASE_TTL_SECONDS`, in microseconds. -/
def defaultLeaseTtl : Timestamp := 30000000

/-- The microseconds of `make_interval(secs => n)`. -/
def seconds (n : ℕ) : Timestamp := 1000000 * n

/-- What `acquire` grants: the fencing token, and the version of the Session
then. -/
structure LeaseGrant where
  fencingToken : ℕ
  sessionVersion : ℕ
  deriving DecidableEq, Repr

/-- An event to be appended. -/
structure SessionEvent where
  kind : String
  payload : Json

/-- The identifiers drawn for an Outbox record. -/
structure OutboxIds where
  id : Uuid
  messageId : Uuid
  deriving DecidableEq, Repr

/-- `insert_outbox_record`: append one Outbox record; a duplicate of a unique
column is refused by the database. -/
def insertOutboxRecord (rec : OutboxRecord) : Tx Unit := do
  let db ← get
  if db.outboxFresh rec then
    set { db with outbox := db.outbox ++ [rec] }
  else
    throw .sqlAlchemy

/-- `SELECT version FROM tenant.agent_session … FOR UPDATE`. -/
def lockSessionVersion (tenantId : Uuid) (sessionId : String) : Tx (Option ℕ) := do
  let db ← get
  return (db.sessions tenantId sessionId).map (·.version)

/-! ## The lease manager -/

/-- The upsert of `acquire`: take a fresh lease with token 1, or take over an
expired lease or one's own with the next token; `none` when the lease is held
by another owner. The foreign key refuses a lease on a missing Session. -/
def upsertLease (ttl now : Timestamp) (tenantId : Uuid) (sessionId ownerId : String) :
    Tx (Option ℕ) := do
  let db ← get
  match db.leases tenantId sessionId with
  | none =>
    if (db.sessions tenantId sessionId).isSome then
      set { db with
        leases := ExecutionDb.setEntry db.leases tenantId sessionId
          ⟨tenantId, sessionId, ownerId, 1, now + ttl⟩ }
      return some 1
    else
      throw .sqlAlchemy
  | some lease =>
    if lease.expiresAt ≤ now ∨ lease.ownerId = ownerId then
      set { db with
        leases := ExecutionDb.setEntry db.leases tenantId sessionId
          { lease with
            ownerId := ownerId
            fencingToken := lease.fencingToken + 1
            expiresAt := now + ttl } }
      return some (lease.fencingToken + 1)
    else
      return none

/-- **`SessionLeaseManager.acquire`.** -/
def acquire (ttl now : Timestamp) (tenantId : Uuid) (sessionId ownerId : String) :
    Tx LeaseGrant := do
  if ¬ (1 ≤ ownerId.length ∧ ownerId.length ≤ maxOwnerIdLength) then
    throw (.value "owner_id length is out of range")
  match ← upsertLease ttl now tenantId sessionId ownerId with
  | none =>
    let holder := ((← get).leases tenantId sessionId).map (·.ownerId)
    throw (.sessionLease ("SESSION_LEASE_HELD:" ++ holder.getD "None"))
  | some token =>
    match ← lockSessionVersion tenantId sessionId with
    | none => throw (.sessionLease "SESSION_NOT_FOUND")
    | some version => return ⟨token, version⟩

/-- **`SessionLeaseManager.renew`.** The statement binds its fourth parameter,
the fencing token, both in the comparison and as the number of seconds of the
new lease; the configured lease time is passed fifth and never read. -/
def renew (now : Timestamp) (tenantId : Uuid) (sessionId ownerId : String)
    (fencingToken : ℕ) : Tx Unit := do
  let db ← get
  match db.leases tenantId sessionId with
  | none => throw (.sessionLease "SESSION_LEASE_INVALID")
  | some lease =>
    if lease.ownerId = ownerId ∧ lease.fencingToken = fencingToken
        ∧ now < lease.expiresAt then
      set { db with
        leases := ExecutionDb.setEntry db.leases tenantId sessionId
          { lease with expiresAt := now + seconds fencingToken } }
    else
      throw (.sessionLease "SESSION_LEASE_INVALID")

/-- **`SessionLeaseManager.release`**: the lease is expired rather than
deleted, so that its token keeps counting. -/
def release (now : Timestamp) (tenantId : Uuid) (sessionId ownerId : String) :
    Tx Unit := do
  let db ← get
  match db.leases tenantId sessionId with
  | none => return ()
  | some lease =>
    if lease.ownerId = ownerId then
      set { db with
        leases := ExecutionDb.setEntry db.leases tenantId sessionId
          { lease with expiresAt := now } }
    else
      return ()

/-! ## The authoritative commit -/

/-- The arguments of `commit_session_events`. -/
structure SessionCommit where
  tenantId : Uuid
  sessionId : String
  ownerId : String
  fencingToken : ℕ
  expectedVersion : ℕ
  executionId : Uuid
  idempotencyKey : String
  events : List SessionEvent
  dataClassification : Option DataClassification

/-- The check on `session_event.kind`: `^[A-Z][A-Z0-9_]{0,63}$`. -/
def eventKindOk (kind : String) : Bool :=
  match kind.toList with
  | [] => false
  | c :: cs => c.isUpper
      && cs.all (fun d => d.isUpper || d.isDigit || d = '_')
      && cs.length ≤ 63

/-- The rows `commit_session_events` inserts: the events at the sequence
numbers after `version`. -/
def eventRows (c : SessionCommit) : ℕ → List SessionEvent → List SessionEventRow
  | _, [] => []
  | version, e :: es =>
    ⟨c.tenantId, c.sessionId, version + 1, c.executionId, e.kind, e.payload⟩
      :: eventRows c (version + 1) es

/-- `INSERT INTO tenant.session_event`: refused when a sequence number of the
Session is taken or a kind is malformed. -/
def insertEvents (rows : List SessionEventRow) : Tx Unit := do
  let db ← get
  if rows.all (fun r => eventKindOk r.kind
      && db.events.all (fun e => ¬ (e.tenantId = r.tenantId
        ∧ e.sessionId = r.sessionId ∧ e.sequence = r.sequence))) then
    set { db with events := db.events ++ rows }
  else
    throw .sqlAlchemy

/-- `UPDATE tenant.agent_session SET version=$3`. -/
def setSessionVersion (tenantId : Uuid) (sessionId : String) (version : ℕ) : Tx Unit := do
  let db ← get
  match db.sessions tenantId sessionId with
  | none => return ()
  | some session =>
    set { db with
      sessions := ExecutionDb.setEntry db.sessions tenantId sessionId
        { session with version := version } }

/-- The Outbox record that announces a committed range. -/
def committedRecord (now : Timestamp) (ids : OutboxIds) (c : SessionCommit) : OutboxRecord where
  tenantId := c.tenantId
  id := ids.id
  messageId := ids.messageId.str
  source := workerSource
  eventType := .sessionEventsCommitted
  partitionKey := sessionPartitionKey c.tenantId c.sessionId
  causationId := some c.idempotencyKey
  correlationId := some c.executionId.str
  dataClassification := c.dataClassification
  payload := .sessionEventsCommitted
    { tenantId := c.tenantId
      sessionId := c.sessionId
      executionId := c.executionId
      fromVersion := c.expectedVersion
      toVersion := c.expectedVersion + c.events.length
      eventKinds := c.events.map (·.kind) }
  status := .pending
  attempts := 0
  createdAt := now

/-- **`commit_session_events`**: validate the idempotency key, the fencing
token and the expected version, in this order, then append the events,
advance the Session and enqueue the Outbox record. `none` says that the
execution had already succeeded. -/
def commitSessionEvents (now : Timestamp) (ids : OutboxIds) (c : SessionCommit) :
    Tx (Option ℕ) := do
  if c.events.isEmpty then
    throw (.value "a session commit requires at least one event")
  let db ← get
  match db.executionByMessage c.tenantId c.idempotencyKey with
  | none => throw (.sessionLease "EXECUTION_NOT_FOUND")
  | some execution =>
    if execution.status = .succeeded then
      return none
    else
      match db.leases c.tenantId c.sessionId with
      | none => throw (.sessionLease "SESSION_LEASE_INVALID")
      | some lease =>
        if lease.ownerId ≠ c.ownerId ∨ lease.fencingToken ≠ c.fencingToken
            ∨ lease.expiresAt ≤ now then
          throw (.sessionLease "SESSION_LEASE_INVALID")
        else
          match ← lockSessionVersion c.tenantId c.sessionId with
          | none => throw (.sessionLease "SESSION_NOT_FOUND")
          | some version =>
            if version ≠ c.expectedVersion then
              throw (.sessionVersionConflict "SESSION_VERSION_CONFLICT")
            else
              insertEvents (eventRows c c.expectedVersion c.events)
              setSessionVersion c.tenantId c.sessionId (c.expectedVersion + c.events.length)
              insertOutboxRecord (committedRecord now ids c)
              return some (c.expectedVersion + c.events.length)

/-! ## What the methods do when they succeed -/

section Specs

variable {db db' : ExecutionDb} {ttl now : Timestamp} {t : Uuid} {n owner : String}

/-- **An inserted Outbox record** is appended, and was fresh. -/
theorem insertOutboxRecord_ok {rec : OutboxRecord} {u : Unit}
    (h : (insertOutboxRecord rec).run db = .ok (u, db')) :
    db.outboxFresh rec = true ∧ db' = { db with outbox := db.outbox ++ [rec] } := by
  obtain ⟨d, db₁, hget, hrest⟩ := Tx.bind_ok.mp h
  obtain ⟨rfl, rfl⟩ := Tx.get_ok.mp hget
  split at hrest
  · rename_i hfresh
    exact ⟨hfresh, Tx.set_ok.mp hrest⟩
  · exact absurd hrest Tx.throw_ok

/-- Locking a Session reads its version. -/
theorem lockSessionVersion_ok {r : Option ℕ}
    (h : (lockSessionVersion t n).run db = .ok (r, db')) :
    r = (db.sessions t n).map (·.version) ∧ db' = db := by
  obtain ⟨d, db₁, hget, hrest⟩ := Tx.bind_ok.mp h
  obtain ⟨rfl, rfl⟩ := Tx.get_ok.mp hget
  obtain ⟨rfl, rfl⟩ := Tx.pure_ok.mp hrest
  exact ⟨rfl, rfl⟩

/-- Inserted events are appended. -/
theorem insertEvents_ok {rows : List SessionEventRow} {u : Unit}
    (h : (insertEvents rows).run db = .ok (u, db')) :
    db' = { db with events := db.events ++ rows } := by
  obtain ⟨d, db₁, hget, hrest⟩ := Tx.bind_ok.mp h
  obtain ⟨rfl, rfl⟩ := Tx.get_ok.mp hget
  split at hrest
  · exact Tx.set_ok.mp hrest
  · exact absurd hrest Tx.throw_ok

/-- Setting the version of a Session that exists. -/
theorem setSessionVersion_ok {session : AgentSession} {version : ℕ} {u : Unit}
    (h : (setSessionVersion t n version).run db = .ok (u, db'))
    (hs : db.sessions t n = some session) :
    db' = { db with
      sessions := ExecutionDb.setEntry db.sessions t n { session with version := version } } := by
  obtain ⟨d, db₁, hget, hrest⟩ := Tx.bind_ok.mp h
  obtain ⟨rfl, rfl⟩ := Tx.get_ok.mp hget
  rw [hs] at hrest
  exact Tx.set_ok.mp hrest

/-- What the upsert of `acquire` did: another owner holds the lease, or it was
taken with the next token. -/
theorem upsertLease_ok {r : Option ℕ}
    (h : (upsertLease ttl now t n owner).run db = .ok (r, db')) :
    r = none ∨ (r = some ((db.leases t n).elim 1 (·.fencingToken + 1))
      ∧ (∀ lease, db.leases t n = some lease → lease.expiresAt ≤ now ∨ lease.ownerId = owner)
      ∧ ∃ lease, lease.ownerId = owner
        ∧ lease.fencingToken = (db.leases t n).elim 1 (·.fencingToken + 1)
        ∧ lease.expiresAt = now + ttl
        ∧ db' = { db with leases := ExecutionDb.setEntry db.leases t n lease }) := by
  obtain ⟨d, db₁, hget, hrest⟩ := Tx.bind_ok.mp h
  obtain ⟨rfl, rfl⟩ := Tx.get_ok.mp hget
  split at hrest
  · rename_i hl
    split at hrest
    · obtain ⟨_, db₂, hset, hret⟩ := Tx.bind_ok.mp hrest
      obtain ⟨rfl, rfl⟩ := Tx.pure_ok.mp hret
      refine .inr ⟨by rw [hl]; rfl, fun lease hlease => ?_, _, rfl, by rw [hl]; rfl, rfl,
        Tx.set_ok.mp hset⟩
      rw [hl] at hlease
      cases hlease
    · exact absurd hrest Tx.throw_ok
  · rename_i lease hl
    split at hrest
    · rename_i hfree
      obtain ⟨_, db₂, hset, hret⟩ := Tx.bind_ok.mp hrest
      obtain ⟨rfl, rfl⟩ := Tx.pure_ok.mp hret
      refine .inr ⟨by rw [hl]; rfl, fun lease' hlease => ?_, _, rfl, by rw [hl]; rfl, rfl,
        Tx.set_ok.mp hset⟩
      rw [hl] at hlease
      obtain rfl := Option.some.inj hlease
      exact hfree
    · exact .inl (Tx.pure_ok.mp hrest).1.symm

/-- **What `acquire` did when it granted a lease**: there was none, it had
expired, or it was the owner's; the row now has the owner, the next token and
a new expiry. -/
theorem acquire_ok {grant : LeaseGrant} (h : (acquire ttl now t n owner).run db = .ok
    (grant, db')) :
    (∀ lease, db.leases t n = some lease → lease.expiresAt ≤ now ∨ lease.ownerId = owner)
      ∧ grant.fencingToken = (db.leases t n).elim 1 (·.fencingToken + 1)
      ∧ (∃ session, db.sessions t n = some session ∧ session.version = grant.sessionVersion)
      ∧ ∃ lease, lease.ownerId = owner ∧ lease.fencingToken = grant.fencingToken
        ∧ lease.expiresAt = now + ttl
        ∧ db' = { db with leases := ExecutionDb.setEntry db.leases t n lease } := by
  unfold acquire at h
  split at h
  · exact absurd h (fun h => by obtain ⟨-, -, h, -⟩ := Tx.bind_ok.mp h; exact Tx.throw_ok h)
  · obtain ⟨r, db₁, hup, hrest⟩ := Tx.bind_ok.mp h
    rcases upsertLease_ok hup with rfl | ⟨rfl, hfree, lease, howner, htoken, hexp, rfl⟩
    · obtain ⟨_, _, -, hrest⟩ := Tx.bind_ok.mp hrest
      exact absurd hrest Tx.throw_ok
    · obtain ⟨v, db₂, hlock, hrest⟩ := Tx.bind_ok.mp hrest
      obtain ⟨rfl, rfl⟩ := lockSessionVersion_ok hlock
      split at hrest
      · exact absurd hrest Tx.throw_ok
      · rename_i version hversion
        obtain ⟨rfl, rfl⟩ := Tx.pure_ok.mp hrest
        obtain ⟨session, hsession, hv⟩ := Option.map_eq_some_iff.mp hversion
        exact ⟨hfree, rfl, ⟨session, hsession, hv⟩, lease, howner, htoken, hexp, rfl⟩

/-- **What `renew` did when it succeeded**: it moved the expiry of the current,
unexpired lease of the caller. -/
theorem renew_ok {token : ℕ} {u : Unit} (h : (renew now t n owner token).run db = .ok (u, db')) :
    ∃ lease, db.leases t n = some lease ∧ lease.ownerId = owner ∧ lease.fencingToken = token
      ∧ now < lease.expiresAt
      ∧ db' = { db with
          leases := ExecutionDb.setEntry db.leases t n
            { lease with expiresAt := now + seconds token } } := by
  obtain ⟨d, db₁, hget, hrest⟩ := Tx.bind_ok.mp h
  obtain ⟨rfl, rfl⟩ := Tx.get_ok.mp hget
  split at hrest
  · exact absurd hrest Tx.throw_ok
  · rename_i lease hl
    split at hrest
    · rename_i hcond
      exact ⟨lease, hl, hcond.1, hcond.2.1, hcond.2.2, Tx.set_ok.mp hrest⟩
    · exact absurd hrest Tx.throw_ok

/-- **What `release` does**: at most it moves the expiry of the lease. -/
theorem release_ok {u : Unit} (h : (release now t n owner).run db = .ok (u, db')) :
    db' = db ∨ ∃ lease, db.leases t n = some lease ∧ lease.ownerId = owner
      ∧ db' = { db with
          leases := ExecutionDb.setEntry db.leases t n { lease with expiresAt := now } } := by
  obtain ⟨d, db₁, hget, hrest⟩ := Tx.bind_ok.mp h
  obtain ⟨rfl, rfl⟩ := Tx.get_ok.mp hget
  split at hrest
  · exact .inl (Tx.pure_ok.mp hrest).2.symm
  · rename_i lease hl
    split at hrest
    · rename_i howner
      exact .inr ⟨lease, hl, howner, Tx.set_ok.mp hrest⟩
    · exact .inl (Tx.pure_ok.mp hrest).2.symm

/-- **The checks of a commit**: the lease is the caller's, current and
unexpired, and the Session is at the expected version. -/
structure CommitChecks (now : Timestamp) (c : SessionCommit) (db : ExecutionDb) : Prop where
  lease : ∃ lease, db.leases c.tenantId c.sessionId = some lease
    ∧ lease.ownerId = c.ownerId ∧ lease.fencingToken = c.fencingToken
    ∧ now < lease.expiresAt
  session : ∃ session, db.sessions c.tenantId c.sessionId = some session
    ∧ session.version = c.expectedVersion

/-- The database after a commit that appended. -/
def appended (now : Timestamp) (ids : OutboxIds) (c : SessionCommit) (session : AgentSession)
    (db : ExecutionDb) : ExecutionDb :=
  { db with
    events := db.events ++ eventRows c c.expectedVersion c.events
    sessions := ExecutionDb.setEntry db.sessions c.tenantId c.sessionId
      { session with version := c.expectedVersion + c.events.length }
    outbox := db.outbox ++ [committedRecord now ids c] }

/-- **What `commit_session_events` did when it succeeded**: nothing, for an
execution that had succeeded before; or it appended, after all its checks. -/
theorem commitSessionEvents_ok {ids : OutboxIds} {c : SessionCommit} {r : Option ℕ}
    (h : (commitSessionEvents now ids c).run db = .ok (r, db')) :
    ∃ execution, db.executionByMessage c.tenantId c.idempotencyKey = some execution
      ∧ ((r = none ∧ db' = db ∧ execution.status = .succeeded)
        ∨ (r = some (c.expectedVersion + c.events.length) ∧ c.events ≠ []
          ∧ execution.status ≠ .succeeded ∧ CommitChecks now c db
          ∧ ∃ session, db.sessions c.tenantId c.sessionId = some session
            ∧ session.version = c.expectedVersion ∧ db' = appended now ids c session db)) := by
  unfold commitSessionEvents at h
  split at h
  · exact absurd h (fun h => by obtain ⟨-, -, h, -⟩ := Tx.bind_ok.mp h; exact Tx.throw_ok h)
  rename_i hevents
  obtain ⟨d, db₁, hget, hrest⟩ := Tx.bind_ok.mp h
  obtain ⟨rfl, rfl⟩ := Tx.get_ok.mp hget
  split at hrest
  · exact absurd hrest Tx.throw_ok
  rename_i execution hexec
  refine ⟨execution, hexec, ?_⟩
  split at hrest
  · rename_i hstatus
    obtain ⟨rfl, rfl⟩ := Tx.pure_ok.mp hrest
    exact .inl ⟨rfl, rfl, hstatus⟩
  rename_i hstatus
  split at hrest
  · exact absurd hrest Tx.throw_ok
  rename_i lease hlease
  split at hrest
  · exact absurd hrest Tx.throw_ok
  rename_i hheld
  simp only [not_or, not_not, not_le] at hheld
  obtain ⟨v, db₂, hlock, hrest⟩ := Tx.bind_ok.mp hrest
  obtain ⟨rfl, rfl⟩ := lockSessionVersion_ok hlock
  split at hrest
  · exact absurd hrest Tx.throw_ok
  rename_i version hv
  obtain ⟨session, hsession, rfl⟩ := Option.map_eq_some_iff.mp hv
  split at hrest
  · exact absurd hrest Tx.throw_ok
  rename_i hversion
  rw [not_not] at hversion
  obtain ⟨_, db₃, hins, hrest⟩ := Tx.bind_ok.mp hrest
  obtain rfl := insertEvents_ok hins
  obtain ⟨_, db₄, hset, hrest⟩ := Tx.bind_ok.mp hrest
  obtain rfl := setSessionVersion_ok hset hsession
  obtain ⟨_, db₅, hout, hrest⟩ := Tx.bind_ok.mp hrest
  obtain ⟨-, rfl⟩ := insertOutboxRecord_ok hout
  obtain ⟨rfl, rfl⟩ := Tx.pure_ok.mp hrest
  refine .inr ⟨rfl, by simpa using hevents, hstatus, ⟨⟨lease, hlease, hheld⟩,
    session, hsession, hversion⟩, session, hsession, hversion, rfl⟩

end Specs
