import AgentPlatform.SessionLog

/-!
# Workers

Any number of workers handle any deliveries of execution-requested messages at
once, transaction by transaction, while leases are acquired, renewed and
released by anyone, submissions enter new executions and the dispatcher marks
Outbox records as published. A delivery can be repeated, and can be handed to
workers of different pools.

Two things are kept along every run. The tables stay in agreement
(`Recorded`), whatever the interleaving; and outcomes are final in the sense of
`Progressed`: an execution that has succeeded stays as it is. For a failed
execution this is true only of the runs in which no commit finds its execution
failed, because `commit_session_events` looks for success alone.
-/

/-! ## The system -/

/-- What else happens to the tables. -/
inductive PlatformStep where
  | acquire (ttl now : Timestamp) (tenantId : Uuid) (sessionId ownerId : String)
  | renew (now : Timestamp) (tenantId : Uuid) (sessionId ownerId : String) (fencingToken : ℕ)
  | release (now : Timestamp) (tenantId : Uuid) (sessionId ownerId : String)
  /-- A submission, with the answers it gets. -/
  | submit (sub : AgentExecutionSubmission) (choices : List (Choice GatewayAnswer))
  /-- The dispatcher published these Outbox records. -/
  | publish (ids : List Uuid)

/-- The dispatcher's update of published records. -/
def markPublished (ids : List Uuid) (db : ExecutionDb) : ExecutionDb :=
  { db with outbox := db.outbox.map mark }
where
  /-- What becomes of one record. -/
  mark (r : OutboxRecord) : OutboxRecord :=
    if r.id ∈ ids then { r with status := .published, attempts := r.attempts + 1 } else r

/-- A submission that runs by itself. -/
def submitAlone (sha256 : String → String) (policy : CapacityPolicy)
    (sub : AgentExecutionSubmission) (choices : List (Choice GatewayAnswer))
    (db : ExecutionDb) : Option ExecutionDb :=
  ((submit sha256 policy sub).eval (gatewayEngine.handler 0) choices
    (Engine.quiet db ())).map (fun x => x.2.committed)

/-- One step of the rest of the platform. -/
def platformStep (sha256 : String → String) (policy : CapacityPolicy) :
    PlatformStep → ExecutionDb → Option ExecutionDb
  | .acquire ttl now tenantId sessionId ownerId, db =>
    some ((acquire ttl now tenantId sessionId ownerId).after db)
  | .renew now tenantId sessionId ownerId fencingToken, db =>
    some ((renew now tenantId sessionId ownerId fencingToken).after db)
  | .release now tenantId sessionId ownerId, db =>
    some ((release now tenantId sessionId ownerId).after db)
  | .submit sub choices, db => submitAlone sha256 policy sub choices db
  | .publish ids, db => some (markPublished ids db)

/-- **Any number of workers at once.** A worker that crashes leaves nothing
behind: its transactions are complete or not begun. -/
def workers (sha256 : String → String) (policy : CapacityPolicy) :
    Pool WorkerOp WorkerRes PyException WorkerChoice ExecutionDb Delivery Unit PlatformStep where
  handler := fun _ => workerHandler
  body := handle
  abandon := fun _ db => db
  env := platformStep sha256 policy

/-- The platform starts on an empty database. -/
def platformStart (db : ExecutionDb) : Prop := ∃ now, db = ExecutionDb.empty now

/-- The envelope of the delivery is an Outbox record's. -/
def FromOutbox (db : ExecutionDb) (d : Delivery) : Prop :=
  ∃ r ∈ db.outbox, d.envelope = ⟨r.messageId, r.eventType, r.payload⟩

/-! ## Progress -/

/-- **The tables agree**: the log with itself, the Outbox with the
executions. -/
structure Recorded (db : ExecutionDb) : Prop where
  log : LogOk db
  coherent : Coherent False db

/-- **What becomes of an execution**: a succeeded one keeps its status and its
events – and, in runs that are `rows`, every column – and in runs that are
`final` a failed one keeps its status and its events. -/
structure Outlives (final rows : Prop) (db db' : ExecutionDb) (e e' : AgentExecution) :
    Prop where
  identity : e'.identity = e.identity
  succeeded : e.status = .succeeded → e'.status = .succeeded
    ∧ db'.eventsFor e.tenantId e.id = db.eventsFor e.tenantId e.id
  unchanged : rows → e.status = .succeeded → e' = e
  failed : final → e.status = .failed → e'.status = .failed
    ∧ db'.eventsFor e.tenantId e.id = db.eventsFor e.tenantId e.id

/-- **Progress from one state of the tables to a later one.** -/
structure Progressed (final rows : Prop) (db db' : ExecutionDb) : Prop where
  requested : ∀ x ∈ db.requested, x ∈ db'.requested
  outlives : ∀ e ∈ db.executions, ∃ e' ∈ db'.executions, Outlives final rows db db' e e'

section Progress

variable {final rows : Prop} {db db' : ExecutionDb}

/-- An execution that is not touched. -/
theorem Outlives.same {e : AgentExecution}
    (h : e.status ≠ .pending → db'.eventsFor e.tenantId e.id = db.eventsFor e.tenantId e.id) :
    Outlives final rows db db' e e :=
  ⟨rfl, fun hs => ⟨hs, h (by simp [hs])⟩, fun _ _ => rfl, fun _ hs => ⟨hs, h (by simp [hs])⟩⟩

theorem Progressed.refl (final rows : Prop) (db : ExecutionDb) : Progressed final rows db db :=
  ⟨fun _ hx => hx, fun e he => ⟨e, he, .same (fun _ => rfl)⟩⟩

theorem Progressed.trans {db'' : ExecutionDb} (h : Progressed final rows db db')
    (h' : Progressed final rows db' db'') : Progressed final rows db db'' := by
  refine ⟨fun x hx => h'.requested x (h.requested x hx), fun e he => ?_⟩
  obtain ⟨e₁, he₁, h₁⟩ := h.outlives e he
  obtain ⟨e₂, he₂, h₂⟩ := h'.outlives e₁ he₁
  obtain ⟨ht, hi, -⟩ := AgentExecution.of_identity h₁.identity
  refine ⟨e₂, he₂, h₂.identity.trans h₁.identity, fun hs => ?_, fun hrows hs => ?_,
    fun hfinal hs => ?_⟩
  · obtain ⟨hs₁, hv₁⟩ := h₁.succeeded hs
    obtain ⟨hs₂, hv₂⟩ := h₂.succeeded hs₁
    exact ⟨hs₂, by rw [← hv₁, ← ht, ← hi, hv₂]⟩
  · obtain ⟨hs₁, -⟩ := h₁.succeeded hs
    rw [h₂.unchanged hrows hs₁, h₁.unchanged hrows hs]
  · obtain ⟨hs₁, hv₁⟩ := h₁.failed hfinal hs
    obtain ⟨hs₂, hv₂⟩ := h₂.failed hfinal hs₁
    exact ⟨hs₂, by rw [← hv₁, ← ht, ← hi, hv₂]⟩

/-- A transaction that keeps executions and events. -/
theorem Progressed.of_same (hv : db'.events = db.events)
    (he : ∀ e ∈ db.executions, e ∈ db'.executions)
    (hr : ∀ x ∈ db.requested, x ∈ db'.requested) : Progressed final rows db db' := by
  refine ⟨hr, fun e hmem => ⟨e, he e hmem, .same (fun _ => ?_)⟩⟩
  rw [ExecutionDb.eventsFor, hv]
  rfl

/-- An update that touches no execution that has ended, in the runs that ask
for it. -/
theorem Progressed.update {f : AgentExecution → AgentExecution} {t id : Uuid}
    (hf : KeepsIdentity f)
    (hsucceeded : ∀ e, e.status = .succeeded → (f e).status = .succeeded)
    (hfailed : ∀ e, e.status = .failed → (f e).status = .failed)
    (hrows : rows → ∀ e ∈ db.executions, e.tenantId = t → e.id = id →
      e.status = .succeeded → f e = e) :
    Progressed final rows db
      { db with executions := db.executions.map (updateExecution.update f t id) } := by
  refine ⟨fun _ hx => hx, fun e he => ⟨_, List.mem_map_of_mem he, ?_⟩⟩
  by_cases hkey : e.tenantId = t ∧ e.id = id
  · rw [update_eq_of_eq hkey]
    exact ⟨hf e, fun hs => ⟨hsucceeded e hs, rfl⟩,
      fun hr hs => hrows hr e he hkey.1 hkey.2 hs, fun _ hs => ⟨hfailed e hs, rfl⟩⟩
  · rw [update_eq_of_ne hkey]
    exact .same (fun _ => rfl)

end Progress

/-! ## Every transaction keeps the agreement and makes progress -/

/-- A transaction of the platform is in order. -/
def InOrder (final rows : Prop) (db db' : ExecutionDb) : Prop :=
  Recorded db' ∧ Progressed final rows db db'

section Transactions

variable {final rows : Prop} {db db' : ExecutionDb}

theorem InOrder.refl (h : Recorded db) : InOrder final rows db db :=
  ⟨h, .refl _ _ db⟩

/-- A transaction on leases. -/
theorem InOrder.leases (h : Recorded db) (leases : Uuid → String → Option SessionLease) :
    InOrder final rows db { db with leases := leases } :=
  ⟨⟨h.log.congr rfl rfl rfl rfl, ⟨h.coherent.paired, h.coherent.unique, h.coherent.belongs⟩⟩,
    .of_same rfl (fun _ he => he) (fun _ hx => hx)⟩

theorem InOrder.acquire (h : Recorded db) {ttl now : Timestamp} {t : Uuid} {n owner : String}
    {grant : LeaseGrant} (hok : (acquire ttl now t n owner).run db = .ok (grant, db')) :
    InOrder final rows db db' := by
  obtain ⟨-, -, -, lease, -, -, -, rfl⟩ := acquire_ok hok
  exact .leases h _

theorem InOrder.renew (h : Recorded db) {now : Timestamp} {t : Uuid} {n owner : String}
    {token : ℕ} {u : Unit} (hok : (renew now t n owner token).run db = .ok (u, db')) :
    InOrder final rows db db' := by
  obtain ⟨lease, -, -, -, -, rfl⟩ := renew_ok hok
  exact .leases h _

theorem InOrder.release (h : Recorded db) {now : Timestamp} {t : Uuid} {n owner : String}
    {u : Unit} (hok : (release now t n owner).run db = .ok (u, db')) :
    InOrder final rows db db' := by
  rcases release_ok hok with rfl | ⟨lease, -, -, rfl⟩
  · exact .refl h
  · exact .leases h _

/-- An update of executions. -/
theorem InOrder.update (h : Recorded db) {f : AgentExecution → AgentExecution} {t id : Uuid}
    (hf : KeepsIdentity f) (hcommits : ∀ e, (f e).status.commits = e.status.commits)
    (hsucceeded : ∀ e, e.status = .succeeded → (f e).status = .succeeded)
    (hfailed : ∀ e, e.status = .failed → (f e).status = .failed)
    (hrows : rows → ∀ e ∈ db.executions, e.tenantId = t → e.id = id →
      e.status = .succeeded → f e = e) {u : Unit}
    (hok : (updateExecution f t id).run db = .ok (u, db')) : InOrder final rows db db' := by
  obtain rfl := updateExecution_ok hok
  exact ⟨⟨h.log.update hf hcommits t id, h.coherent.aged (aged_update hf t id db)⟩,
    .update hf hsucceeded hfailed hrows⟩

/-- `_mark_failed` touches pending executions only. -/
theorem InOrder.markFailed (h : Recorded db) {t id : Uuid} {u : Unit}
    (hok : (markFailed t id).run db = .ok (u, db')) : InOrder final rows db db' := by
  refine .update h (fun e => ?_) (fun e => ?_) (fun e hs => ?_) (fun e hs => ?_)
    (fun _ e _ _ _ hs => ?_) hok
  · split <;> rfl
  · split
    · rename_i hp
      rw [hp]
      rfl
    · rfl
  · simp [hs]
  · simp [hs]
  · simp [hs]

theorem InOrder.setKnowledge (h : Recorded db) {t id : Uuid} {revisions : List String} {u : Unit}
    (hrows : rows → ∀ e ∈ db.executions, e.tenantId = t → e.id = id →
      e.status ≠ .succeeded)
    (hok : (setKnowledgeRevisions t id revisions).run db = .ok (u, db')) :
    InOrder final rows db db' :=
  .update (f := fun e => { e with knowledgeRevisionIds := revisions }) h (fun _ => rfl)
    (fun _ => rfl) (fun _ hs => hs) (fun _ hs => hs)
    (fun hr e he ht hi hs => absurd hs (hrows hr e he ht hi)) hok

/-- A commit adds no request and no execution. -/
theorem coherent_committed {now : Timestamp} {ids completedIds : OutboxIds} {c : SessionCommit}
    {completed : ExecutionCompletedData} {session : AgentSession} (h : Coherent False db) :
    Coherent False (committed now ids completedIds c completed session db) := by
  have hkeep : KeepsIdentity (fun e => { e with status := .succeeded }) := fun _ => rfl
  have haged := aged_update hkeep c.tenantId c.executionId db
  have hrequests : (committed now ids completedIds c completed session db).requests
      = db.requests := by
    simp [ExecutionDb.requests, committed, OutboxRecord.request?, committedRecord,
      completedRecord]
  refine ⟨?_, ?_, False.elim⟩
  · rw [hrequests, h.paired]
    exact (haged.map_eq (f := AgentExecution.request) (fun _ => rfl)).symm
  · have hmap := haged.map_eq (f := fun e => (e.tenantId, e.messageId)) (fun _ => rfl)
    exact hmap ▸ h.unique

/-- A commit adds events of its own execution only. -/
theorem eventsFor_committed {now : Timestamp} {ids completedIds : OutboxIds}
    {c : SessionCommit} {completed : ExecutionCompletedData} {session : AgentSession}
    {t id : Uuid} (hkey : ¬ (t = c.tenantId ∧ id = c.executionId)) :
    (committed now ids completedIds c completed session db).eventsFor t id
      = db.eventsFor t id := by
  have hnone : (eventRows c c.expectedVersion c.events).filter
      (fun v => v.tenantId = t ∧ v.executionId = id) = [] := by
    refine List.filter_eq_nil_iff.mpr (fun row hrow => ?_)
    obtain ⟨ht, -, hi⟩ := mem_eventRows hrow
    simp only [ht, hi, decide_eq_true_eq]
    exact fun h => hkey ⟨h.1.symm, h.2.symm⟩
  calc (committed now ids completedIds c completed session db).eventsFor t id
      = db.eventsFor t id ++ (eventRows c c.expectedVersion c.events).filter
          (fun v => v.tenantId = t ∧ v.executionId = id) := List.filter_append ..
    _ = db.eventsFor t id := by rw [hnone, List.append_nil]

/-- **The commit of a worker.** -/
theorem InOrder.commit (h : Recorded db) {now : Timestamp} {ids completedIds : OutboxIds}
    {c : SessionCommit} {completed : ExecutionCompletedData} {u : Unit}
    (ha : Agrees c completed db)
    (hfinal : final → CommitChecks now c db → ∀ e,
      db.executionByMessage c.tenantId c.idempotencyKey = some e → e.status ≠ .failed)
    (hok : (commitExecution now ids completedIds c completed).run db = .ok (u, db')) :
    InOrder final rows db db' := by
  rcases commitExecution_ok hok with rfl | ⟨execution, session, hexec, hstatus, hchecks,
    hevents, hsession, hversion, rfl⟩
  · exact .refl h
  refine ⟨⟨h.log.commit h.coherent ha hsession hversion hevents hexec hstatus,
    coherent_committed h.coherent⟩, ?_, ?_⟩
  · intro x hx
    rw [requested_committed]
    exact hx
  · intro e he
    refine ⟨_, List.mem_map_of_mem he, ?_⟩
    by_cases hkey : e.tenantId = c.tenantId ∧ e.id = c.executionId
    · -- the execution of the commit, which has not ended
      have hee := ha.status h.coherent h.log hexec he hkey.1 hkey.2
      rw [update_eq_of_eq hkey]
      refine ⟨rfl, fun hs => ?_, fun _ hs => ?_, fun hf hs => ?_⟩
      · exact absurd (hee ▸ hs) hstatus
      · exact absurd (hee ▸ hs) hstatus
      · exact absurd (hee ▸ hs) (hfinal hf hchecks execution hexec)
    · rw [update_eq_of_ne hkey]
      exact .same (fun _ => eventsFor_committed hkey)

/-- A batch of a submission. -/
theorem InOrder.enters {sha256 : String → String} {sub : AgentExecutionSubmission} {m : String}
    {ws : List GatewayWrite} (h : Recorded db) (he : Enters False sha256 sub m db ws) :
    InOrder final rows db (gatewayEngine.applyAll ws db) := by
  refine ⟨⟨h.log.enters he, he.coherent h.coherent⟩, .of_same (events_applyAll ws db) ?_ ?_⟩
  · intro e hmem
    rw [executions_applyAll]
    exact List.mem_append_left _ hmem
  · intro x hx
    obtain ⟨r, hr, hrx⟩ := List.mem_filterMap.mp hx
    exact List.mem_filterMap.mpr ⟨r, outbox_subset_applyAll ws db hr, hrx⟩

/-- **A submission that runs by itself.** -/
theorem inOrder_submitAlone (h : Recorded db) {sha256 : String → String}
    {policy : CapacityPolicy} {sub : AgentExecutionSubmission}
    {choices : List (Choice GatewayAnswer)}
    (hok : submitAlone sha256 policy sub choices db = some db') :
    InOrder final rows db db' := by
  obtain ⟨⟨r, s⟩, heval, rfl⟩ := Option.map_eq_some_iff.mp hok
  obtain ⟨m, -, hlog, -⟩ := answered_alone h.coherent heval
  refine (Engine.committed_rel_of_log _ (R := fun a b => Recorded a → InOrder final rows a b)
    (fun a ha => .refl ha) ?_ heval).2 ?_ h
  · intro a b c hab hbc ha
    obtain ⟨hb, hprog⟩ := hab ha
    obtain ⟨hc, hprog'⟩ := hbc hb
    exact ⟨hc, hprog.trans hprog'⟩
  · intro c hc hpid hrec
    obtain ⟨ws, henters, hafter⟩ := hlog c (List.mem_filter.mpr ⟨hc, by simpa using hpid⟩)
    rw [hafter]
    exact .enters hrec henters

/-- What the dispatcher marks stays what it was. -/
theorem InOrder.publish (h : Recorded db) (ids : List Uuid) :
    InOrder final rows db (markPublished ids db) := by
  have hmark : ∀ r, (markPublished.mark ids r).payload = r.payload
      ∧ (markPublished.mark ids r).messageId = r.messageId
      ∧ (markPublished.mark ids r).tenantId = r.tenantId := by
    intro r
    unfold markPublished.mark
    split <;> exact ⟨rfl, rfl, rfl⟩
  have hfilter : ∀ {α : Type} (f : OutboxRecord → Option α),
      (∀ r, f (markPublished.mark ids r) = f r) →
      (markPublished ids db).outbox.filterMap f = db.outbox.filterMap f := by
    intro α f hf
    rw [markPublished, List.filterMap_map]
    exact List.filterMap_congr (fun r _ => hf r)
  have hranges : (markPublished ids db).ranges = db.ranges :=
    hfilter _ (fun r => by simp only [OutboxRecord.range?, (hmark r).1])
  have hcompletions : (markPublished ids db).completions = db.completions :=
    hfilter _ (fun r => by simp only [OutboxRecord.completed?, (hmark r).1])
  have hrequested : (markPublished ids db).requested = db.requested :=
    hfilter _ (fun r => by simp only [OutboxRecord.requested?, hmark r])
  have hrequests : (markPublished ids db).requests = db.requests :=
    hfilter _ (fun r => by simp only [OutboxRecord.request?, hmark r])
  refine ⟨⟨⟨h.log.ids, ?_, fun t n => ?_, fun t n => ?_, ?_, ?_, ?_⟩, ?_⟩, .of_same rfl
    (fun _ he => he) (fun x hx => hrequested ▸ hx)⟩
  · rw [hrequested]
    exact h.log.requested
  · rw [ExecutionDb.rangesOf, hranges]
    exact h.log.logged t n
  · rw [ExecutionDb.rangesOf, hranges]
    exact h.log.tiled t n
  · rw [hranges]
    exact h.log.ranged
  · rw [hcompletions]
    exact h.log.completed
  · intro e he
    rw [ExecutionDb.rangesFor, hranges, ExecutionDb.completionsFor, hcompletions]
    exact h.log.outcome e he
  · exact ⟨hrequests ▸ h.coherent.paired, h.coherent.unique, False.elim⟩

end Transactions

/-! ## Every request of a worker -/

/-- The answer a choice serves a transaction with, if it runs. -/
def WorkerChoice.answer? : WorkerChoice → Option WorkerAnswer
  | .serve a => some a
  | .raise _ => none
  | .lost a _ => some a

/-- **Inversion of a transaction under a choice**: nothing happened, or it ran
and succeeded. -/
theorem performTx_cases {α : Type} {c : WorkerChoice} {tx : WorkerAnswer → Tx α}
    {db db' : ExecutionDb} {r : Except PyException α} (h : performTx c tx db = some (r, db')) :
    db' = db ∨ ∃ a x, c.answer? = some a ∧ (tx a).run db = .ok (x, db') := by
  cases c with
  | serve a =>
    simp only [performTx] at h
    split at h
    · rename_i x db₁ hok
      cases h
      exact .inr ⟨a, x, rfl, hok⟩
    · cases h
      exact .inl rfl
  | raise e =>
    simp only [performTx] at h
    split at h
    · cases h
    · cases h
      exact .inl rfl
  | lost a e =>
    simp only [performTx] at h
    split at h
    · cases h
    · split at h
      · rename_i x db₁ hok
        cases h
        exact .inr ⟨a, x, rfl, hok⟩
      · cases h

theorem performCall_db {α : Type} {c : WorkerChoice} {f : WorkerAnswer → α}
    {db db' : ExecutionDb} {r : Except PyException α} (h : performCall c f db = some (r, db')) :
    db' = db := by
  cases c <;> cases h <;> rfl

/-- **The condition on the requests of a run**: if it is `final`, a commit that
would pass its checks does not find its execution failed; if it is `rows`, no
succeeded execution is given knowledge revisions. -/
def workerAllow (final rows : Prop) (_ : ℕ) (c : WorkerChoice) (op : WorkerOp)
    (db : ExecutionDb) : Prop :=
  match op with
  | .commit commit _ => final → ∀ a, c.answer? = some a → CommitChecks a.now commit db →
      ∀ e, db.executionByMessage commit.tenantId commit.idempotencyKey = some e →
        e.status ≠ .failed
  | .setKnowledge tenantId id _ => rows → ∀ e ∈ db.executions, e.tenantId = tenantId →
      e.id = id → e.status ≠ .succeeded
  | _ => True

/-- **Every request of a delivery is in order.** -/
theorem inOrder_of_request {final rows : Prop} {d : Delivery} {data : ExecutionRequestedData}
    {pid : ℕ} {op : WorkerOp} (hop : op.Concerns d data) {db db' : ExecutionDb}
    {r : Except PyException (WorkerRes op)} (h : Recorded db)
    (hreq : (d.envelope.messageId, data) ∈ db.requested)
    (hH : Prog.Handled workerHandler (workerAllow final rows pid) op db r db') :
    InOrder final rows db db' := by
  obtain ⟨c, hallow, hh⟩ := hH
  cases op with
  | resolveStorage t =>
    simp only [workerHandler] at hh
    obtain rfl := performCall_db hh
    exact .refl h
  | resolveRelease t rel =>
    simp only [workerHandler] at hh
    obtain rfl := performCall_db hh
    exact .refl h
  | resolveKnowledge t b env n =>
    simp only [workerHandler] at hh
    obtain rfl := performCall_db hh
    exact .refl h
  | complete data =>
    simp only [workerHandler] at hh
    obtain rfl := performCall_db hh
    exact .refl h
  | traceParent =>
    simp only [workerHandler] at hh
    obtain rfl := performCall_db hh
    exact .refl h
  | executionStatus t m =>
    simp only [workerHandler] at hh
    rcases performTx_cases hh with rfl | ⟨a, x, -, hok⟩
    · exact .refl h
    · obtain ⟨_, _, hget, hrest⟩ := Tx.bind_ok.mp hok
      obtain ⟨rfl, rfl⟩ := Tx.get_ok.mp hget
      exact (Tx.pure_ok.mp hrest).2 ▸ .refl h
  | acquire t n owner =>
    simp only [workerHandler] at hh
    rcases performTx_cases hh with rfl | ⟨a, x, -, hok⟩
    · exact .refl h
    · exact .acquire h hok
  | setKnowledge t id revisions =>
    simp only [workerHandler] at hh
    rcases performTx_cases hh with rfl | ⟨a, x, -, hok⟩
    · exact .refl h
    · exact .setKnowledge h hallow hok
  | renew t n owner token =>
    simp only [workerHandler] at hh
    rcases performTx_cases hh with rfl | ⟨a, x, -, hok⟩
    · exact .refl h
    · exact .renew h hok
  | markFailed t id =>
    simp only [workerHandler] at hh
    rcases performTx_cases hh with rfl | ⟨a, x, -, hok⟩
    · exact .refl h
    · exact .markFailed h hok
  | commit commit completed =>
    simp only [workerHandler] at hh
    rcases performTx_cases hh with rfl | ⟨a, x, ha, hok⟩
    · exact .refl h
    · obtain ⟨ht, hn, hi, hm, hct, hci⟩ := hop
      obtain ⟨e, he, het, hei, hem, hes⟩ := h.log.requested _ hreq
      refine .commit h ⟨⟨e, he, het.trans ht.symm, hei.trans hi.symm, hem.trans hm.symm,
        hes.trans hn.symm⟩, hct.trans ht.symm, hci.trans hi.symm⟩ ?_ hok
      exact fun hf => hallow hf a ha

/-- **The discipline of the workers.** -/
def workerDiscipline (final rows : Prop) (sha256 : String → String) (policy : CapacityPolicy) :
    Pool.Discipline (workers sha256 policy) platformStart FromOutbox
      (workerAllow final rows) (fun _ _ => True) where
  inv := Recorded
  unused := fun _ _ => True
  rely := fun _ => Progressed final rows
  post := fun _ _ _ _ => True
  rely_refl := fun _ => .refl final rows
  rely_trans := fun _ _ _ _ h h' => h.trans h'
  unused_rely := fun _ _ _ _ _ => trivial
  start_ok := by
    rintro _ ⟨now, rfl⟩
    refine ⟨⟨⟨List.nodup_nil, ?_, fun _ _ => rfl, fun _ _ => rfl, ?_, ?_, ?_⟩,
      ⟨rfl, List.nodup_nil, False.elim⟩⟩, fun _ => trivial⟩
    all_goals
      intro x hx
      cases hx
  safe_body := by
    rintro pid db d ⟨rec, hrec, henv⟩ hinv -
    cases hdata : d.envelope.data with
    | executionRequested data =>
      refine Prog.Issues.safe
        (F := fun db => Recorded db ∧ (d.envelope.messageId, data) ∈ db.requested)
        ?_ ?_ (issues_handle hdata) ⟨hinv, ?_⟩
      · rintro a b ⟨-, hreq⟩ ⟨hb, hprog⟩
        exact ⟨hb, hprog.requested _ hreq⟩
      · rintro op hop a r b ⟨ha, hreq⟩ hH
        obtain ⟨hb, hprog⟩ := inOrder_of_request hop ha hreq hH
        exact ⟨⟨hb, fun _ _ => hprog⟩, hb, hprog.requested _ hreq⟩
      · refine List.mem_filterMap.mpr ⟨rec, hrec, ?_⟩
        rw [henv] at hdata ⊢
        simp only at hdata
        simp only [OutboxRecord.requested?, hdata]
    | _ =>
      show (handle d).Safe _ _ _ _ db
      unfold handle
      split
      · trivial
      · rw [hdata]
        trivial
  safe_crash := fun _ _ hinv => ⟨hinv, fun _ _ => .refl final rows _⟩
  safe_env := by
    rintro e db db' - hinv h
    have hstep : InOrder final rows db db' := by
      cases e with
      | acquire ttl now t n owner =>
        obtain rfl := Option.some.inj h
        rcases (acquire ttl now t n owner).after_cases db with heq | ⟨x, hok⟩
        · rw [heq]
          exact .refl hinv
        · exact .acquire hinv hok
      | renew now t n owner token =>
        obtain rfl := Option.some.inj h
        rcases (renew now t n owner token).after_cases db with heq | ⟨x, hok⟩
        · rw [heq]
          exact .refl hinv
        · exact .renew hinv hok
      | release now t n owner =>
        obtain rfl := Option.some.inj h
        rcases (release now t n owner).after_cases db with heq | ⟨x, hok⟩
        · rw [heq]
          exact .refl hinv
        · exact .release hinv hok
      | submit sub choices => exact inOrder_submitAlone hinv h
      | publish ids =>
        obtain rfl := Option.some.inj h
        exact .publish hinv ids
    exact ⟨hstep.1, fun _ => hstep.2⟩

/-! ## The integrity of the Session log -/

/-- A state of the workers. -/
abbrev WorkersState :=
  Pool.State WorkerOp WorkerRes PyException ExecutionDb Delivery Unit

/-- A step of the workers or the platform. -/
abbrev WorkersLabel := Pool.Label WorkerChoice Delivery PlatformStep

/-- The workers as a transition system. -/
abbrev workersMachine (sha256 : String → String) (policy : CapacityPolicy) :
    Machine WorkersState WorkersLabel :=
  (workers sha256 policy).machine platformStart

/-- The steps in which what is delivered comes from the Outbox. -/
def deliversOutbox (w : WorkersState) : WorkersLabel → Prop
  | .spawn d => FromOutbox w.shared d
  | _ => True

/-- **The execution has a block**: its events are the positions `(lo, hi]` of its
Session, and it has announced this range and no other. -/
structure HasBlock (db : ExecutionDb) (e : AgentExecution) (lo hi : ℕ) : Prop where
  nonempty : lo < hi
  events : (db.eventsFor e.tenantId e.id).map (fun v => (v.sessionId, v.sequence))
    = (positions (lo, hi)).map (fun i => (e.sessionId, i))
  announced : (db.rangesFor e.tenantId e.id).map SessionEventsCommittedData.bounds = [(lo, hi)]

/-- Every reachable state is recorded. -/
theorem recorded_of_reach {sha256 : String → String} {policy : CapacityPolicy}
    {w : WorkersState} (h : (workersMachine sha256 policy).Reach deliversOutbox w) :
    Recorded w.shared := by
  have hreach : (workersMachine sha256 policy).Reach
      (Pool.stepOk FromOutbox (workerAllow False False) (fun _ _ => True)) w := by
    refine h.mono (fun w l hl => ?_)
    cases l with
    | act pid c =>
      intro d op k hth
      cases op with
      | commit c completed => exact False.elim
      | setKnowledge t id revisions => exact False.elim
      | _ => trivial
    | _ => exact hl
  exact (Pool.reach_safe (workerDiscipline False False sha256 policy) hreach).inv

/-- **The Session log is sound in every reachable state**: the events of a
Session are numbered `1, …, version`, the announced ranges tile its versions,
an execution has one block of events or none, and it has succeeded exactly when
it has a block and one completed record. -/
theorem session_log_integrity (sha256 : String → String) (policy : CapacityPolicy)
    {w : WorkersState} (h : (workersMachine sha256 policy).Reach deliversOutbox w) :
    (∀ t n, (w.shared.eventsOf t n).map (·.sequence) = List.range' 1 (w.shared.versionOf t n)
        ∧ Tiles 0 ((w.shared.rangesOf t n).map SessionEventsCommittedData.bounds)
          (w.shared.versionOf t n))
      ∧ ∀ e ∈ w.shared.executions,
        ((w.shared.eventsFor e.tenantId e.id = [] ∧ w.shared.rangesFor e.tenantId e.id = [])
          ∨ ∃ lo hi, HasBlock w.shared e lo hi)
        ∧ (e.status = .succeeded ↔ (∃ lo hi, HasBlock w.shared e lo hi)
          ∧ (w.shared.completionsFor e.tenantId e.id).length = 1) := by
  have hrec : Recorded w.shared := recorded_of_reach h
  refine ⟨fun t n => ⟨hrec.log.sequences t n, hrec.log.tiled t n⟩, fun e he => ?_⟩
  rcases hrec.log.block he with ⟨hs, hr, hc, hv⟩ | ⟨hs, hc, d, hd, hlt, hv⟩
  · refine ⟨.inl ⟨hv, hr⟩, fun hsucc => absurd hsucc hs, ?_⟩
    rintro ⟨-, hone⟩
    rw [hc] at hone
    cases hone
  · have hblock : HasBlock w.shared e d.fromVersion d.toVersion :=
      ⟨hlt, hv, by rw [hd]; rfl⟩
    exact ⟨.inr ⟨_, _, hblock⟩, fun _ => ⟨⟨_, _, hblock⟩, hc⟩, fun _ => hs⟩

/-! ### A run -/

/-- The request that `greeting` enters. -/
def greetingData : ExecutionRequestedData where
  tenantId := 1
  applicationId := 10
  executionId := 100
  releaseId := 7
  environment := .production
  sessionId := "s"
  messages := [[("role", "user"), ("content", "hi")]]
  channelContext := none
  traceParent := none

/-- A delivery of `greeting` to a worker. -/
def greetingDelivery (ownerId workerPool : String) : Delivery where
  ownerId := ownerId
  workerPool := workerPool
  envelope := ⟨"m", .executionRequested, .executionRequested greetingData⟩

/-- The platform before its first submission. -/
def workersIdle : WorkersState := Pool.idle (ExecutionDb.empty 0)

theorem workersIdle_init (sha256 : String → String) (policy : CapacityPolicy) :
    (workersMachine sha256 policy).init workersIdle := ⟨_, ⟨0, rfl⟩, rfl⟩

/-- The submission of `greeting`. -/
def greetingSubmitted : WorkersLabel :=
  .env (.submit greeting (List.replicate 8 (acceptedRun.answering 100)
    ++ List.replicate 3 (acceptedRun.answering 101)))

/-- A worker of the shared pool gets as far as the lease. -/
def leaseAcquired (pid : ℕ) : List WorkersLabel :=
  [.spawn (greetingDelivery "a" "shared-workers"),
    .act pid (.serve { storage := some "shared-workers" }), .act pid (.serve {}),
    .act pid (.serve {})]

/-- It goes on to the commit. -/
def executionCommitted (pid : ℕ) : List WorkersLabel :=
  [.act pid (.serve { route := some { dataClassification := .INTERNAL } }),
    .act pid (.serve {}), .act pid (.serve {}), .act pid (.serve {}),
    .act pid (.serve { ids := ⟨200, 201⟩, completedIds := ⟨202, 203⟩ })]

/-- A worker of another pool turns the delivery down. -/
def deliveryTurnedDown (pid : ℕ) : List WorkersLabel :=
  [.spawn (greetingDelivery "b" "other-workers"),
    .act pid (.serve { storage := some "shared-workers" }), .act pid (.serve {})]

/-- The two payloads are the same request. -/
def OutboxPayload.sameRequest : OutboxPayload → OutboxPayload → Bool
  | .executionRequested data, .executionRequested data' => data = data'
  | _, _ => false

theorem OutboxPayload.eq_of_sameRequest {p q : OutboxPayload} (h : p.sameRequest q = true) :
    p = q := by
  cases p <;> cases q <;> simp_all [OutboxPayload.sameRequest]

/-- A test of `deliversOutbox`, for deliveries of requests. -/
def deliversOutboxTest (w : WorkersState) : WorkersLabel → Bool
  | .spawn d => w.shared.outbox.any (fun r => d.envelope.messageId = r.messageId
      ∧ d.envelope.eventType = r.eventType ∧ d.envelope.data.sameRequest r.payload = true)
  | _ => true

theorem deliversOutbox_of_test (w : WorkersState) (l : WorkersLabel)
    (h : deliversOutboxTest w l = true) : deliversOutbox w l := by
  cases l with
  | spawn d =>
    obtain ⟨r, hr, hd⟩ := List.any_eq_true.mp h
    obtain ⟨hm, ht, hp⟩ := of_decide_eq_true hd
    refine ⟨r, hr, ?_⟩
    rw [← hm, ← ht, ← OutboxPayload.eq_of_sameRequest hp]
  | _ => trivial

/-- A submission, handled by one worker: the execution succeeds with the two
events of its Session. -/
theorem session_log_integrity_greeting :
    ∃ w, (workersMachine id {}).Reach deliversOutbox w
      ∧ w.shared.executions.map (·.status) = [.succeeded]
      ∧ (w.shared.eventsOf 1 "s").map (·.sequence)
        = List.range' 1 (w.shared.versionOf 1 "s")
      ∧ ∀ e ∈ w.shared.executions, ∃ lo hi, HasBlock w.shared e lo hi := by
  have hrun : ((workersMachine id {}).runIf deliversOutboxTest workersIdle
      (greetingSubmitted :: leaseAcquired 0 ++ executionCommitted 0)).map
        (fun w => decide (w.shared.executions.map (·.status) = [.succeeded])) = some true := by
    decide +kernel
  obtain ⟨w, hw, htest⟩ := Machine.reach_of_runIf deliversOutbox_of_test
    (workersIdle_init id {}) hrun
  have hstatus : w.shared.executions.map (·.status) = [.succeeded] := of_decide_eq_true htest
  obtain ⟨hlog, hexec⟩ := session_log_integrity id {} hw
  refine ⟨w, hw, hstatus, (hlog 1 "s").1, fun e he => ?_⟩
  have hs : e.status ∈ w.shared.executions.map (·.status) := List.mem_map_of_mem he
  rw [hstatus, List.mem_singleton] at hs
  exact ((hexec e he).2.mp hs).1

/-! ## Outcomes are final

`_handle` treats a failed execution as ended, but checks so only at the
beginning. -/

/-- The steps in which what is delivered comes from the Outbox, no commit that
would pass its lease and version checks finds its execution failed, and no
succeeded execution is given knowledge revisions. -/
def keepsOutcomes (w : WorkersState) : WorkersLabel → Prop
  | .spawn d => FromOutbox w.shared d
  | .act pid c =>
    (∀ d commit completed k,
      w.threads pid = some (d, .call (.commit commit completed) k) →
      ∀ a, c.answer? = some a → CommitChecks a.now commit w.shared →
      ∀ e, w.shared.executionByMessage commit.tenantId commit.idempotencyKey = some e →
        e.status ≠ .failed)
    ∧ (∀ d tenantId id revisions k,
      w.threads pid = some (d, .call (.setKnowledge tenantId id revisions) k) →
      ∀ e ∈ w.shared.executions, e.tenantId = tenantId → e.id = id →
        e.status ≠ .succeeded)
  | _ => True

theorem stepOk_of_keepsOutcomes (w : WorkersState) (l : WorkersLabel)
    (h : keepsOutcomes w l) :
    Pool.stepOk FromOutbox (workerAllow True True) (fun _ _ => True) w l := by
  cases l with
  | act pid c =>
    intro d op k hth
    cases op with
    | commit commit completed => exact fun _ => h.1 d commit completed k hth
    | setKnowledge t id revisions => exact fun _ => h.2 d t id revisions k hth
    | _ => trivial
  | _ => exact h

/-- **Outcomes are final**, in every run in which no commit finds its execution
failed and no succeeded execution is given knowledge revisions: from any
reachable state on, a failed execution stays failed and gains no events, and a
succeeded one stays the same in every column and gains none. -/
theorem execution_outcomes_final (sha256 : String → String) (policy : CapacityPolicy)
    {w w' : WorkersState} (h : (workersMachine sha256 policy).Reach keepsOutcomes w)
    (hs : (workersMachine sha256 policy).Steps keepsOutcomes w w') :
    ∀ e ∈ w.shared.executions, ∃ e' ∈ w'.shared.executions,
      e'.identity = e.identity
        ∧ (e.status = .failed → e'.status = .failed
          ∧ w'.shared.eventsFor e.tenantId e.id = w.shared.eventsFor e.tenantId e.id)
        ∧ (e.status = .succeeded → e' = e
          ∧ w'.shared.eventsFor e.tenantId e.id = w.shared.eventsFor e.tenantId e.id) := by
  have htrans : ∀ a b c : WorkersState, Progressed True True a.shared b.shared →
      Progressed True True b.shared c.shared → Progressed True True a.shared c.shared :=
    fun _ _ _ hab hbc => hab.trans hbc
  have hprog : Progressed True True w.shared w'.shared := by
    refine Machine.Steps.trans_rel (R := fun w w' => Progressed True True w.shared w'.shared)
      (fun w => .refl True True w.shared) htrans ?_
      (h.mono stepOk_of_keepsOutcomes) (hs.mono stepOk_of_keepsOutcomes)
    intro w l w' hw hok hl
    obtain ⟨q, hq⟩ := (workerDiscipline True True sha256 policy).step_rely
      (Pool.reach_safe _ hw) hok hl
    exact hq
  intro e he
  obtain ⟨e', he', hout⟩ := hprog.outlives e he
  refine ⟨e', he', hout.identity, hout.failed trivial, fun hsucc => ?_⟩
  exact ⟨hout.unchanged trivial hsucc, (hout.succeeded hsucc).2⟩

/-- A test of `keepsOutcomes`, for deliveries of requests. -/
def keepsOutcomesTest (w : WorkersState) : WorkersLabel → Bool
  | .act pid _ =>
    match w.threads pid with
    | some (_, .call (.commit commit _) _) =>
      match w.shared.executionByMessage commit.tenantId commit.idempotencyKey with
      | some e => e.status ≠ .failed
      | none => true
    | some (_, .call (.setKnowledge tenantId id _) _) =>
      w.shared.executions.all (fun e => e.tenantId = tenantId → e.id = id →
        e.status ≠ .succeeded)
    | _ => true
  | l => deliversOutboxTest w l

theorem keepsOutcomes_of_test (w : WorkersState) (l : WorkersLabel)
    (h : keepsOutcomesTest w l = true) : keepsOutcomes w l := by
  cases l with
  | spawn d => exact deliversOutbox_of_test w (.spawn d) h
  | act pid c =>
    constructor
    · intro d commit completed k hth a ha hc e he
      simp only [keepsOutcomesTest, hth, he] at h
      exact of_decide_eq_true h
    · intro d tenantId id revisions k hth e he ht hi
      simp only [keepsOutcomesTest, hth, List.all_eq_true] at h
      exact of_decide_eq_true (h e he) ht hi
  | _ => trivial

/-- The execution of `greeting` succeeds, and a second delivery of its message
to a worker of the pool changes nothing in it. -/
theorem execution_outcomes_final_greeting :
    ∃ w w', (workersMachine id {}).Reach keepsOutcomes w
      ∧ (workersMachine id {}).Steps keepsOutcomes w w'
      ∧ w.shared.executions.map (·.status) = [.succeeded]
      ∧ w'.spawned = 2
      ∧ ∀ e ∈ w.shared.executions, e ∈ w'.shared.executions := by
  have hrun : ((workersMachine id {}).runIf keepsOutcomesTest workersIdle
      (greetingSubmitted :: leaseAcquired 0 ++ executionCommitted 0)).bind
        (fun w => ((workersMachine id {}).runIf keepsOutcomesTest w
          ((leaseAcquired 1).take 3)).map
            (fun w' => decide (w.shared.executions.map (·.status) = [.succeeded]
              ∧ w'.spawned = 2))) = some true := by
    decide +kernel
  obtain ⟨w, w', hw, hs, htest⟩ := Machine.steps_of_runIf_runIf keepsOutcomes_of_test
    (workersIdle_init id {}) hrun
  obtain ⟨hstatus, hpid⟩ := of_decide_eq_true htest
  refine ⟨w, w', hw, hs, hstatus, hpid, fun e he => ?_⟩
  obtain ⟨e', he', -, -, hsucc⟩ := execution_outcomes_final id {} hw hs e he
  have hes : e.status ∈ w.shared.executions.map (·.status) := List.mem_map_of_mem he
  rw [hstatus, List.mem_singleton] at hes
  rw [← (hsucc hes).1]
  exact he'

/-- **A failed execution succeeds**: a worker of another pool fails the
execution while the first worker is between its check and its commit. -/
theorem failed_execution_succeeds :
    ¬ ∀ w w', (workersMachine id {}).Reach deliversOutbox w →
      (workersMachine id {}).Steps deliversOutbox w w' →
      ∀ e ∈ w.shared.executions, e.status = .failed →
        ∀ e' ∈ w'.shared.executions, e'.tenantId = e.tenantId → e'.id = e.id →
          e'.status ≠ .succeeded
            ∧ w'.shared.eventsFor e.tenantId e.id = w.shared.eventsFor e.tenantId e.id := by
  intro hall
  have hrun : ((workersMachine id {}).runIf deliversOutboxTest workersIdle
      (greetingSubmitted :: leaseAcquired 0 ++ deliveryTurnedDown 1)).bind
        (fun w => ((workersMachine id {}).runIf deliversOutboxTest w
          (executionCommitted 0)).map
            (fun w' => w.shared.executions.any (fun e => e.status = .failed
              ∧ w'.shared.executions.any (fun e' => e'.tenantId = e.tenantId
                ∧ e'.id = e.id ∧ e'.status = .succeeded)))) = some true := by
    decide +kernel
  obtain ⟨w, w', hw, hs, htest⟩ := Machine.steps_of_runIf_runIf deliversOutbox_of_test
    (workersIdle_init id {}) hrun
  obtain ⟨e, he, htest⟩ := List.any_eq_true.mp htest
  obtain ⟨hfailed, htest⟩ := of_decide_eq_true htest
  obtain ⟨e', he', htest⟩ := List.any_eq_true.mp htest
  obtain ⟨ht, hi, hsucc⟩ := of_decide_eq_true htest
  exact (hall w w' hw hs e he hfailed e' he' ht hi).1 hsucc
