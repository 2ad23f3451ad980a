import AgentPlatform.AgentWorker
import AgentPlatform.Submission
import AgentPlatform.Tiling

/-!
# The Session log

The tables a worker's commit writes say the same thing three times: the events
of a Session carry sequence numbers, the Outbox announces the committed ranges,
and the execution has a status. This module states how they agree, `LogOk`, and
shows that every transaction of the platform keeps it: the commit, which writes
all three; the lease operations, which write none of them; the updates of an
execution that leave its outcome alone; and a submission, which enters an
execution nothing has been logged for.

The agreement does not rest on the lease. A commit that got past its checks
finds the Session at the version it expects and appends after it, and the
execution it was asked to commit is, by the unique message, one that has not
succeeded.
-/

/-! ## Reading the Outbox -/

namespace OutboxRecord

/-- The committed range a record announces, if it does. -/
def range? (r : OutboxRecord) : Option SessionEventsCommittedData :=
  match r.payload with
  | .sessionEventsCommitted data => some data
  | _ => none

/-- The execution a record reports as completed, if it does. -/
def completed? (r : OutboxRecord) : Option (Uuid × Uuid) :=
  match r.payload with
  | .executionCompleted data => some (data.tenantId, data.executionId)
  | _ => none

/-- The request a record carries, with its message id. -/
def requested? (r : OutboxRecord) : Option (String × ExecutionRequestedData) :=
  match r.payload with
  | .executionRequested data => some (r.messageId, data)
  | _ => none

end OutboxRecord

namespace SessionEventsCommittedData

/-- The range `(fromVersion, toVersion]`. -/
def bounds (d : SessionEventsCommittedData) : ℕ × ℕ := (d.fromVersion, d.toVersion)

/-- The events a range stands for: their sequence numbers, with its execution. -/
def block (d : SessionEventsCommittedData) : List (ℕ × Uuid) :=
  (positions d.bounds).map (fun i => (i, d.executionId))

end SessionEventsCommittedData

/-- What the log is compared on: sequence number and execution. -/
def SessionEventRow.mark (v : SessionEventRow) : ℕ × Uuid := (v.sequence, v.executionId)

namespace ExecutionDb

/-- The ranges announced in the Outbox. -/
def ranges (db : ExecutionDb) : List SessionEventsCommittedData :=
  db.outbox.filterMap OutboxRecord.range?

/-- The ranges of a Session. -/
def rangesOf (db : ExecutionDb) (t : Uuid) (n : String) : List SessionEventsCommittedData :=
  db.ranges.filter (fun d => d.tenantId = t ∧ d.sessionId = n)

/-- The ranges of an execution. -/
def rangesFor (db : ExecutionDb) (t id : Uuid) : List SessionEventsCommittedData :=
  db.ranges.filter (fun d => d.tenantId = t ∧ d.executionId = id)

/-- The completions reported in the Outbox. -/
def completions (db : ExecutionDb) : List (Uuid × Uuid) :=
  db.outbox.filterMap OutboxRecord.completed?

/-- The completions of an execution. -/
def completionsFor (db : ExecutionDb) (t id : Uuid) : List (Uuid × Uuid) :=
  db.completions.filter (fun x => x = (t, id))

/-- The requests in the Outbox, with their payloads. -/
def requested (db : ExecutionDb) : List (String × ExecutionRequestedData) :=
  db.outbox.filterMap OutboxRecord.requested?

/-- The version of a Session; one that does not exist is at version 0. -/
def versionOf (db : ExecutionDb) (t : Uuid) (n : String) : ℕ :=
  (db.sessions t n).elim 0 (·.version)

/-- The events of an execution. -/
def eventsFor (db : ExecutionDb) (t id : Uuid) : List SessionEventRow :=
  db.events.filter (fun v => v.tenantId = t ∧ v.executionId = id)

end ExecutionDb

/-- One for an execution that succeeded, none for any other. -/
def ExecutionStatus.commits : ExecutionStatus → ℕ
  | .succeeded => 1
  | _ => 0

/-! ## The agreement -/

/-- **The log agrees with itself.** -/
structure LogOk (db : ExecutionDb) : Prop where
  /-- `(tenant_id, id)` is the primary key of executions. -/
  ids : (db.executions.map (fun e => (e.tenantId, e.id))).Nodup
  /-- A request in the Outbox is that of an execution. -/
  requested : ∀ x ∈ db.requested, ∃ e ∈ db.executions, e.tenantId = x.2.tenantId
    ∧ e.id = x.2.executionId ∧ e.messageId = x.1 ∧ e.sessionId = x.2.sessionId
  /-- The events of a Session are those of its ranges. -/
  logged : ∀ t n, (db.eventsOf t n).map SessionEventRow.mark
    = (db.rangesOf t n).flatMap SessionEventsCommittedData.block
  /-- The ranges of a Session tile its versions. -/
  tiled : ∀ t n, Tiles 0 ((db.rangesOf t n).map SessionEventsCommittedData.bounds)
    (db.versionOf t n)
  /-- A range is that of an execution of its Session. -/
  ranged : ∀ d ∈ db.ranges, ∃ e ∈ db.executions, e.tenantId = d.tenantId
    ∧ e.id = d.executionId ∧ e.sessionId = d.sessionId
  /-- A completion is that of an execution. -/
  completed : ∀ x ∈ db.completions, ∃ e ∈ db.executions, (e.tenantId, e.id) = x
  /-- An execution that succeeded has one range and one completion, any other
  has none. -/
  outcome : ∀ e ∈ db.executions,
    (db.rangesFor e.tenantId e.id).length = e.status.commits
      ∧ (db.completionsFor e.tenantId e.id).length = e.status.commits

/-- The agreement is about four tables. -/
theorem LogOk.congr {db db' : ExecutionDb} (h : LogOk db) (hs : db'.sessions = db.sessions)
    (hv : db'.events = db.events) (he : db'.executions = db.executions)
    (ho : db'.outbox = db.outbox) : LogOk db' := by
  obtain ⟨sessions, leases, events, executions, outbox, bucket⟩ := db
  obtain ⟨sessions', leases', events', executions', outbox', bucket'⟩ := db'
  subst hs hv he ho
  exact ⟨h.ids, h.requested, h.logged, h.tiled, h.ranged, h.completed, h.outcome⟩

/-! ## The commit -/

section Commit

variable {now : Timestamp} {ids completedIds : OutboxIds} {c : SessionCommit}
  {completed : ExecutionCompletedData} {session : AgentSession} {db : ExecutionDb}

/-- The range a commit announces. -/
def SessionCommit.range (c : SessionCommit) : SessionEventsCommittedData where
  tenantId := c.tenantId
  sessionId := c.sessionId
  executionId := c.executionId
  fromVersion := c.expectedVersion
  toVersion := c.expectedVersion + c.events.length
  eventKinds := c.events.map (·.kind)

theorem ranges_committed :
    (committed now ids completedIds c completed session db).ranges
      = db.ranges ++ [c.range] := by
  simp [ExecutionDb.ranges, committed, OutboxRecord.range?, committedRecord, completedRecord,
    SessionCommit.range]

theorem completions_committed :
    (committed now ids completedIds c completed session db).completions
      = db.completions ++ [(completed.tenantId, completed.executionId)] := by
  rw [ExecutionDb.completions, committed, List.filterMap_append, List.filterMap_append]
  exact congrArg (· ++ _) (List.append_nil _)

theorem requested_committed :
    (committed now ids completedIds c completed session db).requested = db.requested := by
  simp [ExecutionDb.requested, committed, OutboxRecord.requested?, committedRecord,
    completedRecord]

/-- The rows of a commit are its block. -/
theorem mark_eventRows (c : SessionCommit) (v : ℕ) (es : List SessionEvent) :
    (eventRows c v es).map SessionEventRow.mark
      = (List.range' (v + 1) es.length).map (fun i => (i, c.executionId)) := by
  induction es generalizing v with
  | nil => rfl
  | cons e es ih =>
    rw [eventRows, List.map_cons, ih, List.length_cons, List.range'_succ, List.map_cons]
    rfl

theorem block_range (c : SessionCommit) :
    c.range.block = (eventRows c c.expectedVersion c.events).map SessionEventRow.mark := by
  rw [mark_eventRows, SessionEventsCommittedData.block, SessionEventsCommittedData.bounds]
  exact congrArg _ (positions_add _ _)

/-- All rows of a commit are of its Session and its execution. -/
theorem mem_eventRows {c : SessionCommit} {v : ℕ} {es : List SessionEvent}
    {row : SessionEventRow} (h : row ∈ eventRows c v es) :
    row.tenantId = c.tenantId ∧ row.sessionId = c.sessionId
      ∧ row.executionId = c.executionId := by
  induction es generalizing v with
  | nil => cases h
  | cons e es ih =>
    rcases List.mem_cons.mp h with rfl | h
    · exact ⟨rfl, rfl, rfl⟩
    · exact ih h

/-- The commit is for an execution of the database: the message, the execution
and the Session belong together. -/
structure Agrees (c : SessionCommit) (completed : ExecutionCompletedData) (db : ExecutionDb) :
    Prop where
  row : ∃ e ∈ db.executions, e.tenantId = c.tenantId ∧ e.id = c.executionId
    ∧ e.messageId = c.idempotencyKey ∧ e.sessionId = c.sessionId
  tenant : completed.tenantId = c.tenantId
  execution : completed.executionId = c.executionId

/-- **The execution a commit updates is the one it checked**, by the unique
message. -/
theorem Agrees.status {strict : Prop} (ha : Agrees c completed db) (hc : Coherent strict db)
    (hk : LogOk db) {execution : AgentExecution}
    (hexec : db.executionByMessage c.tenantId c.idempotencyKey = some execution)
    {e : AgentExecution} (he : e ∈ db.executions) (ht : e.tenantId = c.tenantId)
    (hid : e.id = c.executionId) : e = execution := by
  obtain ⟨e₀, he₀, ht₀, hid₀, hm₀, -⟩ := ha.row
  have hkey := List.find?_some hexec
  simp only [decide_eq_true_eq] at hkey
  have hmem := List.mem_of_find?_eq_some hexec
  have h₀ : e₀ = execution := List.inj_on_of_nodup_map hc.unique he₀ hmem
    (by rw [ht₀, hm₀, hkey.1, hkey.2])
  have h₁ : e = e₀ := List.inj_on_of_nodup_map hk.ids he he₀
    (by rw [ht, hid, ht₀, hid₀])
  rw [h₁, h₀]

/-- The row of a committed database that stands for `e`. -/
theorem update_eq_of_ne {f : AgentExecution → AgentExecution} {t id : Uuid} {e : AgentExecution}
    (h : ¬ (e.tenantId = t ∧ e.id = id)) : updateExecution.update f t id e = e := by
  simp [updateExecution.update, h]

theorem update_eq_of_eq {f : AgentExecution → AgentExecution} {t id : Uuid} {e : AgentExecution}
    (h : e.tenantId = t ∧ e.id = id) : updateExecution.update f t id e = f e := by
  simp [updateExecution.update, h]

/-- An update that keeps the columns an execution is known by. -/
def KeepsIdentity (f : AgentExecution → AgentExecution) : Prop :=
  ∀ e, (f e).identity = e.identity

theorem identity_update {f : AgentExecution → AgentExecution} (hf : KeepsIdentity f)
    (t id : Uuid) (e : AgentExecution) :
    (updateExecution.update f t id e).identity = e.identity := by
  by_cases h : e.tenantId = t ∧ e.id = id
  · rw [update_eq_of_eq h, hf]
  · rw [update_eq_of_ne h]

theorem aged_update {f : AgentExecution → AgentExecution} (hf : KeepsIdentity f) (t id : Uuid)
    (db : ExecutionDb) :
    Aged db { db with executions := db.executions.map (updateExecution.update f t id) } := by
  refine ⟨rfl, rfl, ?_⟩
  rw [List.map_map]
  exact List.map_congr_left (fun e _ => identity_update hf t id e)

/-- Counting after one more entry. -/
theorem length_filter_concat {α : Type} (p : α → Bool) (l : List α) (x : α) :
    ((l ++ [x]).filter p).length = (l.filter p).length + if p x then 1 else 0 := by
  by_cases hx : p x <;> simp [hx]

theorem rangesOf_committed (t : Uuid) (n : String) :
    (committed now ids completedIds c completed session db).rangesOf t n
      = db.rangesOf t n ++ if c.tenantId = t ∧ c.sessionId = n then [c.range] else [] := by
  rw [ExecutionDb.rangesOf, ranges_committed, List.filter_append, ExecutionDb.rangesOf,
    List.append_cancel_left_eq]
  by_cases htn : c.tenantId = t ∧ c.sessionId = n
  · simp [SessionCommit.range, htn]
  · simp [SessionCommit.range, htn]

/-- The commit appends its block to its Session, and to no other. -/
theorem LogOk.logged_committed (h : LogOk db) (t : Uuid) (n : String) :
    ((committed now ids completedIds c completed session db).eventsOf t n).map
        SessionEventRow.mark
      = ((committed now ids completedIds c completed session db).rangesOf t n).flatMap
        SessionEventsCommittedData.block := by
  rw [rangesOf_committed, List.flatMap_append]
  have hev : (committed now ids completedIds c completed session db).eventsOf t n
      = db.eventsOf t n ++ (eventRows c c.expectedVersion c.events).filter
        (fun e => e.tenantId = t ∧ e.sessionId = n) := List.filter_append ..
  rw [hev, List.map_append, h.logged]
  refine congrArg (_ ++ ·) ?_
  by_cases htn : c.tenantId = t ∧ c.sessionId = n
  · have hall : (eventRows c c.expectedVersion c.events).filter
        (fun e => e.tenantId = t ∧ e.sessionId = n)
        = eventRows c c.expectedVersion c.events := by
      refine List.filter_eq_self.mpr (fun row hrow => ?_)
      obtain ⟨ht, hn, -⟩ := mem_eventRows hrow
      simp [ht, hn, htn]
    rw [hall, ← block_range, if_pos htn, List.flatMap_singleton]
  · have hnone : (eventRows c c.expectedVersion c.events).filter
        (fun e => e.tenantId = t ∧ e.sessionId = n) = [] := by
      refine List.filter_eq_nil_iff.mpr (fun row hrow => ?_)
      obtain ⟨ht, hn, -⟩ := mem_eventRows hrow
      simpa [ht, hn] using htn
    rw [hnone, if_neg htn]
    rfl

/-- The ranges still tile every Session. -/
theorem LogOk.tiled_committed (h : LogOk db)
    (hsession : db.sessions c.tenantId c.sessionId = some session)
    (hversion : session.version = c.expectedVersion) (hevents : c.events ≠ [])
    (t : Uuid) (n : String) :
    Tiles 0 (((committed now ids completedIds c completed session db).rangesOf t n).map
        SessionEventsCommittedData.bounds)
      ((committed now ids completedIds c completed session db).versionOf t n) := by
  rw [rangesOf_committed]
  by_cases htn : t = c.tenantId ∧ n = c.sessionId
  · obtain ⟨rfl, rfl⟩ := htn
    have hold := h.tiled c.tenantId c.sessionId
    have hlen : 0 < c.events.length := List.length_pos_iff.mpr hevents
    rw [ExecutionDb.versionOf, hsession, Option.elim_some, hversion] at hold
    have hnew : (committed now ids completedIds c completed session db).versionOf c.tenantId
        c.sessionId = c.expectedVersion + c.events.length := by
      simp [ExecutionDb.versionOf, committed, appended]
    rw [hnew, if_pos ⟨rfl, rfl⟩, List.map_append]
    exact hold.append_singleton (Nat.lt_add_of_pos_right hlen)
  · have hv : (committed now ids completedIds c completed session db).versionOf t n
        = db.versionOf t n := by
      simp [ExecutionDb.versionOf, committed, appended, ExecutionDb.setEntry_of_ne _ _ htn]
    have hne : ¬ (c.tenantId = t ∧ c.sessionId = n) :=
      fun h => htn ⟨h.1.symm, h.2.symm⟩
    rw [hv, if_neg hne, List.append_nil]
    exact h.tiled t n

/-- The execution of the commit, and no other, gains a range and a
completion. -/
theorem LogOk.outcome_committed (h : LogOk db) (hc : Coherent False db)
    (ha : Agrees c completed db) {execution : AgentExecution}
    (hexec : db.executionByMessage c.tenantId c.idempotencyKey = some execution)
    (hstatus : execution.status ≠ .succeeded) {e : AgentExecution} (he : e ∈ db.executions) :
    ((committed now ids completedIds c completed session db).rangesFor e.tenantId e.id).length
        = (updateExecution.update (fun e => { e with status := .succeeded }) c.tenantId
          c.executionId e).status.commits
      ∧ ((committed now ids completedIds c completed session db).completionsFor e.tenantId
        e.id).length
        = (updateExecution.update (fun e => { e with status := .succeeded }) c.tenantId
          c.executionId e).status.commits := by
  obtain ⟨hr, hcp⟩ := h.outcome e he
  rw [ExecutionDb.rangesFor, ExecutionDb.completionsFor, ranges_committed,
    completions_committed, length_filter_concat, length_filter_concat]
  rw [ExecutionDb.rangesFor] at hr
  rw [ExecutionDb.completionsFor] at hcp
  rw [hr, hcp, ha.tenant, ha.execution]
  by_cases hkey : e.tenantId = c.tenantId ∧ e.id = c.executionId
  · have hzero : e.status.commits = 0 := by
      rw [ha.status hc h hexec he hkey.1 hkey.2]
      cases hs : execution.status with
      | succeeded => exact absurd hs hstatus
      | pending => rfl
      | failed => rfl
    rw [update_eq_of_eq hkey, hzero, hkey.1, hkey.2]
    simp [SessionCommit.range, ExecutionStatus.commits]
  · have hne : ¬ (c.tenantId = e.tenantId ∧ c.executionId = e.id) :=
      fun h => hkey ⟨h.1.symm, h.2.symm⟩
    rw [update_eq_of_ne hkey]
    simp [SessionCommit.range, hne]

/-- **A commit keeps the agreement.** -/
theorem LogOk.commit (h : LogOk db) (hc : Coherent False db) (ha : Agrees c completed db)
    (hsession : db.sessions c.tenantId c.sessionId = some session)
    (hversion : session.version = c.expectedVersion) (hevents : c.events ≠ [])
    {execution : AgentExecution}
    (hexec : db.executionByMessage c.tenantId c.idempotencyKey = some execution)
    (hstatus : execution.status ≠ .succeeded) :
    LogOk (committed now ids completedIds c completed session db) := by
  have hkeep : KeepsIdentity (fun e => { e with status := .succeeded }) := fun _ => rfl
  -- the rows are the old ones, statuses apart
  have hrow : ∀ e ∈ db.executions, ∃ e' ∈ (committed now ids completedIds c completed session
      db).executions, e'.identity = e.identity := by
    intro e he
    exact ⟨_, List.mem_map_of_mem he, identity_update hkeep _ _ e⟩
  refine ⟨?_, ?_, ?_, ?_, ?_, ?_, ?_⟩
  · have hids : (committed now ids completedIds c completed session db).executions.map
        (fun e => (e.tenantId, e.id)) = db.executions.map (fun e => (e.tenantId, e.id)) :=
      (aged_update hkeep c.tenantId c.executionId db).map_eq (fun _ => rfl)
    rw [hids]
    exact h.ids
  · intro x hx
    rw [requested_committed] at hx
    obtain ⟨e, he, ht, hi, hm, hs⟩ := h.requested x hx
    obtain ⟨e', he', hid⟩ := hrow e he
    obtain ⟨ht', hi', hm', -, hs', -⟩ := AgentExecution.of_identity hid
    exact ⟨e', he', ht'.trans ht, hi'.trans hi, hm'.trans hm, hs'.trans hs⟩
  · exact h.logged_committed
  · exact h.tiled_committed hsession hversion hevents
  · intro d hd
    rw [ranges_committed] at hd
    have hold : ∃ e ∈ db.executions, e.tenantId = d.tenantId ∧ e.id = d.executionId
        ∧ e.sessionId = d.sessionId := by
      rcases List.mem_append.mp hd with hd | hd
      · exact h.ranged d hd
      · obtain rfl := List.mem_singleton.mp hd
        obtain ⟨e, he, ht, hi, -, hs⟩ := ha.row
        exact ⟨e, he, ht, hi, hs⟩
    obtain ⟨e, he, ht, hi, hs⟩ := hold
    obtain ⟨e', he', hid⟩ := hrow e he
    obtain ⟨ht', hi', -, -, hs', -⟩ := AgentExecution.of_identity hid
    exact ⟨e', he', ht'.trans ht, hi'.trans hi, hs'.trans hs⟩
  · intro x hx
    rw [completions_committed] at hx
    have hold : ∃ e ∈ db.executions, (e.tenantId, e.id) = x := by
      rcases List.mem_append.mp hx with hx | hx
      · exact h.completed x hx
      · obtain rfl := List.mem_singleton.mp hx
        obtain ⟨e, he, ht, hi, -⟩ := ha.row
        exact ⟨e, he, by rw [ht, hi, ha.tenant, ha.execution]⟩
    obtain ⟨e, he, hx⟩ := hold
    obtain ⟨e', he', hid⟩ := hrow e he
    obtain ⟨ht', hi', -⟩ := AgentExecution.of_identity hid
    exact ⟨e', he', by rw [ht', hi', hx]⟩
  · intro e' he'
    obtain ⟨e, he, rfl⟩ := List.mem_map.mp he'
    obtain ⟨ht, hi, -⟩ := AgentExecution.of_identity
      (identity_update hkeep c.tenantId c.executionId e)
    rw [ht, hi]
    exact h.outcome_committed hc ha hexec hstatus he

end Commit

/-! ## The other transactions -/

/-- **An update that leaves outcomes alone keeps the agreement.** -/
theorem LogOk.update {db : ExecutionDb} (h : LogOk db) {f : AgentExecution → AgentExecution}
    (hf : KeepsIdentity f) (hcommits : ∀ e, (f e).status.commits = e.status.commits)
    (t id : Uuid) :
    LogOk { db with executions := db.executions.map (updateExecution.update f t id) } := by
  have hrow : ∀ e ∈ db.executions, ∃ e' ∈ db.executions.map (updateExecution.update f t id),
      e'.identity = e.identity := by
    intro e he
    exact ⟨_, List.mem_map_of_mem he, identity_update hf t id e⟩
  refine ⟨?_, ?_, h.logged, h.tiled, ?_, ?_, ?_⟩
  · rw [(aged_update hf t id db).map_eq (fun _ => rfl)]
    exact h.ids
  · intro x hx
    obtain ⟨e, he, ht, hi, hm, hs⟩ := h.requested x hx
    obtain ⟨e', he', hid⟩ := hrow e he
    obtain ⟨ht', hi', hm', -, hs', -⟩ := AgentExecution.of_identity hid
    exact ⟨e', he', ht'.trans ht, hi'.trans hi, hm'.trans hm, hs'.trans hs⟩
  · intro d hd
    obtain ⟨e, he, ht, hi, hs⟩ := h.ranged d hd
    obtain ⟨e', he', hid⟩ := hrow e he
    obtain ⟨ht', hi', -, -, hs', -⟩ := AgentExecution.of_identity hid
    exact ⟨e', he', ht'.trans ht, hi'.trans hi, hs'.trans hs⟩
  · intro x hx
    obtain ⟨e, he, hx⟩ := h.completed x hx
    obtain ⟨e', he', hid⟩ := hrow e he
    obtain ⟨ht', hi', -⟩ := AgentExecution.of_identity hid
    exact ⟨e', he', by rw [ht', hi', hx]⟩
  · intro e' he'
    obtain ⟨e, he, rfl⟩ := List.mem_map.mp he'
    obtain ⟨ht, hi, -⟩ := AgentExecution.of_identity (identity_update hf t id e)
    have hstatus : (updateExecution.update f t id e).status.commits = e.status.commits := by
      by_cases hkey : e.tenantId = t ∧ e.id = id
      · rw [update_eq_of_eq hkey, hcommits]
      · rw [update_eq_of_ne hkey]
    rw [ht, hi, hstatus]
    exact h.outcome e he

/-- Creating a Session keeps every version: a missing Session counts as being
at version 0. -/
theorem SessionEnsured.versionOf {sub : AgentExecutionSubmission} {db db' : ExecutionDb}
    (h : SessionEnsured sub db db') (t : Uuid) (n : String) :
    db'.versionOf t n = db.versionOf t n := by
  unfold ExecutionDb.versionOf
  by_cases htn : t = sub.tenantId ∧ n = sub.sessionId
  · obtain ⟨rfl, rfl⟩ := htn
    cases hdb : db.sessions sub.tenantId sub.sessionId with
    | some row => rw [h.sessions _ _ _ hdb]
    | none =>
      rcases h.own with hown | hown
      · rw [hown, hdb]
      · rw [hown]
        rfl
  · rw [h.others t n htn]

/-- Creating a Session keeps the agreement. -/
theorem LogOk.ensured {sub : AgentExecutionSubmission} {db db' : ExecutionDb} (h : LogOk db)
    (hs : SessionEnsured sub db db') : LogOk db' := by
  have hranges : db'.ranges = db.ranges := by simp only [ExecutionDb.ranges, hs.outbox]
  have hcompletions : db'.completions = db.completions := by
    simp only [ExecutionDb.completions, hs.outbox]
  have hrequested : db'.requested = db.requested := by
    simp only [ExecutionDb.requested, hs.outbox]
  refine ⟨?_, ?_, fun t n => ?_, fun t n => ?_, ?_, ?_, ?_⟩
  · rw [hs.executions]
    exact h.ids
  · rw [hrequested, hs.executions]
    exact h.requested
  · rw [ExecutionDb.eventsOf, hs.events, ExecutionDb.rangesOf, hranges]
    exact h.logged t n
  · rw [hs.versionOf, ExecutionDb.rangesOf, hranges]
    exact h.tiled t n
  · rw [hranges, hs.executions]
    exact h.ranged
  · rw [hcompletions, hs.executions]
    exact h.completed
  · intro e he
    rw [hs.executions] at he
    rw [ExecutionDb.rangesFor, hranges, ExecutionDb.completionsFor, hcompletions]
    exact h.outcome e he

/-- An execution nothing has been logged for joins the agreement. -/
theorem LogOk.newExecution {db db' : ExecutionDb} (h : LogOk db) {row : AgentExecution}
    {rec : OutboxRecord} {m : String} {data : ExecutionRequestedData}
    (hsessions : db'.sessions = db.sessions) (hevents : db'.events = db.events)
    (hexecutions : db'.executions = db.executions ++ [row])
    (houtbox : db'.outbox = db.outbox ++ [rec]) (hstatus : row.status = .pending)
    (hfresh : ∀ e ∈ db.executions, ¬ (e.tenantId = row.tenantId ∧ e.id = row.id))
    (hrange : rec.range? = none) (hcompleted : rec.completed? = none)
    (hrequested : rec.requested? = some (m, data))
    (hdata : row.tenantId = data.tenantId ∧ row.id = data.executionId ∧ row.messageId = m
      ∧ row.sessionId = data.sessionId) : LogOk db' := by
  have hranges : db'.ranges = db.ranges := by
    simp [ExecutionDb.ranges, houtbox, hrange]
  have hcompletions : db'.completions = db.completions := by
    simp [ExecutionDb.completions, houtbox, hcompleted]
  have hreq : db'.requested = db.requested ++ [(m, data)] := by
    simp [ExecutionDb.requested, houtbox, hrequested]
  have hold : ∀ e ∈ db.executions, e ∈ db'.executions := by
    intro e he
    rw [hexecutions]
    exact List.mem_append_left _ he
  refine ⟨?_, ?_, fun t n => ?_, fun t n => ?_, ?_, ?_, ?_⟩
  · rw [hexecutions, List.map_append]
    refine List.nodup_append.mpr ⟨h.ids, by simp, ?_⟩
    rintro _ hx _ hy rfl
    obtain ⟨e, he, hxe⟩ := List.mem_map.mp hx
    obtain ⟨ht, hi⟩ := Prod.mk.inj (hxe.trans (List.mem_singleton.mp hy))
    exact hfresh e he ⟨ht, hi⟩
  · intro x hx
    rw [hreq] at hx
    rcases List.mem_append.mp hx with hx | hx
    · obtain ⟨e, he, hrest⟩ := h.requested x hx
      exact ⟨e, hold e he, hrest⟩
    · obtain rfl := List.mem_singleton.mp hx
      exact ⟨row, by simp [hexecutions], hdata⟩
  · rw [ExecutionDb.eventsOf, hevents, ExecutionDb.rangesOf, hranges]
    exact h.logged t n
  · rw [ExecutionDb.versionOf, hsessions, ExecutionDb.rangesOf, hranges]
    exact h.tiled t n
  · intro d hd
    rw [hranges] at hd
    obtain ⟨e, he, hrest⟩ := h.ranged d hd
    exact ⟨e, hold e he, hrest⟩
  · intro x hx
    rw [hcompletions] at hx
    obtain ⟨e, he, hrest⟩ := h.completed x hx
    exact ⟨e, hold e he, hrest⟩
  · intro e he
    rw [ExecutionDb.rangesFor, hranges, ExecutionDb.completionsFor, hcompletions]
    rw [hexecutions] at he
    rcases List.mem_append.mp he with he | he
    · exact h.outcome e he
    · -- no range and no completion can name an execution that did not exist
      obtain rfl := List.mem_singleton.mp he
      have hr : db.ranges.filter (fun d => d.tenantId = e.tenantId ∧ d.executionId = e.id)
          = [] := by
        refine List.filter_eq_nil_iff.mpr (fun d hd hkey => ?_)
        obtain ⟨e', he', ht, hi, -⟩ := h.ranged d hd
        simp only [decide_eq_true_eq] at hkey
        exact hfresh e' he' ⟨ht.trans hkey.1, hi.trans hkey.2⟩
      have hc : db.completions.filter (fun x => x = (e.tenantId, e.id)) = [] := by
        refine List.filter_eq_nil_iff.mpr (fun x hx hkey => ?_)
        obtain ⟨e', he', hxe⟩ := h.completed x hx
        simp only [decide_eq_true_eq] at hkey
        obtain ⟨ht, hi⟩ := Prod.mk.inj (hxe.trans hkey)
        exact hfresh e' he' ⟨ht, hi⟩
      rw [hr, hc, hstatus]
      exact ⟨rfl, rfl⟩

/-- **Every batch of a submission keeps the agreement.** -/
theorem LogOk.enters {strict : Prop} {sha256 : String → String}
    {sub : AgentExecutionSubmission} {m : String} {db : ExecutionDb} {ws : List GatewayWrite}
    (h : LogOk db) (he : Enters strict sha256 sub m db ws) :
    LogOk (gatewayEngine.applyAll ws db) := by
  cases he with
  | nothing => exact h
  | bucket b => exact h.congr rfl rfl rfl rfl
  | session b => exact h.ensured (sessionEnsured_apply sub db b)
  | execution b releaseId id outboxId classification now hmessage hid happ hfresh =>
    rw [Engine.applyAll_append]
    have hs := sessionEnsured_apply sub db b
    refine (h.ensured hs).newExecution (m := m) rfl rfl rfl rfl rfl ?_ rfl rfl rfl
      ⟨rfl, rfl, rfl, rfl⟩
    rw [hs.executions]
    exact hid

/-! ## Reading the agreement -/

/-- **The sequence numbers of a Session are `1, …, version`.** -/
theorem LogOk.sequences {db : ExecutionDb} (h : LogOk db) (t : Uuid) (n : String) :
    (db.eventsOf t n).map (·.sequence) = List.range' 1 (db.versionOf t n) := by
  have hseq : (db.eventsOf t n).map (·.sequence)
      = ((db.eventsOf t n).map SessionEventRow.mark).map Prod.fst := by
    rw [List.map_map]
    rfl
  have hblocks : ∀ l : List SessionEventsCommittedData,
      (l.flatMap SessionEventsCommittedData.block).map Prod.fst
        = (l.map SessionEventsCommittedData.bounds).flatMap positions := by
    intro l
    rw [List.map_flatMap, List.flatMap_map]
    refine List.flatMap_congr (fun d _ => ?_)
    rw [SessionEventsCommittedData.block, List.map_map]
    exact List.map_id _
  rw [hseq, h.logged, hblocks, (h.tiled t n).flatMap_positions, Nat.sub_zero]

/-- The blocks of one execution, among those of a Session. -/
theorem filter_flatMap_block (l : List SessionEventsCommittedData) (id : Uuid) :
    ((l.flatMap SessionEventsCommittedData.block).filter (fun x => x.2 = id)).map Prod.fst
      = (l.filter (fun d => d.executionId = id)).flatMap (fun d => positions d.bounds) := by
  induction l with
  | nil => rfl
  | cons d l ih =>
    rw [List.flatMap_cons, List.filter_append, List.map_append, ih]
    by_cases hd : d.executionId = id
    · simp [SessionEventsCommittedData.block, List.filter_map, Function.comp_def, hd]
    · simp [SessionEventsCommittedData.block, List.filter_map, Function.comp_def, hd]

/-- What is logged for an execution is logged in its Session. -/
theorem LogOk.session_of_range {db : ExecutionDb} (h : LogOk db) {e : AgentExecution}
    (he : e ∈ db.executions) {d : SessionEventsCommittedData} (hd : d ∈ db.ranges)
    (ht : d.tenantId = e.tenantId) (hi : d.executionId = e.id) :
    d.sessionId = e.sessionId := by
  obtain ⟨e', he', ht', hi', hs'⟩ := h.ranged d hd
  have hee : e' = e := List.inj_on_of_nodup_map h.ids he' he (by rw [ht', hi', ht, hi])
  rw [← hs', hee]

theorem LogOk.session_of_event {db : ExecutionDb} (h : LogOk db) {e : AgentExecution}
    (he : e ∈ db.executions) {v : SessionEventRow} (hv : v ∈ db.events)
    (ht : v.tenantId = e.tenantId) (hi : v.executionId = e.id) :
    v.sessionId = e.sessionId := by
  have hmem : v.mark ∈ (db.eventsOf v.tenantId v.sessionId).map SessionEventRow.mark :=
    List.mem_map_of_mem (List.mem_filter.mpr ⟨hv, by simp⟩)
  rw [h.logged] at hmem
  obtain ⟨d, hd, hvd⟩ := List.mem_flatMap.mp hmem
  obtain ⟨hdr, hkey⟩ := List.mem_filter.mp hd
  simp only [decide_eq_true_eq] at hkey
  obtain ⟨i, -, hmark⟩ := List.mem_map.mp hvd
  have hid : d.executionId = v.executionId := congrArg Prod.snd hmark
  rw [← hkey.2]
  exact h.session_of_range he hdr (hkey.1.trans ht) (hid.trans hi)

/-- **The events of an execution are those of its ranges**, in its Session. -/
theorem LogOk.eventsFor {db : ExecutionDb} (h : LogOk db) {e : AgentExecution}
    (he : e ∈ db.executions) :
    (db.eventsFor e.tenantId e.id).map (fun v => (v.sessionId, v.sequence))
      = ((db.rangesFor e.tenantId e.id).flatMap (fun d => positions d.bounds)).map
        (fun i => (e.sessionId, i)) := by
  have hevents : db.eventsFor e.tenantId e.id
      = (db.eventsOf e.tenantId e.sessionId).filter (fun v => v.executionId = e.id) := by
    rw [ExecutionDb.eventsFor, ExecutionDb.eventsOf, List.filter_filter]
    refine List.filter_congr (fun v hv => ?_)
    by_cases hkey : v.tenantId = e.tenantId ∧ v.executionId = e.id
    · simp [hkey, h.session_of_event he hv hkey.1 hkey.2]
    · by_cases ht : v.tenantId = e.tenantId
      · simp [ht, not_and.mp hkey ht]
      · simp [ht]
  have hranges : db.rangesFor e.tenantId e.id
      = (db.rangesOf e.tenantId e.sessionId).filter (fun d => d.executionId = e.id) := by
    rw [ExecutionDb.rangesFor, ExecutionDb.rangesOf, List.filter_filter]
    refine List.filter_congr (fun d hd => ?_)
    by_cases hkey : d.tenantId = e.tenantId ∧ d.executionId = e.id
    · simp [hkey, h.session_of_range he hd hkey.1 hkey.2]
    · by_cases ht : d.tenantId = e.tenantId
      · simp [ht, not_and.mp hkey ht]
      · simp [ht]
  have hsess : ∀ v ∈ db.eventsFor e.tenantId e.id, v.sessionId = e.sessionId := by
    intro v hv
    obtain ⟨hmem, hkey⟩ := List.mem_filter.mp hv
    simp only [decide_eq_true_eq] at hkey
    exact h.session_of_event he hmem hkey.1 hkey.2
  calc (db.eventsFor e.tenantId e.id).map (fun v => (v.sessionId, v.sequence))
      = ((db.eventsFor e.tenantId e.id).map (·.sequence)).map (fun i => (e.sessionId, i)) := by
        rw [List.map_map]
        exact List.map_congr_left (fun v hv => by rw [hsess v hv]; rfl)
    _ = _ := by
        rw [hranges, ← filter_flatMap_block, ← h.logged, hevents, List.filter_map]
        simp only [List.map_map]
        rfl

/-- **An execution has one block of events, or none.** -/
theorem LogOk.block {db : ExecutionDb} (h : LogOk db) {e : AgentExecution}
    (he : e ∈ db.executions) :
    (e.status ≠ .succeeded ∧ db.rangesFor e.tenantId e.id = []
        ∧ db.completionsFor e.tenantId e.id = [] ∧ db.eventsFor e.tenantId e.id = [])
      ∨ (e.status = .succeeded ∧ (db.completionsFor e.tenantId e.id).length = 1
        ∧ ∃ d, db.rangesFor e.tenantId e.id = [d] ∧ d.fromVersion < d.toVersion
          ∧ (db.eventsFor e.tenantId e.id).map (fun v => (v.sessionId, v.sequence))
            = (positions d.bounds).map (fun i => (e.sessionId, i))) := by
  obtain ⟨hr, hc⟩ := h.outcome e he
  have hevents := h.eventsFor he
  by_cases hs : e.status = .succeeded
  · rw [hs] at hr hc
    obtain ⟨d, hd⟩ := List.length_eq_one_iff.mp hr
    refine .inr ⟨hs, hc, d, hd, ?_, ?_⟩
    · have hmem : d ∈ db.rangesFor e.tenantId e.id := by simp [hd]
      obtain ⟨hdr, hkey⟩ := List.mem_filter.mp hmem
      have hof : d ∈ db.rangesOf d.tenantId d.sessionId :=
        List.mem_filter.mpr ⟨hdr, by simp⟩
      exact (h.tiled d.tenantId d.sessionId).lt_of_mem (List.mem_map_of_mem hof)
    · rw [hevents, hd, List.flatMap_singleton]
  · have hzero : e.status.commits = 0 := by
      cases hst : e.status with
      | succeeded => exact absurd hst hs
      | pending => rfl
      | failed => rfl
    rw [hzero] at hr hc
    have hnil := List.length_eq_zero_iff.mp hr
    refine .inl ⟨hs, hnil, List.length_eq_zero_iff.mp hc, ?_⟩
    rw [hnil] at hevents
    exact List.map_eq_nil_iff.mp hevents
