import AgentPlatform.AgentGateway

/-!
# Concurrent submissions

`submitters` is the system of any number of `AgentExecutionSubmitter.submit`
calls running at once, statement by statement, with lost connections, lost
commit acknowledgements and crashes at any point, while workers move
executions from one status to another. This module finds what such a run
keeps.

The argument rests on the advisory lock of the admission function. A
submission writes nothing before it holds the lock, and holds it until its
transaction ends (`Consistent.serial`); so whoever holds the lock sees the
executions, Sessions and Outbox records exactly as they will be when it
commits (`Undisturbed.held`), up to the status of executions. What a
transaction is about to commit is one of four batches of writes, `Enters`, and
each keeps the committed tables coherent: one request in the Outbox for each
execution, in the same order, and one execution for each message.

`submission_discipline` packages this for the rely-guarantee rule, with a
parameter `strict` for the runs in which a submission never meets a Session of
another application.
-/

/-- The database of the gateway under transactions. -/
abbrev GatewayState := TxState ExecutionDb GatewayWrite GatewayRow Unit

/-- The columns of an execution row that no statement changes. -/
def AgentExecution.identity (e : AgentExecution) : AgentExecution :=
  { e with status := .pending, knowledgeRevisionIds := [] }

/-- The request an execution row stands for: tenant, message and execution. -/
def AgentExecution.request (e : AgentExecution) : Uuid × String × Uuid :=
  (e.tenantId, e.messageId, e.id)

/-- The request an Outbox record carries, if it is one. -/
def OutboxRecord.request? (r : OutboxRecord) : Option (Uuid × String × Uuid) :=
  match r.payload with
  | .executionRequested data => some (r.tenantId, r.messageId, data.executionId)
  | _ => none

/-- The requests in the Outbox. -/
def ExecutionDb.requests (db : ExecutionDb) : List (Uuid × String × Uuid) :=
  db.outbox.filterMap OutboxRecord.request?

/-- A worker's `UPDATE tenant.agent_execution SET status`. -/
structure StatusUpdate where
  tenantId : Uuid
  id : Uuid
  status : ExecutionStatus

/-- The effect of a status update. -/
def setExecutionStatus (u : StatusUpdate) (db : ExecutionDb) : ExecutionDb :=
  { db with
    executions := db.executions.map (fun e =>
      if e.tenantId = u.tenantId ∧ e.id = u.id then { e with status := u.status } else e) }

/-- **Any number of submissions at once.** A crash rolls the transaction of
the call back. -/
def submitters (sha256 : String → String) (policy : CapacityPolicy) :
    Pool (TxOp SubmitOp) (TxRes SubmitRes) PyException (Choice GatewayAnswer) GatewayState
      AgentExecutionSubmission AgentExecutionAccepted StatusUpdate where
  handler := gatewayEngine.handler
  body := submit sha256 policy
  abandon := fun pid s => Engine.close s pid
  env := fun u s => some { s with committed := setExecutionStatus u s.committed }

/-- The gateway starts on an empty database. -/
def gatewayStart (s : GatewayState) : Prop :=
  ∃ now, s = Engine.quiet (ExecutionDb.empty now) ()

/-- The message id a submission is entered under: its own, or a drawn one. -/
def AgentExecutionSubmission.UsesMessage (sub : AgentExecutionSubmission) (m : String) : Prop :=
  sub.messageId = some m ∨ (sub.messageId = none ∧ ∃ u : Uuid, m = u.str)

/-! ## What the tables keep -/

/-- **Coherent tables**: the Outbox requests are those of the executions, in
order, a message has one execution, and – in a strict run – an execution has
the application of its Session. -/
structure Coherent (strict : Prop) (db : ExecutionDb) : Prop where
  paired : db.requests = db.executions.map AgentExecution.request
  unique : (db.executions.map (fun e => (e.tenantId, e.messageId))).Nodup
  belongs : strict → ∀ e ∈ db.executions, ∃ row,
    db.sessions e.tenantId e.sessionId = some row ∧ row.applicationId = e.applicationId

/-- **Only statuses changed.** -/
structure Aged (db db' : ExecutionDb) : Prop where
  sessions : db'.sessions = db.sessions
  outbox : db'.outbox = db.outbox
  executions : db'.executions.map AgentExecution.identity
    = db.executions.map AgentExecution.identity

/-- No execution was lost or altered, statuses apart. -/
def Kept (db db' : ExecutionDb) : Prop :=
  ∀ e ∈ db.executions, ∃ e' ∈ db'.executions, e'.identity = e.identity

theorem Aged.refl (db : ExecutionDb) : Aged db db := ⟨rfl, rfl, rfl⟩

theorem Aged.trans {a b c : ExecutionDb} (h : Aged a b) (h' : Aged b c) : Aged a c :=
  ⟨h'.sessions.trans h.sessions, h'.outbox.trans h.outbox, h'.executions.trans h.executions⟩

theorem Aged.symm {a b : ExecutionDb} (h : Aged a b) : Aged b a :=
  ⟨h.sessions.symm, h.outbox.symm, h.executions.symm⟩

theorem Aged.kept {a b : ExecutionDb} (h : Aged a b) : Kept a b := by
  intro e he
  have hmem : e.identity ∈ b.executions.map AgentExecution.identity := by
    rw [h.executions]
    exact List.mem_map_of_mem he
  obtain ⟨e', he', hid⟩ := List.mem_map.mp hmem
  exact ⟨e', he', hid⟩

theorem Kept.refl (db : ExecutionDb) : Kept db db := fun e he => ⟨e, he, rfl⟩

theorem Kept.trans {a b c : ExecutionDb} (h : Kept a b) (h' : Kept b c) : Kept a c := by
  intro e he
  obtain ⟨e₁, he₁, hid₁⟩ := h e he
  obtain ⟨e₂, he₂, hid₂⟩ := h' e₁ he₁
  exact ⟨e₂, he₂, hid₂.trans hid₁⟩

/-- Equal identities agree on every column that is compared. -/
theorem AgentExecution.of_identity {e e' : AgentExecution} (h : e'.identity = e.identity) :
    e'.tenantId = e.tenantId ∧ e'.id = e.id ∧ e'.messageId = e.messageId
      ∧ e'.payloadHash = e.payloadHash ∧ e'.sessionId = e.sessionId
      ∧ e'.applicationId = e.applicationId := by
  simp only [AgentExecution.identity, AgentExecution.mk.injEq] at h
  obtain ⟨ht, hi, ha, -, -, hs, -, -, hm, hp, -, -⟩ := h
  exact ⟨ht, hi, hm, hp, hs, ha⟩

/-- A column that is a function of the identity is the same after aging. -/
theorem Aged.map_eq {α : Type} {f : AgentExecution → α}
    (hf : ∀ e, f e.identity = f e) {a b : ExecutionDb} (h : Aged a b) :
    b.executions.map f = a.executions.map f := by
  have hcomp : ∀ l : List AgentExecution, l.map f = (l.map AgentExecution.identity).map f := by
    intro l
    rw [List.map_map]
    exact List.map_congr_left (fun e _ => (hf e).symm)
  rw [hcomp, h.executions, ← hcomp]

theorem Coherent.aged {strict : Prop} {a b : ExecutionDb} (hc : Coherent strict a)
    (h : Aged a b) : Coherent strict b := by
  refine ⟨?_, ?_, fun hst e he => ?_⟩
  · have hr : b.requests = a.requests := by
      simp only [ExecutionDb.requests, h.outbox]
    rw [hr, hc.paired, h.map_eq (fun _ => rfl)]
  · rw [h.map_eq (fun _ => rfl)]
    exact hc.unique
  · obtain ⟨e', he', hid⟩ := h.symm.kept e he
    obtain ⟨ht, -, -, -, hs, ha⟩ := AgentExecution.of_identity hid
    obtain ⟨row, hrow, happ⟩ := hc.belongs hst e' he'
    refine ⟨row, ?_, happ.trans ha⟩
    rw [h.sessions, ← ht, ← hs]
    exact hrow

/-- A worker's status update changes statuses only. -/
theorem aged_setExecutionStatus (u : StatusUpdate) (db : ExecutionDb) :
    Aged db (setExecutionStatus u db) := by
  refine ⟨rfl, rfl, ?_⟩
  simp only [setExecutionStatus, List.map_map]
  refine List.map_congr_left (fun e _ => ?_)
  simp only [Function.comp_apply]
  split <;> rfl

/-! ## What a transaction is about to commit -/

section Batches

variable (strict : Prop) (sha256 : String → String) (sub : AgentExecutionSubmission)
  (m : String)

/-- **The batches of writes a submission commits**, on the committed database
`db`: nothing, a new bucket, a bucket and the Session it found missing, or
these with the execution and its request. -/
inductive Enters (db : ExecutionDb) : List GatewayWrite → Prop
  | nothing : Enters db []
  | bucket (b : AdmissionBucket) : Enters db [.setBucket b]
  | session (b : AdmissionBucket) :
      Enters db (.setBucket b
        :: sessionWrites db sub.tenantId sub.applicationId sub.sessionId)
  | execution (b : AdmissionBucket) (releaseId id outboxId : Uuid)
      (classification : Option DataClassification) (now : Timestamp)
      (hmessage : ∀ e ∈ db.executions, ¬ (e.tenantId = sub.tenantId ∧ e.messageId = m))
      (hid : ∀ e ∈ db.executions, ¬ (e.tenantId = sub.tenantId ∧ e.id = id))
      (happ : strict → ∀ row, db.sessions sub.tenantId sub.sessionId = some row →
        row.applicationId = sub.applicationId)
      (hfresh : db.outboxFresh
        (requestedRecord sub releaseId id outboxId m classification now) = true) :
      Enters db (.setBucket b
        :: sessionWrites db sub.tenantId sub.applicationId sub.sessionId
        ++ [GatewayWrite.insertExecution (newExecution sub releaseId id m (payloadHash sha256 sub)),
          .insertOutbox (requestedRecord sub releaseId id outboxId m classification now)])

/-- **The submission is stored** under its message, as the execution `id`. -/
def Stored (id : Uuid) (db : ExecutionDb) : Prop :=
  ∃ e ∈ db.executions, e.tenantId = sub.tenantId ∧ e.messageId = m ∧ e.id = id
    ∧ e.payloadHash = payloadHash sha256 sub

/-- The message of the submission has no execution. -/
def Unstored (db : ExecutionDb) : Prop :=
  ∀ e ∈ db.executions, ¬ (e.tenantId = sub.tenantId ∧ e.messageId = m)

/-- No Session of another application stands where the submission goes. -/
def SessionFits (db : ExecutionDb) : Prop :=
  ∀ row, db.sessions sub.tenantId sub.sessionId = some row →
    row.applicationId = sub.applicationId

end Batches

section Facts

variable {strict : Prop} {sha256 : String → String} {sub : AgentExecutionSubmission}
  {m : String}

theorem Stored.kept {id : Uuid} {a b : ExecutionDb} (h : Stored sha256 sub m id a)
    (hk : Kept a b) : Stored sha256 sub m id b := by
  obtain ⟨e, he, ht, hm, hi, hp⟩ := h
  obtain ⟨e', he', hid⟩ := hk e he
  obtain ⟨ht', hi', hm', hp', -, -⟩ := AgentExecution.of_identity hid
  exact ⟨e', he', ht'.trans ht, hm'.trans hm, hi'.trans hi, hp'.trans hp⟩

/-- A fact that no execution has, is kept by aging. -/
theorem Aged.none {f : AgentExecution → Prop}
    (hf : ∀ e e' : AgentExecution, e'.identity = e.identity → f e → f e') {a b : ExecutionDb}
    (h : Aged a b) (hn : ∀ e ∈ a.executions, ¬ f e) : ∀ e ∈ b.executions, ¬ f e := by
  intro e he hfe
  obtain ⟨e', he', hid⟩ := h.symm.kept e he
  exact hn e' he' (hf e e' hid hfe)

theorem Unstored.aged {a b : ExecutionDb} (h : Unstored sub m a) (ha : Aged a b) :
    Unstored sub m b := by
  refine ha.none (fun e e' hid hfe => ?_) h
  obtain ⟨ht, -, hm, -⟩ := AgentExecution.of_identity hid
  exact ⟨ht.trans hfe.1, hm.trans hfe.2⟩

theorem SessionFits.aged {a b : ExecutionDb} (h : SessionFits sub a) (ha : Aged a b) :
    SessionFits sub b := by
  unfold SessionFits
  rw [ha.sessions]
  exact h

/-- The Session a submission writes depends on the Session table alone. -/
theorem sessionWrites_aged {a b : ExecutionDb} (h : Aged a b) (t app : Uuid) (n : String) :
    sessionWrites b t app n = sessionWrites a t app n := by
  simp only [sessionWrites, h.sessions]

theorem Enters.aged {a b : ExecutionDb} {ws : List GatewayWrite}
    (h : Enters strict sha256 sub m a ws) (ha : Aged a b) :
    Enters strict sha256 sub m b ws := by
  cases h with
  | nothing => exact .nothing
  | bucket bk => exact .bucket bk
  | session bk =>
    rw [← sessionWrites_aged ha]
    exact .session bk
  | execution bk releaseId id outboxId classification now hmessage hid happ hfresh =>
    rw [← sessionWrites_aged ha]
    refine .execution bk releaseId id outboxId classification now
      (Unstored.aged hmessage ha) ?_ (fun hst => SessionFits.aged (happ hst) ha) ?_
    · refine ha.none (fun e e' hid' hfe => ?_) hid
      obtain ⟨ht, hi, -⟩ := AgentExecution.of_identity hid'
      exact ⟨ht.trans hfe.1, hi.trans hfe.2⟩
    · simpa only [ExecutionDb.outboxFresh, ha.outbox] using hfresh

/-! ### Committing a batch -/

/-- What `create_session_if_missing` leaves: the Sessions as they were, and
the Session of the submission. -/
structure SessionEnsured (sub : AgentExecutionSubmission) (db db' : ExecutionDb) : Prop where
  sessions : ∀ t n row, db.sessions t n = some row → db'.sessions t n = some row
  own : db'.sessions sub.tenantId sub.sessionId = db.sessions sub.tenantId sub.sessionId
    ∨ db'.sessions sub.tenantId sub.sessionId
      = some ⟨sub.tenantId, sub.applicationId, sub.sessionId, 0⟩
  present : (db'.sessions sub.tenantId sub.sessionId).isSome = true
  others : ∀ t n, ¬ (t = sub.tenantId ∧ n = sub.sessionId) →
    db'.sessions t n = db.sessions t n
  events : db'.events = db.events
  executions : db'.executions = db.executions
  outbox : db'.outbox = db.outbox

/-- Applying the writes of `create_session_if_missing`. -/
theorem sessionEnsured_apply (sub : AgentExecutionSubmission) (db : ExecutionDb)
    (b : AdmissionBucket) :
    SessionEnsured sub db (gatewayEngine.applyAll (.setBucket b
      :: sessionWrites db sub.tenantId sub.applicationId sub.sessionId) db) := by
  unfold sessionWrites
  split
  · rename_i row hrow
    exact ⟨fun t n r h => h, .inl rfl, by simp [Engine.applyAll, gatewayEngine,
      GatewayWrite.apply, hrow], fun _ _ _ => rfl, rfl, rfl, rfl⟩
  · rename_i hrow
    refine ⟨fun t n r h => ?_, .inr ?_, ?_, fun t n hne => ?_, rfl, rfl, rfl⟩
    · have hne : ¬ (t = sub.tenantId ∧ n = sub.sessionId) := by
        rintro ⟨rfl, rfl⟩
        rw [hrow] at h
        cases h
      simp [Engine.applyAll, gatewayEngine, GatewayWrite.apply,
        ExecutionDb.setEntry_of_ne _ _ hne, h]
    · simp [Engine.applyAll, gatewayEngine, GatewayWrite.apply]
    · simp [Engine.applyAll, gatewayEngine, GatewayWrite.apply]
    · simp [Engine.applyAll, gatewayEngine, GatewayWrite.apply,
        ExecutionDb.setEntry_of_ne _ _ hne]

/-- Batches without an execution keep the tables coherent. -/
theorem SessionEnsured.coherent {db db' : ExecutionDb} (h : SessionEnsured sub db db')
    (hc : Coherent strict db) : Coherent strict db' := by
  refine ⟨?_, ?_, fun hst e he => ?_⟩
  · simp only [ExecutionDb.requests, h.outbox, h.executions]
    exact hc.paired
  · rw [h.executions]
    exact hc.unique
  · rw [h.executions] at he
    obtain ⟨row, hrow, happ⟩ := hc.belongs hst e he
    exact ⟨row, h.sessions _ _ _ hrow, happ⟩

/-- **Every batch keeps the tables coherent.** -/
theorem Enters.coherent {db : ExecutionDb} {ws : List GatewayWrite}
    (h : Enters strict sha256 sub m db ws) (hc : Coherent strict db) :
    Coherent strict (gatewayEngine.applyAll ws db) := by
  cases h with
  | nothing => exact hc
  | bucket b => exact ⟨hc.paired, hc.unique, hc.belongs⟩
  | session b => exact (sessionEnsured_apply sub db b).coherent hc
  | execution b releaseId id outboxId classification now hmessage hid happ hfresh =>
    rw [Engine.applyAll_append]
    have hs := sessionEnsured_apply sub db b
    generalize hdb₁ : gatewayEngine.applyAll (.setBucket b
      :: sessionWrites db sub.tenantId sub.applicationId sub.sessionId) db = db₁ at hs
    have hc₁ := hs.coherent hc
    refine ⟨?_, ?_, fun hst e he => ?_⟩
    · have hp := hc₁.paired
      simp only [ExecutionDb.requests] at hp
      simp [Engine.applyAll, gatewayEngine, GatewayWrite.apply, ExecutionDb.requests, hp,
        OutboxRecord.request?, requestedRecord, AgentExecution.request, newExecution]
    · have hu := hc₁.unique
      have hn : ∀ e ∈ db₁.executions, ¬ (e.tenantId = sub.tenantId ∧ e.messageId = m) := by
        rw [hs.executions]
        exact hmessage
      simp only [Engine.applyAll, gatewayEngine, GatewayWrite.apply, List.foldl_cons,
        List.foldl_nil, List.map_append, List.map_cons, List.map_nil, newExecution]
      refine List.nodup_append.mpr ⟨hu, by simp, ?_⟩
      rintro _ hx _ hy rfl
      obtain ⟨e, he, hxe⟩ := List.mem_map.mp hx
      obtain ⟨ht, hm⟩ := Prod.mk.inj (hxe.trans (List.mem_singleton.mp hy))
      exact hn e he ⟨ht, hm⟩
    · simp only [Engine.applyAll, gatewayEngine, GatewayWrite.apply, List.foldl_cons,
        List.foldl_nil] at he ⊢
      rcases List.mem_append.mp he with he | he
      · exact hc₁.belongs hst e he
      · obtain rfl := List.mem_singleton.mp he
        simp only [newExecution]
        rcases hs.own with hown | hown
        · obtain ⟨row, hrow⟩ := Option.isSome_iff_exists.mp hs.present
          exact ⟨row, hrow, happ hst row (hown ▸ hrow)⟩
        · exact ⟨_, hown, rfl⟩

/-- No batch loses an execution. -/
theorem Enters.kept {db : ExecutionDb} {ws : List GatewayWrite}
    (h : Enters strict sha256 sub m db ws) : Kept db (gatewayEngine.applyAll ws db) := by
  cases h with
  | nothing => exact .refl db
  | bucket b => exact .refl db
  | session b =>
    intro e he
    exact ⟨e, by rw [(sessionEnsured_apply sub db b).executions]; exact he, rfl⟩
  | execution b releaseId id outboxId classification now hmessage hid happ hfresh =>
    intro e he
    refine ⟨e, ?_, rfl⟩
    rw [Engine.applyAll_append]
    have hs := (sessionEnsured_apply sub db b).executions
    exact List.mem_append_left _ (by rw [hs]; exact he)

end Facts

/-! ## What a run keeps -/

/-- **The invariant of the gateway**: whoever has written something holds the
admission lock, and the committed tables are coherent. -/
structure Consistent (strict : Prop) (s : GatewayState) : Prop where
  serial : ∀ q ws, s.pending q = some ws → ws ≠ [] →
    s.holder .admissionLock = some q
  coherent : Coherent strict s.committed

/-- **What a submission relies on the others to do**: leave its transaction
alone, lose no execution, and touch nothing but statuses while it holds the
admission lock. -/
structure Undisturbed (pid : ℕ) (s s' : GatewayState) : Prop where
  pending : s'.pending pid = s.pending pid
  lock : s'.holder .admissionLock = some pid ↔ s.holder .admissionLock = some pid
  held : s.holder .admissionLock = some pid → Aged s.committed s'.committed
  kept : Kept s.committed s'.committed
  log : s'.log.filter (fun c => c.pid = pid) = s.log.filter (fun c => c.pid = pid)

theorem Undisturbed.refl (pid : ℕ) (s : GatewayState) : Undisturbed pid s s :=
  ⟨rfl, Iff.rfl, fun _ => .refl _, .refl _, rfl⟩

theorem Undisturbed.trans {pid : ℕ} {a b c : GatewayState} (h : Undisturbed pid a b)
    (h' : Undisturbed pid b c) : Undisturbed pid a c :=
  ⟨h'.pending.trans h.pending, h'.lock.trans h.lock,
    fun hl => (h.held hl).trans (h'.held (h.lock.mpr hl)), h.kept.trans h'.kept,
    h'.log.trans h.log⟩

/-- What a request of `pid` owes the others. -/
def Owes (strict : Prop) (pid : ℕ) (s s' : GatewayState) : Prop :=
  Consistent strict s' ∧ ∀ q, q ≠ pid → Undisturbed q s s'

section Owing

variable {strict : Prop} {pid : ℕ} {s : GatewayState}

theorem Owes.same (h : Consistent strict s) : Owes strict pid s s :=
  ⟨h, fun q _ => .refl q s⟩

/-- Opening a transaction. -/
theorem Owes.opened (h : Consistent strict s) (hp : s.pending pid = none) :
    Owes strict pid s (Engine.opened s pid) := by
  refine ⟨⟨fun q ws hq hne => ?_, h.coherent⟩, fun q hq => ?_⟩
  · by_cases hqp : q = pid
    · subst hqp
      simp only [Engine.opened, Function.update_self, Option.some.injEq] at hq
      exact absurd hq.symm hne
    · simp only [Engine.opened, Function.update_of_ne hqp] at hq
      exact h.serial q ws hq hne
  · exact ⟨by simp [Engine.opened, Function.update_of_ne hq], Iff.rfl, fun _ => .refl _,
      .refl _, rfl⟩

/-- Ending a transaction without its writes. -/
theorem Owes.close (h : Consistent strict s) : Owes strict pid s (Engine.close s pid) := by
  refine ⟨⟨fun q ws hq hne => ?_, h.coherent⟩, fun q hq => ?_⟩
  · by_cases hqp : q = pid
    · subst hqp
      simp [Engine.close] at hq
    · simp only [Engine.close, Function.update_of_ne hqp] at hq
      have hl := h.serial q ws hq hne
      simp [Engine.close, hl, hqp]
  · refine ⟨by simp [Engine.close, Function.update_of_ne hq], ?_, fun _ => .refl _,
      .refl _, rfl⟩
    by_cases hl : s.holder .admissionLock = some pid
    · simp [Engine.close, hl, Ne.symm hq]
    · simp [Engine.close, hl]

/-- A statement outside a transaction that writes nothing. -/
theorem Owes.install (h : Consistent strict s) :
    Owes strict pid s (Engine.install s pid s.committed) :=
  ⟨⟨h.serial, h.coherent⟩, fun _ hq => ⟨rfl, Iff.rfl, fun _ => .refl _, .refl _, by
    simp [Engine.install, Ne.symm hq]⟩⟩

/-- A statement inside a transaction, which by its end holds the admission
lock unless it wrote nothing. -/
theorem Owes.perform (h : Consistent strict s) {old ws : List GatewayWrite}
    {ls : List GatewayRow} (hp : s.pending pid = some old)
    (hfree : ls.all (Engine.free s pid) = true)
    (hlock : old ++ ws ≠ [] →
      .admissionLock ∈ ls ∨ s.holder .admissionLock = some pid) :
    Owes strict pid s (gatewayEngine.perform s pid ls ws ()) := by
  unfold Engine.perform
  simp only [hp]
  refine ⟨⟨fun q ws' hq hne => ?_, h.coherent⟩, fun q hq => ?_⟩
  · by_cases hqp : q = pid
    · subst hqp
      simp only [Function.update_self, Option.some.injEq] at hq
      subst hq
      rcases hlock hne with hl | hl
      · simp [hl]
      · simp [hl]
    · simp only [Function.update_of_ne hqp] at hq
      have hl := h.serial q ws' hq hne
      have hnot : GatewayRow.admissionLock ∉ ls :=
        fun hmem => Engine.not_held_of_free hqp hfree hmem hl
      simp [hnot, hl]
  · refine ⟨by simp [Function.update_of_ne hq], ?_, fun _ => .refl _, .refl _, rfl⟩
    by_cases hl : GatewayRow.admissionLock ∈ ls
    · have hnot := Engine.not_held_of_free hq hfree hl
      simp [hl, hnot, Ne.symm hq]
    · simp [hl]

/-- **Committing a batch.** -/
theorem Owes.publish {sha256 : String → String} {sub : AgentExecutionSubmission} {m : String}
    (h : Consistent strict s) {ws : List GatewayWrite} (hp : s.pending pid = some ws)
    (he : Enters strict sha256 sub m s.committed ws) :
    Owes strict pid s (gatewayEngine.publish s pid) := by
  have hview : gatewayEngine.view s pid = gatewayEngine.applyAll ws s.committed := by
    simp only [Engine.view, hp]
  have hclose : Owes strict pid (Engine.install s pid (gatewayEngine.view s pid))
      (gatewayEngine.publish s pid) :=
    Owes.close ⟨h.serial, by rw [Engine.install, hview]; exact he.coherent h.coherent⟩
  refine ⟨hclose.1, fun q hq => Undisturbed.trans ?_ (hclose.2 q hq)⟩
  refine ⟨rfl, Iff.rfl, fun hl => ?_, ?_, by simp [Engine.install, Ne.symm hq]⟩
  · -- someone else holds the lock, so nothing was written
    have hnil : ws = [] := by
      by_contra hne
      have hpid := h.serial pid ws hp hne
      rw [hl] at hpid
      exact hq (Option.some.inj hpid)
    subst hnil
    simp only [Engine.install, hview, Engine.applyAll_nil]
    exact .refl _
  · simp only [Engine.install, hview]
    exact he.kept

end Owing

/-! ## What a submission answers -/

/-- Nothing `pid` has committed changed the database. -/
def Quiet (pid : ℕ) (s : GatewayState) : Prop :=
  ∀ c ∈ s.log.filter (fun c => c.pid = pid), c.after = c.before

/-- **The message is stored with another payload.** -/
def Conflicting (sha256 : String → String) (sub : AgentExecutionSubmission) (m : String)
    (db : ExecutionDb) : Prop :=
  ∃ e ∈ db.executions, e.tenantId = sub.tenantId ∧ e.messageId = m
    ∧ e.payloadHash ≠ payloadHash sha256 sub

/-- The error of a conflict. -/
def messagePayloadConflict : PyException := .agentGateway "MESSAGE_PAYLOAD_CONFLICT"

/-- The error of a deployment that does not resolve. -/
def deploymentNotFound : PyException := .agentGateway "DEPLOYMENT_NOT_FOUND"

/-- **What a conflicting submission is refused with**: the conflict; or, if
the call is not one that is `healthy`, a deployment that did not resolve or a
database that failed. -/
def Excused (healthy : ℕ → Prop) (pid : ℕ) (e : PyException) : Prop :=
  e = messagePayloadConflict ∨ (¬ healthy pid ∧ (e = deploymentNotFound ∨ e = .sqlAlchemy))

theorem Excused.conflict {healthy : ℕ → Prop} {pid : ℕ} :
    Excused healthy pid (.agentGateway "MESSAGE_PAYLOAD_CONFLICT") := .inl rfl

theorem Excused.notFound {healthy : ℕ → Prop} {pid : ℕ} (h : ¬ healthy pid) :
    Excused healthy pid (.agentGateway "DEPLOYMENT_NOT_FOUND") := .inr ⟨h, .inl rfl⟩

theorem Excused.fault {healthy : ℕ → Prop} {pid : ℕ} (h : ¬ healthy pid) :
    Excused healthy pid .sqlAlchemy := .inr ⟨h, .inr rfl⟩

/-- What a refusal leaves: nothing written unless the database failed, and
nothing at all when the message was stored with another payload. -/
def Refused (healthy : ℕ → Prop) (sha256 : String → String) (pid : ℕ)
    (sub : AgentExecutionSubmission) (m : String) (e : PyException) (s : GatewayState) : Prop :=
  (e ≠ .sqlAlchemy → Quiet pid s)
    ∧ (Conflicting sha256 sub m s.committed → Quiet pid s ∧ Excused healthy pid e)

/-- **What a reply to a submission satisfies**: it committed nothing but
batches of its own, an acceptance names the execution stored for its message,
and a refusal wrote nothing. -/
def Answered (strict : Prop) (healthy : ℕ → Prop) (sha256 : String → String) (pid : ℕ)
    (sub : AgentExecutionSubmission) (out : Except PyException AgentExecutionAccepted)
    (s : GatewayState) : Prop :=
  ∃ m, sub.UsesMessage m
    ∧ (∀ c ∈ s.log.filter (fun c => c.pid = pid), ∃ ws,
        Enters strict sha256 sub m c.before ws ∧ c.after = gatewayEngine.applyAll ws c.before)
    ∧ match out with
      | .ok accepted => Stored sha256 sub m accepted.executionId s.committed
      | .error e => Refused healthy sha256 pid sub m e s

/-- **A request is served as it should be**: the database answers, the
deployment and the release are found, the capacity settings are positive. -/
def ServedWell (c : Choice GatewayAnswer) (op : TxOp SubmitOp) : Prop :=
  ∃ a, c = .serve a ∧ match op with
    | .run (.resolveDeployment ..) => a.deployment.isSome = true
    | .run (.selectRelease ..) => a.release.isSome = true
    | .run (.tryAdmit policy) => policy.Positive
    | _ => True

/-- The condition on requests: the calls in `healthy` are served well, and in
a strict run no Session is entered that belongs to another application. -/
def gatewayAllow (strict : Prop) (healthy : ℕ → Prop) (pid : ℕ) (c : Choice GatewayAnswer)
    (op : TxOp SubmitOp) (s : GatewayState) : Prop :=
  (healthy pid → ServedWell c op)
    ∧ match op with
      | .run (.insertSession tenantId applicationId sessionId) =>
        strict → ∀ row, (gatewayEngine.view s pid).sessions tenantId sessionId = some row →
          row.applicationId = applicationId
      | _ => True

/-- A healthy call sees no fault. -/
theorem not_healthy_of_allow {strict : Prop} {healthy : ℕ → Prop} {pid : ℕ}
    {c : Choice GatewayAnswer} {op : TxOp SubmitOp} {s : GatewayState}
    (h : gatewayAllow strict healthy pid c op s) (hc : ∀ a, c ≠ .serve a) :
    ¬ healthy pid := by
  intro hh
  obtain ⟨a, ha, -⟩ := h.1 hh
  exact hc a ha

/-! ## A submission among others -/

section Body

variable {strict : Prop} {healthy : ℕ → Prop} {sha256 : String → String} {pid : ℕ}
  {sub : AgentExecutionSubmission} {m : String} {α : Type}

/-- A program of `pid` is safe among other submissions. -/
abbrev SafeFor (strict : Prop) (healthy : ℕ → Prop) (pid : ℕ) (p : SubmitProg α)
    (Q : Except PyException α → GatewayState → Prop) (s : GatewayState) : Prop :=
  p.Safe (Prog.Handled (gatewayEngine.handler pid) (gatewayAllow strict healthy pid))
    (fun a b => Consistent strict b ∧ Undisturbed pid a b) (Owes strict pid) Q s

/-- **Inside a transaction**: the writes so far, nothing committed yet, and a
fact about the committed database. -/
structure Inside (strict : Prop) (pid : ℕ) (ws : List GatewayWrite)
    (F : ExecutionDb → Prop) (s : GatewayState) : Prop where
  inv : Consistent strict s
  pending : s.pending pid = some ws
  quiet : Quiet pid s
  fact : F s.committed

/-- A fact that lasts while others run: it survives new executions, and if
something is written – so the lock is held – it need survive aging only. -/
def Lasting (ws : List GatewayWrite) (F : ExecutionDb → Prop) : Prop :=
  ∀ a b, F a → Kept a b → (ws ≠ [] → Aged a b) → F b

theorem Inside.later {ws : List GatewayWrite} {F : ExecutionDb → Prop} {s s₁ : GatewayState}
    (h : Inside strict pid ws F s) (hF : Lasting ws F) (hinv : Consistent strict s₁)
    (hu : Undisturbed pid s s₁) : Inside strict pid ws F s₁ := by
  refine ⟨hinv, hu.pending.trans h.pending, ?_, ?_⟩
  · intro c hc
    rw [hu.log] at hc
    exact h.quiet c hc
  · exact hF _ _ h.fact hu.kept (fun hne => hu.held (h.inv.serial pid ws h.pending hne))

/-- **Statement rule** inside a transaction. -/
theorem safe_ask {op : SubmitOp} {ws : List GatewayWrite} {F : ExecutionDb → Prop}
    {Q : Except PyException (SubmitRes op) → GatewayState → Prop} {s : GatewayState}
    (h : Inside strict pid ws F s) (hF : Lasting ws F)
    (hlock : ∀ a db, ws ++ (op.exec a db).2 ≠ [] → ws ≠ [] ∨ .admissionLock ∈ op.locks)
    (hfault : ∀ s₁, Inside strict pid ws F s₁ → ¬ healthy pid → Q (.error .sqlAlchemy) s₁)
    (hserve : ∀ s₁ s₂ a, Inside strict pid ws F s₁ →
      gatewayAllow strict healthy pid (.serve a) (.run op) s₁ →
      Inside strict pid (ws ++ (op.exec a (gatewayEngine.applyAll ws s₁.committed)).2)
        F s₂ →
      s₂.committed = s₁.committed →
      Q (op.exec a (gatewayEngine.applyAll ws s₁.committed)).1 s₂) :
    SafeFor strict healthy pid op.ask Q s := by
  refine Engine.safe_stmt ?_ ?_
  · rintro s₁ ⟨hinv, hu⟩ hallow
    exact ⟨.same hinv, hfault s₁ (h.later hF hinv hu)
      (not_healthy_of_allow hallow (by simp))⟩
  · rintro s₁ a ⟨hinv, hu⟩ hallow hfree
    have h₁ := h.later hF hinv hu
    have hview : gatewayEngine.view s₁ pid = gatewayEngine.applyAll ws s₁.committed := by
      simp only [Engine.view, h₁.pending]
    have howes : Owes strict pid s₁ (gatewayEngine.ran pid a op s₁) := by
      refine Owes.perform hinv h₁.pending hfree (fun hne => ?_)
      rcases hlock a _ hne with hws | hl
      · exact .inr (hinv.serial pid ws h₁.pending hws)
      · exact .inl hl
    refine ⟨howes, ?_⟩
    have hans : gatewayEngine.answer pid a op s₁
        = (op.exec a (gatewayEngine.applyAll ws s₁.committed)).1 := by
      rw [← hview]
      rfl
    rw [hans]
    refine hserve s₁ _ a h₁ hallow ⟨howes.1, ?_, ?_, ?_⟩ ?_
    all_goals
      simp only [Engine.ran, Engine.perform, h₁.pending, Function.update_self]
    · rw [← hview]
      rfl
    · exact h₁.quiet
    · exact h₁.fact

/-- The executions a batch inserts. -/
def inserted (ws : List GatewayWrite) : List AgentExecution :=
  ws.filterMap (fun w => match w with
    | .insertExecution row => some row
    | _ => none)

theorem executions_applyAll (ws : List GatewayWrite) (db : ExecutionDb) :
    (gatewayEngine.applyAll ws db).executions = db.executions ++ inserted ws := by
  induction ws generalizing db with
  | nil => simp [inserted]
  | cons w ws ih =>
    rw [Engine.applyAll_cons, ih]
    cases w <;> simp [gatewayEngine, GatewayWrite.apply, inserted]

/-- No write of the gateway touches Session events. -/
theorem events_applyAll (ws : List GatewayWrite) (db : ExecutionDb) :
    (gatewayEngine.applyAll ws db).events = db.events := by
  induction ws generalizing db with
  | nil => rfl
  | cons w ws ih =>
    rw [Engine.applyAll_cons, ih]
    cases w <;> rfl

/-- No write of the gateway removes an Outbox record. -/
theorem outbox_subset_applyAll (ws : List GatewayWrite) (db : ExecutionDb) :
    db.outbox ⊆ (gatewayEngine.applyAll ws db).outbox := by
  induction ws generalizing db with
  | nil => exact List.Subset.refl _
  | cons w ws ih =>
    rw [Engine.applyAll_cons]
    refine List.Subset.trans ?_ (ih _)
    cases w with
    | insertOutbox rec => exact List.subset_append_left _ _
    | _ => exact List.Subset.refl _

/-- A batch inserts nothing but the execution of the submission. -/
theorem inserted_sessionWrites (db : ExecutionDb) (t app : Uuid) (n : String) :
    inserted (sessionWrites db t app n) = [] := by
  unfold sessionWrites
  split <;> rfl

/-- **Deduplication rule.** Inside a transaction that has inserted no
execution, `_deduplicated_submission` finds the stored execution, a conflict,
or that there is none. -/
theorem safe_deduplicated {ws : List GatewayWrite} {F : ExecutionDb → Prop} {releaseId : Uuid}
    {Q : Except PyException (Option AgentExecutionAccepted) → GatewayState → Prop}
    {s : GatewayState} (h : Inside strict pid ws F s) (hF : Lasting ws F)
    (hws : inserted ws = [])
    (hfault : ∀ s₁, Inside strict pid ws F s₁ → ¬ healthy pid → Q (.error .sqlAlchemy) s₁)
    (hconflict : ∀ s₁, Inside strict pid ws F s₁ →
      Q (.error (.agentGateway "MESSAGE_PAYLOAD_CONFLICT")) s₁)
    (hfound : ∀ s₁ accepted, Inside strict pid ws F s₁ →
      Stored sha256 sub m accepted.executionId s₁.committed →
      Q (.ok (some accepted)) s₁)
    (hnone : ∀ s₁, Inside strict pid ws F s₁ → Unstored sub m s₁.committed →
      Q (.ok none) s₁) :
    SafeFor strict healthy pid
      (deduplicatedSubmission sub m (payloadHash sha256 sub) releaseId) Q s := by
  refine (Prog.safe_bind _ _ _ _).mpr (safe_ask h hF ?_ hfault ?_)
  · intro a db hne
    exact .inl (by simpa [SubmitOp.exec] using hne)
  · intro s₁ s₂ a _ _ h₂ hcom
    have h₂' : Inside strict pid ws F s₂ := by simpa [SubmitOp.exec] using h₂
    have hex : (gatewayEngine.applyAll ws s₁.committed).executions
        = s₂.committed.executions := by
      rw [executions_applyAll, hws, List.append_nil, hcom]
    simp only [SubmitOp.exec, ExecutionDb.executionByMessage, hex]
    cases hfind : s₂.committed.executions.find?
        (fun e => e.tenantId = sub.tenantId ∧ e.messageId = m) with
    | none =>
      refine hnone s₂ h₂' (fun e he hkey => ?_)
      exact (List.find?_eq_none.mp hfind) e he (by simpa using hkey)
    | some e =>
      have hkey := List.find?_some hfind
      simp only [decide_eq_true_eq] at hkey
      have hmem := List.mem_of_find?_eq_some hfind
      by_cases hhash : e.payloadHash = payloadHash sha256 sub
      · simpa [Prog.thenSafe, hhash] using
          hfound s₂ ⟨e.id, releaseId, sub.sessionId, true⟩ h₂'
            ⟨e, hmem, hkey.1, hkey.2, rfl, hhash⟩
      · simpa [Prog.thenSafe, hhash] using hconflict s₂ h₂'

/-! ### How the transaction ends -/

/-- The end of the transaction of a submission. -/
abbrev EndsFor (strict : Prop) (healthy : ℕ → Prop) (sha256 : String → String) (pid : ℕ)
    (sub : AgentExecutionSubmission) :
    Except PyException AgentExecutionAccepted → GatewayState → Prop :=
  gatewayEngine.Ends pid (gatewayAllow strict healthy pid)
    (fun a b => Consistent strict b ∧ Undisturbed pid a b)
    (Owes strict pid) (Answered strict healthy sha256 pid sub)

/-- What is about to be committed: a batch, after which the submission is
stored as `id`. -/
def Ready (strict : Prop) (sha256 : String → String) (sub : AgentExecutionSubmission)
    (m : String) (ws : List GatewayWrite) (id : Uuid) (db : ExecutionDb) : Prop :=
  Enters strict sha256 sub m db ws ∧ Stored sha256 sub m id (gatewayEngine.applyAll ws db)

theorem lasting_ready (ws : List GatewayWrite) (id : Uuid) :
    Lasting ws (Ready strict sha256 sub m ws id) := by
  rintro a b ⟨he, hst⟩ hk ha
  have hkept : Kept (gatewayEngine.applyAll ws a) (gatewayEngine.applyAll ws b) := by
    intro e hmem
    rw [executions_applyAll] at hmem
    rcases List.mem_append.mp hmem with hmem | hmem
    · obtain ⟨e', he', hid⟩ := hk e hmem
      exact ⟨e', by rw [executions_applyAll]; exact List.mem_append_left _ he', hid⟩
    · exact ⟨e, by rw [executions_applyAll]; exact List.mem_append_right _ hmem, rfl⟩
  refine ⟨?_, hst.kept hkept⟩
  by_cases hws : ws = []
  · subst hws
    exact .nothing
  · exact he.aged (ha hws)

theorem lasting_true (ws : List GatewayWrite) : Lasting ws (fun _ => True) :=
  fun _ _ _ _ _ => trivial

/-- A fact that aging keeps lasts once something is written. -/
theorem lasting_of_aged {w : GatewayWrite} {ws : List GatewayWrite} {F : ExecutionDb → Prop}
    (hF : ∀ a b, F a → Aged a b → F b) : Lasting (w :: ws) F :=
  fun a b ha _ haged => hF a b ha (haged (List.cons_ne_nil w ws))

/-- A quiet log consists of empty batches. -/
theorem Quiet.enters {s : GatewayState} (h : Quiet pid s) :
    ∀ c ∈ s.log.filter (fun c => c.pid = pid), ∃ ws,
      Enters strict sha256 sub m c.before ws
        ∧ c.after = gatewayEngine.applyAll ws c.before :=
  fun c hc => ⟨[], .nothing, h c hc⟩

/-- A refusal is answered as it should be: by an error that a conflict can
have, or while the message has no execution. -/
theorem answered_error (hm : sub.UsesMessage m) {s : GatewayState} (hq : Quiet pid s)
    {e : PyException} (he : Excused healthy pid e ∨ Unstored sub m s.committed) :
    Answered strict healthy sha256 pid sub (.error e) s := by
  refine ⟨m, hm, hq.enters, fun _ => hq, fun hc => ⟨hq, ?_⟩⟩
  rcases he with he | hun
  · exact he
  · obtain ⟨x, hx, ht, hmx, -⟩ := hc
    exact absurd ⟨ht, hmx⟩ (hun x hx)

/-- **A transaction that raised** rolls back and answers. -/
theorem ends_error (hm : sub.UsesMessage m) {ws : List GatewayWrite} {F : ExecutionDb → Prop}
    {s : GatewayState} (h : Inside strict pid ws F s) (hF : Lasting ws F) {e : PyException}
    (he : Excused healthy pid e ∨ ∀ db, F db → Unstored sub m db) :
    EndsFor strict healthy sha256 pid sub (.error e) s := by
  rintro s₁ ⟨hinv, hu⟩
  have h₁ := h.later hF hinv hu
  refine ⟨.close hinv, answered_error hm h₁.quiet ?_⟩
  exact he.imp_right (fun hF => hF _ h₁.fact)

/-- A transaction whose database failed. -/
theorem ends_fault (hm : sub.UsesMessage m) {ws : List GatewayWrite} {F : ExecutionDb → Prop}
    {s : GatewayState} (h : Inside strict pid ws F s) (hF : Lasting ws F)
    (hh : ¬ healthy pid) : EndsFor strict healthy sha256 pid sub (.error .sqlAlchemy) s :=
  ends_error hm h hF (.inl (.fault hh))

/-- A transaction that found the message with another payload. -/
theorem ends_conflict (hm : sub.UsesMessage m) {ws : List GatewayWrite}
    {F : ExecutionDb → Prop} {s : GatewayState} (h : Inside strict pid ws F s)
    (hF : Lasting ws F) :
    EndsFor strict healthy sha256 pid sub
      (.error (.agentGateway "MESSAGE_PAYLOAD_CONFLICT")) s :=
  ends_error hm h hF (.inl .conflict)

/-- **A transaction that accepted** commits its batch and answers. -/
theorem ends_ok (hm : sub.UsesMessage m) {ws : List GatewayWrite}
    {accepted : AgentExecutionAccepted} {s : GatewayState}
    (h : Inside strict pid ws (Ready strict sha256 sub m ws accepted.executionId) s) :
    EndsFor strict healthy sha256 pid sub (.ok accepted) s := by
  rintro s₁ ⟨hinv, hu⟩
  have h₁ := h.later (lasting_ready ws _) hinv hu
  obtain ⟨he, hst⟩ := h₁.fact
  have hview : gatewayEngine.view s₁ pid = gatewayEngine.applyAll ws s₁.committed := by
    simp only [Engine.view, h₁.pending]
  have hcom : (gatewayEngine.publish s₁ pid).committed
      = gatewayEngine.applyAll ws s₁.committed := hview
  have howes : Owes strict pid s₁ (gatewayEngine.publish s₁ pid) :=
    .publish hinv h₁.pending he
  have hlog : ∀ c ∈ (gatewayEngine.publish s₁ pid).log.filter (fun c => c.pid = pid),
      ∃ ws, Enters strict sha256 sub m c.before ws
        ∧ c.after = gatewayEngine.applyAll ws c.before := by
    intro c hc
    simp only [Engine.publish, Engine.close, Engine.install, List.filter_append] at hc
    rcases List.mem_append.mp hc with hc | hc
    · exact h₁.quiet.enters c hc
    · obtain rfl : c = ⟨pid, s₁.committed, gatewayEngine.view s₁ pid⟩ := by
        simpa using (List.mem_filter.mp hc).1
      exact ⟨ws, he, hview⟩
  have hstored : Stored sha256 sub m accepted.executionId
      (gatewayEngine.publish s₁ pid).committed := by
    rw [hcom]
    exact hst
  refine ⟨⟨howes, ⟨m, hm, hlog, hstored⟩, fun _ => ⟨m, hm, hlog, ?_, ?_⟩⟩,
    fun hallow => ⟨.close hinv, answered_error hm h₁.quiet
      (.inl (.fault (not_healthy_of_allow hallow (by simp))))⟩⟩
  · intro hne
    exact absurd rfl hne
  · -- a lost acknowledgement: the message is stored with this very payload
    rintro ⟨x, hx, ht, hmx, hhash⟩
    obtain ⟨y, hy, hty, hmy, -, hhashy⟩ := hstored
    have hxy : x = y := List.inj_on_of_nodup_map howes.1.coherent.unique hx hy
      (by rw [ht, hmx, hty, hmy])
    exact absurd (hxy ▸ hhashy) hhash

/-! ### The program -/

/-- A statement that writes nothing needs no lock. -/
theorem lock_of_read {op : SubmitOp} {ws : List GatewayWrite}
    (h : ∀ a db, (op.exec a db).2 = []) :
    ∀ a db, ws ++ (op.exec a db).2 ≠ [] → ws ≠ [] ∨ .admissionLock ∈ op.locks := by
  intro a db hne
  rw [h a db, List.append_nil] at hne
  exact .inl hne

/-- The Session of a submission is settled: the writes `wss` are those of
`create_session_if_missing`, and in a strict run the Session fits. -/
def SessionSettled (strict : Prop) (sub : AgentExecutionSubmission) (wss : List GatewayWrite)
    (db : ExecutionDb) : Prop :=
  wss = sessionWrites db sub.tenantId sub.applicationId sub.sessionId
    ∧ (strict → SessionFits sub db)

theorem SessionSettled.aged {wss : List GatewayWrite} (a b : ExecutionDb)
    (h : SessionSettled strict sub wss a) (ha : Aged a b) : SessionSettled strict sub wss b :=
  ⟨h.1.trans (sessionWrites_aged ha _ _ _).symm, fun hst => (h.2 hst).aged ha⟩

/-- What is known once the execution was inserted. -/
def Entering (strict : Prop) (sub : AgentExecutionSubmission) (m : String)
    (wss : List GatewayWrite) (id : Uuid) (db : ExecutionDb) : Prop :=
  SessionSettled strict sub wss db ∧ Unstored sub m db
    ∧ ∀ e ∈ db.executions, ¬ (e.tenantId = sub.tenantId ∧ e.id = id)

theorem Entering.aged {wss : List GatewayWrite} {id : Uuid} (a b : ExecutionDb)
    (h : Entering strict sub m wss id a) (ha : Aged a b) : Entering strict sub m wss id b := by
  refine ⟨h.1.aged a b ha, h.2.1.aged ha, ha.none (fun e e' hid hfe => ?_) h.2.2⟩
  obtain ⟨ht, hi, -⟩ := AgentExecution.of_identity hid
  exact ⟨ht.trans hfe.1, hi.trans hfe.2⟩

/-- The Outbox as a batch leaves it. -/
theorem outbox_sessionWrites (db : ExecutionDb) (b : AdmissionBucket) (row : AgentExecution) :
    (gatewayEngine.applyAll (.setBucket b
      :: sessionWrites db sub.tenantId sub.applicationId sub.sessionId
      ++ [GatewayWrite.insertExecution row]) db).outbox = db.outbox := by
  rw [Engine.applyAll_append]
  exact (sessionEnsured_apply sub db b).outbox

/-- The request of an inserted execution completes the batch. -/
theorem safe_insertRequest (hm : sub.UsesMessage m) {b : AdmissionBucket}
    {wss : List GatewayWrite} {releaseId id outboxId : Uuid}
    {classification : Option DataClassification} {s : GatewayState}
    (h : Inside strict pid (.setBucket b :: wss
      ++ [GatewayWrite.insertExecution (newExecution sub releaseId id m (payloadHash sha256 sub))])
      (Entering strict sub m wss id) s) :
    SafeFor strict healthy pid
      (SubmitOp.ask (.insertOutbox
        (requestedRecord sub releaseId id outboxId m classification 0)))
      (Prog.thenSafe (Prog.Handled (gatewayEngine.handler pid) (gatewayAllow strict healthy pid))
        (fun a b => Consistent strict b ∧ Undisturbed pid a b) (Owes strict pid)
        (fun _ => .ret ⟨id, releaseId, sub.sessionId, false⟩)
        (EndsFor strict healthy sha256 pid sub)) s := by
  have hlast : Lasting (GatewayWrite.setBucket b :: wss ++ [GatewayWrite.insertExecution
      (newExecution sub releaseId id m (payloadHash sha256 sub))])
      (Entering strict sub m wss id) := lasting_of_aged Entering.aged
  have hunstored : ∀ db, Entering strict sub m wss id db → Unstored sub m db :=
    fun _ h => h.2.1
  refine safe_ask h hlast (fun _ _ _ => .inl (by simp)) ?_ ?_
  · exact fun s₁ h₁ _ => ends_error hm h₁ hlast (.inr hunstored)
  intro s₁ s₂ a h₁ _ h₂ hcom
  obtain ⟨⟨hwss, hfits⟩, hun, hid⟩ := h₂.fact
  have hout : (gatewayEngine.applyAll (GatewayWrite.setBucket b :: wss
      ++ [GatewayWrite.insertExecution
      (newExecution sub releaseId id m (payloadHash sha256 sub))]) s₁.committed).outbox
      = s₂.committed.outbox := by
    rw [hwss, hcom]
    exact outbox_sessionWrites _ _ _
  simp only [SubmitOp.exec] at h₂ ⊢
  split
  · rename_i hfresh
    rw [if_pos hfresh] at h₂
    refine ends_ok hm ⟨h₂.inv, h₂.pending, h₂.quiet, ?_, ?_⟩
    · simp only [List.append_assoc, List.cons_append, List.nil_append]
      rw [hwss]
      refine .execution b releaseId id outboxId classification a.now hun hid hfits ?_
      rw [ExecutionDb.outboxFresh, hout] at hfresh
      exact hfresh
    · refine ⟨newExecution sub releaseId id m (payloadHash sha256 sub), ?_, rfl, rfl, rfl, rfl⟩
      rw [executions_applyAll]
      simp [inserted]
  · rename_i hfresh
    rw [if_neg hfresh, List.append_nil] at h₂
    exact ends_error hm h₂ hlast (.inr hunstored)

/-- **The execution and its request**, with the Session settled. -/
theorem safe_insertRequested (hm : sub.UsesMessage m) {b : AdmissionBucket}
    {wss : List GatewayWrite} {releaseId : Uuid}
    {classification : Option DataClassification} {s : GatewayState}
    (h : Inside strict pid (.setBucket b :: wss) (SessionSettled strict sub wss) s) :
    SafeFor strict healthy pid
      (insertRequested sub m (payloadHash sha256 sub) releaseId classification)
      (EndsFor strict healthy sha256 pid sub) s := by
  have hlast : Lasting (.setBucket b :: wss) (SessionSettled strict sub wss) :=
    lasting_of_aged SessionSettled.aged
  refine (Prog.safe_bind _ _ _ _).mpr (safe_ask h hlast (lock_of_read fun _ _ => rfl)
    (fun s₁ h₁ => ends_fault hm h₁ hlast) ?_)
  intro _ s₁ a _ _ h₁ _
  simp only [SubmitOp.exec, List.append_nil] at h₁
  refine (Prog.safe_bind _ _ _ _).mpr (safe_ask h₁ hlast (fun _ _ _ => .inl (by simp))
    (fun s₁ h₁ => ends_fault hm h₁ hlast) ?_)
  intro s₂ s₃ a' _ _ h₃ hcom
  have hfact := h₃.fact
  have hins : inserted (.setBucket b :: wss) = [] := by
    rw [hfact.1]
    exact inserted_sessionWrites _ _ _ _
  have hex : (gatewayEngine.applyAll (.setBucket b :: wss) s₂.committed).executions
      = s₃.committed.executions := by
    rw [executions_applyAll, hins, List.append_nil, hcom]
  simp only [SubmitOp.exec] at h₃ ⊢
  split
  · -- a submission that committed meanwhile has the message
    rename_i hsome
    rw [if_pos hsome, List.append_nil] at h₃
    refine (Prog.safe_bind _ _ _ _).mpr (safe_deduplicated h₃ hlast hins
      (fun s₄ h₄ => ends_fault hm h₄ hlast) (fun s₄ h₄ => ends_conflict hm h₄ hlast) ?_ ?_)
    · intro s₄ accepted h₄ hstored
      refine ends_ok hm ⟨h₄.inv, h₄.pending, h₄.quiet, ?_, ?_⟩
      · rw [h₄.fact.1]
        exact .session b
      · refine hstored.kept (fun e he => ⟨e, ?_, rfl⟩)
        rw [executions_applyAll]
        exact List.mem_append_left _ he
    · intro s₄ h₄ _
      exact ends_conflict hm h₄ hlast
  · rename_i hnone
    rw [if_neg hnone] at h₃
    rw [ExecutionDb.executionByMessage, hex] at hnone
    have hun : Unstored sub m s₃.committed := by
      intro e he hkey
      refine hnone ?_
      rw [List.find?_isSome]
      exact ⟨e, he, decide_eq_true hkey⟩
    split
    · rename_i hclash
      rw [if_pos hclash, List.append_nil] at h₃
      exact ends_error hm ⟨h₃.inv, h₃.pending, h₃.quiet, hun⟩
        (lasting_of_aged (fun _ _ h ha => h.aged ha)) (.inr (fun _ h => h))
    · rename_i hclash
      rw [if_neg hclash] at h₃
      rw [not_or, hex] at hclash
      have hent : Entering strict sub m wss a.uuid s₃.committed :=
        ⟨hfact, hun, fun e he hkey =>
          hclash.1 (List.any_eq_true.mpr ⟨e, he, decide_eq_true hkey⟩)⟩
      have hlastE : Lasting (GatewayWrite.setBucket b :: wss ++ [GatewayWrite.insertExecution
          (newExecution sub releaseId a.uuid m (payloadHash sha256 sub))])
          (Entering strict sub m wss a.uuid) := lasting_of_aged Entering.aged
      refine (Prog.safe_bind _ _ _ _).mpr (safe_ask ⟨h₃.inv, h₃.pending, h₃.quiet, hent⟩
        hlastE (lock_of_read fun _ _ => rfl) (fun s₄ h₄ => ends_fault hm h₄ hlastE) ?_)
      intro _ s₄ a'' _ _ h₄ _
      simp only [SubmitOp.exec, List.append_nil] at h₄
      exact (Prog.safe_bind _ _ _ _).mpr (safe_insertRequest hm h₄)

/-- **After the admission**: the Session, the execution, its request. -/
theorem safe_enterExecution (hm : sub.UsesMessage m) {b : AdmissionBucket} {releaseId : Uuid}
    {classification : Option DataClassification} {s : GatewayState}
    (h : Inside strict pid [.setBucket b] (fun _ => True) s) :
    SafeFor strict healthy pid
      (enterExecution sub m (payloadHash sha256 sub) releaseId classification)
      (EndsFor strict healthy sha256 pid sub) s := by
  refine (Prog.safe_bind _ _ _ _).mpr ?_
  have hlen : ¬ ¬ (1 ≤ sub.sessionId.length ∧ sub.sessionId.length ≤ maxSessionIdLength) :=
    not_not.mpr sub.sessionId_length
  rw [createSessionIfMissing, if_neg hlen]
  refine safe_ask h (lasting_true _) (fun _ _ _ => .inl (by simp)) ?_ ?_
  · exact fun s₁ h₁ => ends_fault hm h₁ (lasting_true _)
  intro s₁ s₂ a h₁ hallow h₂ hcom₂
  have hsess : (gatewayEngine.applyAll [.setBucket b] s₁.committed).sessions
      = s₂.committed.sessions := by rw [hcom₂]; rfl
  generalize hwss : ((SubmitOp.insertSession sub.tenantId sub.applicationId
    sub.sessionId).exec a (gatewayEngine.applyAll [.setBucket b] s₁.committed)).2 = wss at h₂
  have hsettled : SessionSettled strict sub wss s₂.committed := by
    refine ⟨?_, fun hst row hrow => hallow.2 hst row ?_⟩
    · rw [← hwss]
      simp only [SubmitOp.exec, sessionWrites, hsess]
    · rw [show gatewayEngine.view s₁ pid
        = gatewayEngine.applyAll [.setBucket b] s₁.committed by
          simp only [Engine.view, h₁.pending], hsess]
      exact hrow
  exact safe_insertRequested hm ⟨h₂.inv, h₂.pending, h₂.quiet, hsettled⟩

/-- What follows the admission function. -/
theorem safe_admitted (hm : sub.UsesMessage m) {b : AdmissionBucket} {admission : Admission}
    {releaseId : Uuid} {classification : Option DataClassification} {s : GatewayState}
    (h : Inside strict pid [.setBucket b] (fun _ => True) s) :
    SafeFor strict healthy pid
      (if admission ≠ .ALLOWED then
        (deduplicatedSubmission sub m (payloadHash sha256 sub) releaseId).bind
          (fun duplicate => match duplicate with
            | some duplicate => .ret duplicate
            | none => .raise (.agentGateway admission.str))
      else enterExecution sub m (payloadHash sha256 sub) releaseId classification)
      (EndsFor strict healthy sha256 pid sub) s := by
  split
  · refine (Prog.safe_bind _ _ _ _).mpr (safe_deduplicated h (lasting_true _) rfl
      (fun s₁ h₁ => ends_fault hm h₁ (lasting_true _))
      (fun s₁ h₁ => ends_conflict hm h₁ (lasting_true _)) ?_ ?_)
    · intro s₁ accepted h₁ hstored
      exact ends_ok hm ⟨h₁.inv, h₁.pending, h₁.quiet, .bucket b, hstored⟩
    · -- shed under the lock: the message still has no execution at the rollback
      intro s₁ h₁ hun
      exact ends_error hm ⟨h₁.inv, h₁.pending, h₁.quiet, hun⟩
        (lasting_of_aged (fun _ _ h ha => h.aged ha)) (.inr (fun _ h => h))
  · exact safe_enterExecution hm h

/-- **The transaction of a submission.** -/
theorem safe_submitTransaction (hm : sub.UsesMessage m) {policy : CapacityPolicy}
    {releaseId : Uuid} {s : GatewayState} (h : Inside strict pid [] (fun _ => True) s) :
    SafeFor strict healthy pid
      (submitTransaction policy sub m (payloadHash sha256 sub) releaseId)
      (EndsFor strict healthy sha256 pid sub) s := by
  have hlast : Lasting [] (fun _ => True) := lasting_true _
  refine (Prog.safe_bind _ _ _ _).mpr (safe_ask h hlast
    (lock_of_read fun _ _ => rfl) (fun s₁ h₁ => ends_fault hm h₁ hlast) ?_)
  intro s₀ s₁ a _ hallow h₁ _
  simp only [SubmitOp.exec, List.append_nil] at h₁ ⊢
  cases hrel : a.release with
  | none =>
    refine ends_error hm h₁ hlast (.inl (.notFound (fun hh => ?_)))
    obtain ⟨a', ha, hsome⟩ := hallow.1 hh
    cases ha
    simp [hrel] at hsome
  | some classification =>
    refine (Prog.safe_bind _ _ _ _).mpr (safe_deduplicated h₁ hlast rfl
      (fun s₂ h₂ => ends_fault hm h₂ hlast) (fun s₂ h₂ => ends_conflict hm h₂ hlast) ?_ ?_)
    · intro s₂ accepted h₂ hstored
      exact ends_ok hm ⟨h₂.inv, h₂.pending, h₂.quiet, .nothing, hstored⟩
    · intro s₂ h₂ _
      refine (Prog.safe_bind _ _ _ _).mpr (safe_ask h₂ hlast
        (fun _ _ _ => .inr (by simp [SubmitOp.locks]))
        (fun s₃ h₃ => ends_fault hm h₃ hlast) ?_)
      intro s₃ s₄ a' _ hallow' h₄ _
      simp only [SubmitOp.exec, Engine.applyAll_nil, List.nil_append] at h₄ ⊢
      cases haccept : tryAdmitExecution policy a'.clock a'.clock' s₃.committed with
      | error e =>
        rw [haccept] at h₄
        obtain ⟨rfl, hpos⟩ := tryAdmitExecution_error haccept
        refine ends_fault hm h₄ hlast (fun hh => ?_)
        obtain ⟨a'', -, hserved⟩ := hallow'.1 hh
        exact hpos hserved
      | ok x =>
        rw [haccept] at h₄
        exact safe_admitted hm h₄

/-! ### Outside the transaction -/

/-- **Before the transaction**: nothing open, nothing committed. -/
structure Outside (strict : Prop) (pid : ℕ) (s : GatewayState) : Prop where
  inv : Consistent strict s
  pending : s.pending pid = none
  quiet : Quiet pid s

theorem Outside.later {s s₁ : GatewayState} (h : Outside strict pid s)
    (hinv : Consistent strict s₁) (hu : Undisturbed pid s s₁) : Outside strict pid s₁ := by
  refine ⟨hinv, hu.pending.trans h.pending, fun c hc => ?_⟩
  rw [hu.log] at hc
  exact h.quiet c hc

/-- **Statement rule** outside a transaction, for a statement that writes
nothing. -/
theorem safe_ask_outside {op : SubmitOp}
    {Q : Except PyException (SubmitRes op) → GatewayState → Prop} {s : GatewayState}
    (h : Outside strict pid s) (hwrites : ∀ a db, (op.exec a db).2 = [])
    (hfault : ∀ s₁, Outside strict pid s₁ → ¬ healthy pid → Q (.error .sqlAlchemy) s₁)
    (hserve : ∀ a s₁ s₂, gatewayAllow strict healthy pid (.serve a) (.run op) s₁ →
      Outside strict pid s₂ → Q (op.exec a (gatewayEngine.view s₁ pid)).1 s₂) :
    SafeFor strict healthy pid op.ask Q s := by
  refine Engine.safe_stmt ?_ ?_
  · rintro s₁ ⟨hinv, hu⟩ hallow
    exact ⟨.same hinv, hfault s₁ (h.later hinv hu) (not_healthy_of_allow hallow (by simp))⟩
  · rintro s₁ a ⟨hinv, hu⟩ hallow -
    have h₁ := h.later hinv hu
    have hran : gatewayEngine.ran pid a op s₁ = Engine.install s₁ pid s₁.committed := by
      have hw : (gatewayEngine.exec a op (Engine.free s₁ pid)
          (gatewayEngine.view s₁ pid) s₁.ext).2.1 = [] := hwrites a _
      simp only [Engine.ran, Engine.perform, h₁.pending, hw, Engine.applyAll_nil]
    rw [hran]
    have howes : Owes strict pid s₁ (Engine.install s₁ pid s₁.committed) :=
      Owes.install h₁.inv
    refine ⟨howes, hserve a s₁ _ hallow ⟨howes.1, h₁.pending, fun c hc => ?_⟩⟩
    simp only [Engine.install, List.filter_append] at hc
    rcases List.mem_append.mp hc with hc | hc
    · exact h₁.quiet c hc
    · obtain rfl : c = ⟨pid, s₁.committed, s₁.committed⟩ := by
        simpa using (List.mem_filter.mp hc).1
      rfl

theorem Outside.refused {s : GatewayState} (h : Outside strict pid s) {e : PyException}
    (he : Excused healthy pid e) : Answered strict healthy sha256 pid sub (.error e) s := by
  cases hm : sub.messageId with
  | some m => exact answered_error (.inl hm) h.quiet (.inl he)
  | none => exact answered_error (.inr ⟨hm, 0, rfl⟩) h.quiet (.inl he)

/-- The transaction block. -/
theorem safe_transaction_submit (hm : sub.UsesMessage m) {policy : CapacityPolicy}
    {releaseId : Uuid} {s : GatewayState} (h : Outside strict pid s) :
    SafeFor strict healthy pid
      (Engine.transaction
        (submitTransaction policy sub m (payloadHash sha256 sub) releaseId))
      (Answered strict healthy sha256 pid sub) s := by
  refine Engine.safe_transaction ?_ ?_
  · rintro s₁ ⟨hinv, hu⟩ hallow
    exact ⟨.same hinv, (h.later hinv hu).refused
      (.fault (not_healthy_of_allow hallow (by simp)))⟩
  · rintro s₁ ⟨hinv, hu⟩
    have h₁ := h.later hinv hu
    have howes := Owes.opened hinv h₁.pending
    exact ⟨howes, safe_submitTransaction hm
      ⟨howes.1, by simp [Engine.opened], h₁.quiet, trivial⟩⟩

/-- **A submission meets its answer among any others.** -/
theorem safe_submit {policy : CapacityPolicy} {s : GatewayState} (h : Outside strict pid s) :
    SafeFor strict healthy pid (submit sha256 policy sub)
      (Answered strict healthy sha256 pid sub) s := by
  refine (Prog.safe_bind _ _ _ _).mpr (safe_ask_outside h (fun _ _ => rfl)
    (fun s₁ h₁ hh => h₁.refused (.fault hh)) ?_)
  intro a _ s₁ hallow h₁
  simp only [SubmitOp.exec]
  cases hdep : a.deployment with
  | none =>
    refine h₁.refused (.notFound (fun hh => ?_))
    obtain ⟨a', ha, hsome⟩ := hallow.1 hh
    cases ha
    simp [hdep] at hsome
  | some releaseId =>
    refine (Prog.safe_bind _ _ _ _).mpr ?_
    unfold submissionMessageId
    split
    · rename_i m hsome
      have hne : m ≠ "" := by
        rintro rfl
        exact absurd (sub.messageId_length "" hsome).1 (by decide)
      rw [if_neg hne]
      exact safe_transaction_submit (.inl hsome) h₁
    · rename_i hnone
      refine (Prog.safe_bind _ _ _ _).mpr (safe_ask_outside h₁ (fun _ _ => rfl)
        (fun s₂ h₂ hh => h₂.refused (.fault hh)) ?_)
      intro a' _ s₂ _ h₂
      exact safe_transaction_submit (.inr ⟨hnone, a'.uuid, rfl⟩) h₂

/-! ### A message that is submitted again -/

variable {x : Uuid}

theorem lasting_stored (ws : List GatewayWrite) : Lasting ws (Stored sha256 sub m x) :=
  fun _ _ h hk _ => h.kept hk

/-- What a request does to the executions: it loses none. -/
theorem Owes.kept {s s' : GatewayState} (h : Owes strict pid s s') :
    Kept s.committed s'.committed := (h.2 (pid + 1) (Nat.succ_ne_self pid)).kept

/-- **A stored message is found** by the transaction of its resubmission. -/
theorem safe_stored {policy : CapacityPolicy} {releaseId : Uuid} {s : GatewayState}
    (h : Inside strict pid [] (Stored sha256 sub m x) s) :
    SafeFor strict healthy pid
      (submitTransaction policy sub m (payloadHash sha256 sub) releaseId)
      (fun r s₁ => Inside strict pid [] (Stored sha256 sub m x) s₁
        ∧ (healthy pid → ∃ accepted, r = .ok accepted)) s := by
  refine (Prog.safe_bind _ _ _ _).mpr (safe_ask h (lasting_stored [])
    (lock_of_read (fun _ _ => rfl))
    (fun s₁ h₁ hh => ⟨h₁, fun hp => absurd hp hh⟩) ?_)
  intro s₁ s₂ a _ hallow h₂ _
  have h₂' : Inside strict pid [] (Stored sha256 sub m x) s₂ := by simpa [SubmitOp.exec] using h₂
  simp only [SubmitOp.exec]
  cases hrelease : a.release with
  | none =>
    refine ⟨h₂', fun hp => ?_⟩
    obtain ⟨a', ha, hsome⟩ := hallow.1 hp
    cases ha
    simp [hrelease] at hsome
  | some classification =>
    refine (Prog.safe_bind _ _ _ _).mpr ((Prog.safe_bind _ _ _ _).mpr (safe_ask h₂'
      (lasting_stored []) (lock_of_read (fun _ _ => rfl))
      (fun s₃ h₃ hh => ⟨h₃, fun hp => absurd hp hh⟩) ?_))
    intro s₃ s₄ a' h₃ _ h₄ hcom
    have h₄' : Inside strict pid [] (Stored sha256 sub m x) s₄ := by
      simpa [SubmitOp.exec] using h₄
    obtain ⟨e, he, ht, hm, -, hhash⟩ := h₃.fact
    -- the message has one execution, which is the stored one
    have hfind : s₃.committed.executions.find?
        (fun e => e.tenantId = sub.tenantId ∧ e.messageId = m) = some e := by
      cases hf : s₃.committed.executions.find?
          (fun e => e.tenantId = sub.tenantId ∧ e.messageId = m) with
      | none =>
        exact absurd (decide_eq_true (⟨ht, hm⟩ : e.tenantId = sub.tenantId ∧ e.messageId = m))
          (List.find?_eq_none.mp hf e he)
      | some y =>
        have hkey := List.find?_some hf
        rw [decide_eq_true_eq] at hkey
        rw [List.inj_on_of_nodup_map h₃.inv.coherent.unique (List.mem_of_find?_eq_some hf) he
          (by rw [hkey.1, hkey.2, ht, hm])]
    simp only [SubmitOp.exec, ExecutionDb.executionByMessage, Engine.applyAll_nil, hfind]
    simp only [Option.map_some, Prog.thenSafe, hhash, ne_eq, not_true_eq_false, if_false]
    exact ⟨h₄', fun _ => ⟨_, rfl⟩⟩

/-- **A resubmission is accepted**: a call that is served well and whose message
is stored with its payload does not fail. -/
theorem safe_resubmission {policy : CapacityPolicy} {s : GatewayState}
    (hm : sub.messageId = some m) (h : Outside strict pid s)
    (hst : Stored sha256 sub m x s.committed) :
    SafeFor strict healthy pid (submit sha256 policy sub)
      (fun r _ => healthy pid → ∃ accepted, r = .ok accepted) s := by
  have hask : SafeFor strict healthy pid (SubmitOp.ask (.resolveDeployment sub.tenantId
      sub.applicationId sub.environment sub.sessionId))
      (fun r s₁ => Outside strict pid s₁
        ∧ (healthy pid → ∃ releaseId, r = .ok (some releaseId))) s := by
    refine safe_ask_outside h (fun _ _ => rfl) (fun s₁ h₁ hh => ⟨h₁, fun hp => absurd hp hh⟩) ?_
    intro a s₁ s₂ hallow h₂
    refine ⟨h₂, fun hp => ?_⟩
    obtain ⟨a', ha, hsome⟩ := hallow.1 hp
    cases ha
    obtain ⟨releaseId, hrelease⟩ := Option.isSome_iff_exists.mp hsome
    exact ⟨releaseId, congrArg Except.ok hrelease⟩
  refine Prog.Safe.bind (hask.since (R := fun a b => Kept a.committed b.committed)
    (fun _ => .refl _)
    (fun _ _ _ => .trans) (fun _ _ hr => hr.2.kept) (fun _ _ => Owes.kept)) ?_ ?_
  · rintro found s₁ ⟨⟨h₁, hfound⟩, hkept⟩
    cases found with
    | none =>
      intro hp
      obtain ⟨releaseId, hr⟩ := hfound hp
      cases Except.ok.inj hr
    | some releaseId =>
      have hne : m ≠ "" := by
        rintro rfl
        exact absurd (sub.messageId_length "" hm).1 (by decide)
      have hid : submissionMessageId sub = .ret m := by
        unfold submissionMessageId
        simp only [hm, if_neg hne]
        rfl
      simp only [hid, Prog.bind_eq, Prog.bind]
      refine Engine.safe_transaction ?_ ?_
      · rintro s₂ ⟨hinv, hu⟩ hallow
        exact ⟨.same hinv, fun hp => absurd hp (not_healthy_of_allow hallow (by simp))⟩
      · rintro s₂ ⟨hinv, hu⟩
        have h₂ := h₁.later hinv hu
        have howes := Owes.opened hinv h₂.pending
        refine ⟨howes, (safe_stored ⟨howes.1, by simp [Engine.opened], h₂.quiet,
          (hst.kept hkept).kept hu.kept⟩).mono ?_⟩
        rintro r s₃ ⟨h₃, hok⟩
        cases r with
        | error e =>
          rintro s₄ ⟨hinv₄, -⟩
          refine ⟨.close hinv₄, fun hp => ?_⟩
          obtain ⟨accepted, hacc⟩ := hok hp
          cases hacc
        | ok accepted =>
          rintro s₄ ⟨hinv₄, hu₄⟩
          have h₄ := h₃.later (lasting_stored []) hinv₄ hu₄
          have hnothing : Enters strict sha256 sub m s₄.committed [] := .nothing
          exact ⟨⟨.publish hinv₄ h₄.pending hnothing, fun _ => ⟨accepted, rfl⟩,
            fun hallow hp => absurd hp (not_healthy_of_allow hallow (by simp))⟩,
            fun hallow => ⟨.close hinv₄,
              fun hp => absurd hp (not_healthy_of_allow hallow (by simp))⟩⟩
  · rintro e s₁ ⟨⟨-, hfound⟩, -⟩ hp
    obtain ⟨releaseId, hr⟩ := hfound hp
    cases hr

end Body

/-- **A submission that runs by itself** answers as it does among others. -/
theorem answered_alone {sha256 : String → String} {policy : CapacityPolicy}
    {sub : AgentExecutionSubmission} {db : ExecutionDb} (hc : Coherent False db)
    {choices : List (Choice GatewayAnswer)} {r : Except PyException AgentExecutionAccepted}
    {s : GatewayState}
    (h : (submit sha256 policy sub).eval (gatewayEngine.handler 0) choices
      (Engine.quiet db ()) = some (r, s)) :
    Answered False (fun _ => False) sha256 0 sub r s := by
  have houtside : Outside False 0 (Engine.quiet db () : GatewayState) := by
    refine ⟨⟨fun q ws hq => ?_, hc⟩, rfl, fun c hmem => ?_⟩
    · cases hq
    · cases hmem
  -- no condition is put on the requests, so every choice is allowed
  have hallow : ∀ op a r b, Prog.Handled (gatewayEngine.handler 0) (fun _ _ _ => True)
      op a r b → Prog.Handled (gatewayEngine.handler 0)
        (gatewayAllow False (fun _ => False) 0) op a r b := by
    rintro op a r b ⟨c, -, hh⟩
    refine ⟨c, ⟨fun hf => hf.elim, ?_⟩, hh⟩
    split
    · exact False.elim
    · trivial
  have hsafe : SafeFor False (fun _ => False) 0 (submit sha256 policy sub)
      (Answered False (fun _ => False) sha256 0 sub) (Engine.quiet db ()) :=
    safe_submit houtside
  have hwp := Prog.Safe.alone (I := Consistent False) (fun a => .refl 0 a) houtside.inv hsafe
  exact (Prog.wp_eval (Prog.Safe.of_handler hallow hwp) h).2

/-- **The discipline of the gateway.** -/
def submissionDiscipline (strict : Prop) (healthy : ℕ → Prop) (sha256 : String → String)
    (policy : CapacityPolicy) :
    Pool.Discipline (submitters sha256 policy) gatewayStart (fun _ _ => True)
      (gatewayAllow strict healthy) (fun _ _ => True) where
  inv := Consistent strict
  unused := fun pid s => s.pending pid = none ∧ Quiet pid s
  rely := Undisturbed
  post := Answered strict healthy sha256
  rely_refl := .refl
  rely_trans := fun _ _ _ _ h h' => h.trans h'
  unused_rely := by
    rintro pid a b ⟨hp, hq⟩ hu
    refine ⟨hu.pending.trans hp, fun c hc => ?_⟩
    rw [hu.log] at hc
    exact hq c hc
  start_ok := by
    rintro _ ⟨now, rfl⟩
    refine ⟨⟨?_, ?_⟩, fun pid => ⟨rfl, ?_⟩⟩
    · intro q ws hq
      cases hq
    · exact ⟨rfl, List.nodup_nil, fun _ e he => by cases he⟩
    · intro c hc
      cases hc
  safe_body := fun pid s sub _ hinv hun => safe_submit ⟨hinv, hun.1, hun.2⟩
  safe_crash := fun _ _ hinv => Owes.close hinv
  safe_env := by
    rintro u s _ - hinv h
    obtain rfl := Option.some.inj h
    have ha := aged_setExecutionStatus u s.committed
    exact ⟨⟨hinv.serial, hinv.coherent.aged ha⟩,
      fun q => ⟨rfl, Iff.rfl, fun _ => ha, ha.kept, rfl⟩⟩

/-! ## Idempotency -/

/-- A state of the gateway with its submissions. -/
abbrev SubmittersState :=
  Pool.State (TxOp SubmitOp) (TxRes SubmitRes) PyException GatewayState
    AgentExecutionSubmission AgentExecutionAccepted

/-- A step of the gateway. -/
abbrev SubmittersLabel := Pool.Label (Choice GatewayAnswer) AgentExecutionSubmission StatusUpdate

/-- The gateway as a transition system. -/
abbrev submittersMachine (sha256 : String → String) (policy : CapacityPolicy) :
    Machine SubmittersState SubmittersLabel :=
  (submitters sha256 policy).machine gatewayStart

/-- The steps in which every request of a call in `healthy` is served well. -/
def servesWell (healthy : ℕ → Prop) (w : SubmittersState) : SubmittersLabel → Prop
  | .act pid c => ∀ call op k, w.threads pid = some (call, .call op k) →
      healthy pid → ServedWell c op
  | _ => True

/-- The runs of the discipline that is not strict. -/
theorem reach_of_servesWell {sha256 : String → String} {policy : CapacityPolicy}
    {healthy : ℕ → Prop} {w : SubmittersState}
    (h : (submittersMachine sha256 policy).Reach (servesWell healthy) w) :
    (submittersMachine sha256 policy).Reach
      (Pool.stepOk (fun _ _ => True) (gatewayAllow False healthy) (fun _ _ => True)) w := by
  refine h.mono (fun w l hl => ?_)
  cases l with
  | act pid c =>
    intro call op k hth
    refine ⟨hl call op k hth, ?_⟩
    split
    · exact False.elim
    · trivial
  | _ => trivial

/-- A message that is stored with the payload of a submission, now and later,
is not stored with another. -/
theorem not_conflicting_of_stored {sha256 : String → String} {sub : AgentExecutionSubmission}
    {m : String} {id : Uuid} {s s' : GatewayState} (hinv : Consistent False s')
    (hst : Stored sha256 sub m id s.committed) (hk : Kept s.committed s'.committed) :
    ¬ Conflicting sha256 sub m s.committed := by
  rintro ⟨x, hx, ht, hmx, hhash⟩
  obtain ⟨y, hy, hty, hmy, -, hhashy⟩ := hst.kept hk
  obtain ⟨x', hx', hid⟩ := hk x hx
  obtain ⟨ht', -, hm', hp', -, -⟩ := AgentExecution.of_identity hid
  have hxy : x' = y := List.inj_on_of_nodup_map hinv.coherent.unique hx' hy
    (by rw [ht', hm', ht, hmx, hty, hmy])
  exact hhash (hp' ▸ hxy ▸ hhashy)

/-- **Submission is idempotent.** In every reachable state, a message of a
tenant has at most one execution, the requests in the Outbox are exactly those
of the executions, an acceptance named the one execution stored for its
message, and a submission whose message was stored with another payload hash
wrote nothing and was refused as a conflict – unless its deployment or release
did not resolve or the database failed it. -/
theorem submit_idempotent (sha256 : String → String) (policy : CapacityPolicy)
    (healthy : ℕ → Prop) {w : SubmittersState}
    (h : (submittersMachine sha256 policy).Reach (servesWell healthy) w) :
    (w.shared.committed.executions.map (fun e => (e.tenantId, e.messageId))).Nodup
      ∧ w.shared.committed.requests = w.shared.committed.executions.map AgentExecution.request
      ∧ ∀ x ∈ w.replies, ∃ m, x.call.UsesMessage m
        ∧ (∀ accepted, x.outcome = .ok accepted →
            Stored sha256 x.call m accepted.executionId w.shared.committed)
        ∧ (Conflicting sha256 x.call m x.state.committed →
            (∀ c ∈ x.state.log, c.pid = x.pid → c.after = c.before)
              ∧ ∃ e, x.outcome = .error e ∧ Excused healthy x.pid e) := by
  have hreach := reach_of_servesWell h
  have hgood := Pool.reach_safe (submissionDiscipline False healthy sha256 policy) hreach
  have hinv : Consistent False w.shared := hgood.inv
  have hkept : ∀ x ∈ w.replies, Kept x.state.committed w.shared.committed :=
    (submissionDiscipline False healthy sha256 policy).reply_rel
      (G := fun a b => Kept a.committed b.committed) (fun a => .refl _)
      (fun a b c h h' => h.trans h') (fun _ _ _ h => h.kept) hreach
  refine ⟨hinv.coherent.unique, hinv.coherent.paired, fun x hx => ?_⟩
  obtain ⟨m, hm, -, hout⟩ := hgood.replies x hx
  refine ⟨m, hm, fun accepted hacc => ?_, fun hconf => ?_⟩
  · rw [hacc] at hout
    exact Stored.kept hout (hkept x hx)
  · cases hx' : x.outcome with
    | ok accepted =>
      rw [hx'] at hout
      exact absurd hconf (not_conflicting_of_stored hinv hout (hkept x hx))
    | error e =>
      rw [hx'] at hout
      obtain ⟨hquiet, hexc⟩ := hout.2 hconf
      refine ⟨fun c hc hpid => ?_, e, rfl, hexc⟩
      exact hquiet c (List.mem_filter.mpr ⟨hc, by simpa using hpid⟩)

/-- A submission of one message. -/
def greeting : AgentExecutionSubmission where
  tenantId := 1
  applicationId := 10
  environment := .production
  sessionId := "s"
  messages := [[("role", "user"), ("content", "hi")]]
  messageId := some "m"

/-- The same message id with other content. -/
def otherGreeting : AgentExecutionSubmission :=
  { greeting with
    messages := [[("role", "user"), ("content", "bye")]]
    messages_length := by decide }

/-- The gateway before its first submission. -/
def gatewayIdle : SubmittersState := Pool.idle (Engine.quiet (ExecutionDb.empty 0) ())

/-- The steps of a submission that runs alone and is accepted: its identifiers
are `uuid` and `uuid + 1`. -/
def acceptedRun (pid : ℕ) (sub : AgentExecutionSubmission) (uuid : Uuid) :
    List SubmittersLabel :=
  Pool.Label.spawn sub :: (List.replicate 8 (Pool.Label.act pid (answering uuid))
    ++ List.replicate 3 (Pool.Label.act pid (answering (uuid + 1))))
where
  answering (uuid : Uuid) : Choice GatewayAnswer :=
    Choice.serve { deployment := some 7, release := some none, uuid := uuid }

theorem gatewayIdle_init (sha256 : String → String) (policy : CapacityPolicy) :
    (submittersMachine sha256 policy).init gatewayIdle := ⟨_, ⟨0, rfl⟩, rfl⟩

/-- A test of `servesWell` for every call. -/
def servesWellTest (w : SubmittersState) : SubmittersLabel → Bool
  | .act pid (.serve a) =>
    match w.threads pid with
    | some (_, .call (.run (.tryAdmit policy)) _) => policy.Positive
    | _ => a.deployment.isSome && a.release.isSome
  | .act _ _ => false
  | _ => true

theorem servesWell_of_test (healthy : ℕ → Prop) (w : SubmittersState) (l : SubmittersLabel)
    (h : servesWellTest w l = true) : servesWell healthy w l := by
  cases l with
  | act pid c =>
    intro call op k hth _
    cases c with
    | serve a =>
      refine ⟨a, rfl, ?_⟩
      simp only [servesWellTest, hth] at h
      split at h
      · rename_i heq
        cases heq
        exact of_decide_eq_true h
      · rename_i hne
        simp only [Bool.and_eq_true] at h
        split
        · exact h.1
        · exact h.2
        · rename_i policy
          exact absurd rfl (hne call policy k)
        · trivial
    | _ => cases h
  | _ => trivial

/-- The message is accepted and submitted again with another payload: its deployment is
gone, or it is served well. -/
theorem resubmitted_runs :
    ((submittersMachine id {}).run gatewayIdle (acceptedRun 0 greeting 100
      ++ ([.spawn otherGreeting, .act 1 (.serve {})] : List SubmittersLabel))).map
        (fun w => w.replies.any (fun x => x.call.messageId = some "m"
          ∧ deploymentNotFound.raisedBy x.outcome
          ∧ x.state.committed.executions.any (fun e => e.tenantId = x.call.tenantId
            ∧ e.messageId = "m" ∧ e.payloadHash ≠ payloadHash id x.call))) = some true
    ∧ ((submittersMachine id {}).runIf servesWellTest gatewayIdle
      (acceptedRun 0 greeting 100 ++ (acceptedRun 1 otherGreeting 200).take 6)).map
        (fun w => decide (w.shared.committed.requests = [(1, "m", 100)])
          && w.replies.any (fun x => x.pid = 1
            ∧ messagePayloadConflict.raisedBy x.outcome)) = some true := by
  decide +kernel

/-- The gateway does not promise the conflict error to every conflicting
submission: with its deployment gone, the resubmission of a stored message
with another payload is refused before the payloads are compared. -/
theorem submit_conflict_deploymentNotFound :
    ¬ ∀ w, (submittersMachine id {}).Reach Machine.anyStep w →
      ∀ x ∈ w.replies, ∀ m, x.call.messageId = some m →
        Conflicting id x.call m x.state.committed →
          x.outcome = .error messagePayloadConflict := by
  intro hall
  have hrun := resubmitted_runs.1
  obtain ⟨w, hw, htest⟩ := Machine.reach_of_run (gatewayIdle_init id {}) hrun
  obtain ⟨x, hx, htest⟩ := List.any_eq_true.mp htest
  obtain ⟨hm, hout, hconf⟩ := of_decide_eq_true htest
  obtain ⟨e, he, hkey⟩ := List.any_eq_true.mp hconf
  have hx' := hall w hw x hx "m" hm ⟨e, he, of_decide_eq_true hkey⟩
  rw [PyException.raisedBy_iff, hx'] at hout
  exact absurd (Except.error.inj hout) (by decide)

/-- A run of two submissions that are served well: the message is entered, and
its resubmission with another payload is refused as a conflict. -/
theorem submit_idempotent_greeting :
    ∃ w, (submittersMachine id {}).Reach (servesWell (fun _ => True)) w
      ∧ w.shared.committed.requests = [(1, "m", 100)]
      ∧ w.shared.committed.requests
        = w.shared.committed.executions.map AgentExecution.request
      ∧ (∃ x ∈ w.replies, x.pid = 1 ∧ x.outcome = .error messagePayloadConflict)
      ∧ ∀ x ∈ w.replies, ∃ m, x.call.UsesMessage m
        ∧ (Conflicting id x.call m x.state.committed →
            ∃ e, x.outcome = .error e ∧ Excused (fun _ => True) x.pid e) := by
  have hrun := resubmitted_runs.2
  obtain ⟨w, hw, htest⟩ := Machine.reach_of_runIf
    (servesWell_of_test (fun _ => True)) (gatewayIdle_init id {}) hrun
  obtain ⟨hreq, hany⟩ := (Bool.and_eq_true _ _).mp htest
  obtain ⟨x, hx, hxt⟩ := List.any_eq_true.mp hany
  obtain ⟨hpid, hout⟩ := of_decide_eq_true hxt
  obtain ⟨-, hpaired, hrep⟩ := submit_idempotent id {} (fun _ => True) hw
  refine ⟨w, hw, of_decide_eq_true hreq, hpaired,
    ⟨x, hx, hpid, PyException.raisedBy_iff.mp hout⟩, fun y hy => ?_⟩
  obtain ⟨m, hm, -, hconf⟩ := hrep y hy
  exact ⟨m, hm, fun hc => (hconf hc).2⟩

/-! ## Ownership of Sessions

`create_session_if_missing` is keyed by tenant and Session id, and nothing
compares the application of a Session it finds with that of the submission. An
execution therefore has the application of its Session as long as no
submission meets a Session of another application. -/

/-- The steps in which a submission that enters a Session sees none of another
application under that id. -/
def entersOwnSession (w : SubmittersState) : SubmittersLabel → Prop
  | .act pid _ => ∀ call tenantId applicationId sessionId k,
      w.threads pid
        = some (call, .call (.run (.insertSession tenantId applicationId sessionId)) k) →
      ∀ row, (gatewayEngine.view w.shared pid).sessions tenantId sessionId = some row →
        row.applicationId = applicationId
  | _ => True

/-- **Every execution belongs to the application of its Session**, in every run
in which no submission enters a Session of another application. -/
theorem session_ownership (sha256 : String → String) (policy : CapacityPolicy)
    {w : SubmittersState} (h : (submittersMachine sha256 policy).Reach entersOwnSession w) :
    ∀ e ∈ w.shared.committed.executions, ∃ row,
      w.shared.committed.sessions e.tenantId e.sessionId = some row
        ∧ row.applicationId = e.applicationId := by
  have hreach : (submittersMachine sha256 policy).Reach
      (Pool.stepOk (fun _ _ => True) (gatewayAllow True (fun _ => False))
        (fun _ _ => True)) w := by
    refine h.mono (fun w l hl => ?_)
    cases l with
    | act pid c =>
      intro call op k hth
      refine ⟨fun hh => hh.elim, ?_⟩
      split
      · exact fun _ => hl call _ _ _ k hth
      · trivial
    | _ => trivial
  have hgood := Pool.reach_safe
    (submissionDiscipline True (fun _ => False) sha256 policy) hreach
  have hinv : Consistent True w.shared := hgood.inv
  exact hinv.coherent.belongs trivial

theorem secondMessage_length : ∀ m ∈ some "n", 1 ≤ m.length ∧ m.length ≤ 256 := by
  decide

/-- A submission of another application to the same Session. -/
def foreignGreeting : AgentExecutionSubmission :=
  { greeting with
    applicationId := 20
    messageId := some "n"
    messageId_length := secondMessage_length }

/-- A test of `entersOwnSession`. -/
def entersOwnSessionTest (w : SubmittersState) : SubmittersLabel → Bool
  | .act pid _ =>
    match w.threads pid with
    | some (_, .call (.run (.insertSession tenantId applicationId sessionId)) _) =>
      ((gatewayEngine.view w.shared pid).sessions tenantId sessionId).all
        (fun row => row.applicationId = applicationId)
    | _ => true
  | _ => true

theorem entersOwnSession_of_test (w : SubmittersState) (l : SubmittersLabel)
    (h : entersOwnSessionTest w l = true) : entersOwnSession w l := by
  cases l with
  | act pid c =>
    intro call tenantId applicationId sessionId k hth row hrow
    simp only [entersOwnSessionTest, hth, hrow, Option.all_some, decide_eq_true_eq] at h
    exact h
  | _ => trivial

/-- Two submissions to one Session, of two applications and of one. -/
theorem shared_session_runs :
    ((submittersMachine id {}).run gatewayIdle
      (acceptedRun 0 greeting 100 ++ acceptedRun 1 foreignGreeting 200)).map
        (fun w => w.shared.committed.executions.any (fun e => e.applicationId = 20
          ∧ (w.shared.committed.sessions e.tenantId e.sessionId).map (·.applicationId)
            = some 10)) = some true
    ∧ ((submittersMachine id {}).runIf entersOwnSessionTest gatewayIdle
      (acceptedRun 0 greeting 100
        ++ acceptedRun 1 { greeting with messageId := none, messageId_length := by decide }
          200 ++ ([.act 1 (.serve {})] : List SubmittersLabel))).map
        (fun w => decide (w.shared.committed.executions.length = 2)) = some true := by
  decide +kernel

/-- **Two applications share a Session id**: the second execution is entered
into the Session of the first application. -/
theorem session_shared_by_applications :
    ¬ ∀ w, (submittersMachine id {}).Reach Machine.anyStep w →
      ∀ e ∈ w.shared.committed.executions, ∃ row,
        w.shared.committed.sessions e.tenantId e.sessionId = some row
          ∧ row.applicationId = e.applicationId := by
  intro hall
  have hrun := shared_session_runs.1
  obtain ⟨w, hw, htest⟩ := Machine.reach_of_run (gatewayIdle_init id {}) hrun
  obtain ⟨e, he, htest⟩ := List.any_eq_true.mp htest
  obtain ⟨happ, hsess⟩ := of_decide_eq_true htest
  obtain ⟨row, hrow, hown⟩ := hall w hw e he
  rw [hrow, Option.map_some, Option.some.injEq, hown, happ] at hsess
  exact absurd hsess (by decide)

/-- Two submissions of one application to one Session. -/
theorem session_ownership_greeting :
    ∃ w, (submittersMachine id {}).Reach entersOwnSession w
      ∧ w.shared.committed.executions.length = 2
      ∧ ∀ e ∈ w.shared.committed.executions, ∃ row,
        w.shared.committed.sessions e.tenantId e.sessionId = some row
          ∧ row.applicationId = e.applicationId := by
  have hrun := shared_session_runs.2
  obtain ⟨w, hw, htest⟩ := Machine.reach_of_runIf entersOwnSession_of_test
    (gatewayIdle_init id {}) hrun
  exact ⟨w, hw, of_decide_eq_true htest, session_ownership id {} hw⟩
