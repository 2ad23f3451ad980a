import AgentPlatform.Submission
import AgentPlatform.Observed

/-!
# The cap and the tokens of admission

`platform.try_admit_execution` counts the pending executions and takes a token
from the bucket, and the submission inserts its row later in the same
transaction. What makes the count good until then is the advisory lock, which is
held to the end of the transaction: nobody else can be admitted in between, so
the cap holds for every number of replicas.

The token is another matter. A submission may be admitted and then find, at the
insert, that the message was entered while it waited for the lock. It answers
with the duplicate, and its transaction – with the token in it – is committed.
`tokenBook` keeps account of the tokens that are gone. They are as many as the
executions in every run in which no admitted submission meets its own message at
the insert.
-/

/-! ## The account -/

/-- Who has taken a token in the transaction it has open, and whose token is gone
for good. -/
structure TokenBook where
  taken : ℕ → Bool
  removed : List ℕ

/-- An admission takes a token, a refusal none. -/
def TokenBook.takeToken (pid : ℕ) (admission : Admission) (g : TokenBook) : TokenBook :=
  if admission = .ALLOWED then { g with taken := Function.update g.taken pid true } else g

/-- A token is taken with the admission, and gone when the transaction is
committed. -/
def tokenBook (pid : ℕ) (op : TxOp SubmitOp) (r : Except PyException (TxRes SubmitRes op))
    (s s' : GatewayState) (g : TokenBook) : TokenBook :=
  match op, r with
  | .run (.tryAdmit _), .ok admission => g.takeToken pid admission
  | .commit, _ =>
    -- A commit that failed has left no trace in the history of the database.
    { taken := Function.update g.taken pid false
      removed := if g.taken pid ∧ s.log.length < s'.log.length then g.removed ++ [pid]
        else g.removed }
  | .rollback, _ => { g with taken := Function.update g.taken pid false }
  | _, _ => g

/-- The database of the gateway and the account of its tokens. -/
abbrev GatewayBooks := GatewayState × TokenBook

/-- **The submissions, with the account of their tokens.** -/
def bookedSubmitters (sha256 : String → String) (policy : CapacityPolicy) :=
  (submitters sha256 policy).observed tokenBook
    (fun pid g => { g with taken := Function.update g.taken pid false })

/-- The gateway starts on an empty database, and no token is gone. -/
def booksStart (x : GatewayBooks) : Prop :=
  gatewayStart x.1 ∧ x.2 = ⟨fun _ => false, []⟩

/-- **An admitted submission does not meet its own message at the insert**, in the
runs that are asked to be `strict`. -/
def meetsNoDuplicate (strict : Prop) (_ : ℕ) (_ : Choice GatewayAnswer) (op : TxOp SubmitOp)
    (x : GatewayBooks) : Prop :=
  strict → ∀ row, op = .run (.insertExecution row) → ∀ e ∈ x.1.committed.executions,
    ¬ (e.tenantId = row.tenantId ∧ e.messageId = row.messageId ∧ e.payloadHash = row.payloadHash)

/-- Workers move executions out of `PENDING`. -/
def leavesPending (_ : GatewayBooks) (u : StatusUpdate) : Prop := u.status ≠ .pending

/-- The executions that are pending. -/
def ExecutionDb.pendingCount (db : ExecutionDb) : ℕ :=
  (db.executions.filter (fun e => e.status = .pending)).length

/-! ## What a run keeps -/

/-- **Nothing but statuses changed, and no execution became pending.** -/
structure Rests (db db' : ExecutionDb) : Prop where
  executions : db'.executions.map AgentExecution.identity
    = db.executions.map AgentExecution.identity
  pending : db'.pendingCount ≤ db.pendingCount

theorem Rests.refl (db : ExecutionDb) : Rests db db := ⟨rfl, Nat.le_refl _⟩

theorem Rests.trans {a b c : ExecutionDb} (h : Rests a b) (h' : Rests b c) : Rests a c :=
  ⟨h'.executions.trans h.executions, Nat.le_trans h'.pending h.pending⟩

theorem Rests.of_executions {a b : ExecutionDb} (h : b.executions = a.executions) : Rests a b := by
  refine ⟨by rw [h], ?_⟩
  unfold ExecutionDb.pendingCount
  rw [h]

theorem rests_setExecutionStatus {u : StatusUpdate} (hu : u.status ≠ .pending) (db : ExecutionDb) :
    Rests db (setExecutionStatus u db) := by
  refine ⟨(aged_setExecutionStatus u db).executions, ?_⟩
  unfold ExecutionDb.pendingCount
  show ((db.executions.map _).filter _).length ≤ _
  rw [List.filter_map, List.length_map]
  refine (List.Sublist.length_le ?_)
  refine List.monotone_filter_right db.executions (fun e he => ?_)
  by_cases hkey : e.tenantId = u.tenantId ∧ e.id = u.id
  · simp [hkey, hu] at he
  · simpa [hkey] using he

/-- Inserted executions add at most their number to those pending. -/
theorem pendingCount_applyAll (ws : List GatewayWrite) (db : ExecutionDb) :
    (gatewayEngine.applyAll ws db).pendingCount ≤ db.pendingCount + (inserted ws).length := by
  unfold ExecutionDb.pendingCount
  rw [executions_applyAll, List.filter_append, List.length_append]
  exact Nat.add_le_add_left (List.length_filter_le _ _) _

/-- **The invariant of the gateway's books**: the cap holds, it holds after the
insert of the one transaction that has inserted an execution, and – in a strict
run – the tokens gone are as many as the executions. -/
structure BooksInv (policy : CapacityPolicy) (strict : Prop) (x : GatewayBooks) : Prop where
  capped : (x.1.committed.pendingCount : ℤ) ≤ max 0 policy.maxInFlight
  inserting : ∀ q ws, x.1.pending q = some ws → inserted ws ≠ [] →
    x.1.holder .admissionLock = some q
      ∧ ((x.1.committed.pendingCount + (inserted ws).length : ℕ) : ℤ) ≤ max 0 policy.maxInFlight
  balanced : strict → x.2.removed.length = x.1.committed.executions.length

/-- **What a submission relies on**: its transaction and its token are its own,
and while it holds the admission lock no execution is entered. -/
structure Spared (pid : ℕ) (x y : GatewayBooks) : Prop where
  pending : y.1.pending pid = x.1.pending pid
  lock : y.1.holder .admissionLock = some pid ↔ x.1.holder .admissionLock = some pid
  held : x.1.holder .admissionLock = some pid → Rests x.1.committed y.1.committed
  taken : y.2.taken pid = x.2.taken pid
  removed : pid ∈ y.2.removed ↔ pid ∈ x.2.removed

theorem Spared.refl (pid : ℕ) (x : GatewayBooks) : Spared pid x x :=
  ⟨rfl, Iff.rfl, fun _ => .refl _, rfl, Iff.rfl⟩

theorem Spared.trans {pid : ℕ} {x y z : GatewayBooks} (h : Spared pid x y) (h' : Spared pid y z) :
    Spared pid x z :=
  ⟨h'.pending.trans h.pending, h'.lock.trans h.lock,
    fun hl => (h.held hl).trans (h'.held (h.lock.mpr hl)), h'.taken.trans h.taken,
    h'.removed.trans h.removed⟩

section Steps

variable {policy : CapacityPolicy} {strict : Prop} {pid : ℕ} {x : GatewayBooks}
  {s' : GatewayState} {g : TokenBook}

/-- **A request that commits nothing.** -/
theorem BooksInv.step_same (hx : BooksInv policy strict x)
    (hpending : ∀ q, q ≠ pid → s'.pending q = x.1.pending q)
    (hlock : ∀ q, q ≠ pid → (s'.holder .admissionLock = some q
      ↔ x.1.holder .admissionLock = some q))
    (hc : s'.committed.executions = x.1.committed.executions)
    (htaken : ∀ q, q ≠ pid → g.taken q = x.2.taken q) (hremoved : g.removed = x.2.removed)
    (hself : ∀ ws, s'.pending pid = some ws → inserted ws ≠ [] →
      s'.holder .admissionLock = some pid
        ∧ ((x.1.committed.pendingCount + (inserted ws).length : ℕ) : ℤ)
          ≤ max 0 policy.maxInFlight) :
    BooksInv policy strict (s', g) ∧ ∀ q, q ≠ pid → Spared q x (s', g) := by
  have hcount : s'.committed.pendingCount = x.1.committed.pendingCount := by
    unfold ExecutionDb.pendingCount
    rw [hc]
  refine ⟨⟨?_, fun q ws hq hne => ?_, fun hstrict => ?_⟩, fun q hq => ?_⟩
  · rw [hcount]
    exact hx.capped
  · rw [hcount]
    by_cases hqp : q = pid
    · rw [hqp] at hq ⊢
      exact hself ws hq hne
    · obtain ⟨hl, hle⟩ := hx.inserting q ws ((hpending q hqp).symm.trans hq) hne
      exact ⟨(hlock q hqp).mpr hl, hle⟩
  · show g.removed.length = s'.committed.executions.length
    rw [hremoved, hc]
    exact hx.balanced hstrict
  · exact ⟨hpending q hq, hlock q hq, fun _ => .of_executions hc, htaken q hq, by rw [hremoved]⟩

/-- Opening a transaction. -/
theorem BooksInv.opened (hx : BooksInv policy strict x) :
    BooksInv policy strict (Engine.opened x.1 pid, x.2)
      ∧ ∀ q, q ≠ pid → Spared q x (Engine.opened x.1 pid, x.2) := by
  refine hx.step_same (fun q hq => Function.update_of_ne hq _ _) (fun _ _ => Iff.rfl) rfl
    (fun _ _ => rfl) rfl ?_
  intro ws hws hne
  simp only [Engine.opened, Function.update_self, Option.some.injEq] at hws
  exact absurd (by rw [← hws]; rfl) hne

/-- Ending a transaction without its writes. -/
theorem BooksInv.close (hx : BooksInv policy strict x)
    (htaken : ∀ q, q ≠ pid → g.taken q = x.2.taken q) (hremoved : g.removed = x.2.removed) :
    BooksInv policy strict (Engine.close x.1 pid, g)
      ∧ ∀ q, q ≠ pid → Spared q x (Engine.close x.1 pid, g) := by
  refine hx.step_same (fun q hq => Function.update_of_ne hq _ _) (fun q hq => ?_) rfl htaken
    hremoved ?_
  · by_cases hl : x.1.holder .admissionLock = some pid
    · simp [Engine.close, hl, Ne.symm hq]
    · simp [Engine.close, hl]
  · intro ws hws
    simp [Engine.close] at hws

/-- A statement of a transaction. -/
theorem BooksInv.ran (hx : BooksInv policy strict x) {a : GatewayAnswer} {op : SubmitOp}
    (hin : (x.1.pending pid).isSome)
    (hfree : op.locks.all (Engine.free x.1 pid) = true)
    (htaken : ∀ q, q ≠ pid → g.taken q = x.2.taken q) (hremoved : g.removed = x.2.removed)
    (hself : ∀ ws, (gatewayEngine.ran pid a op x.1).pending pid = some ws → inserted ws ≠ [] →
      (gatewayEngine.ran pid a op x.1).holder .admissionLock = some pid
        ∧ ((x.1.committed.pendingCount + (inserted ws).length : ℕ) : ℤ)
          ≤ max 0 policy.maxInFlight) :
    BooksInv policy strict (gatewayEngine.ran pid a op x.1, g)
      ∧ ∀ q, q ≠ pid → Spared q x (gatewayEngine.ran pid a op x.1, g) := by
  refine hx.step_same (fun q hq => ?_) (fun q hq => ?_) ?_ htaken hremoved hself
  · obtain ⟨ws, hws⟩ := Option.isSome_iff_exists.mp hin
    simp [Engine.ran, Engine.perform, hws, Function.update_of_ne hq]
  · rw [Engine.holder_ran hin]
    by_cases hl : GatewayRow.admissionLock
        ∈ gatewayEngine.locks op (Engine.free x.1 pid) (gatewayEngine.view x.1 pid) x.1.ext
    · have hnot := Engine.not_held_of_free hq hfree hl
      simp [hl, hnot, Ne.symm hq]
    · simp [hl]
  · rw [Engine.committed_ran hin]

end Steps

/-! ## Rules for the programs -/

/-- A program of `pid` keeps the books and meets a postcondition. -/
abbrev KeepsBooks (policy : CapacityPolicy) (strict : Prop) (pid : ℕ) {α : Type} (p : SubmitProg α)
    (Q : Except PyException α → GatewayBooks → Prop) (x : GatewayBooks) : Prop :=
  p.Safe (Prog.Handled (gatewayEngine.watchedHandler tokenBook pid) (meetsNoDuplicate strict pid))
    (fun a b => BooksInv policy strict b ∧ Spared pid a b)
    (fun a b => BooksInv policy strict b ∧ ∀ q, q ≠ pid → Spared q a b) Q x

/-- **In the transaction of a submission**: what it has inserted, and whether it
has a token. -/
structure Doing (pid : ℕ) (ins : List AgentExecution) (took : Bool) (x : GatewayBooks) : Prop where
  pending : ∃ ws, x.1.pending pid = some ws ∧ inserted ws = ins
  taken : x.2.taken pid = took
  unpaid : pid ∉ x.2.removed

/-- The submission holds the admission lock, and the executions are like this. -/
def Holding (pid : ℕ) (G : ExecutionDb → Prop) (x : GatewayBooks) : Prop :=
  x.1.holder .admissionLock = some pid ∧ G x.1.committed

/-- **A fact a submission can count on** while others run and while it runs
statements of its own. -/
structure Lasts (pid : ℕ) (F : GatewayBooks → Prop) : Prop where
  spared : ∀ x y, F x → Spared pid x y → F y
  own : ∀ (x : GatewayBooks) s', F x → s'.committed = x.1.committed →
    (x.1.holder .admissionLock = some pid → s'.holder .admissionLock = some pid) → F (s', x.2)

theorem lasts_true (pid : ℕ) : Lasts pid (fun _ => True) :=
  ⟨fun _ _ _ _ => trivial, fun _ _ _ _ _ => trivial⟩

/-- What resting executions keep lasts while the lock is held. -/
theorem lasts_holding (pid : ℕ) {G : ExecutionDb → Prop} (hG : ∀ a b, G a → Rests a b → G b) :
    Lasts pid (Holding pid G) := by
  refine ⟨fun x y hx hr => ?_, fun x s' hx hc hl => ?_⟩
  · exact ⟨hr.lock.mpr hx.1, hG _ _ hx.2 (hr.held hx.1)⟩
  · refine ⟨hl hx.1, ?_⟩
    show G s'.committed
    rw [hc]
    exact hx.2

section Rules

variable {policy : CapacityPolicy} {strict : Prop} {pid : ℕ} {x : GatewayBooks}
  {ins : List AgentExecution} {took : Bool} {F : GatewayBooks → Prop}

theorem Doing.spared {y : GatewayBooks} (h : Doing pid ins took x) (hr : Spared pid x y) :
    Doing pid ins took y := by
  obtain ⟨ws, hws, hins⟩ := h.pending
  exact ⟨⟨ws, hr.pending.trans hws, hins⟩, hr.taken.trans h.taken, fun hmem => h.unpaid
    (hr.removed.mp hmem)⟩

theorem Doing.isSome (h : Doing pid ins took x) : (x.1.pending pid).isSome := by
  obtain ⟨ws, hws, -⟩ := h.pending
  rw [hws]
  rfl

/-- What a submission sees of the executions. -/
theorem Doing.view (h : Doing pid ins took x) :
    (gatewayEngine.view x.1 pid).executions = x.1.committed.executions ++ ins := by
  obtain ⟨ws, hws, rfl⟩ := h.pending
  simp only [Engine.view, hws]
  exact executions_applyAll ws x.1.committed

/-- What it has inserted after a statement. -/
theorem Doing.pending_ran (h : Doing pid ins took x) (a : GatewayAnswer) (op : SubmitOp) :
    ∃ ws, (gatewayEngine.ran pid a op x.1).pending pid = some ws
      ∧ inserted ws = ins ++ inserted (op.exec a (gatewayEngine.view x.1 pid)).2 := by
  obtain ⟨ws, hws, rfl⟩ := h.pending
  refine ⟨_, Engine.pending_ran hws, ?_⟩
  unfold inserted
  rw [List.filterMap_append]
  rfl

/-- A statement keeps the lock of its transaction. -/
theorem lock_ran (hin : (x.1.pending pid).isSome) (a : GatewayAnswer) (op : SubmitOp)
    (h : x.1.holder .admissionLock = some pid) :
    (gatewayEngine.ran pid a op x.1).holder .admissionLock = some pid := by
  rw [Engine.holder_ran hin, h]
  split <;> rfl

/-- The statements that neither ask for admission nor insert an execution. -/
def SubmitOp.Neutral : SubmitOp → Prop
  | .tryAdmit _ | .insertExecution _ => False
  | _ => True

theorem inserted_neutral {op : SubmitOp} (h : op.Neutral) (a : GatewayAnswer) (db : ExecutionDb) :
    inserted (op.exec a db).2 = [] := by
  cases op with
  | tryAdmit policy => exact h.elim
  | insertExecution row => exact h.elim
  | insertSession t app n => exact inserted_sessionWrites db t app n
  | insertOutbox rec =>
    simp only [SubmitOp.exec]
    split <;> rfl
  | _ => rfl

theorem tokenBook_neutral (pid : ℕ) {op : SubmitOp} (hop : op.Neutral) :
    ∀ r s s' g, tokenBook pid (.run op) r s s' g = g := by
  intro r s s' g
  cases op with
  | tryAdmit policy => exact hop.elim
  | insertExecution row => exact hop.elim
  | _ => cases r <;> rfl

/-- **Neutral statements** of a transaction. -/
theorem books_neutral (op : SubmitOp) (hop : op.Neutral)
    {Q : Except PyException (SubmitRes op) → GatewayBooks → Prop} (hx : Doing pid ins took x)
    (hF : Lasts pid F) (hFx : F x)
    (herror : ∀ z, Doing pid ins took z → F z → Q (.error .sqlAlchemy) z)
    (hserve : ∀ z db a, Doing pid ins took z → F z →
      db.executions = z.1.committed.executions ++ ins → Q (op.exec a db).1 z) :
    KeepsBooks policy strict pid op.ask Q x := by
  have hnote := tokenBook_neutral pid hop
  refine Engine.watched_stmt ?_ ?_
  · rintro y ⟨hy, hr⟩ -
    rw [hnote]
    exact ⟨⟨hy, fun q _ => .refl q y⟩, herror y (hx.spared hr) (hF.spared x y hFx hr)⟩
  · rintro y a ⟨hy, hr⟩ - hfree
    have hdoing := hx.spared hr
    obtain ⟨ws, hws, hins⟩ := hdoing.pending_ran a op
    rw [inserted_neutral hop, List.append_nil] at hins
    have hran : ∀ g, g = y.2 →
        (BooksInv policy strict (gatewayEngine.ran pid a op y.1, g)
          ∧ ∀ q, q ≠ pid → Spared q y (gatewayEngine.ran pid a op y.1, g))
        ∧ Q (gatewayEngine.answer pid a op y.1) (gatewayEngine.ran pid a op y.1, g) := by
      rintro g rfl
      refine ⟨hy.ran hdoing.isSome hfree (fun _ _ => rfl) rfl (fun ws' hws' hne => ?_), ?_⟩
      · obtain ⟨ws₀, hws₀, hins₀⟩ := hdoing.pending
        have heq : ws' = ws := Option.some.inj (hws'.symm.trans hws)
        rw [heq, hins, ← hins₀] at hne ⊢
        obtain ⟨hl, hle⟩ := hy.inserting pid ws₀ hws₀ hne
        exact ⟨lock_ran hdoing.isSome a op hl, hle⟩
      · refine hserve _ _ a ⟨⟨ws, hws, hins⟩, hdoing.taken, hdoing.unpaid⟩ ?_ ?_
        · exact hF.own y _ (hF.spared x y hFx hr) (Engine.committed_ran hdoing.isSome)
            (lock_ran hdoing.isSome a op)
        · show (gatewayEngine.view y.1 pid).executions
            = (gatewayEngine.ran pid a op y.1).committed.executions ++ ins
          rw [Engine.committed_ran hdoing.isSome]
          exact hdoing.view
    exact hran _ (hnote _ _ _ _)

/-- A submission knows of a duplicate of a message. -/
def Duplicated (sub : AgentExecutionSubmission) (m hash : String) (es : List AgentExecution) :
    Prop :=
  ∃ e ∈ es, e.tenantId = sub.tenantId ∧ e.messageId = m ∧ e.payloadHash = hash

/-- **`_deduplicated_submission`** answers with duplicates only. -/
theorem books_deduplicated {sub : AgentExecutionSubmission} {m hash : String} {releaseId : Uuid}
    {Q : Except PyException (Option AgentExecutionAccepted) → GatewayBooks → Prop}
    (hx : Doing pid ins took x) (hF : Lasts pid F) (hFx : F x)
    (herror : ∀ e z, Doing pid ins took z → Q (.error e) z)
    (hnone : ∀ z, Doing pid ins took z → F z → Q (.ok none) z)
    (hsome : ∀ z accepted, Doing pid ins took z → F z → accepted.deduplicated = true →
      Duplicated sub m hash (z.1.committed.executions ++ ins) → Q (.ok (some accepted)) z) :
    KeepsBooks policy strict pid (deduplicatedSubmission sub m hash releaseId) Q x := by
  refine (Prog.safe_bind _ _ _ _).mpr (books_neutral
    (.selectExecution sub.tenantId m) trivial hx hF hFx ?_ ?_)
  · intro z hz _
    exact herror _ z hz
  · intro z db a hz hFz hdb
    simp only [SubmitOp.exec, ExecutionDb.executionByMessage]
    cases hfind : db.executions.find?
        (fun e => e.tenantId = sub.tenantId ∧ e.messageId = m) with
    | none => exact hnone z hz hFz
    | some e =>
      have hkey := List.find?_some hfind
      simp only [decide_eq_true_eq] at hkey
      have hmem := List.mem_of_find?_eq_some hfind
      by_cases hhash : e.payloadHash = hash
      · simpa [Prog.thenSafe, hhash] using
          hsome z ⟨e.id, releaseId, sub.sessionId, true⟩ hz hFz rfl
            ⟨e, hdb ▸ hmem, hkey.1, hkey.2, hhash⟩
      · simpa [Prog.thenSafe, hhash] using herror _ z hz

/-- An admission has counted fewer executions than the cap. -/
theorem tryAdmitExecution_allowed {clock clock' : Timestamp} {db : ExecutionDb}
    {bucket : AdmissionBucket}
    (h : tryAdmitExecution policy clock clock' db = .ok (.ALLOWED, bucket)) :
    (db.pendingCount : ℤ) < max 0 policy.maxInFlight := by
  unfold tryAdmitExecution at h
  split at h
  · cases h
  · simp only at h
    split at h
    · cases h
    · rename_i hcount
      exact Int.lt_of_lt_of_le (Int.not_le.mp hcount) (Int.le_max_right _ _)

/-- Fewer executions are pending than the cap. -/
def Spare (policy : CapacityPolicy) (db : ExecutionDb) : Prop :=
  (db.pendingCount : ℤ) < max 0 policy.maxInFlight

theorem spare_rests (a b : ExecutionDb) (h : Spare policy a) (hr : Rests a b) : Spare policy b := by
  have := hr.pending
  unfold Spare at *
  omega

/-- **Admission**: a token, the lock, and room for one execution. -/
theorem books_tryAdmit (hx : Doing pid [] false x) :
    KeepsBooks policy strict pid (SubmitOp.ask (.tryAdmit policy))
      (Prog.outcome (fun admission z =>
          (admission = Admission.ALLOWED → Doing pid [] true z ∧ Holding pid (Spare policy) z)
            ∧ (admission ≠ Admission.ALLOWED → Doing pid [] false z))
        (fun _ z => pid ∉ z.2.removed)) x := by
  refine Engine.watched_stmt ?_ ?_
  · rintro y ⟨hy, hr⟩ -
    exact ⟨⟨hy, fun q _ => .refl q y⟩, (hx.spared hr).unpaid⟩
  · rintro y a ⟨hy, hr⟩ - hfree
    have hdoing := hx.spared hr
    obtain ⟨ws, hws, hins⟩ := hdoing.pending_ran a (.tryAdmit policy)
    have hinserted : inserted ws = [] := by
      rw [hins, SubmitOp.exec]
      split <;> rfl
    have hlock : (gatewayEngine.ran pid a (.tryAdmit policy) y.1).holder .admissionLock
        = some pid := by
      rw [Engine.holder_ran hdoing.isSome]
      exact if_pos List.mem_cons_self
    have hkeep : ∀ g : TokenBook, (∀ q, q ≠ pid → g.taken q = y.2.taken q) →
        g.removed = y.2.removed →
        BooksInv policy strict (gatewayEngine.ran pid a (.tryAdmit policy) y.1, g)
          ∧ ∀ q, q ≠ pid → Spared q y (gatewayEngine.ran pid a (.tryAdmit policy) y.1, g) := by
      intro g htaken hremoved
      refine hy.ran hdoing.isSome hfree htaken hremoved (fun ws' hws' hne => ?_)
      exact absurd (by rw [Option.some.inj (hws'.symm.trans hws)]; exact hinserted) hne
    -- The answer is the one of the admission function on what the submission sees.
    cases hadmit : tryAdmitExecution policy a.clock a.clock' (gatewayEngine.view y.1 pid) with
    | error e =>
      have hanswer : gatewayEngine.answer pid a (.tryAdmit policy) y.1 = .error e := by
        show (SubmitOp.exec a (.tryAdmit policy) (gatewayEngine.view y.1 pid)).1 = _
        simp only [SubmitOp.exec, hadmit]
      rw [hanswer]
      exact ⟨hkeep y.2 (fun _ _ => rfl) rfl, hdoing.unpaid⟩
    | ok admitted =>
      obtain ⟨admission, bucket⟩ := admitted
      have hanswer : gatewayEngine.answer pid a (.tryAdmit policy) y.1 = .ok admission := by
        show (SubmitOp.exec a (.tryAdmit policy) (gatewayEngine.view y.1 pid)).1 = _
        simp only [SubmitOp.exec, hadmit]
      rw [hanswer]
      show (BooksInv policy strict (_, y.2.takeToken pid admission)
          ∧ ∀ q, q ≠ pid → Spared q y (_, y.2.takeToken pid admission))
        ∧ (admission = .ALLOWED → Doing pid [] true (_, y.2.takeToken pid admission)
            ∧ Holding pid (Spare policy) (_, y.2.takeToken pid admission))
          ∧ (admission ≠ .ALLOWED → Doing pid [] false (_, y.2.takeToken pid admission))
      unfold TokenBook.takeToken
      by_cases hallowed : admission = .ALLOWED
      · subst hallowed
        rw [if_pos rfl]
        refine ⟨hkeep _ (fun q hq => Function.update_of_ne hq _ _) rfl, fun _ => ⟨?_, hlock, ?_⟩,
          fun hne => absurd rfl hne⟩
        · exact ⟨⟨ws, hws, hinserted⟩, Function.update_self pid _ _, hdoing.unpaid⟩
        · have hcount := tryAdmitExecution_allowed hadmit
          show Spare policy (gatewayEngine.ran pid a (.tryAdmit policy) y.1).committed
          rw [Engine.committed_ran hdoing.isSome]
          unfold Spare ExecutionDb.pendingCount at *
          rwa [hdoing.view, List.append_nil] at hcount
      · rw [if_neg hallowed]
        exact ⟨hkeep y.2 (fun _ _ => rfl) rfl, fun h => absurd h hallowed,
          fun _ => ⟨⟨ws, hws, hinserted⟩, hdoing.taken, hdoing.unpaid⟩⟩

/-- The executions hold no duplicate of a message. -/
def Unduplicated (sub : AgentExecutionSubmission) (m hash : String) (strict : Prop)
    (db : ExecutionDb) : Prop :=
  strict → ¬ Duplicated sub m hash db.executions

theorem unduplicated_rests {sub : AgentExecutionSubmission} {m hash : String} (a b : ExecutionDb)
    (h : Unduplicated sub m hash strict a) (hr : Rests a b) :
    Unduplicated sub m hash strict b := by
  rintro hstrict ⟨e, he, ht, hm, hh⟩
  have hmem : e.identity ∈ a.executions.map AgentExecution.identity := by
    rw [← hr.executions]
    exact List.mem_map_of_mem he
  obtain ⟨e₀, he₀, heq⟩ := List.mem_map.mp hmem
  obtain ⟨ht₀, -, hm₀, hh₀, -⟩ := AgentExecution.of_identity heq
  exact h hstrict ⟨e₀, he₀, ht₀.trans ht, hm₀.trans hm, hh₀.trans hh⟩

/-- What the insert of an execution can do. -/
theorem exec_insertExecution (a : GatewayAnswer) (row : AgentExecution) (db : ExecutionDb) :
    SubmitOp.exec a (.insertExecution row) db = (.ok none, [])
      ∨ SubmitOp.exec a (.insertExecution row) db = (.error .sqlAlchemy, [])
      ∨ SubmitOp.exec a (.insertExecution row) db
        = (.ok (some row.id), [.insertExecution row]) := by
  simp only [SubmitOp.exec]
  split
  · exact .inl rfl
  · split
    · exact .inr (.inl rfl)
    · exact .inr (.inr rfl)

/-- **The insert**: the execution takes the room, or the message is there with
another payload. -/
theorem books_insertExecution {sub : AgentExecutionSubmission} {m hash : String}
    {releaseId id : Uuid} (hx : Doing pid [] true x) (hroom : Holding pid (Spare policy) x) :
    KeepsBooks policy strict pid
      (SubmitOp.ask (.insertExecution (newExecution sub releaseId id m hash)))
      (Prog.outcome (fun r z =>
          (r = none → Doing pid [] true z ∧ Holding pid (Unduplicated sub m hash strict) z)
            ∧ ∀ executionId, r = some executionId → ∃ row, Doing pid [row] true z)
        (fun _ z => pid ∉ z.2.removed)) x := by
  let op : SubmitOp := .insertExecution (newExecution sub releaseId id m hash)
  have hnote : ∀ r s s' g, tokenBook pid (.run op) r s s' g = g := by
    intro r s s' g
    cases r <;> rfl
  refine Engine.watched_stmt ?_ ?_
  · rintro y ⟨hy, hr⟩ -
    rw [hnote]
    exact ⟨⟨hy, fun q _ => .refl q y⟩, (hx.spared hr).unpaid⟩
  · rintro y a ⟨hy, hr⟩ hallow hfree
    have hdoing := hx.spared hr
    have hroom' := (lasts_holding pid spare_rests).spared x y hroom hr
    have hfresh : Unduplicated sub m hash strict y.1.committed := by
      rintro hstrict ⟨e, he, hkey⟩
      exact hallow hstrict _ rfl e he hkey
    obtain ⟨ws, hws, hins⟩ := hdoing.pending_ran a op
    have hlock := lock_ran hdoing.isSome a op hroom'.1
    have hc : (gatewayEngine.ran pid a op y.1).committed = y.1.committed :=
      Engine.committed_ran hdoing.isSome
    have hlen : (inserted (op.exec a (gatewayEngine.view y.1 pid)).2).length ≤ 1 := by
      rcases exec_insertExecution a (newExecution sub releaseId id m hash)
        (gatewayEngine.view y.1 pid) with h | h | h <;> simp [op, h, inserted]
    have hkeep : BooksInv policy strict (gatewayEngine.ran pid a op y.1, y.2)
        ∧ ∀ q, q ≠ pid → Spared q y (gatewayEngine.ran pid a op y.1, y.2) := by
      refine hy.ran hdoing.isSome hfree (fun _ _ => rfl) rfl (fun ws' hws' _ => ⟨hlock, ?_⟩)
      rw [Option.some.inj (hws'.symm.trans hws), hins, List.nil_append]
      have hspare : Spare policy y.1.committed := hroom'.2
      unfold Spare at hspare
      omega
    have hanswer : ∀ r g, r = (op.exec a (gatewayEngine.view y.1 pid)).1 → g = y.2 →
        (BooksInv policy strict (gatewayEngine.ran pid a op y.1, g)
          ∧ ∀ q, q ≠ pid → Spared q y (gatewayEngine.ran pid a op y.1, g))
        ∧ Prog.outcome (fun r z =>
            (r = none → Doing pid [] true z ∧ Holding pid (Unduplicated sub m hash strict) z)
              ∧ ∀ executionId, r = some executionId → ∃ row, Doing pid [row] true z)
          (fun _ z => pid ∉ z.2.removed) r (gatewayEngine.ran pid a op y.1, g) := by
      rintro r _ hr rfl
      refine ⟨hkeep, ?_⟩
      rcases exec_insertExecution a (newExecution sub releaseId id m hash)
        (gatewayEngine.view y.1 pid) with h | h | h
      · rw [show op.exec a (gatewayEngine.view y.1 pid) = _ from h] at hr hins
        subst hr
        refine ⟨fun _ => ⟨⟨⟨ws, hws, hins⟩, hdoing.taken, hdoing.unpaid⟩, hlock, ?_⟩, ?_⟩
        · show Unduplicated sub m hash strict (gatewayEngine.ran pid a op y.1).committed
          rw [hc]
          exact hfresh
        · intro executionId hsome
          cases hsome
      · rw [show op.exec a (gatewayEngine.view y.1 pid) = _ from h] at hr
        subst hr
        exact hdoing.unpaid
      · rw [show op.exec a (gatewayEngine.view y.1 pid) = _ from h] at hr hins
        subst hr
        refine ⟨fun hnone => absurd hnone (by simp), fun _ _ => ?_⟩
        exact ⟨_, ⟨ws, hws, hins⟩, hdoing.taken, hdoing.unpaid⟩
    exact hanswer _ _ rfl (hnote _ _ _ _)

/-- **How the transaction of a submission ends**: it has a token and an execution
or – in a strict run – neither. -/
def Settles (strict : Prop) (pid : ℕ) :
    Except PyException AgentExecutionAccepted → GatewayBooks → Prop
  | .ok accepted, z => ∃ ins took, Doing pid ins took z
      ∧ (strict → ins.length = took.toNat ∧ (accepted.deduplicated = true → took = false))
  | .error _, z => pid ∉ z.2.removed

theorem settles_duplicate {accepted : AgentExecutionAccepted} (h : Doing pid [] false x) :
    Settles strict pid (.ok accepted) x :=
  ⟨[], false, h, fun _ => ⟨rfl, fun _ => rfl⟩⟩

/-- **From the insert on.** -/
theorem books_insertRequested {sub : AgentExecutionSubmission} {m hash : String}
    {releaseId : Uuid} {classification : Option DataClassification} (hx : Doing pid [] true x)
    (hroom : Holding pid (Spare policy) x) :
    KeepsBooks policy strict pid (insertRequested sub m hash releaseId classification)
      (Settles strict pid) x := by
  unfold insertRequested
  refine (Prog.safe_bind _ _ _ _).mpr (books_neutral .uuid7 trivial hx
    (lasts_holding pid spare_rests)
    hroom (fun z hz _ => hz.unpaid) ?_)
  intro z _ a hz hroom' _
  refine Prog.Safe.bind (books_insertExecution hz hroom') (fun r z' hz' => ?_) (fun _ _ h => h)
  cases r with
  | none =>
    obtain ⟨hdoing, hheld⟩ := hz'.1 rfl
    refine (Prog.safe_bind _ _ _ _).mpr (books_deduplicated hdoing
      (lasts_holding pid unduplicated_rests) hheld ?_ ?_ ?_)
    · exact fun _ v hv => hv.unpaid
    · exact fun v hv _ => hv.unpaid
    · intro v accepted hv hheld' _ hdup
      -- The message is there with this payload: not in a strict run.
      refine ⟨[], true, hv, fun hstrict => absurd ?_ (hheld'.2 hstrict)⟩
      rwa [List.append_nil] at hdup
  | some executionId =>
    obtain ⟨row, hdoing⟩ := hz'.2 executionId rfl
    refine (Prog.safe_bind _ _ _ _).mpr (books_neutral .uuid7 trivial hdoing
      (lasts_true pid) trivial
      (fun v hv _ => hv.unpaid) ?_)
    intro v _ a' hv _ _
    refine (Prog.safe_bind _ _ _ _).mpr (books_neutral (.insertOutbox _) trivial hv (lasts_true pid)
      trivial (fun u hu _ => hu.unpaid) ?_)
    intro u db a'' hu _ _
    simp only [SubmitOp.exec]
    split
    · exact ⟨[row], true, hu, fun _ => ⟨rfl, fun h => absurd h (by simp)⟩⟩
    · exact hu.unpaid

/-- **The body of the transaction.** -/
theorem books_submitTransaction {sub : AgentExecutionSubmission} {m hash : String}
    {releaseId : Uuid} (hx : Doing pid [] false x) :
    KeepsBooks policy strict pid (submitTransaction policy sub m hash releaseId)
      (Settles strict pid) x := by
  unfold submitTransaction
  refine (Prog.safe_bind _ _ _ _).mpr (books_neutral (.selectRelease _ _) trivial hx
    (lasts_true pid)
    trivial (fun z hz _ => hz.unpaid) ?_)
  intro z _ a hz _ _
  cases hrelease : a.release with
  | none =>
    simp only [SubmitOp.exec, hrelease]
    exact hz.unpaid
  | some classification =>
    simp only [SubmitOp.exec, hrelease]
    refine (Prog.safe_bind _ _ _ _).mpr (books_deduplicated hz (lasts_true pid) trivial
      (fun _ v hv => hv.unpaid) (fun v hv _ => ?_)
        (fun v accepted hv _ _ _ => settles_duplicate hv))
    refine Prog.Safe.bind (books_tryAdmit hv) (fun admission u hu => ?_) (fun _ _ h => h)
    by_cases hallowed : admission = .ALLOWED
    · obtain ⟨hdoing, hroom⟩ := hu.1 hallowed
      rw [if_neg (by simpa using hallowed)]
      unfold enterExecution createSessionIfMissing
      by_cases hlen : ¬ (1 ≤ sub.sessionId.length ∧ sub.sessionId.length ≤ maxSessionIdLength)
      · rw [if_pos hlen]
        exact hdoing.unpaid
      · rw [if_neg hlen]
        refine (Prog.safe_bind _ _ _ _).mpr (books_neutral (.insertSession _ _ _) trivial hdoing
          (lasts_holding pid spare_rests) hroom (fun v' hv' _ => hv'.unpaid) ?_)
        intro v' _ a' hv' hroom' _
        exact books_insertRequested hv' hroom'
    · rw [if_pos hallowed]
      refine (Prog.safe_bind _ _ _ _).mpr (books_deduplicated (hu.2 hallowed)
        (lasts_true pid) trivial
        (fun _ v' hv' => hv'.unpaid) (fun v' hv' _ => hv'.unpaid)
        (fun v' accepted hv' _ _ _ => settles_duplicate hv'))

/-- **Committing** what the transaction of a submission has done. -/
theorem BooksInv.publish {g : TokenBook} (hx : BooksInv policy strict x)
    (hdoing : Doing pid ins took x) (hbalance : strict → ins.length = took.toNat)
    (htaken : ∀ q, q ≠ pid → g.taken q = x.2.taken q)
    (hremoved : g.removed = if took then x.2.removed ++ [pid] else x.2.removed) :
    BooksInv policy strict (gatewayEngine.publish x.1 pid, g)
      ∧ ∀ q, q ≠ pid → Spared q x (gatewayEngine.publish x.1 pid, g) := by
  have hview := hdoing.view
  obtain ⟨ws, hws, hins⟩ := hdoing.pending
  have hcommitted : (gatewayEngine.publish x.1 pid).committed = gatewayEngine.view x.1 pid := rfl
  have hcount : (gatewayEngine.publish x.1 pid).committed.pendingCount
      ≤ x.1.committed.pendingCount + ins.length := by
    rw [hcommitted, ← hins]
    simp only [Engine.view, hws]
    exact pendingCount_applyAll ws x.1.committed
  have hlock : ∀ q, q ≠ pid → ((gatewayEngine.publish x.1 pid).holder .admissionLock = some q
      ↔ x.1.holder .admissionLock = some q) := by
    intro q hq
    by_cases hl : x.1.holder .admissionLock = some pid
    · simp [Engine.publish, Engine.close, Engine.install, hl, Ne.symm hq]
    · simp [Engine.publish, Engine.close, Engine.install, hl]
  have hpending : ∀ q, q ≠ pid →
      (gatewayEngine.publish x.1 pid).pending q = x.1.pending q :=
    fun q hq => Function.update_of_ne hq _ _
  -- Whoever has inserted an execution holds the lock, so no other has.
  have hsole : ∀ q, q ≠ pid → x.1.holder .admissionLock = some q → ins = [] := by
    intro q hq hl
    by_contra hne
    have hpid := (hx.inserting pid ws hws (hins.symm ▸ hne)).1
    rw [hl] at hpid
    exact hq (Option.some.inj hpid)
  refine ⟨⟨?_, fun q ws' hq hne => ?_, fun hstrict => ?_⟩, fun q hq => ?_⟩
  · by_cases hnil : ins = []
    · have := hx.capped
      simp only [hnil, List.length_nil] at hcount
      show ((gatewayEngine.publish x.1 pid).committed.pendingCount : ℤ) ≤ _
      omega
    · have hle := (hx.inserting pid ws hws (hins.symm ▸ hnil)).2
      rw [hins] at hle
      show ((gatewayEngine.publish x.1 pid).committed.pendingCount : ℤ) ≤ _
      omega
  · by_cases hqp : q = pid
    · rw [hqp] at hq
      have hnone : (gatewayEngine.publish x.1 pid).pending pid = none :=
        Function.update_self pid _ _
      rw [show (gatewayEngine.publish x.1 pid, g).1.pending pid = none from hnone] at hq
      cases hq
    · obtain ⟨hl, hle⟩ := hx.inserting q ws' ((hpending q hqp).symm.trans hq) hne
      refine ⟨(hlock q hqp).mpr hl, ?_⟩
      simp only [hsole q hqp hl, List.length_nil] at hcount
      show (((gatewayEngine.publish x.1 pid).committed.pendingCount + _ : ℕ) : ℤ) ≤ _
      omega
  · show g.removed.length = (gatewayEngine.publish x.1 pid).committed.executions.length
    have hold := hx.balanced hstrict
    have hlen := hbalance hstrict
    rw [hcommitted, hview, hremoved, List.length_append, hlen, ← hold]
    cases took <;> simp
  · refine ⟨hpending q hq, hlock q hq, fun hl => .of_executions ?_, htaken q hq, ?_⟩
    · show (gatewayEngine.publish x.1 pid).committed.executions = _
      rw [hcommitted, hview, hsole q hq hl, List.append_nil]
    · show q ∈ g.removed ↔ q ∈ x.2.removed
      rw [hremoved]
      cases took <;> simp [hq]

/-- **What a submission answers**: a duplicate and a refusal have cost nothing. -/
def Costs (strict : Prop) (pid : ℕ) : Except PyException AgentExecutionAccepted →
    GatewayBooks → Prop
  | .ok accepted, z => strict → accepted.deduplicated = true → pid ∉ z.2.removed
  | .error (.agentGateway _), z => pid ∉ z.2.removed
  | .error _, _ => True

theorem costs_error {e : PyException} (h : pid ∉ x.2.removed) : Costs strict pid (.error e) x := by
  cases e <;> first | exact h | trivial

/-- **The transaction of a submission.** -/
theorem books_transaction {body : SubmitProg AgentExecutionAccepted}
    (htaken : x.2.taken pid = false)
    (hunpaid : pid ∉ x.2.removed)
    (hbody : ∀ y, Doing pid [] false y → KeepsBooks policy strict pid body (Settles strict pid) y) :
    KeepsBooks policy strict pid (Engine.transaction body) (Costs strict pid) x := by
  refine Engine.watched_transaction ?_ ?_
  · rintro y ⟨hy, hr⟩ -
    exact ⟨⟨hy, fun q _ => .refl q y⟩, costs_error (fun hmem => hunpaid (hr.removed.mp hmem))⟩
  · rintro y ⟨hy, hr⟩
    have hdoing : Doing pid [] false (Engine.opened y.1 pid, y.2) :=
      ⟨⟨[], Function.update_self pid _ _, rfl⟩, hr.taken.trans htaken,
        fun hmem => hunpaid (hr.removed.mp hmem)⟩
    refine ⟨hy.opened, (hbody _ hdoing).mono (fun r z hz => ?_)⟩
    cases r with
    | error e =>
      rintro v ⟨hv, hr'⟩
      exact ⟨hv.close (fun q hq => Function.update_of_ne hq _ _) rfl,
        costs_error (fun hmem => hz (hr'.removed.mp hmem))⟩
    | ok accepted =>
      obtain ⟨ins, took, hdoing, hsettled⟩ := hz
      rintro v ⟨hv, hr'⟩
      have hdoing' := hdoing.spared hr'
      have hlog : v.1.log.length < (gatewayEngine.publish v.1 pid).log.length := by
        simp [Engine.publish, Engine.close, Engine.install]
      have hnote : ∀ r, tokenBook pid .commit r v.1 (gatewayEngine.publish v.1 pid) v.2
          = ⟨Function.update v.2.taken pid false,
            if took then v.2.removed ++ [pid] else v.2.removed⟩ := by
        intro r
        simp [tokenBook, hlog, hdoing'.taken]
      have hfailed : ∀ r, tokenBook pid .commit r v.1 (Engine.close v.1 pid) v.2
          = ⟨Function.update v.2.taken pid false, v.2.removed⟩ := by
        intro r
        simp [tokenBook, Engine.close]
      have hpublish : BooksInv policy strict (gatewayEngine.publish v.1 pid,
            ⟨Function.update v.2.taken pid false,
              if took then v.2.removed ++ [pid] else v.2.removed⟩)
          ∧ ∀ q, q ≠ pid → Spared q v (gatewayEngine.publish v.1 pid,
            ⟨Function.update v.2.taken pid false,
              if took then v.2.removed ++ [pid] else v.2.removed⟩) :=
        hv.publish hdoing' (fun hstrict => (hsettled hstrict).1)
          (fun q hq => Function.update_of_ne hq _ _) rfl
      refine ⟨?_, fun _ => ?_, fun _ => ?_⟩
      · rw [hnote]
        refine ⟨hpublish, fun hstrict hdup => ?_⟩
        rw [(hsettled hstrict).2 hdup]
        exact hdoing'.unpaid
      · rw [hnote]
        exact ⟨hpublish, trivial⟩
      · rw [hfailed]
        exact ⟨hv.close (fun q hq => Function.update_of_ne hq _ _) rfl, trivial⟩

/-- Outside its transaction a submission writes nothing. -/
theorem books_outside (op : SubmitOp) (hop : op.Neutral) (hwrites : ∀ a db, (op.exec a db).2 = [])
    {Q : Except PyException (SubmitRes op) → GatewayBooks → Prop}
    (hpending : x.1.pending pid = none)
    (htaken : x.2.taken pid = false) (hunpaid : pid ∉ x.2.removed)
    (hQ : ∀ r z, z.1.pending pid = none → z.2.taken pid = false → pid ∉ z.2.removed → Q r z) :
    KeepsBooks policy strict pid op.ask Q x := by
  have hnote := tokenBook_neutral pid hop
  refine Engine.watched_stmt ?_ ?_
  · rintro y ⟨hy, hr⟩ -
    rw [hnote]
    exact ⟨⟨hy, fun q _ => .refl q y⟩, hQ _ y (hr.pending.trans hpending) (hr.taken.trans htaken)
      (fun hmem => hunpaid (hr.removed.mp hmem))⟩
  · rintro y a ⟨hy, hr⟩ - _
    have hpending' : y.1.pending pid = none := hr.pending.trans hpending
    have hwrites' : (gatewayEngine.exec a op (Engine.free y.1 pid) (gatewayEngine.view y.1 pid)
        y.1.ext).2.1 = [] := hwrites a _
    have hran : gatewayEngine.ran pid a op y.1 = Engine.install y.1 pid y.1.committed := by
      unfold Engine.ran Engine.perform
      rw [hpending', hwrites']
      rfl
    have hstep : ∀ g, g = y.2 →
        (BooksInv policy strict (gatewayEngine.ran pid a op y.1, g)
          ∧ ∀ q, q ≠ pid → Spared q y (gatewayEngine.ran pid a op y.1, g))
        ∧ Q (gatewayEngine.answer pid a op y.1) (gatewayEngine.ran pid a op y.1, g) := by
      rintro g rfl
      rw [hran]
      refine ⟨hy.step_same (fun _ _ => rfl) (fun _ _ => Iff.rfl) rfl (fun _ _ => rfl) rfl ?_,
        hQ _ _ hpending' (hr.taken.trans htaken) (fun hmem => hunpaid (hr.removed.mp hmem))⟩
      intro ws hws
      rw [show (Engine.install y.1 pid y.1.committed).pending pid = none from hpending'] at hws
      cases hws
    exact hstep _ (hnote _ _ _ _)

/-- **`submit` keeps the books.** -/
theorem books_submit (sha256 : String → String) (sub : AgentExecutionSubmission)
    (hpending : x.1.pending pid = none) (htaken : x.2.taken pid = false)
    (hunpaid : pid ∉ x.2.removed) :
    KeepsBooks policy strict pid (submit sha256 policy sub) (Costs strict pid) x := by
  have hmain : ∀ m releaseId y, y.1.pending pid = none → y.2.taken pid = false →
      pid ∉ y.2.removed → KeepsBooks policy strict pid (Engine.transaction
        (submitTransaction policy sub m (payloadHash sha256 sub) releaseId)) (Costs strict pid) y :=
    fun m releaseId y _ hy hy' => books_transaction hy hy' (fun z hz => books_submitTransaction hz)
  refine (Prog.safe_bind _ _ _ _).mpr (books_outside (.resolveDeployment _ _ _ _) trivial
    (fun _ _ => rfl) hpending htaken hunpaid ?_)
  intro r y hy hy' hy''
  cases r with
  | error e => exact costs_error hy''
  | ok release =>
    cases release with
    | none => exact (costs_error hy'' : Costs strict pid (.error deploymentNotFound) y)
    | some releaseId =>
      unfold submissionMessageId
      have hdrawn : KeepsBooks policy strict pid
          (submissionMessageId.drawn.bind (fun m => Engine.transaction
            (submitTransaction policy sub m (payloadHash sha256 sub) releaseId)))
          (Costs strict pid) y := by
        refine Prog.Safe.bind (Q := fun _ z => z.1.pending pid = none ∧ z.2.taken pid = false
          ∧ pid ∉ z.2.removed) ?_ (fun m z hz => hmain m releaseId z hz.1 hz.2.1 hz.2.2)
          (fun e z hz => costs_error hz.2.2)
        refine (Prog.safe_bind _ _ _ _).mpr (books_outside .uuid7 trivial (fun _ _ => rfl)
          hy hy' hy'' ?_)
        intro r z hz hz' hz''
        cases r with
        | error e => exact ⟨hz, hz', hz''⟩
        | ok id => exact ⟨hz, hz', hz''⟩
      cases hm : sub.messageId with
      | none => exact hdrawn
      | some m =>
        by_cases hempty : m = ""
        · simp only [hempty, if_true]
          exact hdrawn
        · simp only [hempty, if_false]
          exact hmain m releaseId y hy hy' hy''

end Rules

/-! ## Every run -/

/-- The discipline of the submissions and their tokens. -/
def booksDiscipline (sha256 : String → String) (policy : CapacityPolicy) (strict : Prop) :
    Pool.Discipline (bookedSubmitters sha256 policy) booksStart (fun _ _ => True)
      (meetsNoDuplicate strict) leavesPending where
  inv := BooksInv policy strict
  unused pid x := x.1.pending pid = none ∧ x.2.taken pid = false ∧ pid ∉ x.2.removed
  rely := Spared
  post pid _ := Costs strict pid
  rely_refl := Spared.refl
  rely_trans _ _ _ _ := Spared.trans
  unused_rely _ _ _ h hr :=
    ⟨hr.pending.trans h.1, hr.taken.trans h.2.1, fun hmem => h.2.2 (hr.removed.mp hmem)⟩
  start_ok x hx := by
    obtain ⟨⟨now, hs⟩, hg⟩ := hx
    obtain ⟨s, g⟩ := x
    cases hs
    cases hg
    refine ⟨⟨?_, fun q ws hq => absurd hq (by simp), fun _ => rfl⟩,
      fun pid => ⟨rfl, rfl, List.not_mem_nil⟩⟩
    exact Int.le_max_left _ _
  safe_body pid x sub _ _ hunused := books_submit sha256 sub hunused.1 hunused.2.1 hunused.2.2
  safe_crash pid x hx := hx.close (fun q hq => Function.update_of_ne hq _ _) rfl
  safe_env u x x' hu hx henv := by
    have hx' : some ({ x.1 with committed := setExecutionStatus u x.1.committed }, x.2)
        = some x' := henv
    obtain rfl := Option.some.inj hx'
    have hrests := rests_setExecutionStatus hu x.1.committed
    refine ⟨⟨?_, fun q ws hq hne => ?_, fun hstrict => ?_⟩, fun q => ?_⟩
    · exact Int.le_trans (Int.ofNat_le.mpr hrests.pending) hx.capped
    · obtain ⟨hl, hle⟩ := hx.inserting q ws hq hne
      exact ⟨hl, Int.le_trans (Int.ofNat_le.mpr (Nat.add_le_add_right hrests.pending _)) hle⟩
    · have hlen := congrArg List.length hrests.executions
      rw [List.length_map, List.length_map] at hlen
      exact (hx.balanced hstrict).trans hlen.symm
    · exact ⟨rfl, Iff.rfl, fun _ => hrests, rfl, Iff.rfl⟩

/-- The steps of the gateway in which workers move executions out of `PENDING`
only. -/
def workersFinish : SubmittersState → SubmittersLabel → Prop :=
  Pool.stepOk (fun _ _ => True) (fun _ _ _ _ => True) (fun _ u => u.status ≠ .pending)

/-- **The cap holds** for any number of submissions at once: there are never more
pending executions than `max_in_flight`, and none for a cap below one. -/
theorem in_flight_capped (sha256 : String → String) (policy : CapacityPolicy) {w : SubmittersState}
    (h : (submittersMachine sha256 policy).Reach workersFinish w) :
    (w.shared.committed.pendingCount : ℤ) ≤ max 0 policy.maxInFlight := by
  obtain ⟨w', hw', rfl⟩ := Pool.reach_observed tokenBook
    (fun pid g => { g with taken := Function.update g.taken pid false }) ⟨fun _ => false, []⟩ h
  have hbooks : ((bookedSubmitters sha256 policy).machine booksStart).Reach
      (Pool.stepOk (fun _ _ => True) (meetsNoDuplicate False) leavesPending) w' := by
    refine hw'.mono (fun v l hl => ?_)
    cases l with
    | act pid c => exact fun _ _ _ _ hstrict => hstrict.elim
    | env u => exact hl
    | _ => trivial
  exact (Pool.reach_safe (booksDiscipline sha256 policy False) hbooks).inv.capped

/-- A test of the steps in which workers move executions out of `PENDING`. -/
def workersFinishTest (_ : SubmittersState) : SubmittersLabel → Bool
  | .env u => u.status ≠ .pending
  | _ => true

theorem workersFinish_of_test (w : SubmittersState) (l : SubmittersLabel)
    (h : workersFinishTest w l = true) : workersFinish w l := by
  cases l with
  | env u =>
    have hu : u.status ≠ .pending := of_decide_eq_true h
    exact hu
  | act pid c => exact fun _ _ _ _ => trivial
  | _ => trivial

/-- Another message of the tenant. -/
def secondGreeting : AgentExecutionSubmission :=
  { greeting with
    messageId := some "n"
    messageId_length := secondMessage_length }

/-- With a cap of one, the second of two messages is refused. -/
theorem in_flight_capped_sample :
    ∃ w, (submittersMachine id { maxInFlight := 1 }).Reach workersFinish w
      ∧ (∃ x ∈ w.replies, x.outcome = .error (.agentGateway "INFLIGHT_SATURATED"))
      ∧ w.shared.committed.pendingCount = 1
      ∧ (w.shared.committed.pendingCount : ℤ) ≤ max 0 1 := by
  have hrun : ((submittersMachine id { maxInFlight := 1 }).runIf workersFinishTest gatewayIdle
      (acceptedRun 0 greeting 100 ++ (acceptedRun 1 secondGreeting 200).take 8)).map
        (fun w => decide (w.shared.committed.pendingCount = 1)
          && w.replies.any (fun x => PyException.raisedBy (.agentGateway "INFLIGHT_SATURATED")
            x.outcome)) = some true := by
    decide +kernel
  obtain ⟨w, hw, htest⟩ := Machine.reach_of_runIf workersFinish_of_test
    (gatewayIdle_init id { maxInFlight := 1 }) hrun
  obtain ⟨hcount, hany⟩ := (Bool.and_eq_true _ _).mp htest
  obtain ⟨x, hx, hout⟩ := List.any_eq_true.mp hany
  exact ⟨w, hw, ⟨x, hx, PyException.raisedBy_iff.mp hout⟩, of_decide_eq_true hcount,
    in_flight_capped id { maxInFlight := 1 } hw⟩

/-! ## A token for a duplicate -/

/-- A state of the gateway with the account of its tokens. -/
abbrev BookedState := Pool.State (TxOp SubmitOp) (TxRes SubmitRes) PyException GatewayBooks
  AgentExecutionSubmission AgentExecutionAccepted

/-- The gateway with the account of its tokens, as a transition system. -/
abbrev bookedMachine (sha256 : String → String) (policy : CapacityPolicy) :
    Machine BookedState SubmittersLabel :=
  (bookedSubmitters sha256 policy).machine booksStart

/-- **Tokens pay for executions**: in every run in which no admitted submission
meets its own message at the insert, as many tokens are gone as there are
executions, and a submission that was answered with a duplicate or refused has
cost none. -/
theorem tokens_pay_for_executions (sha256 : String → String) (policy : CapacityPolicy)
    {w : BookedState} (h : (bookedMachine sha256 policy).Reach
      (Pool.stepOk (fun _ _ => True) (meetsNoDuplicate True) leavesPending) w) :
    w.shared.2.removed.length = w.shared.1.committed.executions.length
      ∧ ∀ x ∈ w.replies,
        (∀ accepted, x.outcome = .ok accepted → accepted.deduplicated = true →
          x.pid ∉ w.shared.2.removed)
        ∧ ∀ code, x.outcome = .error (.agentGateway code) → x.pid ∉ w.shared.2.removed := by
  have hgood := Pool.reach_safe (booksDiscipline sha256 policy True) h
  refine ⟨hgood.inv.balanced trivial, fun x hx => ?_⟩
  have hcosts : Costs True x.pid x.outcome x.state := hgood.replies x hx
  have hspared : Spared x.pid x.state w.shared :=
    (booksDiscipline sha256 policy True).reply_rely h x hx
  refine ⟨fun accepted hout hdup hmem => ?_, fun code hout hmem => ?_⟩
  · rw [hout] at hcosts
    exact hcosts trivial hdup (hspared.removed.mp hmem)
  · rw [hout] at hcosts
    exact hcosts (hspared.removed.mp hmem)

/-- The gateway before its first submission, with all tokens there. -/
def booksIdle : BookedState :=
  Pool.idle (Engine.quiet (ExecutionDb.empty 0) (), ⟨fun _ => false, []⟩)

theorem booksIdle_init (sha256 : String → String) (policy : CapacityPolicy) :
    (bookedMachine sha256 policy).init booksIdle := ⟨_, ⟨⟨0, rfl⟩, rfl⟩, rfl⟩

/-- Two submissions of one message: both look for it before either has entered
it, and the second is admitted after the first has committed. -/
def latecomerRun : List SubmittersLabel :=
  [Pool.Label.spawn greeting, Pool.Label.spawn greeting]
    ++ List.replicate 4 (Pool.Label.act 0 (acceptedRun.answering 100))
    ++ List.replicate 4 (Pool.Label.act 1 (acceptedRun.answering 200))
    ++ List.replicate 4 (Pool.Label.act 0 (acceptedRun.answering 100))
    ++ List.replicate 3 (Pool.Label.act 0 (acceptedRun.answering 101))
    ++ List.replicate 6 (Pool.Label.act 1 (acceptedRun.answering 200))

/-- A test of the condition on inserts. -/
def meetsNoDuplicateTest (w : BookedState) : SubmittersLabel → Bool
  | .act pid _ =>
    match w.threads pid with
    | some (_, .call (.run (.insertExecution row)) _) =>
      w.shared.1.committed.executions.all (fun e => ¬ (e.tenantId = row.tenantId
        ∧ e.messageId = row.messageId ∧ e.payloadHash = row.payloadHash))
    | _ => true
  | .env u => u.status ≠ .pending
  | _ => true

theorem meetsNoDuplicate_of_test (w : BookedState) (l : SubmittersLabel)
    (h : meetsNoDuplicateTest w l = true) :
    Pool.stepOk (fun _ _ => True) (meetsNoDuplicate True) leavesPending w l := by
  cases l with
  | act pid c =>
    rintro call op k hth - row rfl e he
    simp only [meetsNoDuplicateTest, hth] at h
    exact of_decide_eq_true (List.all_eq_true.mp h e he)
  | env u =>
    have hu : u.status ≠ .pending := of_decide_eq_true h
    exact hu
  | _ => trivial

/-- A message that is submitted twice at once, and one after the other. -/
theorem booked_runs :
    ((bookedMachine id {}).run booksIdle latecomerRun).map
      (fun w => decide (w.shared.2.removed = [0, 1]
          ∧ w.shared.1.committed.executions.length = 1)
        && w.replies.any (fun x => x.pid = 1 && x.outcome.toOption.any (·.deduplicated)))
      = some true
    ∧ ((bookedMachine id {}).runIf meetsNoDuplicateTest booksIdle
      (acceptedRun 0 greeting 100 ++ (acceptedRun 1 greeting 200).take 6)).map
        (fun w => decide (w.shared.2.removed = [0] ∧ w.replies.length = 2)) = some true := by
  decide +kernel

/-- **A token for a duplicate**: two tokens are gone for one execution, and one of
them was taken by the submission that was answered with the duplicate. -/
theorem token_paid_for_duplicate :
    ∃ w, (bookedMachine id {}).Reach Machine.anyStep w
      ∧ w.shared.2.removed = [0, 1] ∧ w.shared.1.committed.executions.length = 1
      ∧ ∃ x ∈ w.replies, x.pid = 1 ∧ ∃ accepted, x.outcome = .ok accepted
        ∧ accepted.deduplicated = true := by
  have hrun := booked_runs.1
  obtain ⟨w, hw, htest⟩ := Machine.reach_of_run (booksIdle_init id {}) hrun
  obtain ⟨hbooks, hany⟩ := (Bool.and_eq_true _ _).mp htest
  obtain ⟨x, hx, hxt⟩ := List.any_eq_true.mp hany
  obtain ⟨hpid, hdup⟩ := (Bool.and_eq_true _ _).mp hxt
  refine ⟨w, hw, (of_decide_eq_true hbooks).1, (of_decide_eq_true hbooks).2, x, hx,
    of_decide_eq_true hpid, ?_⟩
  cases hout : x.outcome with
  | ok accepted =>
    rw [hout] at hdup
    exact ⟨accepted, rfl, hdup⟩
  | error e =>
    rw [hout] at hdup
    cases hdup

/-- A message, and then the same message again: one token is gone. -/
theorem tokens_pay_for_executions_sample :
    ∃ w, (bookedMachine id {}).Reach
        (Pool.stepOk (fun _ _ => True) (meetsNoDuplicate True) leavesPending) w
      ∧ w.shared.2.removed = [0] ∧ w.replies.length = 2
      ∧ w.shared.2.removed.length = w.shared.1.committed.executions.length := by
  have hrun := booked_runs.2
  obtain ⟨w, hw, htest⟩ := Machine.reach_of_runIf meetsNoDuplicate_of_test
    (booksIdle_init id {}) hrun
  obtain ⟨hremoved, hreplies⟩ := of_decide_eq_true htest
  exact ⟨w, hw, hremoved, hreplies, (tokens_pay_for_executions id {} hw).1⟩
