import AgentPlatform.SessionFencing
import AgentPlatform.ToolServices

/-!
# Resumed checkpoints and the leases of their Sessions

`CheckpointService.resume` takes the lease of a Session before it consumes the
approval its checkpoint waits for, and gives the lease back when the approval is
refused. The lease manager knows its callers by name only: a worker that already
holds the lease gets the next token, and a release expires whatever lease the
worker holds.

`leasedPool` runs the calls of the tool plane against the lease table, between
workers that acquire, renew, release and commit on their own. A lease manager's
transaction runs at the time it began, which may lie behind the database clock,
and its acknowledgement may be lost. Two records that no request reads are kept
next to the tables: the acquisitions, each with the call it was made by and the
unexpired lease it replaced, and until when each token was to be valid by the
word of those who hold it.
-/

/-! ## The lease table with its records -/

/-- **An acquisition of a lease**, with the number of the `resume` it was made by
and the token of the unexpired lease it replaced. -/
structure Taking extends Acquisition where
  tenantId : Uuid
  sessionId : String
  takenBy : Option ℕ
  displaced : Option ℕ
  deriving DecidableEq

/-- **The tool plane and the lease table.** -/
structure LeasedPlane where
  plane : ToolPlane
  db : ExecutionDb
  /-- The clock of the database. -/
  now : Timestamp
  takings : List Taking
  validUntil : Uuid → String → ℕ → Timestamp

/-- Set until when a token is valid. -/
def setUntil (validUntil : Uuid → String → ℕ → Timestamp) (t : Uuid) (n : String) (token : ℕ)
    (e : Timestamp) : Uuid → String → ℕ → Timestamp :=
  fun t' n' token' => if t' = t ∧ n' = n ∧ token' = token then e else validUntil t' n' token'

/-- The token of a lease that has not expired. -/
def unexpiredToken (began : Timestamp) (lease : Option SessionLease) : Option ℕ :=
  (lease.filter (fun l => began < l.expiresAt)).map (·.fencingToken)

namespace LeasedPlane

/-- The acquisitions of a Session, the oldest first. -/
def takingsOf (s : LeasedPlane) (t : Uuid) (n : String) : List Taking :=
  s.takings.filter (fun a => a.tenantId = t ∧ a.sessionId = n)

/-- `SessionLeaseManager.acquire`, in a transaction that began at a time. -/
def takeLease (takenBy : Option ℕ) (ttl began : Timestamp) (t : Uuid) (n owner : String)
    (s : LeasedPlane) : Except PyException LeaseGrant × LeasedPlane :=
  match (acquire ttl began t n owner).run s.db with
  | .error e => (.error e, s)
  | .ok (grant, db') =>
    (.ok grant, { s with
      db := db'
      takings := s.takings ++ [
        { ownerId := owner
          fencingToken := grant.fencingToken
          tenantId := t
          sessionId := n
          takenBy := takenBy
          displaced := unexpiredToken began (s.db.leases t n) }]
      validUntil := setUntil s.validUntil t n grant.fencingToken (began + ttl) })

/-- `SessionLeaseManager.renew`. -/
def renewLease (began : Timestamp) (t : Uuid) (n owner : String) (token : ℕ) (s : LeasedPlane) :
    LeasedPlane :=
  match (renew began t n owner token).run s.db with
  | .error _ => s
  | .ok (_, db') =>
    { s with
      db := db'
      validUntil := setUntil s.validUntil t n token (began + seconds token) }

/-- Who releases gives up the lease: a worker does, a `resume` if the lease is the
one it has acquired. -/
def givesUp (takenBy : Option ℕ) (lease : SessionLease) (t : Uuid) (n : String)
    (s : LeasedPlane) : Bool :=
  match takenBy with
  | none => true
  | some pid => (s.takingsOf t n).any
      (fun a => a.takenBy = some pid ∧ a.fencingToken = lease.fencingToken)

/-- `SessionLeaseManager.release`. -/
def releaseLease (takenBy : Option ℕ) (began : Timestamp) (t : Uuid) (n owner : String)
    (s : LeasedPlane) : LeasedPlane :=
  { s with
    db := (release began t n owner).after s.db
    validUntil := match s.db.leases t n with
      | none => s.validUntil
      | some lease =>
        if lease.ownerId = owner ∧ s.givesUp takenBy lease t n then
          setUntil s.validUntil t n lease.fencingToken began
        else s.validUntil }

end LeasedPlane

/-! ## The pool -/

/-- What the environment decides about a request: for the lease manager, the
configured lease time, the time its transaction began, and whether the process
learns of its outcome. -/
inductive LeasedChoice where
  | tool (c : ToolChoice)
  | lease (ttl began : Timestamp) (acknowledged : Bool)

/-- A call of `resume`. -/
def ToolCall.isResume : ToolCall → Bool
  | .resume .. => true
  | _ => false

/-- The number of a `resume`. -/
def Caller.resumer (who : Caller) : Option ℕ := if who.call.isResume then some who.pid else none

/-- What the process learns of a transaction. -/
def acknowledge {α : Type} (acknowledged : Bool) (r : Except PyException α) :
    Except ToolException α :=
  if acknowledged then r.mapError .py else .error (.py .sqlAlchemy)

/-- **Serve one request** of a call of the tool plane: leases are the lease
manager's, everything else is as before. -/
def serveLeased (P : ToolPlatform) (who : Caller) (c : LeasedChoice) (s : LeasedPlane)
    (op : ToolOp) : Option (Except ToolException (ToolRes op) × LeasedPlane) :=
  match op, c with
  | .acquireLease t n owner, .lease ttl began acknowledged =>
    if began ≤ s.now then
      some (acknowledge acknowledged (s.takeLease who.resumer ttl began t n owner).1,
        (s.takeLease who.resumer ttl began t n owner).2)
    else none
  | .acquireLease _ _ _, .tool (.fault e) => some (.error (.py e), s)
  | .acquireLease _ _ _, _ => none
  | .releaseLease t n owner, .lease _ began acknowledged =>
    if began ≤ s.now then
      some (acknowledge acknowledged (.ok ()), s.releaseLease who.resumer began t n owner)
    else none
  | .releaseLease _ _ _, .tool (.fault e) => some (.error (.py e), s)
  | .releaseLease _ _ _, _ => none
  | op, .tool c => (serveTool P who c s.plane op).map (fun x => (x.1, { s with plane := x.2 }))
  | _, .lease .. => none

/-- **What the others do**: time passes, workers use the lease manager and commit
under their leases, and other tables change. -/
inductive LeaseEvent where
  | tool (e : ToolEnv)
  | tick (now : Timestamp)
  | acquire (ttl began : Timestamp) (tenantId : Uuid) (sessionId ownerId : String)
  | renew (began : Timestamp) (tenantId : Uuid) (sessionId ownerId : String) (fencingToken : ℕ)
  | release (began : Timestamp) (tenantId : Uuid) (sessionId ownerId : String)
  | commit (began : Timestamp) (ids : OutboxIds) (c : SessionCommit)
  | elsewhere (tables : ExecutionDb)

/-- One step of the others. -/
def leaseEvent (P : ToolPlatform) : LeaseEvent → LeasedPlane → Option LeasedPlane
  | .tool e, s => ((toolPool P).env e s.plane).map (fun plane => { s with plane := plane })
  | .tick now, s => if s.now ≤ now then some { s with now := now } else none
  | .acquire ttl began t n owner, s =>
    if began ≤ s.now then some (s.takeLease none ttl began t n owner).2 else none
  | .renew began t n owner token, s =>
    if began ≤ s.now then some (s.renewLease began t n owner token) else none
  | .release began t n owner, s =>
    if began ≤ s.now then some (s.releaseLease none began t n owner) else none
  | .commit began ids c, s => some { s with db := (commitSessionEvents began ids c).after s.db }
  | .elsewhere tables, s => some { s with db := { tables with leases := s.db.leases } }

/-- **The calls of the tool plane among lease holders.** -/
def leasedPool (P : ToolPlatform) :
    Pool (ToolCall × ToolOp) (fun x => ToolRes x.2) ToolException LeasedChoice LeasedPlane ToolCall
      ToolReply LeaseEvent where
  handler pid c op s := serveLeased P ⟨pid, op.1⟩ c s op.2
  body call := (call.program P).tag call
  abandon pid s := { s with plane := (toolPool P).abandon pid s.plane }
  env := leaseEvent P

/-- A state of the pool. -/
abbrev LeasedState :=
  Pool.State (ToolCall × ToolOp) (fun x => ToolRes x.2) ToolException LeasedPlane ToolCall ToolReply

/-- A step of the pool. -/
abbrev LeasedLabel := Pool.Label LeasedChoice ToolCall LeaseEvent

/-- The transition system, from tables in which nobody has held a lease. -/
def leasedMachine (P : ToolPlatform) : Machine LeasedState LeasedLabel :=
  (leasedPool P).machine (fun s => (∀ t n, s.db.leases t n = none) ∧ s.takings = [])

/-! ## Grants -/

/-- **A grant that could commit**: its lease is the one in the table, and has not
expired. -/
def CanCommit (s : LeasedPlane) (t : Uuid) (n : String) (g : Acquisition) : Prop :=
  ∃ lease, s.db.leases t n = some lease ∧ lease.acquisition = g ∧ s.now < lease.expiresAt

instance (s : LeasedPlane) (t : Uuid) (n : String) (g : Acquisition) :
    Decidable (CanCommit s t n g) :=
  decidable_of_iff ((s.db.leases t n).any
    (fun lease => lease.acquisition = g ∧ s.now < lease.expiresAt) = true) (by
      rw [Option.any_eq_true]
      simp only [CanCommit, decide_eq_true_eq])

/-! ## The condition -/

/-- The Session whose lease a `resume` releases, and its worker. -/
def releasedBy : ToolCall × ToolOp → Option (Uuid × String × String)
  | (.resume .., .releaseLease t n owner) => some (t, n, owner)
  | _ => none

/-- **A `resume` releases what it has acquired**: the unexpired lease its worker
holds, if any, is its own. -/
def ReleasesOwn (pid : ℕ) (s : LeasedPlane) (x : ToolCall × ToolOp) : Prop :=
  ∀ r ∈ releasedBy x, ∀ lease ∈ s.db.leases r.1 r.2.1, lease.ownerId = r.2.2 →
    s.now < lease.expiresAt → s.givesUp (some pid) lease r.1 r.2.1 = true

/-- **A `resume` takes no valid lease over**: what its acquisition replaced has
expired by now. -/
def TakesNothingOver (pid : ℕ) (s : LeasedPlane) : Prop :=
  ∀ a ∈ s.takings, a.takenBy = some pid →
    ∀ d ∈ a.displaced, s.validUntil a.tenantId a.sessionId d ≤ s.now

/-- A reply to a `resume` that raised. -/
def FailedResume (x : Pool.Reply ToolException LeasedPlane ToolCall ToolReply) : Prop :=
  x.call.isResume = true ∧ x.outcome.toOption = none

/-- **The condition on a step**: a `resume` that releases does so with its own
lease, and one that raises has taken no valid lease over. -/
def sparesGrants (P : ToolPlatform) (w : LeasedState) (l : LeasedLabel) : Prop :=
  Pool.stepOk (fun _ _ => True) (fun pid _ op s => ReleasesOwn pid s op) (fun _ _ => True) w l
    ∧ ∀ w', (leasedPool P).step w l = some w' → ∀ x ∈ w'.replies.drop w.replies.length,
      FailedResume x → TakesNothingOver x.pid w'.shared

instance (pid : ℕ) (s : LeasedPlane) (x : ToolCall × ToolOp) : Decidable (ReleasesOwn pid s x) :=
  inferInstanceAs (Decidable (∀ r ∈ releasedBy x, ∀ lease ∈ s.db.leases r.1 r.2.1,
    lease.ownerId = r.2.2 → s.now < lease.expiresAt →
      s.givesUp (some pid) lease r.1 r.2.1 = true))

instance (pid : ℕ) (s : LeasedPlane) : Decidable (TakesNothingOver pid s) :=
  inferInstanceAs (Decidable (∀ a ∈ s.takings, a.takenBy = some pid →
    ∀ d ∈ a.displaced, s.validUntil a.tenantId a.sessionId d ≤ s.now))

instance (x : Pool.Reply ToolException LeasedPlane ToolCall ToolReply) :
    Decidable (FailedResume x) :=
  inferInstanceAs (Decidable (_ ∧ _))

instance (P : ToolPlatform) (w : LeasedState) (l : LeasedLabel) :
    Decidable (sparesGrants P w l) :=
  inferInstanceAs (Decidable (_ ∧ _))

/-! ## What the lease table and its records agree on -/

/-- The acquisitions of each Session, without their makers. -/
def LeasedPlane.history (s : LeasedPlane) (t : Uuid) (n : String) : List Acquisition :=
  (s.takingsOf t n).map Taking.toAcquisition

/-- One acquisition follows another: it has replaced it unexpired, or its time
has run out. -/
def Follows (s : LeasedPlane) (a b : Taking) : Prop :=
  b.displaced = some a.fencingToken
    ∨ s.validUntil a.tenantId a.sessionId a.fencingToken ≤ s.now

/-- **The records are those of the table**: the row of a Session is its last
acquisition, it lasts as long as its token is valid, and an acquisition that is
not the last has been replaced or has run out. -/
structure TakingsKept (s : LeasedPlane) : Prop where
  fenced : Fenced ⟨s.db, s.history⟩
  covered : ∀ t n lease, s.db.leases t n = some lease →
    s.now < s.validUntil t n lease.fencingToken →
    s.validUntil t n lease.fencingToken ≤ lease.expiresAt
  followed : ∀ t n pre a b rest, s.takingsOf t n = pre ++ a :: b :: rest → Follows s a b
  older : ∀ a ∈ s.takings, ∀ d ∈ a.displaced, d < a.fencingToken

/-- **What time does to the records**: acquisitions are added, and the validity of
a token that has been replaced is settled. -/
structure LaterLeases (s s' : LeasedPlane) : Prop where
  clock : s.now ≤ s'.now
  takings : s.takings <+: s'.takings
  settled : ∀ a ∈ s.takings, ∀ d < a.fencingToken,
    s'.validUntil a.tenantId a.sessionId d = s.validUntil a.tenantId a.sessionId d

theorem LaterLeases.refl (s : LeasedPlane) : LaterLeases s s :=
  ⟨le_refl _, List.prefix_rfl, fun _ _ _ _ => rfl⟩

section Kept

variable {s s' : LeasedPlane} {t : Uuid} {n : String}

theorem mem_takingsOf {a : Taking} :
    a ∈ s.takingsOf t n ↔ a ∈ s.takings ∧ a.tenantId = t ∧ a.sessionId = n := by
  simp [LeasedPlane.takingsOf]

/-- A row is the last acquisition of its Session. -/
theorem TakingsKept.last (h : TakingsKept s) {lease : SessionLease}
    (hl : s.db.leases t n = some lease) :
    ∃ pre a, s.takingsOf t n = pre ++ [a] ∧ a.toAcquisition = lease.acquisition := by
  have hcur := h.fenced.current t n
  rw [hl] at hcur
  have hlast : ((s.takingsOf t n).map Taking.toAcquisition).getLast? = some lease.acquisition :=
    hcur.symm
  rw [List.getLast?_map] at hlast
  obtain ⟨a, ha, hacq⟩ := Option.map_eq_some_iff.mp hlast
  obtain ⟨pre, hpre⟩ := List.getLast?_eq_some_iff.mp ha
  exact ⟨pre, a, hpre, hacq⟩

/-- Without a row nobody has acquired the lease. -/
theorem TakingsKept.takingsOf_eq_nil (h : TakingsKept s) (hl : s.db.leases t n = none) :
    s.takingsOf t n = [] := by
  have hcur := h.fenced.current t n
  rw [hl] at hcur
  exact List.map_eq_nil_iff.mp (List.getLast?_eq_none_iff.mp hcur.symm)

/-- Tokens increase. -/
theorem TakingsKept.token_lt (h : TakingsKept s) {pre rest : List Taking} {a b : Taking}
    (hsplit : s.takingsOf t n = pre ++ a :: rest) (hb : b ∈ rest) :
    a.fencingToken < b.fencingToken := by
  have hinc : (s.history t n).Pairwise (fun a b => a.fencingToken < b.fencingToken) :=
    h.fenced.increasing t n
  unfold LeasedPlane.history at hinc
  rw [hsplit, List.map_append, List.map_cons] at hinc
  exact (List.pairwise_cons.mp (List.pairwise_append.mp hinc).2.1).1 _ (List.mem_map_of_mem hb)

/-- No acquisition has a later token than the row. -/
theorem TakingsKept.token_le (h : TakingsKept s) {lease : SessionLease}
    (hl : s.db.leases t n = some lease) {a : Taking} (ha : a ∈ s.takingsOf t n) :
    a.fencingToken ≤ lease.fencingToken := by
  obtain ⟨pre, b, hsplit, hacq⟩ := h.last hl
  have htoken : b.fencingToken = lease.fencingToken := congrArg Acquisition.fencingToken hacq
  rw [hsplit] at ha
  rcases List.mem_append.mp ha with ha | ha
  · obtain ⟨pre₁, pre₂, rfl⟩ := List.append_of_mem ha
    have hsplit' : s.takingsOf t n = pre₁ ++ a :: (pre₂ ++ [b]) := by
      rw [hsplit, List.append_assoc]
      rfl
    rw [← htoken]
    exact Nat.le_of_lt (h.token_lt hsplit' (List.mem_append_right _ (List.mem_singleton_self b)))
  · rw [List.mem_singleton.mp ha, htoken]

/-- A token that has been replaced is not the one of the row. -/
theorem TakingsKept.ne_current (h : TakingsKept s) {lease : SessionLease}
    (hl : s.db.leases t n = some lease) {pre rest : List Taking} {a b : Taking}
    (hsplit : s.takingsOf t n = pre ++ a :: b :: rest) : a.fencingToken ≠ lease.fencingToken := by
  have hb : b ∈ s.takingsOf t n := by
    rw [hsplit]
    exact List.mem_append_right _ (List.mem_cons_of_mem _ List.mem_cons_self)
  have hlt := h.token_lt hsplit List.mem_cons_self
  exact Nat.ne_of_lt (Nat.lt_of_lt_of_le hlt (h.token_le hl hb))

/-- What leaves leases and records alone, and takes its time, keeps them. -/
theorem TakingsKept.elsewhere (h : TakingsKept s) (hl : s'.db.leases = s.db.leases)
    (ht : s'.takings = s.takings) (hv : s'.validUntil = s.validUntil) (hnow : s.now ≤ s'.now) :
    TakingsKept s' ∧ LaterLeases s s' := by
  have hof : ∀ t n, s'.takingsOf t n = s.takingsOf t n := fun t n => by
    unfold LeasedPlane.takingsOf
    rw [ht]
  refine ⟨⟨?_, ?_, ?_, ?_⟩, hnow, ht ▸ List.prefix_rfl, fun _ _ _ _ => by rw [hv]⟩
  · refine h.fenced.of_leases ?_ (fun t n => by rw [hl])
    show s'.history = s.history
    funext t n
    unfold LeasedPlane.history
    rw [hof]
  · intro t n lease hrow hvalid
    rw [hl] at hrow
    rw [hv] at hvalid ⊢
    exact h.covered t n lease hrow (lt_of_le_of_lt hnow hvalid)
  · intro t n pre a b rest hsplit
    rw [hof] at hsplit
    rcases h.followed t n pre a b rest hsplit with hd | hrun
    · exact .inl hd
    · rw [← hv] at hrun
      exact .inr (le_trans hrun hnow)
  · intro a ha
    rw [ht] at ha
    exact h.older a ha

/-- **Moving the expiry of a lease**, and with it the validity of its token. -/
theorem TakingsKept.setExpiry (h : TakingsKept s) {lease : SessionLease}
    (hl : s.db.leases t n = some lease) {e : Timestamp}
    (hdb : s'.db.leases = ExecutionDb.setEntry s.db.leases t n { lease with expiresAt := e })
    (ht : s'.takings = s.takings) (hnow : s'.now = s.now)
    (hv : ∀ t' n' k, ¬ (t' = t ∧ n' = n ∧ k = lease.fencingToken) →
      s'.validUntil t' n' k = s.validUntil t' n' k)
    (hcover : s.now < s'.validUntil t n lease.fencingToken →
      s'.validUntil t n lease.fencingToken ≤ e) : TakingsKept s' ∧ LaterLeases s s' := by
  have hof : ∀ t n, s'.takingsOf t n = s.takingsOf t n := fun t n => by
    unfold LeasedPlane.takingsOf
    rw [ht]
  refine ⟨⟨?_, ?_, ?_, ?_⟩, le_of_eq hnow.symm, ht ▸ List.prefix_rfl, ?_⟩
  · refine h.fenced.of_leases ?_ (fun t' n' => ?_)
    · show s'.history = s.history
      funext t n
      unfold LeasedPlane.history
      rw [hof]
    · show (s'.db.leases t' n').map SessionLease.acquisition = _
      rw [hdb]
      exact acquisition_setEntry hl e t' n'
  · intro t' n' lease' hrow hvalid
    rw [hdb] at hrow
    rw [hnow] at hvalid
    by_cases htn : t' = t ∧ n' = n
    · obtain ⟨rfl, rfl⟩ := htn
      rw [ExecutionDb.setEntry_self] at hrow
      obtain rfl := Option.some.inj hrow
      exact hcover hvalid
    · rw [ExecutionDb.setEntry_of_ne _ _ htn] at hrow
      have hsame := hv t' n' lease'.fencingToken (fun hx => htn ⟨hx.1, hx.2.1⟩)
      rw [hsame] at hvalid ⊢
      exact h.covered t' n' lease' hrow hvalid
  · intro t' n' pre a b rest hsplit
    rw [hof] at hsplit
    rcases h.followed t' n' pre a b rest hsplit with hd | hrun
    · exact .inl hd
    · refine .inr ?_
      rw [hnow, hv _ _ _ ?_]
      · exact hrun
      · rintro ⟨rfl, rfl, hk⟩
        have ha : a ∈ s.takingsOf t' n' := by
          rw [hsplit]
          exact List.mem_append_right _ List.mem_cons_self
        obtain ⟨-, rfl, rfl⟩ := mem_takingsOf.mp ha
        exact h.ne_current hl hsplit hk
  · intro a ha
    rw [ht] at ha
    exact h.older a ha
  · intro a ha d hd
    refine hv _ _ _ ?_
    rintro ⟨rfl, rfl, rfl⟩
    exact absurd (h.token_le hl (mem_takingsOf.mpr ⟨ha, rfl, rfl⟩)) (Nat.not_le.mpr hd)

theorem setUntil_of_ne {validUntil : Uuid → String → ℕ → Timestamp} {t t' : Uuid} {n n' : String}
    {token token' : ℕ} {e : Timestamp} (hne : ¬ (t' = t ∧ n' = n ∧ token' = token)) :
    setUntil validUntil t n token e t' n' token' = validUntil t' n' token' := if_neg hne

@[simp] theorem setUntil_self {validUntil : Uuid → String → ℕ → Timestamp} {t : Uuid} {n : String}
    {token : ℕ} {e : Timestamp} : setUntil validUntil t n token e t n token = e :=
  if_pos ⟨rfl, rfl, rfl⟩

/-- What an acquisition replaces was the row of its Session, and has an earlier
token. -/
theorem unexpiredToken_lt {lease : Option SessionLease} {began : Timestamp} {d : ℕ}
    (hd : d ∈ unexpiredToken began lease) : d < lease.elim 1 (·.fencingToken + 1) := by
  obtain ⟨l, hl, rfl⟩ := Option.map_eq_some_iff.mp hd
  rw [(Option.filter_eq_some_iff.mp hl).1]
  exact Nat.lt_succ_self _

/-- An acquisition replaces the row of its Session, unless its time has run out. -/
theorem TakingsKept.replaced_or_run_out (h : TakingsKept s) {row : SessionLease}
    (hl : s.db.leases t n = some row) {began : Timestamp} (hbegan : began ≤ s.now) :
    unexpiredToken began (some row) = some row.fencingToken
      ∨ s.validUntil t n row.fencingToken ≤ s.now := by
  by_cases hexpired : began < row.expiresAt
  · refine .inl ?_
    simp [unexpiredToken, hexpired]
  · refine .inr ?_
    by_contra hvalid
    have hcover := h.covered t n row hl (not_le.mp hvalid)
    exact hvalid (le_trans hcover (le_trans (not_lt.mp hexpired) hbegan))

/-- **An acquisition keeps the records.** -/
theorem TakingsKept.take (h : TakingsKept s) {takenBy : Option ℕ} {ttl began : Timestamp}
    {owner : String} (hbegan : began ≤ s.now) :
    TakingsKept (s.takeLease takenBy ttl began t n owner).2
      ∧ LaterLeases s (s.takeLease takenBy ttl began t n owner).2 := by
  unfold LeasedPlane.takeLease
  split
  · exact ⟨h, .refl s⟩
  rename_i grant db' hok
  obtain ⟨-, htoken, -, lease, -, hlt, hexp, hdb⟩ := acquire_ok hok
  set c : Taking := ⟨⟨owner, grant.fencingToken⟩, t, n, takenBy,
    unexpiredToken began (s.db.leases t n)⟩ with hc
  set s' : LeasedPlane :=
    { s with
      db := db'
      takings := s.takings ++ [c]
      validUntil := setUntil s.validUntil t n grant.fencingToken (began + ttl) } with hs'
  have hbelow : ∀ a ∈ s.takingsOf t n, a.fencingToken < grant.fencingToken := by
    intro a ha
    rw [htoken]
    cases hl : s.db.leases t n with
    | none =>
      rw [h.takingsOf_eq_nil hl] at ha
      cases ha
    | some row => exact Nat.lt_succ_of_le (h.token_le hl ha)
  have hsame : ∀ a ∈ s.takings, ∀ d ≤ a.fencingToken,
      s'.validUntil a.tenantId a.sessionId d = s.validUntil a.tenantId a.sessionId d := by
    intro a ha d hd
    refine setUntil_of_ne ?_
    rintro ⟨ht, hn, rfl⟩
    exact absurd (hbelow a (mem_takingsOf.mpr ⟨ha, ht, hn⟩)) (Nat.not_lt.mpr hd)
  have hself : s'.takingsOf t n = s.takingsOf t n ++ [c] := by
    simp [LeasedPlane.takingsOf, hs', hc]
  have hother : ∀ t' n', ¬ (t' = t ∧ n' = n) → s'.takingsOf t' n' = s.takingsOf t' n' := by
    intro t' n' htn
    have : ¬ (t = t' ∧ n = n') := fun hx => htn ⟨hx.1.symm, hx.2.symm⟩
    simp [LeasedPlane.takingsOf, hs', hc, this]
  refine ⟨⟨?_, ?_, ?_, ?_⟩, le_refl _, List.prefix_append _ _, fun a ha d hd =>
    hsame a ha d (Nat.le_of_lt hd)⟩
  · have hhistory : s'.history
        = recordAcquisition s.history t n ⟨owner, grant.fencingToken⟩ := by
      funext t' n'
      unfold LeasedPlane.history recordAcquisition
      by_cases htn : t' = t ∧ n' = n
      · obtain ⟨rfl, rfl⟩ := htn
        rw [hself, List.map_append, if_pos ⟨rfl, rfl⟩]
        rfl
      · rw [hother t' n' htn, if_neg htn]
    rw [hhistory]
    exact h.fenced.acquire hok
  · intro t' n' lease' hrow hvalid
    have hrow' : ExecutionDb.setEntry s.db.leases t n lease t' n' = some lease' := by
      have hx : db'.leases t' n' = some lease' := hrow
      rw [hdb] at hx
      exact hx
    by_cases htn : t' = t ∧ n' = n
    · obtain ⟨rfl, rfl⟩ := htn
      rw [ExecutionDb.setEntry_self] at hrow'
      obtain rfl := Option.some.inj hrow'
      rw [hlt, hexp]
      exact le_of_eq setUntil_self
    · rw [ExecutionDb.setEntry_of_ne _ _ htn] at hrow'
      have hkeep : s'.validUntil t' n' lease'.fencingToken
          = s.validUntil t' n' lease'.fencingToken :=
        setUntil_of_ne (fun hx => htn ⟨hx.1, hx.2.1⟩)
      rw [hkeep] at hvalid ⊢
      exact h.covered t' n' lease' hrow' hvalid
  · intro t' n' pre a b rest hsplit
    have hkeep : ∀ {pre' a' b' rest'}, s.takingsOf t' n' = pre' ++ a' :: b' :: rest' →
        Follows s' a' b' := by
      intro pre' a' b' rest' hs
      have ha : a' ∈ s.takingsOf t' n' := by
        rw [hs]
        exact List.mem_append_right _ List.mem_cons_self
      rcases h.followed t' n' pre' a' b' rest' hs with hd | hrun
      · exact .inl hd
      · refine .inr ?_
        rw [hsame a' (mem_takingsOf.mp ha).1 _ (le_refl _)]
        exact hrun
    by_cases htn : t' = t ∧ n' = n
    · obtain ⟨rfl, rfl⟩ := htn
      rw [hself] at hsplit
      rcases List.eq_nil_or_concat rest with rfl | ⟨rest', last, rfl⟩
      · -- the acquisition follows the one the row was
        have hsplit' : s.takingsOf t' n' ++ [c] = (pre ++ [a]) ++ [b] := by
          rw [hsplit, List.append_assoc]
          rfl
        obtain ⟨hpre, hb⟩ := List.append_inj' hsplit' rfl
        obtain rfl := (List.cons.inj hb).1
        have ha : a ∈ s.takingsOf t' n' := by
          rw [hpre]
          exact List.mem_append_right _ (List.mem_singleton_self a)
        cases hl : s.db.leases t' n' with
        | none =>
          rw [h.takingsOf_eq_nil hl] at ha
          cases ha
        | some row =>
          obtain ⟨pre', a', hlast, hacq⟩ := h.last hl
          obtain ⟨-, ha'⟩ := List.append_inj' (hpre.symm.trans hlast) rfl
          obtain rfl := (List.cons.inj ha').1
          have hrow : a.fencingToken = row.fencingToken := congrArg Acquisition.fencingToken hacq
          obtain ⟨-, rfl, rfl⟩ := mem_takingsOf.mp ha
          unfold Follows
          rw [hsame a (mem_takingsOf.mp ha).1 _ (le_refl _), hrow]
          exact (h.replaced_or_run_out hl hbegan).imp_left (fun hd => by rw [hc, hl, hd])
      · have hsplit' : s.takingsOf t' n' ++ [c] = (pre ++ a :: b :: rest') ++ [last] := by
          rw [hsplit]
          simp
        exact hkeep (List.append_inj' hsplit' rfl).1
    · rw [hother t' n' htn] at hsplit
      exact hkeep hsplit
  · intro a ha d hd
    rcases List.mem_append.mp ha with ha | ha
    · exact h.older a ha d hd
    · rw [List.mem_singleton.mp ha] at hd ⊢
      show d < grant.fencingToken
      rw [htoken]
      exact unexpiredToken_lt hd

/-- A renewal keeps the records. -/
theorem TakingsKept.renew (h : TakingsKept s) (began : Timestamp) (owner : String) (token : ℕ) :
    TakingsKept (s.renewLease began t n owner token)
      ∧ LaterLeases s (s.renewLease began t n owner token) := by
  unfold LeasedPlane.renewLease
  split
  · exact ⟨h, .refl s⟩
  rename_i db' hok
  obtain ⟨lease, hl, -, rfl, -, rfl⟩ := renew_ok hok
  exact h.setExpiry hl rfl rfl rfl (fun _ _ _ hne => setUntil_of_ne hne)
    (fun _ => le_of_eq setUntil_self)

/-- The row after a release. -/
theorem release_after {began : Timestamp} {owner : String} {db : ExecutionDb} :
    (release began t n owner).after db = match db.leases t n with
      | none => db
      | some lease =>
        if lease.ownerId = owner then
          { db with leases := ExecutionDb.setEntry db.leases t n { lease with expiresAt := began } }
        else db := by
  unfold Tx.after release
  rw [StateT.run_bind, StateT.run_get]
  dsimp only [bind, Except.bind, pure, Except.pure]
  cases db.leases t n with
  | none => rfl
  | some lease =>
    by_cases howner : lease.ownerId = owner
    · simp only [if_pos howner]
      rfl
    · simp only [if_neg howner]
      rfl

/-- **A release keeps the records**, if a valid lease it expires is given up by
who holds it. -/
theorem TakingsKept.release (h : TakingsKept s) {takenBy : Option ℕ} {began : Timestamp}
    {owner : String} (hown : ∀ lease, s.db.leases t n = some lease → lease.ownerId = owner →
      s.now < lease.expiresAt → s.givesUp takenBy lease t n = true) :
    TakingsKept (s.releaseLease takenBy began t n owner)
      ∧ LaterLeases s (s.releaseLease takenBy began t n owner) := by
  unfold LeasedPlane.releaseLease
  rw [release_after]
  cases hl : s.db.leases t n with
  | none => exact h.elsewhere rfl rfl rfl (le_refl _)
  | some lease =>
    dsimp only
    by_cases howner : lease.ownerId = owner
    · rw [if_pos howner]
      cases hgive : s.givesUp takenBy lease t n with
      | true =>
        rw [if_pos ⟨howner, rfl⟩]
        exact h.setExpiry hl rfl rfl rfl (fun _ _ _ hne => setUntil_of_ne hne)
          (fun _ => le_of_eq setUntil_self)
      | false =>
        rw [if_neg (by simp)]
        refine h.setExpiry hl rfl rfl rfl (fun _ _ _ _ => rfl) (fun hvalid => ?_)
        have hexpired : ¬ s.now < lease.expiresAt := by
          intro hlive
          rw [hown lease hl howner hlive] at hgive
          cases hgive
        exact absurd (lt_of_lt_of_le hvalid (h.covered t n lease hl hvalid)) hexpired
    · rw [if_neg howner, if_neg (fun hx => howner hx.1)]
      exact h.elsewhere rfl rfl rfl (le_refl _)

/-- Acquisitions carry the number of who made them. -/
theorem mem_takings_take {takenBy : Option ℕ} {ttl began : Timestamp} {owner : String} {a : Taking}
    (ha : a ∈ (s.takeLease takenBy ttl began t n owner).2.takings) :
    a ∈ s.takings ∨ a.takenBy = takenBy := by
  unfold LeasedPlane.takeLease at ha
  split at ha
  · exact .inl ha
  · rcases List.mem_append.mp ha with ha | ha
    · exact .inl ha
    · rw [List.mem_singleton.mp ha]
      exact .inr rfl

theorem takings_renew (began : Timestamp) (owner : String) (token : ℕ) :
    (s.renewLease began t n owner token).takings = s.takings := by
  unfold LeasedPlane.renewLease
  split <;> rfl

end Kept

/-! ## Steps -/

section Steps

variable {P : ToolPlatform} {s s' : LeasedPlane}

/-- **What one request does to the records.** -/
theorem TakingsKept.serve (h : TakingsKept s) {who : Caller} {c : LeasedChoice} {op : ToolOp}
    {r : Except ToolException (ToolRes op)} (hown : ReleasesOwn who.pid s (who.call, op))
    (hs : serveLeased P who c s op = some (r, s')) :
    (TakingsKept s' ∧ LaterLeases s s') ∧ ∀ a ∈ s'.takings, a ∈ s.takings
      ∨ a.takenBy = none ∨ a.takenBy = some who.pid := by
  have hwho : who.resumer = none ∨ who.resumer = some who.pid := by
    unfold Caller.resumer
    split
    · exact .inr rfl
    · exact .inl rfl
  have hsame : TakingsKept s ∧ LaterLeases s s := ⟨h, .refl s⟩
  unfold serveLeased at hs
  split at hs
  · split at hs
    · rename_i hbegan
      obtain rfl := congrArg Prod.snd (Option.some.inj hs)
      refine ⟨h.take hbegan, fun a ha => (mem_takings_take ha).imp_right (fun hx => ?_)⟩
      rw [hx]
      exact hwho
    · cases hs
  · obtain rfl := congrArg Prod.snd (Option.some.inj hs)
    exact ⟨hsame, fun a ha => .inl ha⟩
  · cases hs
  · split at hs
    · obtain rfl := congrArg Prod.snd (Option.some.inj hs)
      refine ⟨h.release (fun lease hl howner hlive => ?_), fun a ha => .inl ha⟩
      obtain ⟨pid, call⟩ := who
      cases call with
      | resume t' id by' => exact hown _ rfl lease hl howner hlive
      | _ => rfl
    · cases hs
  · obtain rfl := congrArg Prod.snd (Option.some.inj hs)
    exact ⟨hsame, fun a ha => .inl ha⟩
  · cases hs
  · obtain ⟨x, -, hx⟩ := Option.map_eq_some_iff.mp hs
    obtain rfl := congrArg Prod.snd hx
    exact ⟨h.elsewhere rfl rfl rfl (le_refl _), fun a ha => .inl ha⟩
  · cases hs

/-- What the others do to the records. -/
theorem TakingsKept.event (h : TakingsKept s) {e : LeaseEvent} (hs : leaseEvent P e s = some s') :
    (TakingsKept s' ∧ LaterLeases s s') ∧ ∀ a ∈ s'.takings, a ∈ s.takings ∨ a.takenBy = none := by
  cases e with
  | tool e =>
    obtain ⟨plane, -, rfl⟩ := Option.map_eq_some_iff.mp hs
    exact ⟨h.elsewhere rfl rfl rfl (le_refl _), fun a ha => .inl ha⟩
  | tick now =>
    simp only [leaseEvent] at hs
    split at hs
    · rename_i hnow
      obtain rfl := Option.some.inj hs
      exact ⟨h.elsewhere rfl rfl rfl hnow, fun a ha => .inl ha⟩
    · cases hs
  | acquire ttl began t n owner =>
    simp only [leaseEvent] at hs
    split at hs
    · rename_i hbegan
      obtain rfl := Option.some.inj hs
      exact ⟨h.take hbegan, fun a ha => mem_takings_take ha⟩
    · cases hs
  | renew began t n owner token =>
    simp only [leaseEvent] at hs
    split at hs
    · obtain rfl := Option.some.inj hs
      refine ⟨h.renew began owner token, fun a ha => .inl ?_⟩
      rw [takings_renew] at ha
      exact ha
    · cases hs
  | release began t n owner =>
    simp only [leaseEvent] at hs
    split at hs
    · obtain rfl := Option.some.inj hs
      exact ⟨h.release (fun _ _ _ _ => rfl), fun a ha => .inl ha⟩
    · cases hs
  | commit began ids c =>
    obtain rfl := Option.some.inj hs
    exact ⟨h.elsewhere (leases_commit began ids c s.db) rfl rfl (le_refl _), fun a ha => .inl ha⟩
  | elsewhere tables =>
    obtain rfl := Option.some.inj hs
    exact ⟨h.elsewhere rfl rfl rfl (le_refl _), fun a ha => .inl ha⟩

variable {w w' : LeasedState} {l : LeasedLabel}

/-- **One step of the pool keeps the records**; a call that makes an acquisition is
in progress. -/
theorem TakingsKept.step (h : TakingsKept w.shared) (hok : sparesGrants P w l)
    (hs : (leasedPool P).step w l = some w') :
    (TakingsKept w'.shared ∧ LaterLeases w.shared w'.shared) ∧ ∀ a ∈ w'.shared.takings,
      a ∈ w.shared.takings ∨ ∀ pid, a.takenBy = some pid → w.threads pid ≠ none := by
  cases l with
  | spawn call =>
    obtain rfl := Option.some.inj hs
    rw [Pool.land_shared]
    exact ⟨⟨h, .refl _⟩, fun a ha => .inl ha⟩
  | act pid c =>
    simp only [Pool.step] at hs
    split at hs
    · rename_i call op k hth
      obtain ⟨⟨r, s'⟩, hserve, rfl⟩ := Option.map_eq_some_iff.mp hs
      rw [Pool.land_shared]
      have hserve' : serveLeased P ⟨pid, op.1⟩ c w.shared op.2 = some (r, s') := hserve
      obtain ⟨hkept, hnew⟩ := h.serve (hok.1 call op k hth) hserve'
      refine ⟨hkept, fun a ha => (hnew a ha).imp_right (fun hby q hq => ?_)⟩
      rcases hby with hby | hby
      · rw [hby] at hq
        cases hq
      · obtain rfl : pid = q := Option.some.inj (hby.symm.trans hq)
        rw [hth]
        exact Option.some_ne_none _
    · cases hs
  | crash pid =>
    simp only [Pool.step] at hs
    split at hs
    · cases hs
    · obtain rfl := Option.some.inj hs
      exact ⟨h.elsewhere rfl rfl rfl (le_refl _), fun a ha => .inl ha⟩
  | env e =>
    obtain ⟨s', he, rfl⟩ := Option.map_eq_some_iff.mp hs
    obtain ⟨hkept, hnew⟩ := h.event he
    refine ⟨hkept, fun a ha => (hnew a ha).imp_right (fun hby q hq => ?_)⟩
    rw [hby] at hq
    cases hq

end Steps

/-! ## Runs -/

section Runs

variable {P : ToolPlatform} {w w' : LeasedState}

/-- A `resume` that has taken nothing over has not done so later either. -/
theorem TakesNothingOver.later {s s' : LeasedPlane} (hkept : TakingsKept s)
    (hlater : LaterLeases s s') {pid : ℕ} (h : TakesNothingOver pid s)
    (hnew : ∀ a ∈ s'.takings, a.takenBy = some pid → a ∈ s.takings) : TakesNothingOver pid s' := by
  intro a ha hby d hd
  have hold := hnew a ha hby
  rw [hlater.settled a hold d (hkept.older a hold d hd)]
  exact le_trans (h a hold hby d hd) hlater.clock

/-- **In every run whose steps meet the condition**, the records are those of the
table, and no `resume` that raised has taken a valid lease over. -/
theorem kept_of_reach (h : (leasedMachine P).Reach (sparesGrants P) w) :
    TakingsKept w.shared ∧ ∀ x ∈ w.replies, FailedResume x → TakesNothingOver x.pid w.shared := by
  refine Machine.Reach.invariant (I := fun w => TakingsKept w.shared
    ∧ ∀ x ∈ w.replies, FailedResume x → TakesNothingOver x.pid w.shared) ?_ ?_ h
  · rintro _ ⟨s, ⟨hleases, htakings⟩, rfl⟩
    have hof : ∀ t n, s.takingsOf t n = [] := fun t n => by
      unfold LeasedPlane.takingsOf
      rw [htakings]
      rfl
    refine ⟨⟨⟨fun t n => ?_, fun t n => ?_⟩, ?_, ?_, ?_⟩, fun x hx => absurd hx List.not_mem_nil⟩
    · show (s.db.leases t n).map _ = ((s.takingsOf t n).map _).getLast?
      rw [hleases, hof]
      rfl
    · show ((s.takingsOf t n).map _).Pairwise _
      rw [hof]
      exact List.Pairwise.nil
    · intro t n lease hl
      have hrow : s.db.leases t n = some lease := hl
      rw [hleases] at hrow
      cases hrow
    · intro t n pre a b rest hsplit
      have hnil : [] = pre ++ a :: b :: rest := (hof t n).symm.trans hsplit
      cases pre <;> cases hnil
    · intro a ha
      have hnil : a ∈ s.takings := ha
      rw [htakings] at hnil
      cases hnil
  · rintro w l w' hreach ⟨hkept, hfailed⟩ hok hs
    obtain ⟨⟨hkept', hlater⟩, hnew⟩ := hkept.step hok hs
    refine ⟨hkept', fun x hx hx' => ?_⟩
    have horder : Pool.Orderly w := Pool.reach_orderly hreach
    by_cases hold : x ∈ w.replies
    · refine (hfailed x hold hx').later hkept hlater (fun a ha hby => ?_)
      exact (hnew a ha).resolve_right (fun hbusy =>
        hbusy x.pid hby (horder.done x hold).2)
    · obtain ⟨new, hnewReplies⟩ := Pool.replies_prefix_step hs
      refine hok.2 w' hs x ?_ hx'
      rw [← hnewReplies] at hx ⊢
      rw [List.drop_left]
      exact (List.mem_append.mp hx).resolve_left hold

/-- A run adds acquisitions. -/
theorem takings_prefix_of_steps (h : (leasedMachine P).Reach (sparesGrants P) w)
    (hs : (leasedMachine P).Steps (sparesGrants P) w w') :
    w.shared.takings <+: w'.shared.takings := by
  refine Machine.Steps.trans_rel (R := fun w w' => w.shared.takings <+: w'.shared.takings)
    (fun _ => List.prefix_rfl) (fun _ _ _ => List.IsPrefix.trans) ?_ h hs
  intro w l w' hreach hok hstep
  exact ((kept_of_reach hreach).1.step hok hstep).1.2.takings

/-- **A failed `resume` spares every grant.** In every run whose steps meet the
condition, a grant that could commit at some time can still commit as long as its
time has not run out, if all who have acquired the lease since are calls of
`resume` that have raised. -/
theorem failed_resume_spares_grants (h : (leasedMachine P).Reach (sparesGrants P) w)
    (hs : (leasedMachine P).Steps (sparesGrants P) w w') {t : Uuid} {n : String} {g : Acquisition}
    (hg : CanCommit w.shared t n g)
    (hothers : ∀ a ∈ w'.shared.takingsOf t n, g.fencingToken < a.fencingToken →
      ∃ x ∈ w'.replies, FailedResume x ∧ a.takenBy = some x.pid)
    (hvalid : w'.shared.now < w'.shared.validUntil t n g.fencingToken) :
    CanCommit w'.shared t n g := by
  obtain ⟨hkept, -⟩ := kept_of_reach h
  obtain ⟨hkept', hspared⟩ := kept_of_reach (h.steps hs)
  obtain ⟨lease, hrow, rfl, -⟩ := hg
  obtain ⟨pre, a, hpre, hacq⟩ := hkept.last hrow
  have htoken : a.fencingToken = lease.fencingToken := congrArg Acquisition.fencingToken hacq
  have hvalid' : w'.shared.now < w'.shared.validUntil t n lease.fencingToken := hvalid
  obtain ⟨rest, hrest⟩ := (takings_prefix_of_steps h hs).filter
    (fun a => decide (a.tenantId = t ∧ a.sessionId = n))
  have hsplit : w'.shared.takingsOf t n = pre ++ a :: rest := by
    have hof : w.shared.takingsOf t n ++ rest = w'.shared.takingsOf t n := hrest
    rw [← hof, hpre, List.append_assoc]
    rfl
  have ha : a ∈ w'.shared.takingsOf t n := by
    rw [hsplit]
    exact List.mem_append_right _ List.mem_cons_self
  obtain ⟨-, rfl, rfl⟩ := mem_takingsOf.mp ha
  cases rest with
  | nil =>
    -- nobody has acquired the lease since: the row is still the grant's
    cases hrow' : w'.shared.db.leases a.tenantId a.sessionId with
    | none =>
      rw [hkept'.takingsOf_eq_nil hrow'] at hsplit
      cases pre <;> cases hsplit
    | some lease' =>
      obtain ⟨pre', a', hlast, hacq'⟩ := hkept'.last hrow'
      obtain ⟨-, hsame⟩ := List.append_inj' (hsplit.symm.trans hlast) rfl
      obtain rfl := (List.cons.inj hsame).1
      have htoken' : a.fencingToken = lease'.fencingToken :=
        congrArg Acquisition.fencingToken hacq'
      refine ⟨lease', hrow', hacq'.symm.trans hacq, ?_⟩
      rw [← htoken, htoken'] at hvalid'
      exact lt_of_lt_of_le hvalid' (hkept'.covered _ _ _ hrow' hvalid')
  | cons b rest =>
    -- the next acquisition is the `resume`'s, which has taken nothing over
    exfalso
    have hb : b ∈ w'.shared.takingsOf a.tenantId a.sessionId := by
      rw [hsplit]
      exact List.mem_append_right _ (List.mem_cons_of_mem _ List.mem_cons_self)
    have hlt : a.fencingToken < b.fencingToken := hkept'.token_lt hsplit List.mem_cons_self
    obtain ⟨hbmem, hbt, hbn⟩ := mem_takingsOf.mp hb
    rw [← htoken] at hvalid'
    refine absurd ?_ (not_le.mpr hvalid')
    rcases hkept'.followed _ _ _ _ _ _ hsplit with hd | hrun
    · obtain ⟨x, hx, hfailed, hby⟩ := hothers b hb (lt_of_eq_of_lt htoken.symm hlt)
      have hrunOut := hspared x hx hfailed b hbmem hby a.fencingToken hd
      rw [hbt, hbn] at hrunOut
      exact hrunOut
    · exact hrun

end Runs

/-! ## A run that keeps its grant, and two that lose it -/

/-- An approval of tenant 1. -/
def mailRequest (id : Uuid) (status : ApprovalStatus) : ApprovalRequest where
  tenantId := 1
  releaseId := "r"
  toolName := "send_mail"
  toolVersion := 1
  paramsHash := "h"
  params := []
  sideEffect := .NON_IDEMPOTENT_WRITE
  requestedBy := "ada"
  requesterRole := "AGENT_RUNNER"
  policyVersion := "unspecified"
  approvalId := id
  status := status
  requestedAt := 0
  expiresAt := 900000000

/-- A checkpoint of Session `s` that waits for an approval. -/
def mailCheckpoint (id approvalId : Uuid) : ExecutionCheckpoint where
  tenantId := 1
  executionId := "e"
  sessionId := "s"
  releaseId := "r"
  approvalId := approvalId
  toolName := "send_mail"
  toolVersion := 1
  paramsHash := "h"
  requestedBy := "ada"
  parkedBy := "v"
  checkpointId := id

/-- A Session with two checkpoints: the approval of the first has been denied,
that of the second granted. -/
def parkedTwice : LeasedPlane where
  plane :=
    { ToolPlane.start 0 with
      approvals := [mailRequest 10 .DENIED, mailRequest 20 .APPROVED]
      checkpoints := [mailCheckpoint 1 10, mailCheckpoint 2 20] }
  db := oneSession
  now := 0
  takings := []
  validUntil := fun _ _ _ => 0

/-- A tool plane over the database. -/
def checkpointPlatform : ToolPlatform where
  kind := .database
  sha256 := id
  catalogue _ _ _ :=
    { tenantId := 1
      name := "send_mail"
      version := 1
      description := "Send a mail"
      sideEffect := .NON_IDEMPOTENT_WRITE
      inputSchema := []
      outputSchema := []
      dataClassification := .INTERNAL }

theorem parkedTwice_init : (leasedMachine checkpointPlatform).init (Pool.idle parkedTwice) :=
  ⟨_, ⟨fun _ _ => rfl, rfl⟩, rfl⟩

/-- A statement that succeeds. -/
def storeServes (pid : ℕ) : LeasedLabel := .act pid (.tool .ok)

/-- The lease manager answers a minute's lease. -/
def leaseServes (pid : ℕ) (began : Timestamp) : LeasedLabel := .act pid (.lease 60000000 began true)

/-- Worker `v` resumes and loses its lease to `u` before its approval is refused:
`u` keeps the grant. -/
theorem failed_resume_spares_takeover :
    ∃ w w', (leasedMachine checkpointPlatform).Reach (sparesGrants checkpointPlatform) w
      ∧ (leasedMachine checkpointPlatform).Steps (sparesGrants checkpointPlatform) w w'
      ∧ (∃ x ∈ w'.replies, FailedResume x) ∧ CanCommit w'.shared 1 "s" ⟨"u", 2⟩ := by
  have hrun : (((leasedMachine checkpointPlatform).runIf
        (fun w l => decide (sparesGrants checkpointPlatform w l)) (Pool.idle parkedTwice)
        [.spawn (.resume 1 1 "v"), storeServes 0, leaseServes 0 0, .env (.tick 60000000),
          .env (.acquire 60000000 60000000 1 "s" "u")]).bind (fun w =>
        ((leasedMachine checkpointPlatform).runIf
          (fun w l => decide (sparesGrants checkpointPlatform w l)) w
          [storeServes 0, leaseServes 0 60000000]).map (fun w' =>
        decide (CanCommit w.shared 1 "s" ⟨"u", 2⟩ ∧ (∃ x ∈ w'.replies, FailedResume x)
          ∧ (∀ a ∈ w'.shared.takingsOf 1 "s", 2 < a.fencingToken →
              ∃ x ∈ w'.replies, FailedResume x ∧ a.takenBy = some x.pid)
          ∧ w'.shared.now < w'.shared.validUntil 1 "s" 2))))
        = some true := by
    decide +kernel
  obtain ⟨w, w', hw, hw', h⟩ := Machine.steps_of_runIf_runIf
    (p := fun (w w' : LeasedState) => decide (CanCommit w.shared 1 "s" ⟨"u", 2⟩
      ∧ (∃ x ∈ w'.replies, FailedResume x)
      ∧ (∀ a ∈ w'.shared.takingsOf 1 "s", 2 < a.fencingToken →
          ∃ x ∈ w'.replies, FailedResume x ∧ a.takenBy = some x.pid)
      ∧ w'.shared.now < w'.shared.validUntil 1 "s" 2))
    (fun _ _ => of_decide_eq_true) parkedTwice_init hrun
  obtain ⟨hcan, hfailed, hothers, hvalid⟩ := of_decide_eq_true h
  exact ⟨w, w', hw, hw', hfailed, failed_resume_spares_grants hw hw' hcan hothers hvalid⟩

/-- A grant that could commit is lost to a `resume` that has raised, although
nobody else has acquired the lease and its time has not run out. -/
def RevokedBy (w w' : LeasedState)
    (x : Pool.Reply ToolException LeasedPlane ToolCall ToolReply) (t : Uuid) (n : String)
    (g : Acquisition) : Prop :=
  CanCommit w.shared t n g ∧ FailedResume x
    ∧ (∀ a ∈ w'.shared.takingsOf t n, g.fencingToken < a.fencingToken → a.takenBy = some x.pid)
    ∧ w'.shared.now < w'.shared.validUntil t n g.fencingToken ∧ ¬ CanCommit w'.shared t n g

instance (w w' : LeasedState) (x : Pool.Reply ToolException LeasedPlane ToolCall ToolReply)
    (t : Uuid) (n : String) (g : Acquisition) : Decidable (RevokedBy w w' x t n g) :=
  inferInstanceAs (Decidable (_ ∧ _ ∧ _ ∧ _ ∧ _))

/-- The grant a `resume` has returned. -/
def grantOf (x : Pool.Reply ToolException LeasedPlane ToolCall ToolReply) : Option Acquisition :=
  match x.call, x.outcome with
  | .resume _ _ worker, .ok (.resumed grant) => some ⟨worker, grant.fencingToken⟩
  | _, _ => none

/-- **A failed `resume` revokes grants**: the one its own worker held before, and
the one another `resume` has returned to the same worker. -/
theorem failed_resume_revokes_grants :
    (∃ w w', (leasedMachine checkpointPlatform).Reach Machine.anyStep w
      ∧ (leasedMachine checkpointPlatform).Steps Machine.anyStep w w'
      ∧ ∃ x ∈ w'.replies, w.spawned ≤ x.pid ∧ RevokedBy w w' x 1 "s" ⟨"v", 1⟩)
    ∧ ∃ w w', (leasedMachine checkpointPlatform).Reach Machine.anyStep w
      ∧ (leasedMachine checkpointPlatform).Steps Machine.anyStep w w'
      ∧ ∃ y ∈ w.replies, ∃ x ∈ w'.replies, ∃ g ∈ grantOf y, RevokedBy w w' x 1 "s" g := by
  constructor
  · have hrun : (((leasedMachine checkpointPlatform).run (Pool.idle parkedTwice)
        [.env (.acquire 60000000 0 1 "s" "v")]).bind (fun w =>
        ((leasedMachine checkpointPlatform).run w
          [.spawn (.resume 1 1 "v"), storeServes 0, leaseServes 0 0, storeServes 0,
            leaseServes 0 0]).map (fun w' =>
        decide (∃ x ∈ w'.replies, w.spawned ≤ x.pid ∧ RevokedBy w w' x 1 "s" ⟨"v", 1⟩))))
        = some true := by
      decide +kernel
    obtain ⟨w, w', hw, hw', h⟩ := Machine.steps_of_run_run
      (p := fun (w w' : LeasedState) => decide (∃ x ∈ w'.replies, w.spawned ≤ x.pid
        ∧ RevokedBy w w' x 1 "s" ⟨"v", 1⟩)) parkedTwice_init hrun
    exact ⟨w, w', hw, hw', of_decide_eq_true h⟩
  · have hrun : (((leasedMachine checkpointPlatform).run (Pool.idle parkedTwice)
        [.spawn (.resume 1 1 "v"), .spawn (.resume 1 2 "v"), storeServes 0, leaseServes 0 0,
          storeServes 1, leaseServes 1 0, storeServes 1, storeServes 1, storeServes 1,
            storeServes 1, storeServes 1]).bind (fun w =>
        ((leasedMachine checkpointPlatform).run w [storeServes 0, leaseServes 0 0]).map (fun w' =>
        decide (∃ y ∈ w.replies, ∃ x ∈ w'.replies, ∃ g ∈ grantOf y, RevokedBy w w' x 1 "s" g))))
        = some true := by
      decide +kernel
    obtain ⟨w, w', hw, hw', h⟩ := Machine.steps_of_run_run
      (p := fun (w w' : LeasedState) => decide (∃ y ∈ w.replies, ∃ x ∈ w'.replies, ∃ g ∈ grantOf y,
        RevokedBy w w' x 1 "s" g)) parkedTwice_init hrun
    exact ⟨w, w', hw, hw', of_decide_eq_true h⟩
