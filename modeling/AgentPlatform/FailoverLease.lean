import AgentPlatform.ExecutionStore
import AgentPlatform.Transaction

/-!
# The failover lease

The embedding of `failover.py`: regions compete for the role of the primary. A
promotion runs in one transaction. It takes an advisory lock, looks at the
present primary, fences it, draws the next fencing token and inserts its own
row. A region may also be registered as a standby, which takes no lock and
inserts a row with token 0.

The advisory lock makes promotions follow one another: while a promotion holds
it, the others can do nothing to the table but insert standby rows
(`StandbyOnly`), and these are neither primary nor carry a token. So what the
promotion has fenced stays fenced, the token it has drawn stays above all the
others, and its row is the only primary when it commits.

The log of the database holds every committed state. That a token exceeds every
token ever issued is said of the rows of all of them.
-/

/-- `FailoverRole`. -/
inductive FailoverRole where
  | primary
  | standby
  | failingOver
  | failingBack
  | fenced
  deriving DecidableEq, Repr

/-- `FailoverError` with its code, or an error of the database. -/
inductive FailoverException where
  | failover (code : String)
  | database
  deriving DecidableEq

/-- A row of `platform.failover_lease`. -/
structure FailoverRow where
  id : Uuid
  region : String
  role : FailoverRole
  fencingToken : ℕ
  acquiredAt : Timestamp
  expiresAt : Timestamp
  releasedAt : Option Timestamp
  operator : String
  deriving DecidableEq

/-- `LeaseState`. -/
structure LeaseState where
  region : String
  role : FailoverRole
  fencingToken : ℕ
  acquiredAt : Timestamp
  expiresAt : Timestamp
  deriving DecidableEq

/-- `_lease_state`. -/
def FailoverRow.leaseState (r : FailoverRow) : LeaseState :=
  ⟨r.region, r.role, r.fencingToken, r.acquiredAt, r.expiresAt⟩

/-- `role='PRIMARY' AND released_at IS NULL`. -/
def FailoverRow.active (r : FailoverRow) : Bool :=
  r.role = .primary && r.releasedAt.isNone

/-- The unreleased primaries. -/
def activePrimaries (db : List FailoverRow) : List FailoverRow :=
  db.filter FailoverRow.active

/-- The `CHECK` constraints of the table. -/
def FailoverRow.checks (r : FailoverRow) : Bool :=
  1 ≤ r.region.length && r.region.length ≤ 64 && 1 ≤ r.operator.length
    && r.operator.length ≤ 256 && r.acquiredAt < r.expiresAt

/-- `coalesce(max(fencing_token),0)`. -/
def maxToken (db : List FailoverRow) : ℕ := (db.map FailoverRow.fencingToken).foldl max 0

/-- The largest `bigint`. -/
def maxBigint : ℕ := 9223372036854775807

/-! ## Statements -/

/-- A change of one row. -/
inductive FailoverWrite where
  | insert (row : FailoverRow)
  | fence (id : Uuid) (now : Timestamp)

/-- The effect of a change. -/
def FailoverWrite.apply : FailoverWrite → List FailoverRow → List FailoverRow
  | .insert row, db => db ++ [row]
  | .fence id now, db =>
    db.map (fun r => if r.id = id then { r with role := .fenced, releasedAt := some now } else r)

/-- What can be locked: an advisory lock, a row, and the entry of the index
`failover_lease_single_active`. -/
inductive FailoverKey where
  | advisory (key : ℕ)
  | row (id : Uuid)
  | singleActive
  deriving DecidableEq

/-- The row a change touches. -/
def FailoverWrite.key : FailoverWrite → FailoverKey
  | .insert row => .row row.id
  | .fence id _ => .row id

/-- The requests of a manager; `clock` is `datetime.now` of its own process. -/
inductive FailoverOp where
  | advisoryLock (key : ℕ)
  | selectPrimary (forUpdate : Bool)
  | fencePrimary
  | nextToken
  | clock
  | randomUuid
  | insertLease (id : Uuid) (region : String) (role : FailoverRole) (fencingToken : ℕ)
      (expiresAt : Timestamp) (operator : String)

/-- What a request answers. -/
abbrev FailoverRes : FailoverOp → Type
  | .advisoryLock _ => Unit
  | .selectPrimary _ => Option FailoverRow
  | .fencePrimary => Unit
  | .nextToken => ℕ
  | .clock => Timestamp
  | .randomUuid => Uuid
  | .insertLease .. => FailoverRow

/-- What the environment chooses: the time – `now()`, or that of the process –
and a random number. -/
structure FailoverAnswer where
  now : Timestamp
  uuid : Uuid

/-- **The statements of a manager.** An insertion that breaks a constraint
raises. -/
def failoverEngine :
    Engine FailoverOp FailoverRes FailoverException FailoverAnswer (List FailoverRow)
      FailoverWrite FailoverKey Unit where
  apply := FailoverWrite.apply
  key := FailoverWrite.key
  locks := fun op _ db _ => match op with
    | .advisoryLock key => [.advisory key]
    | .selectPrimary true => (activePrimaries db).map (fun r => .row r.id)
    | .selectPrimary false => []
    | .fencePrimary => match activePrimaries db with
      | [] => []
      | rows => .singleActive :: rows.map (fun r => .row r.id)
    | .nextToken => []
    | .clock => []
    | .randomUuid => []
    | .insertLease id _ role .. =>
      if role = .primary then [.row id, .singleActive] else [.row id]
  exec := fun a op _ db x => match op with
    | .advisoryLock _ => (.ok (), [], x)
    | .selectPrimary _ => (.ok (activePrimaries db).head?, [], x)
    | .fencePrimary => (.ok (), (activePrimaries db).map (fun r => .fence r.id a.now), x)
    | .nextToken =>
      if maxToken db + 1 ≤ maxBigint then (.ok (maxToken db + 1), [], x)
      else (.error .database, [], x)
    | .clock => (.ok a.now, [], x)
    | .randomUuid => (.ok a.uuid, [], x)
    | .insertLease id region role fencingToken expiresAt operator =>
      let row : FailoverRow :=
        ⟨id, region, role, fencingToken, a.now, expiresAt, none, operator⟩
      if row.checks && db.all (fun r => r.id ≠ id)
          && (role ≠ .primary || (activePrimaries db).isEmpty)
        then (.ok row, [.insert row], x)
        else (.error .database, [], x)
  dbError := .database

/-! ## The programs -/

/-- A program of a manager. -/
abbrev FailoverProg (α : Type) := Prog (TxOp FailoverOp) (TxRes FailoverRes) FailoverException α

/-- `FailoverLeaseManager`; the time to live is a number of microseconds. -/
structure FailoverLeaseManager where
  leaseTtl : Timestamp
  deriving DecidableEq

namespace FailoverLeaseManager

/-- `_LEASE_LOCK`. -/
def leaseLock : ℕ := 0x4641494C

/-- **`register_standby`.** -/
def registerStandby (m : FailoverLeaseManager) (region operator : String) :
    FailoverProg LeaseState :=
  Engine.transaction (do
    let now ← Engine.stmt .clock
    let id ← Engine.stmt .randomUuid
    let row ← Engine.stmt (.insertLease id region .standby 0 (now + m.leaseTtl) operator)
    return FailoverRow.leaseState row)

/-- The primary is not promoted again. -/
def refusePrimary (region : String) : Option FailoverRow → FailoverProg Unit
  | none => return ()
  | some primary =>
    if primary.region = region then throw (.failover "FAILOVER_ALREADY_PRIMARY") else return ()

/-- **`promote`.** -/
def promote (m : FailoverLeaseManager) (region operator : String) : FailoverProg LeaseState :=
  Engine.transaction (do
    let _ ← Engine.stmt (.advisoryLock leaseLock)
    let primary ← Engine.stmt (.selectPrimary true)
    let _ ← refusePrimary region primary
    let _ ← Engine.stmt .fencePrimary
    let token ← Engine.stmt .nextToken
    let now ← Engine.stmt .clock
    let id ← Engine.stmt .randomUuid
    let row ← Engine.stmt (.insertLease id region .primary token (now + m.leaseTtl) operator)
    return FailoverRow.leaseState row)

/-- **`current_primary`.** -/
def currentPrimary : FailoverProg (Option LeaseState) :=
  Engine.transaction (do
    let row ← Engine.stmt (.selectPrimary false)
    return Option.map FailoverRow.leaseState row)

end FailoverLeaseManager

/-- A call of a manager. -/
inductive FailoverCall where
  | registerStandby (m : FailoverLeaseManager) (region operator : String)
  | promote (m : FailoverLeaseManager) (region operator : String)
  | currentPrimary
  deriving DecidableEq

/-- The program of a call. -/
def FailoverCall.body : FailoverCall → FailoverProg (Option LeaseState)
  | .registerStandby m region operator => do
    let state ← m.registerStandby region operator
    return some state
  | .promote m region operator => do
    let state ← m.promote region operator
    return some state
  | .currentPrimary => FailoverLeaseManager.currentPrimary

/-- The state of the table under managers. -/
abbrev FailoverState := TxState (List FailoverRow) FailoverWrite FailoverKey Unit

/-- **Managers at work**, in any number of regions. -/
def regions : Pool (TxOp FailoverOp) (TxRes FailoverRes) FailoverException (Choice FailoverAnswer)
    FailoverState FailoverCall (Option LeaseState) Empty where
  handler := failoverEngine.handler
  body := FailoverCall.body
  abandon := fun pid s => Engine.close s pid
  env := fun e _ => e.elim

/-- **The transition system of the regions**, from an empty table. -/
def failoverMachine := regions.machine (fun s => s = Engine.quiet [] ())

/-! ## What becomes of the table -/

/-- Standby rows were added, and nothing else happened. -/
def StandbyOnly (db db' : List FailoverRow) : Prop :=
  ∃ new, db' = db ++ new ∧ ∀ r ∈ new, r.role = .standby ∧ r.fencingToken = 0

/-- Every row is still there, with its region and its token. -/
def LeasesKept (db db' : List FailoverRow) : Prop :=
  ∀ r ∈ db, ∃ r' ∈ db', r'.id = r.id ∧ r'.region = r.region ∧ r'.fencingToken = r.fencingToken

theorem StandbyOnly.refl (db : List FailoverRow) : StandbyOnly db db :=
  ⟨[], (List.append_nil db).symm, nofun⟩

theorem StandbyOnly.trans {a b c : List FailoverRow} (h : StandbyOnly a b)
    (h' : StandbyOnly b c) : StandbyOnly a c := by
  obtain ⟨new, rfl, hnew⟩ := h
  obtain ⟨new', rfl, hnew'⟩ := h'
  refine ⟨new ++ new', List.append_assoc .., fun r hr => ?_⟩
  rcases List.mem_append.mp hr with hr | hr
  · exact hnew r hr
  · exact hnew' r hr

theorem LeasesKept.refl (db : List FailoverRow) : LeasesKept db db :=
  fun r hr => ⟨r, hr, rfl, rfl, rfl⟩

theorem LeasesKept.trans {a b c : List FailoverRow} (h : LeasesKept a b) (h' : LeasesKept b c) :
    LeasesKept a c := by
  intro r hr
  obtain ⟨r', hr', hid, hregion, htoken⟩ := h r hr
  obtain ⟨r'', hr'', hid', hregion', htoken'⟩ := h' r' hr'
  exact ⟨r'', hr'', hid'.trans hid, hregion'.trans hregion, htoken'.trans htoken⟩

theorem StandbyOnly.leasesKept {db db' : List FailoverRow} (h : StandbyOnly db db') :
    LeasesKept db db' := by
  obtain ⟨new, rfl, -⟩ := h
  exact fun r hr => ⟨r, List.mem_append_left _ hr, rfl, rfl, rfl⟩

/-- A standby row is no primary. -/
theorem StandbyOnly.active_mem {db db' : List FailoverRow} (h : StandbyOnly db db')
    {r : FailoverRow} (hr : r ∈ db') (hactive : r.active = true) : r ∈ db := by
  obtain ⟨new, rfl, hnew⟩ := h
  rcases List.mem_append.mp hr with hr | hr
  · exact hr
  · simp [FailoverRow.active, (hnew r hr).1] at hactive

theorem StandbyOnly.activePrimaries_eq {db db' : List FailoverRow} (h : StandbyOnly db db') :
    activePrimaries db' = activePrimaries db := by
  obtain ⟨new, rfl, hnew⟩ := h
  have hnone : new.filter FailoverRow.active = [] := by
    refine List.filter_eq_nil_iff.mpr (fun r hr => ?_)
    simp [FailoverRow.active, (hnew r hr).1]
  rw [activePrimaries, List.filter_append, hnone, List.append_nil, activePrimaries]

/-- A standby row carries no token. -/
theorem StandbyOnly.token_lt {db db' : List FailoverRow} (h : StandbyOnly db db') {token : ℕ}
    (hpos : 0 < token) (hlt : ∀ r ∈ db, r.fencingToken < token) :
    ∀ r ∈ db', r.fencingToken < token := by
  obtain ⟨new, rfl, hnew⟩ := h
  intro r hr
  rcases List.mem_append.mp hr with hr | hr
  · exact hlt r hr
  · rw [(hnew r hr).2]
    exact hpos

/-- The tokens of a table are at most the largest of them. -/
theorem token_le_maxToken {db : List FailoverRow} {r : FailoverRow} (hr : r ∈ db) :
    r.fencingToken ≤ maxToken db := by
  have hfold : ∀ (l : List ℕ) (b : ℕ), b ≤ l.foldl max b ∧ ∀ n ∈ l, n ≤ l.foldl max b := by
    intro l
    induction l with
    | nil => exact fun b => ⟨Nat.le_refl b, nofun⟩
    | cons a l ih =>
      intro b
      obtain ⟨hb, hl⟩ := ih (max b a)
      refine ⟨(Nat.le_max_left b a).trans hb, fun n hn => ?_⟩
      rcases List.mem_cons.mp hn with rfl | hn
      · exact (Nat.le_max_right b n).trans hb
      · exact hl n hn
  exact (hfold _ 0).2 _ (List.mem_map_of_mem hr)

/-- A row after fences. -/
def FailoverRow.fencedBy (ids : List Uuid) (now : Timestamp) (r : FailoverRow) : FailoverRow :=
  if r.id ∈ ids then { r with role := .fenced, releasedAt := some now } else r

/-- **What fences make of the table.** -/
theorem applyAll_fences (ids : List Uuid) (now : Timestamp) (db : List FailoverRow) :
    failoverEngine.applyAll (ids.map (fun id => FailoverWrite.fence id now)) db
      = db.map (FailoverRow.fencedBy ids now) := by
  induction ids generalizing db with
  | nil =>
    have hnone : ∀ r : FailoverRow, r.fencedBy [] now = r := fun r => if_neg List.not_mem_nil
    rw [List.map_nil, Engine.applyAll_nil, funext hnone, List.map_id']
  | cons id ids ih =>
    have hone : failoverEngine.apply (.fence id now) db
        = db.map (FailoverRow.fencedBy [id] now) := by
      refine List.map_congr_left (fun r _ => ?_)
      simp [FailoverRow.fencedBy]
    rw [List.map_cons, Engine.applyAll_cons, ih, hone, List.map_map]
    refine List.map_congr_left (fun r _ => ?_)
    by_cases hid : r.id = id
    · simp [FailoverRow.fencedBy, hid]
    · simp [FailoverRow.fencedBy, hid]

/-- Fences leave no primary, if they are for all of them. -/
theorem activePrimaries_fenced {ids : List Uuid} {now : Timestamp} {db : List FailoverRow}
    (hall : ∀ r ∈ db, r.active = true → r.id ∈ ids) :
    activePrimaries (db.map (FailoverRow.fencedBy ids now)) = [] := by
  refine List.filter_eq_nil_iff.mpr (fun r hr => ?_)
  obtain ⟨r₀, hr₀, rfl⟩ := List.mem_map.mp hr
  by_cases hid : r₀.id ∈ ids
  · simp [FailoverRow.fencedBy, FailoverRow.active, hid]
  · rw [FailoverRow.fencedBy, if_neg hid]
    exact fun hactive => hid (hall r₀ hr₀ hactive)

theorem leasesKept_fenced (ids : List Uuid) (now : Timestamp) (db : List FailoverRow) :
    LeasesKept db (db.map (FailoverRow.fencedBy ids now)) := by
  intro r hr
  refine ⟨r.fencedBy ids now, List.mem_map_of_mem hr, ?_⟩
  unfold FailoverRow.fencedBy
  split <;> exact ⟨rfl, rfl, rfl⟩

/-! ## The invariant -/

open FailoverLeaseManager (leaseLock) in
/-- **What a manager relies on**: nobody touches its transaction, and while it holds
the advisory lock the others add standby rows only. -/
structure FailoverRely (pid : ℕ) (s s' : FailoverState) : Prop where
  apart : Engine.Untouched (fun (_ : FailoverKey) (_ : List FailoverRow) => ()) pid s s'
  locked : s.holder (.advisory leaseLock) = some pid → StandbyOnly s.committed s'.committed

theorem FailoverRely.refl (pid : ℕ) (s : FailoverState) : FailoverRely pid s s :=
  ⟨.refl pid s, fun _ => .refl _⟩

theorem FailoverRely.trans {pid : ℕ} {a b c : FailoverState} (h : FailoverRely pid a b)
    (h' : FailoverRely pid b c) : FailoverRely pid a c := by
  refine ⟨h.apart.trans h'.apart, fun hheld => (h.locked hheld).trans (h'.locked ?_)⟩
  exact (h.apart.held _).mpr hheld

/-- **One primary at most**, and the rows of every committed state are still
there. -/
structure OnePrimary (s : FailoverState) : Prop where
  single : (activePrimaries s.committed).length ≤ 1
  history : ∀ c ∈ s.log, LeasesKept c.after s.committed

/-- What a request of `pid` leads to. -/
structure FailoverStep (pid : ℕ) (s s' : FailoverState) : Prop where
  inv : OnePrimary s'
  others : ∀ q, q ≠ pid → FailoverRely q s s'

/-- A request that commits nothing. -/
theorem OnePrimary.still {pid : ℕ} {s s' : FailoverState} (h : OnePrimary s)
    (hmoves : failoverEngine.Moves pid s s') (hcommitted : s'.committed = s.committed)
    (hlog : s'.log = s.log) : FailoverStep pid s s' := by
  refine ⟨⟨hcommitted ▸ h.single, ?_⟩, fun q hq => ⟨hmoves.apart hq, fun _ => ?_⟩⟩
  · rw [hlog, hcommitted]
    exact h.history
  · exact hcommitted ▸ .refl _

open FailoverLeaseManager (leaseLock) in
/-- **A commit.** -/
theorem OnePrimary.publish {pid : ℕ} {s : FailoverState} (h : OnePrimary s)
    (hsingle : (activePrimaries (failoverEngine.view s pid)).length ≤ 1)
    (hkept : LeasesKept s.committed (failoverEngine.view s pid))
    (hothers : ∀ q, q ≠ pid → s.holder (.advisory leaseLock) = some q →
      StandbyOnly s.committed (failoverEngine.view s pid)) :
    FailoverStep pid s (failoverEngine.publish s pid) := by
  refine ⟨⟨hsingle, fun c hc => ?_⟩, fun q hq => ⟨Engine.Moves.apart hq .publish, hothers q hq⟩⟩
  rcases List.mem_append.mp hc with hc | hc
  · exact (h.history c hc).trans hkept
  · rw [List.mem_singleton.mp hc]
    exact .refl _

/-! ## The program of a transaction -/

/-- **A transaction that has written `ws`**, and not committed before. -/
structure AtWork (pid : ℕ) (ws : List FailoverWrite) (s : FailoverState) : Prop where
  marks : s.pending pid = some ws
  fresh : ∀ c ∈ s.log, c.pid ≠ pid

/-- A number's place in the log is its own. -/
theorem fresh_of_rely {pid : ℕ} {s s' : FailoverState} (h : ∀ c ∈ s.log, c.pid ≠ pid)
    (hr : FailoverRely pid s s') : ∀ c ∈ s'.log, c.pid ≠ pid :=
  fun c hc hpid => h c (hr.apart.mem_log hc hpid) hpid

theorem AtWork.rely {pid : ℕ} {ws : List FailoverWrite} {s s' : FailoverState}
    (h : AtWork pid ws s) (hr : FailoverRely pid s s') : AtWork pid ws s' :=
  ⟨hr.apart.pending.trans h.marks, fresh_of_rely h.fresh hr⟩

/-- A statement of an open transaction. -/
theorem AtWork.ran {pid : ℕ} {ws : List FailoverWrite} {s : FailoverState} (h : AtWork pid ws s)
    (a : FailoverAnswer) (op : FailoverOp) :
    AtWork pid (ws ++ (failoverEngine.exec a op (Engine.free s pid) (failoverEngine.view s pid)
        s.ext).2.1) (failoverEngine.ran pid a op s)
      ∧ (failoverEngine.ran pid a op s).committed = s.committed
      ∧ (failoverEngine.ran pid a op s).log = s.log
      ∧ (∀ k, s.holder k = some pid → (failoverEngine.ran pid a op s).holder k = some pid) := by
  unfold Engine.ran Engine.perform
  rw [h.marks]
  refine ⟨⟨Function.update_self .., h.fresh⟩, rfl, rfl, fun k hk => ?_⟩
  show (if k ∈ _ then some pid else s.holder k) = some pid
  split
  · rfl
  · exact hk

/-- Safety of a manager's program. -/
abbrev FailoverSafe {α : Type} (pid : ℕ) (p : FailoverProg α)
    (Q : Except FailoverException α → FailoverState → Prop) (s : FailoverState) : Prop :=
  p.Safe (Prog.Handled (failoverEngine.handler pid) (fun _ _ _ => True))
    (fun a b => OnePrimary b ∧ FailoverRely pid a b)
    (fun a b => OnePrimary b ∧ ∀ q, q ≠ pid → FailoverRely q a b) Q s

/-- What the body of a transaction has to end with, for a call to end with `Q`. -/
abbrev FailoverEnds {α : Type} (pid : ℕ) (Q : Except FailoverException α → FailoverState → Prop) :
    Except FailoverException α → FailoverState → Prop :=
  failoverEngine.Ends pid (fun _ _ _ => True) (fun a b => OnePrimary b ∧ FailoverRely pid a b)
    (fun a b => OnePrimary b ∧ ∀ q, q ≠ pid → FailoverRely q a b) Q

/-- **What a call that fails has done**: nothing, when it was refused. -/
def FailoverRefused (pid : ℕ) (e : FailoverException) (s : FailoverState) : Prop :=
  e ≠ .database → ∀ c ∈ s.log, c.pid ≠ pid

/-- What a call ends with, for what it answers. -/
def FailoverPost {α : Type} (pid : ℕ) (P : α → FailoverState → Prop) :
    Except FailoverException α → FailoverState → Prop
  | .ok a, s => P a s
  | .error e, s => FailoverRefused pid e s

/-- An exception rolls back. -/
theorem AtWork.raises {α : Type} {pid : ℕ} {ws : List FailoverWrite} {s : FailoverState}
    (h : AtWork pid ws s) (P : α → FailoverState → Prop) (e : FailoverException) :
    FailoverEnds pid (FailoverPost pid P) (.error e) s := by
  rintro s₁ ⟨h₁, hr₁⟩
  obtain ⟨h₂, hothers⟩ := h₁.still (.close : failoverEngine.Moves pid s₁ _) rfl rfl
  exact ⟨⟨h₂, hothers⟩, fun _ => (h.rely hr₁).fresh⟩

/-- A statement that raises has written nothing. -/
theorem exec_error_writes {a : FailoverAnswer} {op : FailoverOp} {fr : FailoverKey → Bool}
    {db : List FailoverRow} {x : Unit} {e : FailoverException}
    (h : (failoverEngine.exec a op fr db x).1 = .error e) :
    (failoverEngine.exec a op fr db x).2.1 = [] := by
  cases op with
  | nextToken =>
    simp only [failoverEngine] at h ⊢
    split at h
    · cases h
    · rename_i hnot
      rw [if_neg hnot]
  | insertLease id region role fencingToken expiresAt operator =>
    simp only [failoverEngine] at h ⊢
    split at h
    · cases h
    · rename_i hnot
      rw [if_neg hnot]
  | _ => cases h

/-- **A statement of an open transaction**, and what comes after it. -/
theorem AtWork.stmt {α : Type} {pid : ℕ} {ws : List FailoverWrite} {s : FailoverState}
    (h : AtWork pid ws s) {op : FailoverOp} {k : FailoverRes op → FailoverProg α}
    {ends : Except FailoverException α → FailoverState → Prop}
    (hends : ∀ e s₁, AtWork pid ws s₁ → ends (.error e) s₁)
    (hnext : ∀ s₁ a r, FailoverRely pid s s₁ → AtWork pid ws s₁ →
      failoverEngine.answer pid a op s₁ = .ok r →
      FailoverSafe pid (k r) ends (failoverEngine.ran pid a op s₁)) :
    FailoverSafe pid (Prog.bind (Engine.stmt op) k) ends s := by
  refine (Prog.safe_bind _ _ _ _).mpr (Engine.safe_stmt ?_ ?_)
  · rintro s₁ ⟨h₁, hr₁⟩ -
    exact ⟨⟨h₁, fun q _ => .refl q s₁⟩, hends _ s₁ (h.rely hr₁)⟩
  · rintro s₁ a ⟨h₁, hr₁⟩ - hfree
    have hw₁ := h.rely hr₁
    obtain ⟨hw₂, hcommitted, hlog, -⟩ := hw₁.ran a op
    obtain ⟨h₂, hothers⟩ := h₁.still (.perform a op hfree) hcommitted hlog
    refine ⟨⟨h₂, hothers⟩, ?_⟩
    cases hans : failoverEngine.answer pid a op s₁ with
    | ok r => exact hnext s₁ a r hr₁ hw₁ hans
    | error e =>
      rw [exec_error_writes hans, List.append_nil] at hw₂
      exact hends e _ hw₂

/-- A statement that writes nothing. -/
theorem AtWork.read {pid : ℕ} {ws : List FailoverWrite} {s : FailoverState}
    (h : AtWork pid ws s) {a : FailoverAnswer} {op : FailoverOp}
    (hread : ∀ fr db x, (failoverEngine.exec a op fr db x).2.1 = []) :
    AtWork pid ws (failoverEngine.ran pid a op s) := by
  have hw := (h.ran a op).1
  rwa [hread, List.append_nil] at hw

/-- **What an insertion does**, when it does not raise. -/
theorem insertLease_ok {pid : ℕ} {s : FailoverState} {a : FailoverAnswer} {id : Uuid}
    {region : String} {role : FailoverRole} {token : ℕ} {expiresAt : Timestamp}
    {operator : String} {row : FailoverRow}
    (h : failoverEngine.answer pid a (.insertLease id region role token expiresAt operator) s
      = .ok row) :
    row = ⟨id, region, role, token, a.now, expiresAt, none, operator⟩
      ∧ (failoverEngine.exec a (.insertLease id region role token expiresAt operator)
          (Engine.free s pid) (failoverEngine.view s pid) s.ext).2.1 = [.insert row] := by
  simp only [Engine.answer, failoverEngine] at h ⊢
  split at h
  · rename_i hok
    rw [if_pos hok]
    obtain rfl := Except.ok.inj h
    exact ⟨rfl, rfl⟩
  · cases h

/-- **A transaction** of a number that has not committed. -/
theorem failover_transaction {α : Type} {pid : ℕ} {body : FailoverProg α} {s : FailoverState}
    {P : α → FailoverState → Prop} (hfresh : ∀ c ∈ s.log, c.pid ≠ pid)
    (hbody : ∀ s₁, AtWork pid [] s₁ →
      FailoverSafe pid body (FailoverEnds pid (FailoverPost pid P)) s₁) :
    FailoverSafe pid (Engine.transaction body) (FailoverPost pid P) s := by
  refine Engine.safe_transaction ?_ ?_
  · rintro s₁ ⟨h₁, -⟩ -
    exact ⟨⟨h₁, fun q _ => .refl q s₁⟩, fun hne => absurd rfl hne⟩
  · rintro s₁ ⟨h₁, hr₁⟩
    obtain ⟨h₂, hothers⟩ := h₁.still (.begin : failoverEngine.Moves pid s₁ _) rfl rfl
    have hfresh₁ : ∀ c ∈ s₁.log, c.pid ≠ pid := fresh_of_rely hfresh hr₁
    exact ⟨⟨h₂, hothers⟩, hbody _ ⟨Function.update_self .., hfresh₁⟩⟩

open FailoverLeaseManager (leaseLock) in
/-- **A transaction that is ready to commit.** -/
theorem AtWork.commits {α : Type} {pid : ℕ} {ws : List FailoverWrite} {s : FailoverState}
    (h : AtWork pid ws s) {P : α → FailoverState → Prop} {a : α}
    (hready : ∀ s₁, OnePrimary s₁ → FailoverRely pid s s₁ → AtWork pid ws s₁ →
      (activePrimaries (failoverEngine.applyAll ws s₁.committed)).length ≤ 1
      ∧ LeasesKept s₁.committed (failoverEngine.applyAll ws s₁.committed)
      ∧ (∀ q, q ≠ pid → s₁.holder (.advisory leaseLock) = some q →
        StandbyOnly s₁.committed (failoverEngine.applyAll ws s₁.committed))
      ∧ P a (failoverEngine.publish s₁ pid)) :
    FailoverEnds pid (FailoverPost pid P) (.ok a) s := by
  rintro s₁ ⟨h₁, hr₁⟩
  have hw₁ := h.rely hr₁
  have hview : failoverEngine.view s₁ pid = failoverEngine.applyAll ws s₁.committed := by
    rw [Engine.view, hw₁.marks]
  obtain ⟨hsingle, hkept, hothers, hP⟩ := hready s₁ h₁ hr₁ hw₁
  rw [← hview] at hsingle hkept hothers
  obtain ⟨h₂, hguar⟩ := h₁.publish hsingle hkept hothers
  obtain ⟨h₃, hguar'⟩ := h₁.still (.close : failoverEngine.Moves pid s₁ _) rfl rfl
  exact ⟨⟨⟨h₂, hguar⟩, hP, fun _ hne => absurd rfl hne⟩,
    fun _ => ⟨⟨h₃, hguar'⟩, fun hne => absurd rfl hne⟩⟩

/-- The token that is drawn, when there is one left. -/
theorem nextToken_ok {pid : ℕ} {s : FailoverState} {a : FailoverAnswer} {token : ℕ}
    (h : failoverEngine.answer pid a .nextToken s = .ok token) :
    token = maxToken (failoverEngine.view s pid) + 1 := by
  have hans : failoverEngine.answer pid a .nextToken s
      = (if maxToken (failoverEngine.view s pid) + 1 ≤ maxBigint
        then (.ok (maxToken (failoverEngine.view s pid) + 1), [], s.ext)
        else (.error .database, [], s.ext)
          : Except FailoverException ℕ × List FailoverWrite × Unit).1 := rfl
  rw [hans] at h
  split at h
  · exact (Except.ok.inj h).symm
  · cases h

/-! ## The calls -/

/-- **`register_standby`** adds a standby row. -/
theorem safe_registerStandby (m : FailoverLeaseManager) (region operator : String) {pid : ℕ}
    {s : FailoverState} (hfresh : ∀ c ∈ s.log, c.pid ≠ pid) :
    FailoverSafe pid (m.registerStandby region operator)
      (FailoverPost pid (fun _ _ => True)) s := by
  refine failover_transaction hfresh (fun s₁ hw₁ => ?_)
  refine hw₁.stmt (fun e _ h => h.raises _ e) (fun s₂ a₂ now _ hw₂ _ => ?_)
  refine (hw₂.read (fun _ _ _ => rfl)).stmt (fun e _ h => h.raises _ e)
    (fun s₃ a₃ id _ hw₃ _ => ?_)
  refine (hw₃.read (fun _ _ _ => rfl)).stmt (fun e _ h => h.raises _ e)
    (fun s₄ a₄ row _ hw₄ hans₄ => ?_)
  obtain ⟨hrow, hwrites⟩ := insertLease_ok hans₄
  obtain ⟨hw₅, -⟩ := hw₄.ran a₄ (.insertLease id region .standby 0 (now + m.leaseTtl) operator)
  rw [hwrites] at hw₅
  refine hw₅.commits (fun s₆ h₆ _ _ => ?_)
  have hadds : StandbyOnly s₆.committed
      (failoverEngine.applyAll ([] ++ [FailoverWrite.insert row]) s₆.committed) := by
    refine ⟨[row], rfl, fun r hr => ?_⟩
    rw [List.mem_singleton.mp hr, hrow]
    exact ⟨rfl, rfl⟩
  exact ⟨hadds.activePrimaries_eq ▸ h₆.single, hadds.leasesKept, fun _ _ _ => hadds, trivial⟩

/-- `current_primary` changes nothing. -/
theorem safe_currentPrimary {pid : ℕ} {s : FailoverState} (hfresh : ∀ c ∈ s.log, c.pid ≠ pid) :
    FailoverSafe pid FailoverLeaseManager.currentPrimary
      (FailoverPost pid (fun _ _ => True)) s := by
  refine failover_transaction hfresh (fun s₁ hw₁ => ?_)
  refine hw₁.stmt (fun e _ h => h.raises _ e) (fun s₂ a₂ row _ hw₂ _ => ?_)
  refine (hw₂.read (fun _ _ _ => rfl)).commits (fun s₃ h₃ _ _ => ?_)
  exact ⟨h₃.single, .refl _, fun _ _ _ => .refl _, trivial⟩

open FailoverLeaseManager (leaseLock)

/-- **A promotion that holds the advisory lock**, has written `ws` and knows `C` of
the committed table. -/
structure RegionPromoting (pid : ℕ) (ws : List FailoverWrite) (C : List FailoverRow → Prop)
    (s : FailoverState) : Prop where
  work : AtWork pid ws s
  lock : s.holder (.advisory leaseLock) = some pid
  known : C s.committed

/-- **A statement of a promotion.** What it knows must not be disturbed by standby
rows. -/
theorem RegionPromoting.stmt {α : Type} {pid : ℕ} {ws : List FailoverWrite}
    {C : List FailoverRow → Prop} {s : FailoverState} (h : RegionPromoting pid ws C s)
    (hC : ∀ db db', StandbyOnly db db' → C db → C db')
    {op : FailoverOp} {k : FailoverRes op → FailoverProg α}
    {P : α → FailoverState → Prop}
    (hnext : ∀ s₁ a r, RegionPromoting pid ws C s₁ → failoverEngine.answer pid a op s₁ = .ok r →
      (∀ ws', (failoverEngine.exec a op (Engine.free s₁ pid) (failoverEngine.view s₁ pid)
        s₁.ext).2.1 = ws' → RegionPromoting pid (ws ++ ws') C (failoverEngine.ran pid a op s₁)) →
      FailoverSafe pid (k r) (FailoverEnds pid (FailoverPost pid P))
        (failoverEngine.ran pid a op s₁)) :
    FailoverSafe pid (Prog.bind (Engine.stmt op) k) (FailoverEnds pid (FailoverPost pid P)) s := by
  refine h.work.stmt (fun e _ h => h.raises _ e) (fun s₁ a r hr₁ hw₁ hans => ?_)
  have h₁ : RegionPromoting pid ws C s₁ :=
    ⟨hw₁, (hr₁.apart.held _).mpr h.lock, hC _ _ (hr₁.locked h.lock) h.known⟩
  refine hnext s₁ a r h₁ hans (fun ws' hws' => ?_)
  obtain ⟨hw₂, hcommitted, -, hholder⟩ := hw₁.ran a op
  exact ⟨hws' ▸ hw₂, hholder _ h₁.lock, hcommitted ▸ h₁.known⟩

/-- **A successful promotion**: it made the last commit so far, its row is the only
unreleased primary, and its token exceeds that of every row ever committed
before. -/
def Promoted (pid : ℕ) (region : String) (state : LeaseState) (s : FailoverState) : Prop :=
  ∃ earlier, ∃ c : TxCommit (List FailoverRow), ∃ row, s.log = earlier ++ [c] ∧ c.pid = pid
    ∧ c.after = s.committed
    ∧ activePrimaries s.committed = [row] ∧ row.region = region ∧ row.leaseState = state
    ∧ ∀ c' ∈ earlier, ∀ r ∈ c'.after, r.fencingToken < state.fencingToken

/-- The fences of a promotion cover every primary. -/
def Fences (ids : List Uuid) (db : List FailoverRow) : Prop :=
  ∀ r ∈ db, r.active = true → r.id ∈ ids

theorem Fences.standbyOnly {ids : List Uuid} {db db' : List FailoverRow}
    (hs : StandbyOnly db db') (h : Fences ids db) : Fences ids db' :=
  fun r hr hactive => h r (hs.active_mem hr hactive) hactive

/-- The commit of a promotion. -/
theorem RegionPromoting.commits {pid : ℕ} {ids : List Uuid} {now : Timestamp} {row : FailoverRow}
    {s : FailoverState}
    (h : RegionPromoting pid (ids.map (fun id => FailoverWrite.fence id now)
    ++ [FailoverWrite.insert row])
      (fun db => Fences ids db ∧ 0 < row.fencingToken
        ∧ ∀ r ∈ db, r.fencingToken < row.fencingToken) s)
    (hactive : row.active = true) :
    FailoverEnds pid (FailoverPost pid (Promoted pid row.region)) (.ok row.leaseState) s := by
  refine h.work.commits (fun s₁ h₁ hr₁ hw₁ => ?_)
  obtain ⟨hfences, hpos, hlt⟩ := h.known
  have hstandby := hr₁.locked h.lock
  have hlock₁ : s₁.holder (.advisory leaseLock) = some pid := (hr₁.apart.held _).mpr h.lock
  have hview : failoverEngine.applyAll (ids.map
      (fun id => FailoverWrite.fence id now) ++ [FailoverWrite.insert row])
      s₁.committed = s₁.committed.map (FailoverRow.fencedBy ids now) ++ [row] := by
    rw [Engine.applyAll_append, applyAll_fences]
    rfl
  have hprimaries : activePrimaries (s₁.committed.map (FailoverRow.fencedBy ids now) ++ [row])
      = [row] := by
    have hnone : activePrimaries (s₁.committed.map (FailoverRow.fencedBy ids now)) = [] :=
      activePrimaries_fenced (hfences.standbyOnly hstandby)
    unfold activePrimaries at hnone ⊢
    rw [List.filter_append, hnone, List.nil_append]
    exact List.filter_cons_of_pos hactive
  refine ⟨?_, ?_, fun q hq hheld => ?_, ?_⟩
  · rw [hview, hprimaries]
    exact Nat.le_refl 1
  · rw [hview]
    intro r hr
    obtain ⟨r', hr', hkept⟩ := leasesKept_fenced ids now s₁.committed r hr
    exact ⟨r', List.mem_append_left _ hr', hkept⟩
  · exact absurd (Option.some.inj (hheld.symm.trans hlock₁)) hq
  · have hcommitted : (failoverEngine.publish s₁ pid).committed
        = s₁.committed.map (FailoverRow.fencedBy ids now) ++ [row] := by
      rw [← hview]
      show failoverEngine.view s₁ pid = _
      rw [Engine.view, hw₁.marks]
    refine ⟨s₁.log, ⟨pid, s₁.committed, failoverEngine.view s₁ pid⟩, row, rfl, rfl, rfl, ?_, rfl,
      rfl, ?_⟩
    · rw [hcommitted, hprimaries]
    · intro c hc r hr
      obtain ⟨r', hr', -, -, htoken⟩ := h₁.history c hc r hr
      rw [← htoken]
      exact hstandby.token_lt hpos hlt r' hr'

/-- **`promote`**: fences first, then the token, then the new row. -/
theorem safe_promote (m : FailoverLeaseManager) (region operator : String) {pid : ℕ}
    {s : FailoverState} (hfresh : ∀ c ∈ s.log, c.pid ≠ pid) :
    FailoverSafe pid (m.promote region operator)
      (FailoverPost pid (Promoted pid region)) s := by
  refine failover_transaction hfresh (fun s₁ hw₁ => ?_)
  -- The advisory lock.
  refine hw₁.stmt (fun e _ h => h.raises _ e) (fun s₂ a₂ _ _ hw₂ _ => ?_)
  have hlocked : RegionPromoting pid [] (fun _ => True)
      (failoverEngine.ran pid a₂ (.advisoryLock leaseLock) s₂) := by
    refine ⟨hw₂.read (fun _ _ _ => rfl), ?_, trivial⟩
    unfold Engine.ran Engine.perform
    rw [hw₂.marks]
    show (if FailoverKey.advisory leaseLock ∈ [.advisory leaseLock] then some pid
      else s₂.holder (.advisory leaseLock)) = some pid
    exact if_pos List.mem_cons_self
  refine hlocked.stmt (fun _ _ _ => id) (fun s₃ a₃ primary h₃ _ hnext₃ => ?_)
  have h₃' := hnext₃ [] rfl
  refine (Prog.safe_bind _ _ _ _).mpr ?_
  have hrefuse : ∀ p : Option FailoverRow, FailoverLeaseManager.refusePrimary region p = .ret ()
      ∨ FailoverLeaseManager.refusePrimary region p
        = .raise (.failover "FAILOVER_ALREADY_PRIMARY") := by
    intro p
    cases p with
    | none => exact .inl rfl
    | some primary =>
      by_cases hregion : primary.region = region
      · exact .inr (if_pos hregion)
      · exact .inl (if_neg hregion)
  rcases hrefuse primary with hgo | hstop
  · rw [hgo]
    exact safe_fence h₃'
  · rw [hstop]
    exact h₃'.work.raises _ _
where
  /-- From the fences on. -/
  safe_fence {s : FailoverState} (h : RegionPromoting pid [] (fun _ => True) s) :
      FailoverSafe pid (Prog.bind (Engine.stmt .fencePrimary) (fun _ =>
        Prog.bind (Engine.stmt .nextToken) (fun token =>
        Prog.bind (Engine.stmt .clock) (fun now =>
        Prog.bind (Engine.stmt .randomUuid) (fun id =>
        Prog.bind (Engine.stmt (.insertLease id region .primary token (now + m.leaseTtl) operator))
          (fun row => .ret (FailoverRow.leaseState row)))))))
        (FailoverEnds pid (FailoverPost pid (Promoted pid region))) s := by
    refine h.stmt (fun _ _ _ => id) (fun s₁ a₁ _ h₁ _ hnext₁ => ?_)
    have hview : failoverEngine.view s₁ pid = s₁.committed := by
      rw [Engine.view, h₁.work.marks]
      rfl
    have hfenced : RegionPromoting pid
        (((activePrimaries s₁.committed).map FailoverRow.id).map
         (fun id => FailoverWrite.fence id a₁.now))
        (Fences ((activePrimaries s₁.committed).map FailoverRow.id))
        (failoverEngine.ran pid a₁ .fencePrimary s₁) := by
      obtain ⟨hwork, hlock, -⟩ := hnext₁ (((activePrimaries s₁.committed).map
        FailoverRow.id).map (fun id => FailoverWrite.fence id a₁.now)) (by
          rw [hview, List.map_map]
          rfl)
      refine ⟨hwork, hlock, fun r hr hactive => ?_⟩
      rw [(h₁.work.ran a₁ .fencePrimary).2.1] at hr
      exact List.mem_map_of_mem (List.mem_filter.mpr ⟨hr, hactive⟩)
    generalize (activePrimaries s₁.committed).map FailoverRow.id = ids at hfenced
    refine hfenced.stmt (fun _ _ => Fences.standbyOnly) (fun s₂ a₂ token h₂ hans₂ hnext₂ => ?_)
    have hfences₂ := hnext₂ [] (by
      simp only [failoverEngine]
      split <;> rfl)
    have htoken : 0 < token ∧ ∀ r ∈ s₂.committed, r.fencingToken < token := by
      have hview₂ : failoverEngine.view s₂ pid
          = s₂.committed.map (FailoverRow.fencedBy ids a₁.now) := by
        rw [Engine.view, h₂.work.marks]
        exact applyAll_fences ids a₁.now s₂.committed
      rw [nextToken_ok hans₂, hview₂]
      refine ⟨Nat.succ_pos _, fun r hr => Nat.lt_succ_of_le ?_⟩
      obtain ⟨r', hr', -, -, hsame⟩ := leasesKept_fenced ids a₁.now s₂.committed r hr
      rw [← hsame]
      exact token_le_maxToken hr'
    have hnumbered : RegionPromoting pid (ids.map (fun id => FailoverWrite.fence id a₁.now))
        (fun db => Fences ids db ∧ 0 < token ∧ ∀ r ∈ db, r.fencingToken < token)
        (failoverEngine.ran pid a₂ .nextToken s₂) := by
      rw [List.append_nil] at hfences₂
      refine ⟨hfences₂.work, hfences₂.lock, hfences₂.known, htoken.1, ?_⟩
      rw [(h₂.work.ran a₂ .nextToken).2.1]
      exact htoken.2
    have hC : ∀ db db', StandbyOnly db db' →
        Fences ids db ∧ 0 < token ∧ (∀ r ∈ db, r.fencingToken < token) →
        Fences ids db' ∧ 0 < token ∧ ∀ r ∈ db', r.fencingToken < token :=
      fun db db' hs hdb => ⟨hdb.1.standbyOnly hs, hdb.2.1, hs.token_lt hdb.2.1 hdb.2.2⟩
    refine hnumbered.stmt hC (fun s₃ a₃ now h₃ _ hnext₃ => ?_)
    have h₃' := hnext₃ [] rfl
    rw [List.append_nil] at h₃'
    refine h₃'.stmt hC (fun s₄ a₄ id h₄ _ hnext₄ => ?_)
    have h₄' := hnext₄ [] rfl
    rw [List.append_nil] at h₄'
    refine h₄'.stmt hC (fun s₅ a₅ row h₅ hans₅ hnext₅ => ?_)
    obtain ⟨hrow, hwrites⟩ := insertLease_ok hans₅
    have h₅' := hnext₅ _ hwrites
    subst hrow
    exact RegionPromoting.commits h₅' rfl

/-! ## Regions among one another -/

/-- What a call is answered with. -/
def CallPost (pid : ℕ) (call : FailoverCall) (r : Except FailoverException (Option LeaseState))
    (s : FailoverState) : Prop :=
  FailoverPost pid (fun out s => ∀ m region operator, call = .promote m region operator →
    ∃ state, out = some state ∧ Promoted pid region state s) r s

/-- **Each call keeps to its part.** -/
theorem safe_failoverCall (call : FailoverCall) {pid : ℕ} {s : FailoverState}
    (hfresh : ∀ c ∈ s.log, c.pid ≠ pid) :
    FailoverSafe pid call.body (CallPost pid call) s := by
  cases call with
  | registerStandby m region operator =>
    refine (Prog.safe_bind _ _ _ _).mpr
      ((safe_registerStandby m region operator hfresh).mono (fun r s' hr => ?_))
    cases r with
    | ok state => exact fun _ _ _ hcall => nomatch hcall
    | error e => exact hr
  | promote m region operator =>
    refine (Prog.safe_bind _ _ _ _).mpr
      ((safe_promote m region operator hfresh).mono (fun r s' hr => ?_))
    cases r with
    | ok state =>
      intro m' region' operator' hcall
      cases hcall
      exact ⟨state, rfl, hr⟩
    | error e => exact hr
  | currentPrimary =>
    refine (safe_currentPrimary hfresh).mono (fun r s' hr => ?_)
    cases r with
    | ok out => exact fun _ _ _ hcall => nomatch hcall
    | error e => exact hr

/-- **Regions keep to one primary.** -/
def failoverDiscipline : Pool.Discipline regions (fun s => s = Engine.quiet [] ())
    (fun _ _ => True) (fun _ _ _ _ => True) (fun _ _ => True) where
  inv := OnePrimary
  unused := fun pid s => ∀ c ∈ s.log, c.pid ≠ pid
  rely := FailoverRely
  post := CallPost
  rely_refl := FailoverRely.refl
  rely_trans := fun _ _ _ _ => FailoverRely.trans
  unused_rely := fun _ _ _ => fresh_of_rely
  start_ok := by
    rintro s rfl
    exact ⟨⟨Nat.zero_le 1, nofun⟩, fun _ => nofun⟩
  safe_body := fun _ _ call _ _ hfresh => safe_failoverCall call hfresh
  safe_crash := fun pid s h =>
    have hstep := h.still (.close : failoverEngine.Moves pid s _) rfl rfl
    ⟨hstep.inv, hstep.others⟩
  safe_env := fun e _ _ _ _ _ => e.elim

/-- A state of the regions. -/
abbrev RegionsState := Pool.State (TxOp FailoverOp) (TxRes FailoverRes) FailoverException
  FailoverState FailoverCall (Option LeaseState)

/-- **A single primary region.** In every reachable state at most one row is an
unreleased primary. A promotion that succeeds has left its region as that
primary, with a token above that of every row committed before; and one that was
refused has committed nothing. -/
theorem single_primary {w : RegionsState} (h : failoverMachine.Reach Machine.anyStep w) :
    (activePrimaries w.shared.committed).length ≤ 1
      ∧ (∀ c ∈ w.shared.log, LeasesKept c.after w.shared.committed)
      ∧ (∀ x ∈ w.replies, ∀ m region operator out, x.call = .promote m region operator →
          x.outcome = .ok out → ∃ state, out = some state ∧ Promoted x.pid region state x.state)
      ∧ (∀ x ∈ w.replies, x.outcome = .error (.failover "FAILOVER_ALREADY_PRIMARY") →
          ∀ c ∈ w.shared.log, c.pid ≠ x.pid) := by
  have hreach : (regions.machine (fun s => s = Engine.quiet [] ())).Reach
      (Pool.stepOk (fun _ _ => True) (fun _ _ _ _ => True) (fun _ _ => True)) w := by
    refine Machine.Reach.mono (M := failoverMachine) (fun w l _ => ?_) h
    cases l with
    | act pid c => exact fun _ _ _ _ => trivial
    | _ => trivial
  have hgood := Pool.reach_safe failoverDiscipline hreach
  refine ⟨hgood.inv.single, hgood.inv.history, fun x hx m region operator out hcall hout => ?_,
    fun x hx hout => ?_⟩
  · have hpost : CallPost x.pid x.call x.outcome x.state := hgood.replies x hx
    rw [hout, hcall] at hpost
    exact hpost m region operator rfl
  · have hpost : CallPost x.pid x.call x.outcome x.state := hgood.replies x hx
    rw [hout] at hpost
    exact fresh_of_rely (hpost nofun) (failoverDiscipline.reply_rely hreach x hx)

/-- A request that is served. -/
def leaseAt (pid : ℕ) (now : Timestamp) (uuid : Uuid) :
    Pool.Label (Choice FailoverAnswer) FailoverCall Empty :=
  .act pid (.serve ⟨now, uuid⟩)

/-- A standby region, a first primary, a promotion that is refused and a
failover. -/
def failoverRun : List (Pool.Label (Choice FailoverAnswer) FailoverCall Empty) :=
  [Pool.Label.spawn (FailoverCall.registerStandby ⟨60⟩ "cn-north" "a")] ++ List.replicate 5
    (leaseAt 0 1 10)
    ++ [Pool.Label.spawn (FailoverCall.promote ⟨60⟩ "cn-east" "a")] ++ List.replicate 9
      (leaseAt 1 2 11)
    ++ [Pool.Label.spawn (FailoverCall.promote ⟨60⟩ "cn-east" "a")] ++ List.replicate 4
      (leaseAt 2 3 12)
    ++ [Pool.Label.spawn (FailoverCall.promote ⟨60⟩ "cn-north" "b")] ++ List.replicate 9
      (leaseAt 3 4 13)

/-- The failover draws the second token. -/
theorem single_primary_failover : ∃ w, failoverMachine.Reach Machine.anyStep w
    ∧ (activePrimaries w.shared.committed).map FailoverRow.region = ["cn-north"]
    ∧ (∃ x ∈ w.replies, x.outcome = .error (.failover "FAILOVER_ALREADY_PRIMARY")
      ∧ ∀ c ∈ w.shared.log, c.pid ≠ x.pid)
    ∧ ∃ x ∈ w.replies, ∃ state, x.outcome = .ok (some state) ∧ state.fencingToken = 2
      ∧ Promoted x.pid "cn-north" state x.state := by
  have hrun : (failoverMachine.run (Pool.idle (Engine.quiet [] ())) failoverRun).map (fun w =>
      decide ((activePrimaries w.shared.committed).map FailoverRow.region = ["cn-north"])
        && w.replies.any (fun x => x.outcome = .error (.failover "FAILOVER_ALREADY_PRIMARY"))
        && w.replies.any (fun x => x.call = .promote ⟨60⟩ "cn-north" "b"
          && x.outcome.toOption.join.any (fun state => state.fencingToken = 2))) = some true := by
    decide +kernel
  have hinit : failoverMachine.init (Pool.idle (Engine.quiet [] ())) := ⟨_, rfl, rfl⟩
  obtain ⟨w, hw, htest⟩ := Machine.reach_of_run hinit hrun
  simp only [Bool.and_eq_true, decide_eq_true_eq, List.any_eq_true] at htest
  obtain ⟨⟨hregion, x, hx, hrefused⟩, y, hy, hpromoted⟩ := htest
  obtain ⟨-, -, hok, herr⟩ := single_primary hw
  obtain ⟨hcall, htoken⟩ := hpromoted
  obtain ⟨state, hsome, htoken⟩ := (Option.any_eq_true ..).mp htoken
  have hout : y.outcome = .ok (some state) := by
    cases hy' : y.outcome with
    | error e =>
      rw [hy'] at hsome
      cases hsome
    | ok o =>
      rw [hy'] at hsome
      exact congrArg Except.ok hsome
  refine ⟨w, hw, hregion, ⟨x, hx, hrefused, herr x hx hrefused⟩, y, hy, state, hout, ?_⟩
  obtain ⟨state', hstate, hdone⟩ := hok y hy ⟨60⟩ "cn-north" "b" (some state) hcall hout
  obtain rfl := Option.some.inj hstate
  exact ⟨of_decide_eq_true htoken, hdone⟩
