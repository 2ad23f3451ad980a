import AgentPlatform.ExecutionStore
import AgentPlatform.JsonCanonical
import AgentPlatform.RowLocks

/-!
# The Idempotency-Key of a command

Every mutating endpoint of the Admin API runs in one transaction: `replay_for`
takes an advisory lock on the key and looks for the response of an earlier
request, the handler does its work, and `remember` stores the response under the
key. An exception anywhere rolls everything back.

The work of a handler is any program over statements of its own: the engine of
these statements is a parameter, and so is the program. `commandEngine` adds the
statements of the ledger of keys to it. Whatever the handlers do, the commits
that change the database enter one record each, with distinct keys
(`LedgerInv`), so the effects under a key are committed at most once.

A request arrives with a note of the record its key had at that moment. No program
reads it; it is there to say which requests come later than the first.
-/

/-! ## The ledger of keys -/

/-- A row of `platform.idempotency_record`. -/
structure IdempotencyRecord where
  actor : String
  key : String
  operation : String
  requestHash : String
  response : Json

/-- The primary key. -/
def IdempotencyRecord.id (r : IdempotencyRecord) : String × String := (r.actor, r.key)

/-- The text the advisory lock of a key is taken on. -/
def lockText (actor key : String) : String := actor ++ ":" ++ key

/-- `request_hash`. -/
def requestHash (sha256 : String → String) (payload : JsonDoc) : String := sha256 payload.1.dumps

/-- The tables of the handlers and the ledger of keys. -/
structure CommandDb (D : Type) where
  own : D
  records : List IdempotencyRecord

/-- The record of a key. -/
def CommandDb.record {D : Type} (db : CommandDb D) (actor key : String) :
    Option IdempotencyRecord :=
  db.records.find? (fun r => r.actor = actor ∧ r.key = key)

/-- The statements of a command: those of its handler, and those of the ledger. -/
inductive CommandOp (Own : Type) where
  | own (op : Own)
  | lockKey (actor key : String)
  | selectRecord (actor key : String)
  | insertRecord (record : IdempotencyRecord)

/-- What a statement answers. -/
abbrev CommandRes {Own : Type} (OwnRes : Own → Type) : CommandOp Own → Type
  | .own op => OwnRes op
  | .selectRecord .. => Option IdempotencyRecord
  | _ => Unit

/-- The row writes. -/
inductive CommandWrite (W : Type) where
  | own (w : W)
  | record (record : IdempotencyRecord)

/-- The rows that can be locked, and the advisory locks. -/
inductive CommandRow (K : Type) where
  | own (k : K)
  | advisory (text : String)
  | record (actor key : String)
  deriving DecidableEq

section Model

variable {Own : Type} {OwnRes : Own → Type} {A D W K X : Type}

/-- The effect of a write. -/
def CommandWrite.apply (N : Engine Own OwnRes PyException A D W K X) :
    CommandWrite W → CommandDb D → CommandDb D
  | .own w, db => { db with own := N.apply w db.own }
  | .record r, db => { db with records := db.records ++ [r] }

/-- **The statements of the commands**, over those of their handlers. The primary
key of the ledger refuses a second record. -/
def commandEngine (N : Engine Own OwnRes PyException A D W K X) :
    Engine (CommandOp Own) (CommandRes OwnRes) PyException A (CommandDb D) (CommandWrite W)
      (CommandRow K) X where
  apply := CommandWrite.apply N
  key
    | .own w => .own (N.key w)
    | .record r => .record r.actor r.key
  locks op free db x :=
    match op with
    | .own op => (N.locks op (fun k => free (.own k)) db.own x).map .own
    | .lockKey actor key => [.advisory (lockText actor key)]
    | .selectRecord .. => []
    | .insertRecord r => [.record r.actor r.key]
  exec a op free db x :=
    match op with
    | .own op =>
      let out := N.exec a op (fun k => free (.own k)) db.own x
      (out.1, out.2.1.map .own, out.2.2)
    | .lockKey .. => (.ok (), [], x)
    | .selectRecord actor key => (.ok (db.record actor key), [], x)
    | .insertRecord r =>
      if (db.record r.actor r.key).isSome then (.error N.dbError, [], x)
      else (.ok (), [.record r], x)
  dbError := N.dbError

/-- A program over the statements of the commands. -/
abbrev CommandProg (OwnRes : Own → Type) (α : Type) :=
  Prog (TxOp (CommandOp Own)) (TxRes (CommandRes OwnRes)) PyException α

/-- The work of a handler, issued in the transaction of the command. -/
def issue {α : Type} : Prog Own OwnRes PyException α → CommandProg OwnRes α
  | .ret a => .ret a
  | .raise e => .raise e
  | .call op k => .call (.run (.own op)) (fun r => issue (k r))

/-- **A request**: who sends it under which key, and the handler's part, the
response included. -/
structure CommandRequest (Own : Type) (OwnRes : Own → Type) where
  actor : String
  key : String
  operation : String
  payload : JsonDoc
  work : Prog Own OwnRes PyException Json

/-- The key of a request. -/
def CommandRequest.id (c : CommandRequest Own OwnRes) : String × String := (c.actor, c.key)

/-- `IdempotencyConflictError`. -/
def idempotencyConflict : PyException := .other "IdempotencyConflictError"

/-- A statement of a command. -/
abbrev commandStmt (op : CommandOp Own) : CommandProg OwnRes (CommandRes OwnRes op) :=
  Engine.stmt op

/-- **`replay_for`.** -/
def replayFor (sha256 : String → String) (c : CommandRequest Own OwnRes) :
    CommandProg OwnRes (Option Json) := do
  let _ ← commandStmt (.lockKey c.actor c.key)
  let row ← commandStmt (.selectRecord c.actor c.key)
  match row with
  | none => return none
  | some row =>
    if row.operation ≠ c.operation ∨ row.requestHash ≠ requestHash sha256 c.payload then
      throw idempotencyConflict
    else return some row.response

/-- The record of a request and its response. -/
def CommandRequest.record (sha256 : String → String) (c : CommandRequest Own OwnRes)
    (response : Json) : IdempotencyRecord where
  actor := c.actor
  key := c.key
  operation := c.operation
  requestHash := requestHash sha256 c.payload
  response := response

/-- **`remember`.** -/
def remember (sha256 : String → String) (c : CommandRequest Own OwnRes) (response : Json) :
    CommandProg OwnRes Unit :=
  commandStmt (.insertRecord (c.record sha256 response))

/-- **A handler that calls `replay_for` and `remember` in one transaction.** It
returns its response, and whether it is a replay. -/
def runCommand (sha256 : String → String) (c : CommandRequest Own OwnRes) :
    CommandProg OwnRes (Json × Bool) :=
  Engine.transaction (do
    let replayed ← replayFor sha256 c
    match replayed with
    | some response => return (response, true)
    | none => do
      let result ← issue c.work
      let _ ← remember sha256 c result
      return (result, false))

/-- The database under the transactions of the commands. -/
abbrev CommandState (D W K X : Type) := TxState (CommandDb D) (CommandWrite W) (CommandRow K) X

/-- A request, with the record its key has when it arrives. -/
abbrev Arrival (Own : Type) (OwnRes : Own → Type) :=
  CommandRequest Own OwnRes × Option IdempotencyRecord

/-- **Any number of requests at once.** -/
def commandPool [DecidableEq K] (N : Engine Own OwnRes PyException A D W K X)
    (sha256 : String → String) :=
  (commandEngine N).pool (fun call : Arrival Own OwnRes => runCommand sha256 call.1)

/-- The database to begin with: each key has one record at most. -/
def commandStart (old : List IdempotencyRecord) (s : CommandState D W K X) : Prop :=
  (old.map IdempotencyRecord.id).Nodup ∧ ∃ d x, s = Engine.quiet ⟨d, old⟩ x

/-- The note of an arriving request is right. -/
def arrives (s : CommandState D W K X) (call : Arrival Own OwnRes) : Prop :=
  call.2 = s.committed.record call.1.actor call.1.key

/-- Requests in `healthy` are not failed by the database, and requests in `acked`
learn that their commit has taken effect. -/
def commandAllow (healthy acked : ℕ → Prop) (pid : ℕ) (c : Choice A) (_ : TxOp (CommandOp Own))
    (_ : CommandState D W K X) : Prop :=
  (healthy pid → ∃ a, c = .serve a) ∧ (acked pid → c ≠ .lost)

end Model

/-! ## What the ledger keeps -/

section Ledger

variable {Own : Type} {OwnRes : Own → Type} {A D W K X : Type} [DecidableEq K]
  {N : Engine Own OwnRes PyException A D W K X}

/-- The records among the writes of a transaction. -/
def recordsIn (ws : List (CommandWrite W)) : List IdempotencyRecord :=
  ws.filterMap (fun w => match w with
    | .record r => some r
    | .own _ => none)

omit [DecidableEq K] in
theorem records_applyAll (ws : List (CommandWrite W)) (db : CommandDb D) :
    ((commandEngine N).applyAll ws db).records = db.records ++ recordsIn ws := by
  induction ws generalizing db with
  | nil => simp [recordsIn]
  | cons w ws ih =>
    rw [Engine.applyAll_cons, ih]
    cases w <;> simp [commandEngine, CommandWrite.apply, recordsIn]

theorem recordsIn_append (ws ws' : List (CommandWrite W)) :
    recordsIn (ws ++ ws') = recordsIn ws ++ recordsIn ws' := by
  unfold recordsIn
  rw [List.filterMap_append]

theorem recordsIn_own (ws : List W) : recordsIn (ws.map CommandWrite.own) = [] := by
  unfold recordsIn
  rw [List.filterMap_map]
  exact List.filterMap_eq_nil_iff.mpr (fun _ _ => rfl)

/-- A key has no record when none is found. -/
theorem record_none {db : CommandDb D} {actor key : String} (h : db.record actor key = none) :
    (actor, key) ∉ db.records.map IdempotencyRecord.id := by
  intro hmem
  obtain ⟨r, hr, hid⟩ := List.mem_map.mp hmem
  obtain ⟨ha, hk⟩ := Prod.mk.inj hid
  exact (List.find?_eq_none.mp h) r hr (decide_eq_true ⟨ha, hk⟩)

theorem record_some {db : CommandDb D} {actor key : String} {r : IdempotencyRecord}
    (h : db.record actor key = some r) : r ∈ db.records ∧ r.id = (actor, key) := by
  have hid : r.actor = actor ∧ r.key = key := by simpa using List.find?_some h
  exact ⟨List.mem_of_find?_eq_some h, Prod.ext hid.1 hid.2⟩

/-- The records a commit has entered. -/
def TxCommit.entered (c : TxCommit (CommandDb D)) : List IdempotencyRecord :=
  c.after.records.drop c.before.records.length

/-- A commit enters one record. -/
def TxCommit.Enters (c : TxCommit (CommandDb D)) (r : IdempotencyRecord) : Prop :=
  c.after.records = c.before.records ++ [r]

/-- **The invariant of the ledger**: each key has one record at most, and a commit
has changed nothing or has entered a record; there are no other records than the
old ones and those. -/
structure LedgerInv (old : List IdempotencyRecord) (s : CommandState D W K X) : Prop where
  keyed : (s.committed.records.map IdempotencyRecord.id).Nodup
  history : ∀ c ∈ s.log, c.after = c.before ∨ ∃ r, c.Enters r
  account : s.committed.records = old ++ s.log.flatMap TxCommit.entered

/-- **What a request relies on**: its transaction is its own, no record is lost,
and no record is entered under a lock it holds. -/
structure LedgerKept (pid : ℕ) (s s' : CommandState D W K X) : Prop where
  apart : Engine.Untouched (fun (_ : CommandRow K) (_ : CommandDb D) => ()) pid s s'
  kept : ∀ r ∈ s.committed.records, r ∈ s'.committed.records
  held : ∀ r ∈ s'.committed.records,
    s.holder (.advisory (lockText r.actor r.key)) = some pid → r ∈ s.committed.records

omit [DecidableEq K] in
theorem LedgerKept.refl (pid : ℕ) (s : CommandState D W K X) : LedgerKept pid s s :=
  ⟨.refl pid s, fun _ hr => hr, fun _ hr _ => hr⟩

omit [DecidableEq K] in
theorem LedgerKept.trans {pid : ℕ} {a b c : CommandState D W K X} (h : LedgerKept pid a b)
    (h' : LedgerKept pid b c) : LedgerKept pid a c :=
  ⟨h.apart.trans h'.apart, fun r hr => h'.kept r (h.kept r hr),
    fun r hr hl => h.held r (h'.held r hr ((h.apart.held _).mpr hl)) hl⟩

/-- Nothing the request has committed has changed the database. -/
def NoEffect (pid : ℕ) (s : CommandState D W K X) : Prop :=
  ∀ c ∈ s.log, c.pid = pid → c.after = c.before

omit [DecidableEq K] in
theorem NoEffect.kept {pid : ℕ} {s s' : CommandState D W K X} (h : NoEffect pid s)
    (hr : LedgerKept pid s s') : NoEffect pid s' :=
  fun c hc hpid => h c (hr.apart.mem_log hc hpid) hpid

section Steps

variable {old : List IdempotencyRecord} {pid : ℕ} {s s' : CommandState D W K X}

/-- **One request of a command**: it leaves the committed database alone, or
enters a record under its lock. -/
theorem LedgerInv.step (hs : LedgerInv old s) (hm : (commandEngine N).Moves pid s s')
    (hdb : s'.committed = s.committed
      ∨ ∃ r, s'.committed.records = s.committed.records ++ [r]
        ∧ r.id ∉ s.committed.records.map IdempotencyRecord.id
        ∧ s.holder (.advisory (lockText r.actor r.key)) = some pid) :
    LedgerInv old s' ∧ ∀ q, q ≠ pid → LedgerKept q s s' := by
  have hnodup : (s'.committed.records.map IdempotencyRecord.id).Nodup := by
    rcases hdb with hdb | ⟨r, hr, hfresh, -⟩
    · rw [hdb]
      exact hs.keyed
    · rw [hr, List.map_append, List.nodup_append]
      refine ⟨hs.keyed, by simp, fun a ha b hb hab => ?_⟩
      rw [List.map_singleton, List.mem_singleton] at hb
      exact hfresh (hb ▸ hab ▸ ha)
  have hnew : ∀ c : TxCommit (CommandDb D), c = ⟨pid, s.committed, s'.committed⟩ →
      (c.after = c.before ∨ ∃ r, c.Enters r)
        ∧ s'.committed.records = s.committed.records ++ c.entered := by
    rintro c rfl
    rcases hdb with hdb | ⟨r, hr, -, -⟩
    · exact ⟨.inl hdb, by simp [TxCommit.entered, hdb]⟩
    · exact ⟨.inr ⟨r, hr⟩, by simp [TxCommit.entered, hr]⟩
  refine ⟨⟨hnodup, ?_, ?_⟩, fun q hq => ⟨hm.apart hq, ?_, ?_⟩⟩
  · intro c hc
    rcases hm.log with ⟨hlog, -⟩ | hlog
    · rw [hlog] at hc
      exact hs.history c hc
    · rw [hlog] at hc
      rcases List.mem_append.mp hc with hc | hc
      · exact hs.history c hc
      · exact (hnew c (List.mem_singleton.mp hc)).1
  · rcases hm.log with ⟨hlog, hc⟩ | hlog
    · rw [hlog, hc]
      exact hs.account
    · rw [hlog, List.flatMap_append, ← List.append_assoc, ← hs.account]
      simpa using (hnew _ rfl).2
  · intro r hr
    rcases hdb with hdb | ⟨r', hr', -, -⟩
    · rw [hdb]
      exact hr
    · rw [hr']
      exact List.mem_append_left _ hr
  · intro r hr hl
    rcases hdb with hdb | ⟨r', hr', -, hlock⟩
    · rwa [hdb] at hr
    · rw [hr'] at hr
      rcases List.mem_append.mp hr with hr | hr
      · exact hr
      · rw [List.mem_singleton.mp hr, hlock] at hl
        exact absurd (Option.some.inj hl).symm hq

end Steps

/-! ## The program of a request -/

/-- A record is that of a request with this operation and payload. -/
def MatchesRequest (sha256 : String → String) (c : CommandRequest Own OwnRes)
    (r : IdempotencyRecord) : Prop :=
  r.operation = c.operation ∧ r.requestHash = requestHash sha256 c.payload

/-- A program of `pid` keeps the ledger and meets a postcondition. -/
abbrev KeepsLedger (N : Engine Own OwnRes PyException A D W K X) (old : List IdempotencyRecord)
    (healthy acked : ℕ → Prop) (pid : ℕ) {α : Type} (p : CommandProg OwnRes α)
    (Q : Except PyException α → CommandState D W K X → Prop) (s : CommandState D W K X) : Prop :=
  p.Safe (Prog.Handled ((commandEngine N).handler pid) (commandAllow healthy acked pid))
    (fun a b => LedgerInv old b ∧ LedgerKept pid a b)
    (fun a b => LedgerInv old b ∧ ∀ q, q ≠ pid → LedgerKept q a b) Q s

/-- **A request at work**: what it has entered so far, under the lock of its key,
which is free. -/
structure Working (c : CommandRequest Own OwnRes) (pid : ℕ) (recs : List IdempotencyRecord)
    (s : CommandState D W K X) : Prop where
  pending : ∃ ws, s.pending pid = some ws ∧ recordsIn ws = recs
  lock : s.holder (.advisory (lockText c.actor c.key)) = some pid
  vacant : c.id ∉ s.committed.records.map IdempotencyRecord.id
  quiet : NoEffect pid s

section Rules

variable {old : List IdempotencyRecord} {healthy acked : ℕ → Prop} {pid : ℕ}
  {s : CommandState D W K X} {ws : List (CommandWrite W)} {c : CommandRequest Own OwnRes}
  {recs : List IdempotencyRecord} {sha256 : String → String}

omit [DecidableEq K] in
theorem Working.kept {s' : CommandState D W K X} (h : Working c pid recs s)
    (hr : LedgerKept pid s s') : Working c pid recs s' := by
  obtain ⟨ws, hws, hrecs⟩ := h.pending
  refine ⟨⟨ws, hr.apart.pending.trans hws, hrecs⟩, (hr.apart.held _).mpr h.lock, fun hmem => ?_,
    h.quiet.kept hr⟩
  obtain ⟨r, hr', hid⟩ := List.mem_map.mp hmem
  obtain ⟨ha, hk⟩ := Prod.mk.inj hid
  refine h.vacant (List.mem_map.mpr ⟨r, hr.held r hr' ?_, hid⟩)
  rw [ha, hk]
  exact h.lock

/-- **Inversion of a statement** of a request. -/
theorem ledger_run {op : CommandOp Own} {r : Except PyException (CommandRes OwnRes op)}
    {s' : CommandState D W K X} (hin : s.pending pid = some ws) (hs : LedgerInv old s)
    (h : Prog.Handled ((commandEngine N).handler pid) (commandAllow healthy acked pid) (.run op)
      s r s') :
    (LedgerInv old s' ∧ ∀ q, q ≠ pid → LedgerKept q s s')
      ∧ ((r = .error N.dbError ∧ s' = s ∧ ¬ healthy pid)
        ∨ ∃ a, r = ((commandEngine N).exec a op (Engine.free s pid)
            ((commandEngine N).applyAll ws s.committed) s.ext).1
          ∧ s'.pending pid = some (ws ++ ((commandEngine N).exec a op (Engine.free s pid)
            ((commandEngine N).applyAll ws s.committed) s.ext).2.1)
          ∧ s'.committed = s.committed ∧ s'.log = s.log
          ∧ ∀ k, (s.holder k = some pid ∨ k ∈ (commandEngine N).locks op (Engine.free s pid)
            ((commandEngine N).applyAll ws s.committed) s.ext) → s'.holder k = some pid) := by
  obtain ⟨choice, hallow, hh⟩ := h
  have hview : (commandEngine N).view s pid = (commandEngine N).applyAll ws s.committed := by
    simp [Engine.view, hin]
  rcases (commandEngine N).run_cases hh with ⟨rfl, rfl, rfl⟩ | ⟨a, rfl, hfree, rfl, rfl⟩
  · refine ⟨⟨hs, fun q _ => .refl q _⟩, .inl ⟨rfl, rfl, fun hhealthy => ?_⟩⟩
    obtain ⟨a, ha⟩ := hallow.1 hhealthy
    cases ha
  · have hsome : (s.pending pid).isSome := by rw [hin]; rfl
    have hc : ((commandEngine N).ran pid a op s).committed = s.committed :=
      Engine.committed_ran hsome
    refine ⟨hs.step (.perform a op hfree) (.inl hc), .inr ⟨a, by rw [hview], ?_, hc, ?_, ?_⟩⟩
    · rw [← hview]
      exact Engine.pending_ran hin
    · simp [Engine.perform, hin]
    · intro k hk
      rw [← hview] at hk
      refine (Engine.holder_ran hsome k).trans ?_
      rcases hk with hk | hk
      · rw [hk]
        split <;> rfl
      · exact if_pos hk

/-- **The work of the handler** stays under the lock. -/
theorem ledger_issue {α : Type} (p : Prog Own OwnRes PyException α) (hs : Working c pid [] s) :
    KeepsLedger N old healthy acked pid (issue p)
      (Prog.outcome (fun _ => Working c pid []) (fun _ => NoEffect pid)) s := by
  induction p generalizing s with
  | ret a => exact hs
  | raise e => exact hs.quiet
  | call op k ih =>
    rintro s₁ ⟨hinv, hr⟩ r s₂ hrun
    have hs₁ := hs.kept hr
    obtain ⟨ws, hws, hrecs⟩ := hs₁.pending
    obtain ⟨hguar, hcase⟩ := ledger_run hws hinv hrun
    refine ⟨hguar, ih r ?_⟩
    rcases hcase with ⟨-, rfl, -⟩ | ⟨a, -, hpending, hc, hlog, hholder⟩
    · exact hs₁
    · refine ⟨⟨_, hpending, ?_⟩, hholder _ (.inl hs₁.lock), ?_, ?_⟩
      · rw [recordsIn_append, hrecs]
        exact recordsIn_own _
      · rw [hc]
        exact hs₁.vacant
      · intro e he
        rw [hlog] at he
        exact hs₁.quiet e he

/-- **`remember`** enters the record of the request. -/
theorem ledger_remember (response : Json) (hs : Working c pid [] s) :
    KeepsLedger N old healthy acked pid (remember sha256 c response)
      (Prog.outcome (fun _ => Working c pid [c.record sha256 response]) (fun _ => NoEffect pid))
        s := by
  refine (Prog.safe_perform _ _ _).mpr ?_
  rintro s₁ ⟨hinv, hr⟩ r s₂ hrun
  have hs₁ := hs.kept hr
  obtain ⟨ws, hws, hrecs⟩ := hs₁.pending
  obtain ⟨hguar, hcase⟩ := ledger_run hws hinv hrun
  refine ⟨hguar, ?_⟩
  have hquiet : s₂.log = s₁.log → NoEffect pid s₂ := by
    intro hlog e he
    rw [hlog] at he
    exact hs₁.quiet e he
  rcases hcase with ⟨rfl, rfl, -⟩ | ⟨a, hres, hpending, hc, hlog, hholder⟩
  · exact hs₁.quiet
  · cases r with
    | error e => exact hquiet hlog
    | ok u =>
      refine ⟨⟨_, hpending, ?_⟩, hholder _ (.inl hs₁.lock), ?_, hquiet hlog⟩
      · rw [recordsIn_append, hrecs]
        simp only [commandEngine] at hres ⊢
        split
        · rename_i htaken
          rw [if_pos htaken] at hres
          cases hres
        · rfl
      · rw [hc]
        exact hs₁.vacant

/-- **A replay**: the record of the key has the operation and the payload of the
request. -/
def Replays (sha256 : String → String) (c : CommandRequest Own OwnRes)
    (known : Option IdempotencyRecord) (pid : ℕ) (response : Json) (s : CommandState D W K X) :
    Prop :=
  s.pending pid = some [] ∧ NoEffect pid s
    ∧ ∃ r ∈ s.committed.records, r.id = c.id ∧ MatchesRequest sha256 c r ∧ r.response = response
      ∧ ∀ R, known = some R → R = r

/-- **A failure**: nothing has changed, and where a record was known, it has
another operation or payload. -/
def Fails (sha256 : String → String) (dbError : PyException) (healthy : ℕ → Prop)
    (c : CommandRequest Own OwnRes) (known : Option IdempotencyRecord) (pid : ℕ) (e : PyException)
    (s : CommandState D W K X) : Prop :=
  NoEffect pid s ∧ ∀ R, known = some R →
    (e = idempotencyConflict ∧ ¬ MatchesRequest sha256 c R) ∨ (e = dbError ∧ ¬ healthy pid)

variable {known : Option IdempotencyRecord}

omit [DecidableEq K] in
theorem Replays.kept {s' : CommandState D W K X} {response : Json}
    (h : Replays sha256 c known pid response s) (hr : LedgerKept pid s s') :
    Replays sha256 c known pid response s' := by
  obtain ⟨hpending, hquiet, r, hmem, hrest⟩ := h
  exact ⟨hr.apart.pending.trans hpending, hquiet.kept hr, r, hr.kept r hmem, hrest⟩

/-- **`replay_for`** finds the record of the key, or leaves the request at work. -/
theorem ledger_replayFor (hin : s.pending pid = some []) (hquiet : NoEffect pid s)
    (hknown : ∀ R, known = some R → R.id = c.id ∧ R ∈ s.committed.records) :
    KeepsLedger N old healthy acked pid (replayFor sha256 c)
      (Prog.outcome (fun replayed s' => (∀ response, replayed = some response →
            Replays sha256 c known pid response s')
          ∧ (replayed = none → Working c pid [] s' ∧ known = none))
        (fun e => Fails sha256 N.dbError healthy c known pid e)) s := by
  refine Prog.Safe.bind (Q := Prog.outcome (fun _ s' => s'.pending pid = some [] ∧ NoEffect pid s'
      ∧ (∀ R, known = some R → R.id = c.id ∧ R ∈ s'.committed.records)
      ∧ s'.holder (.advisory (lockText c.actor c.key)) = some pid)
    (fun e => Fails sha256 N.dbError healthy c known pid e)) ?_ (fun _ s₁ hs₁ => ?_)
    (fun _ _ h => h)
  · -- The lock of the key.
    refine (Prog.safe_perform _ _ _).mpr ?_
    rintro s₁ ⟨hinv, hr⟩ r s₂ hrun
    have hin₁ : s₁.pending pid = some [] := hr.apart.pending.trans hin
    obtain ⟨hguar, hcase⟩ := ledger_run hin₁ hinv hrun
    refine ⟨hguar, ?_⟩
    rcases hcase with ⟨rfl, rfl, hsick⟩ | ⟨a, rfl, hpending, hc, hlog, hholder⟩
    · exact ⟨hquiet.kept hr, fun _ _ => .inr ⟨rfl, hsick⟩⟩
    · refine ⟨hpending, ?_, fun R hR => ⟨(hknown R hR).1, ?_⟩, hholder _ (.inr List.mem_cons_self)⟩
      · intro e he
        rw [hlog] at he
        exact hquiet.kept hr e he
      · rw [hc]
        exact hr.kept R (hknown R hR).2
  · -- The record of the key, as committed: the transaction has written nothing.
    obtain ⟨hin₁, hquiet₁, hknown₁, hlock₁⟩ := hs₁
    refine (Prog.safe_bind _ _ _ _).mpr ((Prog.safe_perform _ _ _).mpr ?_)
    rintro s₂ ⟨hinv, hr⟩ r s₃ hrun
    have hin₂ : s₂.pending pid = some [] := hr.apart.pending.trans hin₁
    obtain ⟨hguar, hcase⟩ := ledger_run hin₂ hinv hrun
    refine ⟨hguar, ?_⟩
    rcases hcase with ⟨rfl, rfl, hsick⟩ | ⟨a, rfl, hpending, hc, hlog, hholder⟩
    · exact ⟨hquiet₁.kept hr, fun _ _ => .inr ⟨rfl, hsick⟩⟩
    · have hquiet₃ : NoEffect pid s₃ := by
        intro e he
        rw [hlog] at he
        exact hquiet₁.kept hr e he
      have hsame : ∀ R r, known = some R → s₂.committed.record c.actor c.key = some r → R = r := by
        intro R r hR hfind
        obtain ⟨hmem, hid⟩ := record_some hfind
        exact List.inj_on_of_nodup_map hinv.keyed (hr.kept R (hknown₁ R hR).2) hmem
          ((hknown₁ R hR).1.trans hid.symm)
      have hanswer : ((commandEngine N).exec a (.selectRecord c.actor c.key) (Engine.free s₂ pid)
          ((commandEngine N).applyAll [] s₂.committed) s₂.ext).1
          = .ok (s₂.committed.record c.actor c.key) := rfl
      rw [hanswer]
      cases hfind : s₂.committed.record c.actor c.key with
      | none =>
        have hvacant : c.id ∉ s₂.committed.records.map IdempotencyRecord.id := record_none hfind
        refine ⟨fun _ h => absurd h (by simp), fun _ => ⟨⟨⟨_, hpending, rfl⟩,
          hholder _ (.inl ((hr.apart.held _).mpr hlock₁)), ?_, hquiet₃⟩, ?_⟩⟩
        · rw [hc]
          exact hvacant
        · cases hk : known with
          | none => rfl
          | some R =>
            refine absurd (List.mem_map.mpr ⟨R, hr.kept R (hknown₁ R hk).2, ?_⟩) hvacant
            exact (hknown₁ R hk).1
      | some row =>
        obtain ⟨hmem, hid⟩ := record_some hfind
        show KeepsLedger N old healthy acked pid (if _ then _ else _) _ _
        by_cases hdiff : row.operation ≠ c.operation
          ∨ row.requestHash ≠ requestHash sha256 c.payload
        · rw [if_pos hdiff]
          refine ⟨hquiet₃, fun R hR => .inl ⟨rfl, fun hmatch => ?_⟩⟩
          rw [hsame R row hR hfind] at hmatch
          rcases hdiff with hop | hhash
          · exact hop hmatch.1
          · exact hhash hmatch.2
        · rw [if_neg hdiff]
          obtain ⟨hop, hhash⟩ := not_or.mp hdiff
          refine ⟨fun response hresponse => ?_, fun h => absurd h (by simp)⟩
          obtain rfl := Option.some.inj hresponse
          refine ⟨hpending, hquiet₃, row, ?_, hid, ⟨not_not.mp hop, not_not.mp hhash⟩, rfl,
            fun R hR => hsame R row hR hfind⟩
          rw [hc]
          exact hmem

/-- **How the transaction of a request ends.** -/
def Concludes (sha256 : String → String) (dbError : PyException) (healthy : ℕ → Prop)
    (c : CommandRequest Own OwnRes) (known : Option IdempotencyRecord) (pid : ℕ) :
    Except PyException (Json × Bool) → CommandState D W K X → Prop
  | .ok (response, true), s => Replays sha256 c known pid response s
  | .ok (response, false), s => Working c pid [c.record sha256 response] s ∧ known = none
  | .error e, s => Fails sha256 dbError healthy c known pid e s

/-- What a request has entered in the ledger has its key. -/
def EntersOwn (c : CommandRequest Own OwnRes) (pid : ℕ) (s : CommandState D W K X) : Prop :=
  ∀ e ∈ s.log, e.pid = pid → ∀ r, e.Enters r → r.id = c.id

omit [DecidableEq K] in
theorem NoEffect.entersOwn (h : NoEffect pid s) : EntersOwn c pid s := by
  intro e he hpid r hr
  have hlen := congrArg List.length hr
  rw [h e he hpid, List.length_append, List.length_singleton] at hlen
  omega

/-- **What a request answers.** -/
def Answers (sha256 : String → String) (dbError : PyException) (healthy acked : ℕ → Prop)
    (c : CommandRequest Own OwnRes) (known : Option IdempotencyRecord) (pid : ℕ) :
    Except PyException (Json × Bool) → CommandState D W K X → Prop
  | .ok (response, replayed), s => EntersOwn c pid s
      ∧ (∃ r ∈ s.committed.records, r.id = c.id ∧ MatchesRequest sha256 c r ∧ r.response = response
        ∧ ∀ R, known = some R → R = r)
      ∧ (replayed = true → NoEffect pid s) ∧ (known ≠ none → replayed = true)
  | .error e, s => EntersOwn c pid s ∧ (acked pid → NoEffect pid s)
      ∧ (known ≠ none → Fails sha256 dbError healthy c known pid e s)

omit [DecidableEq K] in
theorem answers_fails {e : PyException} (h : Fails sha256 N.dbError healthy c known pid e s) :
    Answers sha256 N.dbError healthy acked c known pid (.error e) s :=
  ⟨h.1.entersOwn, fun _ => h.1, fun _ => h⟩

/-- Committing a transaction that has written nothing. -/
theorem LedgerInv.publish_nothing (hs : LedgerInv old s) (hin : s.pending pid = some [])
    (hquiet : NoEffect pid s) :
    (LedgerInv old ((commandEngine N).publish s pid)
      ∧ ∀ q, q ≠ pid → LedgerKept q s ((commandEngine N).publish s pid))
    ∧ ((commandEngine N).publish s pid).committed = s.committed
    ∧ NoEffect pid ((commandEngine N).publish s pid) := by
  have hview : (commandEngine N).view s pid = s.committed := by simp [Engine.view, hin]
  refine ⟨hs.step .publish (.inl hview), hview, fun e he hpid => ?_⟩
  rcases List.mem_append.mp he with he | he
  · exact hquiet e he hpid
  · rw [List.mem_singleton.mp he]
    exact hview

/-- **Committing the work of a request.** -/
theorem LedgerInv.publish_work {response : Json} (hs : LedgerInv old s)
    (hwork : Working c pid [c.record sha256 response] s) :
    (LedgerInv old ((commandEngine N).publish s pid)
      ∧ ∀ q, q ≠ pid → LedgerKept q s ((commandEngine N).publish s pid))
    ∧ c.record sha256 response ∈ ((commandEngine N).publish s pid).committed.records
    ∧ EntersOwn c pid ((commandEngine N).publish s pid) := by
  obtain ⟨ws, hws, hrecs⟩ := hwork.pending
  have hview : ((commandEngine N).view s pid).records
      = s.committed.records ++ [c.record sha256 response] := by
    simp only [Engine.view, hws]
    rw [records_applyAll, hrecs]
  refine ⟨hs.step .publish (.inr ⟨c.record sha256 response, hview, hwork.vacant, hwork.lock⟩),
    ?_, ?_⟩
  · show _ ∈ ((commandEngine N).view s pid).records
    rw [hview]
    exact List.mem_append_right _ List.mem_cons_self
  · intro e he hpid r hr
    rcases List.mem_append.mp he with he | he
    · exact hwork.quiet.entersOwn e he hpid r hr
    · rw [List.mem_singleton.mp he] at hr
      have heq : s.committed.records ++ [c.record sha256 response] = s.committed.records ++ [r] :=
        hview.symm.trans hr
      rw [← List.singleton_inj.mp (List.append_cancel_left heq)]
      rfl

/-- The end of a request that changes nothing. -/
theorem LedgerInv.close_request (N : Engine Own OwnRes PyException A D W K X)
    (hs : LedgerInv old s) (hquiet : NoEffect pid s) :
    (LedgerInv old (Engine.close s pid)
      ∧ ∀ q, q ≠ pid → LedgerKept q s (Engine.close s pid))
    ∧ NoEffect pid (Engine.close s pid) := by
  refine ⟨LedgerInv.step (N := N) hs .close (.inl rfl), fun e he hpid => ?_⟩
  exact hquiet e he hpid

/-- **The body of the transaction.** -/
theorem ledger_body (hin : s.pending pid = some []) (hquiet : NoEffect pid s)
    (hknown : ∀ R, known = some R → R.id = c.id ∧ R ∈ s.committed.records) :
    KeepsLedger N old healthy acked pid (do
      let replayed ← replayFor sha256 c
      match replayed with
      | some response => return (response, true)
      | none => do
        let result ← issue c.work
        let _ ← remember sha256 c result
        return (result, false)) (Concludes sha256 N.dbError healthy c known pid) s := by
  refine Prog.Safe.bind (ledger_replayFor hin hquiet hknown) (fun replayed s₁ hs₁ => ?_)
    (fun _ _ h => h)
  cases replayed with
  | some response => exact hs₁.1 response rfl
  | none =>
    obtain ⟨hwork, rfl⟩ := hs₁.2 rfl
    have hfails : ∀ e (s' : CommandState D W K X), NoEffect pid s' →
        Fails sha256 N.dbError healthy c none pid e s' :=
      fun e s' hq => ⟨hq, fun R hR => absurd hR (by simp)⟩
    refine Prog.Safe.bind (ledger_issue c.work hwork) (fun result s₂ hs₂ => ?_)
      (fun e s' h => hfails e s' h)
    exact Prog.Safe.bind (ledger_remember result hs₂) (fun _ s₃ hs₃ => ⟨hs₃, rfl⟩)
      (fun e s' h => hfails e s' h)

/-- **A request keeps the ledger.** -/
theorem ledger_command (hquiet : NoEffect pid s)
    (hknown : ∀ R, known = some R → R.id = c.id ∧ R ∈ s.committed.records) :
    KeepsLedger N old healthy acked pid (runCommand sha256 c)
      (Answers sha256 N.dbError healthy acked c known pid) s := by
  have hsick : ∀ {choice : Choice A} {op : TxOp (CommandOp Own)} {s₁ : CommandState D W K X},
      commandAllow healthy acked pid choice op s₁ → (∀ a, choice ≠ .serve a) → ¬ healthy pid := by
    intro choice op s₁ hallow hne hhealthy
    obtain ⟨a, ha⟩ := hallow.1 hhealthy
    exact hne a ha
  have hfails : ∀ s' : CommandState D W K X, NoEffect pid s' → ¬ healthy pid →
      Answers sha256 N.dbError healthy acked c known pid (.error N.dbError) s' :=
    fun s' hq hn => answers_fails ⟨hq, fun _ _ => .inr ⟨rfl, hn⟩⟩
  refine Engine.safe_transaction ?_ ?_
  · rintro s₁ ⟨hinv, hr⟩ hallow
    exact ⟨⟨hinv, fun q _ => .refl q s₁⟩, hfails s₁ (hquiet.kept hr) (hsick hallow (by simp))⟩
  · rintro s₁ ⟨hinv, hr⟩
    have hopen : LedgerInv old (Engine.opened s₁ pid)
        ∧ ∀ q, q ≠ pid → LedgerKept q s₁ (Engine.opened s₁ pid) :=
      LedgerInv.step (N := N) hinv .begin (.inl rfl)
    have hquiet₁ : NoEffect pid (Engine.opened s₁ pid) := fun e he => hquiet.kept hr e he
    refine ⟨hopen, ?_⟩
    refine (ledger_body (s := Engine.opened s₁ pid) (Function.update_self pid _ _) hquiet₁
      (fun R hR => ⟨(hknown R hR).1, hr.kept R (hknown R hR).2⟩)).mono (fun r s₂ hs₂ => ?_)
    cases r with
    | error e =>
      rintro s₃ ⟨hinv₃, hr₃⟩
      obtain ⟨hguar, hq⟩ := LedgerInv.close_request N hinv₃ (hs₂.1.kept hr₃)
      exact ⟨hguar, answers_fails ⟨hq, hs₂.2⟩⟩
    | ok out =>
      obtain ⟨response, replayed⟩ := out
      rintro s₃ ⟨hinv₃, hr₃⟩
      cases replayed with
      | true =>
        have hs₃ : Replays sha256 c known pid response s₃ := Replays.kept hs₂ hr₃
        obtain ⟨hpending, hq, r, hmem, hid, hmatch, hresp, hknown'⟩ := hs₃
        obtain ⟨hguar, hc, hq'⟩ := hinv₃.publish_nothing (N := N) hpending hq
        refine ⟨⟨hguar, ⟨hq'.entersOwn, ⟨r, ?_, hid, hmatch, hresp, hknown'⟩, fun _ => hq',
          fun _ => rfl⟩, fun hallow => hfails _ hq' (hsick hallow (by simp))⟩, fun hallow => ?_⟩
        · rw [hc]
          exact hmem
        · obtain ⟨hguar', hq''⟩ := LedgerInv.close_request N hinv₃ hq
          exact ⟨hguar', hfails _ hq'' (hsick hallow (by simp))⟩
      | false =>
        obtain ⟨hwork, hnone⟩ := hs₂
        have hwork₃ := hwork.kept hr₃
        obtain ⟨hguar, hmem, hown⟩ := hinv₃.publish_work (N := N) hwork₃
        refine ⟨⟨hguar, ⟨hown, ⟨_, hmem, rfl, ⟨rfl, rfl⟩, rfl, fun R hR => ?_⟩,
          fun h => absurd h (by simp), fun h => absurd hnone h⟩, fun hallow => ?_⟩,
            fun hallow => ?_⟩
        · rw [hnone] at hR
          cases hR
        · exact ⟨hown, fun hacked => absurd rfl (hallow.2 hacked), fun h => absurd hnone h⟩
        · obtain ⟨hguar', hq''⟩ := LedgerInv.close_request N hinv₃ hwork₃.quiet
          exact ⟨hguar', hfails _ hq'' (hsick hallow (by simp))⟩

end Rules

/-! ## Every run -/

/-- The discipline of the requests. -/
def commandDiscipline (N : Engine Own OwnRes PyException A D W K X) (sha256 : String → String)
    (old : List IdempotencyRecord) (healthy acked : ℕ → Prop) :
    Pool.Discipline (commandPool N sha256) (commandStart old) arrives (commandAllow healthy acked)
      (fun _ _ => True) where
  inv := LedgerInv old
  unused pid s := ∀ e ∈ s.log, e.pid ≠ pid
  rely := LedgerKept
  post pid call := Answers sha256 N.dbError healthy acked call.1 call.2 pid
  rely_refl := LedgerKept.refl
  rely_trans _ _ _ _ := LedgerKept.trans
  unused_rely pid s s' h hr e he hpid := h e (hr.apart.mem_log he hpid) hpid
  start_ok s hs := by
    obtain ⟨hnodup, d, x, rfl⟩ := hs
    refine ⟨⟨hnodup, fun c hc => absurd hc List.not_mem_nil, ?_⟩,
      fun pid e he => absurd he List.not_mem_nil⟩
    exact (List.append_nil old).symm
  safe_body pid s call harrives _ hunused := by
    refine ledger_command (fun e he hpid => absurd hpid (hunused e he)) (fun R hR => ?_)
    obtain ⟨hmem, hid⟩ := record_some (harrives.symm.trans hR)
    exact ⟨hid, hmem⟩
  safe_crash pid s hs := LedgerInv.step (N := N) hs .close (.inl rfl)
  safe_env e := e.elim

/-- A state of the requests. -/
abbrev CommandsState (OwnRes : Own → Type) (D W K X : Type) :=
  Pool.State (TxOp (CommandOp Own)) (TxRes (CommandRes OwnRes)) PyException (CommandState D W K X)
    (Arrival Own OwnRes) (Json × Bool)

omit [DecidableEq K] in
/-- The key a commit has entered a record for is entered once. -/
theorem LedgerInv.once {old : List IdempotencyRecord} {s : CommandState D W K X}
    (hs : LedgerInv old s) :
    s.log.Pairwise (fun e e' => ∀ r r', e.Enters r → e'.Enters r' → r.id ≠ r'.id) := by
  have hnodup : (s.log.flatMap (fun e => e.entered.map IdempotencyRecord.id)).Nodup := by
    have hkeyed := hs.keyed
    rw [hs.account, List.map_append, List.map_flatMap] at hkeyed
    exact (List.nodup_append.mp hkeyed).2.1
  have hentered : ∀ (e : TxCommit (CommandDb D)) r, e.Enters r → e.entered = [r] := by
    intro e r hr
    unfold TxCommit.entered
    rw [hr, List.drop_left]
  refine (List.nodup_flatMap.mp hnodup).2.imp (fun {e e'} hdisjoint r r' hr hr' heq => ?_)
  refine hdisjoint (a := r.id) ?_ ?_
  · simp [hentered e r hr]
  · simp [hentered e' r' hr', heq]

/-- **What holds of every run of the requests.** -/
structure CommandsIdempotent (N : Engine Own OwnRes PyException A D W K X)
    (sha256 : String → String) (healthy acked : ℕ → Prop) (w : CommandsState OwnRes D W K X) :
    Prop where
  /-- A commit changes nothing, or enters the record of a key. -/
  effects : ∀ e ∈ w.shared.log, e.after = e.before ∨ ∃ r, e.Enters r
  /-- No two commits enter a record of the same key. -/
  once : w.shared.log.Pairwise (fun e e' => ∀ r r', e.Enters r → e'.Enters r' → r.id ≠ r'.id)
  /-- A request enters a record of its own key only. -/
  own : ∀ x ∈ w.replies, ∀ e ∈ w.shared.log, e.pid = x.pid → ∀ r, e.Enters r → r.id = x.call.1.id
  /-- A request that succeeds returns the response stored under its key, and a
  replay is without effect. -/
  answered : ∀ x ∈ w.replies, ∀ response replayed, x.outcome = .ok (response, replayed) →
    (∃ r ∈ w.shared.committed.records, r.id = x.call.1.id ∧ MatchesRequest sha256 x.call.1 r
      ∧ r.response = response) ∧ (replayed = true → NoEffect x.pid w.shared)
  /-- A later request with the operation and payload of the first returns the
  first response, without effect. -/
  repeated : ∀ x ∈ w.replies, ∀ (first : CommandRequest Own OwnRes) (r : IdempotencyRecord),
    x.call.2 = some r → r = first.record sha256 r.response → first.operation = x.call.1.operation →
    first.payload.1.canon = x.call.1.payload.1.canon →
    NoEffect x.pid w.shared ∧ (x.outcome = .ok (r.response, true)
      ∨ (x.outcome = .error N.dbError ∧ ¬ healthy x.pid))
  /-- A later request with another operation or payload is refused, without
  effect. -/
  refused : ∀ x ∈ w.replies, ∀ (first : CommandRequest Own OwnRes) (r : IdempotencyRecord),
    x.call.2 = some r → r = first.record sha256 r.response →
    ¬ (first.operation = x.call.1.operation
      ∧ first.payload.1.canon = x.call.1.payload.1.canon) →
    NoEffect x.pid w.shared ∧ (x.outcome = .error idempotencyConflict
      ∨ (x.outcome = .error N.dbError ∧ ¬ healthy x.pid))
  /-- A request that fails leaves the key free. -/
  freed : ∀ x ∈ w.replies, ∀ e, x.outcome = .error e → acked x.pid → NoEffect x.pid w.shared

/-- The canonical text of a payload is that of its sorted document. -/
theorem dumps_eq_iff (p q : JsonDoc) : p.1.dumps = q.1.dumps ↔ p.1.canon = q.1.canon := by
  constructor
  · exact Json.canon_eq_of_dumps p.2 q.2
  · intro h
    refine String.toList_inj.mp ?_
    rw [Json.toList_dumps, Json.toList_dumps, h]

/-- The record of a request matches the requests with its operation and payload. -/
theorem matches_record_iff {sha256 : String → String} (hsha : Function.Injective sha256)
    {first c : CommandRequest Own OwnRes} {r : IdempotencyRecord}
    (hr : r = first.record sha256 r.response) :
    MatchesRequest sha256 c r ↔ first.operation = c.operation
      ∧ first.payload.1.canon = c.payload.1.canon := by
  unfold MatchesRequest
  rw [hr]
  refine and_congr Iff.rfl ?_
  show sha256 first.payload.1.dumps = sha256 c.payload.1.dumps ↔ _
  rw [hsha.eq_iff]
  exact dumps_eq_iff first.payload c.payload

end Ledger

/-! ## Three requests under one key -/

/-- A table of applications, by their slug. -/
def slugEngine : Engine String (fun _ => Unit) PyException Unit
    (List String) String String Unit where
  apply slug db := db ++ [slug]
  key slug := slug
  locks slug _ _ _ := [slug]
  exec _ slug _ db x := if slug ∈ db then (.error .sqlAlchemy, [], x) else (.ok (), [slug], x)
  dbError := .sqlAlchemy

/-- `create_application`, for a slug. -/
def createSlug (slug : String) : CommandRequest String (fun _ => Unit) where
  actor := "ops"
  key := "key-1"
  operation := "agent_application.create"
  payload := ⟨.obj [("slug", .str slug)], trivial, trivial⟩
  work := do
    let _ ← Prog.perform slug
    return .obj [("slug", .str slug)]

/-- Three requests arrive before the first has committed. -/
def slugRun : List (Pool.Label (Choice Unit) (Arrival String (fun _ => Unit)) Empty) :=
  [Pool.Label.spawn (createSlug "billing", none), Pool.Label.spawn (createSlug "billing", none),
    Pool.Label.spawn (createSlug "support", none)]
    ++ List.replicate 6 (Pool.Label.act 0 (Choice.serve ())) ++ List.replicate 4
      (Pool.Label.act 1 (Choice.serve ()))
    ++ List.replicate 4 (Pool.Label.act 2 (Choice.serve ()))

/-- A test of the steps in which requests arrive under a free key and are served. -/
def slugTest (w : CommandsState (fun _ : String => Unit) (List String) String String Unit) :
    Pool.Label (Choice Unit) (Arrival String (fun _ => Unit)) Empty → Bool
  | .spawn (c, none) => (w.shared.committed.record c.actor c.key).isNone
  | .act _ (.serve _) => true
  | _ => false

theorem slugTest_ok (w : CommandsState (fun _ : String => Unit) (List String) String String Unit)
    (l : Pool.Label (Choice Unit) (Arrival String (fun _ => Unit)) Empty)
    (h : slugTest w l = true) :
    Pool.stepOk arrives (commandAllow (fun _ => True) (fun _ => True)) (fun _ _ => True) w l := by
  cases l with
  | spawn call =>
    obtain ⟨c, known⟩ := call
    cases known with
    | some r => cases h
    | none => exact (Option.isNone_iff_eq_none.mp h).symm
  | act pid choice =>
    cases choice with
    | serve a => exact fun _ _ _ _ => ⟨fun _ => ⟨a, rfl⟩, fun _ hlost => by cases hlost⟩
    | _ => cases h
  | _ => trivial
