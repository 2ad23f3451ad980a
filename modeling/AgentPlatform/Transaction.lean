import AgentPlatform.Interleaving

/-!
# Transactions with row locks

A database serves programs that open a transaction, run statements in it and
commit or roll back. At the isolation level the services run at, a statement
sees what is committed when it runs together with the transaction's own
writes, and a row that a transaction has locked or written stays out of reach
of every other transaction until it ends.

An `Engine` says what the statements of one schema are: which rows a
statement locks, what it answers and which row writes it makes, all computed
from the *view* it runs on. The writes of an open transaction are kept aside
and reach the committed database at the commit, so a rollback – or the loss
of the process – simply drops them. Next to the database stands an external
state, for effects no transaction can undo: a message sent, a clock read, an
identifier drawn.

Connections fail. A statement may raise the driver's error instead of
running, and a commit may raise it *with or without* having taken effect:
`Choice.lost` is the commit whose acknowledgement never arrived.

`Engine.Lawful` states the two facts locking rests on – a write touches the
row it is keyed by, and a statement locks what it writes – and from them
`Engine.untouched_of_other` derives what a program may rely on: while it holds
a row, nobody else changes it.
-/

/-- What the environment chooses for a request: to serve it with some data,
to fail it, or – for a commit – to perform it and lose the acknowledgement. -/
inductive Choice (A : Type) where
  | serve (a : A)
  | fault
  | lost

/-- The requests of a program in a database session. -/
inductive TxOp (Op : Type) where
  | begin
  | commit
  | rollback
  | run (op : Op)

/-- What a request answers. -/
def TxRes {Op : Type} (Res : Op → Type) : TxOp Op → Type
  | .run op => Res op
  | _ => Unit

/-- **The statements of a schema**, over a database `Db` changed by row
writes `W`, with lockable rows `K` and an external state `X`. -/
structure Engine (Op : Type) (Res : Op → Type) (E A Db W K X : Type) where
  /-- The effect of one row write. -/
  apply : W → Db → Db
  /-- The row a write touches. -/
  key : W → K
  /-- The rows a statement locks; the argument says which rows its
  transaction could lock without waiting. -/
  locks : (op : Op) → (K → Bool) → Db → X → List K
  /-- The answer of a statement, the row writes it makes and what it does
  outside the database. -/
  exec : A → (op : Op) → (K → Bool) → Db → X → Except E (Res op) × List W × X
  /-- What a lost connection raises. -/
  dbError : E

/-- A change of the committed database: who made it, and what it changed. -/
structure TxCommit (Db : Type) where
  pid : ℕ
  before : Db
  after : Db

/-- **The state of a database under transactions**: what is committed, the
writes of each open transaction, who holds each row, the external state, and
the history of the committed database. -/
structure TxState (Db W K X : Type) where
  committed : Db
  pending : ℕ → Option (List W)
  holder : K → Option ℕ
  ext : X
  log : List (TxCommit Db)

namespace Engine

variable {Op : Type} {Res : Op → Type} {E A Db W K X : Type} [DecidableEq K]
variable (N : Engine Op Res E A Db W K X)

/-- Apply row writes in order. -/
def applyAll (ws : List W) (db : Db) : Db :=
  ws.foldl (fun d w => N.apply w d) db

omit [DecidableEq K] in
@[simp] theorem applyAll_nil (db : Db) : N.applyAll [] db = db := rfl

omit [DecidableEq K] in
@[simp] theorem applyAll_cons (w : W) (ws : List W) (db : Db) :
    N.applyAll (w :: ws) db = N.applyAll ws (N.apply w db) := rfl

omit [DecidableEq K] in
@[simp] theorem applyAll_append (ws ws' : List W) (db : Db) :
    N.applyAll (ws ++ ws') db = N.applyAll ws' (N.applyAll ws db) := by
  simp [applyAll]

/-- **What a transaction sees**: the committed database under its own
writes. Outside a transaction it is the committed database. -/
def view (s : TxState Db W K X) (pid : ℕ) : Db :=
  match s.pending pid with
  | none => s.committed
  | some ws => N.applyAll ws s.committed

/-- The rows `pid` can lock without waiting. -/
def free (s : TxState Db W K X) (pid : ℕ) (k : K) : Bool :=
  match s.holder k with
  | none => true
  | some q => q == pid

/-- End the transaction of `pid`, releasing its rows. -/
def close (s : TxState Db W K X) (pid : ℕ) : TxState Db W K X :=
  { s with
    pending := Function.update s.pending pid none
    holder := fun k => if s.holder k = some pid then none else s.holder k }

/-- Replace the committed database on behalf of `pid`. -/
def install (s : TxState Db W K X) (pid : ℕ) (db : Db) : TxState Db W K X :=
  { s with committed := db, log := s.log ++ [⟨pid, s.committed, db⟩] }

/-- Make the writes of `pid` visible and end its transaction. -/
def publish (s : TxState Db W K X) (pid : ℕ) : TxState Db W K X :=
  close (install s pid (N.view s pid)) pid

/-- Run a statement whose locks are free. Outside a transaction it commits by
itself. -/
def perform (s : TxState Db W K X) (pid : ℕ) (ls : List K) (ws : List W)
    (x : X) : TxState Db W K X :=
  match s.pending pid with
  | none => { install s pid (N.applyAll ws s.committed) with ext := x }
  | some old =>
    { s with
      pending := Function.update s.pending pid (some (old ++ ws))
      holder := fun k => if k ∈ ls then some pid else s.holder k
      ext := x }

/-- **The handler of database requests.** A statement waits – it is not
enabled – while another transaction holds a row it locks; a fault needs no
row and can strike at any time. -/
def handler (pid : ℕ) (c : Choice A) : (op : TxOp Op) → TxState Db W K X →
    Option (Except E (TxRes Res op) × TxState Db W K X)
  | .begin, s =>
    match c with
    | .serve _ => some (.ok (), { s with pending := Function.update s.pending pid (some []) })
    | .fault => some (.error N.dbError, s)
    | .lost => none
  | .commit, s =>
    match c with
    | .serve _ => some (.ok (), N.publish s pid)
    | .fault => some (.error N.dbError, close s pid)
    | .lost => some (.error N.dbError, N.publish s pid)
  | .rollback, s =>
    match c with
    | .serve _ => some (.ok (), close s pid)
    | _ => none
  | .run op, s =>
    match c with
    | .serve a =>
      if (N.locks op (free s pid) (N.view s pid) s.ext).all (free s pid) then
        let out := N.exec a op (free s pid) (N.view s pid) s.ext
        some (out.1, N.perform s pid (N.locks op (free s pid) (N.view s pid) s.ext)
          out.2.1 out.2.2)
      else none
    | .fault => some (.error N.dbError, s)
    | .lost => none

/-- The state in which no transaction is open. -/
def quiet (db : Db) (x : X) : TxState Db W K X :=
  ⟨db, fun _ => none, fun _ => none, x, []⟩

/-- Issue one request of a database session. -/
abbrev request (op : TxOp Op) : Prog (TxOp Op) (TxRes Res) E (TxRes Res op) :=
  Prog.perform op

/-- Issue one statement. -/
def stmt (op : Op) : Prog (TxOp Op) (TxRes Res) E (Res op) :=
  request (.run op)

/-- **A transaction block**: begin, run the body, commit; an exception in the
body rolls back and is raised again. -/
def transaction {α : Type} (body : Prog (TxOp Op) (TxRes Res) E α) :
    Prog (TxOp Op) (TxRes Res) E α := do
  let _ ← request .begin
  let r ← tryCatch body (fun e => do
    let _ ← request .rollback
    throw e)
  let _ ← request .commit
  return r

/-! ## What a request can do -/

/-- **The ways a request of `pid` changes the state.** -/
inductive Moves (pid : ℕ) (s : TxState Db W K X) : TxState Db W K X → Prop
  | stay : Moves pid s s
  | begin : Moves pid s { s with pending := Function.update s.pending pid (some []) }
  | close : Moves pid s (close s pid)
  | publish : Moves pid s (N.publish s pid)
  | perform (a : A) (op : Op)
      (hfree : (N.locks op (free s pid) (N.view s pid) s.ext).all (free s pid) = true) :
      Moves pid s (N.perform s pid (N.locks op (free s pid) (N.view s pid) s.ext)
        (N.exec a op (free s pid) (N.view s pid) s.ext).2.1
        (N.exec a op (free s pid) (N.view s pid) s.ext).2.2)

/-- **Inversion of the handler**, for its effect on the state. -/
theorem moves_of_handler {pid : ℕ} {c : Choice A} {op : TxOp Op}
    {s s' : TxState Db W K X} {r : Except E (TxRes Res op)}
    (h : N.handler pid c op s = some (r, s')) : N.Moves pid s s' := by
  cases op with
  | begin =>
    cases c with
    | serve a => cases h; exact .begin
    | fault => cases h; exact .stay
    | lost => cases h
  | commit =>
    cases c with
    | serve a => cases h; exact .publish
    | fault => cases h; exact .close
    | lost => cases h; exact .publish
  | rollback =>
    cases c with
    | serve a => cases h; exact .close
    | fault => cases h
    | lost => cases h
  | run op =>
    cases c with
    | serve a =>
      simp only [handler] at h
      split at h
      · rename_i hfree
        cases h
        exact .perform a op hfree
      · cases h
    | fault => cases h; exact .stay
    | lost => cases h

/-- **Inversion of a statement**: it failed and changed nothing, or it ran on
the view with its locks free. -/
theorem run_cases {pid : ℕ} {c : Choice A} {op : Op} {s s' : TxState Db W K X}
    {r : Except E (Res op)} (h : N.handler pid c (.run op) s = some (r, s')) :
    (c = .fault ∧ r = .error N.dbError ∧ s' = s)
      ∨ ∃ a, c = .serve a
        ∧ (N.locks op (free s pid) (N.view s pid) s.ext).all (free s pid) = true
        ∧ r = (N.exec a op (free s pid) (N.view s pid) s.ext).1
        ∧ s' = N.perform s pid (N.locks op (free s pid) (N.view s pid) s.ext)
            (N.exec a op (free s pid) (N.view s pid) s.ext).2.1
            (N.exec a op (free s pid) (N.view s pid) s.ext).2.2 := by
  cases c with
  | serve a =>
    simp only [handler] at h
    split at h
    · rename_i hfree
      cases h
      exact .inr ⟨a, rfl, hfree, rfl, rfl⟩
    · cases h
  | fault => cases h; exact .inl ⟨rfl, rfl, rfl⟩
  | lost => cases h

/-- Inside a transaction a statement extends the view by its writes. -/
theorem view_perform {s : TxState Db W K X} {pid : ℕ} {old : List W}
    (h : s.pending pid = some old) (ls : List K) (ws : List W) (x : X) :
    N.view (N.perform s pid ls ws x) pid = N.applyAll ws (N.view s pid) := by
  simp only [view, perform, h, Function.update_self, applyAll_append]

/-! ## Rules for programs

A statement and a transaction block, each as one step of reasoning: what must
be shown for every way the environment can answer. -/

section Rules

variable {N} {allow : Choice A → TxOp Op → TxState Db W K X → Prop}
  {rely guar : TxState Db W K X → TxState Db W K X → Prop}

/-- The state after a statement of `pid` ran on its view. -/
def ran (N : Engine Op Res E A Db W K X) (pid : ℕ) (a : A) (op : Op)
    (s : TxState Db W K X) : TxState Db W K X :=
  N.perform s pid (N.locks op (free s pid) (N.view s pid) s.ext)
    (N.exec a op (free s pid) (N.view s pid) s.ext).2.1
    (N.exec a op (free s pid) (N.view s pid) s.ext).2.2

/-- The answer of a statement of `pid` that ran on its view. -/
def answer (N : Engine Op Res E A Db W K X) (pid : ℕ) (a : A) (op : Op)
    (s : TxState Db W K X) : Except E (Res op) :=
  (N.exec a op (free s pid) (N.view s pid) s.ext).1

/-- **Statement rule.** -/
theorem safe_stmt {pid : ℕ} {op : Op} {Q : Except E (Res op) → TxState Db W K X → Prop}
    {s : TxState Db W K X}
    (hfault : ∀ s₁, rely s s₁ → allow .fault (.run op) s₁ →
      guar s₁ s₁ ∧ Q (.error N.dbError) s₁)
    (hserve : ∀ s₁ a, rely s s₁ → allow (.serve a) (.run op) s₁ →
      (N.locks op (free s₁ pid) (N.view s₁ pid) s₁.ext).all (free s₁ pid) = true →
      guar s₁ (N.ran pid a op s₁) ∧ Q (N.answer pid a op s₁) (N.ran pid a op s₁)) :
    (stmt op : Prog (TxOp Op) (TxRes Res) E (Res op)).Safe
      (Prog.Handled (N.handler pid) allow) rely guar Q s := by
  refine (Prog.safe_perform _ _ _).mpr (fun s₁ hr r s₂ hH => ?_)
  obtain ⟨c, hc, hh⟩ := hH
  rcases N.run_cases hh with ⟨rfl, rfl, rfl⟩ | ⟨a, rfl, hfree, rfl, rfl⟩
  · exact hfault s₂ hr hc
  · exact hserve s₁ a hr hc hfree

/-- What must hold when the body of a transaction ends: whatever the commit
does, or the rollback after an exception, leads to the postcondition. -/
def Ends {α : Type} (N : Engine Op Res E A Db W K X) (pid : ℕ)
    (allow : Choice A → TxOp Op → TxState Db W K X → Prop)
    (rely guar : TxState Db W K X → TxState Db W K X → Prop)
    (Q : Except E α → TxState Db W K X → Prop) :
    Except E α → TxState Db W K X → Prop
  | .ok a, s => ∀ s₁, rely s s₁ →
      (guar s₁ (N.publish s₁ pid) ∧ Q (.ok a) (N.publish s₁ pid)
        ∧ (allow .lost .commit s₁ → Q (.error N.dbError) (N.publish s₁ pid)))
      ∧ (allow .fault .commit s₁ →
          guar s₁ (close s₁ pid) ∧ Q (.error N.dbError) (close s₁ pid))
  | .error e, s => ∀ s₁, rely s s₁ →
      guar s₁ (close s₁ pid) ∧ Q (.error e) (close s₁ pid)

/-- The state in which `pid` has just opened a transaction. -/
def opened (s : TxState Db W K X) (pid : ℕ) : TxState Db W K X :=
  { s with pending := Function.update s.pending pid (some []) }

/-- **Transaction rule.** -/
theorem safe_transaction {α : Type} {pid : ℕ} {body : Prog (TxOp Op) (TxRes Res) E α}
    {Q : Except E α → TxState Db W K X → Prop} {s : TxState Db W K X}
    (hfault : ∀ s₁, rely s s₁ → allow .fault .begin s₁ →
      guar s₁ s₁ ∧ Q (.error N.dbError) s₁)
    (hopen : ∀ s₁, rely s s₁ → guar s₁ (opened s₁ pid)
      ∧ body.Safe (Prog.Handled (N.handler pid) allow) rely guar
          (N.Ends pid allow rely guar Q) (opened s₁ pid)) :
    (transaction body).Safe (Prog.Handled (N.handler pid) allow) rely guar Q s := by
  refine (Prog.safe_bind _ _ _ _).mpr ((Prog.safe_perform _ _ _).mpr ?_)
  rintro s₁ hr r s₂ ⟨c, hc, hh⟩
  cases c with
  | serve a =>
    cases hh
    obtain ⟨hg, hbody⟩ := hopen s₁ hr
    refine ⟨hg, (Prog.safe_bind _ _ _ _).mpr ((Prog.safe_tryCatch _ _ _ _).mpr ?_)⟩
    refine hbody.mono (fun r s' hend => ?_)
    cases r with
    | ok a => exact safe_commit hend
    | error e => exact safe_rollback hend
  | fault =>
    cases hh
    exact hfault s₁ hr hc
  | lost => cases hh
where
  safe_commit {a : α} {s : TxState Db W K X} (h : N.Ends pid allow rely guar Q (.ok a) s) :
      (Prog.bind (request .commit : Prog (TxOp Op) (TxRes Res) E _)
        (fun _ => .ret a)).Safe (Prog.Handled (N.handler pid) allow) rely guar Q s := by
    refine (Prog.safe_bind _ _ _ _).mpr ((Prog.safe_perform _ _ _).mpr ?_)
    rintro s₁ hr r s₂ ⟨c, hc, hh⟩
    obtain ⟨⟨hg, hok, hlost⟩, hfault⟩ := h s₁ hr
    cases c with
    | serve a => cases hh; exact ⟨hg, hok⟩
    | fault => cases hh; exact hfault hc
    | lost => cases hh; exact ⟨hg, hlost hc⟩
  safe_rollback {e : E} {s : TxState Db W K X} (h : N.Ends pid allow rely guar Q (.error e) s) :
      (Prog.bind (request .rollback : Prog (TxOp Op) (TxRes Res) E _)
        (fun _ => (.raise e : Prog (TxOp Op) (TxRes Res) E α))).Safe
          (Prog.Handled (N.handler pid) allow) rely guar
          (Prog.thenSafe (Prog.Handled (N.handler pid) allow) rely guar
            (fun r => Prog.bind (request .commit) (fun _ => .ret r)) Q) s := by
    refine (Prog.safe_bind _ _ _ _).mpr ((Prog.safe_perform _ _ _).mpr ?_)
    rintro s₁ hr r s₂ ⟨c, -, hh⟩
    cases c with
    | serve a => cases hh; exact h s₁ hr
    | fault => cases hh
    | lost => cases hh

/-- A statement can run on its view when its locks are free. -/
theorem runs_stmt {pid : ℕ} {op : Op} {a : A} {s : TxState Db W K X}
    (hallow : allow (.serve a) (.run op) s)
    (hfree : (N.locks op (free s pid) (N.view s pid) s.ext).all (free s pid) = true) :
    (stmt op : Prog (TxOp Op) (TxRes Res) E (Res op)).Runs
      (Prog.Handled (N.handler pid) allow) s (N.answer pid a op s) (N.ran pid a op s) := by
  refine Prog.runs_perform ⟨.serve a, hallow, ?_⟩
  show (if _ then _ else none) = _
  rw [if_pos hfree]
  rfl

/-- A transaction can commit what its body has done. -/
theorem runs_transaction_ok {α : Type} {pid : ℕ} {body : Prog (TxOp Op) (TxRes Res) E α}
    {a a' : A} {r : α} {s s₁ : TxState Db W K X} (hbegin : allow (.serve a) .begin s)
    (hbody : body.Runs (Prog.Handled (N.handler pid) allow) (opened s pid) (.ok r) s₁)
    (hcommit : allow (.serve a') .commit s₁) :
    (transaction body).Runs (Prog.Handled (N.handler pid) allow) s (.ok r) (N.publish s₁ pid) := by
  refine (Prog.runs_perform ⟨.serve a, hbegin, rfl⟩).bind ((hbody.tryCatch_ok _).bind ?_)
  exact (Prog.runs_perform ⟨.serve a', hcommit, rfl⟩).bind (Prog.runs_ret r _)

end Rules

/-! ## The history of the committed database -/

/-- A request leaves the committed database alone, or logs what it made of
it. -/
theorem Moves.log {pid : ℕ} {s s' : TxState Db W K X} (h : N.Moves pid s s') :
    (s'.log = s.log ∧ s'.committed = s.committed)
      ∨ s'.log = s.log ++ [⟨pid, s.committed, s'.committed⟩] := by
  cases h with
  | stay => exact .inl ⟨rfl, rfl⟩
  | begin => exact .inl ⟨rfl, rfl⟩
  | close => exact .inl ⟨rfl, rfl⟩
  | publish => exact .inr rfl
  | perform a op hfree =>
    unfold Engine.perform
    split
    · exact .inr rfl
    · exact .inl ⟨rfl, rfl⟩

/-- **What every logged commit of a program does to the database, the whole
run does**, for a reflexive and transitive relation; and the log only grows. -/
theorem committed_rel_of_log {R : Db → Db → Prop} (hrefl : ∀ a, R a a)
    (htrans : ∀ a b c, R a b → R b c → R a c) {pid : ℕ} {α : Type}
    {p : Prog (TxOp Op) (TxRes Res) E α} {cs : List (Choice A)}
    {s s' : TxState Db W K X} {r : Except E α}
    (h : p.eval (N.handler pid) cs s = some (r, s')) :
    (∀ c ∈ s.log, c ∈ s'.log)
      ∧ ((∀ c ∈ s'.log, c.pid = pid → R c.before c.after) →
          R s.committed s'.committed) := by
  induction cs generalizing p s with
  | nil =>
    cases p with
    | ret a => cases h; exact ⟨fun _ hc => hc, fun _ => hrefl _⟩
    | raise e => cases h; exact ⟨fun _ hc => hc, fun _ => hrefl _⟩
    | call op k => cases h
  | cons c cs ih =>
    cases p with
    | ret a => cases h
    | raise e => cases h
    | call op k =>
      obtain ⟨⟨r₁, s₁⟩, hh, hk⟩ := Option.bind_eq_some_iff.mp h
      obtain ⟨hgrow, hrel⟩ := ih hk
      rcases (N.moves_of_handler hh).log with ⟨hlog, hcom⟩ | hlog
      · refine ⟨fun c hc => hgrow c (hlog ▸ hc), fun hR => ?_⟩
        rw [← hcom]
        exact hrel hR
      · have hmem : ⟨pid, s.committed, s₁.committed⟩ ∈ s'.log :=
          hgrow _ (by simp [hlog])
        refine ⟨fun c hc => hgrow c (by simp [hlog, hc]), fun hR => ?_⟩
        exact htrans _ _ _ (hR _ hmem rfl) (hrel hR)

/-! ## What locking guarantees -/

/-- The rows of the database, as functions of it: what locks protect. -/
structure Lawful {Row : K → Type} (look : (k : K) → Db → Row k) : Prop where
  /-- A write leaves the rows it is not keyed by alone. -/
  look_apply : ∀ w db k, N.key w ≠ k → look k (N.apply w db) = look k db
  /-- What a write makes of a row depends on that row alone. -/
  look_congr : ∀ w db db' k, look k db = look k db' →
    look k (N.apply w db) = look k (N.apply w db')
  /-- A statement locks what it writes. -/
  exec_locked : ∀ a op fr db x, ∀ w ∈ (N.exec a op fr db x).2.1,
    N.key w ∈ N.locks op fr db x

/-- **Pending writes are covered by locks.** -/
def Owned (s : TxState Db W K X) : Prop :=
  ∀ q ws, s.pending q = some ws → ∀ w ∈ ws, s.holder (N.key w) = some q

omit [DecidableEq K] in
/-- Nothing is pending and nothing is held for a number never used. -/
def Unused (pid : ℕ) (s : TxState Db W K X) : Prop :=
  s.pending pid = none ∧ (∀ k, s.holder k ≠ some pid) ∧ ∀ c ∈ s.log, c.pid ≠ pid

omit [DecidableEq K] in
/-- **What the other transactions leave alone**: the writes of `pid`, the
rows it holds, its place in the history. -/
structure Untouched {Row : K → Type} (look : (k : K) → Db → Row k) (pid : ℕ)
    (s s' : TxState Db W K X) : Prop where
  pending : s'.pending pid = s.pending pid
  held : ∀ k, s'.holder k = some pid ↔ s.holder k = some pid
  row : ∀ k, s.holder k = some pid → look k s'.committed = look k s.committed
  log : s'.log.filter (fun c => c.pid = pid) = s.log.filter (fun c => c.pid = pid)

section Locking

variable {N} {Row : K → Type} {look : (k : K) → Db → Row k}

omit [DecidableEq K] in
theorem Untouched.refl (pid : ℕ) (s : TxState Db W K X) : Untouched look pid s s :=
  ⟨rfl, fun _ => Iff.rfl, fun _ _ => rfl, rfl⟩

omit [DecidableEq K] in
theorem Untouched.trans {pid : ℕ} {a b c : TxState Db W K X}
    (h : Untouched look pid a b) (h' : Untouched look pid b c) :
    Untouched look pid a c :=
  ⟨h'.pending.trans h.pending, fun k => (h'.held k).trans (h.held k),
    fun k hk => (h'.row k ((h.held k).mpr hk)).trans (h.row k hk),
    h'.log.trans h.log⟩

omit [DecidableEq K] in
/-- What it has committed, it had committed. -/
theorem Untouched.mem_log {pid : ℕ} {s s' : TxState Db W K X} (h : Untouched look pid s s')
    {c : TxCommit Db} (hc : c ∈ s'.log) (hpid : c.pid = pid) : c ∈ s.log := by
  have hmem : c ∈ s'.log.filter (fun c => c.pid = pid) :=
    List.mem_filter.mpr ⟨hc, decide_eq_true hpid⟩
  rw [h.log] at hmem
  exact (List.mem_filter.mp hmem).1

omit [DecidableEq K] in
/-- A number stays unused while others act. -/
theorem Unused.untouched {pid : ℕ} {s s' : TxState Db W K X}
    (h : Unused pid s) (hu : Untouched look pid s s') : Unused pid s' :=
  ⟨hu.pending.trans h.1, fun k hk => h.2.1 k ((hu.held k).mp hk),
    fun c hc hpid => h.2.2 c (hu.mem_log hc hpid) hpid⟩

omit [DecidableEq K] in
/-- Writes keyed by other rows leave a row alone. -/
theorem Lawful.look_applyAll (hN : N.Lawful look) {ws : List W} {k : K}
    (h : ∀ w ∈ ws, N.key w ≠ k) (db : Db) :
    look k (N.applyAll ws db) = look k db := by
  induction ws generalizing db with
  | nil => rfl
  | cons w ws ih =>
    rw [applyAll_cons, ih (fun w' hw' => h w' (List.mem_cons_of_mem w hw')),
      hN.look_apply w db k (h w List.mem_cons_self)]

omit [DecidableEq K] in
/-- What writes make of a row depends on that row alone. -/
theorem Lawful.look_applyAll_congr (hN : N.Lawful look) (ws : List W) {k : K}
    {db db' : Db} (h : look k db = look k db') :
    look k (N.applyAll ws db) = look k (N.applyAll ws db') := by
  induction ws generalizing db db' with
  | nil => exact h
  | cons w ws ih => exact ih (hN.look_congr w db db' k h)

omit [DecidableEq K] in
/-- A transaction sees the committed state of every row it does not hold. -/
theorem Lawful.look_view_of_not_held (hN : N.Lawful look)
    {s : TxState Db W K X} (hs : N.Owned s) {pid : ℕ} {k : K}
    (hk : s.holder k ≠ some pid) :
    look k (N.view s pid) = look k s.committed := by
  unfold view
  split
  · rfl
  · rename_i ws hws
    refine hN.look_applyAll (fun w hw hwk => hk ?_) _
    rw [← hwk]
    exact hs pid ws hws w hw

omit [DecidableEq K] in
/-- **What a transaction sees of the rows it holds is its own business**: it
does not change while others act. -/
theorem Lawful.look_view_of_held (hN : N.Lawful look)
    {s s' : TxState Db W K X} {pid : ℕ} (hu : Untouched look pid s s') {k : K}
    (hk : s.holder k = some pid) :
    look k (N.view s' pid) = look k (N.view s pid) := by
  unfold view
  rw [hu.pending]
  split
  · exact hu.row k hk
  · exact hN.look_applyAll_congr _ (hu.row k hk)

omit [DecidableEq K] in
/-- A row is free for `pid` when nobody else holds it. -/
theorem free_iff {s : TxState Db W K X} {pid : ℕ} {k : K} :
    free s pid k = true ↔ s.holder k = none ∨ s.holder k = some pid := by
  unfold free
  cases s.holder k <;> simp

omit [DecidableEq K] in
/-- Rows a statement of `pid` may lock are not held by another. -/
theorem not_held_of_free {s : TxState Db W K X} {pid q : ℕ} (hq : q ≠ pid)
    {ls : List K} (hfree : ls.all (free s pid) = true) {k : K} (hk : k ∈ ls) :
    s.holder k ≠ some q := by
  intro hh
  rcases free_iff.mp (List.all_eq_true.mp hfree k hk) with h | h
  · rw [hh] at h
    cases h
  · rw [hh] at h
    exact hq (Option.some.inj h)

/-- Taking such rows takes none from another. -/
theorem held_iff_of_free {s : TxState Db W K X} {pid q : ℕ} (hq : q ≠ pid)
    {ls : List K} (hfree : ls.all (free s pid) = true) (k : K) :
    (if k ∈ ls then some pid else s.holder k) = some q ↔ s.holder k = some q := by
  split
  · rename_i hk
    exact iff_of_false (fun h => hq (Option.some.inj h).symm) (not_held_of_free hq hfree hk)
  · rfl

omit [DecidableEq K] in
/-- Nor does the end of a transaction. -/
theorem untouched_close {pid q : ℕ} (hq : q ≠ pid) {s : TxState Db W K X} :
    Untouched look q s (close s pid) := by
  refine ⟨by simp [close, Function.update_of_ne hq], fun k => ?_, fun _ _ => rfl, rfl⟩
  by_cases hk : s.holder k = some pid
  · simp [close, hk, Ne.symm hq]
  · simp [close, hk]

/-- **Every request keeps pending writes covered by locks.** -/
theorem Lawful.owned_of_moves (hN : N.Lawful look) {s s' : TxState Db W K X}
    {pid : ℕ} (hs : N.Owned s) (h : N.Moves pid s s') : N.Owned s' := by
  cases h with
  | stay => exact hs
  | begin =>
    intro q ws hq w hw
    by_cases hqp : q = pid
    · subst hqp
      simp only [Function.update_self, Option.some.injEq] at hq
      subst hq
      cases hw
    · simp only [Function.update_of_ne hqp] at hq
      exact hs q ws hq w hw
  | close => exact owned_close hs pid
  | publish => exact owned_close (s := install s pid (N.view s pid)) hs pid
  | perform a op hfree =>
    unfold perform
    split
    · exact hs
    · rename_i old hold
      intro q ws hq w hw
      by_cases hqp : q = pid
      · subst hqp
        simp only [Function.update_self, Option.some.injEq] at hq
        subst hq
        rcases List.mem_append.mp hw with hw | hw
        · simp [hs q old hold w hw]
        · simp [hN.exec_locked a op _ _ _ w hw]
      · simp only [Function.update_of_ne hqp] at hq
        have hheld : s.holder (N.key w) = some q := hs q ws hq w hw
        have hnot : N.key w ∉ N.locks op (free s pid) (N.view s pid) s.ext :=
          fun hmem => not_held_of_free hqp hfree hmem hheld
        simp [hnot, hheld]
where
  owned_close {s : TxState Db W K X} (hs : N.Owned s) (pid : ℕ) :
      N.Owned (close s pid) := by
    intro q ws hq w hw
    by_cases hqp : q = pid
    · subst hqp
      simp [close] at hq
    · simp only [close, Function.update_of_ne hqp] at hq
      have hheld : s.holder (N.key w) = some q := hs q ws hq w hw
      simp [close, hheld, hqp]

/-- **No request touches what another transaction holds.** -/
theorem Lawful.untouched_of_other (hN : N.Lawful look) {s s' : TxState Db W K X}
    {pid q : ℕ} (hq : q ≠ pid) (hs : N.Owned s) (h : N.Moves pid s s') :
    Untouched look q s s' := by
  cases h with
  | stay => exact .refl q s
  | begin =>
    exact ⟨by simp [Function.update_of_ne hq], fun _ => Iff.rfl, fun _ _ => rfl, rfl⟩
  | close => exact untouched_close hq
  | publish =>
    refine Untouched.trans (b := install s pid (N.view s pid)) ?_ (untouched_close hq)
    refine ⟨rfl, fun _ => Iff.rfl, fun k hk => ?_, ?_⟩
    · refine hN.look_view_of_not_held hs (fun hp => hq ?_)
      rw [hk] at hp
      exact Option.some.inj hp
    · simp [install, Ne.symm hq]
  | perform a op hfree =>
    have hkeys : ∀ w ∈ (N.exec a op (free s pid) (N.view s pid) s.ext).2.1,
        s.holder (N.key w) ≠ some q := fun w hw =>
      not_held_of_free hq hfree (hN.exec_locked a op _ _ _ w hw)
    unfold perform
    split
    · refine ⟨rfl, fun _ => Iff.rfl, fun k hk => ?_, by simp [install, Ne.symm hq]⟩
      refine hN.look_applyAll (fun w hw hwk => hkeys w hw ?_) _
      rw [hwk]
      exact hk
    · exact ⟨by simp [Function.update_of_ne hq], held_iff_of_free hq hfree, fun _ _ => rfl, rfl⟩

/-- **No request touches the transaction of another**: its writes, its locks and
its place in the history. -/
theorem Moves.apart {s s' : TxState Db W K X} {pid q : ℕ} (hq : q ≠ pid) (h : N.Moves pid s s') :
    Untouched (fun (_ : K) (_ : Db) => ()) q s s' := by
  cases h with
  | stay => exact .refl q s
  | begin =>
    exact ⟨by simp [Function.update_of_ne hq], fun _ => Iff.rfl, fun _ _ => rfl, rfl⟩
  | close => exact untouched_close hq
  | publish =>
    refine Untouched.trans (b := install s pid (N.view s pid)) ?_ (untouched_close hq)
    exact ⟨rfl, fun _ => Iff.rfl, fun _ _ => rfl, by simp [install, Ne.symm hq]⟩
  | perform a op hfree =>
    unfold Engine.perform
    split
    · exact ⟨rfl, fun _ => Iff.rfl, fun _ _ => rfl, by simp [install, Ne.symm hq]⟩
    · exact ⟨by simp [Function.update_of_ne hq], held_iff_of_free hq hfree, fun _ _ => rfl, rfl⟩

end Locking

section Writes

variable {N} {α : Type}

/-! ## What a program writes -/

omit [DecidableEq K] in
/-- What a transaction block issues. -/
theorem issues_transaction {P : TxOp Op → Prop} {body : Prog (TxOp Op) (TxRes Res) E α}
    (hbody : body.Issues P) (hends : P .begin ∧ P .commit ∧ P .rollback) :
    (transaction body).Issues P := by
  refine (Prog.issues_perform hends.1).bind (fun _ => ?_)
  refine Prog.Issues.bind (hbody.tryCatch (fun e => ?_)) (fun r => ?_)
  · exact (Prog.issues_perform hends.2.2).bind (fun _ => trivial)
  · exact (Prog.issues_perform hends.2.1).bind (fun _ => trivial)

/-- **Writes that keep a condition on the database.** When every open
transaction has written nothing but `F`, and so does the request, the same holds
after it, and a condition that each `F` keeps is kept. -/
theorem writes_of_handler {F : W → Prop} {C : Db → Prop} {pid : ℕ} {c : Choice A} {op : TxOp Op}
    {s s' : TxState Db W K X} {r : Except E (TxRes Res op)}
    (hop : ∀ o, op = .run o → ∀ a fr db x, ∀ w ∈ (N.exec a o fr db x).2.1, F w)
    (hC : ∀ w db, F w → C db → C (N.apply w db))
    (hp : ∀ q ws, s.pending q = some ws → ∀ w ∈ ws, F w) (hc : C s.committed)
    (h : N.handler pid c op s = some (r, s')) :
    (∀ q ws, s'.pending q = some ws → ∀ w ∈ ws, F w) ∧ C s'.committed := by
  have happly : ∀ ws, (∀ w ∈ ws, F w) → ∀ db, C db → C (N.applyAll ws db) := by
    intro ws hws
    induction ws with
    | nil => exact fun db hdb => hdb
    | cons w ws ih =>
      intro db hdb
      exact ih (fun w' hw' => hws w' (List.mem_cons_of_mem w hw')) _
        (hC w db (hws w List.mem_cons_self) hdb)
  have hclose : ∀ t : TxState Db W K X, (∀ q ws, t.pending q = some ws → ∀ w ∈ ws, F w) →
      ∀ q ws, (close t pid).pending q = some ws → ∀ w ∈ ws, F w := by
    intro t ht q ws hq
    by_cases hqp : q = pid
    · subst hqp
      simp [close] at hq
    · simp only [close, Function.update_of_ne hqp] at hq
      exact ht q ws hq
  have hview : C (N.view s pid) := by
    unfold view
    split
    · exact hc
    · rename_i ws hws
      exact happly ws (hp pid ws hws) _ hc
  cases op with
  | begin =>
    cases c with
    | serve a =>
      cases h
      refine ⟨fun q ws hq => ?_, hc⟩
      by_cases hqp : q = pid
      · subst hqp
        simp only [Function.update_self, Option.some.injEq] at hq
        subst hq
        exact fun w hw => absurd hw List.not_mem_nil
      · simp only [Function.update_of_ne hqp] at hq
        exact hp q ws hq
    | fault => cases h; exact ⟨hp, hc⟩
    | lost => cases h
  | commit =>
    cases c with
    | serve a => cases h; exact ⟨hclose _ hp, hview⟩
    | fault => cases h; exact ⟨hclose s hp, hc⟩
    | lost => cases h; exact ⟨hclose _ hp, hview⟩
  | rollback =>
    cases c with
    | serve a => cases h; exact ⟨hclose s hp, hc⟩
    | fault => cases h
    | lost => cases h
  | run o =>
    obtain ⟨-, -, rfl⟩ | ⟨a, -, -, -, rfl⟩ := N.run_cases h
    · exact ⟨hp, hc⟩
    · have hnew := hop o rfl a (free s pid) (N.view s pid) s.ext
      unfold perform
      split
      · exact ⟨hp, happly _ hnew _ hc⟩
      · rename_i old hold
        refine ⟨fun q ws hq => ?_, hc⟩
        by_cases hqp : q = pid
        · subst hqp
          simp only [Function.update_self, Option.some.injEq] at hq
          subst hq
          intro w hw
          rcases List.mem_append.mp hw with hw | hw
          · exact hp q old hold w hw
          · exact hnew w hw
        · simp only [Function.update_of_ne hqp] at hq
          exact hp q ws hq

end Writes

end Engine
