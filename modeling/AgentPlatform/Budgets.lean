import AgentPlatform.ExecutionStore
import AgentPlatform.Transaction

/-!
# Budgets and the cost ledger

Before a billable call the platform reserves its estimated cost on every
budget that applies – the tenant's month, the day of the agent application,
the single execution – and after the call it settles the actual cost or
releases the reservation. Each budget has, for each of its periods, a row of
running totals (`tenant.budget_period_state`), and every change of the totals
leaves an immutable entry in `tenant.cost_ledger`.

This module translates `budgets.py` over the tables of
`0011_budgets_cost_ledger.sql`. The statements of the service are the
requests `BudgetOp`; `budgetEngine` says what each of them locks, reads and
writes, and `reserve`, `settle`, `release` and `adjust` are programs over
them, so that any number of calls can run between the statements of one
another.

When the transaction of a reservation raises a database error, its outcome is
not known: the commit may have been made and its acknowledgement lost. The
service then applies the policy of the budgets concerned – to fail closed, or
to draw on their separate contingency allowance.

Amounts are in micros of the currency. The `CHECK` constraints of the totals
are fields of `PeriodState`, so that a row with a negative total cannot be
built; a statement that would make one raises `PyException.sqlAlchemy`.
-/

/-! ## Rows -/

/-- The scope of a budget. -/
inductive BudgetScope where
  | TENANT_MONTHLY
  | AGENT_DAILY
  | EXECUTION
  deriving DecidableEq, Repr

/-- The text of a scope. -/
def BudgetScope.str : BudgetScope → String
  | .TENANT_MONTHLY => "TENANT_MONTHLY"
  | .AGENT_DAILY => "AGENT_DAILY"
  | .EXECUTION => "EXECUTION"

/-- What to do when the outcome of a reservation cannot be known. -/
inductive UnknownPolicy where
  | FAIL_CLOSED
  | CONTINGENCY
  deriving DecidableEq, Repr

/-- A row of `tenant.budget`. Limit and contingency are not negative. -/
structure Budget where
  tenantId : Uuid
  id : Uuid
  applicationId : Option Uuid
  scope : BudgetScope
  limitMicros : ℕ
  contingencyMicros : ℕ
  unknownPolicy : UnknownPolicy
  deriving DecidableEq, Repr

/-- The key of a row of totals. -/
structure PeriodKey where
  tenantId : Uuid
  budgetId : Uuid
  periodKey : String
  deriving DecidableEq, Repr

/-- **A row of `tenant.budget_period_state`**: the totals of a budget in one of
its periods. -/
structure PeriodState where
  reservedMicros : ℤ
  consumedMicros : ℤ
  allowanceMicros : ℤ
  contingencyReservedMicros : ℤ
  version : ℕ
  reserved_nonneg : 0 ≤ reservedMicros
  consumed_nonneg : 0 ≤ consumedMicros
  contingency_nonneg : 0 ≤ contingencyReservedMicros

/-- A new row of totals. -/
def PeriodState.zero : PeriodState :=
  ⟨0, 0, 0, 0, 1, le_refl 0, le_refl 0, le_refl 0⟩

/-- The row with amounts added to its totals and its version counted up, if
its constraints allow it. -/
def PeriodState.change? (row : PeriodState) (reserved consumed allowance contingency : ℤ) :
    Option PeriodState :=
  if h : 0 ≤ row.reservedMicros + reserved ∧ 0 ≤ row.consumedMicros + consumed
      ∧ 0 ≤ row.contingencyReservedMicros + contingency then
    some
      { reservedMicros := row.reservedMicros + reserved
        consumedMicros := row.consumedMicros + consumed
        allowanceMicros := row.allowanceMicros + allowance
        contingencyReservedMicros := row.contingencyReservedMicros + contingency
        version := row.version + 1
        reserved_nonneg := h.1
        consumed_nonneg := h.2.1
        contingency_nonneg := h.2.2 }
  else none

/-- The type of a ledger entry. -/
inductive LedgerEntryType where
  | RESERVE
  | SETTLE
  | RELEASE
  | REJECT
  | ADJUST
  deriving DecidableEq, Repr

/-- What a caller of `_append_ledger` says about an entry, besides the
reservation it belongs to. -/
structure LedgerDraft where
  period : PeriodKey
  applicationId : Option Uuid
  executionId : Option String
  entryType : LedgerEntryType
  amountMicros : ℤ
  contingency : Bool
  reason : String
  actor : String
  priceVersion : Option ℤ
  deriving DecidableEq, Repr

/-- A row of `tenant.cost_ledger`. -/
structure LedgerEntry extends LedgerDraft where
  reserveId : Uuid
  deriving DecidableEq, Repr

/-- The `CHECK` constraints of a ledger entry. -/
def LedgerDraft.valid (draft : LedgerDraft) : Bool :=
  0 ≤ draft.amountMicros ∧ draft.reason.length ≤ 500
    ∧ 1 ≤ draft.actor.length ∧ draft.actor.length ≤ 256

/-- The level of a budget alert. -/
inductive AlertLevel where
  | WARNING_70
  | CRITICAL_90
  deriving DecidableEq, Repr

/-- The text of an alert level. -/
def AlertLevel.str : AlertLevel → String
  | .WARNING_70 => "WARNING_70"
  | .CRITICAL_90 => "CRITICAL_90"

/-- A row of `tenant.budget_alert`, besides its key. -/
structure BudgetAlert where
  usedMicros : ℤ
  limitMicros : ℤ
  deriving DecidableEq, Repr

/-- **The budget tables.** The rows of `tenant.budget` are in the order of
their creation. -/
structure BudgetDb where
  budgets : List Budget
  states : PeriodKey → Option PeriodState
  ledger : List LedgerEntry
  alerts : PeriodKey → AlertLevel → Option BudgetAlert

namespace BudgetDb

/-- The entries of one budget in one period. -/
def ledgerAt (db : BudgetDb) (key : PeriodKey) : List LedgerEntry :=
  db.ledger.filter (fun e => e.period = key)

/-- The entry of a type for a reservation. -/
def findEntry (db : BudgetDb) (key : PeriodKey) (reserveId : Uuid) (type : LedgerEntryType) :
    Option LedgerEntry :=
  db.ledger.find? (fun e => e.period = key ∧ e.reserveId = reserveId ∧ e.entryType = type)

/-- Tables with budgets and nothing else. -/
def configured (budgets : List Budget) : BudgetDb :=
  ⟨budgets, fun _ => none, [], fun _ _ => none⟩

end BudgetDb

/-! ## Periods and levels -/

/-- The civil date of a moment, in UTC. -/
structure Moment where
  year : ℕ
  month : ℕ
  day : ℕ
  deriving DecidableEq, Repr

/-- The last `n` decimal digits of a number. -/
def decimalDigits : ℕ → ℕ → List Char
  | 0, _ => []
  | n + 1, v => decimalDigits n (v / 10) ++ [Char.ofNat (48 + v % 10)]

/-- `monthly_period_key`. -/
def monthlyPeriodKey (moment : Moment) : String :=
  String.ofList (decimalDigits 4 moment.year ++ ['-'] ++ decimalDigits 2 moment.month)

/-- `daily_period_key`. -/
def dailyPeriodKey (moment : Moment) : String :=
  String.ofList (decimalDigits 4 moment.year ++ ['-'] ++ decimalDigits 2 moment.month
    ++ ['-'] ++ decimalDigits 2 moment.day)

theorem length_decimalDigits (n v : ℕ) : (decimalDigits n v).length = n := by
  induction n generalizing v with
  | zero => rfl
  | succ n ih => simp [decimalDigits, ih]

theorem length_monthlyPeriodKey (moment : Moment) :
    1 ≤ (monthlyPeriodKey moment).length ∧ (monthlyPeriodKey moment).length ≤ 64 := by
  unfold monthlyPeriodKey
  rw [String.length_ofList]
  simp only [List.length_append, length_decimalDigits, List.length_singleton]
  omega

theorem length_dailyPeriodKey (moment : Moment) :
    1 ≤ (dailyPeriodKey moment).length ∧ (dailyPeriodKey moment).length ≤ 64 := by
  unfold dailyPeriodKey
  rw [String.length_ofList]
  simp only [List.length_append, length_decimalDigits, List.length_singleton]
  omega

/-- `period_key_for`. An empty execution id counts as none. -/
def periodKeyFor (scope : BudgetScope) (moment : Moment) (executionId : Option String) :
    Except PyException String :=
  match scope with
  | .TENANT_MONTHLY => .ok (monthlyPeriodKey moment)
  | .AGENT_DAILY => .ok (dailyPeriodKey moment)
  | .EXECUTION =>
    match executionId with
    | some id =>
      if id = "" then .error (.value "execution budgets require an execution id") else .ok id
    | none => .error (.value "execution budgets require an execution id")

/-- What is to be reserved. -/
structure BudgetCommand where
  tenantId : Uuid
  applicationId : Option Uuid
  executionId : Option String
  estimatedMicros : ℤ
  priceVersion : Option ℤ := none
  deriving DecidableEq, Repr

/-- A budget that applies, in its current period. -/
structure Level where
  budgetId : Uuid
  scope : BudgetScope
  periodKey : String
  limitMicros : ℕ
  contingencyMicros : ℕ
  unknownPolicy : UnknownPolicy
  deriving DecidableEq, Repr

/-- The row of totals of a level. -/
def Level.key (level : Level) (tenantId : Uuid) : PeriodKey :=
  ⟨tenantId, level.budgetId, level.periodKey⟩

/-- The loop body of `_applicable_levels`: a budget that does not apply is
skipped. -/
def applicableLevel? (moment : Moment) (command : BudgetCommand) (row : Budget) :
    Except PyException (Option Level) :=
  if row.scope = .AGENT_DAILY ∧ row.applicationId ≠ command.applicationId then .ok none
  else if row.scope = .EXECUTION ∧ command.executionId = none then
    .error (.budgetStateUnknown "EXECUTION_BUDGET_UNEVALUABLE")
  else if row.scope = .EXECUTION ∧ row.applicationId ≠ none
      ∧ row.applicationId ≠ command.applicationId then .ok none
  else do
    let periodKey ← periodKeyFor row.scope moment command.executionId
    return some
      { budgetId := row.id
        scope := row.scope
        periodKey := periodKey
        limitMicros := row.limitMicros
        contingencyMicros := row.contingencyMicros
        unknownPolicy := row.unknownPolicy }

/-- **The levels of a command**, among the budgets of its tenant. -/
def applicableLevels (moment : Moment) (command : BudgetCommand) :
    List Budget → Except PyException (List Level)
  | [] => .ok []
  | row :: rows => do
    match ← applicableLevel? moment command row with
    | none => applicableLevels moment command rows
    | some level =>
      let levels ← applicableLevels moment command rows
      return level :: levels

/-- The decision of `evaluate_level`. -/
inductive LevelDecision where
  | allow (alert : Option AlertLevel)
  | REJECT
  deriving DecidableEq, Repr

/-- **`evaluate_level`.** The ratio of use to limit is a quotient of integers
rounded to a double, and compared with the doubles nearest to `0.9` and `0.7`.
It reaches one of them when the exact quotient exceeds the midpoint between
this double and the one below – or equals it, if the tie is rounded up, which
is the case for `0.7` and not for `0.9`. -/
def evaluateLevel (usedAfterMicros limitMicros : ℤ) : LevelDecision :=
  if usedAfterMicros > limitMicros then .REJECT
  else if limitMicros ≤ 0 then .allow none
  else if 16212958658533785 * limitMicros < usedAfterMicros * 2 ^ 54 then .allow (some .CRITICAL_90)
  else if 12610078956637387 * limitMicros ≤ usedAfterMicros * 2 ^ 54 then .allow (some .WARNING_70)
  else .allow none

example : evaluateLevel 89 100 = .allow (some .WARNING_70) ∧
    evaluateLevel 90 100 = .allow (some .CRITICAL_90) ∧ evaluateLevel 101 100 = .REJECT := by
  decide

/-- An amount reserved on one level. -/
structure BudgetReservation where
  budgetId : Uuid
  scope : BudgetScope
  periodKey : String
  amountMicros : ℤ
  ledgerEntryId : Uuid
  contingency : Bool := false
  deriving DecidableEq, Repr

/-- The row of totals of a reservation. -/
def BudgetReservation.key (entry : BudgetReservation) (tenantId : Uuid) : PeriodKey :=
  ⟨tenantId, entry.budgetId, entry.periodKey⟩

/-- What a reservation returns, and is settled or released with. -/
structure BudgetReservationBundle where
  command : BudgetCommand
  entries : List BudgetReservation := []
  alerts : List String := []
  deriving DecidableEq, Repr

/-! ## Statements -/

/-- The requests of the service. -/
inductive BudgetOp where
  /-- The clock of the process. A fault here stands for one of the next
  statement. -/
  | clock
  | selectBudgets (tenantId : Uuid)
  | selectBudget (tenantId id : Uuid)
  /-- `INSERT INTO tenant.budget_period_state … ON CONFLICT DO NOTHING`. -/
  | ensureStateRow (key : PeriodKey)
  /-- `SELECT … FROM tenant.budget_period_state … FOR UPDATE`. -/
  | selectState (key : PeriodKey)
  /-- `UPDATE … SET reserved_micros=reserved_micros+$4 … WHERE …
  reserved_micros+consumed_micros+$4 <= $5 RETURNING version`. -/
  | reserveState (key : PeriodKey) (amount limit : ℤ)
  /-- `UPDATE … SET contingency_reserved_micros=contingency_reserved_micros+$4
  … WHERE … contingency_reserved_micros+$4 <= $5 RETURNING version`. -/
  | drawContingency (key : PeriodKey) (amount limit : ℤ)
  /-- `UPDATE tenant.budget_period_state` with amounts added to the totals. -/
  | changeState (key : PeriodKey) (reserved consumed allowance : ℤ)
  /-- `INSERT INTO tenant.cost_ledger … ON CONFLICT DO NOTHING RETURNING id`;
  without a reservation the entry gets a `uuid7()` drawn for it. -/
  | appendLedger (reserveId : Option Uuid) (draft : LedgerDraft)
  /-- `INSERT INTO tenant.budget_alert … ON CONFLICT DO NOTHING RETURNING
  level`. -/
  | insertAlert (key : PeriodKey) (level : AlertLevel) (usedMicros limitMicros : ℤ)

/-- The answers. A ledger entry answers with its reservation and whether it is
new. -/
abbrev BudgetRes : BudgetOp → Type
  | .clock => Moment
  | .selectBudgets _ => List Budget
  | .selectBudget .. => Option Budget
  | .ensureStateRow _ => Unit
  | .selectState _ => Option PeriodState
  | .reserveState .. => Option ℕ
  | .drawContingency .. => Option ℕ
  | .changeState .. => Unit
  | .appendLedger .. => Uuid × Bool
  | .insertAlert .. => Bool

/-- The row writes of the service. -/
inductive BudgetWrite where
  | setState (key : PeriodKey) (row : PeriodState)
  | insertEntry (entry : LedgerEntry)
  | insertAlert (key : PeriodKey) (level : AlertLevel) (alert : BudgetAlert)

/-- What the service locks. -/
inductive BudgetRow where
  | state (key : PeriodKey)
  /-- The place of an entry in the index `cost_ledger_entry_unique`. -/
  | entry (key : PeriodKey) (reserveId : Uuid) (type : LedgerEntryType)
  | alert (key : PeriodKey) (level : AlertLevel)
  deriving DecidableEq

/-- The effect of a row write. -/
def BudgetWrite.apply : BudgetWrite → BudgetDb → BudgetDb
  | .setState key row, db => { db with states := Function.update db.states key (some row) }
  | .insertEntry entry, db => { db with ledger := db.ledger ++ [entry] }
  | .insertAlert key level alert, db =>
    { db with
      alerts := Function.update db.alerts key
        (Function.update (db.alerts key) level (some alert)) }

/-- The place of an entry. -/
def LedgerEntry.row (e : LedgerEntry) : BudgetRow := .entry e.period e.reserveId e.entryType

/-- The row a write is keyed by. -/
def BudgetWrite.key : BudgetWrite → BudgetRow
  | .setState key _ => .state key
  | .insertEntry entry => entry.row
  | .insertAlert key level _ => .alert key level

/-- **The rows a statement locks.** An insertion that meets a visible row takes
no lock, and neither does an update that meets none. -/
def BudgetOp.locks (op : BudgetOp) (db : BudgetDb) (drawn : Uuid) : List BudgetRow :=
  match op with
  | .ensureStateRow key => if (db.states key).isSome then [] else [.state key]
  | .selectState key => if (db.states key).isSome then [.state key] else []
  | .reserveState key _ _ => if (db.states key).isSome then [.state key] else []
  | .drawContingency key _ _ => if (db.states key).isSome then [.state key] else []
  | .changeState key _ _ _ => if (db.states key).isSome then [.state key] else []
  | .appendLedger reserveId draft =>
    if (db.findEntry draft.period (reserveId.getD drawn) draft.entryType).isSome then []
    else [.entry draft.period (reserveId.getD drawn) draft.entryType]
  | .insertAlert key level _ _ =>
    if (db.alerts key level).isSome then [] else [.alert key level]
  | _ => []

/-- A conditional update of one row of totals. -/
def updateState (db : BudgetDb) (key : PeriodKey) (guard : PeriodState → Bool)
    (change : PeriodState → Option PeriodState) :
    Except PyException (Option ℕ) × List BudgetWrite :=
  match db.states key with
  | none => (.ok none, [])
  | some row =>
    if guard row then
      match change row with
      | none => (.error .sqlAlchemy, [])
      | some row' => (.ok (some row'.version), [.setState key row'])
    else (.ok none, [])

/-- **One statement of the service**, run on what its transaction sees, with
the identifiers drawn so far. The constraints of the tables are enforced. -/
def BudgetOp.exec (moment : Moment) : (op : BudgetOp) → BudgetDb → Uuid →
    Except PyException (BudgetRes op) × List BudgetWrite
  | .clock, _, _ => (.ok moment, [])
  | .selectBudgets tenantId, db, _ =>
    (.ok (db.budgets.filter (fun b => b.tenantId = tenantId)), [])
  | .selectBudget tenantId id, db, _ =>
    (.ok (db.budgets.find? (fun b => b.tenantId = tenantId ∧ b.id = id)), [])
  | .ensureStateRow key, db, _ =>
    if (db.states key).isSome then (.ok (), [])
    else if 1 ≤ key.periodKey.length ∧ key.periodKey.length ≤ 64
        ∧ db.budgets.any (fun b => b.tenantId = key.tenantId ∧ b.id = key.budgetId) then
      (.ok (), [.setState key .zero])
    else (.error .sqlAlchemy, [])
  | .selectState key, db, _ => (.ok (db.states key), [])
  | .reserveState key amount limit, db, _ =>
    updateState db key
      (fun row => row.reservedMicros + row.consumedMicros + amount ≤ limit)
      (fun row => row.change? amount 0 0 0)
  | .drawContingency key amount limit, db, _ =>
    updateState db key (fun row => row.contingencyReservedMicros + amount ≤ limit)
      (fun row => row.change? 0 0 0 amount)
  | .changeState key reserved consumed allowance, db, _ =>
    let out := updateState db key (fun _ => true)
      (fun row => row.change? reserved consumed allowance 0)
    (out.1.map (fun _ => ()), out.2)
  | .appendLedger reserveId draft, db, drawn =>
    if ¬ draft.valid then (.error .sqlAlchemy, [])
    else if (db.findEntry draft.period (reserveId.getD drawn) draft.entryType).isSome then
      (.ok (reserveId.getD drawn, false), [])
    else
      (.ok (reserveId.getD drawn, true), [.insertEntry ⟨draft, reserveId.getD drawn⟩])
  | .insertAlert key level usedMicros limitMicros, db, _ =>
    if usedMicros < 0 ∨ limitMicros ≤ 0 then (.error .sqlAlchemy, [])
    else if (db.alerts key level).isSome then (.ok false, [])
    else (.ok true, [.insertAlert key level ⟨usedMicros, limitMicros⟩])

/-- The identifiers drawn after a request. -/
def BudgetOp.draws : BudgetOp → Uuid → Uuid
  | .appendLedger none _, drawn => drawn + 1
  | _, drawn => drawn

/-- **The statements of the service, as an engine.** The external state counts
the identifiers drawn, so that no two are equal. -/
def budgetEngine :
    Engine BudgetOp BudgetRes PyException Moment BudgetDb BudgetWrite BudgetRow Uuid where
  apply := BudgetWrite.apply
  key := BudgetWrite.key
  locks := fun op _ db drawn => op.locks db drawn
  exec := fun moment op _ db drawn =>
    ((op.exec moment db drawn).1, (op.exec moment db drawn).2, op.draws drawn)
  dbError := .sqlAlchemy

/-! ## The programs -/

/-- A program over the statements of the service. -/
abbrev BudgetProg (α : Type) := Prog (TxOp BudgetOp) (TxRes BudgetRes) PyException α

/-- Issue one statement. -/
abbrev BudgetOp.ask (op : BudgetOp) : BudgetProg (BudgetRes op) := Engine.stmt op

namespace BudgetService

/-- The columns of an entry that come from its command. -/
def ledgerDraft (command : BudgetCommand) (period : PeriodKey) (entryType : LedgerEntryType)
    (amountMicros : ℤ) (contingency : Bool) (reason actor : String) : LedgerDraft where
  period := period
  applicationId := command.applicationId
  executionId := command.executionId
  entryType := entryType
  amountMicros := amountMicros
  contingency := contingency
  reason := reason
  actor := actor
  priceVersion := command.priceVersion

/-- `_append_ledger`: the reservation of the entry, and whether it is new. -/
def appendLedger (command : BudgetCommand) (period : PeriodKey) (entryType : LedgerEntryType)
    (amountMicros : ℤ) (reserveId : Option Uuid) (contingency : Bool) (reason : String)
    (actor : String := "system") : BudgetProg (Uuid × Bool) :=
  BudgetOp.ask (.appendLedger reserveId
    (ledgerDraft command period entryType amountMicros contingency reason actor))

/-- `_applicable_levels`. -/
def findLevels (command : BudgetCommand) : BudgetProg (List Level) := do
  let moment ← BudgetOp.ask .clock
  let rows ← BudgetOp.ask (.selectBudgets command.tenantId)
  match applicableLevels moment command rows with
  | .ok levels => return levels
  | .error e => throw e

/-- The alert of a reservation, if it is the first of its level and period. -/
def raiseAlert (command : BudgetCommand) (level : Level) (usedAfter : ℤ)
    (alert : Option AlertLevel) : BudgetProg (List String) :=
  match alert with
  | none => return []
  | some decision => do
    let inserted ← BudgetOp.ask
      (.insertAlert (level.key command.tenantId) decision usedAfter level.limitMicros)
    if inserted then return [level.scope.str ++ ":" ++ decision.str] else return []

/-- **`_reserve_level`**: the reservation, or none when the level rejects it. -/
def reserveLevel (command : BudgetCommand) (level : Level) :
    BudgetProg (Option (BudgetReservation × List String)) := do
  let key := level.key command.tenantId
  BudgetOp.ask (.ensureStateRow key)
  match ← BudgetOp.ask (.selectState key) with
  | none => throw (.other "AssertionError")
  | some state =>
    let effectiveLimit : ℤ := level.limitMicros + state.allowanceMicros
    let usedAfter := state.reservedMicros + state.consumedMicros + command.estimatedMicros
    match evaluateLevel usedAfter effectiveLimit with
    | .REJECT => return none
    | .allow alert =>
      match ← BudgetOp.ask (.reserveState key command.estimatedMicros effectiveLimit) with
      | none => return none
      | some _ =>
        let (entryId, _) ← appendLedger command key .RESERVE command.estimatedMicros none
          false ""
        let alerts ← raiseAlert command level usedAfter alert
        return some
          ({ budgetId := level.budgetId
             scope := level.scope
             periodKey := level.periodKey
             amountMicros := command.estimatedMicros
             ledgerEntryId := entryId }, alerts)

/-- `_compensate_level`. -/
def compensateLevel (command : BudgetCommand) (entry : BudgetReservation) :
    BudgetProg Unit := do
  let key := entry.key command.tenantId
  BudgetOp.ask (.changeState key (-entry.amountMicros) 0 0)
  let _ ← appendLedger command key .RELEASE entry.amountMicros (some entry.ledgerEntryId)
    entry.contingency "rejected downstream"
  return ()

/-- The loop of `reserve` over the levels: what was secured with its alerts,
and the level that rejected, if one did. -/
def reserveLevels (command : BudgetCommand) :
    List Level → List BudgetReservation → List String →
    BudgetProg (List BudgetReservation × List String × Option Level)
  | [], secured, alerts => return (secured, alerts, none)
  | level :: levels, secured, alerts => do
    match ← reserveLevel command level with
    | none => return (secured, alerts, some level)
    | some (reservation, levelAlerts) =>
      reserveLevels command levels (secured ++ [reservation]) (alerts ++ levelAlerts)

/-- The transaction of `reserve`: the bundle, or none when a level rejects. -/
def reserveTransaction (command : BudgetCommand) :
    BudgetProg (Option BudgetReservationBundle) := do
  let levels ← findLevels command
  let (secured, alerts, rejecting) ← reserveLevels command levels [] []
  match rejecting with
  | none => return some { command := command, entries := secured, alerts := alerts }
  | some level =>
    Prog.forEach (compensateLevel command) secured
    let _ ← appendLedger command (level.key command.tenantId) .REJECT command.estimatedMicros
      none false "limit exhausted"
    return none

/-- The draws of `_apply_unknown_policy`, until one is refused. -/
def drawLevels (command : BudgetCommand) :
    List Level → List BudgetReservation → BudgetProg (Option (List BudgetReservation))
  | [], entries => return some entries
  | level :: levels, entries => do
    let amount : ℤ := min command.estimatedMicros level.contingencyMicros
    let key := level.key command.tenantId
    match ← BudgetOp.ask (.drawContingency key amount level.contingencyMicros) with
    | none => return none
    | some _ =>
      let (entryId, _) ← appendLedger command key .RESERVE amount none true
        "contingency allowance after unknown budget state"
      drawLevels command levels (entries ++
        [{ budgetId := level.budgetId
           scope := level.scope
           periodKey := level.periodKey
           amountMicros := amount
           ledgerEntryId := entryId
           contingency := true }])

/-- The transaction of `_apply_unknown_policy`. -/
def unknownPolicyTransaction (command : BudgetCommand) :
    BudgetProg (Option BudgetReservationBundle) := do
  let levels ← findLevels command
  let contingent := levels.filter
    (fun level => level.unknownPolicy = .CONTINGENCY ∧ 0 < level.contingencyMicros)
  if contingent = [] then return none
  else
    match ← drawLevels command contingent [] with
    | none => return none
    | some entries => return some { command := command, entries := entries }

/-- Run a program, with `handle` for a `SQLAlchemyError`. -/
def exceptSqlAlchemy {α : Type} (p handle : BudgetProg α) : BudgetProg α :=
  tryCatch p (fun e => if e = .sqlAlchemy then handle else throw e)

/-- **`_apply_unknown_policy`.** -/
def applyUnknownPolicy (command : BudgetCommand) : BudgetProg (Option BudgetReservationBundle) :=
  exceptSqlAlchemy (Engine.transaction (unknownPolicyTransaction command)) (return none)

/-- The reservation when the outcome of its transaction is not known. -/
def recoverReserve (command : BudgetCommand) : BudgetProg (Option BudgetReservationBundle) := do
  match ← applyUnknownPolicy command with
  | some recovery => return some recovery
  | none => throw (.budgetStateUnknown "BUDGET_STATE_UNKNOWN")

/-- **`BudgetService.reserve`.** A rejection is raised only after its evidence
has been committed. -/
def reserve (command : BudgetCommand) : BudgetProg BudgetReservationBundle := do
  match ← exceptSqlAlchemy (Engine.transaction (reserveTransaction command))
      (recoverReserve command) with
  | some bundle => return bundle
  | none => throw (.budgetExceeded "BUDGET_EXCEEDED")

/-- One entry of a settlement; an entry already settled is left alone. -/
def settleEntry (command : BudgetCommand) (actual : Option ℤ) (entry : BudgetReservation) :
    BudgetProg Unit := do
  let charged := actual.getD entry.amountMicros
  let key := entry.key command.tenantId
  let (_, inserted) ← appendLedger command key .SETTLE charged (some entry.ledgerEntryId)
    entry.contingency ""
  if inserted then BudgetOp.ask (.changeState key (-entry.amountMicros) charged 0)
  else return ()

/-- **`BudgetService.settle`.** -/
def settle (bundle : BudgetReservationBundle) (actual : Option ℤ) : BudgetProg Unit :=
  Engine.transaction (Prog.forEach (settleEntry bundle.command actual) bundle.entries)

/-- One entry of a release; an entry already released is left alone. -/
def releaseEntry (command : BudgetCommand) (reason : String) (entry : BudgetReservation) :
    BudgetProg Unit := do
  let key := entry.key command.tenantId
  let (_, inserted) ← appendLedger command key .RELEASE entry.amountMicros
    (some entry.ledgerEntryId) entry.contingency reason
  if inserted then BudgetOp.ask (.changeState key (-entry.amountMicros) 0 0)
  else return ()

/-- **`BudgetService.release`.** -/
def release (bundle : BudgetReservationBundle) (reason : String) : BudgetProg Unit :=
  Engine.transaction (Prog.forEach (releaseEntry bundle.command reason) bundle.entries)

/-- The arguments of `adjust`. -/
structure Adjustment where
  tenantId : Uuid
  budgetId : Uuid
  deltaMicros : ℤ
  reason : String
  actor : String
  deriving DecidableEq, Repr

/-- **`BudgetService.adjust`**, at the moment the process has read before its
transaction. -/
def adjust (moment : Moment) (a : Adjustment) : BudgetProg Unit :=
  Engine.transaction do
    match ← BudgetOp.ask (.selectBudget a.tenantId a.budgetId) with
    | none => throw (.other "LookupError")
    | some budget =>
      if budget.scope = .EXECUTION then
        throw (.value "execution budgets are adjusted by reconfiguring the limit")
      else
        match periodKeyFor budget.scope moment none with
        | .error e => throw e
        | .ok periodKey =>
          let key : PeriodKey := ⟨a.tenantId, a.budgetId, periodKey⟩
          BudgetOp.ask (.ensureStateRow key)
          BudgetOp.ask (.changeState key 0 0 a.deltaMicros)
          let _ ← appendLedger
            { tenantId := a.tenantId, applicationId := budget.applicationId
              executionId := none, estimatedMicros := 0 }
            key .ADJUST (max a.deltaMicros 0) none false
            (a.reason ++ " (delta " ++ toString a.deltaMicros ++ ")") a.actor
          return ()

end BudgetService
