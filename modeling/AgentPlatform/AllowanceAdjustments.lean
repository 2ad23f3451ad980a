import AgentPlatform.AdminIdempotency
import AgentPlatform.BudgetAdmission
import AgentPlatform.Embedding

/-!
# Adjusting an allowance

An administrator may add to the allowance of a budget, or take from it, with a
request under an `Idempotency-Key`. The other commands look their key up, do
their work and record their response in one transaction. `adjust_budget` of
`admin_api/budgets.py` looks the key up in a first transaction, lets
`BudgetService.adjust` work in a second and reads the budget in a third; it
never records a response. So the key it has looked up is as free as before when
the request is sent again, and the allowance is adjusted again.

`adjustBudget` is the handler over the tables of the commands, with the program
of the service among its own, and `sendAdjustments` a client that sends one
request again and again. Each time a request is accepted it adds to the
allowance and to the ledger (`serving_adjustBudget`), so what a client has asked
for happens once exactly when it asks once (`adjusted_once_iff`).
-/

open BudgetService

/-! ## The request -/

/-- What the handler answers: a recorded response, or the row of the budget. -/
inductive AdjustmentResponse where
  | replayed (response : Json)
  | budget (row : Budget)

theorem isNumber_toString (n : ℤ) : Json.isNumber (toString n) = true := by
  have hdigits : ∀ m : ℕ, (Nat.repr m).toList ≠ []
      ∧ ∀ c ∈ (Nat.repr m).toList, Json.isNumberChar c = true := by
    intro m
    have hlist : (Nat.repr m).toList = Nat.toDigits 10 m := String.toList_ofList
    rw [hlist]
    refine ⟨Nat.toDigits_ne_nil, fun c hc => ?_⟩
    rw [Json.isNumberChar, Nat.isDigit_of_mem_toDigits (by decide) (by decide) hc, Bool.true_or]
  have hall : ∀ l : List Char, l ≠ [] → (∀ c ∈ l, Json.isNumberChar c = true) →
      (!l.isEmpty && l.all Json.isNumberChar) = true := by
    intro l hl hc
    rw [List.isEmpty_eq_false_iff.mpr hl, List.all_eq_true.mpr hc]
    rfl
  cases n with
  | ofNat m => exact hall _ (hdigits m).1 (hdigits m).2
  | negSucc m =>
    have hlist : (toString (Int.negSucc m)).toList = '-' :: (Nat.repr (m + 1)).toList := by
      show ("-" ++ Nat.repr (m + 1)).toList = _
      rw [String.toList_append]
      rfl
    unfold Json.isNumber
    rw [hlist]
    refine hall _ (List.cons_ne_nil _ _) (fun c hc => ?_)
    rcases List.mem_cons.mp hc with rfl | hc
    · decide
    · exact (hdigits (m + 1)).2 c hc

/-- The answer to a statement of a handler's own. -/
def ownAnswer {Own : Type} {OwnRes : Own → Type} (op : Own)
    (r : CommandRes OwnRes (.own op)) : OwnRes op := r

/-- A program over the tables of a handler, on the tables of the commands. -/
abbrev onTables {Own : Type} {OwnRes : Own → Type} {α : Type}
    (p : Prog (TxOp Own) (TxRes OwnRes) PyException α) : CommandProg OwnRes α :=
  p.embed (Engine.statements CommandOp.own) (Engine.answers ownAnswer)

section Handler

variable (sha256 : String → String) (uuidText : Uuid → String)

/-- The payload whose hash the key stands for. -/
def adjustmentPayload (a : Adjustment) : JsonDoc :=
  ⟨.obj [("tenant_id", .str (uuidText a.tenantId)), ("budget_id", .str (uuidText a.budgetId)),
    ("delta_micros", .num (toString a.deltaMicros)), ("reason", .str a.reason)],
    trivial, trivial, isNumber_toString a.deltaMicros, trivial, trivial⟩

/-- The command the key is looked up for. The transaction of the lookup does
nothing else. -/
def adjustmentCommand (key : String) (a : Adjustment) : CommandRequest BudgetOp BudgetRes where
  actor := a.actor
  key := key
  operation := "budget.adjust"
  payload := adjustmentPayload uuidText a
  work := .ret .null

/-- **`adjust_budget`**, sent at a moment. -/
def adjustBudget (key : String) (a : Adjustment) (moment : Moment) :
    CommandProg BudgetRes AdjustmentResponse := do
  let replayed ← Engine.transaction (replayFor sha256 (adjustmentCommand uuidText key a))
  match replayed with
  | some response => return .replayed response
  | none => do
    tryCatch (onTables (adjust moment a)) (fun e =>
      if e = .other "LookupError" then throw (httpException 404 "budget not found") else throw e)
    let row ← onTables (Engine.transaction (BudgetOp.ask (.selectBudget a.tenantId a.budgetId)))
    match row with
    | none => throw (.other "AssertionError")
    | some row => return .budget row

/-- **A client that sends the request again and again**, whatever it is answered. -/
def sendAdjustments (key : String) (a : Adjustment) (moments : List Moment) :
    CommandProg BudgetRes Unit :=
  Prog.forEach (fun moment =>
    tryCatch ((adjustBudget sha256 uuidText key a moment).bind (fun _ => .ret ()))
      (fun _ => .ret ())) moments

end Handler

/-! ## What an adjustment changes -/

namespace BudgetService.Adjustment

/-- The reason as it stands in the ledger. -/
def ledgerReason (a : Adjustment) : String :=
  a.reason ++ " (delta " ++ toString a.deltaMicros ++ ")"

/-- The period of a budget that is adjusted at a moment. -/
def period (a : Adjustment) (budget : Budget) (moment : Moment) : PeriodKey :=
  ⟨a.tenantId, a.budgetId, (periodKeyFor budget.scope moment none).toOption.getD ""⟩

/-- **The service accepts an adjustment**: it finds the budget, which has a
period of its own, and the entry fits the ledger. -/
structure Accepted (a : Adjustment) (db : BudgetDb) (budget : Budget) : Prop where
  found : db.budgets.find? (fun b => b.tenantId = a.tenantId ∧ b.id = a.budgetId) = some budget
  scope : budget.scope ≠ .EXECUTION
  reason : a.ledgerReason.length ≤ 500
  actor_pos : 1 ≤ a.actor.length
  actor_le : a.actor.length ≤ 256

/-- **An adjustment has happened once**: the allowance of one period is changed
by the delta, and the ledger has one entry more. -/
structure Once (a : Adjustment) (key : PeriodKey) (before after : BudgetDb) : Prop where
  allowance : ∀ k, (after.rowAt k).allowanceMicros
    = (before.rowAt k).allowanceMicros + if k = key then a.deltaMicros else 0
  entry : ∃ e : LedgerEntry, after.ledger = before.ledger ++ [e] ∧ e.entryType = .ADJUST
    ∧ e.period = key

end BudgetService.Adjustment

/-- A budget with periods of its own has one at every moment, whose key fits its
column. -/
theorem periodKeyFor_none {scope : BudgetScope} (h : scope ≠ .EXECUTION) (moment : Moment) :
    ∃ periodKey, periodKeyFor scope moment none = .ok periodKey ∧ 1 ≤ periodKey.length
      ∧ periodKey.length ≤ 64 := by
  cases scope with
  | TENANT_MONTHLY => exact ⟨_, rfl, length_monthlyPeriodKey moment⟩
  | AGENT_DAILY => exact ⟨_, rfl, length_dailyPeriodKey moment⟩
  | EXECUTION => exact absurd rfl h

/-- **What the transaction of the service ends with**, on the budget tables and
the identifiers drawn. -/
inductive AdjustmentRun (a : Adjustment) (moment : Moment) (db : BudgetDb) (x : Uuid) :
    Except PyException Unit × (BudgetDb × Uuid) → Prop
  | adjusted {budget : Budget} {db' : BudgetDb} (haccepted : a.Accepted db budget)
      (hbudgets : db'.budgets = db.budgets)
      (honce : (∀ e ∈ db.ledger, e.reserveId < x) → a.Once (a.period budget moment) db db'
        ∧ ∀ e ∈ db'.ledger, e.reserveId < x + 1) :
      AdjustmentRun a moment db x (.ok (), db', x + 1)
  | refused {e : PyException} {v : BudgetDb × Uuid} (hrefused : ∀ budget, ¬ a.Accepted db budget)
      (hx : x ≤ v.2) : AdjustmentRun a moment db x (.error e, v)

section Service

variable {moment : Moment} {db : BudgetDb} {x : Uuid}

/-- The row of a period with an amount added to its allowance. -/
theorem PeriodState.change?_allowance (row : PeriodState) (delta : ℤ) :
    ∃ row', row.change? 0 0 delta 0 = some row'
      ∧ row'.allowanceMicros = row.allowanceMicros + delta := by
  have hall : 0 ≤ row.reservedMicros + 0 ∧ 0 ≤ row.consumedMicros + 0
      ∧ 0 ≤ row.contingencyReservedMicros + 0 := by
    simp only [add_zero]
    exact ⟨row.reserved_nonneg, row.consumed_nonneg, row.contingency_nonneg⟩
  exact ⟨_, dif_pos hall, rfl⟩

/-- The entry of an adjustment. -/
def adjustmentDraft (a : Adjustment) (budget : Budget) (key : PeriodKey) : LedgerDraft :=
  ledgerDraft
    { tenantId := a.tenantId, applicationId := budget.applicationId
      executionId := none, estimatedMicros := 0 }
    key .ADJUST (max a.deltaMicros 0) false a.ledgerReason a.actor

theorem adjustmentDraft_valid {a : Adjustment} {budget : Budget} {key : PeriodKey} :
    (adjustmentDraft a budget key).valid = true ↔ a.ledgerReason.length ≤ 500
      ∧ 1 ≤ a.actor.length ∧ a.actor.length ≤ 256 := by
  refine decide_eq_true_iff.trans (and_iff_right ?_)
  exact le_max_right _ _

/-- The statements on the period of a budget that is found. -/
def periodStatements (a : Adjustment) (budget : Budget) (key : PeriodKey) : BudgetProg Unit :=
  (BudgetOp.ask (.ensureStateRow key)).bind (fun _ =>
    (BudgetOp.ask (.changeState key 0 0 a.deltaMicros)).bind (fun _ =>
      (BudgetOp.ask (.appendLedger none (adjustmentDraft a budget key))).bind (fun _ => .ret ())))

/-- The tables after them. -/
def adjustedTables (a : Adjustment) (budget : Budget) (key : PeriodKey) (row' : PeriodState)
    (db : BudgetDb) (x : Uuid) : BudgetDb :=
  ((BudgetWrite.setState key row').apply (db.ensured key)).withEntry
    ⟨adjustmentDraft a budget key, x⟩

variable (moment x) in
theorem onView_periodStatements (a : Adjustment) (budget : Budget) {key : PeriodKey}
    (hfits : keyFits db key = true) (hbudget : budgetOf db key = true) :
    ((adjustmentDraft a budget key).valid = false ∧ ∃ e v, x ≤ v.2
      ∧ onView moment (periodStatements a budget key) (db, x) = (.error e, v))
    ∨ ((adjustmentDraft a budget key).valid = true ∧ ∃ row' : PeriodState,
      row'.allowanceMicros = (db.rowAt key).allowanceMicros + a.deltaMicros
      ∧ onView moment (periodStatements a budget key) (db, x)
        = (.ok (), adjustedTables a budget key row' db x, x + 1)) := by
  obtain ⟨row', hchange, hallowance⟩ := (db.rowAt key).change?_allowance a.deltaMicros
  have hensure := onView_ensure moment x hfits hbudget
  have hupdate := onView_changeState moment x (db.ensured_states_self key) hchange
  unfold periodStatements
  rw [onView, Prog.within_bind_ok hensure, Prog.within_bind_ok hupdate]
  cases hvalid : (adjustmentDraft a budget key).valid with
  | false =>
    refine .inl ⟨rfl, _, _, ?_, Prog.within_bind_error
      (Prod.ext (onView_append_error hvalid) rfl) _⟩
    show x ≤ (onView moment (BudgetOp.ask _) (_, x)).2.2
    rw [onView_ask]
    exact Nat.le_succ x
  | true =>
    obtain ⟨new, happend⟩ := onView_append moment
      ((BudgetWrite.setState key row').apply (db.ensured key)) x none hvalid
    exact .inr ⟨rfl, row', hallowance, Prog.within_bind_ok happend _⟩

/-- What has happened to the period of an accepted adjustment. -/
theorem once_adjustedTables {a : Adjustment} {budget : Budget} {key : PeriodKey}
    {row' : PeriodState}
    (hallowance : row'.allowanceMicros = (db.rowAt key).allowanceMicros + a.deltaMicros)
    (hfresh : ∀ e ∈ db.ledger, e.reserveId < x) :
    a.Once key db (adjustedTables a budget key row' db x)
      ∧ ∀ e ∈ (adjustedTables a budget key row' db x).ledger, e.reserveId < x + 1 := by
  have hledger : (adjustedTables a budget key row' db x).ledger
      = db.ledger ++ [⟨adjustmentDraft a budget key, x⟩] := by
    refine (BudgetDb.withEntry_ledger (fun e he hid => ?_)).trans
      (congrArg (· ++ _) (db.ensured_ledger key))
    have he' : e ∈ db.ledger := (db.ensured_ledger key) ▸ he
    exact absurd hid (ne_of_lt (hfresh e he'))
  refine ⟨⟨fun k => ?_, _, hledger, rfl, rfl⟩, fun e he => ?_⟩
  · rw [BudgetDb.rowAt, adjustedTables, BudgetDb.withEntry_states]
    show ((Function.update (db.ensured key).states key (some row') k).getD .zero).allowanceMicros
      = _
    by_cases hk : k = key
    · subst hk
      rw [Function.update_self, if_pos rfl]
      exact hallowance
    · rw [Function.update_of_ne hk, if_neg hk, db.ensured_states_of_ne hk, add_zero]
      rfl
  · rw [hledger] at he
    rcases List.mem_append.mp he with he | he
    · exact (hfresh e he).trans (Nat.lt_succ_self x)
    · obtain rfl := List.mem_singleton.mp he
      exact Nat.lt_succ_self x

theorem budgets_adjustedTables (a : Adjustment) (budget : Budget) (key : PeriodKey)
    (row' : PeriodState) (db : BudgetDb) (x : Uuid) :
    (adjustedTables a budget key row' db x).budgets = db.budgets := by
  rw [adjustedTables, BudgetDb.withEntry_budgets]
  exact (Moved.ensured db key).budgets

/-- **The transaction of the service, alone.** -/
theorem adjust_transaction (moment : Moment) (a : Adjustment) :
    ∃ body, adjust moment a = Engine.transaction body ∧ Engine.Body body
      ∧ ∀ m db x, AdjustmentRun a moment db x (onView m body (db, x)) := by
  refine ⟨_, rfl, ?_, fun m db x => ?_⟩
  · refine (Engine.body_stmt _).bind (fun found => ?_)
    cases found with
    | none => exact Engine.body_raise _
    | some budget =>
      show Engine.Body (if _ then _ else _)
      split
      · exact Engine.body_raise _
      · dsimp only
        split
        · exact Engine.body_raise _
        · exact (Engine.body_stmt _).bind (fun _ => (Engine.body_stmt _).bind (fun _ =>
            (Engine.body_stmt _).bind (fun _ => Engine.body_ret _)))
  · have hselect : onView m (BudgetOp.ask (.selectBudget a.tenantId a.budgetId)) (db, x)
        = (.ok (db.budgets.find? (fun b => b.tenantId = a.tenantId ∧ b.id = a.budgetId)), db, x) :=
      onView_ask m db x _
    show AdjustmentRun a moment db x (onView m (Prog.bind (BudgetOp.ask _) _) (db, x))
    rw [onView, Prog.within_bind_ok hselect]
    cases hfound : db.budgets.find? (fun b => b.tenantId = a.tenantId ∧ b.id = a.budgetId) with
    | none =>
      refine .refused (fun budget h => ?_) (le_refl x)
      rw [h.found] at hfound
      cases hfound
    | some budget =>
      by_cases hscope : budget.scope = .EXECUTION
      · show AdjustmentRun a moment db x (Prog.within _ (if budget.scope = .EXECUTION then _
          else _) (db, x))
        rw [if_pos hscope]
        refine .refused (fun budget' h => ?_) (le_refl x)
        obtain rfl := Option.some.inj (hfound.symm.trans h.found)
        exact h.scope hscope
      · obtain ⟨periodKey, hperiod, hpos, hle⟩ := periodKeyFor_none hscope moment
        have hkey : a.period budget moment = ⟨a.tenantId, a.budgetId, periodKey⟩ := by
          rw [Adjustment.period, hperiod]
          rfl
        have hfits : keyFits db ⟨a.tenantId, a.budgetId, periodKey⟩ = true := by
          rw [keyFits, decide_eq_true hpos, decide_eq_true hle]
          exact Bool.or_true _
        have hmatch := List.find?_some hfound
        have hbudget : budgetOf db ⟨a.tenantId, a.budgetId, periodKey⟩ = true :=
          List.any_eq_true.mpr ⟨budget, List.mem_of_find?_eq_some hfound, hmatch⟩
        show AdjustmentRun a moment db x (Prog.within _ (if budget.scope = .EXECUTION then _
          else _) (db, x))
        rw [if_neg hscope, hperiod]
        show AdjustmentRun a moment db x (onView m (periodStatements a budget _) (db, x))
        obtain ⟨hvalid, e, v, hx, hrun⟩ | ⟨hvalid, row', hallowance, hrun⟩ :=
          onView_periodStatements m x a budget hfits hbudget
        · refine hrun ▸ AdjustmentRun.refused (fun budget' h => ?_) hx
          rw [adjustmentDraft_valid.mpr ⟨h.reason, h.actor_pos, h.actor_le⟩] at hvalid
          cases hvalid
        · obtain ⟨hreason, hactor, hactor'⟩ := adjustmentDraft_valid.mp hvalid
          refine hrun ▸ AdjustmentRun.adjusted ⟨hfound, hscope, hreason, hactor, hactor'⟩
            (budgets_adjustedTables ..) (fun hfresh => ?_)
          rw [hkey]
          exact once_adjustedTables hallowance hfresh

end Service
/-! ## Statements of the commands, alone -/

section Commands

variable {Own : Type} {OwnRes : Own → Type} {A D W K X : Type}
  {N : Engine Own OwnRes PyException A D W K X}

theorem commandEngine_blind (hblind : N.Blind) : (commandEngine N).Blind := by
  intro a op free db x
  cases op with
  | own op =>
    show _ = ((N.exec a op (fun _ => true) db.own x).1,
      (N.exec a op (fun _ => true) db.own x).2.1.map CommandWrite.own,
      (N.exec a op (fun _ => true) db.own x).2.2)
    rw [← hblind a op (fun k => free (.own k))]
    rfl
  | lockKey actor key => rfl
  | selectRecord actor key => rfl
  | insertRecord record => rfl

theorem applyAll_own (ws : List W) (db : CommandDb D) :
    (commandEngine N).applyAll (ws.map CommandWrite.own) db
      = { db with own := N.applyAll ws db.own } := by
  induction ws generalizing db with
  | nil => rfl
  | cons w ws ih => exact ih _

/-- A request over the tables of a handler; the ledger of keys stays. -/
theorem alone_own (a : A) (op : TxOp Own) (v : CommandDb D × X) :
    ((((commandEngine N).alone a (Engine.statements CommandOp.own op) v).1.map
        (Engine.answers ownAnswer op),
      (((commandEngine N).alone a (Engine.statements CommandOp.own op) v).2.1.own,
        ((commandEngine N).alone a (Engine.statements CommandOp.own op) v).2.2))
      = N.alone a op (v.1.own, v.2))
    ∧ ((commandEngine N).alone a (Engine.statements CommandOp.own op) v).2.1.records
      = v.1.records := by
  cases op with
  | run op =>
    have happly := applyAll_own (N := N) (N.exec a op (fun _ => true) v.1.own v.2).2.1 v.1
    constructor
    · show (Except.map (fun r => r) (N.exec a op (fun _ => true) v.1.own v.2).1,
        (((commandEngine N).applyAll
          ((N.exec a op (fun _ => true) v.1.own v.2).2.1.map CommandWrite.own) v.1).own, _))
        = ((N.exec a op (fun _ => true) v.1.own v.2).1, _)
      rw [happly]
      cases (N.exec a op (fun _ => true) v.1.own v.2).1 with
      | ok r => rfl
      | error e => rfl
    · show ((commandEngine N).applyAll
        ((N.exec a op (fun _ => true) v.1.own v.2).2.1.map CommandWrite.own) v.1).records = _
      rw [happly]
  | begin => exact ⟨rfl, rfl⟩
  | commit => exact ⟨rfl, rfl⟩
  | rollback => exact ⟨rfl, rfl⟩

/-- **A program over the tables of a handler runs as it does on them.** -/
theorem within_onTables {α : Type} (a : A) (p : Prog (TxOp Own) (TxRes OwnRes) PyException α)
    (v : CommandDb D × X) :
    (((onTables p).within ((commandEngine N).alone a) v).1,
      (((onTables p).within ((commandEngine N).alone a) v).2.1.own,
        ((onTables p).within ((commandEngine N).alone a) v).2.2))
      = p.within (N.alone a) (v.1.own, v.2)
    ∧ ((onTables p).within ((commandEngine N).alone a) v).2.1.records = v.1.records :=
  Prog.within_embed (fun v : CommandDb D × X => (v.1.own, v.2)) (fun v => v.1.records)
    (alone_own a) p v

theorem body_replayFor (sha256 : String → String) (c : CommandRequest Own OwnRes) :
    Engine.Body (replayFor sha256 c) := by
  refine (Engine.body_stmt _).bind (fun _ => (Engine.body_stmt _).bind (fun row => ?_))
  cases row with
  | none => exact Engine.body_ret _
  | some row =>
    show Engine.Body (if _ then _ else _)
    split
    · exact Engine.body_raise _
    · exact Engine.body_ret _

/-- What the lookup of a key finds. -/
def lookup (sha256 : String → String) (c : CommandRequest Own OwnRes) (db : CommandDb D) :
    Except PyException (Option Json) :=
  match db.record c.actor c.key with
  | none => .ok none
  | some row =>
    if row.operation ≠ c.operation ∨ row.requestHash ≠ requestHash sha256 c.payload then
      .error idempotencyConflict
    else .ok (some row.response)

theorem within_replayFor (sha256 : String → String) (c : CommandRequest Own OwnRes) (a : A)
    (v : CommandDb D × X) :
    (replayFor sha256 c).within ((commandEngine N).alone a) v = (lookup sha256 c v.1, v) := by
  have hselect : (commandStmt (.selectRecord c.actor c.key) : CommandProg OwnRes _).within
      ((commandEngine N).alone a) v = (.ok (v.1.record c.actor c.key), v) :=
    (commandEngine N).within_stmt a _ v
  have hlock : (commandStmt (.lockKey c.actor c.key) : CommandProg OwnRes _).within
      ((commandEngine N).alone a) v = (.ok (), v) :=
    (commandEngine N).within_stmt a _ v
  refine (Prog.within_bind_ok hlock _).trans ((Prog.within_bind_ok hselect _).trans ?_)
  unfold lookup
  cases v.1.record c.actor c.key with
  | none => rfl
  | some row =>
    show Prog.within _ (if row.operation ≠ c.operation
        ∨ row.requestHash ≠ requestHash sha256 c.payload then _ else _) v
      = (if row.operation ≠ c.operation
        ∨ row.requestHash ≠ requestHash sha256 c.payload then _ else _, v)
    by_cases h : row.operation ≠ c.operation ∨ row.requestHash ≠ requestHash sha256 c.payload
    · rw [if_pos h, if_pos h]
      rfl
    · rw [if_neg h, if_neg h]
      rfl

end Commands

/-! ## Sending the request -/

section Send

variable (sha256 : String → String) (uuidText : Uuid → String) (key : String) (a : Adjustment)

/-- The database of the commands, over the budget tables. -/
abbrev AdjustmentState := CommandState BudgetDb BudgetWrite BudgetRow Uuid

/-- **What sending the request once does** to the budget tables and the
identifiers drawn: the adjustment happens, or nothing does. -/
inductive AdjustmentSent (moment : Moment) (db : CommandDb BudgetDb) (x : Uuid) :
    BudgetDb → Uuid → Prop
  | adjusted {budget : Budget} {db' : BudgetDb} (hfree : db.record a.actor key = none)
      (haccepted : a.Accepted db.own budget) (hbudgets : db'.budgets = db.own.budgets)
      (honce : (∀ e ∈ db.own.ledger, e.reserveId < x) → a.Once (a.period budget moment) db.own db'
        ∧ ∀ e ∈ db'.ledger, e.reserveId < x + 1) :
      AdjustmentSent moment db x db' (x + 1)
  | refused {x' : Uuid}
      (hrefused : db.record a.actor key = none → ∀ budget, ¬ a.Accepted db.own budget)
      (hx : x ≤ x') : AdjustmentSent moment db x db.own x'

variable {pid : ℕ} {m : Moment}

/-- **A transaction over the budget tables, among those of the commands.** -/
theorem serving_onTables {α : Type} {body : BudgetProg α} (hbody : Engine.Body body)
    {s : AdjustmentState} (hsole : Engine.Sole pid s) {r : Except PyException α}
    {db' : BudgetDb} {x' : Uuid} (hrun : onView m body (s.committed.own, s.ext) = (r, db', x')) :
    ∃ s', (onTables (Engine.transaction body)).serving
        ((commandEngine budgetEngine).handler pid (.serve m)) s = some (r, s')
      ∧ ((∃ u, r = .ok u) → s'.committed.own = db')
      ∧ ((∃ e, r = .error e) → s'.committed.own = s.committed.own)
      ∧ s'.committed.records = s.committed.records ∧ s'.ext = x' ∧ Engine.Sole pid s' := by
  obtain ⟨hview, hrecords⟩ := within_onTables (N := budgetEngine) m body (s.committed, s.ext)
  obtain ⟨s', hserved, hcommitted, hsole', hext⟩ := Engine.serving_transaction
    (commandEngine_blind budgetEngine_blind) m (hbody.embed ownAnswer) hsole
  have hview' := hview.trans hrun
  generalize (onTables body).within ((commandEngine budgetEngine).alone m)
    (s.committed, s.ext) = out at *
  obtain ⟨r', db, x⟩ := out
  cases hview'
  rw [onTables, Engine.embed_transaction]
  cases r' with
  | ok u =>
    obtain rfl : s'.committed = db := hcommitted
    exact ⟨s', hserved, fun _ => rfl, fun ⟨_, he⟩ => (nomatch he), hrecords, hext, hsole'⟩
  | error e =>
    have hsame : s'.committed = s.committed := hcommitted
    exact ⟨s', hserved, fun ⟨_, hu⟩ => (nomatch hu), fun _ => congrArg CommandDb.own hsame,
      congrArg CommandDb.records hsame, hext, hsole'⟩

/-- The key is free when its lookup finds nothing, and only then. -/
theorem lookup_none {db : CommandDb BudgetDb} :
    lookup sha256 (adjustmentCommand uuidText key a) db = .ok none
      ↔ db.record a.actor key = none := by
  unfold lookup
  show (match db.record a.actor key with
    | none => _
    | some row => if _ then _ else _) = _ ↔ _
  cases db.record a.actor key with
  | none => exact iff_of_true rfl rfl
  | some row =>
    refine iff_of_false (fun h => ?_) (Option.some_ne_none row)
    dsimp only at h
    split at h <;> cases h

/-- **Sending the request once.** -/
theorem serving_adjustBudget {s : AdjustmentState} (hsole : Engine.Sole pid s) (moment : Moment) :
    ∃ r s', (adjustBudget sha256 uuidText key a moment).serving
        ((commandEngine budgetEngine).handler pid (.serve m)) s = some (r, s')
      ∧ AdjustmentSent key a moment s.committed s.ext s'.committed.own s'.ext
      ∧ s'.committed.records = s.committed.records ∧ Engine.Sole pid s' := by
  obtain ⟨s₁, hlooked, hcommitted, hsole₁, hext⟩ := Engine.serving_transaction
    (commandEngine_blind budgetEngine_blind) m
    (body_replayFor sha256 (adjustmentCommand uuidText key a)) hsole
  rw [within_replayFor] at hlooked hcommitted hext
  have hsame : s₁.committed = s.committed := by
    rw [hcommitted]
    split <;> rfl
  -- A key that is taken ends the request, with the recorded response or a conflict.
  have htaken : lookup sha256 (adjustmentCommand uuidText key a) s.committed ≠ .ok none →
      AdjustmentSent key a moment s.committed s.ext s₁.committed.own s₁.ext := by
    intro hne
    rw [hsame, hext]
    exact .refused (fun hnone => absurd ((lookup_none ..).mpr hnone) hne) (le_refl _)
  generalize hfound : lookup sha256 (adjustmentCommand uuidText key a) s.committed = found
    at hlooked htaken
  have hrecords₁ := congrArg CommandDb.records hsame
  match found with
  | .error e =>
    exact ⟨_, s₁, Prog.serving_bind_error hlooked _, htaken nofun, hrecords₁, hsole₁⟩
  | .ok (some response) =>
    exact ⟨_, s₁, Prog.serving_bind_ok hlooked _, htaken nofun, hrecords₁, hsole₁⟩
  | .ok none =>
    have hfree := (lookup_none ..).mp hfound
    obtain ⟨body, hadjust, hbody, hrun⟩ := adjust_transaction moment a
    have hrun' := hrun m s₁.committed.own s₁.ext
    generalize hout : onView m body (s₁.committed.own, s₁.ext) = out at hrun'
    obtain ⟨r, db', x'⟩ := out
    obtain ⟨s₂, hserved, hok, herror, hrecords₂, hext₂, hsole₂⟩ :=
      serving_onTables hbody hsole₁ hout
    rw [← hadjust] at hserved
    have hrecords₂' := hrecords₂.trans hrecords₁
    rw [hsame, hext] at hrun'
    cases hrun' with
    | @refused e _ hrefused hx =>
      have hown : s₂.committed.own = s.committed.own :=
        (herror ⟨e, rfl⟩).trans (congrArg CommandDb.own hsame)
      refine ⟨.error (if e = .other "LookupError" then httpException 404 "budget not found"
        else e), s₂, ?_, ?_, hrecords₂', hsole₂⟩
      · refine (Prog.serving_bind_ok hlooked _).trans (Prog.serving_bind_error ?_ _)
        refine (Prog.serving_tryCatch_error hserved _).trans ?_
        split <;> rfl
      · rw [hown, hext₂]
        exact .refused (fun _ => hrefused) hx
    | @adjusted budget _ haccepted hbudgets honce =>
      -- The handler reads the budget of the adjustment back.
      obtain ⟨s₃, hselect, hok₃, -, hrecords₃, hext₃, hsole₃⟩ := serving_onTables
        (m := m) (Engine.body_stmt (BudgetOp.selectBudget a.tenantId a.budgetId)) hsole₂
        (onView_ask m s₂.committed.own s₂.ext _)
      have hown₃ : s₃.committed.own = db' := (hok₃ ⟨_, rfl⟩).trans (hok ⟨_, rfl⟩)
      refine ⟨.ok (.budget budget), s₃, ?_, ?_, hrecords₃.trans hrecords₂', hsole₃⟩
      · refine (Prog.serving_bind_ok hlooked _).trans ?_
        refine (Prog.serving_bind_ok (Prog.serving_tryCatch_ok hserved _) _).trans ?_
        refine (Prog.serving_bind_ok hselect _).trans ?_
        have hfound₃ : s₂.committed.own.budgets.find?
            (fun b => b.tenantId = a.tenantId ∧ b.id = a.budgetId) = some budget := by
          rw [hok ⟨_, rfl⟩, hbudgets]
          exact haccepted.found
        rw [hfound₃]
        rfl
      · rw [hown₃, hext₃, hext₂]
        exact .adjusted hfree haccepted hbudgets honce

/-! ## Sending it again -/

namespace BudgetService.Adjustment

variable {a}

theorem Accepted.of_budgets {db db' : BudgetDb} {budget : Budget} (h : a.Accepted db budget)
    (hbudgets : db'.budgets = db.budgets) : a.Accepted db' budget where
  found := hbudgets ▸ h.found
  scope := h.scope
  reason := h.reason
  actor_pos := h.actor_pos
  actor_le := h.actor_le

theorem Accepted.unique {db : BudgetDb} {budget budget' : Budget} (h : a.Accepted db budget)
    (h' : a.Accepted db budget') : budget' = budget :=
  Option.some.inj (h'.found.symm.trans h.found)

variable (a)

/-- The times a period has been the one to adjust. -/
def times (budget : Budget) (moments : List Moment) (k : PeriodKey) : ℕ :=
  moments.countP (fun moment => a.period budget moment = k)

/-- **An adjustment has happened at each of the moments.** -/
structure Each (budget : Budget) (moments : List Moment) (before after : BudgetDb) : Prop where
  allowance : ∀ k, (after.rowAt k).allowanceMicros
    = (before.rowAt k).allowanceMicros + a.times budget moments k * a.deltaMicros
  entries : ∃ es : List LedgerEntry, after.ledger = before.ledger ++ es
    ∧ es.map (fun e => (e.entryType, e.period))
      = moments.map (fun moment => (.ADJUST, a.period budget moment))

variable {a}

theorem Each.cons {budget : Budget} {moment : Moment} {moments : List Moment}
    {before mid after : BudgetDb} (h : a.Once (a.period budget moment) before mid)
    (h' : a.Each budget moments mid after) : a.Each budget (moment :: moments) before after where
  allowance k := by
    rw [h'.allowance, h.allowance, times, times, List.countP_cons]
    by_cases hk : k = a.period budget moment
    · rw [if_pos hk, if_pos (decide_eq_true hk.symm), Nat.cast_add, Nat.cast_one, add_mul, one_mul,
        add_assoc, add_comm a.deltaMicros]
    · rw [if_neg hk, if_neg (fun h => hk (of_decide_eq_true h).symm), add_zero, add_zero]
  entries := by
    obtain ⟨e, he, htype, hperiod⟩ := h.entry
    obtain ⟨es, hes, hmap⟩ := h'.entries
    refine ⟨e :: es, ?_, ?_⟩
    · rw [hes, he, List.append_assoc]
      rfl
    · rw [List.map_cons, List.map_cons, hmap, htype, hperiod]

/-- At one moment, it has happened once. -/
theorem Each.once {budget : Budget} {moment : Moment} {before after : BudgetDb}
    (h : a.Each budget [moment] before after) :
    a.Once (a.period budget moment) before after where
  allowance k := by
    rw [h.allowance, times, List.countP_singleton]
    by_cases hk : k = a.period budget moment
    · rw [if_pos hk, if_pos (decide_eq_true hk.symm), Nat.cast_one, one_mul]
    · rw [if_neg hk, if_neg (fun h => hk (of_decide_eq_true h).symm), Nat.cast_zero, zero_mul]
  entry := by
    obtain ⟨es, hes, hmap⟩ := h.entries
    match es with
    | [] => cases hmap
    | [e] =>
      obtain ⟨htype, hperiod⟩ := Prod.ext_iff.mp (List.singleton_inj.mp hmap)
      exact ⟨e, hes, htype, hperiod⟩
    | e :: e' :: es => exact absurd (congrArg List.length hmap) (by simp)

/-- As many entries as moments are new. -/
theorem Each.length {budget : Budget} {moments : List Moment} {before after : BudgetDb}
    (h : a.Each budget moments before after) :
    after.ledger.length = before.ledger.length + moments.length := by
  obtain ⟨es, hes, hmap⟩ := h.entries
  have hlength := congrArg List.length hmap
  rw [List.length_map, List.length_map] at hlength
  rw [hes, List.length_append, hlength]

end BudgetService.Adjustment

/-- One request of the client, whatever it is answered. -/
theorem serving_sendAdjustments_cons {s : AdjustmentState} {moment : Moment}
    {moments : List Moment} {r : Except PyException AdjustmentResponse} {s₁ : AdjustmentState}
    (hsent : (adjustBudget sha256 uuidText key a moment).serving
      ((commandEngine budgetEngine).handler pid (.serve m)) s = some (r, s₁)) :
    (sendAdjustments sha256 uuidText key a (moment :: moments)).serving
        ((commandEngine budgetEngine).handler pid (.serve m)) s
      = (sendAdjustments sha256 uuidText key a moments).serving
        ((commandEngine budgetEngine).handler pid (.serve m)) s₁ := by
  cases r with
  | ok response =>
    exact Prog.serving_bind_ok (Prog.serving_tryCatch_ok (Prog.serving_bind_ok hsent _) _) _
  | error e =>
    exact Prog.serving_bind_ok
      (Prog.serving_tryCatch_error (Prog.serving_bind_error hsent _) _) _

/-- **A request that is accepted adjusts the allowance each time it is sent.** -/
theorem serving_accepted {budget : Budget} (moments : List Moment) {s : AdjustmentState}
    (hsole : Engine.Sole pid s) (hfree : s.committed.record a.actor key = none)
    (haccepted : a.Accepted s.committed.own budget)
    (hfresh : ∀ e ∈ s.committed.own.ledger, e.reserveId < s.ext) :
    ∃ s', (sendAdjustments sha256 uuidText key a moments).serving
        ((commandEngine budgetEngine).handler pid (.serve m)) s = some (.ok (), s')
      ∧ a.Each budget moments s.committed.own s'.committed.own := by
  induction moments generalizing s with
  | nil =>
    refine ⟨s, rfl, ⟨fun k => ?_, [], (List.append_nil _).symm, rfl⟩⟩
    rw [Adjustment.times, List.countP_nil, Nat.cast_zero, zero_mul, add_zero]
  | cons moment moments ih =>
    obtain ⟨r, s₁, hserved, hsent, hrecords, hsole₁⟩ := serving_adjustBudget sha256 uuidText key a
      (m := m) hsole moment
    rw [serving_sendAdjustments_cons _ _ _ _ hserved]
    generalize hown : s₁.committed.own = own at hsent
    generalize hext : s₁.ext = ext at hsent
    cases hsent with
    | refused hrefused hx => exact absurd haccepted (hrefused hfree budget)
    | adjusted hfree' haccepted' hbudgets honce =>
      obtain rfl := haccepted.unique haccepted'
      obtain ⟨honce, hfresh₁⟩ := honce hfresh
      have hfree₁ : s₁.committed.record a.actor key = none := by
        rw [CommandDb.record, hrecords]
        exact hfree
      obtain ⟨s', hgo, heach⟩ := ih hsole₁ hfree₁
        (haccepted.of_budgets (hown ▸ hbudgets)) (by rw [hown, hext]; exact hfresh₁)
      exact ⟨s', hgo, .cons honce (hown ▸ heach)⟩

/-- A request that is not accepted changes nothing, however often it is sent. -/
theorem serving_refused (moments : List Moment) {s : AdjustmentState} (hsole : Engine.Sole pid s)
    (hrefused : s.committed.record a.actor key = none →
      ∀ budget, ¬ a.Accepted s.committed.own budget) :
    ∃ s', (sendAdjustments sha256 uuidText key a moments).serving
        ((commandEngine budgetEngine).handler pid (.serve m)) s = some (.ok (), s')
      ∧ s'.committed.own = s.committed.own := by
  induction moments generalizing s with
  | nil => exact ⟨s, rfl, rfl⟩
  | cons moment moments ih =>
    obtain ⟨r, s₁, hserved, hsent, hrecords, hsole₁⟩ := serving_adjustBudget sha256 uuidText key a
      (m := m) hsole moment
    rw [serving_sendAdjustments_cons _ _ _ _ hserved]
    generalize hown : s₁.committed.own = own at hsent
    generalize s₁.ext = ext at hsent
    cases hsent with
    | adjusted hfree haccepted => exact absurd haccepted (hrefused hfree _)
    | refused =>
      obtain ⟨s', hgo, hsame⟩ := ih hsole₁ (fun hfree => by
        rw [CommandDb.record, hrecords] at hfree
        rw [hown]
        exact hrefused hfree)
      exact ⟨s', hgo, hsame.trans hown⟩

/-- **What the client asks for has happened once**: in the period of one of the
moments the allowance is changed by the delta, and the ledger has one entry
more. -/
def AdjustedOnce (moments : List Moment) (before after : BudgetDb) : Prop :=
  ∃ budget, before.budgets.find? (fun b => b.tenantId = a.tenantId ∧ b.id = a.budgetId)
      = some budget
    ∧ ∃ moment ∈ moments, a.Once (a.period budget moment) before after

end Send

/-! ### A response that is lost -/

/-- The budget of a tenant for its months. -/
def monthBudget : Budget := ⟨1, 5, none, .TENANT_MONTHLY, 1000, 0, .FAIL_CLOSED⟩

/-- A hundred micros more, for a reason. -/
def hundredMore : Adjustment := ⟨1, 5, 100, "campaign", "ops"⟩

/-- A day in July. -/
def july : Moment := ⟨2026, 7, 1⟩

theorem accepted_hundredMore :
    hundredMore.Accepted (.configured [monthBudget]) monthBudget where
  found := by decide
  scope := by decide
  reason := by decide
  actor_pos := by decide
  actor_le := by decide
