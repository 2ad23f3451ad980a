import AgentPlatform.BudgetRuns
import AgentPlatform.IsolatedRuns

/-!
# A reservation with the budgets to itself

What one call of `reserve` does to the budget tables when nothing interferes
is computed here, statement by statement, on what its transaction sees and on
the identifiers drawn so far.

A level is judged by `levelVerdict`: it admits the estimate, rejects it, or
fails, because one of the statements that go with an admission meets a
constraint of its table. The loop over the levels ends with the first that
does not admit. What was secured before a rejection is undone in the same
transaction, so that a rejection moves no total: `Moved` keeps account of what
the statements add to the reserved totals, and the compensation takes back
what the loop has added.
-/

open BudgetService

/-! ## Rows and totals -/

namespace BudgetDb

/-- The totals of a period; a row that does not exist has none. -/
def rowAt (db : BudgetDb) (key : PeriodKey) : PeriodState := (db.states key).getD .zero

/-- The tables with the row of a period, which is new if there was none. -/
def ensured (db : BudgetDb) (key : PeriodKey) : BudgetDb :=
  if (db.states key).isSome then db
  else { db with states := Function.update db.states key (some .zero) }

/-- The tables with an entry more, unless the ledger has it. -/
def withEntry (db : BudgetDb) (entry : LedgerEntry) : BudgetDb :=
  if (db.findEntry entry.period entry.reserveId entry.entryType).isSome then db
  else { db with ledger := db.ledger ++ [entry] }

theorem withEntry_states (db : BudgetDb) (entry : LedgerEntry) :
    (db.withEntry entry).states = db.states := by
  unfold withEntry
  split <;> rfl

theorem withEntry_budgets (db : BudgetDb) (entry : LedgerEntry) :
    (db.withEntry entry).budgets = db.budgets := by
  unfold withEntry
  split <;> rfl

theorem withEntry_congr {db db' : BudgetDb} (h : db.ledger = db'.ledger) (entry : LedgerEntry) :
    (db.withEntry entry).ledger = (db'.withEntry entry).ledger := by
  unfold withEntry findEntry
  rw [h]
  split
  · exact h
  · rfl

/-- An entry the ledger does not have is added. -/
theorem withEntry_ledger {db : BudgetDb} {entry : LedgerEntry}
    (h : ∀ e ∈ db.ledger, e.reserveId = entry.reserveId → e.entryType ≠ entry.entryType) :
    (db.withEntry entry).ledger = db.ledger ++ [entry] := by
  have hnone : db.findEntry entry.period entry.reserveId entry.entryType = none := by
    refine List.find?_eq_none.mpr (fun e he hc => ?_)
    obtain ⟨-, hid, htype⟩ := of_decide_eq_true hc
    exact h e he hid htype
  rw [withEntry, hnone]
  rfl

theorem ensured_ledger (db : BudgetDb) (key : PeriodKey) : (db.ensured key).ledger = db.ledger := by
  unfold ensured
  split <;> rfl

theorem ensured_states_self (db : BudgetDb) (key : PeriodKey) :
    (db.ensured key).states key = some (db.rowAt key) := by
  unfold ensured rowAt
  cases h : db.states key with
  | none => simp
  | some row => simp [h]

theorem ensured_states_of_ne (db : BudgetDb) {key k : PeriodKey} (h : k ≠ key) :
    (db.ensured key).states k = db.states k := by
  unfold ensured
  split
  · rfl
  · exact Function.update_of_ne h _ _

end BudgetDb

/-- A row of totals with an amount added to what is reserved. -/
structure TotalsShifted (d : ℤ) (row row' : PeriodState) : Prop where
  reserved : row'.reservedMicros = row.reservedMicros + d
  consumed : row'.consumedMicros = row.consumedMicros
  allowance : row'.allowanceMicros = row.allowanceMicros
  contingency : row'.contingencyReservedMicros = row.contingencyReservedMicros

theorem TotalsShifted.refl (row : PeriodState) : TotalsShifted 0 row row :=
  ⟨(add_zero _).symm, rfl, rfl, rfl⟩

theorem TotalsShifted.trans {d d' : ℤ} {a b c : PeriodState} (h : TotalsShifted d a b)
    (h' : TotalsShifted d' b c) :
    TotalsShifted (d + d') a c where
  reserved := by rw [h'.reserved, h.reserved, add_assoc]
  consumed := h'.consumed.trans h.consumed
  allowance := h'.allowance.trans h.allowance
  contingency := h'.contingency.trans h.contingency

/-- **What has been added to the totals**: the rows of `keys` may be new, all
others are as before, and to the reserved total of each period `d` was
added. -/
structure Moved (keys : List PeriodKey) (d : PeriodKey → ℤ) (db db' : BudgetDb) : Prop where
  budgets : db'.budgets = db.budgets
  frame : ∀ k, k ∉ keys → db'.states k = db.states k
  exist : ∀ k ∈ keys, (db'.states k).isSome = true
  row : ∀ k, TotalsShifted (d k) (db.rowAt k) (db'.rowAt k)

namespace Moved

variable {keys keys' : List PeriodKey} {d d' : PeriodKey → ℤ} {db db' db'' : BudgetDb}

/-- The statements that leave the totals alone. -/
theorem of_states (hbudgets : db'.budgets = db.budgets) (hstates : db'.states = db.states) :
    Moved [] (fun _ => 0) db db' where
  budgets := hbudgets
  frame k _ := by rw [hstates]
  exist k hk := absurd hk List.not_mem_nil
  row k := by
    have hrow : db'.rowAt k = db.rowAt k := by rw [BudgetDb.rowAt, hstates]; rfl
    rw [hrow]
    exact TotalsShifted.refl _

theorem trans (h : Moved keys d db db') (h' : Moved keys' d' db' db'') :
    Moved (keys ++ keys') (fun k => d k + d' k) db db'' where
  budgets := h'.budgets.trans h.budgets
  frame k hk := by
    obtain ⟨hk₁, hk₂⟩ := not_or.mp (mt List.mem_append.mpr hk)
    exact (h'.frame k hk₂).trans (h.frame k hk₁)
  exist k hk := by
    by_cases hk' : k ∈ keys'
    · exact h'.exist k hk'
    · rw [h'.frame k hk']
      exact h.exist k ((List.mem_append.mp hk).resolve_right hk')
  row k := (h.row k).trans (h'.row k)

/-- The same account of the same periods. -/
theorem cast (h : Moved keys d db db') (hkeys : ∀ k, k ∈ keys ↔ k ∈ keys')
    (hd : ∀ k, d k = d' k) : Moved keys' d' db db' where
  budgets := h.budgets
  frame k hk := h.frame k (mt (hkeys k).mp hk)
  exist k hk := h.exist k ((hkeys k).mpr hk)
  row k := by
    rw [← hd k]
    exact h.row k

/-- The row of a period is made. -/
theorem ensured (db : BudgetDb) (key : PeriodKey) :
    Moved [key] (fun _ => 0) db (db.ensured key) where
  budgets := by unfold BudgetDb.ensured; split <;> rfl
  frame k hk := db.ensured_states_of_ne (fun h => hk (List.mem_singleton.mpr h))
  exist k hk := by
    rw [List.mem_singleton.mp hk, db.ensured_states_self]
    rfl
  row k := by
    have hrow : (db.ensured key).rowAt k = db.rowAt k := by
      by_cases hk : k = key
      · rw [hk, BudgetDb.rowAt, db.ensured_states_self]
        rfl
      · rw [BudgetDb.rowAt, db.ensured_states_of_ne hk]
        rfl
    rw [hrow]
    exact TotalsShifted.refl _

/-- A row is replaced by a shifted one. -/
theorem setState {key : PeriodKey} {row row' : PeriodState} {amount : ℤ}
    (hrow : db.states key = some row) (hshift : TotalsShifted amount row row') :
    Moved [key] (fun k => if k = key then amount else 0) db
      ((BudgetWrite.setState key row').apply db) where
  budgets := rfl
  frame k hk := Function.update_of_ne (fun h => hk (List.mem_singleton.mpr h)) _ _
  exist k hk := by
    rw [List.mem_singleton.mp hk]
    show (Function.update db.states key (some row') key).isSome = true
    rw [Function.update_self]
    rfl
  row k := by
    show TotalsShifted _ _ ((Function.update db.states key (some row') k).getD .zero)
    by_cases hk : k = key
    · subst hk
      rw [Function.update_self, if_pos rfl, BudgetDb.rowAt, hrow]
      exact hshift
    · rw [Function.update_of_ne hk, if_neg hk]
      exact TotalsShifted.refl _

end Moved

/-- Amounts added to a row that stays within its constraints. -/
theorem PeriodState.change?_totalsShifted (row : PeriodState) {amount : ℤ}
    (h : 0 ≤ row.reservedMicros + amount) :
    ∃ row', row.change? amount 0 0 0 = some row' ∧ TotalsShifted amount row row'
      ∧ row'.version = row.version + 1 := by
  have hall : 0 ≤ row.reservedMicros + amount ∧ 0 ≤ row.consumedMicros + 0
      ∧ 0 ≤ row.contingencyReservedMicros + 0 := by
    refine ⟨h, ?_, ?_⟩
    · rw [add_zero]
      exact row.consumed_nonneg
    · rw [add_zero]
      exact row.contingency_nonneg
  refine ⟨_, dif_pos hall, ⟨rfl, add_zero _, add_zero _, add_zero _⟩, rfl⟩

/-! ## Statements on the view -/

/-- The run of a body on what its transaction sees and the identifiers drawn,
at a moment. -/
abbrev onView {α : Type} (moment : Moment) (p : BudgetProg α) (v : BudgetDb × Uuid) :
    Except PyException α × (BudgetDb × Uuid) :=
  p.within (budgetEngine.alone moment) v

theorem budgetEngine_blind : budgetEngine.Blind := fun _ _ _ _ _ => rfl

section Statements

variable {moment : Moment} {db : BudgetDb} {x : Uuid}

variable (moment db x) in
theorem onView_ask (op : BudgetOp) : onView moment op.ask (db, x)
    = ((op.exec moment db x).1, budgetEngine.applyAll (op.exec moment db x).2 db, op.draws x) :=
  budgetEngine.within_stmt moment op (db, x)

/-- The row of a period can be made: it is there, or its key is one the table
admits. -/
def keyFits (db : BudgetDb) (key : PeriodKey) : Bool :=
  (db.states key).isSome || (1 ≤ key.periodKey.length && key.periodKey.length ≤ 64)

/-- The budget of a period. -/
def budgetOf (db : BudgetDb) (key : PeriodKey) : Bool :=
  db.budgets.any (fun b => b.tenantId = key.tenantId ∧ b.id = key.budgetId)

variable (moment x) in
theorem onView_ensure {key : PeriodKey} (hfits : keyFits db key = true)
    (hbudget : budgetOf db key = true) :
    onView moment (BudgetOp.ask (.ensureStateRow key)) (db, x) = (.ok (), db.ensured key, x) := by
  rw [onView_ask _ _ _]
  simp only [BudgetOp.exec, BudgetOp.draws, BudgetDb.ensured]
  by_cases hsome : (db.states key).isSome = true
  · rw [if_pos hsome, if_pos hsome]
    rfl
  · have hlength : 1 ≤ key.periodKey.length ∧ key.periodKey.length ≤ 64 := by
      rw [keyFits, Bool.or_eq_true, Bool.and_eq_true] at hfits
      have hrest := hfits.resolve_left hsome
      exact ⟨of_decide_eq_true hrest.1, of_decide_eq_true hrest.2⟩
    rw [if_neg hsome, if_neg hsome, if_pos ⟨hlength.1, hlength.2, hbudget⟩]
    rfl

variable (moment x) in
theorem onView_ensure_error {key : PeriodKey} (hfits : keyFits db key = false) :
    onView moment (BudgetOp.ask (.ensureStateRow key)) (db, x) = (.error .sqlAlchemy, db, x) := by
  rw [keyFits, Bool.or_eq_false_iff] at hfits
  have hlength : ¬ (1 ≤ key.periodKey.length ∧ key.periodKey.length ≤ 64
      ∧ db.budgets.any (fun b => b.tenantId = key.tenantId ∧ b.id = key.budgetId) = true) := by
    rintro ⟨hone, hmany, -⟩
    have hboth := hfits.2
    rw [decide_eq_true hone, decide_eq_true hmany] at hboth
    exact Bool.noConfusion hboth
  rw [onView_ask _ _ _]
  simp only [BudgetOp.exec, BudgetOp.draws]
  rw [if_neg (by rw [hfits.1]; exact Bool.false_ne_true), if_neg hlength]
  rfl

variable (moment db x) in
theorem onView_selectState (key : PeriodKey) :
    onView moment (BudgetOp.ask (.selectState key)) (db, x) = (.ok (db.states key), db, x) :=
  onView_ask _ _ _ _

variable (moment x) in
/-- An update of a row that meets its guard and keeps its constraints. -/
theorem onView_reserveState {key : PeriodKey} {row row' : PeriodState} {amount limit : ℤ}
    (hrow : db.states key = some row)
    (hguard : row.reservedMicros + row.consumedMicros + amount ≤ limit)
    (hchange : row.change? amount 0 0 0 = some row') :
    onView moment (BudgetOp.ask (.reserveState key amount limit)) (db, x)
      = (.ok (some row'.version), (BudgetWrite.setState key row').apply db, x) := by
  rw [onView_ask _ _ _]
  simp only [BudgetOp.exec, BudgetOp.draws, updateState, hrow, hchange, decide_eq_true hguard,
    if_true]
  rfl

variable (moment x) in
theorem onView_changeState {key : PeriodKey} {row row' : PeriodState}
    {reserved consumed allowance : ℤ} (hrow : db.states key = some row)
    (hchange : row.change? reserved consumed allowance 0 = some row') :
    onView moment (BudgetOp.ask (.changeState key reserved consumed allowance)) (db, x)
      = (.ok (), (BudgetWrite.setState key row').apply db, x) := by
  rw [onView_ask _ _ _]
  simp only [BudgetOp.exec, BudgetOp.draws, updateState, hrow, hchange, if_true]
  rfl

variable (moment db x) in
/-- An entry that meets the constraints of the ledger is there afterwards. -/
theorem onView_append (reserveId : Option Uuid) {draft : LedgerDraft}
    (hvalid : draft.valid = true) : ∃ new,
    onView moment (BudgetOp.ask (.appendLedger reserveId draft)) (db, x)
      = (.ok (reserveId.getD x, new), db.withEntry ⟨draft, reserveId.getD x⟩,
        (BudgetOp.appendLedger reserveId draft).draws x) := by
  rw [onView_ask _ _ _]
  simp only [BudgetOp.exec, BudgetDb.withEntry]
  rw [if_neg (not_not.mpr hvalid)]
  by_cases hfound : (db.findEntry draft.period (reserveId.getD x) draft.entryType).isSome = true
  · rw [if_pos hfound, if_pos hfound]
    exact ⟨false, rfl⟩
  · rw [if_neg hfound, if_neg hfound]
    exact ⟨true, rfl⟩

theorem onView_append_error {reserveId : Option Uuid} {draft : LedgerDraft}
    (hvalid : draft.valid = false) :
    (onView moment (BudgetOp.ask (.appendLedger reserveId draft)) (db, x)).1
      = .error .sqlAlchemy := by
  rw [onView_ask _ _ _]
  simp only [BudgetOp.exec]
  rw [if_pos (by rw [hvalid]; exact Bool.false_ne_true)]

end Statements

/-! ## One level -/

/-- What is used of a level after the estimate. -/
def usedAfter (db : BudgetDb) (command : BudgetCommand) (level : Level) : ℤ :=
  (db.rowAt (level.key command.tenantId)).reservedMicros
    + (db.rowAt (level.key command.tenantId)).consumedMicros + command.estimatedMicros

/-- The limit of a level with its allowance. -/
def effectiveLimit (db : BudgetDb) (command : BudgetCommand) (level : Level) : ℤ :=
  level.limitMicros + (db.rowAt (level.key command.tenantId)).allowanceMicros

/-- How a level takes an estimate. -/
inductive Verdict where
  | admits
  | rejects
  | fails
  deriving DecidableEq, Repr

/-- **The verdict of a level.** A level that would admit fails when the alert
that is due cannot be written, because it names a limit of zero. -/
def levelVerdict (db : BudgetDb) (command : BudgetCommand) (level : Level) : Verdict :=
  if keyFits db (level.key command.tenantId) then
    match evaluateLevel (usedAfter db command level) (effectiveLimit db command level) with
    | .REJECT => .rejects
    | .allow none => .admits
    | .allow (some _) => if level.limitMicros = 0 then .fails else .admits
  else .fails

/-- The reservation of a level under an identifier. -/
def reservationOf (command : BudgetCommand) (level : Level) (id : Uuid) : BudgetReservation where
  budgetId := level.budgetId
  scope := level.scope
  periodKey := level.periodKey
  amountMicros := command.estimatedMicros
  ledgerEntryId := id

/-- The entry of a reservation. -/
def entryOf (command : BudgetCommand) (type : LedgerEntryType) (reason : String)
    (r : BudgetReservation) : LedgerEntry :=
  ⟨ledgerDraft command (r.key command.tenantId) type r.amountMicros r.contingency reason "system",
    r.ledgerEntryId⟩

/-- The drafts of the service itself meet the constraints of the ledger, if
their amount does. -/
theorem ledgerDraft_valid {command : BudgetCommand} {key : PeriodKey} {type : LedgerEntryType}
    {amount : ℤ} {contingency : Bool} {reason : String} (hreason : reason.length ≤ 500) :
    (ledgerDraft command key type amount contingency reason "system").valid
      = decide (0 ≤ amount) := by
  have hactor : 1 ≤ "system".length ∧ "system".length ≤ 256 := by decide
  unfold LedgerDraft.valid ledgerDraft
  simp only [hreason, hactor, and_self, and_true]

section Level

variable {moment : Moment} {db : BudgetDb} {x : Uuid} {command : BudgetCommand} {level : Level}

variable (moment db x command) in
theorem onView_appendLedger (key : PeriodKey) (type : LedgerEntryType) {amount : ℤ}
    (reserveId : Option Uuid) (contingency : Bool) (reason : String) (hamount : 0 ≤ amount)
    (hreason : reason.length ≤ 500) : ∃ new,
    onView moment (appendLedger command key type amount reserveId contingency reason) (db, x)
      = (.ok (reserveId.getD x, new),
        db.withEntry ⟨ledgerDraft command key type amount contingency reason "system",
          reserveId.getD x⟩,
        match reserveId with
        | none => x + 1
        | some _ => x) := by
  have hvalid : (ledgerDraft command key type amount contingency reason "system").valid = true := by
    rw [ledgerDraft_valid hreason]
    exact decide_eq_true hamount
  obtain ⟨new, h⟩ := onView_append moment db x reserveId
    hvalid
  refine ⟨new, h.trans ?_⟩
  cases reserveId <;> rfl

variable (moment db x command level) in
/-- The alert of an admission is written, or cannot be. -/
theorem onView_raiseAlert {used : ℤ} (hused : 0 ≤ used) (alert : Option AlertLevel) :
    (alert ≠ none ∧ level.limitMicros = 0 ∧
        (onView moment (raiseAlert command level used alert) (db, x)).1 = .error .sqlAlchemy)
      ∨ ((alert = none ∨ level.limitMicros ≠ 0) ∧ ∃ alerts db',
        onView moment (raiseAlert command level used alert) (db, x) = (.ok alerts, db', x)
          ∧ db'.budgets = db.budgets ∧ db'.states = db.states ∧ db'.ledger = db.ledger) := by
  cases alert with
  | none => exact .inr ⟨.inl rfl, [], db, rfl, rfl, rfl, rfl⟩
  | some decision =>
    have hask := onView_ask moment db x
      (.insertAlert (level.key command.tenantId) decision used level.limitMicros)
    simp only [BudgetOp.exec, BudgetOp.draws] at hask
    by_cases hlimit : level.limitMicros = 0
    · refine .inl ⟨by simp, hlimit, ?_⟩
      rw [if_pos (.inr (by omega))] at hask
      exact congrArg Prod.fst (Prog.within_bind_error hask _)
    · refine .inr ⟨.inr hlimit, ?_⟩
      rw [if_neg (by omega)] at hask
      by_cases hfound : (db.alerts (level.key command.tenantId) decision).isSome = true
      · rw [if_pos hfound] at hask
        exact ⟨[], db, (Prog.within_bind_ok hask _).trans rfl, rfl, rfl, rfl⟩
      · rw [if_neg hfound] at hask
        exact ⟨_, _, (Prog.within_bind_ok hask _).trans rfl, rfl, rfl, rfl⟩

/-- **The three ways of a level**, for an estimate that is not negative. -/
inductive LevelRun (command : BudgetCommand) (level : Level) (db : BudgetDb) (x : Uuid) :
    Except PyException (Option (BudgetReservation × List String)) × (BudgetDb × Uuid) → Prop
  | admits {alerts : List String} {db' : BudgetDb}
      (hverdict : levelVerdict db command level = .admits)
      (hmoved : Moved [level.key command.tenantId]
        (fun k => if k = level.key command.tenantId then command.estimatedMicros else 0) db db')
      (hledger : db'.ledger
        = (db.withEntry (entryOf command .RESERVE "" (reservationOf command level x))).ledger) :
      LevelRun command level db x
        (.ok (some (reservationOf command level x, alerts)), db', x + 1)
  | rejects (hverdict : levelVerdict db command level = .rejects) :
      LevelRun command level db x (.ok none, db.ensured (level.key command.tenantId), x)
  | fails {v : BudgetDb × Uuid} (hverdict : levelVerdict db command level = .fails) :
      LevelRun command level db x (.error .sqlAlchemy, v)

/-- What the limit rule lets through is within the limit. -/
theorem le_of_evaluateLevel {used limit : ℤ} {alert : Option AlertLevel}
    (h : evaluateLevel used limit = .allow alert) : used ≤ limit := by
  unfold evaluateLevel at h
  split at h
  · cases h
  · rename_i hle
    exact Int.not_lt.mp hle

theorem LevelRun.of_eq {u v : Except PyException (Option (BudgetReservation × List String))
    × (BudgetDb × Uuid)} (h : u = v) (hv : LevelRun command level db x v) :
    LevelRun command level db x u := h ▸ hv

/-- What a level is answered once the limit rule has let the estimate through. -/
theorem levelRun_allow (hest : 0 ≤ command.estimatedMicros) {alert : Option AlertLevel}
    (hfits : keyFits db (level.key command.tenantId) = true)
    (hallow : evaluateLevel (usedAfter db command level) (effectiveLimit db command level)
      = .allow alert) (f : Option ℕ → BudgetProg (Option (BudgetReservation × List String)))
    (hf : ∀ n, f (some n) = (do
      let (entryId, _) ← appendLedger command (level.key command.tenantId) .RESERVE
        command.estimatedMicros none false ""
      let alerts ← raiseAlert command level (usedAfter db command level) alert
      return some (reservationOf command level entryId, alerts))) :
    LevelRun command level db x (onView moment
      ((BudgetOp.ask (.reserveState (level.key command.tenantId) command.estimatedMicros
        (effectiveLimit db command level))).bind f)
          (db.ensured (level.key command.tenantId), x)) := by
  have hreserved := (db.rowAt (level.key command.tenantId)).reserved_nonneg
  have hconsumed := (db.rowAt (level.key command.tenantId)).consumed_nonneg
  have hrow := db.ensured_states_self (level.key command.tenantId)
  obtain ⟨row', hchange, hshift, -⟩ := PeriodState.change?_totalsShifted
    (db.rowAt (level.key command.tenantId)) (add_nonneg hreserved hest)
  have hreserve := onView_reserveState moment x hrow
    (le_of_evaluateLevel hallow) hchange
  have hset := Moved.setState hrow hshift
  have hbefore : ((BudgetWrite.setState (level.key command.tenantId) row').apply
      (db.ensured (level.key command.tenantId))).ledger = db.ledger := db.ensured_ledger _
  generalize (BudgetWrite.setState (level.key command.tenantId) row').apply
    (db.ensured (level.key command.tenantId)) = db₁ at hreserve hset hbefore
  obtain ⟨new, happend⟩ := onView_appendLedger moment db₁ x command (level.key command.tenantId)
    .RESERVE none false "" hest (by decide)
  have hused : 0 ≤ usedAfter db command level := by
    unfold usedAfter
    omega
  have hstep := (Prog.within_bind_ok hreserve f).trans
    ((congrArg (fun p => onView moment p (db₁, x)) (hf row'.version)).trans
      (Prog.within_bind_ok happend _))
  refine LevelRun.of_eq hstep ?_
  obtain ⟨halert, hzero, herror⟩ | ⟨hwritten, alerts, db', hraise, hbudgets, hstates, hledger⟩ :=
    onView_raiseAlert moment (db₁.withEntry (entryOf command .RESERVE ""
      (reservationOf command level x))) (x + 1) command level hused
      alert
  · refine LevelRun.of_eq (Prog.within_bind_error (Prod.ext herror rfl) _) (.fails ?_)
    rw [levelVerdict, hfits, hallow, if_pos rfl]
    cases alert with
    | none => exact absurd rfl halert
    | some decision => exact if_pos hzero
  · refine LevelRun.of_eq (Prog.within_bind_ok hraise _) (.admits ?_ ?_ ?_)
    · rw [levelVerdict, hfits, hallow, if_pos rfl]
      cases alert with
      | none => rfl
      | some decision => exact if_neg (hwritten.resolve_left (by simp))
    · have hentry : Moved [] (fun _ => 0) db₁ db' :=
        .of_states (hbudgets.trans (db₁.withEntry_budgets _))
          (hstates.trans (db₁.withEntry_states _))
      refine (((Moved.ensured db _).trans hset).trans hentry).cast (fun k => by simp) (fun k => ?_)
      rw [zero_add, add_zero]
    · exact hledger.trans (BudgetDb.withEntry_congr hbefore _)

variable (moment x) in
theorem levelRun (hest : 0 ≤ command.estimatedMicros)
    (hbudget : budgetOf db (level.key command.tenantId) = true) :
    LevelRun command level db x (onView moment (reserveLevel command level) (db, x)) := by
  cases hfits : keyFits db (level.key command.tenantId) with
  | false =>
    have hensure := onView_ensure_error moment x hfits
    refine LevelRun.of_eq (Prog.within_bind_error hensure _) (.fails ?_)
    rw [levelVerdict, hfits]
    rfl
  | true =>
    have hensure := onView_ensure moment x hfits hbudget
    have hselect := onView_selectState moment (db.ensured (level.key command.tenantId)) x
        (level.key command.tenantId)
    rw [db.ensured_states_self] at hselect
    refine LevelRun.of_eq ((Prog.within_bind_ok hensure _).trans
      (Prog.within_bind_ok hselect _)) ?_
    dsimp only
    cases hdecision : evaluateLevel (usedAfter db command level)
        (effectiveLimit db command level) with
    | REJECT =>
      erw [hdecision]
      refine .rejects ?_
      rw [levelVerdict, hfits, hdecision]
      rfl
    | allow alert =>
      erw [hdecision]
      exact levelRun_allow hest hfits hdecision _ (fun n => rfl)

end Level

/-! ## The loop over the levels -/

/-- The reservations of levels that are all secured, from an identifier on. -/
def reservationsOf (command : BudgetCommand) : List Level → Uuid → List BudgetReservation
  | [], _ => []
  | level :: levels, x => reservationOf command level x :: reservationsOf command levels (x + 1)

/-- The rows of the levels. -/
abbrev keysOf (command : BudgetCommand) (levels : List Level) : List PeriodKey :=
  levels.map (·.key command.tenantId)

/-- What one reservation for each of the keys adds. -/
def addedOn (command : BudgetCommand) (keys : List PeriodKey) (k : PeriodKey) : ℤ :=
  command.estimatedMicros * keys.count k

/-- **The verdict of the levels** is that of the first that does not admit. -/
def admission (db : BudgetDb) (command : BudgetCommand) : List Level → Verdict
  | [] => .admits
  | level :: levels =>
    match levelVerdict db command level with
    | .admits => admission db command levels
    | .rejects => .rejects
    | .fails => .fails

section Reservations

variable {command : BudgetCommand}

theorem reservationsOf_key (levels : List Level) (x : Uuid) :
    (reservationsOf command levels x).map (·.key command.tenantId) = keysOf command levels := by
  induction levels generalizing x with
  | nil => rfl
  | cons level levels ih => exact congrArg (level.key command.tenantId :: ·) (ih (x + 1))

theorem mem_reservationsOf {levels : List Level} {x : Uuid} {r : BudgetReservation}
    (h : r ∈ reservationsOf command levels x) :
    r.amountMicros = command.estimatedMicros ∧ r.contingency = false ∧ x ≤ r.ledgerEntryId
      ∧ r.ledgerEntryId < x + levels.length := by
  induction levels generalizing x with
  | nil => cases h
  | cons level levels ih =>
    obtain rfl | h := List.mem_cons.mp h
    · refine ⟨rfl, rfl, le_refl x, ?_⟩
      exact Nat.lt_add_of_pos_right (Nat.succ_pos levels.length)
    · obtain ⟨hamount, hordinary, hle, hlt⟩ := ih h
      refine ⟨hamount, hordinary, Nat.le_of_succ_le hle, ?_⟩
      rw [List.length_cons, ← Nat.succ_add_eq_add_succ]
      exact hlt

theorem nodup_reservationsOf (levels : List Level) (x : Uuid) :
    ((reservationsOf command levels x).map (·.ledgerEntryId)).Nodup := by
  induction levels generalizing x with
  | nil => exact List.nodup_nil
  | cons level levels ih =>
    refine List.nodup_cons.mpr ⟨fun hmem => ?_, ih (x + 1)⟩
    obtain ⟨r, hr, hid⟩ := List.mem_map.mp hmem
    have hle := (mem_reservationsOf hr).2.2.1
    rw [hid] at hle
    exact absurd hle (Nat.not_succ_le_self x)

/-- The verdict of a level depends on its own row alone. -/
theorem levelVerdict_congr {db db' : BudgetDb} {level : Level}
    (h : db'.states (level.key command.tenantId) = db.states (level.key command.tenantId)) :
    levelVerdict db' command level = levelVerdict db command level := by
  unfold levelVerdict keyFits usedAfter effectiveLimit BudgetDb.rowAt
  rw [h]

theorem admission_congr {db db' : BudgetDb} {levels : List Level}
    (h : ∀ level ∈ levels, db'.states (level.key command.tenantId)
      = db.states (level.key command.tenantId)) :
    admission db' command levels = admission db command levels := by
  induction levels with
  | nil => rfl
  | cons level levels ih =>
    have hrest := ih (fun l hl => h l (List.mem_cons_of_mem _ hl))
    simp only [admission, levelVerdict_congr (h level List.mem_cons_self), hrest]

end Reservations

/-- **The ways the loop ends**: the levels are all secured, one rejects after
those before it were secured, or a statement has failed. What is said of the
ledger supposes that identifiers are new when they are drawn, and the verdict
that no two levels share a row. -/
inductive LevelsRun (command : BudgetCommand) (levels : List Level)
    (secured : List BudgetReservation) (db : BudgetDb) (x : Uuid) :
    Except PyException (List BudgetReservation × List String × Option Level)
      × (BudgetDb × Uuid) → Prop
  | admits {alerts : List String} {db' : BudgetDb}
      (hverdict : (keysOf command levels).Nodup → admission db command levels = .admits)
      (hmoved : Moved (keysOf command levels) (addedOn command (keysOf command levels)) db db')
      (hledger : (∀ e ∈ db.ledger, e.reserveId < x) → db'.ledger
        = db.ledger ++ (reservationsOf command levels x).map (entryOf command .RESERVE "")) :
      LevelsRun command levels secured db x
        (.ok (secured ++ reservationsOf command levels x, alerts, none), db', x + levels.length)
  | rejects {pre post : List Level} {level : Level} {alerts : List String} {db' : BudgetDb}
      (hverdict : (keysOf command levels).Nodup → admission db command levels = .rejects)
      (hlevels : levels = pre ++ level :: post)
      (hmoved : Moved (keysOf command (pre ++ [level])) (addedOn command (keysOf command pre))
        db db')
      (hledger : (∀ e ∈ db.ledger, e.reserveId < x) → db'.ledger
        = db.ledger ++ (reservationsOf command pre x).map (entryOf command .RESERVE "")) :
      LevelsRun command levels secured db x
        (.ok (secured ++ reservationsOf command pre x, alerts, some level), db', x + pre.length)
  | fails {v : BudgetDb × Uuid}
      (hverdict : (keysOf command levels).Nodup → admission db command levels = .fails) :
      LevelsRun command levels secured db x (.error .sqlAlchemy, v)

section Levels

variable {moment : Moment} {command : BudgetCommand} {levels : List Level}
  {secured : List BudgetReservation} {db : BudgetDb} {x : Uuid}

theorem LevelsRun.of_eq {u v : Except PyException (List BudgetReservation × List String
    × Option Level) × (BudgetDb × Uuid)} (h : u = v)
    (hv : LevelsRun command levels secured db x v) : LevelsRun command levels secured db x u :=
  h ▸ hv

/-- A level that admits is followed by the loop over the others. -/
theorem LevelsRun.cons {level : Level} {db₁ : BudgetDb} {u : Except PyException
    (List BudgetReservation × List String × Option Level) × (BudgetDb × Uuid)}
    (hadmits : levelVerdict db command level = .admits)
    (hmoved : Moved [level.key command.tenantId]
      (fun k => if k = level.key command.tenantId then command.estimatedMicros else 0) db db₁)
    (hledger : db₁.ledger
      = (db.withEntry (entryOf command .RESERVE "" (reservationOf command level x))).ledger)
    (h : LevelsRun command levels (secured ++ [reservationOf command level x]) db₁ (x + 1) u) :
    LevelsRun command (level :: levels) secured db x u := by
  -- The rows of the other levels are as they were.
  have hverdict : (keysOf command (level :: levels)).Nodup →
      admission db command (level :: levels) = admission db₁ command levels := by
    intro hnodup
    have hrest : admission db₁ command levels = admission db command levels := by
      refine admission_congr (fun l hl => hmoved.frame _ (fun hkey => ?_))
      refine (List.nodup_cons.mp hnodup).1 (List.mem_map.mpr ⟨l, hl, ?_⟩)
      exact List.mem_singleton.mp hkey
    rw [hrest, admission, hadmits]
  have hone : ∀ keys k, (if k = level.key command.tenantId then command.estimatedMicros else 0)
      + addedOn command keys k = addedOn command (level.key command.tenantId :: keys) k := by
    intro keys k
    unfold addedOn
    by_cases hk : k = level.key command.tenantId
    · rw [if_pos hk, hk, List.count_cons_self]
      rw [Nat.cast_add, Nat.cast_one, mul_add, mul_one, add_comm]
    · rw [if_neg hk, List.count_cons_of_ne (Ne.symm hk), zero_add]
  have hentry : (∀ e ∈ db.ledger, e.reserveId < x) → db₁.ledger
      = db.ledger ++ [entryOf command .RESERVE "" (reservationOf command level x)] := by
    intro hfresh
    rw [hledger]
    refine BudgetDb.withEntry_ledger (fun e he hid => ?_)
    exact absurd hid (Nat.ne_of_lt (hfresh e he))
  have hfresh₁ : (∀ e ∈ db.ledger, e.reserveId < x) → ∀ e ∈ db₁.ledger, e.reserveId < x + 1 := by
    intro hfresh e he
    rw [hentry hfresh] at he
    obtain he | he := List.mem_append.mp he
    · exact Nat.lt_succ_of_lt (hfresh e he)
    · rw [List.mem_singleton.mp he]
      exact Nat.lt_succ_self x
  cases h with
  | @admits alerts db' hv hm hl =>
    have hpos : x + 1 + levels.length = x + (level :: levels).length :=
      Nat.succ_add_eq_add_succ x levels.length
    rw [List.append_assoc, hpos]
    refine .admits (fun hn => (hverdict hn).trans (hv (List.nodup_cons.mp hn).2)) ?_
      (fun hf => ?_)
    · exact (hmoved.trans hm).cast (fun k => Iff.rfl) (hone _)
    · rw [hl (hfresh₁ hf), hentry hf, List.append_assoc]
      rfl
  | @rejects pre post rejecting alerts db' hv hlevels hm hl =>
    have hpos : x + 1 + pre.length = x + (level :: pre).length :=
      Nat.succ_add_eq_add_succ x pre.length
    rw [List.append_assoc, hpos]
    have hsplit : level :: levels = (level :: pre) ++ rejecting :: post :=
      congrArg (level :: ·) hlevels
    refine .rejects (fun hn => (hverdict hn).trans (hv (List.nodup_cons.mp hn).2)) hsplit ?_
      (fun hf => ?_)
    · exact (hmoved.trans hm).cast (fun k => Iff.rfl) (hone _)
    · rw [hl (hfresh₁ hf), hentry hf, List.append_assoc]
      rfl
  | fails hv => exact .fails (fun hn => (hverdict hn).trans (hv (List.nodup_cons.mp hn).2))

variable (moment secured x) in
/-- **Loop rule**: the loop ends in one of its ways. The induction is on the
levels. -/
theorem levelsRun (hest : 0 ≤ command.estimatedMicros)
    (hbudgets : ∀ level ∈ levels, budgetOf db (level.key command.tenantId) = true)
    (alerts : List String) : LevelsRun command levels secured db x
      (onView moment (reserveLevels command levels secured alerts) (db, x)) := by
  induction levels generalizing secured db x alerts with
  | nil =>
    have hend : onView moment (reserveLevels command [] secured alerts) (db, x)
        = (.ok (secured ++ reservationsOf command [] x, alerts, none), db,
          x + ([] : List Level).length) := by
      rw [reservationsOf, List.append_nil]
      rfl
    refine LevelsRun.of_eq hend (.admits (fun _ => rfl) ?_ (fun _ => ?_))
    · refine (Moved.of_states rfl rfl).cast (fun k => Iff.rfl) (fun k => ?_)
      simp [addedOn]
    · exact (List.append_nil _).symm
  | cons level levels ih =>
    have hlevel := levelRun moment x hest (hbudgets level List.mem_cons_self)
    generalize hrun : onView moment (reserveLevel command level) (db, x) = u at hlevel
    cases hlevel with
    | @admits levelAlerts db₁ hverdict hmoved hledger =>
      refine LevelsRun.of_eq (Prog.within_bind_ok hrun _)
        (LevelsRun.cons hverdict hmoved hledger (ih _ _ (fun l hl => ?_) _))
      have hsame := hbudgets l (List.mem_cons_of_mem _ hl)
      rw [budgetOf] at hsame ⊢
      rw [hmoved.budgets]
      exact hsame
    | rejects hverdict =>
      have hend : onView moment (reserveLevels command (level :: levels) secured alerts) (db, x)
          = (.ok (secured ++ reservationsOf command [] x, alerts, some level),
            db.ensured (level.key command.tenantId), x + ([] : List Level).length) := by
        rw [reservationsOf, List.append_nil]
        exact (Prog.within_bind_ok hrun _).trans rfl
      refine LevelsRun.of_eq hend (.rejects (fun _ => ?_) rfl ?_ (fun _ => ?_))
      · rw [admission, hverdict]
      · refine (Moved.ensured db _).cast (fun k => Iff.rfl) (fun k => ?_)
        simp [addedOn]
      · rw [db.ensured_ledger]
        exact (List.append_nil _).symm
    | fails hverdict =>
      refine LevelsRun.of_eq (Prog.within_bind_error hrun _) (.fails (fun _ => ?_))
      rw [admission, hverdict]

end Levels

/-! ## The compensation -/

section Compensation

variable {moment : Moment} {command : BudgetCommand} {db : BudgetDb} {x : Uuid}

variable (moment x) in
/-- A reservation of an existing row that holds its amount is taken back. -/
theorem onView_compensateLevel {r : BudgetReservation} {row : PeriodState}
    (hamount : 0 ≤ r.amountMicros) (hrow : db.states (r.key command.tenantId) = some row)
    (hheld : r.amountMicros ≤ row.reservedMicros) : ∃ db',
    onView moment (compensateLevel command r) (db, x) = (.ok (), db', x)
      ∧ Moved [r.key command.tenantId]
        (fun k => if k = r.key command.tenantId then -r.amountMicros else 0) db db'
      ∧ db'.ledger = (db.withEntry (entryOf command .RELEASE "rejected downstream" r)).ledger := by
  obtain ⟨row', hchange, hshift, -⟩ := PeriodState.change?_totalsShifted row
    (show 0 ≤ row.reservedMicros + -r.amountMicros by omega)
  have hupdate := onView_changeState moment x hrow hchange
  obtain ⟨new, happend⟩ := onView_appendLedger moment
    ((BudgetWrite.setState (r.key command.tenantId) row').apply db) x command
    (r.key command.tenantId) .RELEASE (some r.ledgerEntryId) r.contingency
    ("rejected downstream") hamount (by decide)
  refine ⟨_, (Prog.within_bind_ok hupdate _).trans (Prog.within_bind_ok happend _), ?_, ?_⟩
  · have hentry := Moved.of_states
      (((BudgetWrite.setState (r.key command.tenantId) row').apply db).withEntry_budgets
        (entryOf command .RELEASE "rejected downstream" r))
      (BudgetDb.withEntry_states _ _)
    refine ((Moved.setState hrow hshift).trans hentry).cast (fun k => by simp) (fun k => ?_)
    exact add_zero _
  · have hledger : ((BudgetWrite.setState (r.key command.tenantId) row').apply db).ledger
        = db.ledger := rfl
    exact BudgetDb.withEntry_congr hledger (entryOf command .RELEASE "rejected downstream" r)

variable (moment x) in
/-- **The compensation takes back what the loop has added.** The induction is on
the reservations, and `db₀` are the tables before the loop. -/
theorem onView_compensate {db₀ : BudgetDb} {keys : List PeriodKey} {rs : List BudgetReservation}
    (hest : 0 ≤ command.estimatedMicros)
    (hrs : ∀ r ∈ rs, r.amountMicros = command.estimatedMicros)
    (hkeys : ∀ r ∈ rs, r.key command.tenantId ∈ keys)
    (hmoved : Moved keys (addedOn command (rs.map (·.key command.tenantId))) db₀ db) : ∃ db',
    onView moment (Prog.forEach (compensateLevel command) rs) (db, x) = (.ok (), db', x)
      ∧ Moved keys (fun _ => 0) db₀ db'
      ∧ ((rs.map (·.ledgerEntryId)).Nodup →
        (∀ r ∈ rs, ∀ e ∈ db.ledger, e.reserveId = r.ledgerEntryId → e.entryType ≠ .RELEASE) →
        db'.ledger
          = db.ledger ++ rs.map (entryOf command .RELEASE "rejected downstream")) := by
  induction rs generalizing db with
  | nil =>
    refine ⟨db, rfl, hmoved.cast (fun k => Iff.rfl) (fun k => ?_), fun _ _ => ?_⟩
    · simp [addedOn]
    · exact (List.append_nil _).symm
  | cons r rs ih =>
    have hamount := hrs r List.mem_cons_self
    have hadded : ∀ k, addedOn command ((r :: rs).map (·.key command.tenantId)) k
        + (if k = r.key command.tenantId then -r.amountMicros else 0)
        = addedOn command (rs.map (·.key command.tenantId)) k := by
      intro k
      unfold addedOn
      rw [List.map_cons, hamount]
      by_cases hk : k = r.key command.tenantId
      · rw [if_pos hk, hk, List.count_cons_self, Nat.cast_add, Nat.cast_one, mul_add, mul_one,
          add_neg_cancel_right]
      · rw [if_neg hk, List.count_cons_of_ne (Ne.symm hk), add_zero]
    obtain ⟨row, hrow⟩ := Option.isSome_iff_exists.mp
      (hmoved.exist _ (hkeys r List.mem_cons_self))
    have hheld : r.amountMicros ≤ row.reservedMicros := by
      have hshift := (hmoved.row (r.key command.tenantId)).reserved
      have hat : db.rowAt (r.key command.tenantId) = row := by rw [BudgetDb.rowAt, hrow]; rfl
      have hbefore := (db₀.rowAt (r.key command.tenantId)).reserved_nonneg
      have hsum := hadded (r.key command.tenantId)
      rw [if_pos rfl] at hsum
      have hrest : 0 ≤ addedOn command (rs.map (·.key command.tenantId))
          (r.key command.tenantId) := Int.mul_nonneg hest (Int.natCast_nonneg _)
      rw [hat] at hshift
      omega
    obtain ⟨db₁, hrun, hmoved₁, hledger₁⟩ := onView_compensateLevel moment x
      (hamount ▸ hest) hrow hheld
    have hmoved₂ : Moved keys (addedOn command (rs.map (·.key command.tenantId))) db₀ db₁ := by
      refine (hmoved.trans hmoved₁).cast (fun k => ?_) hadded
      rw [List.mem_append, List.mem_singleton]
      exact ⟨fun h => h.elim id (fun h => h ▸ hkeys r List.mem_cons_self), Or.inl⟩
    obtain ⟨db', hrun', hmoved', hledger'⟩ := ih
      (fun r' hr' => hrs r' (List.mem_cons_of_mem _ hr'))
      (fun r' hr' => hkeys r' (List.mem_cons_of_mem _ hr')) hmoved₂
    refine ⟨db', (Prog.within_bind_ok hrun _).trans hrun', hmoved', fun hnodup hopen => ?_⟩
    obtain ⟨hnew, hnodup'⟩ := List.nodup_cons.mp hnodup
    have hentry : db₁.ledger = db.ledger ++ [entryOf command .RELEASE "rejected downstream" r] :=
      hledger₁.trans (BudgetDb.withEntry_ledger (hopen r List.mem_cons_self))
    rw [hledger' hnodup' (fun r' hr' e he hid => ?_), hentry, List.append_assoc]
    · rfl
    · rw [hentry] at he
      obtain he | he := List.mem_append.mp he
      · exact hopen r' (List.mem_cons_of_mem _ hr') e he hid
      · rw [List.mem_singleton.mp he] at hid
        exact absurd (List.mem_map.mpr ⟨r', hr', hid.symm⟩) hnew

end Compensation

/-! ## The transaction -/

/-- The levels a command has in the tables. -/
abbrev levelsIn (moment : Moment) (command : BudgetCommand) (db : BudgetDb) :
    Except PyException (List Level) :=
  applicableLevels moment command (db.budgets.filter (fun b => b.tenantId = command.tenantId))

/-- The entry of a rejection. -/
def rejectEntry (command : BudgetCommand) (level : Level) (id : Uuid) : LedgerEntry :=
  ⟨ledgerDraft command (level.key command.tenantId) .REJECT command.estimatedMicros false
    "limit exhausted" "system", id⟩

/-- **What a rejection leaves behind**: no total has moved, the rows up to the
rejecting level exist, and the ledger has a reservation and its release for
every level before it, and the rejection. -/
structure Rejection (command : BudgetCommand) (levels : List Level) (db db' : BudgetDb) :
    Prop where
  trace : ∃ pre level post, levels = pre ++ level :: post
    ∧ Moved (keysOf command (pre ++ [level])) (fun _ => 0) db db'
    ∧ ∃ secured : List BudgetReservation, ∃ id : Uuid,
      secured.map (·.key command.tenantId) = keysOf command pre
      ∧ (∀ r ∈ secured, r.amountMicros = command.estimatedMicros ∧ r.contingency = false)
      ∧ (secured.map (·.ledgerEntryId)).Nodup ∧ (∀ r ∈ secured, r.ledgerEntryId ≠ id)
      ∧ (∀ e ∈ db.ledger, e.reserveId ≠ id ∧ ∀ r ∈ secured, e.reserveId ≠ r.ledgerEntryId)
      ∧ db'.ledger = db.ledger ++ secured.map (entryOf command .RESERVE "")
        ++ secured.map (entryOf command .RELEASE "rejected downstream")
        ++ [rejectEntry command level id]

/-- **The ways the transaction of a reservation ends**, when it has found its
levels. -/
inductive ReserveRun (command : BudgetCommand) (levels : List Level) (db : BudgetDb) (x : Uuid) :
    Except PyException (Option BudgetReservationBundle) × (BudgetDb × Uuid) → Prop
  | admits {alerts : List String} {db' : BudgetDb} {x' : Uuid}
      (hverdict : (keysOf command levels).Nodup → admission db command levels = .admits)
      (hmoved : Moved (keysOf command levels) (addedOn command (keysOf command levels)) db db') :
      ReserveRun command levels db x
        (.ok (some ⟨command, reservationsOf command levels x, alerts⟩), db', x')
  | rejects {db' : BudgetDb} {x' : Uuid}
      (hverdict : (keysOf command levels).Nodup → admission db command levels = .rejects)
      (htrace : (∀ e ∈ db.ledger, e.reserveId < x) → Rejection command levels db db') :
      ReserveRun command levels db x (.ok none, db', x')
  | fails {v : BudgetDb × Uuid}
      (hverdict : (keysOf command levels).Nodup → admission db command levels = .fails) :
      ReserveRun command levels db x (.error .sqlAlchemy, v)

section Transaction

variable {moment : Moment} {command : BudgetCommand} {levels : List Level} {db : BudgetDb}
  {x : Uuid}

theorem ReserveRun.of_eq {u v : Except PyException (Option BudgetReservationBundle)
    × (BudgetDb × Uuid)} (h : u = v) (hv : ReserveRun command levels db x v) :
    ReserveRun command levels db x u := h ▸ hv

variable (moment command db x) in
theorem onView_findLevels : onView moment (findLevels command) (db, x)
    = (levelsIn moment command db, db, x) := by
  refine (Prog.within_bind_ok (onView_ask _ _ _ .clock) _).trans
    ((Prog.within_bind_ok (onView_ask _ _ _ (.selectBudgets command.tenantId)) _).trans ?_)
  cases hlevels : levelsIn moment command db with
  | ok levels =>
    unfold levelsIn at hlevels
    erw [hlevels]
    rfl
  | error e =>
    unfold levelsIn at hlevels
    erw [hlevels]
    rfl

/-- The levels found have budgets. -/
theorem budgetOf_of_levelsIn (hlevels : levelsIn moment command db = .ok levels) :
    ∀ level ∈ levels, budgetOf db (level.key command.tenantId) = true := by
  intro level hlevel
  have hmem := (applicableLevels_ok hlevels).subset (List.mem_map_of_mem hlevel)
  obtain ⟨b, hb, hpair⟩ := List.mem_map.mp hmem
  obtain ⟨hb, htenant⟩ := List.mem_filter.mp hb
  refine List.any_eq_true.mpr ⟨b, hb, decide_eq_true ⟨of_decide_eq_true htenant, ?_⟩⟩
  exact (Prod.mk.inj hpair).1

/-- **The rejection of a level, after those before it were secured.** -/
theorem reserveRun_rejects {pre post : List Level} {level : Level} {db₁ : BudgetDb}
    (hest : 0 ≤ command.estimatedMicros)
    (hverdict : (keysOf command levels).Nodup → admission db command levels = .rejects)
    (hlevels : levels = pre ++ level :: post)
    (hmoved : Moved (keysOf command (pre ++ [level])) (addedOn command (keysOf command pre)) db db₁)
    (hledger : (∀ e ∈ db.ledger, e.reserveId < x) → db₁.ledger
      = db.ledger ++ (reservationsOf command pre x).map (entryOf command .RESERVE "")) :
    ReserveRun command levels db x (onView moment (do
      Prog.forEach (compensateLevel command) (reservationsOf command pre x)
      let _ ← appendLedger command (level.key command.tenantId) .REJECT command.estimatedMicros
        none false "limit exhausted"
      return none) (db₁, x + pre.length)) := by
  have hmem : ∀ r ∈ reservationsOf command pre x,
      r.key command.tenantId ∈ keysOf command (pre ++ [level]) := by
    intro r hr
    have hkey : r.key command.tenantId
        ∈ (reservationsOf command pre x).map (·.key command.tenantId) := List.mem_map_of_mem hr
    rw [reservationsOf_key] at hkey
    rw [keysOf, List.map_append]
    exact List.mem_append_left _ hkey
  obtain ⟨db₂, hrun₂, hmoved₂, hledger₂⟩ := onView_compensate moment (x + pre.length) hest
    (fun r hr => (mem_reservationsOf hr).1) hmem
    (by rw [reservationsOf_key]; exact hmoved)
  obtain ⟨new, happend⟩ := onView_appendLedger moment db₂ (x + pre.length) command
    (level.key command.tenantId) .REJECT none false ("limit exhausted") hest (by decide)
  refine ReserveRun.of_eq ((Prog.within_bind_ok hrun₂ _).trans (Prog.within_bind_ok happend _))
    (.rejects hverdict (fun hfresh => ⟨pre, level, post, hlevels, ?_,
    reservationsOf command pre x, x + pre.length, reservationsOf_key pre x,
    fun r hr => ⟨(mem_reservationsOf hr).1, (mem_reservationsOf hr).2.1⟩,
    nodup_reservationsOf pre x, fun r hr => Nat.ne_of_lt (mem_reservationsOf hr).2.2.2,
    fun e he => ⟨?_, fun r hr => ?_⟩, ?_⟩))
  · have hentry := Moved.of_states (db₂.withEntry_budgets
      (rejectEntry command level (x + pre.length)))
      (db₂.withEntry_states _)
    exact (hmoved₂.trans hentry).cast (fun k => by simp) (fun k => add_zero 0)
  · exact Nat.ne_of_lt (Nat.lt_of_lt_of_le (hfresh e he) (Nat.le_add_right _ _))
  · exact Nat.ne_of_lt (Nat.lt_of_lt_of_le (hfresh e he) (mem_reservationsOf hr).2.2.1)
  · have hreleased := hledger₂ (nodup_reservationsOf pre x) (by
      intro r hr e he hid
      rw [hledger hfresh] at he
      obtain he | he := List.mem_append.mp he
      · have hlt := Nat.lt_of_lt_of_le (hfresh e he) (mem_reservationsOf hr).2.2.1
        exact absurd hid (Nat.ne_of_lt hlt)
      · obtain ⟨r', -, rfl⟩ := List.mem_map.mp he
        exact LedgerEntryType.noConfusion)
    have hlast : (db₂.withEntry (rejectEntry command level (x + pre.length))).ledger
        = db₂.ledger ++ [rejectEntry command level (x + pre.length)] := by
      refine BudgetDb.withEntry_ledger (fun e he hid => ?_)
      rw [hreleased, hledger hfresh] at he
      obtain he | he := List.mem_append.mp he
      · obtain he | he := List.mem_append.mp he
        · have hlt := Nat.lt_of_lt_of_le (hfresh e he) (Nat.le_add_right x pre.length)
          exact absurd hid (Nat.ne_of_lt hlt)
        · obtain ⟨r, -, rfl⟩ := List.mem_map.mp he
          exact LedgerEntryType.noConfusion
      · obtain ⟨r, -, rfl⟩ := List.mem_map.mp he
        exact LedgerEntryType.noConfusion
    show (db₂.withEntry (rejectEntry command level (x + pre.length))).ledger = _
    rw [hlast, hreleased, hledger hfresh]

variable (moment x) in
/-- **The transaction of a reservation** ends in one of its ways. -/
theorem reserveRun (hest : 0 ≤ command.estimatedMicros)
    (hlevels : levelsIn moment command db = .ok levels) :
    ReserveRun command levels db x (onView moment (reserveTransaction command) (db, x)) := by
  have hfind := onView_findLevels moment command db x
  rw [hlevels] at hfind
  have hloop := levelsRun moment [] x hest
    (budgetOf_of_levelsIn hlevels) []
  generalize hrun : onView moment (reserveLevels command levels [] []) (db, x) = u at hloop
  refine ReserveRun.of_eq (Prog.within_bind_ok hfind _) ?_
  cases hloop with
  | admits hverdict hmoved hledger =>
    exact ReserveRun.of_eq (Prog.within_bind_ok hrun _) (.admits hverdict hmoved)
  | rejects hverdict hpre hmoved hledger =>
    exact ReserveRun.of_eq (Prog.within_bind_ok hrun _)
      (reserveRun_rejects hest hverdict hpre hmoved hledger)
  | fails hverdict =>
    exact ReserveRun.of_eq (Prog.within_bind_error hrun _) (.fails hverdict)

end Transaction

/-! ## Estimates the ledger does not take -/

section Negative

variable {moment : Moment} {command : BudgetCommand} {db : BudgetDb} {x : Uuid}

/-- The ledger takes no negative amount. -/
theorem onView_appendLedger_error {key : PeriodKey} {type : LedgerEntryType} {amount : ℤ}
    {reserveId : Option Uuid} {contingency : Bool} {reason : String} (hamount : amount < 0)
    (hreason : reason.length ≤ 500) :
    (onView moment (appendLedger command key type amount reserveId contingency reason) (db, x)).1
      = .error .sqlAlchemy := by
  refine onView_append_error ?_
  rw [ledgerDraft_valid hreason]
  exact decide_eq_false (Int.not_le.mpr hamount)

variable (moment x) in
theorem onView_reserveState_error {key : PeriodKey} {row : PeriodState} {amount limit : ℤ}
    (hrow : db.states key = some row)
    (hguard : row.reservedMicros + row.consumedMicros + amount ≤ limit)
    (hchange : row.change? amount 0 0 0 = none) :
    (onView moment (BudgetOp.ask (.reserveState key amount limit)) (db, x)).1
      = .error .sqlAlchemy := by
  rw [onView_ask _ _ _]
  simp only [BudgetOp.exec, updateState, hrow, hchange, decide_eq_true hguard, if_true]

variable (moment x) in
/-- A level fails on a negative estimate, unless it rejects it. -/
theorem onView_reserveLevel_neg {level : Level} (hest : command.estimatedMicros < 0)
    (hbudget : budgetOf db (level.key command.tenantId) = true) :
    (onView moment (reserveLevel command level) (db, x)).1 = .error .sqlAlchemy
      ∨ (onView moment (reserveLevel command level) (db, x)).1 = .ok none := by
  cases hfits : keyFits db (level.key command.tenantId) with
  | false =>
    have hensure := onView_ensure_error moment x hfits
    exact .inl (congrArg Prod.fst (Prog.within_bind_error hensure _))
  | true =>
    have hensure := onView_ensure moment x hfits hbudget
    have hselect := onView_selectState moment (db.ensured (level.key command.tenantId)) x
        (level.key command.tenantId)
    have hrow := db.ensured_states_self (level.key command.tenantId)
    rw [hrow] at hselect
    have hstep : onView moment (reserveLevel command level) (db, x) = _ :=
      (Prog.within_bind_ok hensure _).trans (Prog.within_bind_ok hselect _)
    rw [hstep]
    dsimp only
    cases hdecision : evaluateLevel (usedAfter db command level)
        (effectiveLimit db command level) with
    | REJECT =>
      erw [hdecision]
      exact .inr rfl
    | allow alert =>
      erw [hdecision]
      refine .inl ?_
      have hguard := le_of_evaluateLevel hdecision
      cases hchange : (db.rowAt (level.key command.tenantId)).change?
          command.estimatedMicros 0 0 0 with
      | none =>
        have herror := onView_reserveState_error moment x hrow hguard hchange
        exact congrArg Prod.fst (Prog.within_bind_error (Prod.ext herror rfl) _)
      | some row' =>
        have hreserve := onView_reserveState moment x hrow hguard hchange
        refine (congrArg Prod.fst (Prog.within_bind_ok hreserve _)).trans ?_
        exact congrArg Prod.fst (Prog.within_bind_error
          (Prod.ext (onView_appendLedger_error hest (by decide)) rfl) _)

variable (moment x) in
/-- **A negative estimate fails**, if any level applies. -/
theorem onView_reserveTransaction_neg {level : Level} {levels : List Level}
    (hest : command.estimatedMicros < 0)
    (hlevels : levelsIn moment command db = .ok (level :: levels)) :
    (onView moment (reserveTransaction command) (db, x)).1 = .error .sqlAlchemy := by
  have hfind := onView_findLevels moment command db x
  rw [hlevels] at hfind
  refine (congrArg Prod.fst (Prog.within_bind_ok hfind _)).trans ?_
  have hlevel := onView_reserveLevel_neg moment x hest
    (budgetOf_of_levelsIn hlevels level List.mem_cons_self)
  obtain herror | hnone := hlevel
  · have hloop : onView moment (reserveLevels command (level :: levels) [] []) (db, x) = _ :=
      Prog.within_bind_error (Prod.ext herror rfl) _
    exact congrArg Prod.fst (Prog.within_bind_error hloop _)
  · have hloop : onView moment (reserveLevels command (level :: levels) [] []) (db, x) = _ :=
      Prog.within_bind_ok (Prod.ext hnone rfl) _
    refine (congrArg Prod.fst (Prog.within_bind_ok hloop _)).trans ?_
    exact congrArg Prod.fst (Prog.within_bind_error
      (Prod.ext (onView_appendLedger_error hest (by decide)) rfl) _)

variable (moment x) in
/-- Without levels nothing is asked of the tables. -/
theorem onView_reserveTransaction_nil (hlevels : levelsIn moment command db = .ok []) :
    onView moment (reserveTransaction command) (db, x) = (.ok (some ⟨command, [], []⟩), db, x) := by
  have hfind := onView_findLevels moment command db x
  rw [hlevels] at hfind
  exact (Prog.within_bind_ok hfind _).trans rfl

/-- Levels that cannot be found end the transaction. -/
theorem onView_reserveTransaction_error {e : PyException}
    (hlevels : levelsIn moment command db = .error e) :
    onView moment (reserveTransaction command) (db, x) = (.error e, db, x) := by
  have hfind := onView_findLevels moment command db x
  rw [hlevels] at hfind
  exact Prog.within_bind_error hfind _

end Negative
