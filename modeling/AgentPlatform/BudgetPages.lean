import AgentPlatform.Budgets
import AgentPlatform.Cursors
import AgentPlatform.Keyset
import Mathlib.Data.Prod.Lex
import Mathlib.Data.String.Basic

/-!
# The pages of the ledger and of the alerts

`list_cost_ledger` lists the ledger by `created_at` and `id`, and
`list_budget_alerts` the alerts by budget, period and level. Both take the
cursor of the next page from one column only – the `id` of an entry, the budget
of an alert – and go on with the rows whose column is greater.

Neither column is the order of its list. An entry gets its `id` when it is
appended and its `created_at` when its transaction began, so of two transactions
the later may have the smaller identifiers; and a budget has an alert for each
of its periods and levels. What a client gets that follows the cursors is told
by the cuts of the pages (`pagination_complete_iff`): every entry exactly once
if each cut is one of the identifiers, too, and every alert exactly once if no
cut goes through a budget.
-/

/-! ## The tables -/

/-- A row of `tenant.cost_ledger`, with its identifier and the time its
transaction began. -/
structure LedgerRow extends LedgerEntry where
  id : Uuid
  createdAt : Timestamp
  deriving DecidableEq

/-- **The table `tenant.cost_ledger`.** -/
structure LedgerTable where
  rows : List LedgerRow
  primaryKey : (rows.map (fun r => (r.period.tenantId, r.id))).Nodup
  uuids : ∀ r ∈ rows, r.id < 2 ^ 128

/-- A row of `tenant.budget_alert`. -/
structure AlertRow extends BudgetAlert where
  period : PeriodKey
  level : AlertLevel
  createdAt : Timestamp
  deriving DecidableEq

/-- **The table `tenant.budget_alert`.** -/
structure AlertTable where
  rows : List AlertRow
  primaryKey : (rows.map (fun r => (r.period, r.level))).Nodup
  uuids : ∀ r ∈ rows, r.period.budgetId < 2 ^ 128

/-- The size of a page, `Query(ge=1, le=200)`. -/
structure PageSize where
  value : ℕ
  pos : 1 ≤ value
  le : value ≤ 200

/-! ## The endpoints -/

/-- The filters of the ledger: a parameter that is not given filters nothing. -/
def matchesLedger (tenantId : Uuid) (executionId : Option String) (budgetId : Option Uuid)
    (r : LedgerRow) : Bool :=
  r.period.tenantId = tenantId
    && (match executionId with
      | none => true
      | some executionId => r.executionId = some executionId)
    && (match budgetId with
      | none => true
      | some budgetId => r.period.budgetId = budgetId)

/-- **What a list endpoint does**: the cursor is decoded, the matching rows whose
`cur` is greater are ordered by `key`, and one row more than the page holds is
asked for. -/
def listPage {Row σ : Type} [LinearOrder σ] (cur : Row → Uuid) (key : Row → σ)
    (matching : Row → Bool) (rows : List Row) (limit : PageSize) (cursor : Option String) :
    Except PyException (List Row × Option String) :=
  match decodeCursor cursor with
  | .error _ => .error (httpException 400 "invalid cursor")
  | .ok cursorId =>
    let found := (Keyset.listed key (rows.filter (fun r =>
      Keyset.behind cur cursorId r && matching r))).take (limit.value + 1)
    let page := found.take limit.value
    .ok (page, if limit.value < found.length then
      page.getLast?.map (fun r => encodeCursor (cur r)) else none)

/-- `ORDER BY created_at,id`. -/
def ledgerOrder (r : LedgerRow) : Timestamp ×ₗ Uuid := toLex (r.createdAt, r.id)

/-- **`list_cost_ledger`**: the entries of the page, and `next_cursor`. -/
def listCostLedger (table : LedgerTable) (tenantId : Uuid) (executionId : Option String)
    (budgetId : Option Uuid) (limit : PageSize) (cursor : Option String) :
    Except PyException (List LedgerRow × Option String) :=
  listPage LedgerRow.id ledgerOrder (matchesLedger tenantId executionId budgetId) table.rows limit
    cursor

/-- The cursor value of an alert. -/
def AlertRow.budgetId (r : AlertRow) : Uuid := r.period.budgetId

section Collation

variable {T : Type} [LinearOrder T] (collate : String ↪ T)

/-- `ORDER BY budget_id,period_key,level`. Texts are compared under the collation
of the database, which tells different texts apart. -/
def alertOrder (r : AlertRow) : Uuid ×ₗ T ×ₗ T :=
  toLex (r.budgetId, toLex (collate r.period.periodKey, collate r.level.str))

/-- **`list_budget_alerts`**: the alerts of the page, and `next_cursor`. -/
def listBudgetAlerts (table : AlertTable) (tenantId : Uuid) (limit : PageSize)
    (cursor : Option String) : Except PyException (List AlertRow × Option String) :=
  listPage AlertRow.budgetId (alertOrder collate) (fun r => r.period.tenantId = tenantId) table.rows
    limit cursor

end Collation

/-! ## Following the cursors of an endpoint -/

section Walk

variable {Row σ : Type} [LinearOrder σ] {cur : Row → Uuid} {key : Row → σ}
  {matching : Row → Bool} {rows : List Row}

/-- A request with the cursor of a row is answered with the page behind it. -/
theorem listPage_eq (limit : PageSize) (huuids : ∀ r ∈ rows, cur r < 2 ^ 128) (c : Option Uuid)
    (hc : ∀ k, c = some k → ∃ r ∈ rows.filter matching, cur r = k) :
    listPage cur key matching rows limit (c.map encodeCursor)
      = .ok ((Keyset.page cur key limit.value (rows.filter matching) c).1,
        (Keyset.page cur key limit.value (rows.filter matching) c).2.map encodeCursor) := by
  have hdecode : decodeCursor (c.map encodeCursor) = .ok c := by
    cases c with
    | none => rfl
    | some k =>
      obtain ⟨r, hr, rfl⟩ := hc k rfl
      exact decodeCursor_encodeCursor (huuids r (List.mem_filter.mp hr).1)
  have hfilter : rows.filter (fun r => Keyset.behind cur c r && matching r)
      = (rows.filter matching).filter (Keyset.behind cur c) := List.filter_filter.symm
  rw [listPage, hdecode]
  dsimp only
  rw [hfilter, Keyset.page]
  generalize (Keyset.listed key ((rows.filter matching).filter (Keyset.behind cur c))).take
    (limit.value + 1) = found
  refine congrArg Except.ok (Prod.ext rfl ?_)
  show (if _ then _ else _) = Option.map encodeCursor (if _ then _ else _)
  split
  · rw [Option.map_map]
    rfl
  · rfl

/-- **Following `next_cursor` to the end returns every matching row exactly once
if and only if the cursors cut the list where its order does.** -/
theorem follow_listPage (limit : PageSize) (huuids : ∀ r ∈ rows, cur r < 2 ^ 128)
    (hnodup : rows.Nodup)
    (hkey : ∀ a ∈ rows.filter matching, ∀ b ∈ rows.filter matching, key a = key b → a = b) :
    ∃ seen, Keyset.Follow (listPage cur key matching rows limit) none seen
      ∧ (seen.Perm (rows.filter matching)
        ↔ Keyset.CutsClean cur limit.value (Keyset.listed key (rows.filter matching))) := by
  have hperm : (Keyset.listed key (rows.filter matching)).Perm (rows.filter matching) :=
    Keyset.listed_perm _
  refine ⟨_, Keyset.follow_walk cur limit.value limit.pos hkey encodeCursor
    (listPage_eq limit huuids), ?_⟩
  have hlisted : (Keyset.listed key (rows.filter matching)).Nodup :=
    hperm.nodup_iff.mpr (hnodup.filter _)
  rw [← Keyset.walk_perm_iff limit.pos hlisted]
  exact ⟨fun h => h.trans hperm.symm, fun h => h.trans hperm⟩

end Walk

theorem LedgerTable.key_injective (table : LedgerTable) (tenantId : Uuid)
    (executionId : Option String) (budgetId : Option Uuid) :
    ∀ a ∈ table.rows.filter (matchesLedger tenantId executionId budgetId),
    ∀ b ∈ table.rows.filter (matchesLedger tenantId executionId budgetId),
    ledgerOrder a = ledgerOrder b → a = b := by
  have htenant : ∀ r, matchesLedger tenantId executionId budgetId r = true →
      r.period.tenantId = tenantId := by
    intro r hr
    unfold matchesLedger at hr
    rw [Bool.and_eq_true, Bool.and_eq_true] at hr
    exact of_decide_eq_true hr.1.1
  intro a ha b hb hkey
  obtain ⟨ha, hma⟩ := List.mem_filter.mp ha
  obtain ⟨hb, hmb⟩ := List.mem_filter.mp hb
  have hid : a.id = b.id := congrArg Prod.snd (toLex.injective hkey)
  exact List.inj_on_of_nodup_map table.primaryKey ha hb
    (Prod.ext ((htenant a hma).trans (htenant b hmb).symm) hid)

theorem AlertTable.key_injective {T : Type} [LinearOrder T] (collate : String ↪ T)
    (table : AlertTable) (tenantId : Uuid) :
    ∀ a ∈ table.rows.filter (fun r => decide (r.period.tenantId = tenantId)),
    ∀ b ∈ table.rows.filter (fun r => decide (r.period.tenantId = tenantId)),
    alertOrder collate a = alertOrder collate b → a = b := by
  intro a ha b hb hkey
  obtain ⟨ha, hma⟩ := List.mem_filter.mp ha
  obtain ⟨hb, hmb⟩ := List.mem_filter.mp hb
  have hpair := toLex.injective hkey
  have htexts := toLex.injective (congrArg Prod.snd hpair)
  have hperiod : a.period = b.period := by
    have hbudget : a.period.budgetId = b.period.budgetId := congrArg Prod.fst hpair
    have hkeys := collate.injective (congrArg Prod.fst htexts)
    have htenant := (of_decide_eq_true hma).trans (of_decide_eq_true hmb).symm
    calc a.period = ⟨a.period.tenantId, a.period.budgetId, a.period.periodKey⟩ := rfl
      _ = ⟨b.period.tenantId, b.period.budgetId, b.period.periodKey⟩ := by
        rw [htenant, hbudget, hkeys]
      _ = b.period := rfl
  have hlevel : a.level = b.level := by
    have hstr := collate.injective (congrArg Prod.snd htexts)
    revert hstr
    generalize a.level = l, b.level = l'
    cases l <;> cases l' <;> decide
  exact List.inj_on_of_nodup_map table.primaryKey ha hb (Prod.ext hperiod hlevel)

/-! ## The two lists -/

/-- **No cut goes through a budget**: the alerts before and after the end of a
page are of different budgets. -/
def BudgetsUncut (limit : PageSize) (alerts : List AlertRow) : Prop :=
  ∀ k, 0 < k → k * limit.value < alerts.length →
    ∀ a, (alerts.take (k * limit.value)).getLast? = some a →
    ∀ b, (alerts.drop (k * limit.value)).head? = some b → a.budgetId ≠ b.budgetId

/-- **When the pages are complete**: following `next_cursor` until it is null ends,
and returns every matching row exactly once, if and only if – for the ledger –
each cut of the list is a cut of the identifiers, and – for the alerts – no cut
goes through a budget. -/
theorem pagination_complete_iff {T : Type} [LinearOrder T] (collate : String ↪ T) (tenantId : Uuid)
    (limit : PageSize) :
    (∀ (table : LedgerTable) (executionId : Option String) (budgetId : Option Uuid), ∃ seen,
      Keyset.Follow (listCostLedger table tenantId executionId budgetId limit) none seen
      ∧ (seen.Perm (table.rows.filter (matchesLedger tenantId executionId budgetId))
        ↔ Keyset.CutsClean LedgerRow.id limit.value (Keyset.listed ledgerOrder
          (table.rows.filter (matchesLedger tenantId executionId budgetId)))))
    ∧ ∀ table : AlertTable, ∃ seen,
      Keyset.Follow (listBudgetAlerts collate table tenantId limit) none seen
      ∧ (seen.Perm (table.rows.filter (fun r => r.period.tenantId = tenantId))
        ↔ BudgetsUncut limit (Keyset.listed (alertOrder collate)
          (table.rows.filter (fun r => r.period.tenantId = tenantId)))) := by
  refine ⟨fun table executionId budgetId => ?_, fun table => ?_⟩
  · exact follow_listPage limit table.uuids (List.Nodup.of_map _ table.primaryKey)
      (table.key_injective tenantId executionId budgetId)
  · obtain ⟨seen, hfollow, hiff⟩ := follow_listPage limit table.uuids
      (List.Nodup.of_map _ table.primaryKey) (table.key_injective collate tenantId)
    refine ⟨seen, hfollow, hiff.trans (Keyset.cutsClean_iff_of_pairwise ?_)⟩
    -- The alerts are listed by budget first.
    exact (Keyset.listed_pairwise (alertOrder collate) _).imp
      (fun hle => Prod.Lex.monotone_fst _ _ hle)

/-! ### Rows that are never returned -/

/-- An entry of one month. -/
def ledgerRowAt (id : Uuid) (createdAt : Timestamp) : LedgerRow where
  period := ⟨1, 5, "2026-07"⟩
  applicationId := none
  executionId := none
  entryType := .RESERVE
  amountMicros := 10
  contingency := false
  reason := ""
  actor := "system"
  priceVersion := none
  reserveId := id
  id := id
  createdAt := createdAt

/-- An alert of one month. -/
def alertRowAt (level : AlertLevel) : AlertRow where
  usedMicros := 90
  limitMicros := 100
  period := ⟨1, 5, "2026-07"⟩
  level := level
  createdAt := 0

/-- Two transactions: the one that began first has appended its entry last. -/
def crossedLedger : LedgerTable where
  rows := [ledgerRowAt 7 1, ledgerRowAt 6 2]
  primaryKey := by decide
  uuids := by decide

/-- Both alerts of one month. -/
def bothAlerts : AlertTable where
  rows := [alertRowAt .WARNING_70, alertRowAt .CRITICAL_90]
  primaryKey := by decide
  uuids := by decide

/-- Pages of one row. -/
def oneRow : PageSize := ⟨1, by decide, by decide⟩

/-- **The second row is never returned**, of two entries whose identifiers run
against their times, and of the two alerts of a budget. -/
theorem pages_incomplete :
    (∀ seen, Keyset.Follow (listCostLedger crossedLedger 1 none none oneRow) none seen →
      ¬ seen.Perm (crossedLedger.rows.filter (matchesLedger 1 none none)))
    ∧ ∀ seen, Keyset.Follow (listBudgetAlerts (Function.Embedding.refl String) bothAlerts 1 oneRow)
        none seen →
      ¬ seen.Perm (bothAlerts.rows.filter (fun r => r.period.tenantId = 1)) := by
  obtain ⟨hledger, halerts⟩ :=
    pagination_complete_iff (Function.Embedding.refl String) 1 oneRow
  refine ⟨fun seen hseen hperm => ?_, fun seen hseen hperm => ?_⟩
  · obtain ⟨seen', hfollow, hiff⟩ := hledger crossedLedger none none
    rw [hseen.unique hfollow] at hperm
    have hcut := hiff.mp hperm 1 Nat.one_pos (by decide) (ledgerRowAt 7 1) rfl
    exact absurd (hcut.2 (ledgerRowAt 6 2) (List.mem_singleton_self _)) (by decide)
  · obtain ⟨seen', hfollow, hiff⟩ := halerts bothAlerts
    rw [hseen.unique hfollow] at hperm
    exact hiff.mp hperm 1 Nat.one_pos (by decide) (alertRowAt .CRITICAL_90) rfl
      (alertRowAt .WARNING_70) rfl rfl
