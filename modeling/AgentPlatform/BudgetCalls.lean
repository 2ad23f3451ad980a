import AgentPlatform.BudgetRuns

/-!
# Budgets under concurrent calls

Any number of calls of `reserve`, `settle`, `release` and `adjust` run at
once, their statements interleaved in any order, while administrators change
the settings of budgets. Every call keeps the books on its own, so by
`Pool.reach_safe` the invariant of the service holds in every reachable state.

* **The limit is hard** (`budget_limit_kept`): as long as no limit is lowered,
  no allowance is taken back and no settlement charges more than was
  reserved, the totals of every period stay within limit and allowance; and a
  reservation that succeeded was added in full to every level that applies, or
  – when its outcome was not known and a contingency was drawn – to none.

* **The totals are those of the ledger** (`ledger_conserved`), in every run in
  which a contingency reservation is never closed and no reservation is both
  settled and released. The service sees to neither:
  `ledger_drifts_on_contingency` is a run in which a contingency reservation is
  settled.
-/

open BudgetService

/-! ## The service among its callers -/

/-- The calls of the service. -/
inductive BudgetCall where
  | reserve (command : BudgetCommand)
  | settle (bundle : BudgetReservationBundle) (actual : Option ℤ)
  | release (bundle : BudgetReservationBundle) (reason : String)
  | adjust (moment : Moment) (a : Adjustment)

/-- The program of a call; a reservation answers with its bundle. -/
def BudgetCall.body : BudgetCall → BudgetProg (Option BudgetReservationBundle)
  | .reserve command => do
    let bundle ← BudgetService.reserve command
    return some bundle
  | .settle bundle actual => do
    BudgetService.settle bundle actual
    return none
  | .release bundle reason => do
    BudgetService.release bundle reason
    return none
  | .adjust moment a => do
    BudgetService.adjust moment a
    return none

/-- New settings for the budget of a scope, as `upsert_budget` updates it. -/
structure BudgetSettings where
  tenantId : Uuid
  scope : BudgetScope
  applicationId : Option Uuid
  limitMicros : ℕ
  contingencyMicros : ℕ
  unknownPolicy : UnknownPolicy

/-- The budget under new settings, if they are for it. -/
def BudgetSettings.update (c : BudgetSettings) (b : Budget) : Budget :=
  if b.tenantId = c.tenantId ∧ b.scope = c.scope ∧ b.applicationId = c.applicationId then
    { b with
      limitMicros := c.limitMicros
      contingencyMicros := c.contingencyMicros
      unknownPolicy := c.unknownPolicy }
  else b

theorem BudgetSettings.update_identity (c : BudgetSettings) (b : Budget) :
    (c.update b).identity = b.identity := by
  unfold BudgetSettings.update
  split <;> rfl

/-- **The service among its callers.** A call that is lost leaves its
transaction to be rolled back. -/
def budgetCalls : Pool (TxOp BudgetOp) (TxRes BudgetRes) PyException (Choice Moment)
    BudgetState BudgetCall (Option BudgetReservationBundle) BudgetSettings where
  handler := budgetEngine.handler
  body := BudgetCall.body
  abandon pid s := Engine.close s pid
  env c s := some { s with
    committed := { s.committed with budgets := s.committed.budgets.map c.update } }

/-- Before the first call: budgets with keys of their own, and nothing reserved. -/
def budgetStart (s : BudgetState) : Prop :=
  ∃ budgets drawn, (budgets.map (fun b : Budget => (b.tenantId, b.id))).Nodup
    ∧ s = Engine.quiet (BudgetDb.configured budgets) drawn

/-- The service as a transition system. -/
abbrev budgetMachine := budgetCalls.machine budgetStart

/-- A state of the service and its callers. -/
abbrev BudgetCallsState := Pool.State (TxOp BudgetOp) (TxRes BudgetRes) PyException
  BudgetState BudgetCall (Option BudgetReservationBundle)

/-- A step of the service or its callers. -/
abbrev BudgetLabel := Pool.Label (Choice Moment) BudgetCall BudgetSettings

/-- The calls that keep the books: bundles are known, and – if `limit` – no more
is charged than was reserved and no allowance is taken back. -/
def budgetAdmit (limit : Prop) (s : BudgetState) : BudgetCall → Prop
  | .reserve _ => True
  | .settle bundle actual => Known bundle s
      ∧ (limit → ∀ x ∈ bundle.entries, actual.getD x.amountMicros ≤ x.amountMicros)
  | .release bundle _ => Known bundle s
  | .adjust _ a => limit → 0 ≤ a.deltaMicros

/-- The settings that keep the books: no limit is lowered, if `limit`. -/
def budgetEnvOk (limit : Prop) (s : BudgetState) (c : BudgetSettings) : Prop :=
  limit → ∀ b ∈ s.committed.budgets, b.limitMicros ≤ (c.update b).limitMicros

/-- Every call meets its postcondition. -/
theorem meets_body {ledger limit : Prop} {pid : ℕ} {s : BudgetState} {call : BudgetCall}
    (haccept : budgetAdmit limit s call) (hunused : Engine.Unused pid s) :
    Meets ledger limit pid call.body (fun r s' => ∀ bundle, r = .ok (some bundle) →
      ∃ command, call = .reserve command ∧ ReserveDone pid command bundle s') s := by
  have hnone : ∀ p : BudgetProg Unit, Meets ledger limit pid p (fun _ _ => True) s →
      Meets ledger limit pid (p >>= fun _ => pure none) (fun r s' => ∀ bundle,
        r = .ok (some bundle) → ∃ command, call = .reserve command
          ∧ ReserveDone pid command bundle s') s := by
    intro p hp
    refine (Prog.safe_bind _ _ _ _).mpr (hp.mono (fun r s' _ => ?_))
    cases r with
    | ok a => intro bundle h; cases h
    | error e => intro bundle h; cases h
  cases call with
  | reserve command =>
    have hc : commitsOf pid s = [] :=
      List.filter_eq_nil_iff.mpr (fun c hc h => hunused.2.2 c hc (of_decide_eq_true h))
    refine (Prog.safe_bind _ _ _ _).mpr ((meets_reserve hc).mono (fun r s' hpost => ?_))
    cases r with
    | ok bundle =>
      rintro bundle' ⟨⟩
      exact ⟨command, rfl, hpost⟩
    | error e => intro bundle h; cases h
  | settle bundle actual => exact hnone _ (meets_settle haccept.1 haccept.2)
  | release bundle reason => exact hnone _ (meets_release haccept)
  | adjust moment a => exact hnone _ (meets_adjust haccept)

/-- **The discipline of the service.** -/
def budgetDiscipline (ledger limit : Prop) :
    Pool.Discipline budgetCalls budgetStart (budgetAdmit limit) (closesOnce ledger)
      (budgetEnvOk limit) where
  inv := Books ledger limit
  unused := Engine.Unused
  rely := Respects limit
  post pid call r s := ∀ bundle, r = .ok (some bundle) →
    ∃ command, call = .reserve command ∧ ReserveDone pid command bundle s
  rely_refl := Respects.refl limit
  rely_trans _ _ _ _ h h' := h.trans h'
  unused_rely _ _ _ h hr := h.untouched hr.untouched
  start_ok := by
    rintro s ⟨budgets, drawn, hnodup, rfl⟩
    refine ⟨⟨?_, ?_, ?_, ?_, hnodup, fun _ _ => .empty, ?_, ?_⟩,
      fun pid => ⟨rfl, fun _ h => ?_, fun _ h => ?_⟩⟩
    · intro q ws h
      cases h
    · intro e h
      cases h
    · intro q ws h
      cases h
    · intro e h
      cases h
    · rintro - key id (h | h)
      · exact absurd rfl h
      · exact absurd rfl h
    · intro _ b _ period row h
      cases h
    · cases h
    · cases h
  safe_body pid s call haccept _ hunused := meets_body haccept hunused
  safe_crash pid s h := h.guarantees_close pid
  safe_env := by
    rintro c s s' hok h hs
    obtain rfl := Option.some.inj hs
    have hsame : SameBudgets limit s.committed.budgets (s.committed.budgets.map c.update) := by
      refine List.forall₂_map_right_iff.mpr (List.forall₂_same.mpr (fun b hb => ?_))
      exact ⟨c.update_identity b, fun hl => hok hl b hb⟩
    refine ⟨⟨h.owned, h.drawn, h.drawn_pending, h.present, ?_, h.balanced, h.exclusive, ?_⟩,
      fun q => ⟨⟨rfl, fun _ => Iff.rfl, fun k _ => ?_, rfl⟩, hsame, fun _ he => he,
        fun _ _ => rfl, fun _ hk => hk⟩⟩
    · have hids : (s.committed.budgets.map c.update).map (fun b => (b.tenantId, b.id))
          = s.committed.budgets.map (fun b => (b.tenantId, b.id)) := by
        rw [List.map_map]
        refine List.map_congr_left (fun b _ => ?_)
        have ht : (c.update b).tenantId = b.tenantId := congrArg Prod.fst (c.update_identity b)
        have hi : (c.update b).id = b.id := congrArg (fun x => x.2.1) (c.update_identity b)
        simp only [Function.comp, ht, hi]
      exact hids ▸ h.distinct
    · intro hl b' hb' period row hrow
      obtain ⟨b, hb, hid, hle⟩ := hsame.origin hb'
      have ht : b'.tenantId = b.tenantId := congrArg Prod.fst hid
      have hi : b'.id = b.id := congrArg (fun x => x.2.1) hid
      rw [ht, hi] at hrow
      have hfit := h.fits hl b hb period row hrow
      have hle' := hle hl
      omega
    · cases k <;> rfl

/-! ## What callers do -/

/-- The bundle is one a reservation has returned. -/
def Returned (w : BudgetCallsState) (bundle : BudgetReservationBundle) : Prop :=
  ∃ x ∈ w.replies, x.outcome = .ok (some bundle)

/-- The steps in which only bundles that were returned are settled or
released. -/
def closesReturned (w : BudgetCallsState) : BudgetLabel → Prop
  | .spawn (.settle bundle _) => Returned w bundle
  | .spawn (.release bundle _) => Returned w bundle
  | _ => True

/-- The steps in which, besides, no limit is lowered, no allowance is taken back
and no more is charged than was reserved. -/
def keepsLimits (w : BudgetCallsState) (l : BudgetLabel) : Prop :=
  closesReturned w l ∧ match l with
    | .spawn (.settle bundle actual) =>
      ∀ x ∈ bundle.entries, actual.getD x.amountMicros ≤ x.amountMicros
    | .spawn (.adjust _ a) => 0 ≤ a.deltaMicros
    | .env c => ∀ b ∈ w.shared.committed.budgets, b.limitMicros ≤ (c.update b).limitMicros
    | _ => True

/-- The steps in which, besides, a settlement or release that is newly entered
is of an ordinary reservation, and of one that nobody has closed, or is about
to close, in the other way. -/
def keepsLedger (w : BudgetCallsState) (l : BudgetLabel) : Prop :=
  closesReturned w l ∧ match l with
    | .act pid c => ∀ call op k, w.threads pid = some (call, .call op k) →
        closesOnce True pid c op w.shared
    | _ => True

/-- A bundle that was returned is known from then on. -/
theorem known_of_returned {ledger limit : Prop} {w : BudgetCallsState}
    (h : budgetMachine.Reach
      (Pool.stepOk (budgetAdmit limit) (closesOnce ledger) (budgetEnvOk limit)) w)
    {bundle : BudgetReservationBundle} (hb : Returned w bundle) : Known bundle w.shared := by
  obtain ⟨x, hx, hok⟩ := hb
  obtain ⟨command, -, hknown, -⟩ :=
    (Pool.reach_safe (budgetDiscipline ledger limit) h).replies x hx bundle hok
  have hgrow := (budgetDiscipline ledger limit).reply_rel
    (G := fun a b => ∀ e ∈ a.committed.ledger, e ∈ b.committed.ledger)
    (fun _ _ he => he) (fun _ _ _ hab hbc e he => hbc e (hab e he))
    (fun _ _ _ hr => hr.ledger) h x hx
  exact fun y hy => (hknown y hy).mono hgrow

/-- Runs that keep the limits are runs under the discipline. -/
theorem reach_of_keepsLimits {w : BudgetCallsState} (h : budgetMachine.Reach keepsLimits w) :
    budgetMachine.Reach
      (Pool.stepOk (budgetAdmit True) (closesOnce False) (budgetEnvOk True)) w := by
  refine h.strengthen (fun w l hw hl => ?_)
  obtain ⟨hreturned, hkeeps⟩ := hl
  cases l with
  | spawn call =>
    cases call with
    | reserve command => trivial
    | settle bundle actual => exact ⟨known_of_returned hw hreturned, fun _ => hkeeps⟩
    | release bundle reason => exact known_of_returned hw hreturned
    | adjust moment a => exact fun _ => hkeeps
  | act pid c =>
    intro call op k _
    unfold closesOnce
    split
    · exact False.elim
    · trivial
  | crash pid => trivial
  | env c => exact fun _ => hkeeps

/-- Runs that keep the ledger are runs under the discipline. -/
theorem reach_of_keepsLedger {w : BudgetCallsState} (h : budgetMachine.Reach keepsLedger w) :
    budgetMachine.Reach
      (Pool.stepOk (budgetAdmit False) (closesOnce True) (budgetEnvOk False)) w := by
  refine h.strengthen (fun w l hw hl => ?_)
  obtain ⟨hreturned, hkeeps⟩ := hl
  cases l with
  | spawn call =>
    cases call with
    | reserve command => trivial
    | settle bundle actual => exact ⟨known_of_returned hw hreturned, False.elim⟩
    | release bundle reason => exact known_of_returned hw hreturned
    | adjust moment a => exact False.elim
  | act pid c => exact hkeeps
  | crash pid => trivial
  | env c => exact False.elim

/-! ## The limit is hard -/

/-- **The limit is hard.** In every reachable state, what is reserved and
consumed in a period is within the limit of its budget and its allowance; and
every reservation that was answered with a bundle had by then added its
estimate to all the levels that apply, or to none. -/
theorem budget_limit_kept {w : BudgetCallsState} (h : budgetMachine.Reach keepsLimits w) :
    (∀ b ∈ w.shared.committed.budgets, ∀ period row,
        w.shared.committed.states ⟨b.tenantId, b.id, period⟩ = some row →
        row.reservedMicros + row.consumedMicros ≤ b.limitMicros + row.allowanceMicros)
      ∧ ∀ x ∈ w.replies, ∀ command bundle, x.call = .reserve command →
        x.outcome = .ok (some bundle) → AllOrNone command (commitsOf x.pid x.state) := by
  have hgood := Pool.reach_safe (budgetDiscipline False True) (reach_of_keepsLimits h)
  refine ⟨hgood.inv.fits trivial, fun x hx command bundle hcall hok => ?_⟩
  obtain ⟨command', hcall', hdone⟩ := hgood.replies x hx bundle hok
  obtain rfl : command = command' := BudgetCall.reserve.inj (hcall.symm.trans hcall')
  exact hdone.2

/-! ### A run -/

/-- A monthly budget of 100 with a contingency of 10. -/
def monthlyBudget : Budget := ⟨1, 5, none, .TENANT_MONTHLY, 100, 10, .CONTINGENCY⟩

/-- The totals of `monthlyBudget` in January. -/
def januaryKey : PeriodKey := ⟨1, 5, "2026-01"⟩

/-- The service before its first call. -/
def budgetIdle : BudgetCallsState :=
  Pool.idle (Engine.quiet (BudgetDb.configured [monthlyBudget]) 0)

theorem budgetIdle_init : budgetMachine.init budgetIdle :=
  ⟨_, ⟨[monthlyBudget], 0, by decide, rfl⟩, rfl⟩

/-- Requests served in January. -/
def servedInJanuary (pid n : ℕ) : List BudgetLabel :=
  List.replicate n (.act pid (.serve ⟨2026, 1, 15⟩))

/-- A call to reserve an amount. -/
def reservation (amount : ℤ) : BudgetCommand :=
  { tenantId := 1, applicationId := some 2, executionId := some "e", estimatedMicros := amount }

/-- The bundle of a reservation on `monthlyBudget`. -/
def januaryBundle (amount : ℤ) (id : Uuid) (contingency : Bool) : BudgetReservationBundle :=
  { command := reservation amount
    entries := [⟨5, .TENANT_MONTHLY, "2026-01", amount, id, contingency⟩] }

/-- A reservation of 30 on the budget. -/
def thirtyReserved : List BudgetLabel :=
  .spawn (.reserve (reservation 30)) :: servedInJanuary 0 8

/-- The reservation is settled. -/
def thirtySettled : List BudgetLabel :=
  .spawn (.settle (januaryBundle 30 0 false) none) :: servedInJanuary 1 4

/-- A reservation whose outcome is not known, drawn from the contingency and
settled. -/
def contingencySettled : List BudgetLabel :=
  .spawn (.reserve (reservation 4)) :: .act 1 .fault :: servedInJanuary 1 6
    ++ .spawn (.settle (januaryBundle 4 1 true) none) :: servedInJanuary 2 4

/-- The outcome is this bundle. -/
def isBundle (bundle : BudgetReservationBundle) :
    Except PyException (Option BudgetReservationBundle) → Bool
  | .ok (some bundle') => bundle' = bundle
  | _ => false

theorem eq_of_isBundle {bundle : BudgetReservationBundle}
    {r : Except PyException (Option BudgetReservationBundle)} (h : isBundle bundle r = true) :
    r = .ok (some bundle) := by
  unfold isBundle at h
  split at h
  · rw [of_decide_eq_true h]
  · cases h

/-- The call is this reservation. -/
def isReserve (command : BudgetCommand) : BudgetCall → Bool
  | .reserve command' => command' = command
  | _ => false

theorem eq_of_isReserve {command : BudgetCommand} {call : BudgetCall}
    (h : isReserve command call = true) : call = .reserve command := by
  unfold isReserve at h
  split at h
  · rw [of_decide_eq_true h]
  · cases h

/-- A test of `closesReturned`. -/
def closesReturnedTest (w : BudgetCallsState) : BudgetLabel → Bool
  | .spawn (.settle bundle _) => w.replies.any (fun x => isBundle bundle x.outcome)
  | .spawn (.release bundle _) => w.replies.any (fun x => isBundle bundle x.outcome)
  | _ => true

theorem closesReturned_of_test (w : BudgetCallsState) (l : BudgetLabel)
    (h : closesReturnedTest w l = true) : closesReturned w l := by
  have hreturned : ∀ bundle, w.replies.any (fun x => isBundle bundle x.outcome) = true →
      Returned w bundle := by
    intro bundle hany
    obtain ⟨x, hx, hout⟩ := List.any_eq_true.mp hany
    exact ⟨x, hx, eq_of_isBundle hout⟩
  cases l with
  | spawn call =>
    cases call with
    | settle bundle actual => exact hreturned bundle h
    | release bundle reason => exact hreturned bundle h
    | reserve command => trivial
    | adjust moment a => trivial
  | _ => trivial

/-- A test of `keepsLimits`, for runs without changes of settings. -/
def keepsLimitsTest (w : BudgetCallsState) (l : BudgetLabel) : Bool :=
  closesReturnedTest w l && match l with
    | .spawn (.settle bundle actual) =>
      bundle.entries.all (fun x => actual.getD x.amountMicros ≤ x.amountMicros)
    | .spawn (.adjust _ a) => 0 ≤ a.deltaMicros
    | .env _ => false
    | _ => true

theorem keepsLimits_of_test (w : BudgetCallsState) (l : BudgetLabel)
    (h : keepsLimitsTest w l = true) : keepsLimits w l := by
  obtain ⟨hreturned, hkeeps⟩ := Bool.and_eq_true_iff.mp h
  refine ⟨closesReturned_of_test w l hreturned, ?_⟩
  cases l with
  | spawn call =>
    cases call with
    | settle bundle actual =>
      exact fun x hx => of_decide_eq_true (List.all_eq_true.mp hkeeps x hx)
    | adjust moment a => exact of_decide_eq_true hkeeps
    | _ => trivial
  | env c => cases hkeeps
  | _ => trivial

/-- A reservation of 30, settled: 30 of the limit of 100 are consumed. -/
theorem budget_limit_kept_settled :
    ∃ w, budgetMachine.Reach keepsLimits w
      ∧ (∃ row, w.shared.committed.states januaryKey = some row ∧ row.consumedMicros = 30
        ∧ row.reservedMicros + row.consumedMicros ≤ 100 + row.allowanceMicros)
      ∧ ∃ x ∈ w.replies, x.outcome = .ok (some (januaryBundle 30 0 false))
        ∧ AllOrNone (reservation 30) (commitsOf x.pid x.state) := by
  have hrun : (budgetMachine.runIf keepsLimitsTest budgetIdle
      (thirtyReserved ++ thirtySettled)).map (fun w => decide
        ((w.shared.committed.states januaryKey).map (·.consumedMicros) = some 30
          ∧ w.shared.committed.budgets = [monthlyBudget])
        && w.replies.any (fun x => isReserve (reservation 30) x.call
          && isBundle (januaryBundle 30 0 false) x.outcome)) = some true := by
    decide +kernel
  obtain ⟨w, hw, htest⟩ := Machine.reach_of_runIf keepsLimits_of_test budgetIdle_init hrun
  obtain ⟨htest, hreply⟩ := Bool.and_eq_true_iff.mp htest
  obtain ⟨hstates, hbudgets⟩ := of_decide_eq_true htest
  obtain ⟨row, hrow, hconsumed⟩ := Option.map_eq_some_iff.mp hstates
  obtain ⟨hfits, hall⟩ := budget_limit_kept hw
  refine ⟨w, hw, ⟨row, hrow, hconsumed, ?_⟩, ?_⟩
  · exact hfits monthlyBudget (by rw [hbudgets]; exact List.mem_cons_self) "2026-01" row hrow
  · obtain ⟨x, hx, hmatch⟩ := List.any_eq_true.mp hreply
    obtain ⟨hcall, hout⟩ := Bool.and_eq_true_iff.mp hmatch
    have hout' := eq_of_isBundle hout
    exact ⟨x, hx, hout', hall x hx _ _ (eq_of_isReserve hcall) hout'⟩

/-! ## The totals and the ledger -/

/-- **The totals are those of the ledger**, in every run in which contingency
reservations are not closed and no reservation is closed in two ways. -/
theorem ledger_conserved {w : BudgetCallsState} (h : budgetMachine.Reach keepsLedger w) :
    ∀ key row, w.shared.committed.states key = some row →
      row.reservedMicros = openMicros false (w.shared.committed.ledgerAt key)
        ∧ row.consumedMicros = settledMicros (w.shared.committed.ledgerAt key)
        ∧ row.contingencyReservedMicros = openMicros true (w.shared.committed.ledgerAt key) := by
  intro key row hrow
  have hgood := Pool.reach_safe (budgetDiscipline True False) (reach_of_keepsLedger h)
  have hbal := hgood.inv.balanced trivial key
  rw [show w.shared.committed.states key = some row from hrow] at hbal
  exact ⟨hbal.reserved, hbal.consumed, hbal.contingency⟩

/-- A test of `keepsLedger`. -/
def keepsLedgerTest (w : BudgetCallsState) (l : BudgetLabel) : Bool :=
  closesReturnedTest w l && match l with
    | .act pid _ =>
      match w.threads pid with
      | some (_, .call (.run (.appendLedger (some id) draft)) _) =>
        draft.contingency = false
          && (w.shared.committed.findEntry draft.period id draft.entryType.opposite).isNone
          && (w.shared.holder (.entry draft.period id draft.entryType.opposite)).isNone
      | _ => true
    | _ => true

theorem keepsLedger_of_test (w : BudgetCallsState) (l : BudgetLabel)
    (h : keepsLedgerTest w l = true) : keepsLedger w l := by
  obtain ⟨hreturned, hkeeps⟩ := Bool.and_eq_true_iff.mp h
  refine ⟨closesReturned_of_test w l hreturned, ?_⟩
  cases l with
  | act pid c =>
    intro call op k hth
    unfold closesOnce
    split
    · rename_i id draft
      simp only [hth, Bool.and_eq_true, Option.isNone_iff_eq_none] at hkeeps
      obtain ⟨⟨hcontingency, hentry⟩, hholder⟩ := hkeeps
      refine fun _ _ _ => ⟨of_decide_eq_true hcontingency, ?_⟩
      rintro (hc | hc)
      · exact hc hentry
      · exact hc hholder
    · trivial
  | _ => trivial

/-- A reservation of 30, settled: the ledger says what the totals say. -/
theorem ledger_conserved_settled :
    ∃ w row, budgetMachine.Reach keepsLedger w
      ∧ w.shared.committed.states januaryKey = some row ∧ row.consumedMicros = 30
      ∧ openMicros false (w.shared.committed.ledgerAt januaryKey) = row.reservedMicros
      ∧ settledMicros (w.shared.committed.ledgerAt januaryKey) = 30 := by
  have hrun : (budgetMachine.runIf keepsLedgerTest budgetIdle
      (thirtyReserved ++ thirtySettled)).map (fun w => decide
        ((w.shared.committed.states januaryKey).map (·.consumedMicros) = some 30))
      = some true := by
    decide +kernel
  obtain ⟨w, hw, htest⟩ := Machine.reach_of_runIf keepsLedger_of_test budgetIdle_init hrun
  obtain ⟨row, hrow, hconsumed⟩ := Option.map_eq_some_iff.mp (of_decide_eq_true htest)
  obtain ⟨hres, hset, -⟩ := ledger_conserved hw januaryKey row hrow
  exact ⟨w, row, hw, hrow, hconsumed, hres.symm, hset.symm.trans hconsumed⟩

/-- **The totals drift when a contingency reservation is settled**: its amount
leaves the ordinary reserved total, and stays in the contingency. -/
theorem ledger_drifts_on_contingency :
    ¬ ∀ w, budgetMachine.Reach closesReturned w →
      ∀ key row, w.shared.committed.states key = some row →
        row.reservedMicros = openMicros false (w.shared.committed.ledgerAt key)
          ∧ row.consumedMicros = settledMicros (w.shared.committed.ledgerAt key)
          ∧ row.contingencyReservedMicros
            = openMicros true (w.shared.committed.ledgerAt key) := by
  intro hall
  have hrun : (budgetMachine.runIf closesReturnedTest budgetIdle
      (thirtyReserved ++ contingencySettled)).map (fun w => decide
        ((w.shared.committed.states januaryKey).map (·.reservedMicros) = some 26
          ∧ openMicros false (w.shared.committed.ledgerAt januaryKey) = 30)) = some true := by
    decide +kernel
  obtain ⟨w, hw, htest⟩ := Machine.reach_of_runIf closesReturned_of_test budgetIdle_init hrun
  obtain ⟨hstates, hopen⟩ := of_decide_eq_true htest
  obtain ⟨row, hrow, hreserved⟩ := Option.map_eq_some_iff.mp hstates
  have hdrift := (hall w hw januaryKey row hrow).1
  rw [hreserved, hopen] at hdrift
  cases hdrift
