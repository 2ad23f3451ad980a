import AgentPlatform.ContingencyDraws

/-!
# What a reservation ends with

The pieces of the two modules before it, put together to whole calls of
`reserve` that have the budget tables to themselves.

A call that raises `BudgetExceeded` has committed the evidence of the rejection
and moved no total (`rejected_reserve`). And on a healthy database a call
admits by the limit rule (`admission_iff`), as long as no level fails before it
comes to a decision. A level fails that would admit and has an alert to write,
when its limit is zero and all it has is an allowance: the alert names the
limit, and its table admits only positive ones. The call then takes a
constraint for an unknown state of the budgets.
-/

open BudgetService

/-! ## Bodies -/

section Bodies

variable (command : BudgetCommand)

theorem body_raiseAlert (level : Level) (used : ℤ) (alert : Option AlertLevel) :
    Engine.Body (raiseAlert command level used alert) := by
  cases alert with
  | none => exact Engine.body_ret _
  | some decision =>
    refine (Engine.body_stmt _).bind (fun inserted => ?_)
    show Engine.Body (if _ then _ else _)
    split
    · exact Engine.body_ret _
    · exact Engine.body_ret _

theorem body_reserveLevel (level : Level) : Engine.Body (reserveLevel command level) := by
  refine (Engine.body_stmt _).bind (fun _ => (Engine.body_stmt _).bind (fun found => ?_))
  cases found with
  | none => exact Engine.body_raise _
  | some state =>
    dsimp only
    split
    · exact Engine.body_ret _
    · refine (Engine.body_stmt _).bind (fun updated => ?_)
      cases updated with
      | none => exact Engine.body_ret _
      | some version =>
        refine (body_appendLedger ..).bind (fun entry => ?_)
        exact (body_raiseAlert ..).bind (fun alerts => Engine.body_ret _)

theorem body_reserveLevels (levels : List Level) (secured : List BudgetReservation)
    (alerts : List String) : Engine.Body (reserveLevels command levels secured alerts) := by
  induction levels generalizing secured alerts with
  | nil => exact Engine.body_ret _
  | cons level levels ih =>
    refine (body_reserveLevel command level).bind (fun o => ?_)
    cases o with
    | none => exact Engine.body_ret _
    | some reservation => exact ih _ _

theorem body_reserveTransaction : Engine.Body (reserveTransaction command) := by
  refine (body_findLevels command).bind (fun levels => ?_)
  refine (body_reserveLevels ..).bind (fun out => ?_)
  obtain ⟨secured, alerts, rejecting⟩ := out
  cases rejecting with
  | none => exact Engine.body_ret _
  | some level =>
    refine (Engine.body_forEach (fun r => ?_) secured).bind (fun _ => ?_)
    · exact (Engine.body_stmt _).bind
        (fun _ => (body_appendLedger ..).bind (fun _ => Engine.body_ret ()))
    · exact (body_appendLedger ..).bind (fun _ => Engine.body_ret _)

end Bodies

/-! ## A call that is rejected -/

section Rejected

variable {moment : Moment} {command : BudgetCommand} {v : BudgetDb × Uuid}

/-- A transaction that rejects has left its evidence. -/
theorem rejection_of_none {v' : BudgetDb × Uuid} (hfresh : ∀ e ∈ v.1.ledger, e.reserveId < v.2)
    (h : onView moment (reserveTransaction command) v = (.ok none, v')) :
    ∃ levels, levelsIn moment command v.1 = .ok levels ∧ Rejection command levels v.1 v'.1 := by
  obtain ⟨db, x⟩ := v
  cases hlevels : levelsIn moment command db with
  | error e =>
    rw [onView_reserveTransaction_error hlevels] at h
    cases h
  | ok levels =>
    refine ⟨levels, rfl, ?_⟩
    by_cases hest : 0 ≤ command.estimatedMicros
    · have hrun := reserveRun moment x hest hlevels
      rw [h] at hrun
      cases hrun with
      | rejects hverdict htrace => exact htrace hfresh
    · cases levels with
      | nil =>
        rw [onView_reserveTransaction_nil _ _ hlevels] at h
        cases h
      | cons level levels =>
        have herror := onView_reserveTransaction_neg moment x
          (Int.not_le.mp hest) hlevels
        rw [h] at herror
        cases herror

/-- What the transaction raises is no rejection. -/
theorem reserveTransaction_ne_exceeded {e : PyException}
    (h : (onView moment (reserveTransaction command) v).1 = .error e) (code : String) :
    e ≠ .budgetExceeded code := by
  obtain ⟨db, x⟩ := v
  cases hlevels : levelsIn moment command db with
  | error e' =>
    rw [onView_reserveTransaction_error hlevels] at h
    obtain rfl := Except.error.inj h
    exact levelsIn_ne_exceeded hlevels code
  | ok levels =>
    by_cases hest : 0 ≤ command.estimatedMicros
    · have hrun := reserveRun moment x hest hlevels
      generalize onView moment (reserveTransaction command) (db, x) = u at h hrun
      cases hrun with
      | admits => cases h
      | rejects => cases h
      | fails hverdict =>
        obtain rfl := Except.error.inj h
        exact PyException.noConfusion
    · cases levels with
      | nil =>
        rw [onView_reserveTransaction_nil _ _ hlevels] at h
        cases h
      | cons level levels =>
        have herror := onView_reserveTransaction_neg moment x
          (Int.not_le.mp hest) hlevels
        rw [h] at herror
        obtain rfl := Except.error.inj herror
        exact PyException.noConfusion

/-- And neither is what the unknown policy raises. -/
theorem unknownPolicy_ne_exceeded {e : PyException}
    (h : (onView moment (unknownPolicyTransaction command) v).1 = .error e) (code : String) :
    e ≠ .budgetExceeded code := by
  obtain ⟨db, x⟩ := v
  have hfind := onView_findLevels moment command db x
  cases hlevels : levelsIn moment command db with
  | error e' =>
    rw [hlevels] at hfind
    have hend : onView moment (unknownPolicyTransaction command) (db, x) = (.error e', db, x) :=
      Prog.within_bind_error hfind _
    rw [hend] at h
    obtain rfl := Except.error.inj h
    exact levelsIn_ne_exceeded hlevels code
  | ok levels =>
    rw [hlevels] at hfind
    rw [show onView moment (unknownPolicyTransaction command) (db, x)
        = onView moment (if contingentOf levels = [] then return none
          else drawLevels command (contingentOf levels) [] >>= _) (db, x) from
      Prog.within_bind_ok hfind _] at h
    split at h
    · cases h
    · -- A draw raises a database error only, and only for a negative estimate.
      have hdraws : ∀ u, onView moment (drawLevels command (contingentOf levels) []) (db, x) = u →
          (∃ o v', u = (.ok o, v')) ∨ ∃ v', u = (.error .sqlAlchemy, v') := by
        rintro u rfl
        by_cases hest : 0 ≤ command.estimatedMicros
        · have hrun := drawsRun moment (contingentOf levels) [] db x hest
          generalize onView moment (drawLevels command (contingentOf levels) []) (db, x) = u at hrun
          cases hrun with
          | granted => exact .inl ⟨_, _, rfl⟩
          | refused => exact .inl ⟨_, _, rfl⟩
        · cases hcontingent : contingentOf levels with
          | nil => exact .inl ⟨_, _, rfl⟩
          | cons level rest =>
            obtain herror | hnone := onView_drawLevels_neg moment level db x rest []
              (Int.not_le.mp hest)
            · exact .inr ⟨_, Prod.ext herror rfl⟩
            · exact .inl ⟨_, _, hnone⟩
      obtain ⟨o, v', hok⟩ | ⟨v', herror⟩ := hdraws _ rfl
      · cases o with
        | none => cases (congrArg Prod.fst (Prog.within_bind_ok hok _)).symm.trans h
        | some entries => cases (congrArg Prod.fst (Prog.within_bind_ok hok _)).symm.trans h
      · obtain rfl := Except.error.inj
          ((congrArg Prod.fst (Prog.within_bind_error herror _)).symm.trans h)
        exact PyException.noConfusion

end Rejected

/-- **A rejected reservation leaves no trace in the totals.** Whatever the tables
hold, when `reserve` raises `BudgetExceeded`, no total of any period has moved,
the rows up to the rejecting level exist, and the ledger has gained a
reservation and its release for every level before it, and the rejection. The
identifiers drawn are supposed to be new. -/
theorem rejected_reserve {pid : ℕ} {cs : List (Choice Moment)} {s s' : BudgetState}
    {moment : Moment} {command : BudgetCommand} {code : String} (hidle : s.pending pid = none)
    (hfresh : ∀ e ∈ s.committed.ledger, e.reserveId < s.ext)
    (hcs : ∀ c ∈ cs, Engine.ServesWith moment c)
    (hrun : (reserve command).eval (budgetEngine.handler pid) cs s
      = some (.error (.budgetExceeded code), s')) :
    ∃ levels, levelsIn moment command s.committed = .ok levels
      ∧ Rejection command levels s.committed s'.committed := by
  obtain ⟨cs₁, cs₂, r₁, s₁, rfl, hcatch, hgo⟩ := Prog.eval_bind hrun
  obtain ⟨cs₃, cs₄, r₂, s₂, rfl, htx, hcaught⟩ := Prog.eval_tryCatch hcatch
  obtain ⟨hidle₂, hend⟩ := Engine.eval_transaction budgetEngine_blind
    (body_reserveTransaction command) (fun c hc => hcs c (by simp [hc])) hidle htx
  cases r₂ with
  | ok o =>
    obtain ⟨rfl, hout⟩ := hcaught
    cases hout
    cases o with
    | some bundle =>
      obtain ⟨-, hout⟩ := Prog.eval_ret hgo
      cases hout
    | none =>
      obtain ⟨-, hout⟩ := Prog.eval_raise hgo
      cases hout
      generalize s'.committed = db' at hend ⊢
      cases hend with
      | committed hfault hlost hok => exact rejection_of_none hfresh (Prod.ext hok rfl)
  | error e =>
    -- No other end of the call is a rejection.
    exfalso
    by_cases he : e = .sqlAlchemy
    · subst he
      rw [List.append_assoc] at hrun
      obtain ⟨q, hpolicy, hq⟩ := eval_reserve_recovered htx hrun
      obtain ⟨r, hending, rfl⟩ := eval_applyUnknownPolicy hidle₂
        (fun c hc => hcs c (by
          obtain hc | hc := List.mem_append.mp hc <;> simp [hc])) hpolicy
      generalize s'.committed = db' at hending
      cases hending with
      | failed hfault => rw [if_pos rfl] at hq; cases hq
      | @committed o hfault hlost hok =>
        rw [if_neg (by simp)] at hq
        cases o <;> cases hq
      | lost hfault hlost hok => rw [if_pos rfl] at hq; cases hq
      | raised hfault hlost hraised =>
        split at hq
        · cases hq
        · exact unknownPolicy_ne_exceeded hraised code (Except.error.inj hq).symm
    · have hthrow : (if e = .sqlAlchemy then recoverReserve command else throw e).eval
          (budgetEngine.handler pid) cs₄ s₂ = some (r₁, s₁) := hcaught
      rw [if_neg he] at hthrow
      obtain ⟨-, hout⟩ := Prog.eval_raise hthrow
      cases hout
      obtain ⟨-, hout⟩ := hgo
      cases hout
      generalize s'.committed = db' at hend
      cases hend with
      | raised hfault hlost hraised => exact reserveTransaction_ne_exceeded hraised code rfl

/-- A daily budget of an application with a limit of 3. -/
def smallDay : Budget := ⟨1, 6, some 2, .AGENT_DAILY, 3, 0, .FAIL_CLOSED⟩

/-- Four are secured on the month and rejected by the day: the call leaves a
reservation with its release, and the rejection. -/
theorem rejected_reserve_day : ∃ code s' levels,
    (reserve (askFor 4)).eval (budgetEngine.handler 0) (List.replicate 13 (.serve january))
        (Engine.quiet (monthBegun smallDay) 0)
      = some (.error (.budgetExceeded code), s')
    ∧ s'.committed.ledger.map (fun e => (e.entryType, e.amountMicros, e.reserveId))
      = [(.RESERVE, 4, 0), (.RELEASE, 4, 0), (.REJECT, 4, 1)]
    ∧ levelsIn january (askFor 4) (monthBegun smallDay) = .ok levels
    ∧ Rejection (askFor 4) levels (monthBegun smallDay) s'.committed := by
  have hrun : ((reserve (askFor 4)).eval (budgetEngine.handler 0)
      (List.replicate 13 (.serve january)) (Engine.quiet (monthBegun smallDay) 0)).map
      (fun out => decide (out.1 = .error (.budgetExceeded "BUDGET_EXCEEDED")
        ∧ out.2.committed.ledger.map (fun e => (e.entryType, e.amountMicros, e.reserveId))
          = [(.RESERVE, 4, 0), (.RELEASE, 4, 0), (.REJECT, 4, 1)])) = some true := by
    decide +kernel
  obtain ⟨⟨r, s'⟩, hout, htest⟩ := Option.map_eq_some_iff.mp hrun
  obtain ⟨rfl, hledger⟩ := of_decide_eq_true htest
  have hserves : ∀ c ∈ List.replicate 13 (Choice.serve january), Engine.ServesWith january c := by
    intro c hc a ha
    rw [List.eq_of_mem_replicate hc] at ha
    exact (Choice.serve.inj ha).symm
  obtain ⟨levels, hlevels, htrace⟩ := rejected_reserve
    (s := Engine.quiet (monthBegun smallDay) 0) rfl (fun e he => absurd he List.not_mem_nil)
    hserves hout
  exact ⟨_, s', levels, hout, hledger, hlevels, htrace⟩

/-! ## The limit rule -/

/-- The estimate fits a level. -/
def FitsLevel (db : BudgetDb) (command : BudgetCommand) (level : Level) : Prop :=
  (db.rowAt (level.key command.tenantId)).reservedMicros
      + (db.rowAt (level.key command.tenantId)).consumedMicros + command.estimatedMicros
    ≤ level.limitMicros + (db.rowAt (level.key command.tenantId)).allowanceMicros

/-- **Admission by the limit rule**: a bundle exactly when the estimate fits
every level, and a rejection otherwise. -/
structure AdmitsByLimit (levels : List Level) (db : BudgetDb) (command : BudgetCommand)
    (r : Except PyException BudgetReservationBundle) : Prop where
  bundle : (∃ bundle, r = .ok bundle) ↔ ∀ level ∈ levels, FitsLevel db command level
  exceeded : ¬ (∀ level ∈ levels, FitsLevel db command level) →
    ∃ code, r = .error (.budgetExceeded code)

/-- **The levels fail on the estimate**: it is negative, or a level fails before
any rejects. -/
def FailsOn (db : BudgetDb) (command : BudgetCommand) (levels : List Level) : Prop :=
  levels ≠ [] ∧ (command.estimatedMicros < 0 ∨ admission db command levels = .fails)

section Admission

variable {db : BudgetDb} {command : BudgetCommand} {levels : List Level}

theorem not_reject_of_le {used limit : ℤ} (h : used ≤ limit) :
    evaluateLevel used limit ≠ .REJECT := by
  unfold evaluateLevel
  rw [if_neg (Int.not_lt.mpr h)]
  split
  · exact LevelDecision.noConfusion
  · split
    · exact LevelDecision.noConfusion
    · split <;> exact LevelDecision.noConfusion

/-- A level that admits fits the estimate, and one that rejects does not. -/
theorem fitsLevel_of_verdict {level : Level} :
    (levelVerdict db command level = .admits → FitsLevel db command level)
      ∧ (levelVerdict db command level = .rejects → ¬ FitsLevel db command level) := by
  unfold levelVerdict
  split
  · cases hdecision : evaluateLevel (usedAfter db command level)
        (effectiveLimit db command level) with
    | REJECT =>
      exact ⟨fun h => (nomatch h), fun _ hfits => not_reject_of_le hfits hdecision⟩
    | allow alert =>
      have hfits : FitsLevel db command level := le_of_evaluateLevel hdecision
      refine ⟨fun _ => hfits, fun h => ?_⟩
      cases alert with
      | none => cases h
      | some decision =>
        dsimp only at h
        split at h <;> cases h
  · exact ⟨fun h => (nomatch h), fun h => (nomatch h)⟩

theorem fitsLevel_of_admission :
    (admission db command levels = .admits → ∀ level ∈ levels, FitsLevel db command level)
      ∧ (admission db command levels = .rejects →
        ¬ ∀ level ∈ levels, FitsLevel db command level) := by
  induction levels with
  | nil => exact ⟨fun _ l hl => absurd hl List.not_mem_nil, fun h => (by cases h)⟩
  | cons level levels ih =>
    unfold admission
    cases hverdict : levelVerdict db command level with
    | admits =>
      refine ⟨fun h => List.forall_mem_cons.mpr ⟨fitsLevel_of_verdict.1 hverdict, ih.1 h⟩, ?_⟩
      exact fun h hall => ih.2 h (List.forall_mem_cons.mp hall).2
    | rejects =>
      refine ⟨fun h => (by cases h), fun _ hall => ?_⟩
      exact fitsLevel_of_verdict.2 hverdict (hall level List.mem_cons_self)
    | fails => exact ⟨fun h => (by cases h), fun h => (by cases h)⟩

/-- A call that has decided has kept to the rule. -/
theorem admitsByLimit_of_admits {bundle : BudgetReservationBundle}
    (h : ∀ level ∈ levels, FitsLevel db command level) :
    AdmitsByLimit levels db command (.ok bundle) :=
  ⟨⟨fun _ => h, fun _ => ⟨bundle, rfl⟩⟩, fun hn => absurd h hn⟩

theorem admitsByLimit_of_rejects {code : String}
    (h : ¬ ∀ level ∈ levels, FitsLevel db command level) :
    AdmitsByLimit levels db command (.error (.budgetExceeded code)) :=
  ⟨⟨fun ⟨_, hb⟩ => (nomatch hb), fun hall => absurd hall h⟩, fun _ => ⟨code, rfl⟩⟩

/-- A call that has not decided keeps to it only with a bundle for an estimate
that fits. -/
theorem admitsByLimit_undecided {r : Except PyException BudgetReservationBundle}
    (hr : ∀ code, r ≠ .error (.budgetExceeded code)) :
    AdmitsByLimit levels db command r
      ↔ (∃ bundle, r = .ok bundle) ∧ ∀ level ∈ levels, FitsLevel db command level := by
  constructor
  · intro h
    have hall : ∀ level ∈ levels, FitsLevel db command level := by
      by_contra hn
      obtain ⟨code, hcode⟩ := h.exceeded hn
      exact hr code hcode
    exact ⟨h.bundle.mpr hall, hall⟩
  · rintro ⟨hb, hall⟩
    exact ⟨⟨fun _ => hall, fun _ => hb⟩, fun hn => absurd hall hn⟩

end Admission

section Served

variable {pid : ℕ} {moment : Moment} {command : BudgetCommand} {s : BudgetState}

variable (moment command) in
/-- **The unknown policy, served**: a bundle exactly when every contingent level
grants its draw. -/
theorem serving_applyUnknownPolicy (levels : List Level) (hsole : Engine.Sole pid s)
    (hdistinct : (s.committed.budgets.map (fun b => (b.tenantId, b.id))).Nodup)
    (hlevels : levelsIn moment command s.committed = .ok levels) :
    ∃ o s', (applyUnknownPolicy command).serving (budgetEngine.handler pid (.serve moment)) s
        = some (.ok o, s')
      ∧ ((∃ bundle, o = some bundle) ↔ GrantsDraws moment command s.committed levels) := by
  obtain ⟨s₁, hserved, -, -⟩ := Engine.serving_transaction budgetEngine_blind moment
    (body_unknownPolicyTransaction command) hsole
  have hbody := unknownRun moment command s.ext hdistinct
  generalize hu : onView moment (unknownPolicyTransaction command) (s.committed, s.ext) = u at hbody
  replace hserved := hserved.trans (congrArg (fun v => some (v.1, s₁)) hu)
  cases hbody with
  | untouched hnone =>
    exact ⟨none, s₁, Prog.serving_tryCatch_ok hserved _,
      fun ⟨_, hb⟩ => (nomatch hb), fun hg => absurd hg.1 hnone⟩
  | failed hnone he hexceeded =>
    obtain rfl := he ⟨levels, hlevels⟩
    exact ⟨none, s₁, Prog.serving_tryCatch_error hserved _,
      fun ⟨_, hb⟩ => (nomatch hb), fun hg => absurd hg.1 hnone⟩
  | granted htakes hlevels' hall hchanged =>
    obtain rfl := Except.ok.inj (hlevels.symm.trans hlevels')
    exact ⟨_, s₁, Prog.serving_tryCatch_ok hserved _, fun _ => ⟨htakes, hall⟩, fun _ => ⟨_, rfl⟩⟩
  | refused htakes hrefuses hchanged =>
    refine ⟨none, s₁, Prog.serving_tryCatch_ok hserved _, fun ⟨_, hb⟩ => (nomatch hb), fun hg => ?_⟩
    obtain ⟨levels', hok, level, hlevel, hrefused⟩ := hrefuses
    obtain rfl := Except.ok.inj (hlevels.symm.trans hok)
    rw [hg.2 level hlevel] at hrefused
    cases hrefused

/-- **A call whose transaction has failed, served.** -/
theorem serving_reserve_failed {levels : List Level} (hsole : Engine.Sole pid s)
    (hdistinct : (s.committed.budgets.map (fun b => (b.tenantId, b.id))).Nodup)
    (hlevels : levelsIn moment command s.committed = .ok levels)
    (hfails : (onView moment (reserveTransaction command) (s.committed, s.ext)).1
      = .error .sqlAlchemy) :
    ∃ r s', (reserve command).serving (budgetEngine.handler pid (.serve moment)) s = some (r, s')
      ∧ (∀ code, r ≠ .error (.budgetExceeded code))
      ∧ ((∃ bundle, r = .ok bundle) ↔ GrantsDraws moment command s.committed levels) := by
  obtain ⟨s₁, hserved, hcommitted, hsole₁, -⟩ :=
    Engine.serving_transaction budgetEngine_blind moment
    (body_reserveTransaction command) hsole
  have hfails' : (Prog.within (budgetEngine.alone moment) (reserveTransaction command)
      (s.committed, s.ext)).1 = .error .sqlAlchemy := hfails
  rw [hfails'] at hserved hcommitted
  have hcommitted' : s₁.committed = s.committed := hcommitted
  obtain ⟨o, s₂, hpolicy, hiff⟩ := serving_applyUnknownPolicy moment command levels hsole₁
    (hcommitted' ▸ hdistinct)
    (hcommitted' ▸ hlevels)
  rw [hcommitted'] at hiff
  have hcaught : (exceptSqlAlchemy (Engine.transaction (reserveTransaction command))
      (recoverReserve command)).serving (budgetEngine.handler pid (.serve moment)) s
      = (recoverReserve command).serving (budgetEngine.handler pid (.serve moment)) s₁ :=
    Prog.serving_tryCatch_error hserved _
  have hrecover : (recoverReserve command).serving (budgetEngine.handler pid (.serve moment)) s₁
      = _ := Prog.serving_bind_ok hpolicy _
  cases o with
  | none =>
    refine ⟨_, s₂, Prog.serving_bind_error (hcaught.trans hrecover) _, fun code => ?_, ?_⟩
    · simp
    · rw [← hiff]
      exact ⟨fun ⟨_, hb⟩ => (nomatch hb), fun ⟨_, hb⟩ => (nomatch hb)⟩
  | some bundle =>
    refine ⟨.ok bundle, s₂, Prog.serving_bind_ok (hcaught.trans hrecover) _, fun code => ?_, ?_⟩
    · simp
    · rw [← hiff]
      exact ⟨fun _ => ⟨_, rfl⟩, fun _ => ⟨_, rfl⟩⟩

end Served

/-- A monthly budget that grants nothing by itself. -/
def zeroMonth : Budget := ⟨1, 5, none, .TENANT_MONTHLY, 0, 0, .FAIL_CLOSED⟩

/-- Its row, with an allowance of 100. -/
def allowedRow : PeriodState := ⟨0, 0, 100, 0, 2, PeriodState.zero.reserved_nonneg,
  PeriodState.zero.consumed_nonneg, PeriodState.zero.contingency_nonneg⟩

/-- The tables with this budget. -/
def zeroMonthAllowed : BudgetDb :=
  (BudgetWrite.setState ⟨1, 5, "2026-01"⟩ allowedRow).apply (.configured [zeroMonth])
