import AgentPlatform.BudgetAdmission

/-!
# Drawing on the contingency

When the transaction of a reservation raises a database error, its outcome is
unknown, and `_apply_unknown_policy` draws on the contingency allowances of the
budgets that have one. It draws level by level inside one transaction, and
returns from the middle of it when a draw is refused.

Such a return commits. So a call that ends without a bundle may have taken
draws, and it does exactly when the first contingent level grants its draw
while a later one refuses, or while the acknowledgement of the commit is lost
(`failed_draw_atomic_iff`). And since the levels that fail closed are left out,
and a draw is cut down to what its level has, a bundle may leave levels
uncovered (`unknown_fails_closed_iff`).
-/

open BudgetService

/-! ## One draw -/

/-- What is drawn on a level. -/
def drawAmount (command : BudgetCommand) (level : Level) : ℤ :=
  min command.estimatedMicros level.contingencyMicros

/-- **The draw on a level is granted**: its row exists, and has as much left. -/
def drawable (db : BudgetDb) (command : BudgetCommand) (level : Level) : Bool :=
  match db.states (level.key command.tenantId) with
  | none => false
  | some row => row.contingencyReservedMicros + drawAmount command level ≤ level.contingencyMicros

/-- The levels that are drawn on. -/
abbrev contingentOf (levels : List Level) : List Level :=
  levels.filter (fun level => level.unknownPolicy = .CONTINGENCY ∧ 0 < level.contingencyMicros)

/-- The draw on a level under an identifier. -/
def drawOf (command : BudgetCommand) (level : Level) (id : Uuid) : BudgetReservation where
  budgetId := level.budgetId
  scope := level.scope
  periodKey := level.periodKey
  amountMicros := drawAmount command level
  ledgerEntryId := id
  contingency := true

/-- The draws on levels that all grant them, from an identifier on. -/
def drawsOf (command : BudgetCommand) : List Level → Uuid → List BudgetReservation
  | [], _ => []
  | level :: levels, x => drawOf command level x :: drawsOf command levels (x + 1)

/-- Every row is there, and no younger than before. -/
def Later (db db' : BudgetDb) : Prop :=
  ∀ key row, db.states key = some row →
    ∃ row', db'.states key = some row' ∧ row.version ≤ row'.version

theorem Later.refl (db : BudgetDb) : Later db db := fun _ row h => ⟨row, h, le_refl _⟩

theorem Later.trans {a b c : BudgetDb} (h : Later a b) (h' : Later b c) : Later a c := by
  intro key row hrow
  obtain ⟨row₁, hrow₁, hle⟩ := h key row hrow
  obtain ⟨row₂, hrow₂, hle'⟩ := h' key row₁ hrow₁
  exact ⟨row₂, hrow₂, hle.trans hle'⟩

/-- **A draw that was taken**: the row of the level has become younger, and the
rows of other periods are as before. -/
structure Drawn (key : PeriodKey) (db db' : BudgetDb) : Prop where
  frame : ∀ k, k ≠ key → db'.states k = db.states k
  younger : ∃ row row', db.states key = some row ∧ db'.states key = some row'
    ∧ row.version < row'.version

theorem Drawn.later {key : PeriodKey} {db db' : BudgetDb} (h : Drawn key db db') :
    Later db db' := by
  intro k row hrow
  obtain ⟨old, new, hold, hnew, hlt⟩ := h.younger
  by_cases hk : k = key
  · subst hk
    obtain rfl := Option.some.inj (hold.symm.trans hrow)
    exact ⟨new, hnew, hlt.le⟩
  · exact ⟨row, (h.frame k hk).trans hrow, le_refl _⟩

/-- What was drawn does not disappear again. -/
theorem Drawn.ne {key : PeriodKey} {db db₁ db' : BudgetDb} (h : Drawn key db db₁)
    (hlater : Later db₁ db') : db'.states ≠ db.states := by
  intro heq
  obtain ⟨old, new, hold, hnew, hlt⟩ := h.younger
  obtain ⟨last, hlast, hle⟩ := hlater key new hnew
  rw [heq, hold] at hlast
  obtain rfl := Option.some.inj hlast
  exact absurd hlt (Nat.not_lt.mpr hle)

section Draw

variable {moment : Moment} {command : BudgetCommand} {level : Level} {db : BudgetDb} {x : Uuid}

/-- A draw that is refused changes nothing. -/
theorem onView_draw_refused (h : drawable db command level = false) :
    onView moment (BudgetOp.ask (.drawContingency (level.key command.tenantId)
      (drawAmount command level) level.contingencyMicros)) (db, x) = (.ok none, db, x) := by
  rw [onView_ask _ _ _]
  unfold drawable at h
  simp only [BudgetOp.exec, BudgetOp.draws, updateState]
  cases hrow : db.states (level.key command.tenantId) with
  | none => rfl
  | some row =>
    rw [hrow] at h
    dsimp only at h ⊢
    rw [if_neg (by rw [h]; exact Bool.false_ne_true)]
    rfl

/-- The row of a draw that is granted, before and after. -/
theorem drawable_row (hest : 0 ≤ command.estimatedMicros) (h : drawable db command level = true) :
    ∃ row row', db.states (level.key command.tenantId) = some row
      ∧ row.contingencyReservedMicros + drawAmount command level ≤ level.contingencyMicros
      ∧ row.change? 0 0 0 (drawAmount command level) = some row'
      ∧ row'.version = row.version + 1 := by
  unfold drawable at h
  split at h
  · cases h
  · rename_i row hrow
    have hamount : 0 ≤ drawAmount command level := by
      unfold drawAmount
      omega
    have hall : 0 ≤ row.reservedMicros + 0 ∧ 0 ≤ row.consumedMicros + 0
        ∧ 0 ≤ row.contingencyReservedMicros + drawAmount command level := by
      have hreserved := row.reserved_nonneg
      have hconsumed := row.consumed_nonneg
      have hcontingency := row.contingency_nonneg
      omega
    exact ⟨row, _, hrow, of_decide_eq_true h, dif_pos hall, rfl⟩

variable (moment x) in
/-- **A draw that is granted.** -/
theorem onView_draw (hest : 0 ≤ command.estimatedMicros) (h : drawable db command level = true) :
    ∃ n db', onView moment (BudgetOp.ask (.drawContingency (level.key command.tenantId)
        (drawAmount command level) level.contingencyMicros)) (db, x) = (.ok (some n), db', x)
      ∧ Drawn (level.key command.tenantId) db db' := by
  obtain ⟨row, row', hrow, hguard, hchange, hversion⟩ := drawable_row hest h
  refine ⟨row'.version, (BudgetWrite.setState (level.key command.tenantId) row').apply db, ?_,
    fun k hk => Function.update_of_ne hk _ _, row, row', hrow, Function.update_self .., ?_⟩
  · rw [onView_ask _ _ _]
    simp only [BudgetOp.exec, BudgetOp.draws, updateState, hrow, hchange, decide_eq_true hguard,
      if_true]
    rfl
  · rw [hversion]
    exact Nat.lt_succ_self _

variable (moment level db x) in
/-- A negative amount is refused by the row, or not taken by the ledger. -/
theorem onView_drawLevels_neg (levels : List Level) (entries : List BudgetReservation)
    (hest : command.estimatedMicros < 0) :
    (onView moment (drawLevels command (level :: levels) entries) (db, x)).1 = .error .sqlAlchemy
      ∨ onView moment (drawLevels command (level :: levels) entries) (db, x)
        = (.ok none, db, x) := by
  have hamount : drawAmount command level < 0 := by
    unfold drawAmount
    omega
  cases hdraw : drawable db command level with
  | false =>
    exact .inr ((Prog.within_bind_ok (onView_draw_refused hdraw) _).trans rfl)
  | true =>
    refine .inl ?_
    have hask := onView_ask moment db x
      (.drawContingency (level.key command.tenantId) (drawAmount command level)
        level.contingencyMicros)
    unfold drawable at hdraw
    split at hdraw
    · cases hdraw
    · rename_i row hrow
      simp only [BudgetOp.exec, updateState, hrow, hdraw, if_true] at hask
      cases hchange : row.change? 0 0 0 (drawAmount command level) with
      | none =>
        rw [hchange] at hask
        exact congrArg Prod.fst (Prog.within_bind_error hask _)
      | some row' =>
        rw [hchange] at hask
        refine (congrArg Prod.fst (Prog.within_bind_ok hask _)).trans ?_
        exact congrArg Prod.fst (Prog.within_bind_error
          (Prod.ext (onView_appendLedger_error hamount (by decide)) rfl) _)

end Draw

/-! ## The draws of a call -/

/-- **The ways the draws end**: all are granted, or one is refused. The verdict
supposes that no two levels share a row. -/
inductive DrawsRun (command : BudgetCommand) (levels : List Level)
    (entries : List BudgetReservation) (db : BudgetDb) (x : Uuid) :
    Except PyException (Option (List BudgetReservation)) × (BudgetDb × Uuid) → Prop
  | granted {db' : BudgetDb} {x' : Uuid} (hlater : Later db db')
      (hall : (keysOf command levels).Nodup → ∀ level ∈ levels, drawable db command level = true) :
      DrawsRun command levels entries db x
        (.ok (some (entries ++ drawsOf command levels x)), db', x')
  | refused {db' : BudgetDb} {x' : Uuid} (hlater : Later db db')
      (hsome : (keysOf command levels).Nodup →
        ∃ level ∈ levels, drawable db command level = false) :
      DrawsRun command levels entries db x (.ok none, db', x')

section Draws

variable {moment : Moment} {command : BudgetCommand} {level : Level} {levels : List Level}
  {entries : List BudgetReservation} {db : BudgetDb} {x : Uuid}

theorem DrawsRun.of_eq {u v : Except PyException (Option (List BudgetReservation))
    × (BudgetDb × Uuid)} (h : u = v) (hv : DrawsRun command levels entries db x v) :
    DrawsRun command levels entries db x u := h ▸ hv

variable (moment levels entries x) in
/-- A granted draw is followed by the others. -/
theorem onView_drawLevels_cons (hest : 0 ≤ command.estimatedMicros)
    (h : drawable db command level = true) : ∃ db₁,
    onView moment (drawLevels command (level :: levels) entries) (db, x)
      = onView moment (drawLevels command levels (entries ++ [drawOf command level x]))
        (db₁, x + 1)
      ∧ Drawn (level.key command.tenantId) db db₁ := by
  obtain ⟨n, db₁, hdraw, hdrawn⟩ := onView_draw moment x hest h
  have hamount : 0 ≤ drawAmount command level := by
    unfold drawAmount
    omega
  obtain ⟨new, happend⟩ := onView_appendLedger moment db₁ x command (level.key command.tenantId)
    .RESERVE none true ("contingency allowance after unknown budget state") hamount (by decide)
  refine ⟨_, (Prog.within_bind_ok hdraw _).trans (Prog.within_bind_ok happend _), ?_⟩
  refine ⟨fun k hk => ?_, ?_⟩
  · rw [BudgetDb.withEntry_states]
    exact hdrawn.frame k hk
  · rw [BudgetDb.withEntry_states]
    exact hdrawn.younger

theorem onView_drawLevels_refused (h : drawable db command level = false) :
    onView moment (drawLevels command (level :: levels) entries) (db, x) = (.ok none, db, x) :=
  (Prog.within_bind_ok (onView_draw_refused h) _).trans rfl

/-- The row of a level decides on its draw. -/
theorem drawable_congr {db' : BudgetDb}
    (h : db'.states (level.key command.tenantId) = db.states (level.key command.tenantId)) :
    drawable db' command level = drawable db command level := by
  unfold drawable
  rw [h]

/-- A draw leaves the other levels as they are. -/
theorem Drawn.drawable_eq {db₁ : BudgetDb} (h : Drawn (level.key command.tenantId) db db₁)
    (hnodup : (keysOf command (level :: levels)).Nodup) :
    ∀ l ∈ levels, drawable db₁ command l = drawable db command l := by
  intro l hl
  refine drawable_congr (h.frame _ (fun hkey => ?_))
  exact (List.nodup_cons.mp hnodup).1 (List.mem_map.mpr ⟨l, hl, hkey⟩)

variable (moment levels entries db x) in
/-- **Loop rule** of the draws. The induction is on the levels. -/
theorem drawsRun (hest : 0 ≤ command.estimatedMicros) : DrawsRun command levels entries db x
    (onView moment (drawLevels command levels entries) (db, x)) := by
  induction levels generalizing entries db x with
  | nil =>
    have hend : onView moment (drawLevels command [] entries) (db, x)
        = (.ok (some (entries ++ drawsOf command [] x)), db, x) := by
      rw [drawsOf, List.append_nil]
      rfl
    exact DrawsRun.of_eq hend (.granted (Later.refl db) (fun _ l hl => absurd hl List.not_mem_nil))
  | cons level levels ih =>
    cases hdraw : drawable db command level with
    | false =>
      exact DrawsRun.of_eq (onView_drawLevels_refused hdraw)
        (.refused (Later.refl db) (fun _ => ⟨level, List.mem_cons_self, hdraw⟩))
    | true =>
      obtain ⟨db₁, hrun, hdrawn⟩ := onView_drawLevels_cons moment levels entries x hest hdraw
      refine DrawsRun.of_eq hrun ?_
      have hrest := ih (entries ++ [drawOf command level x]) db₁ (x + 1)
      generalize onView moment (drawLevels command levels (entries ++ [drawOf command level x]))
        (db₁, x + 1) = u at hrest
      cases hrest with
      | granted hlater hall =>
        rw [List.append_assoc]
        refine .granted (hdrawn.later.trans hlater) (fun hnodup l hl => ?_)
        obtain rfl | hl := List.mem_cons.mp hl
        · exact hdraw
        · rw [← hdrawn.drawable_eq hnodup l hl]
          exact hall (List.nodup_cons.mp hnodup).2 l hl
      | refused hlater hsome =>
        refine .refused (hdrawn.later.trans hlater) (fun hnodup => ?_)
        obtain ⟨l, hl, hrefused⟩ := hsome (List.nodup_cons.mp hnodup).2
        exact ⟨l, List.mem_cons_of_mem _ hl, (hdrawn.drawable_eq hnodup l hl) ▸ hrefused⟩

end Draws

/-! ## The transaction -/

/-- **The call takes draws**: the first contingent level grants its draw. -/
def TakesDraws (moment : Moment) (command : BudgetCommand) (db : BudgetDb) : Prop :=
  0 ≤ command.estimatedMicros ∧ ∃ levels level rest, levelsIn moment command db = .ok levels
    ∧ contingentOf levels = level :: rest ∧ drawable db command level = true

/-- A contingent level refuses its draw. -/
def RefusesDraw (moment : Moment) (command : BudgetCommand) (db : BudgetDb) : Prop :=
  ∃ levels, levelsIn moment command db = .ok levels
    ∧ ∃ level ∈ contingentOf levels, drawable db command level = false

/-- **The ways the transaction ends**: it does not touch the tables, or it has
changed them, with a bundle or without. -/
inductive UnknownRun (moment : Moment) (command : BudgetCommand) (db : BudgetDb) (x : Uuid) :
    Except PyException (Option BudgetReservationBundle) × (BudgetDb × Uuid) → Prop
  | untouched {x' : Uuid} (hnone : ¬ TakesDraws moment command db) :
      UnknownRun moment command db x (.ok none, db, x')
  | failed {e : PyException} {v : BudgetDb × Uuid} (hnone : ¬ TakesDraws moment command db)
      (he : (∃ levels, levelsIn moment command db = .ok levels) → e = .sqlAlchemy)
      (hexceeded : ∀ code, e ≠ .budgetExceeded code) :
      UnknownRun moment command db x (.error e, v)
  | granted {levels : List Level} {db' : BudgetDb} {x' : Uuid}
      (htakes : TakesDraws moment command db)
      (hlevels : levelsIn moment command db = .ok levels)
      (hall : ∀ level ∈ contingentOf levels, drawable db command level = true)
      (hchanged : db'.states ≠ db.states) :
      UnknownRun moment command db x
        (.ok (some ⟨command, drawsOf command (contingentOf levels) x, []⟩), db', x')
  | refused {db' : BudgetDb} {x' : Uuid} (htakes : TakesDraws moment command db)
      (hrefuses : RefusesDraw moment command db) (hchanged : db'.states ≠ db.states) :
      UnknownRun moment command db x (.ok none, db', x')

section Unknown

variable {moment : Moment} {command : BudgetCommand} {db : BudgetDb} {x : Uuid}

theorem UnknownRun.of_eq {u v : Except PyException (Option BudgetReservationBundle)
    × (BudgetDb × Uuid)} (h : u = v) (hv : UnknownRun moment command db x v) :
    UnknownRun moment command db x u := h ▸ hv

/-- What `_applicable_levels` raises is no rejection. -/
theorem levelsIn_ne_exceeded {e : PyException} (h : levelsIn moment command db = .error e) :
    ∀ code, e ≠ .budgetExceeded code := by
  have hall : ∀ rows : List Budget, ∀ e, applicableLevels moment command rows = .error e →
      ∀ code, e ≠ .budgetExceeded code := by
    intro rows
    induction rows with
    | nil => intro e h; cases h
    | cons row rows ih =>
      intro e h code
      simp only [applicableLevels] at h
      cases hrow : applicableLevel? moment command row with
      | error e' =>
        rw [hrow] at h
        obtain rfl : e' = e := Except.error.inj h
        rintro rfl
        unfold applicableLevel? at hrow
        split at hrow
        · cases hrow
        · split at hrow
          · cases hrow
          · split at hrow
            · cases hrow
            · unfold periodKeyFor at hrow
              split at hrow <;> [skip; skip; split at hrow <;> [split at hrow; skip]] <;> cases hrow
      | ok o =>
        rw [hrow] at h
        cases o with
        | none => exact ih e h code
        | some level =>
          cases hrest : applicableLevels moment command rows with
          | error e' =>
            have h' : (applicableLevels moment command rows >>= fun levels =>
              (pure (level :: levels) : Except PyException (List Level))) = .error e := h
            rw [hrest] at h'
            obtain rfl : e' = e := Except.error.inj h'
            exact ih e' hrest code
          | ok levels =>
            have h' : (applicableLevels moment command rows >>= fun levels =>
              (pure (level :: levels) : Except PyException (List Level))) = .error e := h
            rw [hrest] at h'
            cases h'
  exact hall _ e h

variable (moment command x) in
/-- **The transaction of the unknown policy** ends in one of its ways. -/
theorem unknownRun (hdistinct : (db.budgets.map (fun b => (b.tenantId, b.id))).Nodup) :
    UnknownRun moment command db x
      (onView moment (unknownPolicyTransaction command) (db, x)) := by
  have hfind := onView_findLevels moment command db x
  cases hlevels : levelsIn moment command db with
  | error e =>
    rw [hlevels] at hfind
    refine UnknownRun.of_eq (Prog.within_bind_error hfind _) (.failed ?_ ?_
      (levelsIn_ne_exceeded hlevels))
    · rintro ⟨-, levels, level, rest, hok, -⟩
      rw [hlevels] at hok
      cases hok
    · rintro ⟨levels, hok⟩
      rw [hlevels] at hok
      cases hok
  | ok levels =>
    rw [hlevels] at hfind
    refine UnknownRun.of_eq (Prog.within_bind_ok hfind _) ?_
    show UnknownRun moment command db x
      (onView moment (if contingentOf levels = [] then return none
        else drawLevels command (contingentOf levels) [] >>= _) (db, x))
    have hkeys : (keysOf command (contingentOf levels)).Nodup :=
      (applicable_of_distinct hdistinct hlevels).nodup.sublist (List.filter_sublist.map _)
    have htakes : ∀ level rest, contingentOf levels = level :: rest →
        (TakesDraws moment command db ↔
          0 ≤ command.estimatedMicros ∧ drawable db command level = true) := by
      intro level rest hcontingent
      constructor
      · rintro ⟨hest, levels', level', rest', hok, hcontingent', hdraw⟩
        obtain rfl := Except.ok.inj (hlevels.symm.trans hok)
        obtain ⟨rfl, -⟩ := List.cons.inj (hcontingent.symm.trans hcontingent')
        exact ⟨hest, hdraw⟩
      · rintro ⟨hest, hdraw⟩
        exact ⟨hest, levels, level, rest, hlevels, hcontingent, hdraw⟩
    cases hcontingent : contingentOf levels with
    | nil =>
      rw [if_pos rfl]
      refine .untouched ?_
      rintro ⟨-, levels', level, rest, hok, hcons, -⟩
      obtain rfl := Except.ok.inj (hlevels.symm.trans hok)
      rw [hcontingent] at hcons
      cases hcons
    | cons level rest =>
      rw [if_neg (List.cons_ne_nil level rest)]
      rw [hcontingent] at hkeys
      by_cases hest : 0 ≤ command.estimatedMicros
      · cases hdraw : drawable db command level with
        | false =>
          refine UnknownRun.of_eq (Prog.within_bind_ok (onView_drawLevels_refused hdraw) _)
            (.untouched (fun ht => ?_))
          rw [((htakes level rest hcontingent).mp ht).2] at hdraw
          cases hdraw
        | true =>
          have ht := (htakes level rest hcontingent).mpr ⟨hest, hdraw⟩
          obtain ⟨db₁, hrun, hdrawn⟩ := onView_drawLevels_cons moment rest [] x hest hdraw
          have hrest := drawsRun moment rest ([] ++ [drawOf command level x]) db₁ (x + 1) hest
          rw [← hrun] at hrest
          generalize hdraws : onView moment (drawLevels command (level :: rest) []) (db, x) = u
            at hrest
          cases hrest with
          | @granted db₂ x₂ hlater hall =>
            have hgranted : ∀ l ∈ contingentOf levels, drawable db command l = true := by
              rw [hcontingent]
              intro l hl
              obtain rfl | hl := List.mem_cons.mp hl
              · exact hdraw
              · rw [← hdrawn.drawable_eq hkeys l hl]
                exact hall (List.nodup_cons.mp hkeys).2 l hl
            have hend : UnknownRun moment command db x
                (.ok (some ⟨command, drawsOf command (contingentOf levels) x, []⟩), db₂, x₂) :=
              .granted ht hlevels hgranted (hdrawn.ne hlater)
            rw [hcontingent] at hend
            exact UnknownRun.of_eq ((Prog.within_bind_ok hdraws _).trans rfl) hend
          | refused hlater hsome =>
            refine UnknownRun.of_eq ((Prog.within_bind_ok hdraws _).trans rfl)
              (.refused ht ?_ (hdrawn.ne hlater))
            obtain ⟨l, hl, hrefused⟩ := hsome (List.nodup_cons.mp hkeys).2
            refine ⟨levels, hlevels, l, ?_, (hdrawn.drawable_eq hkeys l hl) ▸ hrefused⟩
            rw [hcontingent]
            exact List.mem_cons_of_mem _ hl
      · have hnot : ¬ TakesDraws moment command db := fun ht => hest ht.1
        obtain herror | hnone := onView_drawLevels_neg moment level db x rest []
          (Int.not_le.mp hest)
        · exact UnknownRun.of_eq (Prog.within_bind_error (Prod.ext herror rfl) _)
            (.failed hnot (fun _ => rfl) (fun _ => PyException.noConfusion))
        · exact UnknownRun.of_eq ((Prog.within_bind_ok hnone _).trans rfl) (.untouched hnot)

end Unknown

/-! ## Bodies -/

section Bodies

variable (command : BudgetCommand)

theorem body_appendLedger (key : PeriodKey) (type : LedgerEntryType) (amount : ℤ)
    (reserveId : Option Uuid) (contingency : Bool) (reason : String) :
    Engine.Body (appendLedger command key type amount reserveId contingency reason) :=
  Engine.body_stmt _

theorem body_findLevels : Engine.Body (findLevels command) := by
  refine (Engine.body_stmt _).bind (fun moment => (Engine.body_stmt _).bind (fun rows => ?_))
  cases applicableLevels moment command rows with
  | ok levels => exact Engine.body_ret _
  | error e => exact Engine.body_raise _

theorem body_drawLevels (levels : List Level) (entries : List BudgetReservation) :
    Engine.Body (drawLevels command levels entries) := by
  induction levels generalizing entries with
  | nil => exact Engine.body_ret _
  | cons level levels ih =>
    refine (Engine.body_stmt _).bind (fun drawn => ?_)
    cases drawn with
    | none => exact Engine.body_ret _
    | some n => exact (body_appendLedger ..).bind (fun _ => ih _)

theorem body_unknownPolicyTransaction : Engine.Body (unknownPolicyTransaction command) := by
  refine (body_findLevels command).bind (fun levels => ?_)
  show Engine.Body (if _ then _ else _)
  split
  · exact Engine.body_ret _
  · refine (body_drawLevels ..).bind (fun entries => ?_)
    cases entries with
    | none => exact Engine.body_ret _
    | some entries => exact Engine.body_ret _

end Bodies

/-! ## A call that ends without a bundle -/

/-- No row of totals and no entry has changed. -/
structure Untouched (db db' : BudgetDb) : Prop where
  states : db'.states = db.states
  ledger : db'.ledger = db.ledger

section Calls

variable {pid : ℕ} {cs : List (Choice Moment)} {s s' : BudgetState} {moment : Moment}
  {command : BudgetCommand}

/-- **How `_apply_unknown_policy` ends**, when it is alone: as its transaction
ends, but for database errors, which count as no bundle. -/
theorem eval_applyUnknownPolicy (hidle : s.pending pid = none)
    (hcs : ∀ c ∈ cs, Engine.ServesWith moment c)
    {r : Except PyException (Option BudgetReservationBundle)}
    (hrun : (applyUnknownPolicy command).eval (budgetEngine.handler pid) cs s = some (r, s')) :
    ∃ r₁, Engine.Ending .sqlAlchemy
        (onView moment (unknownPolicyTransaction command) (s.committed, s.ext)) s.committed cs r₁
        s'.committed
      ∧ r = (if r₁ = .error .sqlAlchemy then .ok none else r₁) := by
  obtain ⟨cs₁, cs₂, r₁, s₁, rfl, htx, hgo⟩ := Prog.eval_tryCatch hrun
  obtain ⟨-, hend⟩ := Engine.eval_transaction budgetEngine_blind
    (body_unknownPolicyTransaction command) (fun c hc => hcs c (List.mem_append_left _ hc)) hidle
    htx
  cases r₁ with
  | ok o =>
    obtain ⟨rfl, hout⟩ := hgo
    cases hout
    rw [List.append_nil]
    exact ⟨.ok o, hend, rfl⟩
  | error e =>
    have hgo' : (if e = .sqlAlchemy then (return none : BudgetProg (Option BudgetReservationBundle))
        else throw e).eval (budgetEngine.handler pid) cs₂ s₁ = some (r, s') := hgo
    split at hgo'
    · rename_i he
      obtain ⟨rfl, hout⟩ := Prog.eval_ret hgo'
      cases hout
      rw [List.append_nil]
      exact ⟨.error e, hend, by rw [he]; rfl⟩
    · rename_i he
      obtain ⟨rfl, hout⟩ := Prog.eval_raise hgo'
      cases hout
      rw [List.append_nil]
      refine ⟨.error e, hend, (if_neg (fun hc => he ?_)).symm⟩
      exact Except.error.inj hc

/-- **A call that ends without a bundle has changed nothing**, unless it took a
draw that was neither rolled back nor handed out: no statement failed, the
first contingent level granted its draw, and a later one refused, or the
acknowledgement of the commit was lost. -/
theorem failed_draw_atomic_iff
    (hdistinct : (s.committed.budgets.map (fun b => (b.tenantId, b.id))).Nodup)
    (hidle : s.pending pid = none) (hcs : ∀ c ∈ cs, Engine.ServesWith moment c)
    {r : Except PyException (Option BudgetReservationBundle)}
    (hrun : (applyUnknownPolicy command).eval (budgetEngine.handler pid) cs s = some (r, s')) :
    (r = .ok none → Untouched s.committed s'.committed)
      ↔ ¬ (.fault ∉ cs ∧ TakesDraws moment command s.committed
        ∧ (.lost ∈ cs ∨ RefusesDraw moment command s.committed)) := by
  obtain ⟨r₁, hend, hr⟩ := eval_applyUnknownPolicy hidle hcs hrun
  have hbody := unknownRun moment command s.ext hdistinct
  have hsame : ∀ db : BudgetDb, Untouched db db := fun db => ⟨rfl, rfl⟩
  generalize s'.committed = db' at hend ⊢
  generalize hv : onView moment (unknownPolicyTransaction command) (s.committed, s.ext) = v
    at hend hbody
  cases hend with
  | failed hfault => exact ⟨fun _ hc => hc.1 hfault, fun _ _ => hsame _⟩
  | @committed o hfault hlost hok =>
    obtain rfl : r = .ok o := hr
    cases hbody with
    | untouched hnone => exact ⟨fun _ hc => hnone hc.2.1, fun _ _ => hsame _⟩
    | failed hnone he hexceeded => cases hok
    | granted htakes hlevels hall hchanged =>
      refine ⟨fun _ hc => ?_, fun _ hc => ?_⟩
      · obtain hlost' | ⟨levels, hok', level, hlevel, hrefused⟩ := hc.2.2
        · exact hlost hlost'
        · obtain rfl := Except.ok.inj (hlevels.symm.trans hok')
          rw [hall level hlevel] at hrefused
          cases hrefused
      · cases hok
        cases hc
    | refused htakes hrefuses hchanged =>
      cases hok
      exact ⟨fun h => absurd (h rfl).states hchanged,
        fun hn => absurd ⟨hfault, htakes, Or.inr hrefuses⟩ hn⟩
  | lost hfault hlost hok =>
    obtain rfl : r = .ok none := hr.trans (if_pos rfl)
    cases hbody with
    | untouched hnone => exact ⟨fun _ hc => hnone hc.2.1, fun _ _ => hsame _⟩
    | failed hnone he hexceeded => cases hok
    | granted htakes hlevels hall hchanged =>
      exact ⟨fun h => absurd (h rfl).states hchanged,
        fun hn => absurd ⟨hfault, htakes, Or.inl hlost⟩ hn⟩
    | refused htakes hrefuses hchanged =>
      exact ⟨fun h => absurd (h rfl).states hchanged,
        fun hn => absurd ⟨hfault, htakes, Or.inl hlost⟩ hn⟩
  | raised hfault hlost hraised =>
    cases hbody with
    | untouched hnone => cases hraised
    | failed hnone he hexceeded => exact ⟨fun _ hc => hnone hc.2.1, fun _ _ => hsame _⟩
    | granted htakes hlevels hall hchanged => cases hraised
    | refused htakes hrefuses hchanged => cases hraised

end Calls

/-! ## A call that ends with a bundle -/

/-- What is left of the contingency of a level. -/
def remaining (db : BudgetDb) (command : BudgetCommand) (level : Level) : ℤ :=
  level.contingencyMicros - (db.rowAt (level.key command.tenantId)).contingencyReservedMicros

/-- **A bundle covers a level**: the level admits draws, and an entry of its own
holds the whole estimate, within what was left. -/
structure CoveredBy (bundle : BudgetReservationBundle) (db : BudgetDb) (command : BudgetCommand)
    (level : Level) : Prop where
  policy : level.unknownPolicy = .CONTINGENCY
  entry : ∃ entry ∈ bundle.entries, entry.key command.tenantId = level.key command.tenantId
    ∧ entry.contingency = true ∧ command.estimatedMicros ≤ entry.amountMicros
    ∧ entry.amountMicros ≤ remaining db command level

/-- **An unknown state fails closed**: a bundle covers every level, and a level
that is to fail closed, or has too little left, makes the call raise. -/
structure FailsClosed (levels : List Level) (db : BudgetDb) (command : BudgetCommand)
    (r : Except PyException BudgetReservationBundle) : Prop where
  bundle : ∀ bundle, r = .ok bundle → ∀ level ∈ levels, CoveredBy bundle db command level
  raises : (∃ level ∈ levels, level.unknownPolicy = .FAIL_CLOSED
    ∨ remaining db command level < command.estimatedMicros) →
    ∃ code, r = .error (.budgetStateUnknown code)

/-- The level is drawn on, and its contingency is no less than the estimate. -/
def Coverable (command : BudgetCommand) (level : Level) : Prop :=
  level.unknownPolicy = .CONTINGENCY ∧ 0 < level.contingencyMicros
    ∧ command.estimatedMicros ≤ level.contingencyMicros

/-- Every contingent level grants its draw, and there is one. -/
def GrantsDraws (moment : Moment) (command : BudgetCommand) (db : BudgetDb)
    (levels : List Level) : Prop :=
  TakesDraws moment command db ∧ ∀ level ∈ contingentOf levels, drawable db command level = true

section Covering

variable {command : BudgetCommand} {db : BudgetDb} {levels : List Level} {x : Uuid}

theorem mem_drawsOf {entry : BudgetReservation} (h : entry ∈ drawsOf command levels x) :
    ∃ level ∈ levels, ∃ id, entry = drawOf command level id := by
  induction levels generalizing x with
  | nil => cases h
  | cons level levels ih =>
    obtain rfl | h := List.mem_cons.mp h
    · exact ⟨level, List.mem_cons_self, x, rfl⟩
    · obtain ⟨l, hl, id, he⟩ := ih h
      exact ⟨l, List.mem_cons_of_mem _ hl, id, he⟩

variable (command x) in
theorem drawOf_mem {level : Level} (h : level ∈ levels) :
    ∃ id, drawOf command level id ∈ drawsOf command levels x := by
  induction levels generalizing x with
  | nil => cases h
  | cons l levels ih =>
    obtain rfl | h := List.mem_cons.mp h
    · exact ⟨x, List.mem_cons_self⟩
    · obtain ⟨id, hid⟩ := ih (x + 1) h
      exact ⟨id, List.mem_cons_of_mem _ hid⟩

/-- What is drawn is what is left, at most. -/
theorem drawAmount_le_remaining {level : Level} (h : drawable db command level = true) :
    drawAmount command level ≤ remaining db command level := by
  unfold drawable at h
  unfold remaining BudgetDb.rowAt
  split at h
  · cases h
  · rename_i row hrow
    have hguard := of_decide_eq_true h
    rw [hrow]
    show _ ≤ (level.contingencyMicros : ℤ) - row.contingencyReservedMicros
    omega

variable (db) in
/-- **The draws cover all levels exactly when each of them can be covered.** -/
theorem covers_iff (bundle : BudgetReservationBundle) (hkeys : (keysOf command levels).Nodup)
    (hentries : bundle.entries = drawsOf command (contingentOf levels) x)
    (hall : ∀ level ∈ contingentOf levels, drawable db command level = true) :
    (∀ level ∈ levels, CoveredBy bundle db command level)
      ↔ ∀ level ∈ levels, Coverable command level := by
  refine forall₂_congr (fun level hlevel => ⟨fun hcovered => ?_, fun hcoverable => ?_⟩)
  · -- The entry of the level is the draw on the level itself.
    obtain ⟨entry, hentry, hkey, -, hle, -⟩ := hcovered.entry
    rw [hentries] at hentry
    obtain ⟨l, hl, id, rfl⟩ := mem_drawsOf hentry
    obtain ⟨hl, hcontingent⟩ := List.mem_filter.mp hl
    obtain rfl : l = level := List.inj_on_of_nodup_map hkeys hl hlevel hkey
    obtain ⟨hpolicy, hpos⟩ := of_decide_eq_true hcontingent
    exact ⟨hpolicy, hpos, hle.trans (min_le_right _ _)⟩
  · obtain ⟨hpolicy, hpos, hle⟩ := hcoverable
    have hmem : level ∈ contingentOf levels :=
      List.mem_filter.mpr ⟨hlevel, decide_eq_true ⟨hpolicy, hpos⟩⟩
    obtain ⟨id, hid⟩ := drawOf_mem command x hmem
    refine ⟨hpolicy, drawOf command level id, hentries ▸ hid, rfl, rfl, ?_, ?_⟩
    · exact le_min (le_refl _) hle
    · exact drawAmount_le_remaining (hall level hmem)

/-- Levels that are all covered give no reason to raise. -/
theorem not_raises_of_covered (hall : ∀ level ∈ contingentOf levels, drawable db command level
    = true)
    (hcoverable : ∀ level ∈ levels, Coverable command level) :
    ¬ ∃ level ∈ levels, level.unknownPolicy = .FAIL_CLOSED
      ∨ remaining db command level < command.estimatedMicros := by
  rintro ⟨level, hlevel, hreason⟩
  obtain ⟨hpolicy, hpos, hle⟩ := hcoverable level hlevel
  obtain hclosed | hshort := hreason
  · rw [hpolicy] at hclosed
    cases hclosed
  · have hleft := drawAmount_le_remaining
      (hall level (List.mem_filter.mpr ⟨hlevel, decide_eq_true ⟨hpolicy, hpos⟩⟩))
    have hamount : drawAmount command level = command.estimatedMicros := min_eq_left hle
    rw [hamount] at hleft
    exact absurd hshort (Int.not_lt.mpr hleft)

end Covering

/-- What `reserve` makes of the answer of `_apply_unknown_policy`. -/
def recovered : Except PyException (Option BudgetReservationBundle) →
    Except PyException BudgetReservationBundle
  | .ok (some bundle) => .ok bundle
  | .ok none => .error (.budgetStateUnknown "BUDGET_STATE_UNKNOWN")
  | .error e => .error e

section Recovery

variable {pid : ℕ} {cs₁ cs₂ : List (Choice Moment)} {s s₁ s' : BudgetState} {moment : Moment}
  {command : BudgetCommand} {r : Except PyException BudgetReservationBundle}

/-- **A reservation whose transaction has raised** ends as the unknown policy
says. -/
theorem eval_reserve_recovered
    (hfirst : (Engine.transaction (reserveTransaction command)).eval (budgetEngine.handler pid)
      cs₁ s = some (.error .sqlAlchemy, s₁))
    (hrun : (reserve command).eval (budgetEngine.handler pid) (cs₁ ++ cs₂) s = some (r, s')) :
    ∃ q, (applyUnknownPolicy command).eval (budgetEngine.handler pid) cs₂ s₁ = some (q, s')
      ∧ r = recovered q := by
  have hrecover := (Prog.eval_tryCatch_bind hfirst).symm.trans hrun
  obtain ⟨cs₃, cs₄, q, s₂, rfl, hcall, hgo⟩ := Prog.eval_bind hrecover
  obtain ⟨cs₅, cs₆, q', s₃, rfl, hpolicy, hgo'⟩ := Prog.eval_bind hcall
  cases q' with
  | error e =>
    obtain ⟨rfl, hout⟩ := hgo'
    cases hout
    obtain ⟨rfl, hout⟩ := hgo
    cases hout
    rw [List.append_nil, List.append_nil]
    exact ⟨_, hpolicy, rfl⟩
  | ok o =>
    cases o with
    | none =>
      obtain ⟨rfl, hout⟩ := Prog.eval_raise hgo'
      cases hout
      obtain ⟨rfl, hout⟩ := hgo
      cases hout
      rw [List.append_nil, List.append_nil]
      exact ⟨_, hpolicy, rfl⟩
    | some bundle =>
      obtain ⟨rfl, hout⟩ := Prog.eval_ret hgo'
      cases hout
      obtain ⟨rfl, hout⟩ := Prog.eval_ret hgo
      cases hout
      rw [List.append_nil, List.append_nil]
      exact ⟨_, hpolicy, rfl⟩

/-- Without a bundle the call has failed closed. -/
theorem failsClosed_of_none {levels : List Level} {db : BudgetDb} :
    FailsClosed levels db command (recovered (.ok none)) :=
  ⟨fun _ h => (nomatch h), fun _ => ⟨_, rfl⟩⟩

/-- **An unknown budget state fails closed**, unless a bundle is handed out –
every contingent level grants its draw and the connection holds – while some
level is not coverable: it is to fail closed, has no contingency, or a smaller
one than the estimate. -/
theorem unknown_fails_closed_iff {levels : List Level}
    (hdistinct : (s₁.committed.budgets.map (fun b => (b.tenantId, b.id))).Nodup)
    (hidle : s₁.pending pid = none)
    (hlevels : levelsIn moment command s₁.committed = .ok levels)
    (hfirst : (Engine.transaction (reserveTransaction command)).eval (budgetEngine.handler pid)
      cs₁ s = some (.error .sqlAlchemy, s₁))
    (hcs : ∀ c ∈ cs₂, Engine.ServesWith moment c)
    (hrun : (reserve command).eval (budgetEngine.handler pid) (cs₁ ++ cs₂) s = some (r, s')) :
    FailsClosed levels s₁.committed command r
      ↔ ¬ ((.fault ∉ cs₂ ∧ .lost ∉ cs₂ ∧ GrantsDraws moment command s₁.committed levels)
        ∧ ∃ level ∈ levels, ¬ Coverable command level) := by
  obtain ⟨q, hpolicy, rfl⟩ := eval_reserve_recovered hfirst hrun
  obtain ⟨r₁, hend, rfl⟩ := eval_applyUnknownPolicy hidle hcs hpolicy
  have hbody := unknownRun moment command s₁.ext hdistinct
  generalize hv : onView moment (unknownPolicyTransaction command) (s₁.committed, s₁.ext) = v
    at hend hbody
  generalize s'.committed = db' at hend
  cases hend with
  | failed hfault =>
    rw [if_pos rfl]
    exact ⟨fun _ hc => hc.1.1 hfault, fun _ => failsClosed_of_none⟩
  | @committed o hfault hlost hok =>
    rw [if_neg (by simp)]
    cases hbody with
    | untouched hnone =>
      cases hok
      exact ⟨fun _ hc => hnone hc.1.2.2.1, fun _ => failsClosed_of_none⟩
    | failed hnone he hexceeded => cases hok
    | granted htakes hlevels' hall hchanged =>
      cases hok
      obtain rfl := Except.ok.inj (hlevels.symm.trans hlevels')
      have hcovers := covers_iff s₁.committed ⟨command, drawsOf command
          (contingentOf levels) s₁.ext, []⟩
        (applicable_of_distinct hdistinct hlevels).nodup rfl hall
      constructor
      · rintro hclosed ⟨-, level, hlevel, hnot⟩
        exact hnot (hcovers.mp (hclosed.bundle _ rfl) level hlevel)
      · intro hnot
        have hcoverable : ∀ level ∈ levels, Coverable command level := by
          intro level hlevel
          by_contra hlack
          exact hnot ⟨⟨hfault, hlost, htakes, hall⟩, level, hlevel, hlack⟩
        refine ⟨fun bundle hb => ?_, fun hreason => ?_⟩
        · obtain rfl := Except.ok.inj hb
          exact hcovers.mpr hcoverable
        · exact absurd hreason (not_raises_of_covered hall hcoverable)
    | refused htakes hrefuses hchanged =>
      cases hok
      refine ⟨fun _ hc => ?_, fun _ => failsClosed_of_none⟩
      obtain ⟨levels', hok', level, hlevel, hrefused⟩ := hrefuses
      obtain rfl := Except.ok.inj (hlevels.symm.trans hok')
      rw [hc.1.2.2.2 level hlevel] at hrefused
      cases hrefused
  | lost hfault hlost hok =>
    rw [if_pos rfl]
    exact ⟨fun _ hc => hc.1.2.1 hlost, fun _ => failsClosed_of_none⟩
  | raised hfault hlost hraised =>
    cases hbody with
    | untouched hnone => cases hraised
    | failed hnone he hexceeded =>
      obtain rfl := Except.error.inj hraised
      rw [he ⟨levels, hlevels⟩, if_pos rfl]
      exact ⟨fun _ hc => hnone hc.1.2.2.1, fun _ => failsClosed_of_none⟩
    | granted htakes hlevels' hall hchanged => cases hraised
    | refused htakes hrefuses hchanged => cases hraised

end Recovery

/-! ## Two levels, one of them short -/

/-- A monthly budget with a contingency of 10. -/
def contingentMonth : Budget := ⟨1, 5, none, .TENANT_MONTHLY, 100, 10, .CONTINGENCY⟩

/-- A daily budget of an application with a contingency of 10. -/
def contingentDay : Budget := ⟨1, 6, some 2, .AGENT_DAILY, 100, 10, .CONTINGENCY⟩

/-- A daily budget of an application that fails closed. -/
def closedDay : Budget := ⟨1, 6, some 2, .AGENT_DAILY, 100, 0, .FAIL_CLOSED⟩

/-- The monthly budget has its row, the daily one has none yet. -/
def monthBegun (day : Budget) : BudgetDb :=
  (BudgetWrite.setState ⟨1, 5, "2026-01"⟩ .zero).apply (.configured [contingentMonth, day])

/-- The application asks for an amount. -/
def askFor (amount : ℤ) : BudgetCommand :=
  { tenantId := 1, applicationId := some 2, executionId := some "e", estimatedMicros := amount }

/-- A moment in January. -/
def january : Moment := ⟨2026, 1, 15⟩

/-- **A draw is taken, and the call ends without a bundle**: the monthly budget
grants its draw, the daily one has no row, and the transaction commits. -/
theorem draw_kept_without_bundle : ∃ s',
    (applyUnknownPolicy (askFor 4)).eval (budgetEngine.handler 0)
        (List.replicate 7 (.serve january)) (Engine.quiet (monthBegun contingentDay) 0)
      = some (.ok none, s') ∧ ¬ Untouched (monthBegun contingentDay) s'.committed := by
  have hrun : ((applyUnknownPolicy (askFor 4)).eval (budgetEngine.handler 0)
      (List.replicate 7 (.serve january)) (Engine.quiet (monthBegun contingentDay) 0)).map
      (fun out => decide (out.1 = .ok none ∧ out.2.committed.ledger.length = 1)) = some true := by
    decide +kernel
  obtain ⟨⟨r, s'⟩, hout, htest⟩ := Option.map_eq_some_iff.mp hrun
  obtain ⟨rfl, hledger⟩ := of_decide_eq_true htest
  refine ⟨s', hout, fun hsame => ?_⟩
  rw [hsame.ledger] at hledger
  cases hledger

/-- The condition speaks of this call. -/
theorem draw_kept_without_bundle_iff : ∃ s',
    (applyUnknownPolicy (askFor 4)).eval (budgetEngine.handler 0)
        (List.replicate 7 (.serve january)) (Engine.quiet (monthBegun contingentDay) 0)
      = some (.ok none, s')
    ∧ (((.ok none : Except PyException (Option BudgetReservationBundle)) = .ok none →
        Untouched (monthBegun contingentDay) s'.committed)
      ↔ ¬ (.fault ∉ List.replicate 7 (Choice.serve january)
        ∧ TakesDraws january (askFor 4) (monthBegun contingentDay)
        ∧ (.lost ∈ List.replicate 7 (Choice.serve january)
          ∨ RefusesDraw january (askFor 4) (monthBegun contingentDay)))) := by
  have hrun : ((applyUnknownPolicy (askFor 4)).eval (budgetEngine.handler 0)
      (List.replicate 7 (.serve january)) (Engine.quiet (monthBegun contingentDay) 0)).map
      (fun out => decide (out.1 = .ok none)) = some true := by
    decide +kernel
  obtain ⟨⟨r, s'⟩, hout, htest⟩ := Option.map_eq_some_iff.mp hrun
  obtain rfl : r = .ok none := of_decide_eq_true htest
  have hserves : ∀ c ∈ List.replicate 7 (Choice.serve january), Engine.ServesWith january c := by
    intro c hc a ha
    rw [List.eq_of_mem_replicate hc] at ha
    exact (Choice.serve.inj ha).symm
  exact ⟨s', hout, failed_draw_atomic_iff (s := Engine.quiet (monthBegun contingentDay) 0)
    (by decide) rfl hserves hout⟩

/-- **A bundle that covers nothing in full**: the transaction of the reservation
has failed, the daily budget is to fail closed, the monthly one has a tenth of
the estimate, and the call returns a bundle. -/
theorem bundle_without_cover : ∃ bundle s',
    (reserve (askFor 100)).eval (budgetEngine.handler 0)
        ([Choice.fault] ++ List.replicate 6 (Choice.serve january))
          (Engine.quiet (monthBegun closedDay) 0)
      = some (.ok bundle, s')
    ∧ bundle.entries.map (·.amountMicros) = [10]
    ∧ ∃ levels, levelsIn january (askFor 100) (monthBegun closedDay) = .ok levels
      ∧ ¬ FailsClosed levels (monthBegun closedDay) (askFor 100) (.ok bundle) := by
  have hrun : ((reserve (askFor 100)).eval (budgetEngine.handler 0)
      ([Choice.fault] ++ List.replicate 6 (Choice.serve january))
        (Engine.quiet (monthBegun closedDay) 0)).map
      (fun out => decide (out.1 = .ok ⟨askFor 100,
        [⟨5, .TENANT_MONTHLY, "2026-01", 10, 0, true⟩], []⟩)) = some true := by
    decide +kernel
  obtain ⟨⟨r, s'⟩, hout, htest⟩ := Option.map_eq_some_iff.mp hrun
  obtain rfl := of_decide_eq_true htest
  have hlevels : levelsIn january (askFor 100) (monthBegun closedDay)
      = .ok [⟨5, .TENANT_MONTHLY, "2026-01", 100, 10, .CONTINGENCY⟩,
        ⟨6, .AGENT_DAILY, "2026-01-15", 100, 0, .FAIL_CLOSED⟩] := by
    decide +kernel
  refine ⟨_, s', hout, rfl, _, hlevels, fun hclosed => ?_⟩
  have hcovered := hclosed.bundle _ rfl _ (List.mem_cons_of_mem _ List.mem_cons_self)
  exact UnknownPolicy.noConfusion hcovered.policy

/-- The condition speaks of this call. -/
theorem bundle_without_cover_iff : ∃ bundle s' levels,
    (reserve (askFor 100)).eval (budgetEngine.handler 0)
        ([Choice.fault] ++ List.replicate 6 (Choice.serve january))
          (Engine.quiet (monthBegun closedDay) 0)
      = some (.ok bundle, s')
    ∧ (FailsClosed levels (monthBegun closedDay) (askFor 100) (.ok bundle)
      ↔ ¬ ((Choice.fault ∉ List.replicate 6 (Choice.serve january)
          ∧ Choice.lost ∉ List.replicate 6 (Choice.serve january)
          ∧ GrantsDraws january (askFor 100) (monthBegun closedDay) levels)
        ∧ ∃ level ∈ levels, ¬ Coverable (askFor 100) level)) := by
  have hrun : ((reserve (askFor 100)).eval (budgetEngine.handler 0)
      ([Choice.fault] ++ List.replicate 6 (Choice.serve january))
        (Engine.quiet (monthBegun closedDay) 0)).map
      (fun out => decide (out.1 = .ok ⟨askFor 100,
        [⟨5, .TENANT_MONTHLY, "2026-01", 10, 0, true⟩], []⟩)) = some true := by
    decide +kernel
  obtain ⟨⟨r, s'⟩, hout, htest⟩ := Option.map_eq_some_iff.mp hrun
  obtain rfl := of_decide_eq_true htest
  have hlevels : levelsIn january (askFor 100) (monthBegun closedDay)
      = .ok [⟨5, .TENANT_MONTHLY, "2026-01", 100, 10, .CONTINGENCY⟩,
        ⟨6, .AGENT_DAILY, "2026-01-15", 100, 0, .FAIL_CLOSED⟩] := by
    decide +kernel
  have hserves : ∀ c ∈ List.replicate 6 (Choice.serve january), Engine.ServesWith january c := by
    intro c hc a ha
    rw [List.eq_of_mem_replicate hc] at ha
    exact (Choice.serve.inj ha).symm
  have hfirst : (Engine.transaction (reserveTransaction (askFor 100))).eval
      (budgetEngine.handler 0) [Choice.fault] (Engine.quiet (monthBegun closedDay) 0)
      = some (.error .sqlAlchemy, Engine.quiet (monthBegun closedDay) 0) := rfl
  exact ⟨_, s', _, hout,
    unknown_fails_closed_iff (by decide) rfl hlevels hfirst hserves hout⟩
