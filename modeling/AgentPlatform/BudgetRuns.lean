import AgentPlatform.BudgetBooks

/-!
# The programs of the budget service

`reserve`, `settle`, `release` and `adjust` keep the books, whatever other
calls do between their statements. The module follows the programs from the
bottom up: one rule for a statement in a transaction (`meets_ask`) and one for
a transaction (`meets_transaction`), then each statement, the reservation of
one level, the loops over levels, the transactions, and the calls.

In between, a call carries `Sound` for what it has written, together with what
it needs to know about single reservations: that one of its own is still open
(`OpenIn`), so that it can be compensated, or that one of a bundle has been
entered (`Entered`), so that it can be closed.
-/

namespace BudgetService

/-! ## The rule for statements -/

/-- The commits a call has made. -/
def commitsOf (pid : ℕ) (s : BudgetState) : List (TxCommit BudgetDb) :=
  s.log.filter (fun c => c.pid = pid)

/-- The call is in a transaction, with these writes, and has made these commits
before. -/
structure InTx (pid : ℕ) (ws : List BudgetWrite) (l : List (TxCommit BudgetDb))
    (s : BudgetState) : Prop where
  pending : s.pending pid = some ws
  commits : commitsOf pid s = l

/-- A program of `pid` meets a postcondition among other calls. -/
abbrev Meets (ledger limit : Prop) (pid : ℕ) {α : Type} (p : BudgetProg α)
    (Q : Except PyException α → BudgetState → Prop) (s : BudgetState) : Prop :=
  p.Safe (Prog.Handled (budgetEngine.handler pid) (closesOnce ledger pid))
    (fun a b => Books ledger limit b ∧ Respects limit pid a b)
    (fun a b => Books ledger limit b ∧ ∀ q, q ≠ pid → Respects limit q a b) Q s

/-- The postcondition of a part of a transaction: when it raises, nothing has
been committed by it. -/
abbrev Within (pid : ℕ) (l : List (TxCommit BudgetDb)) {α : Type}
    (P : α → BudgetState → Prop) : Except PyException α → BudgetState → Prop :=
  Prog.outcome P (fun _ s => commitsOf pid s = l)

/-- **What a call knows when a statement has been answered**: `s` is the state
in which it went to ask, `x` the identifiers drawn when the statement ran. -/
structure Served (ledger limit : Prop) (pid : ℕ) (op : BudgetOp) (ws : List BudgetWrite)
    (l : List (TxCommit BudgetDb)) (a : Moment) (x : Uuid) (s s' : BudgetState) : Prop where
  books : Books ledger limit s'
  keeps : Keeps limit pid s s'
  inTx : InTx pid (ws ++ (op.exec a (budgetEngine.applyAll ws s'.committed) x).2) l s'
  locks : ∀ k ∈ op.locks (budgetEngine.applyAll ws s'.committed) x, s'.holder k = some pid
  fresh : ∀ e ∈ (budgetEngine.applyAll ws s'.committed).ledger, e.reserveId < x
  ordinary : ∀ id draft, op = .appendLedger (some id) draft → ledger →
    draft.entryType.closes = true →
    (budgetEngine.applyAll ws s'.committed).findEntry draft.period id draft.entryType = none →
    draft.contingency = false

section Rules

variable {ledger limit : Prop} {pid : ℕ} {ws : List BudgetWrite}
  {l : List (TxCommit BudgetDb)} {s : BudgetState} {added : PeriodKey → ℤ}

/-- **Statement rule.** -/
theorem meets_ask {op : BudgetOp} {P : BudgetRes op → BudgetState → Prop}
    (hin : InTx pid ws l s)
    (hproper : ∀ s₁, Books ledger limit s₁ → Respects limit pid s s₁ → op.Proper s₁)
    (hok : ∀ s' a x r, Served ledger limit pid op ws l a x s s' →
      (op.exec a (budgetEngine.applyAll ws s'.committed) x).1 = .ok r → P r s') :
    Meets ledger limit pid op.ask (Within pid l P) s := by
  have hcommits : ∀ s₁, Respects limit pid s s₁ → commitsOf pid s₁ = l :=
    fun s₁ hr => hr.untouched.log.trans hin.commits
  refine Engine.safe_stmt ?_ ?_
  · rintro s₁ ⟨hb, hr⟩ -
    exact ⟨⟨hb, fun q _ => .refl limit q s₁⟩, hcommits s₁ hr⟩
  · rintro s₁ a ⟨hb, hr⟩ hallow hfree
    have hp : s₁.pending pid = some ws := hr.untouched.pending.trans hin.pending
    have hview : budgetEngine.view s₁ pid = budgetEngine.applyAll ws s₁.committed := by
      simp only [Engine.view, hp]
    have hguar := hb.guarantees_ran hp hfree (hproper s₁ hb hr) hallow
    refine ⟨hguar, ?_⟩
    have hserved : Served ledger limit pid op ws l a s₁.ext s (budgetEngine.ran pid a op s₁) := by
      have hran : budgetEngine.ran pid a op s₁
          = { s₁ with
              pending := Function.update s₁.pending pid
                (some (ws ++ (op.exec a (budgetEngine.applyAll ws s₁.committed) s₁.ext).2))
              holder := fun k =>
                if k ∈ op.locks (budgetEngine.applyAll ws s₁.committed) s₁.ext then some pid
                else s₁.holder k
              ext := op.draws s₁.ext } := by
        simp only [Engine.ran, Engine.perform, hp, hview]
        rfl
      refine ⟨hguar.1, hr.keeps.of_committed (by rw [hran]) ?_, ?_, ?_, ?_, ?_⟩
      · intro k hk
        rw [hran]
        simp [hk]
      · rw [hran]
        exact ⟨by simp, hcommits s₁ hr⟩
      · rw [hran]
        intro k hk
        simp only [] at hk ⊢
        rw [if_pos hk]
      · rw [hran]
        intro e he
        rw [applyAll_ledger] at he
        rcases List.mem_append.mp he with he | he
        · exact hb.drawn e he
        · exact hb.drawn_pending pid ws hp e he
      · rintro id draft rfl hl hclose hnone
        rw [hran] at hnone
        exact (hallow hl hclose (by rw [hview]; exact hnone)).1
    show Within pid l P (op.exec a (budgetEngine.view s₁ pid) s₁.ext).1 _
    rw [hview]
    have hcom : (budgetEngine.ran pid a op s₁).committed = s₁.committed := by
      simp only [Engine.ran, Engine.perform, hp]
    cases hr' : (op.exec a (budgetEngine.applyAll ws s₁.committed) s₁.ext).1 with
    | ok r => exact hok _ a s₁.ext r hserved (by rw [hcom]; exact hr')
    | error e => exact hserved.inTx.commits

/-- A statement that only reads. -/
theorem meets_read {op : BudgetOp} {P : BudgetRes op → BudgetState → Prop}
    (hin : InTx pid ws l s) (hproper : ∀ s₁, op.Proper s₁)
    (hreads : ∀ a db x, (op.exec a db x).2 = [])
    (hok : ∀ s' a x r, Books ledger limit s' → Keeps limit pid s s' → InTx pid ws l s' →
      (∀ k ∈ op.locks (budgetEngine.applyAll ws s'.committed) x, s'.holder k = some pid) →
      (op.exec a (budgetEngine.applyAll ws s'.committed) x).1 = .ok r → P r s') :
    Meets ledger limit pid op.ask (Within pid l P) s := by
  refine meets_ask hin (fun s₁ _ _ => hproper s₁) (fun s' a x r h hr => ?_)
  refine hok s' a x r h.books h.keeps ?_ h.locks hr
  have hin' := h.inTx
  rw [hreads, List.append_nil] at hin'
  exact hin'

/-- Sequencing within a transaction. -/
theorem meets_bind {α β : Type} {p : BudgetProg α} {f : α → BudgetProg β}
    {P : α → BudgetState → Prop} {P' : β → BudgetState → Prop}
    (hp : Meets ledger limit pid p (Within pid l P) s)
    (hf : ∀ a s', P a s' → Meets ledger limit pid (f a) (Within pid l P') s') :
    Meets ledger limit pid (p >>= f) (Within pid l P') s := by
  refine (Prog.safe_bind _ _ _ _).mpr (hp.mono (fun r s' hr => ?_))
  cases r with
  | ok a => exact hf a s' hr
  | error e => exact hr

/-- Consequence within a transaction. -/
theorem meets_mono {α : Type} {p : BudgetProg α} {P P' : α → BudgetState → Prop}
    (hp : Meets ledger limit pid p (Within pid l P) s) (h : ∀ a s', P a s' → P' a s') :
    Meets ledger limit pid p (Within pid l P') s := by
  refine hp.mono (fun r s' hr => ?_)
  cases r with
  | ok a => exact h a s' hr
  | error e => exact hr

/-- What a transaction has done when it has ended: nothing, or one commit that
adds `added` to the reserved totals. -/
theorem commitsOf_publish (hin : InTx pid ws l s) :
    commitsOf pid (budgetEngine.publish s pid)
      = l ++ [⟨pid, s.committed, budgetEngine.applyAll ws s.committed⟩] := by
  have hc := hin.commits
  unfold commitsOf at hc ⊢
  simp only [Engine.publish, Engine.close, Engine.install, Engine.view, hin.pending,
    List.filter_append, hc]
  simp

/-- **Transaction rule.** The body leaves sound writes `ws`, and what then holds
after the commit is what follows. -/
theorem meets_transaction {α : Type} {body : BudgetProg α}
    {P : α → List BudgetWrite → (PeriodKey → ℤ) → BudgetState → Prop}
    {Q : Except PyException α → BudgetState → Prop} (hc : commitsOf pid s = l)
    (hbody : ∀ s₁, Books ledger limit s₁ → Keeps limit pid s s₁ → InTx pid [] l s₁ →
      Meets ledger limit pid body (Within pid l (fun a s' => ∃ ws added,
        InTx pid ws l s' ∧ Sound ledger limit pid ws added s' ∧ P a ws added s')) s₁)
    (hstable : ∀ a ws added s₁ s₂, P a ws added s₁ → Keeps limit pid s₁ s₂ → P a ws added s₂)
    (herror : ∀ e s', commitsOf pid s' = l → Q (.error e) s')
    (hcommit : ∀ a ws added s₁ s₂, Books ledger limit s₁ → Sound ledger limit pid ws added s₁ →
      P a ws added s₁ → s₂.committed = budgetEngine.applyAll ws s₁.committed →
      commitsOf pid s₂ = l ++ [⟨pid, s₁.committed, budgetEngine.applyAll ws s₁.committed⟩] →
      Q (.ok a) s₂ ∧ Q (.error .sqlAlchemy) s₂) :
    Meets ledger limit pid (Engine.transaction body) Q s := by
  refine Engine.safe_transaction ?_ ?_
  · rintro s₁ ⟨hb, hr⟩ -
    exact ⟨⟨hb, fun q _ => .refl limit q s₁⟩, herror _ s₁ (hr.untouched.log.trans hc)⟩
  · rintro s₁ ⟨hb, hr⟩
    have hopen := hb.guarantees_opened pid
    have hin : InTx pid [] l (Engine.opened s₁ pid) :=
      ⟨by simp [Engine.opened], hr.untouched.log.trans hc⟩
    have hkeep : Keeps limit pid s (Engine.opened s₁ pid) :=
      hr.keeps.of_committed rfl (fun _ hk => hk)
    refine ⟨hopen, (hbody _ hopen.1 hkeep hin).mono (fun r s₂ hpost => ?_)⟩
    cases r with
    | error e =>
      rintro s₃ ⟨hb₃, hr₃⟩
      exact ⟨hb₃.guarantees_close pid, herror e _ (hr₃.untouched.log.trans hpost)⟩
    | ok a =>
      obtain ⟨ws, added, hin₂, hsound, hP⟩ := hpost
      rintro s₃ ⟨hb₃, hr₃⟩
      have hin₃ : InTx pid ws l s₃ :=
        ⟨hr₃.untouched.pending.trans hin₂.pending, hr₃.untouched.log.trans hin₂.commits⟩
      have hsound₃ := hsound.keep hb₃ hr₃.keeps
      have hview : (budgetEngine.publish s₃ pid).committed
          = budgetEngine.applyAll ws s₃.committed := by
        simp only [Engine.publish, Engine.close, Engine.install, Engine.view, hin₃.pending]
      obtain ⟨hQ, hlost⟩ := hcommit a ws added s₃ _ hb₃ hsound₃
        (hstable a ws added s₂ s₃ hP hr₃.keeps) hview (commitsOf_publish hin₃)
      exact ⟨⟨hsound₃.guarantees_publish hb₃ hin₃.pending, hQ, fun _ => hlost⟩,
        fun _ => ⟨hb₃.guarantees_close pid, herror _ _ hin₃.commits⟩⟩

end Rules


/-! ## Statements -/

section Statements

variable {ledger limit : Prop} {pid : ℕ} {ws us : List BudgetWrite}
  {l : List (TxCommit BudgetDb)} {s : BudgetState} {added : PeriodKey → ℤ}
  {key : PeriodKey} {row row' : PeriodState}

/-- `_ensure_state_row` leaves a row. -/
theorem meets_ensureStateRow (hin : InTx pid ws l s)
    (hs : Sound ledger limit pid ws added s) :
    Meets ledger limit pid (BudgetOp.ensureStateRow key).ask (Within pid l (fun _ s' =>
      ∃ us, InTx pid (ws ++ us) l s' ∧ Sound ledger limit pid (ws ++ us) added s'
        ∧ entriesOf us = [] ∧ ((budgetEngine.applyAll (ws ++ us) s'.committed).states key).isSome
        ∧ Keeps limit pid s s')) s := by
  refine meets_ask hin (fun _ _ _ => trivial) (fun s' a x r h hr => ?_)
  have hs' := hs.keep h.books h.keeps
  have hin' := h.inTx
  have hlocks := h.locks
  simp only [BudgetOp.exec, BudgetOp.locks] at hr hin' hlocks
  split at hr
  · rename_i hsome
    rw [if_pos hsome] at hin'
    exact ⟨[], hin', by rw [List.append_nil]; exact hs', rfl,
      by rw [List.append_nil]; exact hsome, h.keeps⟩
  · rename_i hnone
    rw [if_neg hnone] at hin' hlocks
    split at hr
    · rename_i hfk
      rw [if_pos hfk] at hin'
      refine ⟨_, hin', hs'.insertRow (hlocks _ List.mem_cons_self) (by simpa using hnone), rfl,
        ?_, h.keeps⟩
      simp [BudgetWrite.apply]
    · cases hr

/-- `SELECT … FOR UPDATE` locks the row it returns. -/
theorem meets_selectState (hin : InTx pid ws l s) :
    Meets ledger limit pid (BudgetOp.selectState key).ask (Within pid l (fun r s' =>
      Books ledger limit s' ∧ Keeps limit pid s s' ∧ InTx pid ws l s'
        ∧ ∀ row, r = some row → s'.holder (.state key) = some pid
          ∧ (budgetEngine.applyAll ws s'.committed).states key = some row)) s := by
  refine meets_read hin (fun _ => trivial) (fun _ _ _ => rfl)
    (fun s' a x r hb hk hin' hlocks hr => ⟨hb, hk, hin', ?_⟩)
  rintro row rfl
  have hrow : (budgetEngine.applyAll ws s'.committed).states key = some row := by
    exact Except.ok.inj hr
  refine ⟨hlocks _ ?_, hrow⟩
  simp [BudgetOp.locks, hrow]

/-- The row of the period is `row`, and the transaction – which holds it – has
changed it to `row'` on top of the sound writes `ws`. -/
structure Changed (ledger limit : Prop) (pid : ℕ) (ws : List BudgetWrite)
    (added : PeriodKey → ℤ) (key : PeriodKey) (row : PeriodState) (s : BudgetState) :
    Prop where
  sound : Sound ledger limit pid ws added s
  held : s.holder (.state key) = some pid
  row : (budgetEngine.applyAll ws s.committed).states key = some row

theorem Changed.keep {s' : BudgetState} (h : Changed ledger limit pid ws added key row s)
    (hb : Books ledger limit s') (hk : Keeps limit pid s s') :
    Changed ledger limit pid ws added key row s' :=
  ⟨h.sound.keep hb hk, hk.held _ h.held, by rw [(hk.slice ws h.held).2.1]; exact h.row⟩

/-- What a conditional update of totals can do. -/
theorem updateState_cases {db : BudgetDb} {guard : PeriodState → Bool}
    {change : PeriodState → Option PeriodState} {r : Option ℕ}
    (h : (updateState db key guard change).1 = .ok r) :
    (r = none ∧ (updateState db key guard change).2 = []
        ∧ ∀ row, db.states key = some row → guard row = false)
      ∨ ∃ row row', db.states key = some row ∧ guard row = true ∧ change row = some row'
        ∧ r = some row'.version ∧ (updateState db key guard change).2 = [.setState key row'] := by
  unfold updateState at h ⊢
  split
  · rename_i hnone
    rw [hnone] at h
    cases h
    exact .inl ⟨rfl, rfl, fun _ hrow => by rw [hnone] at hrow; cases hrow⟩
  · rename_i row hrow
    rw [hrow] at h
    simp only [] at h
    split
    · rename_i hguard
      rw [if_pos hguard] at h
      split
      · rename_i hchange
        rw [hchange] at h
        cases h
      · rename_i row' hchange
        rw [hchange] at h
        cases h
        exact .inr ⟨row, row', hrow, hguard, hchange, rfl, rfl⟩
    · rename_i hguard
      rw [if_neg hguard] at h
      cases h
      refine .inl ⟨rfl, rfl, fun row' hrow' => ?_⟩
      obtain rfl : row = row' := Option.some.inj (hrow.symm.trans hrow')
      simpa using hguard

/-- A conditional update that finds its row: it has been refused, or the row has
been changed. -/
def UpdatedOr (ledger limit : Prop) (pid : ℕ) (ws : List BudgetWrite)
    (l : List (TxCommit BudgetDb)) (added : PeriodKey → ℤ) (key : PeriodKey)
    (guard : PeriodState → Bool) (change : PeriodState → Option PeriodState)
    (s : BudgetState) (r : Option ℕ) (s' : BudgetState) : Prop :=
  Books ledger limit s' ∧ Keeps limit pid s s'
    ∧ ((r = none ∧ InTx pid ws l s') ∨ ∃ row row', r = some row'.version
      ∧ Changed ledger limit pid ws added key row s' ∧ guard row = true
      ∧ change row = some row' ∧ InTx pid (ws ++ [BudgetWrite.setState key row']) l s')

/-- What an answered update of totals has done. -/
theorem Served.updated {op : BudgetOp} {a : Moment} {x : Uuid} {s' : BudgetState}
    {guard : PeriodState → Bool} {change : PeriodState → Option PeriodState} {r : Option ℕ}
    (h : Served ledger limit pid op ws l a x s s') (hs : Sound ledger limit pid ws added s)
    (hexec : (op.exec a (budgetEngine.applyAll ws s'.committed) x).2
      = (updateState (budgetEngine.applyAll ws s'.committed) key guard change).2)
    (hlocks : op.locks (budgetEngine.applyAll ws s'.committed) x
      = if ((budgetEngine.applyAll ws s'.committed).states key).isSome then [.state key] else [])
    (hr : (updateState (budgetEngine.applyAll ws s'.committed) key guard change).1 = .ok r) :
    UpdatedOr ledger limit pid ws l added key guard change s r s' := by
  have hin' := h.inTx
  have hheld := h.locks
  rw [hexec] at hin'
  rw [hlocks] at hheld
  refine ⟨h.books, h.keeps, ?_⟩
  rcases updateState_cases hr with ⟨rfl, hws, -⟩ | ⟨row, row', hrow, hguard, hchange, rfl, hws⟩
  · rw [hws, List.append_nil] at hin'
    exact .inl ⟨rfl, hin'⟩
  · rw [hws] at hin'
    refine .inr ⟨row, row', rfl, ⟨hs.keep h.books h.keeps, hheld _ ?_, hrow⟩, hguard,
      hchange, hin'⟩
    simp [hrow]

theorem meets_reserveState {amount lim : ℤ} (hin : InTx pid ws l s)
    (hs : Sound ledger limit pid ws added s) :
    Meets ledger limit pid (BudgetOp.reserveState key amount lim).ask
      (Within pid l (UpdatedOr ledger limit pid ws l added key
        (fun row => row.reservedMicros + row.consumedMicros + amount ≤ lim)
        (fun row => row.change? amount 0 0 0) s)) s :=
  meets_ask hin (fun _ _ _ => trivial) (fun _ _ _ _ h hr => h.updated hs rfl rfl hr)

theorem meets_drawContingency {amount lim : ℤ} (hin : InTx pid ws l s)
    (hs : Sound ledger limit pid ws added s) :
    Meets ledger limit pid (BudgetOp.drawContingency key amount lim).ask
      (Within pid l (UpdatedOr ledger limit pid ws l added key
        (fun row => row.contingencyReservedMicros + amount ≤ lim)
        (fun row => row.change? 0 0 0 amount) s)) s :=
  meets_ask hin (fun _ _ _ => trivial) (fun _ _ _ _ h hr => h.updated hs rfl rfl hr)

/-- An unconditional update of a row that is there. On top of the sound writes
`ws` the transaction may have made others, `us`, that are not about totals. -/
theorem meets_changeState (us : List BudgetWrite) {reserved consumed allowance : ℤ}
    (hin : InTx pid (ws ++ us) l s)
    (hs : Sound ledger limit pid ws added s)
    (hus : ∀ db, (budgetEngine.applyAll us db).states = db.states)
    (hrow : ((budgetEngine.applyAll ws s.committed).states key).isSome) :
    Meets ledger limit pid (BudgetOp.changeState key reserved consumed allowance).ask
      (Within pid l (fun _ s' => Books ledger limit s' ∧ Keeps limit pid s s'
        ∧ ∃ row row', Changed ledger limit pid ws added key row s'
          ∧ row.change? reserved consumed allowance 0 = some row'
          ∧ InTx pid (ws ++ us ++ [BudgetWrite.setState key row']) l s')) s := by
  refine meets_ask hin (fun _ _ _ => trivial) (fun s' a x r h hr => ?_)
  have hin' := h.inTx
  have hheld := h.locks
  have hstates : (budgetEngine.applyAll (ws ++ us) s'.committed).states
      = (budgetEngine.applyAll ws s'.committed).states := by
    rw [Engine.applyAll_append, hus]
  simp only [BudgetOp.exec, BudgetOp.locks] at hr hin' hheld
  obtain ⟨r', hr'⟩ : ∃ r', (updateState (budgetEngine.applyAll (ws ++ us) s'.committed) key
      (fun _ => true) (fun row => row.change? reserved consumed allowance 0)).1 = .ok r' := by
    cases hout : (updateState (budgetEngine.applyAll (ws ++ us) s'.committed) key
      (fun _ => true) (fun row => row.change? reserved consumed allowance 0)).1 with
    | ok r' => exact ⟨r', rfl⟩
    | error e => rw [hout] at hr; cases hr
  refine ⟨h.books, h.keeps, ?_⟩
  rcases updateState_cases hr' with ⟨-, -, hnone⟩ | ⟨row, row', hrow', -, hchange, rfl, hws⟩
  · obtain ⟨row, hrow'⟩ := Option.isSome_iff_exists.mp (hs.isSome_keep h.keeps hrow)
    cases hnone row (by rw [hstates]; exact hrow')
  · rw [hws] at hin'
    rw [hstates] at hrow' hheld
    refine ⟨row, row', ⟨hs.keep h.books h.keeps, hheld _ ?_, hrow'⟩, hchange, hin'⟩
    simp [hrow']

/-- **A new entry of its own reservation**, entered with a change of the totals
from `row` to `row'` – or with none, for an entry no total depends on. -/
theorem meets_appendFresh (us : List BudgetWrite) (row' : PeriodState) {draft : LedgerDraft}
    (hin : InTx pid (ws ++ us) l s) (hc : Changed ledger limit pid ws added key row s)
    (hus : us = [] ∧ row' = row ∨ us = [.setState key row']) (hperiod : draft.period = key)
    (hcloses : draft.entryType.closes = false)
    (hbalanced : ledger → ∀ entries x, Balance (some row) entries →
      (∀ e ∈ entries, e.reserveId < x) → Balance (some row') (entries ++ [⟨draft, x⟩]))
    (hfits : limit → RowFits s.committed.budgets key row') :
    Meets ledger limit pid (BudgetOp.appendLedger none draft).ask (Within pid l (fun r s' =>
      r.2 = true ∧ 0 ≤ draft.amountMicros ∧ Books ledger limit s' ∧ Keeps limit pid s s'
        ∧ (∀ e ∈ (budgetEngine.applyAll ws s'.committed).ledger, e.reserveId < r.1)
        ∧ InTx pid (ws ++ (us ++ [BudgetWrite.insertEntry ⟨draft, r.1⟩])) l s'
        ∧ Sound ledger limit pid (ws ++ (us ++ [BudgetWrite.insertEntry ⟨draft, r.1⟩]))
          (fun k => added k + if k = key then row'.reservedMicros - row.reservedMicros else 0)
          s')) s := by
  refine meets_ask hin (fun _ _ _ => hcloses) (fun s' a x r h hr => ?_)
  have hc' := hc.keep h.books h.keeps
  have hentries : entriesOf us = [] := by
    rcases hus with ⟨rfl, -⟩ | rfl <;> rfl
  have hledger : (budgetEngine.applyAll (ws ++ us) s'.committed).ledger
      = (budgetEngine.applyAll ws s'.committed).ledger := by
    simp [hentries]
  have hfresh := h.fresh
  rw [hledger] at hfresh
  -- no entry has the identifier just drawn, so the insertion meets no conflict
  have hnone : (budgetEngine.applyAll (ws ++ us) s'.committed).findEntry draft.period x
      draft.entryType = none := by
    refine findEntry_eq_none.mpr (fun e he hid => ?_)
    exact absurd hid (Nat.ne_of_lt (hfresh e (hledger ▸ (mem_ledgerAt.mp he).1)))
  have hin' := h.inTx
  have hlocks := h.locks
  simp only [BudgetOp.exec, BudgetOp.locks, Option.getD_none, hnone, Option.isSome_none,
    Bool.false_eq_true, if_false] at hr hin' hlocks
  split at hr
  · cases hr
  · rename_i hvalid
    rw [if_neg hvalid, List.append_assoc] at hin'
    obtain rfl : (x, true) = r := Except.ok.inj hr
    have hamount : 0 ≤ draft.amountMicros := by
      simp only [Bool.not_eq_true, Bool.not_eq_false] at hvalid
      exact (of_decide_eq_true hvalid).1
    refine ⟨rfl, hamount, h.books, h.keeps, hfresh, hin', ?_⟩
    refine hc'.sound.book hc'.held ?_ ?_ hc'.row ?_ (fun hl => ?_)
      (fun hl => (hfits hl).same h.keeps.budgets hl)
    · intro w hw
      rcases List.mem_append.mp hw with hw | hw
      · rcases hus with ⟨rfl, -⟩ | rfl
        · cases hw
        · obtain rfl := List.mem_singleton.mp hw
          exact hc'.held
      · obtain rfl := List.mem_singleton.mp hw
        exact hlocks _ List.mem_cons_self
    · intro w hw
      rcases List.mem_append.mp hw with hw | hw
      · rcases hus with ⟨rfl, -⟩ | rfl
        · cases hw
        · obtain rfl := List.mem_singleton.mp hw
          rfl
      · obtain rfl := List.mem_singleton.mp hw
        exact hperiod
    · rcases hus with ⟨rfl, rfl⟩ | rfl
      · simpa [BudgetWrite.apply] using hc'.row
      · simp [BudgetWrite.apply]
    · have hbal := hbalanced hl _ x (hc'.row ▸ hc'.sound.balanced hl key)
        (fun e he => hfresh e (mem_ledgerAt.mp he).1)
      rw [entriesOf_append, hentries]
      simpa [entriesOf, hperiod] using hbal

/-! ### Closing a reservation -/

/-- The ledger has the reservation, with its amount. -/
def Entered (tenantId : Uuid) (entries : List LedgerEntry) (x : BudgetReservation) : Prop :=
  ∃ e ∈ entries, e.period = x.key tenantId ∧ e.entryType = .RESERVE
    ∧ e.reserveId = x.ledgerEntryId ∧ e.amountMicros = x.amountMicros
    ∧ e.contingency = x.contingency

/-- The reservation has been entered and not been closed. -/
structure OpenIn (tenantId : Uuid) (db : BudgetDb) (x : BudgetReservation) : Prop where
  entered : Entered tenantId db.ledger x
  unsettled : Absent (db.ledgerAt (x.key tenantId)) x.ledgerEntryId .SETTLE
  unreleased : Absent (db.ledgerAt (x.key tenantId)) x.ledgerEntryId .RELEASE

/-- **Closing an open reservation keeps the books**, in whichever order its
entry and the change of the totals are written. -/
theorem Changed.close {tenantId : Uuid} {x : BudgetReservation} {e : LedgerEntry}
    {consumed : ℤ} {ws' : List BudgetWrite}
    (h : Changed ledger limit pid ws added (x.key tenantId) row s)
    (hopen : ledger → OpenIn tenantId (budgetEngine.applyAll ws s.committed) x)
    (hordinary : ledger → x.contingency = false)
    (hchange : row.change? (-x.amountMicros) consumed 0 0 = some row')
    (hperiod : e.period = x.key tenantId) (hid : e.reserveId = x.ledgerEntryId)
    (hcloses : e.entryType.closes = true)
    (hconsumed : consumed = if e.entryType = .SETTLE then e.amountMicros else 0)
    (hle : limit → consumed ≤ x.amountMicros) (hheld : s.holder e.row = some pid)
    (hws' : ws' = [.insertEntry e, .setState (x.key tenantId) row']
      ∨ ws' = [.setState (x.key tenantId) row', .insertEntry e]) :
    Sound ledger limit pid (ws ++ ws') (fun k => added k + if k = x.key tenantId
      then row'.reservedMicros - row.reservedMicros else 0) s := by
  have hmem : ∀ w ∈ ws', w = .insertEntry e ∨ w = .setState (x.key tenantId) row' := by
    rcases hws' with rfl | rfl <;> simp [or_comm]
  refine h.sound.book h.held ?_ ?_ h.row ?_ (fun hl => ?_) (fun hl b hb ht hi => ?_)
  · intro w hw
    rcases hmem w hw with rfl | rfl
    · exact hheld
    · exact h.held
  · intro w hw
    rcases hmem w hw with rfl | rfl
    · exact hperiod
    · rfl
  · rcases hws' with rfl | rfl <;> simp [BudgetWrite.apply]
  · obtain ⟨⟨e₀, hmem₀, hp₀, ht₀, hid₀, ham₀, hc₀⟩, hunsettled, hunreleased⟩ := hopen hl
    have hentries : entriesOf ws' = [e] := by rcases hws' with rfl | rfl <;> rfl
    have hbal := h.sound.balanced hl (x.key tenantId)
    rw [h.row] at hbal
    have hclose := hbal.close hcloses (mem_ledgerAt.mpr ⟨hmem₀, hp₀⟩) ht₀
      (hid₀.trans hid.symm) (hc₀.trans (hordinary hl)) (hid ▸ hunsettled)
      (hid ▸ hunreleased) (by rw [ham₀, ← hconsumed]; exact hchange)
    rw [hentries]
    simpa [hperiod] using hclose
  · obtain ⟨hr, hco, hal, -⟩ := PeriodState.change?_ok hchange
    have hfit := h.sound.rowFits h.row hl b hb ht hi
    have hle' := hle hl
    omega

/-- A place nobody else can take while the call holds it, as the call sees it. -/
theorem findEntry_of_keeps {s' : BudgetState} {id : Uuid} {type : LedgerEntryType}
    (hk : Keeps limit pid s s') (hheld : s.holder (.entry key id type) = some pid)
    (hnone : (budgetEngine.applyAll ws s.committed).findEntry key id type = none) :
    (budgetEngine.applyAll ws s'.committed).findEntry key id type = none := by
  have hlook := budgetEngine_lawful.look_applyAll_congr (k := .entry key id type) ws
    (hk.row _ hheld)
  exact hlook.trans hnone

/-- While a call has taken the place of one way of closing a reservation, the
other has not been entered. -/
theorem Sound.findEntry_opposite (hs : Sound ledger limit pid ws added s)
    (hb : Books ledger limit s) (hl : ledger) {id : Uuid} {type : LedgerEntryType}
    (hcloses : type.closes = true) (hheld : s.holder (.entry key id type) = some pid) :
    (budgetEngine.applyAll ws s.committed).findEntry key id type.opposite = none := by
  have hclaimed : Claimed s key id type := .inr (by rw [hheld]; exact Option.some_ne_none pid)
  have hno : ¬ Claimed s key id type.opposite := by
    cases type with
    | SETTLE => exact hb.exclusive hl key id hclaimed
    | RELEASE => exact fun hs' => hb.exclusive hl key id hs' hclaimed
    | RESERVE => cases hcloses
    | REJECT => cases hcloses
    | ADJUST => cases hcloses
  obtain ⟨hnone, hfree⟩ := not_or.mp hno
  have hother : ∀ w ∈ ws, budgetEngine.key w ≠ .entry key id type.opposite := by
    intro w hw hwk
    refine hfree ?_
    rw [← hwk, budgetEngine_key, hs.held w hw]
    exact Option.some_ne_none pid
  have hlook := budgetEngine_lawful.look_applyAll hother s.committed
  exact hlook.trans (not_not.mp hnone)

/-- The program of a settlement or a release of one entry. -/
def closeEntry (command : BudgetCommand) (type : LedgerEntryType) (charged consumed : ℤ)
    (reason : String) (entry : BudgetReservation) : BudgetProg Unit := do
  let (_, inserted) ← appendLedger command (entry.key command.tenantId) type charged
    (some entry.ledgerEntryId) entry.contingency reason
  if inserted then
    BudgetOp.ask (.changeState (entry.key command.tenantId) (-entry.amountMicros) consumed 0)
  else return ()

theorem settleEntry_eq (command : BudgetCommand) (actual : Option ℤ) (x : BudgetReservation) :
    settleEntry command actual x = closeEntry command .SETTLE (actual.getD x.amountMicros)
      (actual.getD x.amountMicros) "" x := rfl

theorem releaseEntry_eq (command : BudgetCommand) (reason : String) (x : BudgetReservation) :
    releaseEntry command reason x = closeEntry command .RELEASE x.amountMicros 0 reason x := rfl

/-- An entry for a reservation drawn before: it is there already, or it has been
entered, in a place the call now holds. -/
theorem meets_appendLedger {draft : LedgerDraft} {id : Uuid} (hin : InTx pid ws l s)
    (hid : ∀ s₁, Books ledger limit s₁ → Respects limit pid s s₁ → id < s₁.ext)
    (hcloses : draft.entryType.closes = true) :
    Meets ledger limit pid (BudgetOp.appendLedger (some id) draft).ask (Within pid l (fun r s' =>
      Books ledger limit s' ∧ Keeps limit pid s s' ∧ 0 ≤ draft.amountMicros
        ∧ ((r.2 = false ∧ InTx pid ws l s' ∧ (budgetEngine.applyAll ws s'.committed).findEntry
              draft.period id draft.entryType ≠ none)
          ∨ (r.2 = true ∧ InTx pid (ws ++ [BudgetWrite.insertEntry ⟨draft, id⟩]) l s'
            ∧ s'.holder (.entry draft.period id draft.entryType) = some pid
            ∧ (budgetEngine.applyAll ws s'.committed).findEntry draft.period id draft.entryType
              = none
            ∧ (ledger → draft.contingency = false))))) s := by
  refine meets_ask hin hid (fun s' a x r h hr => ?_)
  have hin' := h.inTx
  have hlocks := h.locks
  simp only [BudgetOp.exec, BudgetOp.locks, Option.getD_some] at hr hin' hlocks
  split at hr
  · cases hr
  · rename_i hvalid
    rw [if_neg hvalid] at hin'
    have hamount : 0 ≤ draft.amountMicros := by
      simp only [Bool.not_eq_true, Bool.not_eq_false] at hvalid
      exact (of_decide_eq_true hvalid).1
    refine ⟨h.books, h.keeps, hamount, ?_⟩
    split at hr
    · rename_i hsome
      rw [if_pos hsome, List.append_nil] at hin'
      obtain rfl : (id, false) = r := Except.ok.inj hr
      exact .inl ⟨rfl, hin', Option.ne_none_iff_isSome.mpr hsome⟩
    · rename_i hnone
      rw [if_neg hnone] at hin' hlocks
      obtain rfl : (id, true) = r := Except.ok.inj hr
      have hnone' := Option.not_isSome_iff_eq_none.mp hnone
      exact .inr ⟨rfl, hin', hlocks _ List.mem_cons_self, hnone',
        fun hl => h.ordinary id draft rfl hl hcloses hnone'⟩

/-- What has been entered has been drawn. -/
theorem Entered.drawn {tenantId : Uuid} {x : BudgetReservation}
    (h : Entered tenantId s.committed.ledger x) (s₁ : BudgetState)
    (hb : Books ledger limit s₁) (hr : Respects limit pid s s₁) : x.ledgerEntryId < s₁.ext := by
  obtain ⟨e, he, -, -, hid, -⟩ := h
  rw [← hid]
  exact hb.drawn e (hr.ledger e he)

theorem Entered.mono {tenantId : Uuid} {x : BudgetReservation} {es es' : List LedgerEntry}
    (h : Entered tenantId es x) (hsub : ∀ e ∈ es, e ∈ es') : Entered tenantId es' x := by
  obtain ⟨e, he, hx⟩ := h
  exact ⟨e, hsub e he, hx⟩

/-- **A reservation that was entered is closed, or has been before.** -/
theorem meets_closeEntry {command : BudgetCommand} {type : LedgerEntryType}
    {charged consumed : ℤ} {reason : String} {x : BudgetReservation}
    (hin : InTx pid ws l s) (hs : Sound ledger limit pid ws added s)
    (hknown : Entered command.tenantId s.committed.ledger x)
    (hcloses : type.closes = true)
    (hconsumed : consumed = if type = .SETTLE then charged else 0)
    (hle : limit → 0 ≤ charged → consumed ≤ x.amountMicros) :
    Meets ledger limit pid (closeEntry command type charged consumed reason x)
      (Within pid l (fun _ s' => ∃ ws' added', InTx pid ws' l s'
        ∧ Sound ledger limit pid ws' added' s' ∧ Keeps limit pid s s')) s := by
  refine meets_bind (meets_appendLedger hin hknown.drawn hcloses) ?_
  rintro ⟨id, inserted⟩ s₁ ⟨hb₁, hk₁, hamount, hcases⟩
  have hs₁ := hs.keep hb₁ hk₁
  rcases hcases with ⟨rfl, hin₁, -⟩ | ⟨rfl, hin₁, hheld, hnone, hordinary⟩
  · exact ⟨ws, added, hin₁, hs₁, hk₁⟩
  -- the entry is in: now the totals, on the row the reservation was made on
  have hknown₁ : Entered command.tenantId (budgetEngine.applyAll ws s₁.committed).ledger x := by
    refine (hknown.mono hk₁.ledger).mono (fun e he => ?_)
    rw [applyAll_ledger]
    exact List.mem_append_left _ he
  have hrow : ((budgetEngine.applyAll ws s₁.committed).states
      (x.key command.tenantId)).isSome := by
    obtain ⟨e₀, hmem, hp, -⟩ := hknown₁
    rw [← hp]
    exact hs₁.present e₀ hmem
  refine meets_mono (meets_changeState _ hin₁ hs₁ (fun _ => rfl) hrow) ?_
  rintro - s₂ ⟨hb₂, hk₂, row, row', hchanged, hchange, hin₂⟩
  rw [List.append_assoc] at hin₂
  have hheld₂ : s₂.holder (.entry (x.key command.tenantId) x.ledgerEntryId type) = some pid :=
    hk₂.held _ hheld
  have hopen : ledger → OpenIn command.tenantId (budgetEngine.applyAll ws s₂.committed) x := by
    intro hl
    have hsame := findEntry_eq_none.mp (findEntry_of_keeps hk₂ hheld hnone)
    have hopposite := findEntry_eq_none.mp
      (Sound.findEntry_opposite hchanged.sound hb₂ hl hcloses hheld₂)
    refine ⟨hknown₁.mono (fun e he => ?_), ?_, ?_⟩
    · rw [applyAll_ledger] at he ⊢
      rcases List.mem_append.mp he with he | he
      · exact List.mem_append_left _ (hk₂.ledger e he)
      · exact List.mem_append_right _ he
    all_goals cases type <;> first | exact hsame | exact hopposite | cases hcloses
  refine ⟨_, _, hin₂, hchanged.close hopen hordinary hchange ?_ ?_ ?_ ?_
    (fun hl => hle hl hamount) ?_ (.inl rfl), hk₁.trans hk₂⟩
  · rfl
  · rfl
  · exact hcloses
  · exact hconsumed
  · exact hheld₂

/-- An open reservation stays open while the call holds its period. -/
theorem OpenIn.keep {tenantId : Uuid} {x : BudgetReservation} {s' : BudgetState}
    (h : OpenIn tenantId (budgetEngine.applyAll ws s.committed) x) (hk : Keeps limit pid s s')
    (hheld : s.holder (.state (x.key tenantId)) = some pid) :
    OpenIn tenantId (budgetEngine.applyAll ws s'.committed) x := by
  have hled := (hk.slice ws hheld).2.2
  refine ⟨h.entered.mono (fun e he => ?_), by rw [hled]; exact h.unsettled,
    by rw [hled]; exact h.unreleased⟩
  rw [applyAll_ledger] at he ⊢
  rcases List.mem_append.mp he with he | he
  · exact List.mem_append_left _ (hk.ledger e he)
  · exact List.mem_append_right _ he

/-- What the call has entered itself has been drawn. -/
theorem Entered.drawn_within {tenantId : Uuid} {x : BudgetReservation}
    (h : Entered tenantId (budgetEngine.applyAll ws s.committed).ledger x)
    (hin : InTx pid (ws ++ us) l s) (s₁ : BudgetState)
    (hb : Books ledger limit s₁) (hr : Respects limit pid s s₁) : x.ledgerEntryId < s₁.ext := by
  obtain ⟨e, he, -, -, hid, -⟩ := h
  rw [← hid]
  rw [applyAll_ledger] at he
  rcases List.mem_append.mp he with he | he
  · exact hb.drawn e (hr.ledger e he)
  · refine hb.drawn_pending pid _ (hr.untouched.pending.trans hin.pending) e ?_
    rw [entriesOf_append]
    exact List.mem_append_left _ he

/-- **`_compensate_level`** takes back a reservation of the same transaction. -/
theorem meets_compensateLevel {command : BudgetCommand} {x : BudgetReservation}
    (hin : InTx pid ws l s) (hs : Sound ledger limit pid ws added s)
    (hheld : s.holder (.state (x.key command.tenantId)) = some pid)
    (hopen : OpenIn command.tenantId (budgetEngine.applyAll ws s.committed) x)
    (hordinary : x.contingency = false) :
    Meets ledger limit pid (compensateLevel command x) (Within pid l (fun _ s' =>
      Books ledger limit s' ∧ Keeps limit pid s s' ∧ ∃ us, InTx pid (ws ++ us) l s'
        ∧ Sound ledger limit pid (ws ++ us) (fun k => added k
          + if k = x.key command.tenantId then -x.amountMicros else 0) s'
        ∧ ∀ e ∈ entriesOf us, e.period = x.key command.tenantId)) s := by
  have hrow : ((budgetEngine.applyAll ws s.committed).states
      (x.key command.tenantId)).isSome := by
    obtain ⟨e₀, hmem, hp, -⟩ := hopen.entered
    rw [← hp]
    exact hs.present e₀ hmem
  refine meets_bind (meets_changeState [] (by rw [List.append_nil]; exact hin) hs
    (fun _ => rfl) hrow) ?_
  rintro - s₁ ⟨hb₁, hk₁, row, row', hchanged, hchange, hin₁⟩
  rw [List.append_nil] at hin₁
  have hopen₁ := hopen.keep hk₁ hheld
  refine meets_bind (meets_appendLedger hin₁ (hopen₁.entered.drawn_within hin₁) rfl) ?_
  rintro ⟨id, inserted⟩ s₂ ⟨hb₂, hk₂, hamount, hcases⟩
  have hchanged₂ := hchanged.keep hb₂ hk₂
  have hopen₂ := hopen₁.keep hk₂ hchanged.held
  rcases hcases with ⟨-, -, hsome⟩ | ⟨-, hin₂, hplace, -, -⟩
  · -- nobody else can have released what only this call knows
    refine absurd (findEntry_eq_none.mpr ?_) hsome
    have hsame : (budgetEngine.applyAll (ws ++ [BudgetWrite.setState (x.key command.tenantId) row'])
        s₂.committed).ledgerAt (x.key command.tenantId)
        = (budgetEngine.applyAll ws s₂.committed).ledgerAt (x.key command.tenantId) := by
      rw [applyAll_ledgerAt, applyAll_ledgerAt, entriesOf_append]
      simp [entriesOf]
    exact hsame ▸ hopen₂.unreleased
  · rw [List.append_assoc] at hin₂
    have hdiff : row'.reservedMicros - row.reservedMicros = -x.amountMicros := by
      rw [(PeriodState.change?_ok hchange).1]
      omega
    have hclosed := hchanged₂.close (fun _ => hopen₂) (fun _ => hordinary) hchange
      (e := ⟨ledgerDraft command (x.key command.tenantId) .RELEASE x.amountMicros x.contingency
        "rejected downstream" "system", x.ledgerEntryId⟩)
      rfl rfl rfl rfl (fun _ => hamount) hplace (.inr rfl)
    rw [hdiff] at hclosed
    refine ⟨hb₂, hk₁.trans hk₂, _, hin₂, hclosed, fun e he => ?_⟩
    obtain rfl := List.mem_singleton.mp he
    rfl

/-- What closes nothing in its period leaves a reservation open. -/
theorem OpenIn.append {tenantId : Uuid} {db : BudgetDb} {x : BudgetReservation}
    (h : OpenIn tenantId (budgetEngine.applyAll ws db) x) (us : List BudgetWrite)
    (hus : ∀ e ∈ entriesOf us, e.period = x.key tenantId → e.entryType.closes = false) :
    OpenIn tenantId (budgetEngine.applyAll (ws ++ us) db) x := by
  have habsent : ∀ type : LedgerEntryType, type.closes = true →
      Absent ((budgetEngine.applyAll ws db).ledgerAt (x.key tenantId)) x.ledgerEntryId type →
      Absent ((budgetEngine.applyAll (ws ++ us) db).ledgerAt (x.key tenantId))
        x.ledgerEntryId type := by
    intro type hcloses ha e he hid ht
    rw [Engine.applyAll_append, applyAll_ledgerAt] at he
    rcases List.mem_append.mp he with he | he
    · exact ha e he hid ht
    · obtain ⟨hmem, hperiod⟩ := List.mem_filter.mp he
      have hopen := hus e hmem (of_decide_eq_true hperiod)
      rw [ht, hcloses] at hopen
      cases hopen
  refine ⟨h.entered.mono (fun e he => ?_), habsent _ rfl h.unsettled, habsent _ rfl h.unreleased⟩
  rw [Engine.applyAll_append, applyAll_ledger]
  exact List.mem_append_left _ he

/-- A reservation just entered under a new identifier is open. -/
theorem OpenIn.fresh {tenantId : Uuid} {db : BudgetDb} {x : BudgetReservation} {e : LedgerEntry}
    (hfresh : ∀ e' ∈ (budgetEngine.applyAll ws db).ledger, e'.reserveId < e.reserveId)
    (hus : entriesOf us = [e]) (hperiod : e.period = x.key tenantId)
    (htype : e.entryType = .RESERVE) (hid : e.reserveId = x.ledgerEntryId)
    (hamount : e.amountMicros = x.amountMicros) (hcontingency : e.contingency = x.contingency) :
    OpenIn tenantId (budgetEngine.applyAll (ws ++ us) db) x := by
  have habsent : ∀ type : LedgerEntryType, type ≠ .RESERVE →
      Absent ((budgetEngine.applyAll (ws ++ us) db).ledgerAt (x.key tenantId))
        x.ledgerEntryId type := by
    intro type hne e' he' hid' ht'
    rw [Engine.applyAll_append, applyAll_ledgerAt, hus] at he'
    rcases List.mem_append.mp he' with he' | he'
    · refine absurd hid' (Nat.ne_of_lt ?_)
      rw [← hid]
      exact hfresh e' (mem_ledgerAt.mp he').1
    · obtain rfl := List.mem_singleton.mp (List.mem_filter.mp he').1
      exact hne (ht'.symm.trans htype)
  refine ⟨⟨e, ?_, hperiod, htype, hid, hamount, hcontingency⟩, habsent _ (by decide),
    habsent _ (by decide)⟩
  rw [applyAll_ledger, entriesOf_append, hus]
  simp

theorem meets_raiseAlert {command : BudgetCommand} {level : Level} {usedAfter : ℤ}
    {alert : Option AlertLevel} (hin : InTx pid ws l s)
    (hs : Sound ledger limit pid ws added s) (hb : Books ledger limit s) :
    Meets ledger limit pid (raiseAlert command level usedAfter alert) (Within pid l (fun _ s' =>
      ∃ us, InTx pid (ws ++ us) l s' ∧ Sound ledger limit pid (ws ++ us) added s'
        ∧ entriesOf us = [] ∧ Books ledger limit s' ∧ Keeps limit pid s s')) s := by
  unfold raiseAlert
  cases alert with
  | none => exact ⟨[], by simpa using hin, by simpa using hs, rfl, hb, .refl limit pid s⟩
  | some decision =>
    refine meets_bind (P := fun _ s' => ∃ us, InTx pid (ws ++ us) l s'
      ∧ Sound ledger limit pid (ws ++ us) added s' ∧ entriesOf us = [] ∧ Books ledger limit s'
      ∧ Keeps limit pid s s') (meets_ask hin (fun _ _ _ => trivial)
        (fun s' a x r h hr => ?_)) ?_
    · have hs' := hs.keep h.books h.keeps
      have hin' := h.inTx
      have hlocks := h.locks
      simp only [BudgetOp.exec, BudgetOp.locks] at hr hin' hlocks
      split at hr
      · cases hr
      · rename_i hcheck
        rw [if_neg hcheck] at hin'
        split at hr
        · rename_i hsome
          rw [if_pos hsome] at hin'
          exact ⟨[], hin', by simpa using hs', rfl, h.books, h.keeps⟩
        · rename_i hnone
          rw [if_neg hnone] at hin' hlocks
          exact ⟨_, hin', hs'.insertAlert (hlocks _ List.mem_cons_self), rfl, h.books, h.keeps⟩
    · rintro inserted s' hpost
      cases inserted <;> exact hpost

/-- The limit a level was found with is not above the limit of its budget. -/
def LevelFits (command : BudgetCommand) (budgets : List Budget) (level : Level) : Prop :=
  ∀ b ∈ budgets, b.tenantId = command.tenantId → b.id = level.budgetId →
    level.limitMicros ≤ b.limitMicros

theorem LevelFits.same {command : BudgetCommand} {budgets budgets' : List Budget} {level : Level}
    (h : LevelFits command budgets level) (hs : SameBudgets limit budgets budgets')
    (hl : limit) : LevelFits command budgets' level := by
  intro b' hb' ht hi
  obtain ⟨b, hb, hid, hle⟩ := hs.origin hb'
  have htb : b'.tenantId = b.tenantId := congrArg Prod.fst hid
  have hib : b'.id = b.id := congrArg (fun x => x.2.1) hid
  exact (h b hb (htb.symm.trans ht) (hib.symm.trans hi)).trans (hle hl)

/-- What `_reserve_level` leaves: the period held and seen, when it is rejected,
or one more reservation. -/
def LevelPost (ledger limit : Prop) (pid : ℕ) (command : BudgetCommand) (level : Level)
    (ws : List BudgetWrite) (l : List (TxCommit BudgetDb)) (added : PeriodKey → ℤ)
    (s : BudgetState) (r : Option (BudgetReservation × List String)) (s' : BudgetState) : Prop :=
  Books ledger limit s' ∧ Keeps limit pid s s' ∧ s'.holder (.state (level.key command.tenantId))
    = some pid
    ∧ ∃ us, InTx pid (ws ++ us) l s'
      ∧ match r with
        | none => Sound ledger limit pid (ws ++ us) added s' ∧ entriesOf us = []
            ∧ ((budgetEngine.applyAll (ws ++ us) s'.committed).states
              (level.key command.tenantId)).isSome
        | some (x, _) => Sound ledger limit pid (ws ++ us) (fun k => added k
              + if k = level.key command.tenantId then command.estimatedMicros else 0) s'
            ∧ (∀ e ∈ entriesOf us, e.entryType.closes = false)
            ∧ x.key command.tenantId = level.key command.tenantId
            ∧ x.amountMicros = command.estimatedMicros ∧ x.contingency = false
            ∧ OpenIn command.tenantId (budgetEngine.applyAll (ws ++ us) s'.committed) x

/-- **`_reserve_level`** keeps the books. -/
theorem meets_reserveLevel {command : BudgetCommand} {level : Level} (hin : InTx pid ws l s)
    (hs : Sound ledger limit pid ws added s)
    (hfits : limit → LevelFits command s.committed.budgets level) :
    Meets ledger limit pid (reserveLevel command level)
      (Within pid l (LevelPost ledger limit pid command level ws l added s)) s := by
  refine meets_bind (meets_ensureStateRow hin hs) ?_
  rintro - s₁ ⟨us, hin₁, hs₁, hus, hrow₁, hk₁⟩
  refine meets_bind (meets_selectState hin₁) ?_
  rintro state s₂ ⟨hb₂, hk₂, hin₂, hstate⟩
  have hs₂ := hs₁.keep hb₂ hk₂
  cases state with
  | none => exact hin₂.commits
  | some state =>
    obtain ⟨hheld₂, hrow₂⟩ := hstate state rfl
    have hrejected : ∀ s₃, Books ledger limit s₃ → Keeps limit pid s₂ s₃ →
        InTx pid (ws ++ us) l s₃ →
        LevelPost ledger limit pid command level ws l added s none s₃ := by
      intro s₃ hb₃ hk₃ hin₃
      refine ⟨hb₃, (hk₁.trans hk₂).trans hk₃, hk₃.held _ hheld₂, us, hin₃, hs₂.keep hb₃ hk₃,
        hus, ?_⟩
      exact hs₂.isSome_keep hk₃ (by rw [hrow₂]; rfl)
    dsimp only
    split
    · exact hrejected s₂ hb₂ (.refl limit pid s₂) hin₂
    · refine meets_bind (meets_reserveState hin₂ hs₂) ?_
      rintro updated s₃ ⟨hb₃, hk₃, ⟨rfl, hin₃⟩ | ⟨row, row', rfl, hchanged, hguard, hchange, hin₃⟩⟩
      · exact hrejected s₃ hb₃ hk₃ hin₃
      have hsame : row = state := by
        have hrow₃ := hchanged.row
        rw [(hk₃.slice _ hheld₂).2.1, hrow₂] at hrow₃
        exact (Option.some.inj hrow₃).symm
      subst hsame
      obtain ⟨hr, hco, hal, -⟩ := PeriodState.change?_ok hchange
      have hfits₃ : limit → RowFits s₃.committed.budgets (level.key command.tenantId) row' := by
        intro hl b hb ht hi
        have hle := (hfits hl).same (((hk₁.trans hk₂).trans hk₃).budgets) hl b hb ht hi
        have hguard' := of_decide_eq_true hguard
        omega
      refine meets_bind (meets_appendFresh _ _ hin₃ hchanged (.inr rfl) rfl rfl
        (fun _ entries x hbal hfresh => hbal.reserve rfl (fun e he hid =>
          absurd hid (Nat.ne_of_lt (hfresh e he))) hchange) hfits₃) ?_
      rintro ⟨id, inserted⟩ s₄ ⟨-, -, hb₄, hk₄, hfresh, hin₄, hs₄⟩
      refine meets_bind (meets_raiseAlert hin₄ hs₄ hb₄) ?_
      rintro alerts s₅ ⟨vs, hin₅, hs₅, hvs, hb₅, hk₅⟩
      have hk : Keeps limit pid s s₅ := (((hk₁.trans hk₂).trans hk₃).trans hk₄).trans hk₅
      have hheld₄ := hk₄.held _ hchanged.held
      have hdiff : row'.reservedMicros - row.reservedMicros = command.estimatedMicros := by
        omega
      have hopen : OpenIn command.tenantId (budgetEngine.applyAll (ws ++ us
          ++ ([.setState (level.key command.tenantId) row'] ++ [BudgetWrite.insertEntry
            ⟨ledgerDraft command
            (level.key command.tenantId) .RESERVE command.estimatedMicros false "" "system", id⟩]))
          s₄.committed)
          { budgetId := level.budgetId, scope := level.scope, periodKey := level.periodKey
            amountMicros := command.estimatedMicros, ledgerEntryId := id } :=
        .fresh hfresh rfl rfl rfl rfl rfl rfl
      have hopen₅ := (hopen.keep hk₅ hheld₄).append vs (by simp [hvs])
      rw [hdiff] at hs₅
      rw [List.append_assoc ws, List.append_assoc ws] at hin₅ hs₅ hopen₅
      refine ⟨hb₅, hk, hk₅.held _ hheld₄, _, hin₅, hs₅, ?_, rfl, rfl, rfl, hopen₅⟩
      intro e he
      rw [entriesOf_append, entriesOf_append, hus, hvs] at he
      obtain rfl := List.mem_singleton.mp he
      rfl

end Statements

/-! ## Levels -/

/-- The rows of totals a command is to be reserved on. -/
def levelKeys (budgets : List Budget) (moment : Moment) (command : BudgetCommand) :
    Except PyException (List PeriodKey) :=
  (applicableLevels moment command (budgets.filter (fun b => b.tenantId = command.tenantId))).map
    (fun levels => levels.map (·.key command.tenantId))

/-- Whether a budget applies, and in which period, does not depend on its
settings. -/
theorem applicableLevel?_same {moment : Moment} {command : BudgetCommand} {b b' : Budget}
    (h : b'.identity = b.identity) :
    (applicableLevel? moment command b').map (Option.map (Level.key · command.tenantId))
      = (applicableLevel? moment command b).map (Option.map (Level.key · command.tenantId)) := by
  obtain ⟨t, i, a, sc, lim, con, pol⟩ := b
  obtain ⟨t', i', a', sc', lim', con', pol'⟩ := b'
  obtain ⟨rfl, rfl, rfl, rfl⟩ : t' = t ∧ i' = i ∧ a' = a ∧ sc' = sc := by
    simpa [Budget.identity] using h
  unfold applicableLevel?
  split
  · rfl
  · split
    · rfl
    · split
      · rfl
      · cases periodKeyFor sc' moment command.executionId <;> rfl

/-- The keys of the levels, budget by budget. -/
theorem applicableLevels_keys (moment : Moment) (command : BudgetCommand) (row : Budget)
    (rows : List Budget) :
    (applicableLevels moment command (row :: rows)).map
        (fun levels => levels.map (·.key command.tenantId))
      = ((applicableLevel? moment command row).map
            (Option.map (Level.key · command.tenantId))).bind (fun key => match key with
          | none => (applicableLevels moment command rows).map
              (fun levels => levels.map (·.key command.tenantId))
          | some key => ((applicableLevels moment command rows).map
              (fun levels => levels.map (·.key command.tenantId))).map (key :: ·)) := by
  simp only [applicableLevels]
  rcases applicableLevel? moment command row with e | level
  · rfl
  · cases level with
    | none => rfl
    | some level => cases applicableLevels moment command rows <;> rfl

/-- **The levels of a command do not depend on the settings of budgets.** -/
theorem levelKeys_same {limit : Prop} {moment : Moment} {command : BudgetCommand}
    {budgets budgets' : List Budget} (h : SameBudgets limit budgets budgets') :
    levelKeys budgets' moment command = levelKeys budgets moment command := by
  unfold levelKeys
  induction h with
  | nil => rfl
  | @cons b b' bs bs' hb _ ih =>
    have ht : b'.tenantId = b.tenantId := congrArg Prod.fst hb.1
    by_cases htb : b.tenantId = command.tenantId
    · rw [List.filter_cons_of_pos (by simpa using ht.trans htb),
        List.filter_cons_of_pos (by simpa using htb), applicableLevels_keys,
        applicableLevels_keys, applicableLevel?_same hb.1, ih]
    · rw [List.filter_cons_of_neg (by simpa using fun h => htb (ht.symm.trans h)),
        List.filter_cons_of_neg (by simpa using htb)]
      exact ih

/-- A level comes from a budget, with its limit. -/
theorem applicableLevel?_ok {moment : Moment} {command : BudgetCommand} {b : Budget}
    {level : Level} (h : applicableLevel? moment command b = .ok (some level)) :
    level.budgetId = b.id ∧ level.limitMicros = b.limitMicros := by
  unfold applicableLevel? at h
  split at h
  · cases h
  · split at h
    · cases h
    · split at h
      · cases h
      · cases hk : periodKeyFor b.scope moment command.executionId with
        | error e => rw [hk] at h; cases h
        | ok k =>
          rw [hk] at h
          cases h
          exact ⟨rfl, rfl⟩

/-- The levels found are some of the budgets, in order. -/
theorem applicableLevels_ok {moment : Moment} {command : BudgetCommand} {rows : List Budget}
    {levels : List Level} (h : applicableLevels moment command rows = .ok levels) :
    (levels.map (fun lv => (lv.budgetId, lv.limitMicros))).Sublist
      (rows.map (fun b => (b.id, b.limitMicros))) := by
  induction rows generalizing levels with
  | nil =>
    cases h
    exact List.Sublist.refl _
  | cons row rows ih =>
    simp only [applicableLevels] at h
    cases hrow : applicableLevel? moment command row with
    | error e => rw [hrow] at h; cases h
    | ok r =>
      rw [hrow] at h
      cases r with
      | none => exact (ih h).cons _
      | some level =>
        cases hrows : applicableLevels moment command rows with
        | error e =>
          have h' : (applicableLevels moment command rows >>= fun levels =>
            (pure (level :: levels) : Except PyException (List Level))) = .ok levels := h
          rw [hrows] at h'
          cases h'
        | ok rest =>
          have h' : (applicableLevels moment command rows >>= fun levels =>
            (pure (level :: levels) : Except PyException (List Level))) = .ok levels := h
          rw [hrows] at h'
          cases h'
          obtain ⟨hid, hlim⟩ := applicableLevel?_ok hrow
          rw [List.map_cons, List.map_cons, hid, hlim]
          exact (ih hrows).cons_cons _

/-! ## The loops of a reservation -/

/-- An amount on some rows of totals. -/
def onKeys (amount : ℤ) (keys : List PeriodKey) (k : PeriodKey) : ℤ :=
  if k ∈ keys then amount else 0

theorem onKeys_nil (amount : ℤ) : onKeys amount [] = fun _ => 0 := by
  funext k
  simp [onKeys]

theorem onKeys_append (amount : ℤ) {keys : List PeriodKey} {key : PeriodKey} (h : key ∉ keys) :
    (fun k => onKeys amount keys k + if k = key then amount else 0)
      = onKeys amount (keys ++ [key]) := by
  funext k
  unfold onKeys
  by_cases hk : k = key
  · subst hk
    simp [h]
  · simp [hk]

theorem onKeys_cons (amount : ℤ) {keys : List PeriodKey} {key : PeriodKey} (h : key ∉ keys) :
    (fun k => onKeys amount (key :: keys) k + if k = key then -amount else 0)
      = onKeys amount keys := by
  funext k
  unfold onKeys
  by_cases hk : k = key
  · subst hk
    simp [h]
  · simp [hk]

section Loops

variable {ledger limit : Prop} {pid : ℕ} {ws us : List BudgetWrite}
  {l : List (TxCommit BudgetDb)} {s s' : BudgetState} {command : BudgetCommand}

/-- The reservations are open, in periods the call holds, with the amount of
the command. -/
def Secured (pid : ℕ) (command : BudgetCommand) (ws : List BudgetWrite)
    (xs : List BudgetReservation) (s : BudgetState) : Prop :=
  ∀ x ∈ xs, s.holder (.state (x.key command.tenantId)) = some pid
    ∧ OpenIn command.tenantId (budgetEngine.applyAll ws s.committed) x
    ∧ x.amountMicros = command.estimatedMicros ∧ x.contingency = false

theorem Secured.keep {xs : List BudgetReservation} (h : Secured pid command ws xs s)
    (hk : Keeps limit pid s s')
    (hus : ∀ x ∈ xs, ∀ e ∈ entriesOf us, e.period = x.key command.tenantId →
      e.entryType.closes = false) :
    Secured pid command (ws ++ us) xs s' := by
  intro x hx
  obtain ⟨hheld, hopen, hrest⟩ := h x hx
  exact ⟨hk.held _ hheld, (hopen.keep hk hheld).append us (hus x hx), hrest⟩

/-- What the loop over the levels leaves. -/
structure LevelsPost (ledger limit : Prop) (pid : ℕ) (command : BudgetCommand)
    (l : List (TxCommit BudgetDb)) (keys : List PeriodKey) (s : BudgetState)
    (xs : List BudgetReservation) (rejecting : Option Level) (ws : List BudgetWrite)
    (s' : BudgetState) : Prop where
  books : Books ledger limit s'
  keeps : Keeps limit pid s s'
  inTx : InTx pid ws l s'
  sound : Sound ledger limit pid ws
    (onKeys command.estimatedMicros (xs.map (·.key command.tenantId))) s'
  secured : Secured pid command ws xs s'
  nodup : (xs.map (·.key command.tenantId)).Nodup
  all : rejecting = none → xs.map (·.key command.tenantId) = keys
  rejected : ∀ level, rejecting = some level →
    s'.holder (.state (level.key command.tenantId)) = some pid
      ∧ ((budgetEngine.applyAll ws s'.committed).states (level.key command.tenantId)).isSome

/-- **The loop over the levels**: every level secured, or up to one that
rejects. -/
theorem meets_reserveLevels (levels : List Level) (secured : List BudgetReservation)
    (alerts : List String) (hb : Books ledger limit s) (hin : InTx pid ws l s)
    (hs : Sound ledger limit pid ws
      (onKeys command.estimatedMicros (secured.map (·.key command.tenantId))) s)
    (hsec : Secured pid command ws secured s)
    (hnodup : (secured.map (·.key command.tenantId)
      ++ levels.map (·.key command.tenantId)).Nodup)
    (hfits : limit → ∀ level ∈ levels, LevelFits command s.committed.budgets level) :
    Meets ledger limit pid (reserveLevels command levels secured alerts)
      (Within pid l (fun r s' => ∃ ws', LevelsPost ledger limit pid command l
        (secured.map (·.key command.tenantId) ++ levels.map (·.key command.tenantId)) s
        r.1 r.2.2 ws' s')) s := by
  induction levels generalizing ws secured alerts s with
  | nil =>
    rw [List.map_nil, List.append_nil] at hnodup ⊢
    exact ⟨ws, hb, .refl limit pid s, hin, hs, hsec, hnodup, fun _ => rfl,
      fun _ h => by cases h⟩
  | cons level levels ih =>
    have hfresh : level.key command.tenantId ∉ secured.map (·.key command.tenantId) := by
      intro hmem
      exact List.disjoint_of_nodup_append hnodup hmem List.mem_cons_self
    refine meets_bind (meets_reserveLevel hin hs
      (fun hl => hfits hl level List.mem_cons_self)) ?_
    rintro (_ | ⟨x, levelAlerts⟩) s₁ ⟨hb₁, hk₁, hheld, us, hin₁, hpost⟩
    · obtain ⟨hs₁, hus, hrow⟩ := hpost
      refine ⟨ws ++ us, hb₁, hk₁, hin₁, hs₁, hsec.keep hk₁ (by simp [hus]),
        (List.nodup_append.mp hnodup).1, fun h => (by cases h), ?_⟩
      rintro lv ⟨⟩
      exact ⟨hheld, hrow⟩
    · obtain ⟨hs₁, hus, hxkey, hamount, hcontingency, hopen⟩ := hpost
      have hmap : (secured ++ [x]).map (·.key command.tenantId)
          = secured.map (·.key command.tenantId) ++ [level.key command.tenantId] := by
        rw [List.map_append, List.map_singleton, hxkey]
      have hkeys : (secured ++ [x]).map (·.key command.tenantId)
            ++ levels.map (·.key command.tenantId)
          = secured.map (·.key command.tenantId)
            ++ (level :: levels).map (·.key command.tenantId) := by
        rw [hmap, List.map_cons, List.append_assoc, List.singleton_append]
      rw [onKeys_append _ hfresh, ← hmap] at hs₁
      refine meets_mono (ih _ _ hb₁ hin₁ hs₁ ?_ (by rw [hkeys]; exact hnodup)
        (fun hl lv hlv => (hfits hl lv (List.mem_cons_of_mem _ hlv)).same hk₁.budgets hl)) ?_
      · intro y hy
        rcases List.mem_append.mp hy with hy | hy
        · exact hsec.keep hk₁ (fun _ _ e he _ => hus e he) y hy
        · obtain rfl := List.mem_singleton.mp hy
          exact ⟨hxkey ▸ hheld, hopen, hamount, hcontingency⟩
      · rintro r s₂ ⟨ws', hp⟩
        rw [hkeys] at hp
        exact ⟨ws', { hp with keeps := hk₁.trans hp.keeps }⟩

/-- What is left to compensate, and the level that rejected. -/
def Compensating (ledger limit : Prop) (pid : ℕ) (command : BudgetCommand)
    (l : List (TxCommit BudgetDb)) (key : PeriodKey) (xs : List BudgetReservation)
    (s : BudgetState) : Prop :=
  Books ledger limit s ∧ ∃ ws, InTx pid ws l s
    ∧ Sound ledger limit pid ws
      (onKeys command.estimatedMicros (xs.map (·.key command.tenantId))) s
    ∧ Secured pid command ws xs s ∧ (xs.map (·.key command.tenantId)).Nodup
    ∧ s.holder (.state key) = some pid
    ∧ ((budgetEngine.applyAll ws s.committed).states key).isSome

theorem meets_compensateLevels (key : PeriodKey) {xs : List BudgetReservation}
    (h : Compensating ledger limit pid command l key xs s) :
    Meets ledger limit pid (Prog.forEach (compensateLevel command) xs)
      (Within pid l (fun _ => Compensating ledger limit pid command l key [])) s := by
  refine Prog.safe_forEach (I := Compensating ledger limit pid command l key) ?_ h
  rintro x xs s ⟨-, ws, hin, hs, hsec, hnodup, hheld, hrow⟩
  obtain ⟨hxheld, hopen, hamount, hordinary⟩ := hsec x List.mem_cons_self
  rw [List.map_cons, List.nodup_cons] at hnodup
  refine meets_mono (meets_compensateLevel hin hs hxheld hopen hordinary) ?_
  rintro - s' ⟨hb', hk', us, hin', hs', hus⟩
  rw [hamount, List.map_cons, onKeys_cons _ hnodup.1] at hs'
  refine ⟨hb', ws ++ us, hin', hs', ?_, hnodup.2, hk'.held _ hheld, ?_⟩
  · refine Secured.keep (fun y hy => hsec y (List.mem_cons_of_mem _ hy)) hk' ?_
    intro y hy e he hperiod
    refine absurd (List.mem_map_of_mem (f := (·.key command.tenantId)) hy) ?_
    rw [← hperiod, hus e he]
    exact hnodup.1
  · rw [Engine.applyAll_append]
    exact isSome_applyAll us (hs.isSome_keep hk' hrow)

end Loops

/-! ## Transactions -/

section Transactions

variable {ledger limit : Prop} {pid : ℕ} {ws : List BudgetWrite}
  {l : List (TxCommit BudgetDb)} {s : BudgetState} {added : PeriodKey → ℤ}
  {command : BudgetCommand}

/-- The levels are those of the budgets, each with a row of its own and the
limit of its budget. -/
structure Applicable (command : BudgetCommand) (budgets : List Budget)
    (levels : List Level) : Prop where
  keys : ∃ moment, levelKeys budgets moment command
    = .ok (levels.map (·.key command.tenantId))
  nodup : (levels.map (·.key command.tenantId)).Nodup
  fits : ∀ level ∈ levels, LevelFits command budgets level

theorem applicable_of_distinct {moment : Moment} {budgets : List Budget} {levels : List Level}
    (hdistinct : (budgets.map (fun b => (b.tenantId, b.id))).Nodup)
    (h : applicableLevels moment command
      (budgets.filter (fun b => b.tenantId = command.tenantId)) = .ok levels) :
    Applicable command budgets levels := by
  have hsub := applicableLevels_ok h
  refine ⟨⟨moment, by rw [levelKeys, h]; rfl⟩, ?_, ?_⟩
  · -- distinct budgets of one tenant have distinct identifiers, and so do the levels
    have hids := nodup_tenant_ids command.tenantId hdistinct
    have hlevels : (levels.map (·.budgetId)).Nodup := by
      refine hids.sublist ?_
      have hfst := hsub.map Prod.fst
      rwa [List.map_map, List.map_map] at hfst
    refine List.Nodup.map_on ?_ (List.Nodup.of_map _ hlevels)
    intro lv hlv lv' hlv' hkey
    exact List.inj_on_of_nodup_map hlevels hlv hlv' (congrArg PeriodKey.budgetId hkey)
  · intro level hlevel b hb ht hi
    have hmem := hsub.subset (List.mem_map_of_mem hlevel)
    obtain ⟨b', hb', hpair⟩ := List.mem_map.mp hmem
    obtain ⟨hid', hlim'⟩ := Prod.mk.inj hpair
    obtain ⟨hb'', ht'⟩ := List.mem_filter.mp hb'
    obtain rfl : b' = b := by
      refine List.inj_on_of_nodup_map hdistinct hb'' hb ?_
      rw [of_decide_eq_true ht', ht, hid', hi]
    exact hlim'.ge

/-- **`_applicable_levels`.** -/
theorem meets_findLevels (hin : InTx pid ws l s) :
    Meets ledger limit pid (findLevels command) (Within pid l (fun levels s' =>
      Books ledger limit s' ∧ Keeps limit pid s s' ∧ InTx pid ws l s'
        ∧ Applicable command s'.committed.budgets levels)) s := by
  refine meets_bind (meets_read hin (fun _ => trivial) (fun _ _ _ => rfl)
    (P := fun _ s' => Keeps limit pid s s' ∧ InTx pid ws l s')
    (fun s' _ _ _ _ hk hin' _ _ => ⟨hk, hin'⟩)) ?_
  rintro moment s₁ ⟨hk₁, hin₁⟩
  refine meets_bind (meets_read hin₁ (fun _ => trivial) (fun _ _ _ => rfl)
    (P := fun rows s' => Books ledger limit s' ∧ Keeps limit pid s₁ s' ∧ InTx pid ws l s'
      ∧ rows = s'.committed.budgets.filter (fun b => b.tenantId = command.tenantId))
    (fun s' _ _ rows hb hk hin' _ hr => ⟨hb, hk, hin', ?_⟩)) ?_
  · have hrows := Except.ok.inj hr
    rw [applyAll_budgets] at hrows
    exact hrows.symm
  · rintro rows s₂ ⟨hb₂, hk₂, hin₂, rfl⟩
    cases hlevels : applicableLevels moment command
        (s₂.committed.budgets.filter (fun b => b.tenantId = command.tenantId)) with
    | error e => exact hin₂.commits
    | ok levels =>
      exact ⟨hb₂, hk₁.trans hk₂, hin₂, applicable_of_distinct hb₂.distinct hlevels⟩

/-- What the transaction of a reservation leaves: nothing, if a level rejects
it; otherwise the estimate on every level, under the entries of the bundle. -/
def ReservePost (command : BudgetCommand) (r : Option BudgetReservationBundle)
    (ws : List BudgetWrite) (added : PeriodKey → ℤ) (s : BudgetState) : Prop :=
  match r with
  | none => added = fun _ => 0
  | some bundle => bundle.command = command
      ∧ (∀ x ∈ bundle.entries,
        Entered command.tenantId (budgetEngine.applyAll ws s.committed).ledger x)
      ∧ ∃ moment keys, levelKeys s.committed.budgets moment command = .ok keys
        ∧ added = onKeys command.estimatedMicros keys

/-- The postcondition of the transaction is stable. -/
theorem ReservePost.keep {r : Option BudgetReservationBundle} {s' : BudgetState}
    (h : ReservePost command r ws added s) (hk : Keeps limit pid s s') :
    ReservePost command r ws added s' := by
  cases r with
  | none => exact h
  | some bundle =>
    obtain ⟨hcommand, hentered, moment, keys, hkeys, hadded⟩ := h
    refine ⟨hcommand, fun x hx => (hentered x hx).mono (fun e he => ?_), moment, keys, ?_, hadded⟩
    · rw [applyAll_ledger] at he ⊢
      rcases List.mem_append.mp he with he | he
      · exact List.mem_append_left _ (hk.ledger e he)
      · exact List.mem_append_right _ he
    · rw [levelKeys_same hk.budgets]
      exact hkeys

/-- **The transaction of `reserve`.** -/
theorem meets_reserveTransaction (hin : InTx pid [] l s) :
    Meets ledger limit pid (reserveTransaction command) (Within pid l (fun r s' =>
      ∃ ws added, InTx pid ws l s' ∧ Sound ledger limit pid ws added s'
        ∧ ReservePost command r ws added s')) s := by
  refine meets_bind (meets_findLevels hin) ?_
  rintro levels s₁ ⟨hb₁, hk₁, hin₁, happ⟩
  have hs₁ : Sound ledger limit pid [] (onKeys command.estimatedMicros []) s₁ := by
    rw [onKeys_nil]
    exact .nil hb₁
  refine meets_bind (meets_reserveLevels levels [] [] hb₁ hin₁ hs₁
    (fun x hx => by cases hx) happ.nodup (fun _ => happ.fits)) ?_
  rintro ⟨secured, alerts, rejecting⟩ s₂ ⟨ws, hp⟩
  cases rejecting with
  | none =>
    obtain ⟨moment, hmoment⟩ := happ.keys
    refine ⟨ws, _, hp.inTx, hp.sound, rfl, fun x hx => (hp.secured x hx).2.1.entered,
      moment, _, ?_, rfl⟩
    rw [levelKeys_same hp.keeps.budgets, hmoment, hp.all rfl]
    rfl
  | some level =>
    obtain ⟨hheld, hrow⟩ := hp.rejected level rfl
    refine meets_bind (meets_compensateLevels (level.key command.tenantId)
      ⟨hp.books, ws, hp.inTx, hp.sound, hp.secured, hp.nodup, hheld, hrow⟩) ?_
    rintro - s₃ ⟨-, ws₃, hin₃, hs₃, -, -, hheld₃, hrow₃⟩
    obtain ⟨row, hrow₃⟩ := Option.isSome_iff_exists.mp hrow₃
    rw [List.map_nil, onKeys_nil] at hs₃
    refine meets_bind (meets_appendFresh [] row
      (by rw [List.append_nil]; exact hin₃) ⟨hs₃, hheld₃, hrow₃⟩ (.inl ⟨rfl, rfl⟩) rfl rfl
      (fun _ entries x hbal hfresh => hbal.note (.inl rfl)
        (fun e he hid => absurd hid (Nat.ne_of_lt (hfresh e he))) rfl rfl rfl)
      (fun hl => hs₃.rowFits hrow₃ hl)) ?_
    rintro ⟨id, inserted⟩ s₄ ⟨-, -, -, -, -, hin₄, hs₄⟩
    refine ⟨_, _, hin₄, hs₄, ?_⟩
    funext k
    simp

/-- What the draws of a contingency leave: no ordinary total is changed, and
each draw has its entry. -/
theorem meets_drawLevels {levels : List Level} {entries : List BudgetReservation}
    (hin : InTx pid ws l s) (hs : Sound ledger limit pid ws (fun _ => 0) s)
    (hentries : ∀ x ∈ entries, Entered command.tenantId (entriesOf ws) x) :
    Meets ledger limit pid (drawLevels command levels entries) (Within pid l (fun r s' =>
      ∃ ws', InTx pid ws' l s' ∧ Sound ledger limit pid ws' (fun _ => 0) s'
        ∧ ∀ xs, r = some xs → ∀ x ∈ xs, Entered command.tenantId (entriesOf ws') x)) s := by
  induction levels generalizing ws entries s with
  | nil =>
    refine ⟨ws, hin, hs, ?_⟩
    rintro xs ⟨⟩ x hx
    exact hentries x hx
  | cons level levels ih =>
    refine meets_bind (meets_drawContingency hin hs) ?_
    rintro drawn s₁ ⟨hb₁, hk₁, ⟨rfl, hin₁⟩ | ⟨row, row', rfl, hchanged, -, hchange, hin₁⟩⟩
    · exact ⟨ws, hin₁, hs.keep hb₁ hk₁, fun xs h => by cases h⟩
    obtain ⟨hr, hco, hal, -⟩ := PeriodState.change?_ok hchange
    have hfits : limit → RowFits s₁.committed.budgets (level.key command.tenantId) row' := by
      intro hl b hb ht hi
      have hfit := hchanged.sound.rowFits hchanged.row hl b hb ht hi
      omega
    refine meets_bind (meets_appendFresh _ _ hin₁ hchanged (.inr rfl) rfl rfl
      (fun _ es x hbal hfresh => hbal.reserve rfl (fun e he hid =>
        absurd hid (Nat.ne_of_lt (hfresh e he))) hchange) hfits) ?_
    rintro ⟨id, inserted⟩ s₂ ⟨-, -, -, -, -, hin₂, hs₂⟩
    have hzero : (fun k : PeriodKey => (0 : ℤ) + if k = level.key command.tenantId
        then row'.reservedMicros - row.reservedMicros else 0) = fun _ => 0 := by
      funext k
      rw [hr]
      simp
    rw [hzero] at hs₂
    refine ih hin₂ hs₂ (fun x hx => ?_)
    rw [entriesOf_append]
    rcases List.mem_append.mp hx with hx | hx
    · exact (hentries x hx).mono (fun e he => List.mem_append_left _ he)
    · obtain rfl := List.mem_singleton.mp hx
      exact ⟨_, List.mem_append_right _ List.mem_cons_self, rfl, rfl, rfl, rfl, rfl⟩

/-- What the transaction of `_apply_unknown_policy` leaves. -/
def UnknownPost (command : BudgetCommand) (r : Option BudgetReservationBundle)
    (ws : List BudgetWrite) (added : PeriodKey → ℤ) (_ : BudgetState) : Prop :=
  added = (fun _ => 0) ∧ ∀ bundle, r = some bundle → bundle.command = command
    ∧ ∀ x ∈ bundle.entries, Entered command.tenantId (entriesOf ws) x

/-- **The transaction of `_apply_unknown_policy`.** -/
theorem meets_unknownPolicyTransaction (hin : InTx pid [] l s) :
    Meets ledger limit pid (unknownPolicyTransaction command) (Within pid l (fun r s' =>
      ∃ ws added, InTx pid ws l s' ∧ Sound ledger limit pid ws added s'
        ∧ UnknownPost command r ws added s')) s := by
  refine meets_bind (meets_findLevels hin) ?_
  rintro levels s₁ ⟨hb₁, hk₁, hin₁, -⟩
  dsimp only
  split
  · exact ⟨[], _, hin₁, .nil hb₁, rfl, fun bundle h => by cases h⟩
  · refine meets_bind (meets_drawLevels hin₁ (.nil hb₁) (fun x hx => by cases hx)) ?_
    rintro (_ | entries) s₂ ⟨ws, hin₂, hs₂, hentries⟩
    · exact ⟨ws, _, hin₂, hs₂, rfl, fun bundle h => by cases h⟩
    · refine ⟨ws, _, hin₂, hs₂, rfl, ?_⟩
      rintro bundle ⟨⟩
      exact ⟨rfl, hentries entries rfl⟩

end Transactions

/-! ## Calls -/

/-- What some commits have added to the reserved total of a period. -/
def addedBy (commits : List (TxCommit BudgetDb)) (key : PeriodKey) : ℤ :=
  (commits.map (fun c => reservedAt c.after key - reservedAt c.before key)).sum

/-- **All or none**: the commits of a reservation have added its estimate to
every level that applied, and nothing elsewhere, or nothing at all. -/
def AllOrNone (command : BudgetCommand) (commits : List (TxCommit BudgetDb)) : Prop :=
  (∃ c ∈ commits, ∃ moment keys, levelKeys c.before.budgets moment command = .ok keys
      ∧ ∀ key, addedBy commits key = onKeys command.estimatedMicros keys key)
    ∨ ∀ key, addedBy commits key = 0

theorem addedBy_append (commits : List (TxCommit BudgetDb)) (c : TxCommit BudgetDb)
    (key : PeriodKey) :
    addedBy (commits ++ [c]) key
      = addedBy commits key + (reservedAt c.after key - reservedAt c.before key) := by
  simp [addedBy]

/-- Another commit that adds nothing. -/
theorem AllOrNone.append {command : BudgetCommand} {commits : List (TxCommit BudgetDb)}
    {c : TxCommit BudgetDb} (h : AllOrNone command commits)
    (hc : ∀ key, reservedAt c.after key - reservedAt c.before key = 0) :
    AllOrNone command (commits ++ [c]) := by
  have hsame : ∀ key, addedBy (commits ++ [c]) key = addedBy commits key := by
    intro key
    rw [addedBy_append, hc key, Int.add_zero]
  rcases h with ⟨c', hmem, moment, keys, hkeys, hadd⟩ | hnone
  · exact .inl ⟨c', List.mem_append_left _ hmem, moment, keys, hkeys,
      fun key => (hsame key).trans (hadd key)⟩
  · exact .inr (fun key => (hsame key).trans (hnone key))

/-- A bundle is one a reservation returned: its entries are in the ledger. -/
def Known (bundle : BudgetReservationBundle) (s : BudgetState) : Prop :=
  ∀ x ∈ bundle.entries, Entered bundle.command.tenantId s.committed.ledger x

section Calls

variable {ledger limit : Prop} {pid : ℕ} {s : BudgetState} {command : BudgetCommand}

/-- What `reserve` leaves when it returns a bundle. -/
def ReserveDone (pid : ℕ) (command : BudgetCommand) (bundle : BudgetReservationBundle)
    (s : BudgetState) : Prop :=
  Known bundle s ∧ AllOrNone command (commitsOf pid s)

/-- The reserved totals a transaction has added, by its commit. -/
theorem Sound.addedBy_commit {ws : List BudgetWrite} {added : PeriodKey → ℤ}
    (hs : Sound ledger limit pid ws added s) (key : PeriodKey) :
    reservedAt (budgetEngine.applyAll ws s.committed) key - reservedAt s.committed key
      = added key := by
  have hadd := hs.added key
  omega

/-- The first transaction of a reservation. -/
theorem meets_reserve_first (hc : commitsOf pid s = []) :
    Meets ledger limit pid (Engine.transaction (reserveTransaction command))
      (fun r s' => match r with
        | .ok (some bundle) => ReserveDone pid command bundle s'
        | .ok none => True
        | .error _ => AllOrNone command (commitsOf pid s')) s := by
  refine meets_transaction (P := fun r => ReservePost command r) hc
    (fun s₁ _ _ hin => meets_reserveTransaction hin) (fun _ _ _ _ _ h hk => h.keep hk)
    (fun e s' hl => .inr (fun key => by rw [hl]; rfl)) ?_
  intro r ws added s₁ s₂ hb hs hpost hcommitted hl
  have hadd : ∀ key, addedBy (commitsOf pid s₂) key = added key := by
    intro key
    rw [hl, List.nil_append]
    exact (Int.add_zero _).trans (Sound.addedBy_commit hs key)
  cases r with
  | none => exact ⟨trivial, .inr (fun key => by rw [hadd, hpost])⟩
  | some bundle =>
    obtain ⟨rfl, hentered, moment, keys, hkeys, hadded⟩ := hpost
    have hall : AllOrNone bundle.command (commitsOf pid s₂) := by
      refine .inl ⟨⟨pid, s₁.committed, budgetEngine.applyAll ws s₁.committed⟩, ?_, moment, keys,
        hkeys, fun key => by rw [hadd, hadded]⟩
      rw [hl]
      exact List.mem_append_right _ List.mem_cons_self
    exact ⟨⟨fun x hx => by rw [hcommitted]; exact hentered x hx, hall⟩, hall⟩

/-- The recovery of a reservation whose outcome is not known. -/
theorem meets_recoverReserve (h : AllOrNone command (commitsOf pid s)) :
    Meets ledger limit pid (recoverReserve command) (fun r s' => match r with
      | .ok (some bundle) => ReserveDone pid command bundle s'
      | _ => True) s := by
  refine (Prog.safe_bind _ _ _ _).mpr ((Prog.safe_tryCatch _ _ _ _).mpr ?_)
  refine Prog.Safe.mono (meets_transaction (P := fun r => UnknownPost command r)
    (Q := fun r s' => ∀ bundle, r = .ok (some bundle) → ReserveDone pid command bundle s') rfl
    (fun s₁ _ _ hin => meets_unknownPolicyTransaction hin) (fun _ _ _ _ _ h _ => h)
    (fun e s' _ bundle h => by cases h) ?_) ?_
  · intro r ws added s₁ s₂ hb hs hpost hcommitted hl
    refine ⟨?_, fun bundle h => by cases h⟩
    rintro bundle ⟨⟩
    obtain ⟨rfl, hentered⟩ := hpost.2 bundle rfl
    refine ⟨fun x hx => (hentered x hx).mono (fun e he => ?_), ?_⟩
    · rw [hcommitted, applyAll_ledger]
      exact List.mem_append_right _ he
    · rw [hl]
      refine h.append (fun key => ?_)
      rw [Sound.addedBy_commit hs key, hpost.1]
  · intro r s' hpost
    cases r with
    | ok r =>
      cases r with
      | none => trivial
      | some bundle => exact hpost bundle rfl
    | error e =>
      by_cases he : e = .sqlAlchemy
      · rw [he]
        trivial
      · show Prog.Safe _ _ _ (if e = .sqlAlchemy then _ else _) _ _
        rw [if_neg he]
        trivial

/-- **`BudgetService.reserve`.** -/
theorem meets_reserve (hc : commitsOf pid s = []) :
    Meets ledger limit pid (reserve command) (fun r s' => match r with
      | .ok bundle => ReserveDone pid command bundle s'
      | .error _ => True) s := by
  refine (Prog.safe_bind _ _ _ _).mpr ((Prog.safe_tryCatch _ _ _ _).mpr ?_)
  refine Prog.Safe.mono (meets_reserve_first hc) ?_
  intro r s' hpost
  cases r with
  | ok r =>
    cases r with
    | none => trivial
    | some bundle => exact hpost
  | error e =>
    show Prog.Safe _ _ _ (if e = .sqlAlchemy then recoverReserve command else _) _ _
    split
    · refine Prog.Safe.mono (meets_recoverReserve hpost) ?_
      intro r s'' hpost'
      cases r with
      | ok r =>
        cases r with
        | none => trivial
        | some bundle => exact hpost'
      | error e => trivial
    · trivial

/-- A loop that closes reservations that were entered. -/
theorem meets_closeAll {bundle : BudgetReservationBundle} (hknown : Known bundle s)
    {f : BudgetReservation → BudgetProg Unit}
    (hf : ∀ x ∈ bundle.entries, ∃ type charged consumed reason,
      f x = closeEntry bundle.command type charged consumed reason x
        ∧ type.closes = true ∧ consumed = (if type = .SETTLE then charged else 0)
        ∧ (limit → 0 ≤ charged → consumed ≤ x.amountMicros)) :
    Meets ledger limit pid (Engine.transaction (Prog.forEach f bundle.entries))
      (fun _ _ => True) s := by
  refine meets_transaction (P := fun _ _ _ _ => True) rfl (fun s₁ hb hk hin => ?_)
    (fun _ _ _ _ _ _ _ => trivial) (fun _ _ _ => trivial)
    (fun _ _ _ _ _ _ _ _ _ _ => ⟨trivial, trivial⟩)
  have hloop : Meets ledger limit pid (Prog.forEach f bundle.entries)
      (Within pid (commitsOf pid s) (fun _ s' => (∀ x ∈ ([] : List BudgetReservation),
          x ∈ bundle.entries ∧ Entered bundle.command.tenantId s'.committed.ledger x)
        ∧ ∃ ws added, InTx pid ws (commitsOf pid s) s'
          ∧ Sound ledger limit pid ws added s')) s₁ := by
    refine Prog.safe_forEach (I := fun xs s' => (∀ x ∈ xs, x ∈ bundle.entries
        ∧ Entered bundle.command.tenantId s'.committed.ledger x)
      ∧ ∃ ws added, InTx pid ws (commitsOf pid s) s' ∧ Sound ledger limit pid ws added s')
      ?_ ⟨fun x hx => ⟨hx, (hknown x hx).mono hk.ledger⟩, [], _, hin, .nil hb⟩
    rintro x xs s' ⟨hxs, ws, added, hin', hs'⟩
    obtain ⟨hx, hentered⟩ := hxs x List.mem_cons_self
    obtain ⟨type, charged, consumed, reason, hprog, hcloses, hconsumed, hle⟩ := hf x hx
    rw [hprog]
    refine meets_mono (meets_closeEntry hin' hs' hentered hcloses hconsumed hle) ?_
    rintro - s'' ⟨ws', added', hin'', hs'', hk''⟩
    refine ⟨fun y hy => ?_, ws', added', hin'', hs''⟩
    obtain ⟨hy', hentered'⟩ := hxs y (List.mem_cons_of_mem _ hy)
    exact ⟨hy', hentered'.mono hk''.ledger⟩
  refine meets_mono hloop ?_
  rintro - s' ⟨-, ws, added, hin', hs'⟩
  exact ⟨ws, added, hin', hs', trivial⟩

/-- **`BudgetService.settle`**, with no more charged than was reserved. -/
theorem meets_settle {bundle : BudgetReservationBundle} {actual : Option ℤ}
    (hknown : Known bundle s)
    (hle : limit → ∀ x ∈ bundle.entries, actual.getD x.amountMicros ≤ x.amountMicros) :
    Meets ledger limit pid (settle bundle actual) (fun _ _ => True) s :=
  meets_closeAll hknown (fun x hx => ⟨.SETTLE, _, _, "", settleEntry_eq _ actual x, rfl, rfl,
    fun hl _ => hle hl x hx⟩)

/-- **`BudgetService.release`.** -/
theorem meets_release {bundle : BudgetReservationBundle} {reason : String}
    (hknown : Known bundle s) :
    Meets ledger limit pid (release bundle reason) (fun _ _ => True) s :=
  meets_closeAll hknown (fun x _ => ⟨.RELEASE, _, _, reason, releaseEntry_eq _ reason x, rfl, rfl,
    fun _ h => h⟩)

/-- **`BudgetService.adjust`**, with no allowance taken back. -/
theorem meets_adjust {moment : Moment} {a : Adjustment} (hle : limit → 0 ≤ a.deltaMicros) :
    Meets ledger limit pid (adjust moment a) (fun _ _ => True) s := by
  refine meets_transaction (P := fun _ _ _ _ => True) rfl (fun s₁ hb hk hin => ?_)
    (fun _ _ _ _ _ _ _ => trivial) (fun _ _ _ => trivial)
    (fun _ _ _ _ _ _ _ _ _ _ => ⟨trivial, trivial⟩)
  refine meets_bind (meets_read hin (fun _ => trivial) (fun _ _ _ => rfl)
    (P := fun _ s' => Books ledger limit s' ∧ InTx pid [] (commitsOf pid s) s')
    (fun s' _ _ _ hb' _ hin' _ _ => ⟨hb', hin'⟩)) ?_
  rintro (_ | budget) s₂ ⟨hb₂, hin₂⟩
  · exact hin₂.commits
  dsimp only
  split
  · exact hin₂.commits
  · cases hperiod : periodKeyFor budget.scope moment none with
    | error e => exact hin₂.commits
    | ok periodKey =>
      dsimp only
      refine meets_bind (meets_ensureStateRow hin₂ (.nil hb₂)) ?_
      rintro - s₃ ⟨us, hin₃, hs₃, -, hrow₃, -⟩
      refine meets_bind (meets_changeState [] (by rw [List.append_nil]; exact hin₃) hs₃
        (fun _ => rfl) hrow₃) ?_
      rintro - s₄ ⟨hb₄, -, row, row', hchanged, hchange, hin₄⟩
      rw [List.append_nil] at hin₄
      obtain ⟨hr, hco, hal, hct⟩ := PeriodState.change?_ok hchange
      have hfits : limit → RowFits s₄.committed.budgets ⟨a.tenantId, a.budgetId, periodKey⟩
          row' := by
        intro hl b hb ht hi
        have hfit := hchanged.sound.rowFits hchanged.row hl b hb ht hi
        have hle' := hle hl
        omega
      refine meets_bind (meets_appendFresh _ _ hin₄ hchanged (.inr rfl) rfl rfl
        (fun _ entries x hbal hfresh => hbal.note (.inr rfl)
          (fun e he hid => absurd hid (Nat.ne_of_lt (hfresh e he))) (by omega) (by omega)
          (by omega)) hfits) ?_
      rintro ⟨id, inserted⟩ s₅ ⟨-, -, -, -, -, hin₅, hs₅⟩
      exact ⟨_, _, hin₅, hs₅, trivial⟩

end Calls

end BudgetService
