import AgentPlatform.CostLedger

/-!
# The books of the budget service

Calls of the service run between the statements of one another, and what
keeps the totals right is a discipline of locks: whoever changes the totals
of a period holds its row until the transaction ends, and by the time it
commits it also holds the row of every period it has made ledger entries for.
Nobody else can then have changed either, in between.

`Books` is the invariant of the database, `Respects` what a call relies on
the others to do, and `Sound` what a call knows about the writes it has made
and not yet committed: they would leave the books in order, and only touch
periods it holds. `Sound` survives what others do (`Sound.keep`), grows with
the writes of a statement (`Sound.extend`), and at the commit gives `Books`
again (`Sound.guarantees_publish`).

Two properties are carried side by side, each under its own assumptions: that
totals and entries balance, if `ledger`, and that no total exceeds its limit,
if `limit`.
-/

/-- The database of the service and its open transactions. -/
abbrev BudgetState := TxState BudgetDb BudgetWrite BudgetRow Uuid

/-! ## Rows and writes -/

/-- What a row lock protects. -/
abbrev BudgetLook : BudgetRow → Type
  | .state _ => Option PeriodState
  | .entry .. => Option LedgerEntry
  | .alert .. => Option BudgetAlert

/-- The rows of the budget tables. -/
def budgetLook : (k : BudgetRow) → BudgetDb → BudgetLook k
  | .state key, db => db.states key
  | .entry key reserveId type, db => db.findEntry key reserveId type
  | .alert key level, db => db.alerts key level

/-- The ledger entries among row writes. -/
def entriesOf (ws : List BudgetWrite) : List LedgerEntry :=
  ws.filterMap (fun w => match w with
    | .insertEntry e => some e
    | _ => none)

@[simp] theorem entriesOf_nil : entriesOf [] = [] := rfl

@[simp] theorem entriesOf_append (ws ws' : List BudgetWrite) :
    entriesOf (ws ++ ws') = entriesOf ws ++ entriesOf ws' := by
  simp [entriesOf]

theorem mem_entriesOf {ws : List BudgetWrite} {e : LedgerEntry} :
    e ∈ entriesOf ws ↔ .insertEntry e ∈ ws := by
  unfold entriesOf
  rw [List.mem_filterMap]
  constructor
  · rintro ⟨w, hw, hwe⟩
    cases w with
    | insertEntry e' => cases hwe; exact hw
    | setState key row => cases hwe
    | insertAlert key level alert => cases hwe
  · intro h
    exact ⟨_, h, rfl⟩

@[simp] theorem budgetEngine_apply (w : BudgetWrite) (db : BudgetDb) :
    budgetEngine.apply w db = w.apply db := rfl

@[simp] theorem budgetEngine_key (w : BudgetWrite) : budgetEngine.key w = w.key := rfl

/-- Writes append their entries to the ledger. -/
@[simp] theorem applyAll_ledger (ws : List BudgetWrite) (db : BudgetDb) :
    (budgetEngine.applyAll ws db).ledger = db.ledger ++ entriesOf ws := by
  induction ws generalizing db with
  | nil => simp
  | cons w ws ih =>
    rw [Engine.applyAll_cons, ih]
    cases w <;> simp [BudgetWrite.apply, entriesOf]

/-- Writes leave the budgets alone. -/
@[simp] theorem applyAll_budgets (ws : List BudgetWrite) (db : BudgetDb) :
    (budgetEngine.applyAll ws db).budgets = db.budgets := by
  induction ws generalizing db with
  | nil => rfl
  | cons w ws ih =>
    rw [Engine.applyAll_cons, ih]
    cases w <;> rfl

theorem applyAll_ledgerAt (ws : List BudgetWrite) (db : BudgetDb) (key : PeriodKey) :
    (budgetEngine.applyAll ws db).ledgerAt key
      = db.ledgerAt key ++ (entriesOf ws).filter (fun e => e.period = key) := by
  simp [BudgetDb.ledgerAt]

theorem mem_ledgerAt {db : BudgetDb} {key : PeriodKey} {e : LedgerEntry} :
    e ∈ db.ledgerAt key ↔ e ∈ db.ledger ∧ e.period = key := by
  simp [BudgetDb.ledgerAt]

theorem findEntry_eq_none {db : BudgetDb} {key : PeriodKey} {reserveId : Uuid}
    {type : LedgerEntryType} :
    db.findEntry key reserveId type = none ↔ Absent (db.ledgerAt key) reserveId type := by
  unfold BudgetDb.findEntry
  rw [List.find?_eq_none]
  constructor
  · intro h e he hid ht
    obtain ⟨hmem, hperiod⟩ := mem_ledgerAt.mp he
    exact h e hmem (by simpa using ⟨hperiod, hid, ht⟩)
  · intro h e he hc
    obtain ⟨hperiod, hid, ht⟩ := of_decide_eq_true hc
    exact h e (mem_ledgerAt.mpr ⟨he, hperiod⟩) hid ht

/-- The budgets of one tenant have distinct identifiers. -/
theorem nodup_tenant_ids {budgets : List Budget} (tenantId : Uuid)
    (h : (budgets.map (fun b => (b.tenantId, b.id))).Nodup) :
    ((budgets.filter (fun b => b.tenantId = tenantId)).map (·.id)).Nodup := by
  have hrows : ((budgets.filter (fun b => b.tenantId = tenantId)).map
      (fun b => (b.tenantId, b.id))).Nodup :=
    h.sublist (List.filter_sublist.map _)
  refine List.Nodup.map_on ?_ (List.Nodup.of_map _ hrows)
  intro b hb b' hb' hid
  refine List.inj_on_of_nodup_map hrows hb hb' ?_
  have htb : b.tenantId = tenantId := of_decide_eq_true (List.mem_filter.mp hb).2
  have htb' : b'.tenantId = tenantId := of_decide_eq_true (List.mem_filter.mp hb').2
  rw [htb, htb', hid]

/-- **The statements of the service lock what they write.** -/
theorem budgetEngine_lawful : budgetEngine.Lawful budgetLook where
  look_apply w db k hk := by
    cases w with
    | setState key row =>
      cases k with
      | state key' =>
        have hne : key' ≠ key := fun h => hk (by rw [h]; rfl)
        exact Function.update_of_ne hne _ _
      | entry key' id type => rfl
      | alert key' level => rfl
    | insertEntry e =>
      cases k with
      | state key' => rfl
      | alert key' level => rfl
      | entry key' id type =>
        have hne : ¬ (e.period = key' ∧ e.reserveId = id ∧ e.entryType = type) := by
          rintro ⟨h₁, h₂, h₃⟩
          exact hk (by simp [BudgetWrite.key, LedgerEntry.row, h₁, h₂, h₃])
        show (db.ledger ++ [e]).find? _ = db.ledger.find? _
        rw [List.find?_append, List.find?_singleton]
        simp [hne]
    | insertAlert key level alert =>
      cases k with
      | state key' => rfl
      | entry key' id type => rfl
      | alert key' level' =>
        show Function.update db.alerts key _ key' level' = db.alerts key' level'
        by_cases hkey : key' = key
        · subst hkey
          have hne : level' ≠ level := fun h => hk (by rw [h]; rfl)
          rw [Function.update_self, Function.update_of_ne hne]
        · rw [Function.update_of_ne hkey]
  look_congr w db db' k hk := by
    cases w with
    | setState key row =>
      cases k with
      | state key' =>
        have hrow : db.states key' = db'.states key' := hk
        show Function.update db.states key _ key' = Function.update db'.states key _ key'
        by_cases hkey : key' = key
        · subst hkey
          simp
        · simpa [Function.update_of_ne hkey] using hrow
      | entry key' id type => exact hk
      | alert key' level => exact hk
    | insertEntry e =>
      cases k with
      | state key' => exact hk
      | alert key' level => exact hk
      | entry key' id type =>
        have hfind : db.ledger.find? _ = db'.ledger.find? _ := hk
        show (db.ledger ++ [e]).find? _ = (db'.ledger ++ [e]).find? _
        rw [List.find?_append, List.find?_append, hfind]
    | insertAlert key level alert =>
      cases k with
      | state key' => exact hk
      | entry key' id type => exact hk
      | alert key' level' =>
        have hrow : db.alerts key' level' = db'.alerts key' level' := hk
        show Function.update db.alerts key _ key' level'
          = Function.update db'.alerts key _ key' level'
        by_cases hkey : key' = key
        · subst hkey
          by_cases hl : level' = level
          · subst hl
            simp
          · simpa [Function.update_of_ne hl] using hrow
        · simpa [Function.update_of_ne hkey] using hrow
  exec_locked a op fr db x w hw := by
    have hupdate : ∀ (key : PeriodKey) guard change,
        w ∈ (updateState db key guard change).2 →
        BudgetWrite.key w ∈ (if (db.states key).isSome then [BudgetRow.state key] else []) := by
      intro key guard change hw
      unfold updateState at hw
      split at hw
      · cases hw
      · rename_i row hrow
        split at hw
        · split at hw
          · cases hw
          · obtain rfl := List.mem_singleton.mp hw
            simp [hrow, BudgetWrite.key]
        · cases hw
    cases op with
    | clock => cases hw
    | selectBudgets t => cases hw
    | selectBudget t id => cases hw
    | selectState key => cases hw
    | ensureStateRow key =>
      simp only [budgetEngine, BudgetOp.exec] at hw
      split at hw
      · cases hw
      · rename_i hnone
        split at hw
        · obtain rfl := List.mem_singleton.mp hw
          simp [budgetEngine, BudgetOp.locks, hnone, BudgetWrite.key]
        · cases hw
    | reserveState key amount limit => exact hupdate key _ _ hw
    | drawContingency key amount limit => exact hupdate key _ _ hw
    | changeState key r c al => exact hupdate key _ _ hw
    | appendLedger reserveId draft =>
      simp only [budgetEngine, BudgetOp.exec] at hw
      split at hw
      · cases hw
      · split at hw
        · cases hw
        · rename_i hnone
          obtain rfl := List.mem_singleton.mp hw
          simp [budgetEngine, BudgetOp.locks, hnone, BudgetWrite.key, LedgerEntry.row]
    | insertAlert key level used lim =>
      simp only [budgetEngine, BudgetOp.exec] at hw
      split at hw
      · cases hw
      · split at hw
        · cases hw
        · rename_i hnone
          obtain rfl := List.mem_singleton.mp hw
          simp [budgetEngine, BudgetOp.locks, hnone, BudgetWrite.key]

/-! ## Invariant and interference -/

/-- What no change of its settings touches in a budget. -/
def Budget.identity (b : Budget) : Uuid × Uuid × Option Uuid × BudgetScope :=
  (b.tenantId, b.id, b.applicationId, b.scope)

/-- The reserved total of a period; a period without a row has none. -/
def reservedAt (db : BudgetDb) (key : PeriodKey) : ℤ :=
  (db.states key).elim 0 (·.reservedMicros)

/-- **The totals fit their limits.** -/
def Fits (db : BudgetDb) : Prop :=
  ∀ b ∈ db.budgets, ∀ period row, db.states ⟨b.tenantId, b.id, period⟩ = some row →
    row.reservedMicros + row.consumedMicros ≤ b.limitMicros + row.allowanceMicros

/-- An entry of this type is in the ledger, or an open transaction has taken
its place. -/
def Claimed (s : BudgetState) (key : PeriodKey) (reserveId : Uuid) (type : LedgerEntryType) :
    Prop :=
  s.committed.findEntry key reserveId type ≠ none ∨ s.holder (.entry key reserveId type) ≠ none

/-- **The invariant of the service.** -/
structure Books (ledger limit : Prop) (s : BudgetState) : Prop where
  owned : budgetEngine.Owned s
  drawn : ∀ e ∈ s.committed.ledger, e.reserveId < s.ext
  drawn_pending : ∀ q ws, s.pending q = some ws → ∀ e ∈ entriesOf ws, e.reserveId < s.ext
  present : ∀ e ∈ s.committed.ledger, (s.committed.states e.period).isSome
  distinct : (s.committed.budgets.map (fun b => (b.tenantId, b.id))).Nodup
  balanced : ledger → ∀ key, Balance (s.committed.states key) (s.committed.ledgerAt key)
  exclusive : ledger → ∀ key reserveId, Claimed s key reserveId .SETTLE →
    ¬ Claimed s key reserveId .RELEASE
  fits : limit → Fits s.committed

/-- The budgets are the same but for their settings, and no limit is lowered if
`limit`. -/
def SameBudgets (limit : Prop) : List Budget → List Budget → Prop :=
  List.Forall₂ (fun b b' => b'.identity = b.identity
    ∧ (limit → b.limitMicros ≤ b'.limitMicros))

theorem SameBudgets.refl (limit : Prop) (l : List Budget) : SameBudgets limit l l :=
  List.forall₂_same.mpr (fun _ _ => ⟨rfl, fun _ => Nat.le_refl _⟩)

theorem SameBudgets.trans {limit : Prop} {l₁ l₂ l₃ : List Budget} (h : SameBudgets limit l₁ l₂)
    (h' : SameBudgets limit l₂ l₃) : SameBudgets limit l₁ l₃ := by
  induction h generalizing l₃ with
  | nil => exact h'
  | cons hb _ ih =>
    cases h' with
    | cons hb' ht' =>
      exact .cons ⟨hb'.1.trans hb.1, fun hl => (hb.2 hl).trans (hb'.2 hl)⟩ (ih ht')

/-- A budget of the later list was in the earlier one. -/
theorem SameBudgets.origin {limit : Prop} {l l' : List Budget} (h : SameBudgets limit l l')
    {b' : Budget} (hb' : b' ∈ l') :
    ∃ b ∈ l, b'.identity = b.identity ∧ (limit → b.limitMicros ≤ b'.limitMicros) := by
  induction h with
  | nil => cases hb'
  | cons hb _ ih =>
    rcases List.mem_cons.mp hb' with rfl | hb'
    · exact ⟨_, List.mem_cons_self, hb⟩
    · obtain ⟨b, hmem, hid⟩ := ih hb'
      exact ⟨b, List.mem_cons_of_mem _ hmem, hid⟩

/-- **What a call relies on**: what it holds stays as it is – the rows, and the
entries of the periods – and the rest only grows. -/
structure Respects (limit : Prop) (pid : ℕ) (s s' : BudgetState) : Prop where
  untouched : Engine.Untouched budgetLook pid s s'
  budgets : SameBudgets limit s.committed.budgets s'.committed.budgets
  ledger : ∀ e ∈ s.committed.ledger, e ∈ s'.committed.ledger
  ledgerAt : ∀ key, s.holder (.state key) = some pid →
    s'.committed.ledgerAt key = s.committed.ledgerAt key
  rows : ∀ key, (s.committed.states key).isSome → (s'.committed.states key).isSome

theorem Respects.refl (limit : Prop) (pid : ℕ) (s : BudgetState) : Respects limit pid s s :=
  ⟨.refl pid s, .refl limit _, fun _ h => h, fun _ _ => rfl, fun _ h => h⟩

theorem Respects.trans {limit : Prop} {pid : ℕ} {a b c : BudgetState}
    (h : Respects limit pid a b) (h' : Respects limit pid b c) : Respects limit pid a c :=
  ⟨h.untouched.trans h'.untouched, h.budgets.trans h'.budgets,
    fun e he => h'.ledger e (h.ledger e he),
    fun key hk => (h'.ledgerAt key ((h.untouched.held _).mpr hk)).trans (h.ledgerAt key hk),
    fun key hk => h'.rows key (h.rows key hk)⟩

/-- A change that leaves the committed database alone. -/
theorem Respects.of_committed {limit : Prop} {pid : ℕ} {s s' : BudgetState}
    (hu : Engine.Untouched budgetLook pid s s') (hc : s'.committed = s.committed) :
    Respects limit pid s s' :=
  ⟨hu, by rw [hc]; exact .refl limit _, fun e he => by rw [hc]; exact he,
    fun key _ => by rw [hc], fun key hk => by rw [hc]; exact hk⟩

/-- **What a call keeps between two of its statements**: what it holds, and the
rows and entries it holds the places of; the rest grows. -/
structure Keeps (limit : Prop) (pid : ℕ) (s s' : BudgetState) : Prop where
  held : ∀ k, s.holder k = some pid → s'.holder k = some pid
  row : ∀ k, s.holder k = some pid → budgetLook k s'.committed = budgetLook k s.committed
  ledgerAt : ∀ key, s.holder (.state key) = some pid →
    s'.committed.ledgerAt key = s.committed.ledgerAt key
  budgets : SameBudgets limit s.committed.budgets s'.committed.budgets
  ledger : ∀ e ∈ s.committed.ledger, e ∈ s'.committed.ledger
  rows : ∀ key, (s.committed.states key).isSome → (s'.committed.states key).isSome

theorem Respects.keeps {limit : Prop} {pid : ℕ} {s s' : BudgetState}
    (h : Respects limit pid s s') : Keeps limit pid s s' :=
  ⟨fun k => (h.untouched.held k).mpr, h.untouched.row, h.ledgerAt, h.budgets, h.ledger, h.rows⟩

theorem Keeps.refl (limit : Prop) (pid : ℕ) (s : BudgetState) : Keeps limit pid s s :=
  (Respects.refl limit pid s).keeps

theorem Keeps.trans {limit : Prop} {pid : ℕ} {a b c : BudgetState}
    (h : Keeps limit pid a b) (h' : Keeps limit pid b c) : Keeps limit pid a c :=
  ⟨fun k hk => h'.held k (h.held k hk),
    fun k hk => (h'.row k (h.held k hk)).trans (h.row k hk),
    fun key hk => (h'.ledgerAt key (h.held _ hk)).trans (h.ledgerAt key hk),
    h.budgets.trans h'.budgets, fun e he => h'.ledger e (h.ledger e he),
    fun key hk => h'.rows key (h.rows key hk)⟩

/-- Locks taken on top of what others did. -/
theorem Keeps.of_committed {limit : Prop} {pid : ℕ} {s s' s'' : BudgetState}
    (h : Keeps limit pid s s') (hc : s''.committed = s'.committed)
    (hh : ∀ k, s'.holder k = some pid → s''.holder k = some pid) : Keeps limit pid s s'' :=
  ⟨fun k hk => hh k (h.held k hk), by rw [hc]; exact h.row, by rw [hc]; exact h.ledgerAt,
    by rw [hc]; exact h.budgets, by rw [hc]; exact h.ledger, by rw [hc]; exact h.rows⟩

/-! ## The writes of a transaction -/

/-- **The writes of an open transaction are sound**: it holds what they touch,
they would leave the books in order, and they add `added` to the reserved
totals. -/
structure Sound (ledger limit : Prop) (pid : ℕ) (ws : List BudgetWrite)
    (added : PeriodKey → ℤ) (s : BudgetState) : Prop where
  held : ∀ w ∈ ws, s.holder w.key = some pid
  covered : ∀ e ∈ entriesOf ws, s.holder (.state e.period) = some pid
  present : ∀ e ∈ (budgetEngine.applyAll ws s.committed).ledger,
    ((budgetEngine.applyAll ws s.committed).states e.period).isSome
  balanced : ledger → ∀ key, Balance ((budgetEngine.applyAll ws s.committed).states key)
    ((budgetEngine.applyAll ws s.committed).ledgerAt key)
  fits : limit → Fits (budgetEngine.applyAll ws s.committed)
  added : ∀ key, reservedAt (budgetEngine.applyAll ws s.committed) key
    = reservedAt s.committed key + added key

section Sound

variable {ledger limit : Prop} {pid : ℕ} {ws : List BudgetWrite} {added : PeriodKey → ℤ}
  {s s' : BudgetState}

/-- Nothing written is sound. -/
theorem Sound.nil (h : Books ledger limit s) : Sound ledger limit pid [] (fun _ => 0) s :=
  ⟨fun _ hw => absurd hw List.not_mem_nil, fun _ he => absurd he List.not_mem_nil,
    h.present, h.balanced, h.fits, fun _ => (Int.add_zero _).symm⟩

/-- A period the transaction does not hold is as it is committed. -/
theorem Sound.slice_of_not_held (h : Sound ledger limit pid ws added s) {key : PeriodKey}
    (hk : s.holder (.state key) ≠ some pid) (db : BudgetDb) :
    (budgetEngine.applyAll ws db).states key = db.states key
      ∧ (budgetEngine.applyAll ws db).ledgerAt key = db.ledgerAt key := by
  constructor
  · refine budgetEngine_lawful.look_applyAll (k := .state key) (fun w hw hwk => hk ?_) db
    rw [← hwk]
    exact h.held w hw
  · rw [applyAll_ledgerAt, List.append_right_eq_self, List.filter_eq_nil_iff]
    intro e he hc
    exact hk (of_decide_eq_true hc ▸ h.covered e he)

/-- A period the transaction holds stays as the transaction sees it. -/
theorem Keeps.slice (hr : Keeps limit pid s s') (ws : List BudgetWrite) {key : PeriodKey}
    (hk : s.holder (.state key) = some pid) :
    s'.committed.states key = s.committed.states key
      ∧ (budgetEngine.applyAll ws s'.committed).states key
        = (budgetEngine.applyAll ws s.committed).states key
      ∧ (budgetEngine.applyAll ws s'.committed).ledgerAt key
        = (budgetEngine.applyAll ws s.committed).ledgerAt key := by
  have hrow : s'.committed.states key = s.committed.states key :=
    hr.row (.state key) hk
  refine ⟨hrow, budgetEngine_lawful.look_applyAll_congr (k := .state key) ws hrow, ?_⟩
  rw [applyAll_ledgerAt, applyAll_ledgerAt, hr.ledgerAt key hk]

/-- **What others do keeps the writes sound.** Period by period: the
transaction holds it, and nothing has changed, or it has written nothing
there, and the books are in order. -/
theorem Sound.keep (h : Sound ledger limit pid ws added s) (hb : Books ledger limit s')
    (hr : Keeps limit pid s s') : Sound ledger limit pid ws added s' where
  held w hw := hr.held _ (h.held w hw)
  covered e he := hr.held _ (h.covered e he)
  present e he := by
    have hmem := mem_ledgerAt.mpr ⟨he, rfl⟩
    by_cases hk : s.holder (.state e.period) = some pid
    · obtain ⟨-, hst, hled⟩ := hr.slice ws hk
      rw [hled] at hmem
      rw [hst]
      exact h.present e (mem_ledgerAt.mp hmem).1
    · obtain ⟨hst, hled⟩ := h.slice_of_not_held hk s'.committed
      rw [hled] at hmem
      rw [hst]
      exact hb.present e (mem_ledgerAt.mp hmem).1
  balanced hl key := by
    by_cases hk : s.holder (.state key) = some pid
    · obtain ⟨-, hst, hled⟩ := hr.slice ws hk
      rw [hst, hled]
      exact h.balanced hl key
    · obtain ⟨hst, hled⟩ := h.slice_of_not_held hk s'.committed
      rw [hst, hled]
      exact hb.balanced hl key
  fits hl b' hb' period row hrow := by
    rw [applyAll_budgets] at hb'
    by_cases hk : s.holder (.state ⟨b'.tenantId, b'.id, period⟩) = some pid
    · obtain ⟨b, hmem, hid, hle⟩ := hr.budgets.origin hb'
      obtain ⟨-, hst, -⟩ := hr.slice ws hk
      have ht : b'.tenantId = b.tenantId := congrArg Prod.fst hid
      have hi : b'.id = b.id := congrArg (fun x => x.2.1) hid
      rw [hst, ht, hi] at hrow
      have hfit := h.fits hl b (by rw [applyAll_budgets]; exact hmem) period row hrow
      have hle' := hle hl
      omega
    · rw [(h.slice_of_not_held hk s'.committed).1] at hrow
      exact hb.fits hl b' hb' period row hrow
  added key := by
    by_cases hk : s.holder (.state key) = some pid
    · obtain ⟨hrow, hst, -⟩ := hr.slice ws hk
      have hadd := h.added key
      unfold reservedAt at hadd ⊢
      rw [hst, hrow]
      exact hadd
    · have hadd := h.added key
      unfold reservedAt at hadd ⊢
      rw [(h.slice_of_not_held hk s.committed).1] at hadd
      rw [(h.slice_of_not_held hk s'.committed).1]
      omega

/-- The write is about one period, as far as totals and entries go. -/
def BudgetWrite.Concerns (key : PeriodKey) : BudgetWrite → Prop
  | .setState key' _ => key' = key
  | .insertEntry e => e.period = key
  | .insertAlert .. => True

/-- Writes about one period leave the others alone. -/
theorem slice_of_concerns {key key' : PeriodKey} {ws' : List BudgetWrite}
    (hw : ∀ w ∈ ws', w.Concerns key) (hne : key' ≠ key) (db : BudgetDb) :
    (budgetEngine.applyAll ws' db).states key' = db.states key'
      ∧ (budgetEngine.applyAll ws' db).ledgerAt key' = db.ledgerAt key' := by
  constructor
  · refine budgetEngine_lawful.look_applyAll (k := .state key') (fun w hmem hk => hne ?_) db
    have hcon := hw w hmem
    cases w with
    | setState k row =>
      obtain rfl : k = key' := BudgetRow.state.inj hk
      exact hcon
    | insertEntry e => cases hk
    | insertAlert k level alert => cases hk
  · rw [applyAll_ledgerAt, List.append_right_eq_self, List.filter_eq_nil_iff]
    intro e he hc
    have hcon : e.period = key := hw _ (mem_entriesOf.mp he)
    exact hne ((of_decide_eq_true hc).symm.trans hcon)

/-- **More writes about one period**, which the transaction holds: they are
sound if they leave the books of that period in order. -/
theorem Sound.extend (h : Sound ledger limit pid ws added s) {key : PeriodKey}
    {ws' : List BudgetWrite} {added' : PeriodKey → ℤ}
    (hheld : ∀ w ∈ ws', s.holder w.key = some pid)
    (hkey : s.holder (.state key) = some pid) (hw : ∀ w ∈ ws', w.Concerns key)
    (hpresent : ((budgetEngine.applyAll (ws ++ ws') s.committed).states key).isSome)
    (hbalanced : ledger → Balance ((budgetEngine.applyAll (ws ++ ws') s.committed).states key)
      ((budgetEngine.applyAll (ws ++ ws') s.committed).ledgerAt key))
    (hfits : limit → ∀ b ∈ s.committed.budgets, b.tenantId = key.tenantId →
      b.id = key.budgetId → ∀ row,
      (budgetEngine.applyAll (ws ++ ws') s.committed).states key = some row →
      row.reservedMicros + row.consumedMicros ≤ b.limitMicros + row.allowanceMicros)
    (hadded : ∀ k, added' k = if k = key
      then reservedAt (budgetEngine.applyAll (ws ++ ws') s.committed) key
        - reservedAt s.committed key
      else added k) :
    Sound ledger limit pid (ws ++ ws') added' s := by
  have hother : ∀ k, k ≠ key →
      (budgetEngine.applyAll (ws ++ ws') s.committed).states k
          = (budgetEngine.applyAll ws s.committed).states k
        ∧ (budgetEngine.applyAll (ws ++ ws') s.committed).ledgerAt k
          = (budgetEngine.applyAll ws s.committed).ledgerAt k := by
    intro k hk
    rw [Engine.applyAll_append]
    exact slice_of_concerns hw hk _
  refine ⟨fun w hmem => ?_, fun e he => ?_, fun e he => ?_, fun hl k => ?_,
    fun hl b hb period row hrow => ?_, fun k => ?_⟩
  · rcases List.mem_append.mp hmem with hmem | hmem
    · exact h.held w hmem
    · exact hheld w hmem
  · rw [entriesOf_append] at he
    rcases List.mem_append.mp he with he | he
    · exact h.covered e he
    · have hcon : e.period = key := hw _ (mem_entriesOf.mp he)
      rw [hcon]
      exact hkey
  · by_cases hk : e.period = key
    · rw [hk]
      exact hpresent
    · have hmem := mem_ledgerAt.mpr ⟨he, rfl⟩
      rw [(hother _ hk).2] at hmem
      rw [(hother _ hk).1]
      exact h.present e (mem_ledgerAt.mp hmem).1
  · by_cases hk : k = key
    · rw [hk]
      exact hbalanced hl
    · rw [(hother k hk).1, (hother k hk).2]
      exact h.balanced hl k
  · rw [applyAll_budgets] at hb
    by_cases hk : (⟨b.tenantId, b.id, period⟩ : PeriodKey) = key
    · subst hk
      exact hfits hl b hb rfl rfl row hrow
    · rw [(hother _ hk).1] at hrow
      exact h.fits hl b (by rw [applyAll_budgets]; exact hb) period row hrow
  · rw [hadded k]
    by_cases hk : k = key
    · rw [if_pos hk, hk]
      omega
    · rw [if_neg hk, ← h.added k]
      unfold reservedAt
      rw [(hother k hk).1]

end Sound

/-- Rows of totals stay. -/
theorem isSome_applyAll (ws : List BudgetWrite) {db : BudgetDb} {key : PeriodKey}
    (h : (db.states key).isSome) : ((budgetEngine.applyAll ws db).states key).isSome := by
  induction ws generalizing db with
  | nil => exact h
  | cons w ws ih =>
    refine ih ?_
    cases w with
    | setState k row =>
      show (Function.update db.states k (some row) key).isSome
      by_cases hk : key = k
      · subst hk
        simp
      · simpa [Function.update_of_ne hk] using h
    | insertEntry e => exact h
    | insertAlert k level alert => exact h

/-! ## One period at a time -/

/-- A row of totals fits the limits of its budget. -/
def RowFits (budgets : List Budget) (key : PeriodKey) (row : PeriodState) : Prop :=
  ∀ b ∈ budgets, b.tenantId = key.tenantId → b.id = key.budgetId →
    row.reservedMicros + row.consumedMicros ≤ b.limitMicros + row.allowanceMicros

/-- A fitting row goes on to fit while limits are not lowered. -/
theorem RowFits.same {limit : Prop} {l l' : List Budget} {key : PeriodKey} {row : PeriodState}
    (h : RowFits l key row) (hs : SameBudgets limit l l') (hl : limit) :
    RowFits l' key row := by
  intro b' hb' ht hi
  obtain ⟨b, hb, hid, hle⟩ := hs.origin hb'
  have htb : b'.tenantId = b.tenantId := congrArg Prod.fst hid
  have hib : b'.id = b.id := congrArg (fun x => x.2.1) hid
  have hfit := h b hb (htb.symm.trans ht) (hib.symm.trans hi)
  have hle' := hle hl
  omega

section Periods

variable {ledger limit : Prop} {pid : ℕ} {ws : List BudgetWrite} {s : BudgetState}
  {added : PeriodKey → ℤ} {key : PeriodKey} {row row' : PeriodState}

/-- The rows a transaction sees fit. -/
theorem Sound.rowFits (h : Sound ledger limit pid ws added s)
    (hrow : (budgetEngine.applyAll ws s.committed).states key = some row) (hl : limit) :
    RowFits s.committed.budgets key row := by
  intro b hb ht hi
  refine h.fits hl b (by rw [applyAll_budgets]; exact hb) key.periodKey row ?_
  rw [ht, hi]
  exact hrow

/-- A row the transaction sees is one it goes on to see. -/
theorem Sound.isSome_keep (h : Sound ledger limit pid ws added s) {s' : BudgetState}
    (hk : Keeps limit pid s s')
    (hrow : ((budgetEngine.applyAll ws s.committed).states key).isSome) :
    ((budgetEngine.applyAll ws s'.committed).states key).isSome := by
  by_cases hheld : s.holder (.state key) = some pid
  · rw [(hk.slice ws hheld).2.1]
    exact hrow
  · rw [(h.slice_of_not_held hheld s.committed).1] at hrow
    exact isSome_applyAll ws (hk.rows key hrow)

/-- **A change of the books of one period**: from the row `row` to the row
`row'`, with the entries that go with it. -/
theorem Sound.book (h : Sound ledger limit pid ws added s) {ws' : List BudgetWrite}
    (hkey : s.holder (.state key) = some pid)
    (hheld : ∀ w ∈ ws', s.holder w.key = some pid) (hw : ∀ w ∈ ws', w.Concerns key)
    (hrow : (budgetEngine.applyAll ws s.committed).states key = some row)
    (hrow' : (budgetEngine.applyAll (ws ++ ws') s.committed).states key = some row')
    (hbalanced : ledger → Balance (some row')
      ((budgetEngine.applyAll ws s.committed).ledgerAt key
        ++ (entriesOf ws').filter (fun e => e.period = key)))
    (hfits : limit → RowFits s.committed.budgets key row') :
    Sound ledger limit pid (ws ++ ws')
      (fun k => added k + if k = key then row'.reservedMicros - row.reservedMicros else 0) s := by
  refine h.extend hheld hkey hw (by rw [hrow']; rfl) ?_ ?_ ?_
  · intro hl
    rw [hrow', Engine.applyAll_append, applyAll_ledgerAt]
    exact hbalanced hl
  · intro hl b hb ht hi row'' hrow''
    obtain rfl : row' = row'' := Option.some.inj (hrow'.symm.trans hrow'')
    exact hfits hl b hb ht hi
  · intro k
    by_cases hk : k = key
    · subst hk
      have hadd := h.added k
      simp only [reservedAt, hrow, hrow', Option.elim_some, if_true] at hadd ⊢
      omega
    · simp [hk]

/-- An alert is not part of the books. -/
theorem Sound.insertAlert (h : Sound ledger limit pid ws added s) {level : AlertLevel}
    {alert : BudgetAlert} (hheld : s.holder (.alert key level) = some pid) :
    Sound ledger limit pid (ws ++ [BudgetWrite.insertAlert key level alert]) added s where
  held w hw := by
    rcases List.mem_append.mp hw with hw | hw
    · exact h.held w hw
    · obtain rfl := List.mem_singleton.mp hw
      exact hheld
  covered e he := by
    rw [entriesOf_append] at he
    exact h.covered e (by simpa [entriesOf] using he)
  present := by rw [Engine.applyAll_append]; exact h.present
  balanced := by rw [Engine.applyAll_append]; exact h.balanced
  fits := by rw [Engine.applyAll_append]; exact h.fits
  added := by rw [Engine.applyAll_append]; exact h.added

/-- The first row of a period. -/
theorem Sound.insertRow (h : Sound ledger limit pid ws added s)
    (hkey : s.holder (.state key) = some pid)
    (hnone : (budgetEngine.applyAll ws s.committed).states key = none) :
    Sound ledger limit pid (ws ++ [BudgetWrite.setState key .zero]) added s := by
  have hrow' : (budgetEngine.applyAll (ws ++ [BudgetWrite.setState key .zero])
      s.committed).states key
      = some .zero := by
    simp [BudgetWrite.apply]
  refine h.extend ?_ hkey ?_ (by rw [hrow']; rfl) ?_ ?_ ?_
  · intro w hw
    obtain rfl := List.mem_singleton.mp hw
    exact hkey
  · intro w hw
    obtain rfl := List.mem_singleton.mp hw
    rfl
  · intro hl
    rw [hrow', Engine.applyAll_append, applyAll_ledgerAt]
    have hbal := h.balanced hl key
    rw [hnone] at hbal
    simpa [entriesOf] using hbal.insertRow
  · intro hl b hb ht hi row hrow
    obtain rfl : PeriodState.zero = row := Option.some.inj (hrow'.symm.trans hrow)
    show (0 : ℤ) + 0 ≤ b.limitMicros + 0
    omega
  · intro k
    by_cases hk : k = key
    · subst hk
      have hadd := h.added k
      simp only [reservedAt, hnone, hrow', Option.elim_none, Option.elim_some, if_true] at hadd ⊢
      simp only [PeriodState.zero]
      omega
    · simp [hk]

end Periods

/-! ## What a request guarantees -/

/-- The other way of closing a reservation. -/
def LedgerEntryType.opposite : LedgerEntryType → LedgerEntryType
  | .SETTLE => .RELEASE
  | .RELEASE => .SETTLE
  | type => type

/-- **A reservation is closed in one way, and a contingency reservation in
none**: the condition, if `ledger`, on a request that newly enters a
settlement or a release. -/
def closesOnce (ledger : Prop) (pid : ℕ) :
    Choice Moment → TxOp BudgetOp → BudgetState → Prop
  | .serve _, .run (.appendLedger (some reserveId) draft), s =>
    ledger → draft.entryType.closes = true →
      (budgetEngine.view s pid).findEntry draft.period reserveId draft.entryType = none →
      draft.contingency = false
        ∧ ¬ Claimed s draft.period reserveId draft.entryType.opposite
  | _, _, _ => True

/-- The requests the service makes: an entry with a reservation of its own
closes nothing, any other belongs to a reservation that has been drawn. -/
def BudgetOp.Proper (op : BudgetOp) (s : BudgetState) : Prop :=
  match op with
  | .appendLedger (some reserveId) _ => reserveId < s.ext
  | .appendLedger none draft => draft.entryType.closes = false
  | _ => True

/-- What a request of `pid` guarantees to the others. -/
def Guarantees (ledger limit : Prop) (pid : ℕ) (s s' : BudgetState) : Prop :=
  Books ledger limit s' ∧ ∀ q, q ≠ pid → Respects limit q s s'

/-- A statement enters an entry into the ledger only if it says so. -/
theorem exec_entries {a : Moment} {op : BudgetOp} {db : BudgetDb} {x : Uuid} {e : LedgerEntry}
    (h : e ∈ entriesOf (op.exec a db x).2) :
    ∃ reserveId draft, op = .appendLedger reserveId draft ∧ e = ⟨draft, reserveId.getD x⟩ := by
  have hupdate : ∀ (key : PeriodKey) guard change,
      e ∉ entriesOf (updateState db key guard change).2 := by
    intro key guard change
    unfold updateState
    split
    · simp
    · split
      · split <;> simp [entriesOf]
      · simp
  cases op with
  | clock => simp [BudgetOp.exec] at h
  | selectBudgets t => simp [BudgetOp.exec] at h
  | selectBudget t id => simp [BudgetOp.exec] at h
  | selectState key => simp [BudgetOp.exec] at h
  | ensureStateRow key =>
    simp only [BudgetOp.exec] at h
    split at h
    · simp at h
    · split at h <;> simp [entriesOf] at h
  | reserveState key amount lim => exact absurd h (hupdate key _ _)
  | drawContingency key amount lim => exact absurd h (hupdate key _ _)
  | changeState key r c al => exact absurd h (hupdate key _ _)
  | appendLedger reserveId draft =>
    simp only [BudgetOp.exec] at h
    split at h
    · simp at h
    · split at h
      · simp at h
      · refine ⟨reserveId, draft, rfl, ?_⟩
        simpa [entriesOf] using h
  | insertAlert key level used lim =>
    simp only [BudgetOp.exec] at h
    split at h
    · simp at h
    · split at h <;> simp [entriesOf] at h

/-- A statement takes the place of an entry only if it may enter it. -/
theorem locks_entry {op : BudgetOp} {db : BudgetDb} {x : Uuid} {key : PeriodKey} {id : Uuid}
    {type : LedgerEntryType} (h : .entry key id type ∈ op.locks db x) :
    ∃ reserveId draft, op = .appendLedger reserveId draft ∧ draft.period = key
      ∧ reserveId.getD x = id ∧ draft.entryType = type
      ∧ db.findEntry key id type = none := by
  cases op with
  | appendLedger reserveId draft =>
    simp only [BudgetOp.locks] at h
    split at h
    · cases h
    · rename_i hnone
      obtain ⟨rfl, rfl, rfl⟩ := BudgetRow.entry.inj (List.mem_singleton.mp h)
      exact ⟨reserveId, draft, rfl, rfl, rfl, rfl, by simpa using hnone⟩
  | insertAlert k level used lim =>
    simp only [BudgetOp.locks] at h
    split at h <;> simp at h
  | clock => cases h
  | selectBudgets t => cases h
  | selectBudget t i => cases h
  | ensureStateRow k => simp only [BudgetOp.locks] at h; split at h <;> simp at h
  | selectState k => simp only [BudgetOp.locks] at h; split at h <;> simp at h
  | reserveState k am lim => simp only [BudgetOp.locks] at h; split at h <;> simp at h
  | drawContingency k am lim => simp only [BudgetOp.locks] at h; split at h <;> simp at h
  | changeState k r c al => simp only [BudgetOp.locks] at h; split at h <;> simp at h

theorem le_draws (op : BudgetOp) (x : Uuid) : x ≤ op.draws x := by
  unfold BudgetOp.draws
  split
  · exact Nat.le_succ x
  · exact Nat.le_refl x

section Guarantees

variable {ledger limit : Prop} {pid : ℕ} {s : BudgetState} {ws : List BudgetWrite}

/-- Two ways of closing one reservation are never claimed at once, after a
request that meets `closesOnce`. -/
theorem Books.exclusive_ran (h : Books ledger limit s) {op : BudgetOp} {a : Moment}
    (hp : s.pending pid = some ws) (hproper : op.Proper s)
    (hallow : closesOnce ledger pid (.serve a) (.run op) s) (hl : ledger) (key : PeriodKey)
    (id : Uuid) (hs : Claimed (budgetEngine.ran pid a op s) key id .SETTLE) :
    ¬ Claimed (budgetEngine.ran pid a op s) key id .RELEASE := by
  intro hr
  have hcases : ∀ type, Claimed (budgetEngine.ran pid a op s) key id type →
      Claimed s key id type
        ∨ .entry key id type ∈ op.locks (budgetEngine.view s pid) s.ext := by
    intro type hc
    simp only [Engine.ran, Engine.perform, hp, Claimed] at hc
    rcases hc with hc | hc
    · exact .inl (.inl hc)
    · split at hc
      · rename_i hmem
        exact .inr hmem
      · exact .inl (.inr hc)
  -- a newly taken place belongs to an entry that closes, so `closesOnce` applies
  have hnew : ∀ type : LedgerEntryType, type.closes = true →
      .entry key id type ∈ op.locks (budgetEngine.view s pid) s.ext →
      ¬ Claimed s key id type.opposite
        ∧ .entry key id type.opposite ∉ op.locks (budgetEngine.view s pid) s.ext := by
    intro type hclose hmem
    obtain ⟨reserveId, draft, rfl, hperiod, hid, htype, hnone⟩ := locks_entry hmem
    cases reserveId with
    | none =>
      have hc : draft.entryType.closes = false := hproper
      rw [htype, hclose] at hc
      cases hc
    | some i =>
      obtain rfl : i = id := hid
      subst hperiod htype
      refine ⟨(hallow hl hclose hnone).2, fun hmem' => ?_⟩
      obtain ⟨_, draft', heq, -, -, htype', -⟩ := locks_entry hmem'
      cases heq
      revert htype' hclose
      cases draft.entryType <;> simp [LedgerEntryType.closes, LedgerEntryType.opposite]
  rcases hcases _ hs with hs' | hs'
  · rcases hcases _ hr with hr' | hr'
    · exact h.exclusive hl key id hs' hr'
    · exact (hnew .RELEASE rfl hr').1 hs'
  · obtain ⟨hno, hno'⟩ := hnew .SETTLE rfl hs'
    rcases hcases _ hr with hr' | hr'
    · exact hno hr'
    · exact hno' hr'

/-- **A statement in a transaction guarantees the books**, whatever it is. -/
theorem Books.guarantees_ran (h : Books ledger limit s) {op : BudgetOp} {a : Moment}
    (hp : s.pending pid = some ws)
    (hfree : (op.locks (budgetEngine.view s pid) s.ext).all (Engine.free s pid) = true)
    (hproper : op.Proper s) (hallow : closesOnce ledger pid (.serve a) (.run op) s) :
    Guarantees ledger limit pid s (budgetEngine.ran pid a op s) := by
  have hmoves : budgetEngine.Moves pid s (budgetEngine.ran pid a op s) := .perform a op hfree
  have hcommitted : (budgetEngine.ran pid a op s).committed = s.committed := by
    simp only [Engine.ran, Engine.perform, hp]
  refine ⟨⟨budgetEngine_lawful.owned_of_moves h.owned hmoves, ?_, ?_, ?_, ?_, ?_, ?_, ?_⟩, ?_⟩
  · intro e he
    rw [hcommitted] at he
    simp only [Engine.ran, Engine.perform, hp]
    exact Nat.lt_of_lt_of_le (h.drawn e he) (le_draws op s.ext)
  · intro q ws' hq e he
    simp only [Engine.ran, Engine.perform, hp] at hq ⊢
    have hold : ∀ ws, s.pending q = some ws → e ∈ entriesOf ws →
        e.reserveId < op.draws s.ext := fun ws hws hmem =>
      Nat.lt_of_lt_of_le (h.drawn_pending q ws hws e hmem) (le_draws op s.ext)
    by_cases hqp : q = pid
    · subst hqp
      simp only [Function.update_self, Option.some.injEq] at hq
      subst hq
      rw [entriesOf_append] at he
      rcases List.mem_append.mp he with he | he
      · exact hold ws hp he
      · obtain ⟨reserveId, draft, rfl, rfl⟩ := exec_entries he
        cases reserveId with
        | none => exact Nat.lt_succ_self s.ext
        | some id => exact hproper
    · simp only [Function.update_of_ne hqp] at hq
      exact hold ws' hq he
  · rw [hcommitted]; exact h.present
  · rw [hcommitted]; exact h.distinct
  · rw [hcommitted]; exact h.balanced
  · exact fun hl key id => h.exclusive_ran hp hproper hallow hl key id
  · rw [hcommitted]; exact h.fits
  · intro q hq
    exact .of_committed (budgetEngine_lawful.untouched_of_other hq h.owned hmoves) hcommitted

/-- Opening a transaction guarantees the books. -/
theorem Books.guarantees_opened (h : Books ledger limit s) (pid : ℕ) :
    Guarantees ledger limit pid s (Engine.opened s pid) := by
  have hmoves : budgetEngine.Moves pid s (Engine.opened s pid) := .begin
  refine ⟨⟨budgetEngine_lawful.owned_of_moves h.owned hmoves, h.drawn, ?_, h.present,
    h.distinct, h.balanced, h.exclusive, h.fits⟩, fun q hq =>
      .of_committed (budgetEngine_lawful.untouched_of_other hq h.owned hmoves) rfl⟩
  intro q ws hq e he
  by_cases hqp : q = pid
  · subst hqp
    simp only [Engine.opened, Function.update_self, Option.some.injEq] at hq
    subst hq
    cases he
  · simp only [Engine.opened, Function.update_of_ne hqp] at hq
    exact h.drawn_pending q ws hq e he

/-- Nobody gains a row when a transaction ends. -/
theorem holder_close {k : BudgetRow} (h : (Engine.close s pid).holder k ≠ none) :
    s.holder k ≠ none := by
  simp only [Engine.close] at h
  split at h
  · exact absurd rfl h
  · exact h

/-- Writes still pending after a transaction ended were pending before. -/
theorem pending_close {q : ℕ} (h : (Engine.close s pid).pending q = some ws) :
    s.pending q = some ws := by
  by_cases hqp : q = pid
  · subst hqp
    simp [Engine.close] at h
  · simpa only [Engine.close, Function.update_of_ne hqp] using h

/-- Ending a transaction without a commit guarantees the books. -/
theorem Books.guarantees_close (h : Books ledger limit s) (pid : ℕ) :
    Guarantees ledger limit pid s (Engine.close s pid) := by
  have hmoves : budgetEngine.Moves pid s (Engine.close s pid) := .close
  refine ⟨⟨budgetEngine_lawful.owned_of_moves h.owned hmoves, h.drawn,
    fun q ws hq => h.drawn_pending q ws (pending_close hq), h.present, h.distinct, h.balanced,
    fun hl key id hs hr => ?_, h.fits⟩, fun q hq =>
      .of_committed (budgetEngine_lawful.untouched_of_other hq h.owned hmoves) rfl⟩
  exact h.exclusive hl key id (hs.imp_right holder_close) (hr.imp_right holder_close)

/-- What the writes of a transaction enter is entered or claimed before. -/
theorem Claimed.of_publish {added : PeriodKey → ℤ} (h : Sound ledger limit pid ws added s)
    (hp : s.pending pid = some ws) {key : PeriodKey} {id : Uuid} {type : LedgerEntryType}
    (hc : Claimed (budgetEngine.publish s pid) key id type) : Claimed s key id type := by
  rcases hc with hc | hc
  · by_cases hold : s.committed.findEntry key id type = none
    · obtain ⟨e, he⟩ := Option.ne_none_iff_exists'.mp hc
      have hmem := List.mem_of_find?_eq_some he
      have htest := List.find?_some (p := fun e : LedgerEntry =>
        decide (e.period = key ∧ e.reserveId = id ∧ e.entryType = type)) he
      obtain ⟨hperiod, hid, htype⟩ := of_decide_eq_true htest
      simp only [Engine.publish, Engine.close, Engine.install, Engine.view, hp,
        applyAll_ledger] at hmem
      rcases List.mem_append.mp hmem with hmem | hmem
      · refine absurd htype (findEntry_eq_none.mp hold e (mem_ledgerAt.mpr ⟨hmem, hperiod⟩) hid)
      · have hheld : s.holder (.entry e.period e.reserveId e.entryType) = some pid :=
          h.held _ (mem_entriesOf.mp hmem)
        rw [hperiod, hid, htype] at hheld
        exact .inr (by rw [hheld]; exact Option.some_ne_none pid)
    · exact .inl hold
  · exact .inr (holder_close (s := Engine.install s pid (budgetEngine.view s pid)) hc)

/-- **A commit of sound writes guarantees the books.** -/
theorem Sound.guarantees_publish {added : PeriodKey → ℤ}
    (h : Sound ledger limit pid ws added s) (hb : Books ledger limit s)
    (hp : s.pending pid = some ws) :
    Guarantees ledger limit pid s (budgetEngine.publish s pid) := by
  have hmoves : budgetEngine.Moves pid s (budgetEngine.publish s pid) := .publish
  have hview : (budgetEngine.publish s pid).committed
      = budgetEngine.applyAll ws s.committed := by
    simp only [Engine.publish, Engine.close, Engine.install, Engine.view, hp]
  refine ⟨⟨budgetEngine_lawful.owned_of_moves hb.owned hmoves, ?_, ?_, ?_, ?_, ?_, ?_, ?_⟩,
    fun q hq => ⟨budgetEngine_lawful.untouched_of_other hq hb.owned hmoves, ?_, ?_, ?_, ?_⟩⟩
  · intro e he
    rw [hview, applyAll_ledger] at he
    rcases List.mem_append.mp he with he | he
    · exact hb.drawn e he
    · exact hb.drawn_pending pid ws hp e he
  · exact fun q ws' hq => hb.drawn_pending q ws'
      (pending_close (s := Engine.install s pid (budgetEngine.view s pid)) hq)
  · rw [hview]; exact h.present
  · rw [hview, applyAll_budgets]; exact hb.distinct
  · rw [hview]; exact h.balanced
  · exact fun hl key id hs hr =>
      hb.exclusive hl key id (.of_publish h hp hs) (.of_publish h hp hr)
  · rw [hview]; exact h.fits
  · rw [hview, applyAll_budgets]; exact .refl limit _
  · intro e he
    rw [hview, applyAll_ledger]
    exact List.mem_append_left _ he
  · intro key hk
    rw [hview]
    refine (h.slice_of_not_held (fun hpid => hq ?_) s.committed).2
    rw [hk] at hpid
    exact Option.some.inj hpid
  · intro key hk
    rw [hview]
    exact isSome_applyAll ws hk

end Guarantees
