import AgentPlatform.StorageDiscipline

/-!
# The programs of the control plane, one by one

Each handler and each phase of the worker, from its first statement to the point where
it may commit. The rules are those of `ChangeLog`; what a transaction rests on is the
row it has locked (`Locked`), the entries of its tenant in the two partial indexes, and
for a validation what it has seen of the adapters.
-/

/-! ## Effects on the adapters -/

/-- The tenant an adapter is asked about. -/
def AdapterOp.tenant : AdapterOp → String
  | .snapshotTenant _ _ t => t
  | .changesSince _ _ t _ => t
  | .applyChanges _ _ t _ => t

theorem OnlyTenant.refl (t : String) (x : StorageExt) : OnlyTenant t x x :=
  fun _ _ _ _ => ⟨rfl, rfl⟩

/-- An adapter that is set leaves the others. -/
theorem entries_set_of_ne {stores : AdapterStores} {written : Uuid → ℕ → String → Bool}
    {p p' : Uuid} {i i' : ℕ} {a : MemoryAdapter} (h : (p', i') ≠ (p, i)) (t : String) :
    (StorageExt.mk (stores.set p i a) written).entries p' i' t
      = (StorageExt.mk stores written).entries p' i' t := by
  show (((stores.set p i a) p' i').snapshotTenant t).2 = ((stores p' i').snapshotTenant t).2
  unfold AdapterStores.set
  rw [if_neg (fun heq => h (Prod.ext heq.1 heq.2))]

theorem entries_set_self {stores : AdapterStores} {written : Uuid → ℕ → String → Bool} {p : Uuid}
    {i : ℕ} {a : MemoryAdapter} (t : String) :
    (StorageExt.mk (stores.set p i a) written).entries p i t = (a.snapshotTenant t).2 := by
  show (((stores.set p i a) p i).snapshotTenant t).2 = _
  unfold AdapterStores.set
  rw [if_pos ⟨rfl, rfl⟩]

/-- What a migration asks of an adapter is about one tenant. -/
theorem AdapterOp.only (op : AdapterOp) (x : StorageExt) :
    OnlyTenant op.tenant x { x with stores := (op.serve x.stores).2 } := by
  cases op with
  | snapshotTenant p i t => exact OnlyTenant.refl t x
  | changesSince p i t w => exact OnlyTenant.refl t x
  | applyChanges p i t cs =>
    intro p' i' t' ht
    refine ⟨?_, rfl⟩
    by_cases hk : (p', i') = (p, i)
    · obtain ⟨rfl, rfl⟩ := Prod.mk.inj hk
      refine (entries_set_self t').trans ?_
      exact MemoryAdapter.snapshotTenant_applyChanges_of_ne _ ht cs
    · exact entries_set_of_ne hk t'

/-- What an operation of the business does to the adapter it writes to. -/
theorem writeAdapter_of_ne (a : MemoryAdapter) {t t' : String} (ht : t' ≠ t) (key : String)
    (value : Option Bytes) :
    ((StorageOp.writeAdapter a t key value).snapshotTenant t').2 = (a.snapshotTenant t').2 := by
  cases value with
  | none => exact a.snapshotTenant_eraseTenant_of_ne ht
  | some v => exact a.snapshotTenant_put_of_ne ht key v

theorem businessWrote (x : StorageExt) (t : String) (p : Uuid) (i : ℕ) (a : MemoryAdapter)
    (ha : ∀ t', t' ≠ t → (a.snapshotTenant t').2 = x.entries p i t') :
    BusinessWrote t p i x ⟨x.stores.set p i a,
      fun p' i' t' => if p' = p ∧ i' = i ∧ t' = t then true else x.written p' i' t'⟩ where
  only := by
    intro p' i' t' ht
    refine ⟨?_, if_neg (fun h => ht h.2.2)⟩
    by_cases hk : (p', i') = (p, i)
    · obtain ⟨rfl, rfl⟩ := Prod.mk.inj hk
      exact (entries_set_self t').trans (ha t' ht)
    · exact entries_set_of_ne hk t'
  others := by
    intro p' j hk
    exact ⟨entries_set_of_ne hk t, if_neg (fun h => hk (Prod.ext h.1 h.2.1))⟩
  written := if_pos ⟨rfl, rfl, rfl⟩

/-- The fingerprint of an adapter is about one tenant. -/
theorem onlyTenant_fingerprint (x : StorageExt) (p : Uuid) (i : ℕ) (t : String) :
    OnlyTenant t x { x with written := fun p' i' t' =>
      if p' = p ∧ i' = i ∧ t' = t then false else x.written p' i' t' } :=
  fun _ _ _ ht => ⟨rfl, if_neg (fun h => ht h.2.2)⟩

/-! ## Rules -/

section Programs

variable {sha256 : Bytes → String} {adapters : Uuid → Uuid → Uuid → ℕ} {strict : Prop}
  {valid : Uuid → Prop} {allow : Choice StorageSupply → TxOp StorageOp → StorageState → Prop}
  {pid : ℕ} {s : StorageState} {ws : List StorageWrite} {F : StorageState → Prop}
  {Z : PyException → StorageState → Prop}

variable (sha256 adapters strict valid) in
/-- What is committed is a history of changes. -/
abbrev Chronicle (s : StorageState) : Prop :=
  (storageEngine sha256).Recorded (controlRegime sha256 adapters strict valid) s

variable (sha256 adapters strict valid) in
/-- A program commits changes only. -/
abbrev Controls (allow : Choice StorageSupply → TxOp StorageOp → StorageState → Prop) (pid : ℕ)
    {α : Type} (p : StorageProg α) (Q : Except PyException α → StorageState → Prop)
    (s : StorageState) : Prop :=
  (storageEngine sha256).Records storageLook (controlRegime sha256 adapters strict valid) allow pid
    p Q s

variable (sha256 adapters strict valid) in
/-- A fact that lasts while a transaction is open. -/
abbrev Footing (pid : ℕ) (F : StorageState → Prop) : Prop :=
  (storageEngine sha256).Firm storageLook (controlRegime sha256 adapters strict valid) pid F

variable (sha256 adapters strict valid) in
/-- A transaction may commit. -/
abbrev Closes (pid : ℕ) (s : StorageState) : Prop :=
  (storageEngine sha256).MayCommit storageLook (controlRegime sha256 adapters strict valid) pid s

/-- What a transaction has written so far, and what it rests on. -/
abbrev Amid (pid : ℕ) (ws : List StorageWrite) (F : StorageState → Prop) (s : StorageState) :
    Prop :=
  s.pending pid = some ws ∧ F s

/-- The view of a transaction. -/
abbrev seen (ws : List StorageWrite) (db : StorageDb) : StorageDb :=
  ws.foldl (fun d w => w.apply d) db

/-- **Statement rule.** The statement fails for good, or it answers and adds its writes. -/
theorem controls_stmt {op : StorageOp} {P : StorageRes op → StorageState → Prop}
    (hZ : ∀ s', Z .sqlAlchemy s') (hF : Footing sha256 adapters strict valid pid F)
    (hs : Amid pid ws F s)
    (h : ∀ a s₁, Chronicle sha256 adapters strict valid s₁ → F s₁ →
      allow (.serve a) (.run op) s₁ →
      (op.exec sha256 a (Engine.free s₁ pid) (seen ws s₁.committed) s₁.ext
          = (.error .sqlAlchemy, [], s₁.ext))
        ∨ ∃ r new, op.exec sha256 a (Engine.free s₁ pid) (seen ws s₁.committed) s₁.ext
            = (.ok r, new, s₁.ext)
          ∧ ∀ s₂, s₂.committed = s₁.committed →
            (∀ k ∈ op.locks (Engine.free s₁ pid) (seen ws s₁.committed), s₂.holder k = some pid) →
            Amid pid (ws ++ new) F s₂ → P r s₂) :
    Controls sha256 adapters strict valid allow pid (storage op) (Prog.outcome P Z) s := by
  refine controlRegime_sound.records_step hF hs (fun s₁ _ _ => hZ s₁)
    (fun s₁ s₂ a hr hws hF₁ hallow => ?_)
  have hexec : ∀ y, op.exec sha256 a (Engine.free s₁ pid) (seen ws s₁.committed) s₁.ext = y →
      (storageEngine sha256).exec a op (Engine.free s₁ pid)
        ((storageEngine sha256).applyAll ws s₁.committed) s₁.ext = y := fun y hy => hy
  rcases h a s₁ hr hF₁ hallow with he | ⟨r, new, he, hP⟩
  · rw [hexec _ he]
    exact ⟨rfl, fun _ _ _ => hZ s₂⟩
  · rw [hexec _ he]
    refine ⟨rfl, fun hgrew _ hF₂ => hP s₂ hgrew.committed hgrew.locked ⟨?_, hF₂⟩⟩
    exact hgrew.pending ws hws

/-- **Statement rule**, for a statement that only reads. -/
theorem controls_read {op : StorageOp} {P : StorageRes op → StorageState → Prop}
    (hZ : ∀ s', Z .sqlAlchemy s') (hF : Footing sha256 adapters strict valid pid F)
    (hs : Amid pid ws F s)
    (h : ∀ a s₁, Chronicle sha256 adapters strict valid s₁ → F s₁ →
      ∃ r, op.exec sha256 a (Engine.free s₁ pid) (seen ws s₁.committed) s₁.ext
          = (.ok r, [], s₁.ext)
        ∧ ∀ s₂, s₂.committed = s₁.committed →
            (∀ k ∈ op.locks (Engine.free s₁ pid) (seen ws s₁.committed), s₂.holder k = some pid) →
            Amid pid ws F s₂ → P r s₂) :
    Controls sha256 adapters strict valid allow pid (storage op) (Prog.outcome P Z) s := by
  refine controls_stmt hZ hF hs (fun a s₁ hr hF₁ _ => .inr ?_)
  obtain ⟨r, he, hP⟩ := h a s₁ hr hF₁
  refine ⟨r, [], he, fun s₂ hc hl hs₂ => hP s₂ hc hl ?_⟩
  rw [List.append_nil] at hs₂
  exact hs₂

/-- The row that is locked stays. -/
theorem footing_locked (t id : Uuid) (m : StorageMigration) :
    Footing sha256 adapters strict valid pid (Locked pid t id m) where
  stands s s' h _ hst := by
    obtain ⟨hheld, hrow⟩ := h
    exact ⟨(hst.untouched.held _).mpr hheld, (hst.untouched.row (.migration t id) hheld).trans hrow⟩
  grew ls ws s s' h hg _ := ⟨hg.held _ h.held, by rw [hg.committed]; exact h.row⟩

theorem footing_true : Footing sha256 adapters strict valid pid (fun _ => True) :=
  ⟨fun _ _ _ _ _ => trivial, fun _ _ _ _ _ _ _ => trivial⟩

/-- `tenant_transaction` begins with the tenant, and with nothing else. -/
theorem controls_transaction {α : Type} {t : Uuid} {body : Timestamp → StorageProg α}
    (hbody : ∀ now s₁, Amid pid [] (fun _ => True) s₁ →
      Controls sha256 adapters strict valid allow pid (body now)
        (Prog.outcome (fun _ => Closes sha256 adapters strict valid pid) (fun _ _ => True)) s₁) :
    Controls sha256 adapters strict valid allow pid (storageTransaction t body)
      (fun _ _ => True) s := by
  refine controlRegime_sound.records_transaction (fun s₁ hr hst => ?_)
  have hopened : Amid pid [] (fun _ => True) (Engine.opened s₁ pid) := by
    refine ⟨?_, trivial⟩
    simp [Engine.opened]
  have htenant : Controls sha256 adapters strict valid allow pid (storage (.setTenant t))
      (Prog.outcome (fun _ => Amid pid [] (fun _ => True)) (fun _ _ => True))
      (Engine.opened s₁ pid) :=
    controls_read (fun _ => trivial) footing_true hopened
      (fun a s₂ _ _ => ⟨a.now, rfl, fun _ _ _ h => h⟩)
  exact htenant.bind (fun now s₂ hs₂ => hbody now s₂ hs₂) (fun _ _ h => h)

/-! ## One migration -/

/-- The row a transaction sees, if it has not written to it. -/
theorem seen_migration {ws : List StorageWrite} {t id : Uuid}
    (hws : ∀ w ∈ ws, w.key ≠ .migration t id) (db : StorageDb) :
    (seen ws db).migrations t id = db.migrations t id :=
  (storageEngine_lawful (fun _ => "")).look_applyAll (k := .migration t id) hws db

/-- **`_migration`** returns a row that is locked. -/
theorem controls_lockedMigration {t id : Uuid} (hs : Amid pid [] (fun _ => True) s) :
    Controls sha256 adapters strict valid allow pid (lockedMigration t id)
      (Prog.outcome (fun row s' => (row.tenantId = t ∧ row.id = id)
        ∧ Amid pid [] (Locked pid t id row) s') (fun _ _ => True)) s := by
  have hlock : Controls sha256 adapters strict valid allow pid (storage (.lockMigration t id))
      (Prog.outcome (fun found s' => ∀ row, found = some row →
        (row.tenantId = t ∧ row.id = id) ∧ Amid pid [] (Locked pid t id row) s')
        (fun _ _ => True)) s := by
    refine controls_read (fun _ => trivial) footing_true hs (fun a s₁ hr _ => ?_)
    refine ⟨s₁.committed.migrations t id, rfl, fun s₂ hc hl hs₂ row hrow => ?_⟩
    have hat := (controlOk_of_recorded hr).row t id row hrow
    refine ⟨⟨hat.tenantId, hat.id⟩, hs₂.1, hl _ (List.mem_singleton_self _), ?_⟩
    rw [hc]
    exact hrow
  refine hlock.bind (fun found s' hfound => ?_) (fun _ _ h => h)
  cases found with
  | none => trivial
  | some row => exact hfound row rfl

/-- **The `UPDATE` of a locked row.** -/
theorem controls_updateAudited {m : StorageMigration} {u : MigrationUpdate} {action : String}
    (hZ : ∀ s', Z .sqlAlchemy s') (hF : Footing sha256 adapters strict valid pid F)
    (hlock : ∀ s', F s' → Locked pid m.tenantId m.id m s')
    (hws : ∀ w ∈ ws, w.key ≠ .migration m.tenantId m.id) (hs : Amid pid ws F s) :
    Controls sha256 adapters strict valid allow pid (updateAudited m u action)
      (Prog.outcome (fun _ => Amid pid (ws ++ [StorageWrite.update m.tenantId m.id u]) F) Z) s := by
  have hupdate : Controls sha256 adapters strict valid allow pid
      (storage (.updateMigration m.tenantId m.id u))
      (Prog.outcome (fun _ => Amid pid (ws ++ [StorageWrite.update m.tenantId m.id u]) F) Z) s := by
    refine controls_stmt hZ hF hs (fun a s₁ _ hF₁ _ => .inr ?_)
    have hrow : (seen ws s₁.committed).migrations m.tenantId m.id = some m :=
      (seen_migration hws _).trans (hlock s₁ hF₁).row
    refine ⟨some (u.apply m), [.update m.tenantId m.id u], ?_, fun _ _ _ h => h⟩
    simp only [StorageOp.exec, hrow]
  refine hupdate.bind (fun _ s₁ hs₁ => ?_) (fun _ _ h => h)
  have haudit : Controls sha256 adapters strict valid allow pid (storage (.insertAudit action))
      (Prog.outcome (fun _ => Amid pid (ws ++ [StorageWrite.update m.tenantId m.id u]) F) Z) s₁ :=
    controls_read hZ hF hs₁ (fun _ _ _ _ => ⟨(), rfl, fun _ _ _ h => h⟩)
  exact haudit.bind (fun _ _ h => h) (fun _ _ h => h)

/-- A row that is replaced leaves the evidence of the others. -/
theorem EvidenceHolds.of_replaced {db db' : StorageDb} {x : StorageExt} {m' : StorageMigration}
    {t id : Uuid} (h : EvidenceHolds sha256 adapters valid db x)
    (hrows : db'.migrations = setAt db.migrations t id (some m'))
    (hready : m'.state = .READY_TO_SWITCH → TextsApart valid →
      (∀ i < adapters t m'.sourceProfileId m'.targetProfileId,
        x.written m'.sourceProfileId i (Uuid.str t) = false) →
      x.Agree sha256 (Uuid.str t) m'.sourceProfileId m'.targetProfileId
        (adapters t m'.sourceProfileId m'.targetProfileId)) :
    EvidenceHolds sha256 adapters valid db' x := by
  intro hv t' id' m'' hm'' hstate hw
  rw [hrows] at hm''
  by_cases hk : t' = t ∧ id' = id
  · obtain ⟨rfl, rfl⟩ := hk
    rw [setAt_self] at hm''
    obtain rfl := Option.some.inj hm''
    exact hready hstate hv hw
  · rw [setAt_of_ne _ _ hk] at hm''
    exact h hv t' id' m'' hm'' hstate hw

/-- What a transaction writes apart from migrations and active profiles. -/
structure Beside (ws : List StorageWrite) (db : StorageDb) : Prop where
  migrations : (seen ws db).migrations = db.migrations
  order : (seen ws db).order = db.order
  active : (seen ws db).active = db.active
  profiles : ProfilesStay db (seen ws db)

/-- The writes to other tables. -/
def StorageWrite.isBeside : StorageWrite → Bool
  | .profile .. | .nameEntry .. | .claim .. | .checkpoint .. => true
  | _ => false

theorem profilesStay_setAt (db : StorageDb) (t id : Uuid) (row : StorageProfileRow) (t' id' : Uuid)
    (h : (db.profiles t' id').isSome) : (setAt db.profiles t id (some row) t' id').isSome := by
  unfold setAt
  split
  · rfl
  · exact h

theorem beside_of_all {ws : List StorageWrite} (h : ∀ w ∈ ws, w.isBeside = true) (db : StorageDb) :
    Beside ws db := by
  induction ws generalizing db with
  | nil => exact ⟨rfl, rfl, rfl, fun _ _ h => h⟩
  | cons w ws ih =>
    obtain ⟨hm, ho, ha, hp⟩ := ih (fun w' hw' => h w' (List.mem_cons_of_mem w hw')) (w.apply db)
    have hw := h w List.mem_cons_self
    cases w with
    | profile t id row =>
      exact ⟨hm, ho, ha, fun t' id' hid => hp t' id' (profilesStay_setAt db t id row t' id' hid)⟩
    | nameEntry t name id => exact ⟨hm, ho, ha, hp⟩
    | claim kind fingerprint t => exact ⟨hm, ho, ha, hp⟩
    | checkpoint t id row => exact ⟨hm, ho, ha, hp⟩
    | _ => cases hw

/-- What an update leaves of the view. -/
theorem seen_update (ws : List StorageWrite) (t id : Uuid) (u : MigrationUpdate) (db : StorageDb) :
    seen (ws ++ [StorageWrite.update t id u]) db = (StorageWrite.update t id u).apply
      (seen ws db) := by
  rw [seen, List.foldl_append]
  rfl

/-- **A transaction that takes one step of its migration may commit.** -/
theorem closes_step {m : StorageMigration} {u : MigrationUpdate} (hu : MigrationStep m u)
    (hF : Footing sha256 adapters strict valid pid F)
    (hlock : ∀ s', F s' → Locked pid m.tenantId m.id m s') (hbeside : ∀ w ∈ ws, w.isBeside = true)
    (hready : ∀ s', F s' → (u.apply m).state = .READY_TO_SWITCH → TextsApart valid →
      (∀ i < adapters m.tenantId m.sourceProfileId m.targetProfileId,
        s'.ext.written m.sourceProfileId i (Uuid.str m.tenantId) = false) →
      s'.ext.Agree sha256 (Uuid.str m.tenantId) m.sourceProfileId m.targetProfileId
        (adapters m.tenantId m.sourceProfileId m.targetProfileId))
    (hs : Amid pid (ws ++ [StorageWrite.update m.tenantId m.id u]) F s) :
    Closes sha256 adapters strict valid pid s := by
  refine hF.mayCommit hs (fun s₁ hr _ hF₁ hview => ?_)
  have hrow := (hlock s₁ hF₁).row
  obtain ⟨hmig, horder, hactive, hprof⟩ := beside_of_all hbeside s₁.committed
  have hseen := seen_update ws m.tenantId m.id u s₁.committed
  have hrows : (seen (ws ++ [StorageWrite.update m.tenantId m.id u]) s₁.committed).migrations
      = setAt s₁.committed.migrations m.tenantId m.id (some (u.apply m)) := by
    rw [hseen]
    show setAt (seen ws s₁.committed).migrations _ _ _ = _
    rw [hmig, hrow]
    rfl
  have hsame := u.same m
  refine ⟨⟨?_, .stepped m u hrow hu hrows ?_ ?_⟩, ?_⟩
  · intro t id h
    show ((seen _ _).profiles t id).isSome
    rw [hseen]
    exact hprof t id h
  · show (seen _ _).order = _
    rw [hseen]
    exact horder
  · show (seen _ _).active = _
    rw [hseen]
    exact hactive
  · show EvidenceHolds sha256 adapters valid ((storageEngine sha256).view s₁ pid) s₁.ext
    rw [hview]
    refine EvidenceHolds.of_replaced hr.also hrows (fun hstate hv hw => ?_)
    rw [hsame.sourceProfileId, hsame.targetProfileId] at hw ⊢
    exact hready s₁ hF₁ hstate hv hw

/-- … when it is not a validation. -/
theorem closes_step_of_ne {m : StorageMigration} {u : MigrationUpdate} (hu : MigrationStep m u)
    (hstate : (u.apply m).state ≠ .READY_TO_SWITCH)
    (hF : Footing sha256 adapters strict valid pid F)
    (hlock : ∀ s', F s' → Locked pid m.tenantId m.id m s') (hbeside : ∀ w ∈ ws, w.isBeside = true)
    (hs : Amid pid (ws ++ [StorageWrite.update m.tenantId m.id u]) F s) :
    Closes sha256 adapters strict valid pid s :=
  closes_step hu hF hlock hbeside (fun _ _ h => absurd h hstate) hs

/-! ## The handlers of a migration -/

/-- **A handler that takes one step** of the migration it locks. -/
theorem controls_step {t id : Uuid} {body : StorageMigration → StorageProg Unit}
    (hbody : ∀ m s₁, m.tenantId = t → m.id = id → Amid pid [] (Locked pid t id m) s₁ →
      Controls sha256 adapters strict valid allow pid (body m)
        (Prog.outcome (fun _ => Closes sha256 adapters strict valid pid) (fun _ _ => True)) s₁) :
    Controls sha256 adapters strict valid allow pid
      (storageTransaction t (fun _ => do
        let row ← lockedMigration t id
        body row)) (fun _ _ => True) s := by
  refine controls_transaction (fun _ s₁ hs₁ => ?_)
  refine (controls_lockedMigration hs₁).bind (fun row s₂ hs₂ => ?_) (fun _ _ h => h)
  exact hbody row s₂ hs₂.1.1 hs₂.1.2 hs₂.2

/-- **The end of such a handler.** -/
theorem controls_update {t id : Uuid} {m : StorageMigration} {u : MigrationUpdate}
    {action : String} (ht : m.tenantId = t) (hid : m.id = id) (hu : MigrationStep m u)
    (hstate : (u.apply m).state ≠ .READY_TO_SWITCH) (hs : Amid pid [] (Locked pid t id m) s) :
    Controls sha256 adapters strict valid allow pid (updateAudited m u action)
      (Prog.outcome (fun _ => Closes sha256 adapters strict valid pid) (fun _ _ => True)) s := by
  subst ht hid
  refine Prog.Safe.mono (controls_updateAudited (Z := fun _ _ => True) (fun _ => trivial)
    (footing_locked _ _ m) (fun _ h => h) (fun w hw => absurd hw List.not_mem_nil) hs)
    (fun r s₁ hr => ?_)
  cases r with
  | ok a =>
    exact closes_step_of_ne hu hstate (footing_locked _ _ m) (fun _ h => h)
      (fun w hw => absurd hw List.not_mem_nil) hr
  | error e => trivial

theorem controls_decideMigrationApproval (t id : Uuid) (approve : Bool) (subject : String) :
    Controls sha256 adapters strict valid allow pid (decideMigrationApproval t id approve subject)
      (fun _ _ => True) s := by
  refine controls_step (fun m s₁ ht hid hs₁ => ?_)
  by_cases hpending : m.approvalStatus = .PENDING
  · by_cases hself : subject = m.requestedBy
    · rw [if_neg (fun h => h hpending), if_pos hself]
      trivial
    · rw [if_neg (fun h => h hpending), if_neg hself]
      cases approve with
      | true =>
        exact controls_update ht hid (.approved subject hpending hself) (fun h => by cases h) hs₁
      | false => exact controls_update ht hid (.denied subject hpending) (fun h => by cases h) hs₁
  · rw [if_pos hpending]
    trivial

/-- What `advance` accepts of an operation without evidence. -/
theorem advance_ok {state next : StorageMigrationState} {operation : MigrationOperation}
    {validation : Option ValidationEvidence} (hop : operation ≠ .FAIL)
    (h : state.advance operation validation = .ok next) :
    state.transition operation = some next := by
  unfold StorageMigrationState.advance at h
  rw [if_neg (fun hfail => hop hfail.1)] at h
  cases htrans : state.transition operation with
  | none =>
    rw [htrans] at h
    cases h
  | some next' =>
    rw [htrans] at h
    simp only at h
    split at h
    · cases h
    · cases h
      rfl

theorem controls_startMigration (t id : Uuid) :
    Controls sha256 adapters strict valid allow pid (startMigration t id) (fun _ _ => True) s := by
  refine controls_step (fun m s₁ ht hid hs₁ => ?_)
  by_cases happroved : m.approvalStatus = .APPROVED
  · rw [if_neg (fun h => h happroved)]
    cases hadv : m.state.advance .START_BACKFILL none with
    | error e => trivial
    | ok next =>
      have hnext := advance_ok (by decide) hadv
      cases hstate : m.state with
      | PREPARED =>
        rw [hstate] at hnext
        obtain rfl := Option.some.inj hnext
        exact controls_update ht hid (.started hstate happroved) (fun h => by cases h) hs₁
      | _ =>
        rw [hstate] at hnext
        cases hnext
  · rw [if_pos happroved]
    trivial

theorem controls_rollbackMigration (t id : Uuid) :
    Controls sha256 adapters strict valid allow pid (rollbackMigration t id)
      (fun _ _ => True) s := by
  refine controls_step (fun m s₁ ht hid hs₁ => ?_)
  by_cases happroved : m.rollbackApprovalStatus = .APPROVED
  · rw [if_neg (fun h => h happroved)]
    cases hadv : m.state.advance .START_ROLLBACK none with
    | error e => trivial
    | ok next =>
      have hnext := advance_ok (by decide) hadv
      cases hstate : m.state with
      | OBSERVING =>
        rw [hstate] at hnext
        obtain rfl := Option.some.inj hnext
        exact controls_update ht hid (.rollbackStarted hstate happroved) (fun h => by cases h) hs₁
      | _ =>
        rw [hstate] at hnext
        cases hnext
  · rw [if_pos happroved]
    trivial

theorem controls_decideRollbackApproval (t id : Uuid) (decision : RollbackDecision)
    (subject : String) : Controls sha256 adapters strict valid allow pid
      (decideRollbackApproval t id decision subject) (fun _ _ => True) s := by
  refine controls_step (fun m s₁ ht hid hs₁ => ?_)
  have hsame : ∀ status r a,
      ((MigrationUpdate.rollbackApproval status r a).apply m).state = m.state := fun _ _ _ => rfl
  by_cases hstate : m.state = .OBSERVING
  · have hready : ∀ status r a, ((MigrationUpdate.rollbackApproval status r a).apply m).state
        ≠ .READY_TO_SWITCH := by
      intro status r a
      rw [hsame, hstate]
      decide
    rw [if_neg (fun h => h hstate)]
    by_cases hrequest : decision = .REQUEST
    · rw [if_pos hrequest]
      by_cases hnone : m.rollbackApprovalStatus = .NONE
      · rw [if_neg (fun h => h hnone)]
        exact controls_update ht hid (.rollbackRequested subject hstate hnone) (hready _ _ _) hs₁
      · rw [if_pos hnone]
        trivial
    · rw [if_neg hrequest]
      by_cases hdenied : m.rollbackApprovalStatus ≠ .PENDING
          ∨ subject = m.rollbackRequestedBy.getD "None"
      · rw [if_pos hdenied]
        trivial
      · rw [if_neg hdenied]
        obtain ⟨hpending, hother⟩ := not_or.mp hdenied
        by_cases happrove : decision = .APPROVE
        · rw [if_pos happrove]
          exact controls_update ht hid
            (.rollbackApproved subject hstate (not_not.mp hpending) hother) (hready _ _ _) hs₁
        · rw [if_neg happrove]
          exact controls_update ht hid (.rollbackDenied subject hstate (not_not.mp hpending))
            (hready _ _ _) hs₁
  · rw [if_pos hstate]
    trivial

/-! ## Moving the business -/

/-- The entry of the tenant among the active profiles is locked. -/
structure ActiveHeld (pid : ℕ) (t : Uuid) (acts : List Uuid) (s : StorageState) : Prop where
  held : s.holder (.activeIndex t) = some pid
  row : s.committed.active t = acts

theorem footing_activeHeld (t : Uuid) (acts : List Uuid) :
    Footing sha256 adapters strict valid pid (ActiveHeld pid t acts) where
  stands s s' h _ hst :=
    ⟨(hst.untouched.held _).mpr h.held, (hst.untouched.row (.activeIndex t) h.held).trans h.row⟩
  grew ls ws s s' h hg _ := ⟨hg.held _ h.held, by rw [hg.committed]; exact h.row⟩

/-- Writes that leave one profile of a tenant active. -/
structure Shifted (ws : List StorageWrite) (t q : Uuid) (acts : List Uuid) : Prop where
  migrations : ∀ db, (seen ws db).migrations = db.migrations
  order : ∀ db, (seen ws db).order = db.order
  active : ∀ db, db.active t = acts → (seen ws db).active = Function.update db.active t [q]
  profiles : ∀ db, ProfilesStay db (seen ws db)
  keys : ∀ t' id, StorageRow.migration t' id ∉ ws.map StorageWrite.key

theorem Shifted.key_ne {t q : Uuid} {acts : List Uuid} (h : Shifted ws t q acts) (t' id : Uuid) :
    ∀ w ∈ ws, w.key ≠ .migration t' id := by
  intro w hw hk
  refine h.keys t' id ?_
  rw [← hk]
  exact List.mem_map_of_mem hw

/-- **One profile is made inactive, and another one active.** -/
theorem controls_shift {α : Type} {k : StorageProg α} {P : α → StorageState → Prop}
    {t id p q : Uuid} {m : StorageMigration} (hZ : ∀ s', Z .sqlAlchemy s') (hpq : q ≠ p)
    (hexists : ∀ s', Chronicle sha256 adapters strict valid s' → Locked pid t id m s' →
      (s'.committed.profiles t p).isSome ∧ (s'.committed.profiles t q).isSome)
    (hs : Amid pid [] (Locked pid t id m) s)
    (hk : ∀ ws acts s', Shifted ws t q acts →
      Amid pid ws (fun s => Locked pid t id m s ∧ ActiveHeld pid t acts s) s' →
      Controls sha256 adapters strict valid allow pid k (Prog.outcome P Z) s') :
    Controls sha256 adapters strict valid allow pid (do
      let _ ← storage (.setActive t p false)
      let _ ← storage (.setActive t q true)
      k) (Prog.outcome P Z) s := by
  have hfirst : Controls sha256 adapters strict valid allow pid (storage (.setActive t p false))
      (Prog.outcome (fun _ s' => ∃ row acts, acts.length ≤ 1
        ∧ Amid pid [.profile t p row, .deactivate t p]
          (fun s => Locked pid t id m s ∧ ActiveHeld pid t acts s) s') Z) s := by
    refine controls_stmt hZ (footing_locked t id m) hs (fun a s₁ hr hl _ => .inr ?_)
    obtain ⟨row, hrow⟩ := Option.isSome_iff_exists.mp (hexists s₁ hr hl).1
    refine ⟨(), [.profile t p ⟨row.config, row.version + 1⟩, .deactivate t p], ?_,
      fun s₂ hc hlocks hs₂ => ⟨_, s₁.committed.active t, (controlOk_of_recorded hr).single t, hs₂.1,
        hs₂.2, hlocks _ (List.mem_cons_of_mem _ (List.mem_singleton_self _)), by rw [hc]⟩⟩
    show StorageOp.exec sha256 a _ s₁.committed s₁.ext _ = _
    simp [StorageOp.exec, hrow]
  refine hfirst.bind (fun _ s₁ hs₁ => ?_) (fun _ _ h => h)
  obtain ⟨row, acts, hlen, hs₁⟩ := hs₁
  have hfilter : ∀ db : StorageDb, db.active t = acts →
      (seen [.profile t p row, .deactivate t p] db).active
        = Function.update db.active t (acts.filter (fun x => x ≠ p)) := by
    intro db hdb
    show Function.update db.active t _ = _
    rw [← hdb]
    rfl
  have hsecond : Controls sha256 adapters strict valid allow pid (storage (.setActive t q true))
      (Prog.outcome (fun _ s' => ∃ ws, Shifted ws t q acts
        ∧ Amid pid ws (fun s => Locked pid t id m s ∧ ActiveHeld pid t acts s) s') Z) s₁ := by
    refine controls_stmt hZ ((footing_locked t id m).and (footing_activeHeld t acts)) hs₁
      (fun a s₂ hr hl _ => ?_)
    obtain ⟨row', hrow'⟩ := Option.isSome_iff_exists.mp (hexists s₂ hr hl.1).2
    have hprof : (seen [.profile t p row, .deactivate t p] s₂.committed).profiles t q
        = some row' := by
      show setAt s₂.committed.profiles t p _ t q = _
      rw [setAt_of_ne _ _ (fun h => hpq h.2)]
      exact hrow'
    have hact : (seen [.profile t p row, .deactivate t p] s₂.committed).active t
        = acts.filter (fun x => x ≠ p) := by
      rw [hfilter _ hl.2.row, Function.update_self]
    have hlen' : (acts.filter (fun x => x ≠ p)).length ≤ 1 :=
      (List.length_filter_le _ _).trans hlen
    by_cases hmem : q ∈ acts.filter (fun x => x ≠ p)
    · -- The target is the active profile already.
      have hone : acts.filter (fun x => x ≠ p) = [q] := by
        obtain ⟨x, hx⟩ := List.length_eq_one_iff.mp
          (Nat.le_antisymm hlen' (List.length_pos_of_mem hmem))
        rw [hx] at hmem ⊢
        rw [List.mem_singleton.mp hmem]
      refine .inr ⟨(), [.profile t q ⟨row'.config, row'.version + 1⟩], ?_,
        fun s₃ _ _ hs₃ => ⟨_, ⟨fun _ => rfl, fun _ => rfl, fun db hdb => ?_, fun db => ?_, ?_⟩,
          hs₃⟩⟩
      · simp only [StorageOp.exec, hprof, hact, if_pos hmem, if_true]
      · rw [← hone, ← hfilter db hdb]
        rfl
      · intro t' id' h
        exact profilesStay_setAt _ t q _ t' id' (profilesStay_setAt _ t p _ t' id' h)
      · intro t' id'
        simp [StorageWrite.key]
    · by_cases hnil : acts.filter (fun x => x ≠ p) = []
      · refine .inr ⟨(), [.profile t q ⟨row'.config, row'.version + 1⟩, .activate t q], ?_,
          fun s₃ _ _ hs₃ => ⟨_, ⟨fun _ => rfl, fun _ => rfl, fun db hdb => ?_, fun db => ?_, ?_⟩,
            hs₃⟩⟩
        · simp only [StorageOp.exec, hprof, hact, if_neg hmem, if_true]
          rw [if_neg (fun h => h hnil)]
        · show Function.update (seen [.profile t p row, .deactivate t p] db).active t
            ((seen [.profile t p row, .deactivate t p] db).active t ++ [q]) = _
          rw [hfilter db hdb, Function.update_self, Function.update_idem, hnil]
          rfl
        · intro t' id' h
          exact profilesStay_setAt _ t q _ t' id' (profilesStay_setAt _ t p _ t' id' h)
        · intro t' id'
          simp [StorageWrite.key]
      · refine .inl ?_
        simp only [StorageOp.exec, hprof, hact, if_neg hmem, if_true]
        rw [if_pos hnil]
  refine hsecond.bind (fun _ s₂ hs₂ => ?_) (fun _ _ h => h)
  obtain ⟨ws, hshift, hs₂⟩ := hs₂
  exact hk ws acts s₂ hshift hs₂

/-- **A transaction that moves the business may commit.** -/
theorem closes_moved {m : StorageMigration} {u : MigrationUpdate} {q : Uuid} {acts : List Uuid}
    (hshift : Shifted ws m.tenantId q acts) (hstate : (u.apply m).state ≠ .READY_TO_SWITCH)
    (hchange : ∀ a b : StorageDb, a.migrations m.tenantId m.id = some m →
      b.migrations = setAt a.migrations m.tenantId m.id (some (u.apply m)) → b.order = a.order →
      b.active = Function.update a.active m.tenantId [q] → ControlChange strict valid a b)
    (hs : Amid pid (ws ++ [StorageWrite.update m.tenantId m.id u])
      (fun s => Locked pid m.tenantId m.id m s ∧ ActiveHeld pid m.tenantId acts s) s) :
    Closes sha256 adapters strict valid pid s := by
  refine ((footing_locked _ _ m).and (footing_activeHeld _ acts)).mayCommit hs
    (fun s₁ hr _ hF₁ hview => ?_)
  have hseen := seen_update ws m.tenantId m.id u s₁.committed
  have hrows : (seen (ws ++ [StorageWrite.update m.tenantId m.id u]) s₁.committed).migrations
      = setAt s₁.committed.migrations m.tenantId m.id (some (u.apply m)) := by
    rw [hseen]
    show setAt (seen ws s₁.committed).migrations _ _ _ = _
    rw [hshift.migrations, hF₁.1.row]
    rfl
  refine ⟨⟨?_, hchange _ _ hF₁.1.row hrows ?_ ?_⟩, ?_⟩
  · intro t id h
    show ((seen _ _).profiles t id).isSome
    rw [hseen]
    exact hshift.profiles _ t id h
  · show (seen _ _).order = _
    rw [hseen]
    exact hshift.order _
  · show (seen _ _).active = _
    rw [hseen]
    exact hshift.active _ hF₁.2.row
  · show EvidenceHolds sha256 adapters valid ((storageEngine sha256).view s₁ pid) s₁.ext
    rw [hview]
    exact EvidenceHolds.of_replaced hr.also hrows (fun h => absurd h hstate)

theorem controls_advanceMigration (t id : Uuid) (payload : StorageMigrationAdvance) :
    Controls sha256 adapters strict valid allow pid (advanceMigration t id payload)
      (fun _ _ => True) s := by
  refine controls_step (fun m s₁ ht hid hs₁ => ?_)
  have hnow : Controls sha256 adapters strict valid allow pid (storage .utcNow)
      (Prog.outcome (fun _ => Amid pid [] (Locked pid t id m)) (fun _ _ => True)) s₁ :=
    controls_read (fun _ => trivial) (footing_locked t id m) hs₁
      (fun a _ _ _ => ⟨a.now, rfl, fun _ _ _ h => h⟩)
  refine hnow.bind (fun now s₂ hs₂ => ?_) (fun _ _ h => h)
  by_cases happroved : m.approvalStatus = .APPROVED
  · rw [if_neg (fun h => h happroved)]
    split
    · trivial
    · cases hadv : m.state.advance payload.operation none with
      | error e => trivial
      | ok next =>
        cases payload with
        | COMPLETE =>
          have hnext := advance_ok (by decide) hadv
          cases hstate : m.state with
          | OBSERVING =>
            rw [hstate] at hnext
            obtain rfl := Option.some.inj hnext
            exact controls_update ht hid (.completed hstate) (fun h => by cases h) hs₂
          | _ =>
            rw [hstate] at hnext
            cases hnext
        | SWITCH =>
          have hnext := advance_ok (by decide) hadv
          cases hstate : m.state with
          | READY_TO_SWITCH =>
            rw [hstate] at hnext
            obtain rfl := Option.some.inj hnext
            subst ht hid
            exact switch hstate now hs₂
          | _ =>
            rw [hstate] at hnext
            cases hnext
  · rw [if_pos happroved]
    trivial
where
  /-- `SWITCH`. -/
  switch {m : StorageMigration} {s : StorageState} (hstate : m.state = .READY_TO_SWITCH)
      (now : Timestamp) (hs : Amid pid [] (Locked pid m.tenantId m.id m) s) :
      Controls sha256 adapters strict valid allow pid (do
        let _ ← storage (.setActive m.tenantId m.sourceProfileId false)
        let _ ← storage (.setActive m.tenantId m.targetProfileId true)
        updateAudited m (.advance .OBSERVING m.validation
          (some (now + m.observationSeconds * 1000000))) "storage_migration.advance")
        (Prog.outcome (fun _ => Closes sha256 adapters strict valid pid) (fun _ _ => True)) s := by
    by_cases hpq : m.targetProfileId = m.sourceProfileId
    · -- The tables do not hold such a migration.
      refine Prog.Safe.bind (controls_stmt (P := fun _ _ => False) (Z := fun _ _ => True)
        (fun _ => trivial) (footing_locked _ _ m) hs (fun a s₁ hr hl _ => ?_))
        (fun _ _ h => h.elim) (fun _ _ h => h)
      exact absurd hpq.symm ((controlOk_of_recorded hr).row _ _ m hl.row).apart
    · refine controls_shift (fun _ => trivial) hpq (fun s' hr hl => ?_) hs
        (fun ws acts s' hshift hs' => ?_)
      · have hat := (controlOk_of_recorded hr).row _ _ m hl.row
        exact ⟨hat.source, hat.target⟩
      · refine Prog.Safe.mono (controls_updateAudited (Z := fun _ _ => True) (fun _ => trivial)
          ((footing_locked _ _ m).and (footing_activeHeld _ acts)) (fun _ h => h.1)
          (hshift.key_ne _ _) hs') (fun r s₂ hr => ?_)
        cases r with
        | error e => trivial
        | ok a =>
          exact closes_moved hshift (fun h => by cases h)
            (fun a b hm hrows horder hactive => .switched m _ hm hstate hrows horder hactive) hr

/-! ## Requesting a migration -/

/-- The tenant has an active profile. -/
theorem footing_chosen (t : Uuid) :
    Footing sha256 adapters strict valid pid (fun s => s.committed.active t ≠ []) where
  stands s s' h _ hst := hst.kept.1.chosen t h
  grew ls ws s s' h hg _ := by
    rw [hg.committed]
    exact h

/-- **What a request rests on** once its row is inserted. -/
structure Requesting (strict : Prop) (pid : ℕ) (t id source target : Uuid) (s : StorageState) :
    Prop where
  openHeld : s.holder (.openIndex t) = some pid
  rowHeld : s.holder (.migration t id) = some pid
  new : s.committed.migrations t id = none
  closed : ∀ x ∈ s.committed.order t, ∃ m, s.committed.migrations t x = some m ∧ m.state.isClosed
  sourceExists : (s.committed.profiles t source).isSome
  targetExists : (s.committed.profiles t target).isSome
  chosen : s.committed.active t ≠ []
  standing : strict → s.committed.active t = [source]

theorem footing_requesting (t id source target : Uuid) :
    Footing sha256 adapters strict valid pid (Requesting strict pid t id source target) where
  stands s s' h _ hst := by
    obtain ⟨hu, hk, -⟩ := hst
    have horder : s'.committed.order t = s.committed.order t := hu.row (.openIndex t) h.openHeld
    refine ⟨(hu.held _).mpr h.openHeld, (hu.held _).mpr h.rowHeld,
      (hu.row (.migration t id) h.rowHeld).trans h.new, fun x hx => ?_,
      hk.profiles _ _ h.sourceExists, hk.profiles _ _ h.targetExists, hk.chosen _ h.chosen,
        fun hstrict => ?_⟩
    · rw [horder] at hx
      obtain ⟨m, hm, hclosed⟩ := h.closed x hx
      exact ⟨m, hk.closed t x m hm hclosed, hclosed⟩
    · rw [hk.steady t h.closed horder h.chosen]
      exact h.standing hstrict
  grew ls ws s s' h hg _ := by
    obtain ⟨ho, hr, hn, hc, hsrc, htgt, hch, hst⟩ := h
    rw [← hg.committed] at hn hc hsrc htgt hch hst
    exact ⟨hg.held _ ho, hg.held _ hr, hn, hc, hsrc, htgt, hch, hst⟩

/-- The index admits a new migration when every other one is closed. -/
theorem closed_of_allClosed {db : StorageDb} {t : Uuid} (h : ControlOk strict valid db)
    (hall : db.allClosed t = true) :
    ∀ x ∈ db.order t, ∃ m, db.migrations t x = some m ∧ m.state.isClosed := by
  intro x hx
  obtain ⟨m, hm⟩ := Option.isSome_iff_exists.mp ((h.listed t x).mpr hx)
  exact ⟨m, hm, List.all_eq_true.mp hall m (List.mem_filterMap.mpr ⟨x, hx, hm⟩)⟩

theorem eq_singleton_of_head {l : List Uuid} {x : Uuid} (hlen : l.length ≤ 1)
    (hhead : l.head? = some x) : l = [x] := by
  cases l with
  | nil => cases hhead
  | cons y l =>
    obtain rfl := Option.some.inj hhead
    cases l with
    | nil => rfl
    | cons z l => exact absurd hlen (by simp)

/-- **`INSERT INTO storage_migration`.** -/
theorem controls_insertMigration {t id source target : Uuid} {subject : String} {seconds : ℕ}
    {now : Timestamp}
    (hallow : ∀ a row s, allow (.serve a) (.run (.insertMigration row)) s → strict →
      (s.committed.active row.tenantId).head? = some row.sourceProfileId)
    (hs : Amid pid [] (fun s => s.committed.active t ≠ []) s) :
    Controls sha256 adapters strict valid allow pid
      (storage (.insertMigration (newMigration t id source target subject seconds now)))
      (Prog.outcome (fun _ => Amid pid
        [.append t id, .migration (newMigration t id source target subject seconds now)]
        (Requesting strict pid t id source target)) (fun _ _ => True)) s := by
  refine controls_stmt (fun _ => trivial) (footing_chosen t) hs (fun a s₁ hr hF₁ hal => ?_)
  have hok := controlOk_of_recorded hr
  by_cases hcond : (s₁.committed.migrations t id).isSome ∨ source = target
      ∨ (s₁.committed.profiles t source).isNone ∨ (s₁.committed.profiles t target).isNone
      ∨ s₁.committed.allClosed t = false
  · exact .inl (if_pos hcond)
  · refine .inr ⟨_, _, if_neg hcond, fun s₂ hc hl hs₂ => ⟨hs₂.1, ?_⟩⟩
    simp only [not_or, Bool.not_eq_true, Option.isSome_eq_false_iff, Option.isNone_iff_eq_none,
      Bool.not_eq_false] at hcond
    obtain ⟨hnew, -, hsource, htarget, hall⟩ := hcond
    refine ⟨hl _ List.mem_cons_self, hl _ (List.mem_cons_of_mem _ (List.mem_singleton_self _)),
      ?_, ?_, ?_, ?_, hs₂.2, fun hstrict => ?_⟩
    · rw [hc]
      exact hnew
    · rw [hc]
      exact closed_of_allClosed hok hall
    · rw [hc]
      exact Option.isSome_iff_ne_none.mpr hsource
    · rw [hc]
      exact Option.isSome_iff_ne_none.mpr htarget
    · rw [hc]
      exact eq_singleton_of_head (hok.single t) (hallow a _ s₁ hal hstrict)

/-- **A request may commit.** -/
theorem closes_requesting {t id source target : Uuid} {subject : String} {seconds : ℕ}
    {now : Timestamp} (hvalid : valid t) (hne : source ≠ target)
    (hs : Amid pid [.append t id, .migration (newMigration t id source target subject seconds now)]
      (Requesting strict pid t id source target) s) :
    Closes sha256 adapters strict valid pid s := by
  refine (footing_requesting t id source target).mayCommit hs (fun s₁ hr _ h hview => ?_)
  refine ⟨⟨fun _ _ hp => hp, ?_⟩, ?_⟩
  · exact .requested t id source target subject seconds now hvalid h.new hne h.sourceExists
      h.targetExists h.closed h.chosen h.standing rfl rfl rfl
  · show EvidenceHolds sha256 adapters valid ((storageEngine sha256).view s₁ pid) s₁.ext
    rw [hview]
    have hrows : (seen [.append t id,
        .migration (newMigration t id source target subject seconds now)] s₁.committed).migrations
        = setAt s₁.committed.migrations t id
          (some (newMigration t id source target subject seconds now)) := rfl
    exact EvidenceHolds.of_replaced hr.also hrows (fun h => by cases h)

theorem controls_createMigration {t : Uuid} (hvalid : valid t) (id target : Uuid) (seconds : ℕ)
    (subject : String)
    (hallow : ∀ a row s, allow (.serve a) (.run (.insertMigration row)) s → strict →
      (s.committed.active row.tenantId).head? = some row.sourceProfileId) :
    Controls sha256 adapters strict valid allow pid (createMigration t id target seconds subject)
      (fun _ _ => True) s := by
  refine controls_transaction (fun now s₁ hs₁ => ?_)
  have hsource : Controls sha256 adapters strict valid allow pid (storage (.selectActive t))
      (Prog.outcome (fun found s' => Amid pid [] (fun _ => True) s'
        ∧ (found.isSome → s'.committed.active t ≠ [])) (fun _ _ => True)) s₁ := by
    refine controls_read (fun _ => trivial) footing_true hs₁ (fun a s₂ _ _ => ?_)
    refine ⟨(s₂.committed.active t).head?, rfl, fun s₃ hc _ hs₃ => ⟨hs₃, fun hsome hnil => ?_⟩⟩
    rw [← hc, hnil] at hsome
    cases hsome
  refine hsource.bind (fun found s₂ hs₂ => ?_) (fun _ _ h => h)
  cases found with
  | none =>
    refine Prog.Safe.bind (controls_read (P := fun _ _ => True) (Z := fun _ _ => True)
      (fun _ => trivial) footing_true hs₂.1 (fun a s₃ _ _ => ⟨_, rfl, fun _ _ _ _ => trivial⟩))
      (fun _ _ _ => trivial) (fun _ _ h => h)
  | some source =>
    have htarget : Controls sha256 adapters strict valid allow pid
        (storage (.selectProfile t target))
        (Prog.outcome (fun _ => Amid pid [] (fun s => s.committed.active t ≠ []))
          (fun _ _ => True)) s₂ :=
      controls_read (fun _ => trivial) (footing_chosen t) ⟨hs₂.1.1, hs₂.2 rfl⟩
        (fun a s₃ _ _ => ⟨_, rfl, fun _ _ _ h => h⟩)
    refine htarget.bind (fun targetActive s₃ hs₃ => ?_) (fun _ _ h => h)
    cases targetActive with
    | none => trivial
    | some targetActive =>
      show Controls sha256 adapters strict valid allow pid (if _ then _ else _) _ _
      split
      · trivial
      · rename_i hcond
        have hne : source ≠ target := fun h => hcond (.inl h)
        refine (controls_insertMigration hallow hs₃).bind (fun _ s₄ hs₄ => ?_) (fun _ _ h => h)
        have haudit : Controls sha256 adapters strict valid allow pid
            (storage (.insertAudit "storage_migration.request"))
            (Prog.outcome (fun _ => Amid pid
              [.append t id, .migration (newMigration t id source target subject seconds now)]
              (Requesting strict pid t id source target)) (fun _ _ => True)) s₄ :=
          controls_read (fun _ => trivial) (footing_requesting t id source target) hs₄
            (fun _ _ _ _ => ⟨(), rfl, fun _ _ _ h => h⟩)
        exact haudit.bind (fun _ _ h => closes_requesting hvalid hne h) (fun _ _ h => h)

/-! ## Creating a profile -/

/-- The claims of a profile change nothing else. -/
theorem controls_claimDedicatedResources (t : Uuid) (resources : List (String × String))
    (hws : ∀ w ∈ ws, w.isBeside = true) (hs : Amid pid ws (fun _ => True) s) :
    Controls sha256 adapters strict valid allow pid (claimDedicatedResources sha256 t resources)
      (Prog.outcome (fun _ s' => ∃ ws', (∀ w ∈ ws', w.isBeside = true)
        ∧ Amid pid ws' (fun _ => True) s') (fun _ _ => True)) s := by
  induction resources generalizing s ws with
  | nil => exact ⟨ws, hws, hs⟩
  | cons resource rest ih =>
    obtain ⟨kind, identity⟩ := resource
    have hclaim : Controls sha256 adapters strict valid allow pid
        (storage (.claimResource kind (sha256 identity.toUTF8.toList) t))
        (Prog.outcome (fun _ s' => ∃ ws', (∀ w ∈ ws', w.isBeside = true)
          ∧ Amid pid ws' (fun _ => True) s') (fun _ _ => True)) s := by
      refine controls_stmt (fun _ => trivial) footing_true hs (fun a s₁ _ _ _ => .inr ?_)
      refine ⟨(), _, rfl, fun s₂ _ _ hs₂ => ⟨_, fun w hw => ?_, hs₂⟩⟩
      rcases List.mem_append.mp hw with hw | hw
      · exact hws w hw
      · split at hw
        · rw [List.mem_singleton.mp hw]
          rfl
        · cases hw
    refine hclaim.bind (fun _ s₁ hs₁ => ?_) (fun _ _ h => h)
    obtain ⟨ws₁, hws₁, hs₁⟩ := hs₁
    have howner : Controls sha256 adapters strict valid allow pid
        (storage (.selectClaim kind (sha256 identity.toUTF8.toList)))
        (Prog.outcome (fun _ => Amid pid ws₁ (fun _ => True)) (fun _ _ => True)) s₁ :=
      controls_read (fun _ => trivial) footing_true hs₁ (fun _ _ _ _ => ⟨_, rfl, fun _ _ _ h => h⟩)
    refine howner.bind (fun owner s₂ hs₂ => ?_) (fun _ _ h => h)
    by_cases hown : owner = some t
    · rw [if_neg (fun h => h hown)]
      exact ih hws₁ hs₂
    · rw [if_pos hown]
      trivial

/-- The writes of a new profile, up to its activation. -/
def Profiling (pid : ℕ) (t id : Uuid) (s : StorageState) : Prop :=
  ∃ ws, (∀ w ∈ ws, w.isBeside = true)
    ∧ (Amid pid ws (fun _ => True) s ∨ Amid pid (ws ++ [StorageWrite.activate t id])
      (ActiveHeld pid t []) s)

/-- A statement that only reads, while a profile is created. -/
theorem controls_read_profiling {op : StorageOp} {t id : Uuid}
    (h : ∀ a fr db x, ∃ r, op.exec sha256 a fr db x = (.ok r, [], x)) (hs : Profiling pid t id s) :
    Controls sha256 adapters strict valid allow pid (storage op)
      (Prog.outcome (fun _ => Profiling pid t id) (fun _ _ => True)) s := by
  obtain ⟨ws, hws, hs | hs⟩ := hs
  · refine controls_read (fun _ => trivial) footing_true hs (fun a s₁ _ _ => ?_)
    obtain ⟨r, hr⟩ := h a (Engine.free s₁ pid) (seen ws s₁.committed) s₁.ext
    exact ⟨r, hr, fun _ _ _ hs₂ => ⟨ws, hws, .inl hs₂⟩⟩
  · refine controls_read (fun _ => trivial) (footing_activeHeld t []) hs (fun a s₁ _ _ => ?_)
    obtain ⟨r, hr⟩ := h a (Engine.free s₁ pid)
      (seen (ws ++ [StorageWrite.activate t id]) s₁.committed) s₁.ext
    exact ⟨r, hr, fun _ _ _ hs₂ => ⟨ws, hws, .inr hs₂⟩⟩

/-- **`INSERT INTO storage_profile`.** -/
theorem controls_insertProfile {t id : Uuid} {config : StorageConfig} {active : Bool}
    (hws : ∀ w ∈ ws, w.isBeside = true) (hs : Amid pid ws (fun _ => True) s) :
    Controls sha256 adapters strict valid allow pid (storage (.insertProfile t id config active))
      (Prog.outcome (fun _ => Profiling pid t id) (fun _ _ => True)) s := by
  refine controls_stmt (fun _ => trivial) footing_true hs (fun a s₁ _ _ _ => ?_)
  have hactive : (seen ws s₁.committed).active t = s₁.committed.active t := by
    rw [(beside_of_all hws _).active]
  have hbeside : ∀ w ∈ ws ++ [StorageWrite.profile t id ⟨config, 1⟩, .nameEntry t config.name id],
      w.isBeside = true := by
    intro w hw
    rcases List.mem_append.mp hw with hw | hw
    · exact hws w hw
    · simp only [List.mem_cons, List.not_mem_nil, or_false] at hw
      rcases hw with rfl | rfl <;> rfl
  by_cases hcond : ((seen ws s₁.committed).profiles t id).isSome
      ∨ ((seen ws s₁.committed).names t config.name).isSome
      ∨ (active ∧ (seen ws s₁.committed).active t ≠ [])
  · exact .inl (if_pos hcond)
  · refine .inr ⟨(), _, if_neg hcond, fun s₂ hc hl hs₂ => ⟨_, hbeside, ?_⟩⟩
    cases active with
    | false =>
      refine .inl ⟨?_, trivial⟩
      rw [hs₂.1]
      rfl
    | true =>
      refine .inr ⟨?_, hl _ ?_, ?_⟩
      · rw [hs₂.1, List.append_assoc]
        rfl
      · simp [StorageOp.locks]
      · rw [hc, ← hactive]
        by_contra hne
        exact hcond (.inr (.inr ⟨rfl, hne⟩))

/-- **A new profile may be committed.** -/
theorem closes_profiling {t id : Uuid} (hs : Profiling pid t id s) :
    Closes sha256 adapters strict valid pid s := by
  obtain ⟨ws, hws, hs | hs⟩ := hs
  · refine footing_true.mayCommit hs (fun s₁ hr _ _ hview => ?_)
    have hb := beside_of_all hws s₁.committed
    refine ⟨⟨hb.profiles, .quiet hb.migrations hb.order hb.active⟩, ?_⟩
    show EvidenceHolds sha256 adapters valid ((storageEngine sha256).view s₁ pid) s₁.ext
    rw [hview]
    intro hv t' id' m hm
    rw [show ((storageEngine sha256).applyAll ws s₁.committed).migrations = _
      from hb.migrations] at hm
    exact hr.also hv t' id' m hm
  · refine (footing_activeHeld t []).mayCommit hs (fun s₁ hr _ hF₁ hview => ?_)
    have hb := beside_of_all hws s₁.committed
    have hseen : seen (ws ++ [StorageWrite.activate t id]) s₁.committed
        = (StorageWrite.activate t id).apply (seen ws s₁.committed) := by
      rw [seen, List.foldl_append]
      rfl
    have hrows : (seen (ws ++ [StorageWrite.activate t id]) s₁.committed).migrations
        = s₁.committed.migrations := by
      rw [hseen]
      exact hb.migrations
    refine ⟨⟨?_, .profiled t id hF₁.row hrows ?_ ?_⟩, ?_⟩
    · intro t' id' h
      show ((seen _ _).profiles t' id').isSome
      rw [hseen]
      exact hb.profiles t' id' h
    · show (seen _ _).order = _
      rw [hseen]
      exact hb.order
    · show (seen _ _).active = _
      rw [hseen]
      show Function.update (seen ws s₁.committed).active t _ = _
      rw [hb.active, hF₁.row]
      rfl
    · show EvidenceHolds sha256 adapters valid ((storageEngine sha256).view s₁ pid) s₁.ext
      rw [hview]
      intro hv t' id' m hm
      rw [show ((storageEngine sha256).applyAll (ws ++ [StorageWrite.activate t id])
        s₁.committed).migrations = _ from hrows] at hm
      exact hr.also hv t' id' m hm

theorem controls_createProfile (t id : Uuid) (payload : StorageProfileCreate) :
    Controls sha256 adapters strict valid allow pid (createProfile sha256 t id payload)
      (fun _ _ => True) s := by
  unfold createProfile
  cases payload.validate t with
  | some detail => trivial
  | none =>
    refine controls_transaction (fun _ s₁ hs₁ => ?_)
    have hreplayed : Controls sha256 adapters strict valid allow pid (storage .replayFor)
        (Prog.outcome (fun _ => Amid pid [] (fun _ => True)) (fun _ _ => True)) s₁ :=
      controls_read (fun _ => trivial) footing_true hs₁
        (fun a _ _ _ => ⟨a.replayed, rfl, fun _ _ _ h => h⟩)
    refine hreplayed.bind (fun replayed s₂ hs₂ => ?_) (fun _ _ h => h)
    cases replayed with
    | some answer =>
      have hprofiling : Profiling pid t id s₂ :=
        ⟨[], fun w hw => absurd hw List.not_mem_nil, .inl hs₂⟩
      exact closes_profiling hprofiling
    | none =>
      have hexists : Controls sha256 adapters strict valid allow pid (storage (.existsActive t))
          (Prog.outcome (fun _ => Amid pid [] (fun _ => True)) (fun _ _ => True)) s₂ :=
        controls_read (fun _ => trivial) footing_true hs₂
          (fun a _ _ _ => ⟨_, rfl, fun _ _ _ h => h⟩)
      refine hexists.bind (fun found s₃ hs₃ => ?_) (fun _ _ h => h)
      by_cases hfound : payload.activate ∧ found
      · rw [if_pos hfound]
        trivial
      · rw [if_neg hfound]
        refine (controls_claimDedicatedResources t payload.config.resources
          (fun w hw => absurd hw List.not_mem_nil) hs₃).bind (fun _ s₄ hs₄ => ?_) (fun _ _ h => h)
        obtain ⟨ws, hws, hs₄⟩ := hs₄
        refine (controls_insertProfile hws hs₄).bind (fun _ s₅ hs₅ => ?_) (fun _ _ h => h)
        refine (controls_read_profiling (fun _ _ _ _ => ⟨(), rfl⟩) hs₅).bind (fun _ s₆ hs₆ => ?_)
          (fun _ _ h => h)
        refine (controls_read_profiling (fun _ _ _ _ => ⟨(), rfl⟩) hs₆).bind (fun _ s₇ hs₇ => ?_)
          (fun _ _ h => h)
        exact closes_profiling hs₇

/-! ## The worker -/

/-- The worker has a migration of its own in hand, which is not ready. -/
structure InHand (m : StorageMigration) : Prop where
  opened : m.state.isClosed = false
  unready : m.state ≠ .READY_TO_SWITCH

/-- **Rule for a request to an adapter**, for the tenant of the migration in hand. -/
theorem controls_reach {op : StorageOp} {t id : Uuid} {m : StorageMigration}
    {P : StorageRes op → StorageState → Prop} (hm : InHand m)
    (hF : Footing sha256 adapters strict valid pid F) (hlock : ∀ s', F s' → Locked pid t id m s')
    (hZ : ∀ s', Z .sqlAlchemy s') (hs : Amid pid ws F s)
    (h : ∀ a fr db s₁, F s₁ → ∃ r x, op.exec sha256 a fr db s₁.ext = (.ok r, [], x)
      ∧ OnlyTenant (Uuid.str t) s₁.ext x
      ∧ ∀ s₂, s₂.committed = s₁.committed →
        (∀ k, s₁.holder k = some pid → s₂.holder k = some pid) → s₂.pending pid = some ws →
        s₂.ext = x → P r s₂) :
    Controls sha256 adapters strict valid allow pid (storage op) (Prog.outcome P Z) s := by
  have hin : (s.pending pid).isSome := by rw [hs.1]; rfl
  refine controlRegime_sound.records_stmt hin (fun s₁ _ _ => hZ s₁)
    (fun s₁ a hr hst _ hfree => ?_)
  have hws : s₁.pending pid = some ws := hst.untouched.pending.trans hs.1
  have hin₁ : (s₁.pending pid).isSome := by rw [hws]; rfl
  have hF₁ := hF.stands s s₁ hs.2 hr hst
  have hok := controlOk_of_recorded hr
  have hl := hlock s₁ hF₁
  obtain ⟨r, x, hexec, honly, hP⟩ :=
    h a (Engine.free s₁ pid) ((storageEngine sha256).view s₁ pid) s₁ hF₁
  have hexec' : (storageEngine sha256).exec a op (Engine.free s₁ pid)
      ((storageEngine sha256).view s₁ pid) s₁.ext = (.ok r, [], x) := hexec
  have hgrew : Engine.Grew pid _ _ s₁ ((storageEngine sha256).ran pid a op s₁) :=
    Engine.grew_ran hin₁
  have hext : ((storageEngine sha256).ran pid a op s₁).ext = x := by
    rw [Engine.ext_ran, hexec']
  have hc : ((storageEngine sha256).ran pid a op s₁).committed = s₁.committed :=
    Engine.committed_ran hin₁
  refine ⟨?_, fun q hq => ⟨?_, ?_⟩, ?_⟩
  · show EvidenceHolds sha256 adapters valid _ _
    rw [hext, hc]
    exact EvidenceHolds.of_only hr.also hok hl.row hm.opened hm.unready honly
  · rw [hc]
    exact .refl _
  · exact AdaptersKept.of_only hq hok hl hm.opened (by rw [hext]; exact honly)
  · have hpend := hgrew.pending ws hws
    rw [hexec', List.append_nil] at hpend
    unfold Engine.answer
    rw [hexec']
    exact hP _ hc hgrew.held hpend hext

/-- A request of a copy or a replay. -/
theorem controls_adapter (op : AdapterOp) {t id : Uuid} {m : StorageMigration} (hm : InHand m)
    (ht : op.tenant = Uuid.str t) (hZ : ∀ s', Z .sqlAlchemy s')
    (hs : Amid pid ws (Locked pid t id m) s) :
    Controls sha256 adapters strict valid allow pid (storage (.adapter op))
      (Prog.outcome (fun _ => Amid pid ws (Locked pid t id m)) Z) s := by
  refine controls_reach hm (footing_locked t id m) (fun _ h => h) hZ hs (fun a fr db s₁ hl => ?_)
  refine ⟨_, _, rfl, ?_, fun s₂ hc hheld hpend _ => ⟨hpend, hheld _ hl.held, ?_⟩⟩
  · rw [← ht]
    exact op.only s₁.ext
  · rw [hc]
    exact hl.row

theorem controls_backfillPairs {t id source target : Uuid} {m : StorageMigration} (hm : InHand m)
    (hZ : ∀ s', Z .sqlAlchemy s') (is : List ℕ) (hs : Amid pid ws (Locked pid t id m) s) :
    Controls sha256 adapters strict valid allow pid
      (StorageMigrationExecutor.backfillPairs (fun op => storage (.adapter op)) (Uuid.str t) source
        target is) (Prog.outcome (fun _ => Amid pid ws (Locked pid t id m)) Z) s := by
  induction is generalizing s with
  | nil => exact hs
  | cons i is ih =>
    refine (controls_adapter (.snapshotTenant source i (Uuid.str t)) hm rfl hZ hs).bind
      (fun snapshot s₁ hs₁ => ?_) (fun _ _ h => h)
    refine (controls_adapter (.applyChanges target i (Uuid.str t) _) hm rfl hZ hs₁).bind
      (fun _ s₂ hs₂ => ?_) (fun _ _ h => h)
    exact (ih hs₂).bind (fun _ _ h => h) (fun _ _ h => h)

theorem controls_catchUpPairs {t id source target : Uuid} {m : StorageMigration} (hm : InHand m)
    (hZ : ∀ s', Z .sqlAlchemy s') (is : List (ℕ × ℕ)) (hs : Amid pid ws (Locked pid t id m) s) :
    Controls sha256 adapters strict valid allow pid
      (StorageMigrationExecutor.catchUpPairs (fun op => storage (.adapter op)) (Uuid.str t) source
        target is) (Prog.outcome (fun _ => Amid pid ws (Locked pid t id m)) Z) s := by
  induction is generalizing s with
  | nil => exact hs
  | cons i is ih =>
    refine (controls_adapter (.changesSince source i.1 (Uuid.str t) i.2) hm rfl hZ hs).bind
      (fun feed s₁ hs₁ => ?_) (fun _ _ h => h)
    refine (controls_adapter (.applyChanges target i.1 (Uuid.str t) _) hm rfl hZ hs₁).bind
      (fun _ s₂ hs₂ => ?_) (fun _ _ h => h)
    exact (ih hs₂).bind (fun _ _ h => h) (fun _ _ h => h)

/-! ## Validation -/

/-- **What the fingerprints of a pair say of it now**: of the target in any case, of the
source if the business has not written to it since. -/
structure PairSeen (sha256 : Bytes → String) (m : StorageMigration) (t : String) (x : StorageExt)
    (i : ℕ) (p : PairEvidence) : Prop where
  target : p.2.1.1 = (x.entries m.targetProfileId i t).length
    ∧ p.2.1.2.1 = sha256 (MemoryAdapter.fingerprintText (x.entries m.targetProfileId i t))
  source : x.written m.sourceProfileId i t = false →
    p.1.1 = (x.entries m.sourceProfileId i t).length
      ∧ p.1.2.1 = sha256 (MemoryAdapter.fingerprintText (x.entries m.sourceProfileId i t))

/-- It stays so while target and source are left alone. -/
theorem PairSeen.keep {m : StorageMigration} {t : String} {x x' : StorageExt} {i : ℕ}
    {p : PairEvidence} (h : PairSeen sha256 m t x i p)
    (htarget : x'.entries m.targetProfileId i t = x.entries m.targetProfileId i t)
    (hsource : x'.written m.sourceProfileId i t = false →
      x.written m.sourceProfileId i t = false
        ∧ x'.entries m.sourceProfileId i t = x.entries m.sourceProfileId i t) :
    PairSeen sha256 m t x' i p := by
  refine ⟨?_, fun hw => ?_⟩
  · rw [htarget]
    exact h.target
  · obtain ⟨hw', he⟩ := hsource hw
    rw [he]
    exact h.source hw'

/-- The source of a pair has been read. -/
def SourceSeen (sha256 : Bytes → String) (m : StorageMigration) (t : String) (x : StorageExt)
    (i : ℕ) (r : ℕ × String × ℕ) : Prop :=
  x.written m.sourceProfileId i t = false →
    r.1 = (x.entries m.sourceProfileId i t).length
      ∧ r.2.1 = sha256 (MemoryAdapter.fingerprintText (x.entries m.sourceProfileId i t))

/-- The target of a pair has been read. -/
def TargetSeen (sha256 : Bytes → String) (m : StorageMigration) (t : String) (x : StorageExt)
    (i : ℕ) (r : ℕ × String × ℕ) : Prop :=
  r.1 = (x.entries m.targetProfileId i t).length
    ∧ r.2.1 = sha256 (MemoryAdapter.fingerprintText (x.entries m.targetProfileId i t))

/-- What a validation has seen, with a condition on the adapters that is not disturbed. -/
def Validating (valid : Uuid → Prop) (pid : ℕ) (t id : Uuid) (m : StorageMigration)
    (seenOf : StorageExt → Prop) (s : StorageState) : Prop :=
  Locked pid t id m s ∧ (TextsApart valid → seenOf s.ext)

/-- A condition that holds as long as target and source are left alone. -/
def Undisturbing (m : StorageMigration) (t : String) (seenOf : StorageExt → Prop) : Prop :=
  ∀ x x' : StorageExt, (∀ i, x'.entries m.targetProfileId i t = x.entries m.targetProfileId i t
    ∧ (x'.written m.sourceProfileId i t = false → x.written m.sourceProfileId i t = false
      ∧ x'.entries m.sourceProfileId i t = x.entries m.sourceProfileId i t)) →
    seenOf x → seenOf x'

theorem footing_validating {t id : Uuid} {m : StorageMigration} {seenOf : StorageExt → Prop}
    (hstate : m.state = .VALIDATING) (hseen : Undisturbing m (Uuid.str t) seenOf) :
    Footing sha256 adapters strict valid pid (Validating valid pid t id m seenOf) where
  stands s s' h hr hst :=
    ⟨(footing_locked t id m).stands s s' h.1 hr hst, fun hv =>
      hseen _ _ (hst.kept.2 hv t id m h.1.held h.1.row hstate) (h.2 hv)⟩
  grew ls ws s s' h hg hx :=
    ⟨⟨hg.held _ h.1.held, by rw [hg.committed]; exact h.1.row⟩, by rw [hx]; exact h.2⟩

variable (sha256) in
theorem undisturbing_pairs (m : StorageMigration) (t : String) (done : List ℕ)
    (found : List PairEvidence) :
    Undisturbing m t (fun x => List.Forall₂ (PairSeen sha256 m t x) done found) := by
  intro x x' hx h
  exact h.imp (fun i p hp => hp.keep (hx i).1 (hx i).2)

variable (sha256) in
theorem undisturbing_source (m : StorageMigration) (t : String) (i : ℕ) (r : ℕ × String × ℕ) :
    Undisturbing m t (fun x => SourceSeen sha256 m t x i r) := by
  intro x x' hx h hw
  obtain ⟨hw', he⟩ := (hx i).2 hw
  rw [he]
  exact h hw'

variable (sha256) in
theorem undisturbing_target (m : StorageMigration) (t : String) (i : ℕ) (r : ℕ × String × ℕ) :
    Undisturbing m t (fun x => TargetSeen sha256 m t x i r) := by
  intro x x' hx h
  unfold TargetSeen
  rw [(hx i).1]
  exact h

theorem Undisturbing.and {m : StorageMigration} {t : String} {p q : StorageExt → Prop}
    (hp : Undisturbing m t p) (hq : Undisturbing m t q) :
    Undisturbing m t (fun x => p x ∧ q x) :=
  fun x x' hx h => ⟨hp x x' hx h.1, hq x x' hx h.2⟩

/-- Taking a fingerprint. -/
def takeFingerprint (x : StorageExt) (p : Uuid) (i : ℕ) (t : String) : StorageExt :=
  { x with written := fun p' i' t' =>
      if p' = p ∧ i' = i ∧ t' = t then false else x.written p' i' t' }

/-- **A fingerprint**, while the row is locked. -/
theorem controls_fingerprint {t id : Uuid} (p : Uuid) (i : ℕ) {m : StorageMigration} (hm : InHand m)
    {before : StorageExt → Prop} (after : ℕ × String × ℕ → StorageExt → Prop)
    (hF : Footing sha256 adapters strict valid pid (Validating valid pid t id m before))
    (hZ : ∀ s', Z .sqlAlchemy s')
    (hafter : ∀ x, before x → after ((x.stores p i).tenantFingerprint sha256 (Uuid.str t))
      (takeFingerprint x p i (Uuid.str t)))
    (hs : Amid pid ws (Validating valid pid t id m before) s) :
    Controls sha256 adapters strict valid allow pid
      (storage (.tenantFingerprint p i (Uuid.str t)))
      (Prog.outcome (fun r => Amid pid ws (Validating valid pid t id m (after r))) Z) s := by
  refine controls_reach hm hF (fun _ h => h.1) hZ hs (fun a fr db s₁ h => ?_)
  refine ⟨_, _, rfl, onlyTenant_fingerprint _ p i _, fun s₂ hc hheld hpend hx =>
    ⟨hpend, ⟨hheld _ h.1.held, by rw [hc]; exact h.1.row⟩, fun hv => ?_⟩⟩
  rw [hx]
  exact hafter s₁.ext (h.2 hv)

/-- What a fingerprint leaves of a pair whose source it does not reset. -/
theorem PairSeen.fingerprinted {m : StorageMigration} {t : String} {x : StorageExt} {i j : ℕ}
    {p : Uuid} {e : PairEvidence} (h : PairSeen sha256 m t x j e)
    (hne : (m.sourceProfileId, j) ≠ (p, i)) :
    PairSeen sha256 m t (takeFingerprint x p i t) j e := by
  refine h.keep rfl (fun hw => ⟨?_, rfl⟩)
  have heq : (takeFingerprint x p i t).written m.sourceProfileId j t
      = x.written m.sourceProfileId j t := if_neg (fun hk => hne (Prod.ext hk.1 hk.2.1))
  rw [← heq]
  exact hw

/-- **The loop of `validate`**: what is found is what the adapters hold. -/
theorem controls_fingerprintPairs {t id : Uuid} {m : StorageMigration}
    (hstate : m.state = .VALIDATING) (hapart : m.sourceProfileId ≠ m.targetProfileId)
    (hZ : ∀ s', Z .sqlAlchemy s') (is done : List ℕ) (found : List PairEvidence)
    (hnodup : (done ++ is).Nodup)
    (hs : Amid pid ws (Validating valid pid t id m
      (fun x => List.Forall₂ (PairSeen sha256 m (Uuid.str t) x) done found)) s) :
    Controls sha256 adapters strict valid allow pid
      (fingerprintPairs (Uuid.str t) m.sourceProfileId m.targetProfileId is)
      (Prog.outcome (fun found' => Amid pid ws (Validating valid pid t id m
        (fun x => List.Forall₂ (PairSeen sha256 m (Uuid.str t) x) (done ++ is) (found ++ found'))))
        Z) s := by
  have hm : InHand m := ⟨by rw [hstate]; rfl, by rw [hstate]; decide⟩
  induction is generalizing s done found with
  | nil =>
    rw [List.append_nil]
    show Amid _ _ _ _
    rw [List.append_nil]
    exact hs
  | cons i is ih =>
    have hnew : ∀ j ∈ done, j ≠ i := by
      intro j hj hji
      exact (List.nodup_append.mp hnodup).2.2 j hj i List.mem_cons_self hji
    have hpairs := undisturbing_pairs sha256 m (Uuid.str t) done found
    -- The source of the pair.
    refine (controls_fingerprint m.sourceProfileId i hm
      (fun r x => List.Forall₂ (PairSeen sha256 m (Uuid.str t) x) done found
        ∧ SourceSeen sha256 m (Uuid.str t) x i r) (footing_validating hstate hpairs) hZ
      (fun x hx => ⟨?_, fun _ => ⟨rfl, rfl⟩⟩) hs).bind (fun fromSource s₁ hs₁ => ?_)
      (fun _ _ h => h)
    · exact forall₂_imp_of_mem hx (fun j hj e he =>
        he.fingerprinted (fun heq => hnew j hj (Prod.mk.inj heq).2))
    -- The target of the pair.
    have hsource := hpairs.and (undisturbing_source sha256 m (Uuid.str t) i fromSource)
    refine (controls_fingerprint m.targetProfileId i hm
      (fun r x => (List.Forall₂ (PairSeen sha256 m (Uuid.str t) x) done found
        ∧ SourceSeen sha256 m (Uuid.str t) x i fromSource) ∧ TargetSeen sha256 m (Uuid.str t) x i r)
      (footing_validating hstate hsource) hZ
      (fun x hx => ⟨⟨?_, fun hw => hx.2 ?_⟩, rfl, rfl⟩) hs₁).bind (fun fromTarget s₂ hs₂ => ?_)
      (fun _ _ h => h)
    · exact forall₂_imp_of_mem hx.1 (fun j _ e he =>
        he.fingerprinted (fun heq => hapart (Prod.mk.inj heq).1))
    · rw [← hw]
      exact (if_neg (fun hk => hapart hk.1)).symm
    -- The recall is about neither.
    have hboth := hsource.and (undisturbing_target sha256 m (Uuid.str t) i fromTarget)
    have hrecall : Controls sha256 adapters strict valid allow pid
        (storage (.vectorRecallAgainst m.targetProfileId m.sourceProfileId i (Uuid.str t)))
        (Prog.outcome (fun r => Amid pid ws (Validating valid pid t id m (fun x =>
          List.Forall₂ (PairSeen sha256 m (Uuid.str t) x) (done ++ [i])
            (found ++ [(fromSource, fromTarget, r)])))) Z) s₂ := by
      refine controls_read hZ (footing_validating hstate hboth) hs₂ (fun a s₃ _ _ => ?_)
      refine ⟨_, rfl, fun s₄ _ _ hs₄ => ⟨hs₄.1, hs₄.2.1, fun hv => ?_⟩⟩
      obtain ⟨⟨hold, hsrc⟩, htgt⟩ := hs₄.2.2 hv
      exact List.rel_append hold (.cons ⟨htgt, hsrc⟩ .nil)
    refine hrecall.bind (fun recalled s₃ hs₃ => ?_) (fun _ _ h => h)
    have hsplit : done ++ i :: is = (done ++ [i]) ++ is := by simp
    rw [hsplit] at hnodup ⊢
    refine (ih (done ++ [i]) _ hnodup hs₃).bind (fun found' s₄ hs₄ => ?_) (fun _ _ h => h)
    show Amid _ _ _ _
    rw [show found ++ (fromSource, fromTarget, recalled) :: found'
      = (found ++ [(fromSource, fromTarget, recalled)]) ++ found' by simp]
    exact hs₄
where
  /-- Weaken what is known of the pairs of two lists. -/
  forall₂_imp_of_mem {R R' : ℕ → PairEvidence → Prop} {l : List ℕ} {l' : List PairEvidence}
      (h : List.Forall₂ R l l') (himp : ∀ j ∈ l, ∀ e, R j e → R' j e) : List.Forall₂ R' l l' := by
    induction h with
    | nil => exact .nil
    | cons hr _ ih =>
      exact .cons (himp _ List.mem_cons_self _ hr)
        (ih (fun j hj => himp j (List.mem_cons_of_mem _ hj)))

/-- Lists that agree element by element agree in what is made of them. -/
theorem map_eq_of_forall₂ {α β γ : Type} {R : α → β → Prop} {f : α → γ} {g : β → γ} {l : List α}
    {l' : List β} (h : List.Forall₂ R l l') (hfg : ∀ a ∈ l, ∀ b, R a b → g b = f a) :
    l'.map g = l.map f := by
  induction h with
  | nil => rfl
  | cons hr _ ih =>
    rw [List.map_cons, List.map_cons, hfg _ List.mem_cons_self _ hr,
      ih (fun a ha => hfg a (List.mem_cons_of_mem _ ha))]

/-- **Valid evidence says that the adapters agree**, unless a source has been written to. -/
theorem agree_of_evidence {m : StorageMigration} {t : String} {x : StorageExt} {n : ℕ}
    {found : List PairEvidence} (h : List.Forall₂ (PairSeen sha256 m t x) (List.range n) found)
    (he : (ValidationEvidence.ofPairs sha256 found).isValid = true)
    (hw : ∀ i < n, x.written m.sourceProfileId i t = false) :
    x.Agree sha256 t m.sourceProfileId m.targetProfileId n := by
  unfold ValidationEvidence.isValid at he
  simp only [Bool.and_eq_true, decide_eq_true_eq] at he
  obtain ⟨⟨⟨hcount, hdigest⟩, -⟩, -⟩ := he
  have hsc : found.map (fun p => p.1.1)
      = (List.range n).map (fun i => (x.entries m.sourceProfileId i t).length) :=
    map_eq_of_forall₂ h (fun i hi p hp => (hp.source (hw i (List.mem_range.mp hi))).1)
  have htc : found.map (fun p => p.2.1.1)
      = (List.range n).map (fun i => (x.entries m.targetProfileId i t).length) :=
    map_eq_of_forall₂ h (fun i _ p hp => hp.target.1)
  have hsd : found.map (fun p => p.1.2.1) = x.digests sha256 t m.sourceProfileId n :=
    map_eq_of_forall₂ h (fun i hi p hp => (hp.source (hw i (List.mem_range.mp hi))).2)
  have htd : found.map (fun p => p.2.1.2.1) = x.digests sha256 t m.targetProfileId n :=
    map_eq_of_forall₂ h (fun i _ p hp => hp.target.2)
  refine ⟨?_, ?_⟩
  · unfold StorageExt.count
    rw [← hsc, ← htc]
    exact hcount
  · unfold StorageExt.digest
    rw [← hsd, ← htd, List.flatMap_map, List.flatMap_map]
    exact hdigest

/-! ## The phases -/

/-- What a phase has to leave when it raises: a `StorageMigrationError` finds the row
locked and nothing written. -/
def PhaseFails (pid : ℕ) (t id : Uuid) (m : StorageMigration) (e : PyException)
    (s : StorageState) : Prop :=
  StorageMigrationWorker.isMigrationError e = true → Amid pid [] (Locked pid t id m) s

theorem phaseFails_sqlAlchemy (t id : Uuid) (m : StorageMigration) (s' : StorageState) :
    PhaseFails pid t id m .sqlAlchemy s' := fun h => by cases h

/-- **`_advance`**, to a state the machine accepts. -/
theorem controls_advance {m : StorageMigration} {operation : MigrationOperation} {action : String}
    {evidence : Option ValidationEvidence} {next : StorageMigrationState}
    (hadv : m.state.advance operation evidence = .ok next)
    (hu : MigrationStep m (.state next evidence))
    (hF : Footing sha256 adapters strict valid pid F)
    (hlock : ∀ s', F s' → Locked pid m.tenantId m.id m s')
    (hbeside : ∀ w ∈ ws, w.isBeside = true)
    (hready : ∀ s', F s' → next = .READY_TO_SWITCH → TextsApart valid →
      (∀ i < adapters m.tenantId m.sourceProfileId m.targetProfileId,
        s'.ext.written m.sourceProfileId i (Uuid.str m.tenantId) = false) →
      s'.ext.Agree sha256 (Uuid.str m.tenantId) m.sourceProfileId m.targetProfileId
        (adapters m.tenantId m.sourceProfileId m.targetProfileId))
    (hZ : ∀ s', Z .sqlAlchemy s') (hs : Amid pid ws F s) :
    Controls sha256 adapters strict valid allow pid
      (StorageMigrationWorker.advance m operation action evidence)
      (Prog.outcome (fun _ => Closes sha256 adapters strict valid pid) Z) s := by
  unfold StorageMigrationWorker.advance
  rw [hadv]
  have hkeys : ∀ w ∈ ws, w.key ≠ .migration m.tenantId m.id := by
    intro w hw hk
    have hb := hbeside w hw
    cases w with
    | migration row => cases hb
    | update t id u => cases hb
    | _ => cases hk
  refine Prog.Safe.mono (controls_updateAudited hZ hF hlock hkeys hs) (fun r s₁ hr => ?_)
  cases r with
  | ok a => exact closes_step hu hF hlock hbeside hready hr
  | error e => exact hr

/-- The checkpoint of a migration. -/
theorem controls_upsertCheckpoint {t id : Uuid} {m : StorageMigration}
    {forward rollback : Option (List ℕ)} (hZ : ∀ s', Z .sqlAlchemy s')
    (hs : Amid pid [] (Locked pid t id m) s) :
    Controls sha256 adapters strict valid allow pid
      (storage (.upsertCheckpoint t id forward rollback))
      (Prog.outcome (fun _ s' => ∃ row, Amid pid [.checkpoint t id row] (Locked pid t id m) s') Z)
      s :=
  controls_stmt hZ (footing_locked t id m) hs
    (fun _ _ _ _ _ => .inr ⟨(), _, rfl, fun _ _ _ h => ⟨_, h⟩⟩)

/-- **A phase that copies or replays**, keeps the watermarks and takes a step. -/
theorem controls_copy {m : StorageMigration} {p : StorageProg (List ℕ)}
    {forward rollback : List ℕ → Option (List ℕ)} {operation : MigrationOperation}
    {action : String} {next : StorageMigrationState}
    (hp : ∀ s₁, Amid pid [] (Locked pid m.tenantId m.id m) s₁ →
      Controls sha256 adapters strict valid allow pid p
        (Prog.outcome (fun _ => Amid pid [] (Locked pid m.tenantId m.id m))
          (PhaseFails pid m.tenantId m.id m)) s₁)
    (hadv : m.state.advance operation none = .ok next) (hu : MigrationStep m (.state next none))
    (hnext : next ≠ .READY_TO_SWITCH) (hs : Amid pid [] (Locked pid m.tenantId m.id m) s) :
    Controls sha256 adapters strict valid allow pid (do
      let watermarks ← p
      let _ ← storage (.upsertCheckpoint m.tenantId m.id (forward watermarks) (rollback watermarks))
      StorageMigrationWorker.advance m operation action none)
      (Prog.outcome (fun _ => Closes sha256 adapters strict valid pid)
        (PhaseFails pid m.tenantId m.id m)) s := by
  refine (hp s hs).bind (fun watermarks s₁ hs₁ => ?_) (fun _ _ h => h)
  refine (controls_upsertCheckpoint (phaseFails_sqlAlchemy _ _ m) hs₁).bind (fun _ s₂ hs₂ => ?_)
    (fun _ _ h => h)
  obtain ⟨row, hs₂⟩ := hs₂
  refine controls_advance hadv hu (footing_locked _ _ m) (fun _ h => h) (fun w hw => ?_)
    (fun _ _ h => absurd h hnext) (phaseFails_sqlAlchemy _ _ m) hs₂
  rw [List.mem_singleton.mp hw]
  rfl

theorem controls_backfill {t id source target : Uuid} {m : StorageMigration} (hm : InHand m)
    (hs : Amid pid [] (Locked pid t id m) s) :
    Controls sha256 adapters strict valid allow pid
      (StorageMigrationWorker.backfill adapters t source target)
      (Prog.outcome (fun _ => Amid pid [] (Locked pid t id m)) (PhaseFails pid t id m)) s := by
  unfold StorageMigrationWorker.backfill StorageMigrationExecutor.backfill
  split
  · exact fun _ => hs
  · exact controls_backfillPairs hm (phaseFails_sqlAlchemy t id m) _ hs

theorem controls_catchUp {t id source target : Uuid} {watermarks : List ℕ} {m : StorageMigration}
    (hm : InHand m) (hs : Amid pid [] (Locked pid t id m) s) :
    Controls sha256 adapters strict valid allow pid
      (StorageMigrationWorker.catchUp adapters t source target watermarks)
      (Prog.outcome (fun _ => Amid pid [] (Locked pid t id m)) (PhaseFails pid t id m)) s := by
  unfold StorageMigrationWorker.catchUp StorageMigrationExecutor.catchUp
  split
  · exact fun _ => hs
  · exact controls_catchUpPairs hm (phaseFails_sqlAlchemy t id m) _ hs

/-- **`validate`**, of a migration that is being validated. -/
theorem controls_validate {m : StorageMigration} (hstate : m.state = .VALIDATING)
    (hapart : m.sourceProfileId ≠ m.targetProfileId)
    (hs : Amid pid [] (Locked pid m.tenantId m.id m) s) :
    Controls sha256 adapters strict valid allow pid
      (StorageMigrationWorker.validate sha256 adapters m.tenantId m.sourceProfileId
        m.targetProfileId)
      (Prog.outcome (fun e s' => ∃ found, e = ValidationEvidence.ofPairs sha256 found
        ∧ Amid pid [] (Validating valid pid m.tenantId m.id m (fun x => List.Forall₂
          (PairSeen sha256 m (Uuid.str m.tenantId) x)
          (List.range (adapters m.tenantId m.sourceProfileId m.targetProfileId)) found)) s')
        (PhaseFails pid m.tenantId m.id m)) s := by
  unfold StorageMigrationWorker.validate
  show Controls sha256 adapters strict valid allow pid (if _ then _ else _) _ s
  split
  · exact fun _ => hs
  · refine (controls_fingerprintPairs hstate hapart (phaseFails_sqlAlchemy _ _ m)
      (List.range (adapters m.tenantId m.sourceProfileId m.targetProfileId)) [] []
      List.nodup_range ⟨hs.1, hs.2, fun _ => .nil⟩).bind (fun found s₁ hs₁ => ?_) (fun _ _ h => h)
    exact ⟨found, rfl, hs₁⟩

/-- The loop of `validate`, of a migration that is rolled back. -/
theorem controls_fingerprintPairs_locked {t id source target : Uuid} {m : StorageMigration}
    (hm : InHand m) (hZ : ∀ s', Z .sqlAlchemy s') (is : List ℕ)
    (hs : Amid pid [] (Locked pid t id m) s) :
    Controls sha256 adapters strict valid allow pid
      (fingerprintPairs (Uuid.str t) source target is)
      (Prog.outcome (fun _ => Amid pid [] (Locked pid t id m)) Z) s := by
  have hfingerprint : ∀ p i s', Amid pid [] (Locked pid t id m) s' →
      Controls sha256 adapters strict valid allow pid
        (storage (.tenantFingerprint p i (Uuid.str t)))
        (Prog.outcome (fun _ => Amid pid [] (Locked pid t id m)) Z) s' := by
    intro p i s' hs'
    refine controls_reach hm (footing_locked t id m) (fun _ h => h) hZ hs' (fun a fr db s₁ h => ?_)
    exact ⟨_, _, rfl, onlyTenant_fingerprint _ p i _, fun s₂ hc hheld hpend _ =>
      ⟨hpend, hheld _ h.held, by rw [hc]; exact h.row⟩⟩
  induction is generalizing s with
  | nil => exact hs
  | cons i is ih =>
    refine (hfingerprint source i s hs).bind (fun fromSource s₁ hs₁ => ?_) (fun _ _ h => h)
    refine (hfingerprint target i s₁ hs₁).bind (fun fromTarget s₂ hs₂ => ?_) (fun _ _ h => h)
    have hrecall : Controls sha256 adapters strict valid allow pid
        (storage (.vectorRecallAgainst target source i (Uuid.str t)))
        (Prog.outcome (fun _ => Amid pid [] (Locked pid t id m)) Z) s₂ :=
      controls_read hZ (footing_locked t id m) hs₂ (fun _ _ _ _ => ⟨_, rfl, fun _ _ _ h => h⟩)
    refine hrecall.bind (fun recalled s₃ hs₃ => ?_) (fun _ _ h => h)
    exact (ih hs₃).bind (fun _ _ h => h) (fun _ _ h => h)

theorem controls_validate_locked {t id source target : Uuid} {m : StorageMigration}
    (hm : InHand m) (hs : Amid pid [] (Locked pid t id m) s) :
    Controls sha256 adapters strict valid allow pid
      (StorageMigrationWorker.validate sha256 adapters t source target)
      (Prog.outcome (fun _ => Amid pid [] (Locked pid t id m)) (PhaseFails pid t id m)) s := by
  unfold StorageMigrationWorker.validate
  show Controls sha256 adapters strict valid allow pid (if _ then _ else _) _ s
  split
  · exact fun _ => hs
  · exact (controls_fingerprintPairs_locked hm (phaseFails_sqlAlchemy t id m) _ hs).bind
      (fun _ _ h => h) (fun _ _ h => h)

/-- **The end of a rollback.** -/
theorem controls_restore {m : StorageMigration} {e : ValidationEvidence}
    (hstate : m.state = .ROLLBACK_VALIDATING) (hapart : m.sourceProfileId ≠ m.targetProfileId)
    (he : e.isValid = true) (hs : Amid pid [] (Locked pid m.tenantId m.id m) s) :
    Controls sha256 adapters strict valid allow pid (do
      let _ ← storage (.setActive m.tenantId m.targetProfileId false)
      let _ ← storage (.setActive m.tenantId m.sourceProfileId true)
      StorageMigrationWorker.advance m .ROLLBACK_VALIDATE "rollback_switch" (some e))
      (Prog.outcome (fun _ => Closes sha256 adapters strict valid pid)
        (PhaseFails pid m.tenantId m.id m)) s := by
  refine controls_shift (phaseFails_sqlAlchemy _ _ m) hapart (fun s' hr hl => ?_) hs
    (fun ws acts s' hshift hs' => ?_)
  · have hat := (controlOk_of_recorded hr).row _ _ m hl.row
    exact ⟨hat.target, hat.source⟩
  · have hadv : m.state.advance .ROLLBACK_VALIDATE (some e) = .ok .ROLLED_BACK := by
      rw [hstate]
      rfl
    unfold StorageMigrationWorker.advance
    rw [hadv]
    refine Prog.Safe.mono (controls_updateAudited (Z := PhaseFails pid m.tenantId m.id m)
      (phaseFails_sqlAlchemy _ _ m) ((footing_locked _ _ m).and (footing_activeHeld _ acts))
      (fun _ h => h.1) (hshift.key_ne _ _) hs') (fun r s₂ hr => ?_)
    cases r with
    | error e => exact hr
    | ok a =>
      exact closes_moved hshift (fun h => by cases h)
        (fun a b hm hrows horder hactive => .restored m e hm hstate he hrows horder hactive) hr

/-- **`_execute_phase`.** -/
theorem controls_executePhase {m : StorageMigration} (hwork : m.state.isWorkable = true)
    (hapart : m.sourceProfileId ≠ m.targetProfileId)
    (hs : Amid pid [] (Locked pid m.tenantId m.id m) s) :
    Controls sha256 adapters strict valid allow pid
      (StorageMigrationWorker.executePhase sha256 adapters m)
      (Prog.outcome (fun _ => Closes sha256 adapters strict valid pid)
        (PhaseFails pid m.tenantId m.id m)) s := by
  have hm : InHand m := by
    refine ⟨?_, ?_⟩
    · cases hstate : m.state <;> rw [hstate] at hwork <;> first | rfl | cases hwork
    · intro hready
      rw [hready] at hwork
      cases hwork
  have hcheckpoint : Controls sha256 adapters strict valid allow pid
      (storage (.lockCheckpoint m.tenantId m.id))
      (Prog.outcome (fun _ => Amid pid [] (Locked pid m.tenantId m.id m))
        (PhaseFails pid m.tenantId m.id m)) s :=
    controls_read (phaseFails_sqlAlchemy _ _ m) (footing_locked _ _ m) hs
      (fun _ _ _ _ => ⟨_, rfl, fun _ _ _ h => h⟩)
  refine hcheckpoint.bind (fun checkpoint s₁ hs₁ => ?_) (fun _ _ h => h)
  by_cases hback : m.state = .BACKFILLING
  · rw [if_pos hback]
    exact controls_copy (fun _ h => controls_backfill hm h) (by rw [hback]; rfl) (.backfilled hback)
      (by decide) hs₁
  · rw [if_neg hback]
    cases checkpoint with
    | none => exact fun _ => hs₁
    | some checkpoint =>
      by_cases hcatch : m.state = .CATCHING_UP
      · show Controls sha256 adapters strict valid allow pid (if _ then _ else _) _ s₁
        rw [if_pos hcatch]
        exact controls_copy (fun _ h => controls_catchUp hm h) (by rw [hcatch]; rfl)
          (.caughtUp hcatch) (by decide) hs₁
      by_cases hvalidating : m.state = .VALIDATING
      · show Controls sha256 adapters strict valid allow pid (if _ then _ else _) _ s₁
        rw [if_neg hcatch, if_pos hvalidating]
        exact validating hvalidating hapart hs₁
      by_cases hrolling : m.state = .ROLLING_BACK
      · show Controls sha256 adapters strict valid allow pid (if _ then _ else _) _ s₁
        rw [if_neg hcatch, if_neg hvalidating, if_pos hrolling]
        exact controls_copy (fun _ h => controls_backfill hm h) (by rw [hrolling]; rfl)
          (.rollbackBackfilled hrolling) (by decide) hs₁
      by_cases hrecatch : m.state = .ROLLBACK_CATCHING_UP
      · show Controls sha256 adapters strict valid allow pid (if _ then _ else _) _ s₁
        rw [if_neg hcatch, if_neg hvalidating, if_neg hrolling, if_pos hrecatch]
        exact controls_copy (fun _ h => controls_catchUp hm h) (by rw [hrecatch]; rfl)
          (.rollbackCaughtUp hrecatch) (by decide) hs₁
      · show Controls sha256 adapters strict valid allow pid (if _ then _ else _) _ s₁
        rw [if_neg hcatch, if_neg hvalidating, if_neg hrolling, if_neg hrecatch]
        have hlast : m.state = .ROLLBACK_VALIDATING := by
          cases hstate : m.state with
          | BACKFILLING => exact absurd hstate hback
          | CATCHING_UP => exact absurd hstate hcatch
          | VALIDATING => exact absurd hstate hvalidating
          | ROLLING_BACK => exact absurd hstate hrolling
          | ROLLBACK_CATCHING_UP => exact absurd hstate hrecatch
          | ROLLBACK_VALIDATING => rfl
          | _ => rw [hstate] at hwork; cases hwork
        exact restoring hm hlast hapart hs₁
where
  /-- `VALIDATING`. -/
  validating {m : StorageMigration} {s : StorageState} (hstate : m.state = .VALIDATING)
      (hapart : m.sourceProfileId ≠ m.targetProfileId)
      (hs : Amid pid [] (Locked pid m.tenantId m.id m) s) :
      Controls sha256 adapters strict valid allow pid (do
        let evidence ← StorageMigrationWorker.validate sha256 adapters m.tenantId m.sourceProfileId
          m.targetProfileId
        if evidence.isValid = false then
          throw (storageMigrationError "STORAGE_MIGRATION_VALIDATION_FAILED")
        else StorageMigrationWorker.advance m .VALIDATE "validate" (some evidence))
        (Prog.outcome (fun _ => Closes sha256 adapters strict valid pid)
          (PhaseFails pid m.tenantId m.id m)) s := by
    refine (controls_validate hstate hapart hs).bind (fun e s₁ hs₁ => ?_) (fun _ _ h => h)
    obtain ⟨found, rfl, hs₁⟩ := hs₁
    by_cases he : (ValidationEvidence.ofPairs sha256 found).isValid = true
    · rw [if_neg (by rw [he]; decide)]
      refine controls_advance ?_ (.validated _ hstate he)
        (footing_validating hstate (undisturbing_pairs sha256 m _ _ found)) (fun _ h => h.1)
        (fun w hw => absurd hw List.not_mem_nil) (fun s' h _ hv hw =>
          agree_of_evidence (h.2 hv) he hw) (phaseFails_sqlAlchemy _ _ m) hs₁
      rw [hstate]
      unfold StorageMigrationState.advance
      simp [StorageMigrationState.transition, he]
    · rw [if_pos (by simpa using he)]
      exact fun _ => ⟨hs₁.1, hs₁.2.1⟩
  /-- `ROLLBACK_VALIDATING`. -/
  restoring {m : StorageMigration} {s : StorageState} (hm : InHand m)
      (hstate : m.state = .ROLLBACK_VALIDATING)
      (hapart : m.sourceProfileId ≠ m.targetProfileId)
      (hs : Amid pid [] (Locked pid m.tenantId m.id m) s) :
      Controls sha256 adapters strict valid allow pid (do
        let evidence ← StorageMigrationWorker.validate sha256 adapters m.tenantId m.targetProfileId
          m.sourceProfileId
        if evidence.isValid = false then
          throw (storageMigrationError "STORAGE_MIGRATION_ROLLBACK_VALIDATION_FAILED")
        else do
          let _ ← storage (.setActive m.tenantId m.targetProfileId false)
          let _ ← storage (.setActive m.tenantId m.sourceProfileId true)
          StorageMigrationWorker.advance m .ROLLBACK_VALIDATE "rollback_switch" (some evidence))
        (Prog.outcome (fun _ => Closes sha256 adapters strict valid pid)
          (PhaseFails pid m.tenantId m.id m)) s := by
    refine (controls_validate_locked hm hs).bind (fun e s₁ hs₁ => ?_) (fun _ _ h => h)
    by_cases he : e.isValid = true
    · rw [if_neg (by rw [he]; decide)]
      exact controls_restore hstate hapart he hs₁
    · rw [if_pos (by simpa using he)]
      exact fun _ => hs₁

/-- What is picked from a list, one element at a time, is in the list. -/
theorem mem_of_foldl {α : Type} {f : Option α → α → Option α}
    (hf : ∀ found x y, f found x = some y → y = x ∨ found = some y) {l : List α}
    {found : Option α} {y : α} (h : l.foldl f found = some y) : y ∈ l ∨ found = some y := by
  induction l generalizing found with
  | nil => exact .inr h
  | cons x l ih =>
    rcases ih h with hmem | hx
    · exact .inl (List.mem_cons_of_mem x hmem)
    · refine (hf found x y hx).imp_left (fun hyx => ?_)
      rw [hyx]
      exact List.mem_cons_self

theorem mem_of_earliest {ms : List StorageMigration} {m : StorageMigration}
    (h : StorageDb.earliest ms = some m) : m ∈ ms := by
  refine (mem_of_foldl (fun found x y hy => ?_) h).resolve_right (fun hnone => by cases hnone)
  cases found with
  | none => exact .inl (Option.some.inj hy).symm
  | some m' =>
    dsimp only at hy
    split at hy
    · exact .inl (Option.some.inj hy).symm
    · exact .inr hy

/-- The migration that the worker finds. -/
theorem workable_spec {db : StorageDb} {free : StorageRow → Bool} {t : Uuid} {m : StorageMigration}
    (hok : ControlOk strict valid db) (h : db.workable free t = some m) :
    db.migrations t m.id = some m ∧ MigrationAt valid db t m.id m ∧ m.state.isWorkable = true := by
  obtain ⟨hmem, hwork⟩ := List.mem_filter.mp (mem_of_earliest h)
  obtain ⟨id, -, hrow⟩ := List.mem_filterMap.mp hmem
  have hat := hok.row t id m hrow
  obtain rfl := hat.id
  exact ⟨hrow, hat, (Bool.and_eq_true_iff.mp hwork).1⟩

/-- **`_record_failure`.** -/
theorem controls_recordFailure {m : StorageMigration} (hwork : m.state.isWorkable = true)
    (hs : Amid pid [] (Locked pid m.tenantId m.id m) s) :
    Controls sha256 adapters strict valid allow pid (StorageMigrationWorker.recordFailure m)
      (Prog.outcome (fun _ => Closes sha256 adapters strict valid pid) (fun _ _ => True)) s := by
  unfold StorageMigrationWorker.recordFailure
  split
  · have haudit : Controls sha256 adapters strict valid allow pid
        (storage (.insertAudit "storage_migration.worker.failure"))
        (Prog.outcome (fun _ => Amid pid [] (fun _ => True)) (fun _ _ => True)) s :=
      controls_read (fun _ => trivial) footing_true ⟨hs.1, trivial⟩
        (fun _ _ _ _ => ⟨(), rfl, fun _ _ _ h => h⟩)
    refine haudit.bind (fun _ s₁ hs₁ => ?_) (fun _ _ h => h)
    have hprofiling : Profiling pid m.tenantId m.id s₁ :=
      ⟨[], fun w hw => absurd hw List.not_mem_nil, .inl hs₁⟩
    exact closes_profiling hprofiling
  · rename_i hrollback
    refine controls_update rfl rfl (.failed ?_) (fun h => by cases h) hs
    cases hstate : m.state with
    | BACKFILLING => exact .inl rfl
    | CATCHING_UP => exact .inr (.inl rfl)
    | VALIDATING => exact .inr (.inr rfl)
    | ROLLING_BACK => rw [hstate] at hrollback; exact absurd rfl hrollback
    | ROLLBACK_CATCHING_UP => rw [hstate] at hrollback; exact absurd rfl hrollback
    | ROLLBACK_VALIDATING => rw [hstate] at hrollback; exact absurd rfl hrollback
    | _ => rw [hstate] at hwork; cases hwork

/-- **`run_once`.** -/
theorem controls_runOnce (t : Uuid) :
    Controls sha256 adapters strict valid allow pid
      (StorageMigrationWorker.runOnce sha256 adapters t) (fun _ _ => True) s := by
  refine controls_transaction (fun _ s₁ hs₁ => ?_)
  have hlock : Controls sha256 adapters strict valid allow pid (storage (.lockWorkable t))
      (Prog.outcome (fun found s' => Amid pid [] (fun _ => True) s' ∧ ∀ m, found = some m →
        (m.tenantId = t ∧ m.sourceProfileId ≠ m.targetProfileId ∧ m.state.isWorkable = true)
          ∧ Amid pid [] (Locked pid t m.id m) s') (fun _ _ => True)) s₁ := by
    refine controls_read (fun _ => trivial) footing_true hs₁ (fun a s₂ hr _ => ?_)
    refine ⟨_, rfl, fun s₃ hc hl hs₃ => ⟨hs₃, fun m hfound => ?_⟩⟩
    obtain ⟨hrow, hat, hwork⟩ := workable_spec (controlOk_of_recorded hr) hfound
    refine ⟨⟨hat.tenantId, hat.apart, hwork⟩, hs₃.1, hl _ ?_, by rw [hc]; exact hrow⟩
    simp only [StorageOp.locks, hfound, List.mem_singleton]
  refine hlock.bind (fun found s₂ hs₂ => ?_) (fun _ _ h => h)
  cases found with
  | none =>
    have hprofiling : Profiling pid t t s₂ :=
      ⟨[], fun w hw => absurd hw List.not_mem_nil, .inl hs₂.1⟩
    exact closes_profiling hprofiling
  | some m =>
    obtain ⟨⟨rfl, hapart, hwork⟩, hs₂⟩ := hs₂.2 m rfl
    have hphase : Controls sha256 adapters strict valid allow pid
        (tryCatch (StorageMigrationWorker.executePhase sha256 adapters m) (fun e =>
          if StorageMigrationWorker.isMigrationError e then StorageMigrationWorker.recordFailure m
          else throw e))
        (Prog.outcome (fun _ => Closes sha256 adapters strict valid pid) (fun _ _ => True)) s₂ := by
      refine (Prog.safe_tryCatch _ _ _ _).mpr (Prog.Safe.mono
        (controls_executePhase hwork hapart hs₂) (fun r s₃ hr => ?_))
      cases r with
      | ok _ => exact hr
      | error e =>
        show Controls sha256 adapters strict valid allow pid (if _ then _ else _) _ s₃
        split
        · rename_i he
          exact controls_recordFailure hwork (hr he)
        · trivial
    exact hphase.bind (fun _ _ h => h) (fun _ _ h => h)

/-! ## The business -/

/-- **A write of the business** commits nothing and reaches the adapters of its tenant. -/
theorem controls_businessWrite {t : Uuid} (hvalid : valid t) (i : ℕ) (key : String)
    (value : Option Bytes) (hs : s.pending pid = none) :
    Controls sha256 adapters strict valid allow pid (storage (.businessWrite t i key value))
      (fun _ _ => True) s := by
  refine controlRegime_sound.records_single hs (fun _ _ => trivial) (fun s₁ hout a hr _ => ?_)
  have hok := controlOk_of_recorded hr
  have hquiet : ControlCommit strict valid s₁.committed s₁.committed :=
    ⟨fun _ _ h => h, .quiet rfl rfl rfl⟩
  have hcommitted := fun r (x : StorageExt)
      (h : StorageOp.exec sha256 a (Engine.free s₁ pid) s₁.committed s₁.ext
        (.businessWrite t i key value) = (.ok r, [], x)) =>
    Engine.ran_single (N := storageEngine sha256) (a := a) hout
      (show (storageEngine sha256).exec a (.businessWrite t i key value) (Engine.free s₁ pid)
        s₁.committed s₁.ext = (.ok r, [], x) from h)
  cases hp : s₁.committed.writeProfile t with
  | none =>
    obtain ⟨hc, hx⟩ := hcommitted false s₁.ext (by simp only [StorageOp.exec, hp])
    refine ⟨?_, ?_, fun q _ => ⟨?_, .of_ext_eq hx⟩, trivial⟩
    · rw [hc]
      exact hquiet
    · show EvidenceHolds sha256 adapters valid _ _
      rw [hc, hx]
      exact hr.also
    · rw [hc]
      exact .refl _
  | some p =>
    have hwrote := businessWrote s₁.ext (Uuid.str t) p i
      (StorageOp.writeAdapter (s₁.ext.stores p i) (Uuid.str t) key value)
      (fun t' ht' => writeAdapter_of_ne _ ht' key value)
    obtain ⟨hc, hx⟩ := hcommitted true _ (by simp only [StorageOp.exec, hp]; rfl)
    refine ⟨?_, ?_, fun q _ => ⟨?_, AdaptersKept.of_business (i := i) hok hvalid hp ?_⟩, trivial⟩
    · rw [hc]
      exact hquiet
    · show EvidenceHolds sha256 adapters valid _ _
      rw [hc, hx]
      exact EvidenceHolds.of_business hr.also hok hvalid hp hwrote
    · rw [hc]
      exact .refl _
    · rw [hx]
      exact hwrote

/-! ## The system -/

/-- The tenant of a call. -/
def StorageCall.tenant : StorageCall → Uuid
  | .createProfile t .. => t
  | .createMigration t .. => t
  | .decideMigrationApproval t .. => t
  | .startMigration t _ => t
  | .advanceMigration t .. => t
  | .decideRollbackApproval t .. => t
  | .rollbackMigration t _ => t
  | .runOnce t => t
  | .businessWrite t .. => t

/-- **Whatever is called commits changes only.** -/
theorem controls_body {call : StorageCall} (hvalid : valid call.tenant)
    (hallow : ∀ a row s, allow (.serve a) (.run (.insertMigration row)) s → strict →
      (s.committed.active row.tenantId).head? = some row.sourceProfileId)
    (hs : s.pending pid = none) :
    Controls sha256 adapters strict valid allow pid (storageBody sha256 adapters call)
      (fun _ _ => True) s := by
  cases call with
  | createProfile t id payload =>
    exact (controls_createProfile t id payload).bind (fun _ _ _ => trivial) (fun _ _ _ => trivial)
  | createMigration t id target seconds subject =>
    exact controls_createMigration hvalid id target seconds subject hallow
  | decideMigrationApproval t id approve subject =>
    exact controls_decideMigrationApproval t id approve subject
  | startMigration t id => exact controls_startMigration t id
  | advanceMigration t id payload => exact controls_advanceMigration t id payload
  | decideRollbackApproval t id decision subject =>
    exact controls_decideRollbackApproval t id decision subject
  | rollbackMigration t id => exact controls_rollbackMigration t id
  | runOnce t =>
    exact (controls_runOnce t).bind (fun _ _ _ => trivial) (fun _ _ _ => trivial)
  | businessWrite t i key value =>
    exact (controls_businessWrite hvalid i key value hs).bind (fun _ _ _ => trivial)
      (fun _ _ _ => trivial)

end Programs

section System

variable (sha256 : Bytes → String) (adapters : Uuid → Uuid → Uuid → ℕ) (strict : Prop)
  (valid : Uuid → Prop)

/-- **No other profile has become the active one** between the statement of
`create_migration` that reads it and the one that inserts the row. -/
def SourceStands (op : TxOp StorageOp) (s : StorageState) : Prop :=
  ∀ row, op = .run (.insertMigration row) →
    (s.committed.active row.tenantId).head? = some row.sourceProfileId

/-- The state of the control plane with its calls. -/
abbrev StorageCalls :=
  Pool.State (TxOp StorageOp) (TxRes StorageRes) PyException StorageState StorageCall Unit

/-- A step of a run. -/
abbrev StorageLabel := Pool.Label (Choice StorageSupply) StorageCall Empty

/-- The control plane, every call of it. -/
def controlDiscipline : Pool.Discipline (storagePool sha256 adapters) storageStart
    (fun _ call => valid call.tenant) (fun _ _ op s => strict → SourceStands op s)
    (fun _ _ => True) :=
  Engine.changeDiscipline (G := controlRegime sha256 adapters strict valid) controlRegime_sound
    (by
      rintro s ⟨ext, rfl⟩
      exact ⟨fun _ _ _ _ hm => (by cases hm), StorageDb.empty, ext, rfl, rfl⟩)
    (fun _ _ _ hvalid _ hunused => controls_body hvalid
      (fun _ row _ h hstrict => h hstrict row rfl) hunused.1)

end System
