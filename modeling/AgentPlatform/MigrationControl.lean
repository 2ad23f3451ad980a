import AgentPlatform.StoragePrograms

/-!
# The control plane of migrations, over whole runs

Two readings of the same tables. `MigrationControl` is what operators count on: one active
profile, one open migration, a profile that stands where the migration says, two persons
behind each decision, and no migration observed that has not been copied, replayed and
validated. It holds in every run in which no other profile has become the active one
between the two statements of `create_migration` that read it and insert the row;
without that a migration can be requested from a profile that is active no more.

`DatabaseStorageProfileResolver` is what the runtime counts on. It looks for *any*
migration to the active profile that is neither observing nor completed, so that one that
failed long ago fences a profile for good.
-/

/-! ## What a migration has been through -/

/-- The state of a migration, and whether its evidence is valid. -/
def StorageMigration.stage (m : StorageMigration) : StorageMigrationState × Bool :=
  (m.state, m.validation.any ValidationEvidence.isValid)

/-- The stages of a migration, commit by commit. -/
def stages (log : List (TxCommit StorageDb)) (t id : Uuid) : List (StorageMigrationState × Bool) :=
  log.filterMap (fun c => (c.after.migrations t id).map StorageMigration.stage)

/-- **What a migration has been through** in a state. -/
def StorageMigrationState.path : StorageMigrationState → List (StorageMigrationState × Bool)
  | .PREPARED => []
  | .FAILED => []
  | .BACKFILLING => [(.BACKFILLING, false)]
  | .CATCHING_UP => [(.BACKFILLING, false), (.CATCHING_UP, false)]
  | .VALIDATING => [(.BACKFILLING, false), (.CATCHING_UP, false), (.VALIDATING, false)]
  | .READY_TO_SWITCH =>
    [(.BACKFILLING, false), (.CATCHING_UP, false), (.VALIDATING, false), (.READY_TO_SWITCH, true)]
  | _ => [(.BACKFILLING, false), (.CATCHING_UP, false), (.VALIDATING, false),
      (.READY_TO_SWITCH, true), (.OBSERVING, true)]

theorem stages_snoc (log : List (TxCommit StorageDb)) (c : TxCommit StorageDb) (t id : Uuid)
    {m : StorageMigration} (hm : c.after.migrations t id = some m) :
    stages (log ++ [c]) t id = stages log t id ++ [m.stage] := by
  unfold stages
  rw [List.filterMap_append]
  simp [hm]

/-- The path of a state that is reached by a step. -/
theorem MigrationStep.path {m : StorageMigration} {u : MigrationUpdate} (hu : MigrationStep m u)
    (h : MigrationOk m) : (u.apply m).state.path.Sublist (m.state.path ++ [(u.apply m).stage]) := by
  have hok := h.step hu
  have hfalse : (u.apply m).state.isValidated = false → (u.apply m).state ≠ .FAILED →
      (u.apply m).stage = ((u.apply m).state, false) := by
    intro hv hne
    unfold StorageMigration.stage
    rw [hok.unvalidated hv hne]
    rfl
  have htrue : (u.apply m).state.isValidated = true →
      (u.apply m).stage = ((u.apply m).state, true) := by
    intro hv
    unfold StorageMigration.stage
    rw [hok.validated hv]
  cases hu with
  | approved _ hpending _ => exact List.nil_sublist _
  | denied _ hpending => exact List.nil_sublist _
  | failed hstate => exact List.nil_sublist _
  | started hstate _ =>
    rw [hfalse rfl (fun h => by cases h), hstate]
    exact List.Sublist.refl _
  | backfilled hstate =>
    rw [hfalse rfl (fun h => by cases h), hstate]
    exact List.Sublist.refl _
  | caughtUp hstate =>
    rw [hfalse rfl (fun h => by cases h), hstate]
    exact List.Sublist.refl _
  | validated e hstate he =>
    rw [htrue rfl, hstate]
    exact List.Sublist.refl _
  | completed hstate => rw [hstate]; exact List.sublist_append_left _ _
  | rollbackRequested _ _ _ => exact List.sublist_append_left _ _
  | rollbackApproved _ _ _ _ => exact List.sublist_append_left _ _
  | rollbackDenied _ _ _ => exact List.sublist_append_left _ _
  | rollbackStarted hstate _ => rw [hstate]; exact List.sublist_append_left _ _
  | rollbackBackfilled hstate => rw [hstate]; exact List.sublist_append_left _ _
  | rollbackCaughtUp hstate => rw [hstate]; exact List.sublist_append_left _ _

section History

variable {strict : Prop} {valid : Uuid → Prop}

/-- **A commit adds the stage it leads to.** -/
theorem path_commit {log : List (TxCommit StorageDb)} {c : TxCommit StorageDb}
    (hc : ControlCommit strict valid c.before c.after) (hok : ControlOk strict valid c.before)
    (h : ∀ t id m, c.before.migrations t id = some m → m.state.path.Sublist (stages log t id))
    (t id : Uuid) (m : StorageMigration) (hm : c.after.migrations t id = some m) :
    m.state.path.Sublist (stages (log ++ [c]) t id) := by
  rw [stages_snoc log c t id hm]
  -- A row that is not touched has its stages already.
  have hold : c.before.migrations t id = some m →
      m.state.path.Sublist (stages log t id ++ [m.stage]) :=
    fun hbefore => (h t id m hbefore).trans (List.sublist_append_left _ _)
  have hreplaced : ∀ {m₀ m' : StorageMigration}, c.before.migrations m₀.tenantId m₀.id = some m₀ →
      c.after.migrations = setAt c.before.migrations m₀.tenantId m₀.id (some m') →
      m'.state.path.Sublist (m₀.state.path ++ [m'.stage]) →
      m.state.path.Sublist (stages log t id ++ [m.stage]) := by
    intro m₀ m' hm₀ hrows hstep
    rw [hrows] at hm
    by_cases hk : t = m₀.tenantId ∧ id = m₀.id
    · obtain ⟨rfl, rfl⟩ := hk
      rw [setAt_self] at hm
      obtain rfl := Option.some.inj hm
      exact hstep.trans ((h _ _ m₀ hm₀).append (List.Sublist.refl _))
    · rw [setAt_of_ne _ _ hk] at hm
      exact hold hm
  cases hc.change with
  | quiet hrows horder hactive => exact hold (by rw [← hrows]; exact hm)
  | profiled t' id' hnone hrows horder hactive => exact hold (by rw [← hrows]; exact hm)
  | requested t' id' source target subject seconds now hvalid hnew hne hsource htarget hclosed
      hchosen hstrict hrows horder hactive =>
    rw [hrows] at hm
    by_cases hk : t = t' ∧ id = id'
    · obtain ⟨rfl, rfl⟩ := hk
      rw [setAt_self] at hm
      obtain rfl := Option.some.inj hm
      exact List.nil_sublist _
    · rw [setAt_of_ne _ _ hk] at hm
      exact hold hm
  | stepped m₀ u hm₀ hu hrows horder hactive =>
    exact hreplaced hm₀ hrows (hu.path (hok.row _ _ m₀ hm₀).ok)
  | switched m₀ endsAt hm₀ hstate hrows horder hactive =>
    refine hreplaced hm₀ hrows ?_
    have hvalidated := (hok.row _ _ m₀ hm₀).ok.validated (by rw [hstate]; rfl)
    unfold StorageMigration.stage
    rw [hstate, show ((MigrationUpdate.advance .OBSERVING m₀.validation endsAt).apply m₀).validation
      = m₀.validation from rfl, hvalidated]
    exact List.Sublist.refl _
  | restored m₀ e hm₀ hstate he hrows horder hactive =>
    refine hreplaced hm₀ hrows ?_
    rw [hstate]
    exact List.sublist_append_left _ _

/-- **Every migration has been through its path.** -/
theorem path_of_chronicle {sha256 : Bytes → String} {adapters : Uuid → Uuid → Uuid → ℕ}
    {s : StorageState} (h : Chronicle sha256 adapters strict valid s) (t id : Uuid)
    (m : StorageMigration) (hm : s.committed.migrations t id = some m) :
    m.state.path.Sublist (stages s.log t id) := by
  have hall := h.history (P := fun log db => ControlOk strict valid db
    ∧ ∀ t id m, db.migrations t id = some m → m.state.path.Sublist (stages log t id))
    (by
      rintro db rfl
      exact ⟨.empty, fun _ _ _ hm => (by cases hm)⟩)
    (fun log c hc hP => ⟨hP.1.commit hc, path_commit hc hP.1 hP.2⟩)
  exact hall.2 t id m hm

end History

/-! ## What operators count on -/

/-- **The control plane of a tenant**, as it is committed. -/
structure MigrationControl (log : List (TxCommit StorageDb)) (db : StorageDb) (t : Uuid) :
    Prop where
  oneActive : (db.active t).length ≤ 1
  oneOpen : ((db.migrationsOf t).filter (fun m => !m.state.isClosed)).length ≤ 1
  before : ∀ m ∈ db.migrationsOf t, m.state.isClosed = false → m.state.isSwitched = false →
    db.active t = [m.sourceProfileId]
  after : ∀ m ∈ db.migrationsOf t, m.state.isClosed = false → m.state.isSwitched = true →
    db.active t = [m.targetProfileId]
  approved : ∀ m ∈ db.migrationsOf t, m.state ≠ .PREPARED → m.state ≠ .FAILED →
    m.approvalStatus = .APPROVED ∧ ∃ a, m.approvedBy = some a ∧ a ≠ m.requestedBy
  rollbackApproved : ∀ m ∈ db.migrationsOf t, m.state.isRollback ∨ m.state = .ROLLED_BACK →
    m.rollbackApprovalStatus = .APPROVED
      ∧ ∃ r a, m.rollbackRequestedBy = some r ∧ m.rollbackApprovedBy = some a ∧ a ≠ r
  passed : ∀ m ∈ db.migrationsOf t, m.state.isSwitched ∨ m.state = .ROLLED_BACK →
    [(StorageMigrationState.BACKFILLING, false), (.CATCHING_UP, false), (.VALIDATING, false),
      (.READY_TO_SWITCH, true), (.OBSERVING, true)].Sublist (stages log t m.id)

section Order

variable {strict : Prop} {valid : Uuid → Prop} {db : StorageDb} {t : Uuid}

/-- The migrations of a tenant are rows of the table. -/
theorem ControlOk.row_of_mem (h : ControlOk strict valid db) {m : StorageMigration}
    (hm : m ∈ db.migrationsOf t) :
    db.migrations t m.id = some m ∧ MigrationAt valid db t m.id m := by
  obtain ⟨id, -, hrow⟩ := List.mem_filterMap.mp hm
  have hat := h.row t id m hrow
  obtain rfl := hat.id
  exact ⟨hrow, hat⟩

/-- No migration is listed twice. -/
theorem ControlOk.migrationsOf_nodup (h : ControlOk strict valid db) :
    (db.migrationsOf t).Nodup := by
  refine List.Nodup.filterMap (fun id id' m hm hm' => ?_) (h.nodup t)
  exact (h.row t id m hm).id.symm.trans (h.row t id' m hm').id

/-- **Open migrations, counted.** -/
theorem ControlOk.open_length_le (h : ControlOk strict valid db) :
    ((db.migrationsOf t).filter (fun m => !m.state.isClosed)).length ≤ 1 := by
  have hall : ∀ m ∈ (db.migrationsOf t).filter (fun m => !m.state.isClosed),
      db.migrations t m.id = some m ∧ m.state.isClosed = false := by
    intro m hm
    obtain ⟨hmem, hopen⟩ := List.mem_filter.mp hm
    exact ⟨(h.row_of_mem hmem).1, by simpa using hopen⟩
  have hnodup : ((db.migrationsOf t).filter (fun m => !m.state.isClosed)).Nodup :=
    h.migrationsOf_nodup.filter _
  by_contra hlen
  obtain ⟨a, b, l, hl⟩ : ∃ a b l,
      (db.migrationsOf t).filter (fun m => !m.state.isClosed) = a :: b :: l := by
    cases hf : (db.migrationsOf t).filter (fun m => !m.state.isClosed) with
    | nil => rw [hf] at hlen; simp at hlen
    | cons a l =>
      cases l with
      | nil => rw [hf] at hlen; simp at hlen
      | cons b l => exact ⟨a, b, l, rfl⟩
  rw [hl] at hall hnodup
  obtain ⟨hrow, hopen⟩ := hall a List.mem_cons_self
  obtain ⟨hrow', hopen'⟩ := hall b (List.mem_cons_of_mem _ List.mem_cons_self)
  have heq := (h.open_unique hrow hopen hrow' hopen').2
  rw [heq] at hnodup
  exact (List.nodup_cons.mp hnodup).1 List.mem_cons_self

end Order

/-- The runs in which no other profile becomes the active one under a request. -/
abbrev sourceStands (w : StorageCalls) (l : StorageLabel) : Prop :=
  Pool.stepOk (fun _ _ => True) (fun _ _ op s => SourceStands op s) (fun _ _ => True) w l

/-- **In every run in which the active profile a request has read is still the active one
when it inserts its row, the control plane is in order.** -/
theorem migrationControl_of_sourceStands (sha256 : Bytes → String)
    (adapters : Uuid → Uuid → Uuid → ℕ) {w : StorageCalls}
    (h : (storageMachine sha256 adapters).Reach sourceStands w) (t : Uuid) :
    MigrationControl w.shared.log w.shared.committed t := by
  have hreach := h.mono (fun v l hok => Pool.stepOk.mono (fun _ _ _ => trivial)
    (fun _ _ _ _ hal (_ : True) => hal) (fun _ _ hal => hal) hok)
  have hrec : Chronicle sha256 adapters True (fun _ => True) w.shared :=
    (Pool.reach_safe (controlDiscipline sha256 adapters True (fun _ => True)) hreach).inv
  have hok := controlOk_of_recorded hrec
  have hstanding : ∀ m ∈ w.shared.committed.migrationsOf t, m.state.isClosed = false →
      w.shared.committed.active t = [m.standing] := by
    intro m hm hopen
    have hrow := (hok.row_of_mem hm).1
    exact hok.standing t m.id m (hok.last t m.id m hrow hopen) hrow (.inl trivial)
  refine ⟨hok.single t, hok.open_length_le, fun m hm hopen hsw => ?_, fun m hm hopen hsw => ?_,
    fun m hm hne hne' => ?_, fun m hm hstate => ?_, fun m hm hstate => ?_⟩
  · rw [hstanding m hm hopen]
    unfold StorageMigration.standing
    rw [hsw]
    rfl
  · rw [hstanding m hm hopen]
    unfold StorageMigration.standing
    rw [hsw]
    rfl
  · have hm := (hok.row_of_mem hm).2.ok
    exact ⟨hm.beyond hne hne', hm.approved (hm.beyond hne hne')⟩
  · have hm := (hok.row_of_mem hm).2.ok
    exact ⟨hm.rolling hstate, hm.rollbackApproved (hm.rolling hstate)⟩
  · have hpath := path_of_chronicle hrec t m.id m (hok.row_of_mem hm).1
    rcases hstate with hstate | hstate
    · cases hs : m.state <;> rw [hs] at hstate hpath <;> first | exact hpath | cases hstate
    · rw [hstate] at hpath
      exact hpath

/-! ## Runs -/

/-- The digests of no bytes and of the text of that digest. -/
def sampleSha256 (b : Bytes) : String :=
  if b = [] then "e3b0c44298fc1c149afbf4c8996fb92427ae41e4649b934ca495991b7852b855"
  else "cd372fb85148700fa88095e3492d3f9f5beb43e555e5ff26d95f5a6adc36f8e6"

/-- A backend of the tenant 1. -/
def sampleBackend (kind : AdapterKind) : StorageBackend :=
  ⟨kind, "https://storage.example", "vault://tenant/00000000-0000-0000-0000-000000000001/storage",
    false⟩

/-- A Storage Profile of the tenant 1. -/
def sampleProfile (name : String) (activate : Bool) : StorageProfileCreate :=
  ⟨⟨name, .INTERNAL, "shared-workers", "vault://tenant/00000000-0000-0000-0000-000000000001/key",
    [sampleBackend .SQL, sampleBackend .REDIS, sampleBackend .VECTOR, sampleBackend .OBJECT]⟩,
    activate⟩

/-- One pair of adapters, all of them empty. -/
abbrev sampleMachine := storageMachine sampleSha256 (fun _ _ _ => 1)

/-- Before the first call. -/
def sampleStart : StorageCalls :=
  Pool.idle (Engine.quiet StorageDb.empty ⟨fun _ _ => MemoryAdapter.new, fun _ _ _ => false⟩)

theorem sampleStart_init : sampleMachine.init sampleStart := ⟨_, ⟨_, rfl⟩, rfl⟩

/-- Requests of one call, served one after another. -/
def turns (pid n : ℕ) (now : Timestamp) : List StorageLabel :=
  List.replicate n (.act pid (.serve ⟨now, none⟩))

/-- The profiles 10, which is active, 20 and 30. -/
def profilesCreated : List StorageLabel :=
  .spawn (.createProfile 1 10 (sampleProfile "primary" true)) :: turns 0 8 0
    ++ .spawn (.createProfile 1 20 (sampleProfile "secondary" false)) :: turns 1 8 0
    ++ .spawn (.createProfile 1 30 (sampleProfile "tertiary" false)) :: turns 2 8 0

/-- A migration from 10 to 20, up to `READY_TO_SWITCH`. -/
def readied : List StorageLabel :=
  .spawn (.createMigration 1 100 20 300 "alice") :: turns 3 7 0
    ++ .spawn (.decideMigrationApproval 1 100 true "bob") :: turns 4 6 0
    ++ .spawn (.startMigration 1 100) :: turns 5 6 0
    ++ .spawn (.runOnce 1) :: turns 6 10 0
    ++ .spawn (.runOnce 1) :: turns 7 10 0
    ++ .spawn (.runOnce 1) :: turns 8 10 0

/-- The business is switched to 20. -/
def switchedOver (pid : ℕ) : List StorageLabel :=
  .spawn (.advanceMigration 1 100 .SWITCH) :: turns pid 9 0

/-- … and the migration is completed. -/
def completedAfter (pid : ℕ) : List StorageLabel :=
  .spawn (.advanceMigration 1 100 .COMPLETE) :: turns pid 7 300000000

/-- A test of `SourceStands`. -/
def sourceStandsTest (op : TxOp StorageOp) (s : StorageState) : Bool :=
  match op with
  | .run (.insertMigration row) =>
    (s.committed.active row.tenantId).head? = some row.sourceProfileId
  | _ => true

theorem sourceStands_of_test {op : TxOp StorageOp} {s : StorageState}
    (h : sourceStandsTest op s = true) : SourceStands op s := by
  rintro row rfl
  exact of_decide_eq_true h

/-- A migration from 10 to 20 that is denied, and the next one, up to its observation. -/
def observedAfterDenial : List StorageLabel :=
  .spawn (.createMigration 1 90 20 300 "alice") :: turns 3 7 0
    ++ .spawn (.decideMigrationApproval 1 90 false "bob") :: turns 4 6 0
    ++ .spawn (.createMigration 1 100 20 300 "alice") :: turns 5 7 0
    ++ .spawn (.decideMigrationApproval 1 100 true "bob") :: turns 6 6 0
    ++ .spawn (.startMigration 1 100) :: turns 7 6 0
    ++ .spawn (.runOnce 1) :: turns 8 10 0
    ++ .spawn (.runOnce 1) :: turns 9 10 0
    ++ .spawn (.runOnce 1) :: turns 10 10 0
    ++ switchedOver 11

/-- The migration observed, a request that has read a profile before its migration, and a
migration that follows a denied one. -/
theorem sample_runs :
    (sampleMachine.runIf (Pool.actTest (fun _ _ op s => sourceStandsTest op s))
      sampleStart (profilesCreated ++ readied ++ switchedOver 9)).map (fun w => decide
        ((w.shared.committed.migrationsOf 1).map (fun m => m.state) = [.OBSERVING]))
        = some true
    ∧ (sampleMachine.runIf (fun _ _ => true) sampleStart
      (profilesCreated ++ readied
        ++ .spawn (.createMigration 1 200 30 300 "alice") :: turns 9 4 0
        ++ switchedOver 10 ++ completedAfter 11 ++ turns 9 3 300000000)).map (fun w => decide
        (w.shared.committed.active 1 = [20]
          ∧ ∃ m ∈ w.shared.committed.migrationsOf 1, m.state = .PREPARED
            ∧ m.sourceProfileId = 10)) = some true
    ∧ (sampleMachine.runIf (fun _ _ => true) sampleStart
      (profilesCreated ++ readied ++ switchedOver 9)).map (fun w => decide
        (w.shared.committed.resolve 1 = w.shared.committed.writeProfile 1
          ∧ w.shared.committed.writeProfile 1 = some 20)) = some true
    ∧ (sampleMachine.runIf (fun _ _ => true) sampleStart
      (profilesCreated ++ observedAfterDenial)).map (fun w => decide
        (w.shared.committed.writeProfile 1 = some 20 ∧ w.shared.committed.resolve 1 = none))
        = some true := by
  decide +kernel

/-- The migration from 10 to 20, observed. -/
theorem migrationControl_of_sourceStands_observed :
    ∃ w, sampleMachine.Reach sourceStands w
      ∧ (w.shared.committed.migrationsOf 1).map (fun m => m.state) = [.OBSERVING]
      ∧ MigrationControl w.shared.log w.shared.committed 1 := by
  have hrun := sample_runs.1
  obtain ⟨w, hw, htest⟩ := Machine.reach_of_runIf
    (Pool.stepOk_of_actTest (fun _ _ _ _ h => sourceStands_of_test h)) sampleStart_init hrun
  exact ⟨w, hw, of_decide_eq_true htest, migrationControl_of_sourceStands sampleSha256 _ hw 1⟩

/-- **A migration from a profile that is active no more**: the request has read that 10 is
active before the business is switched to 20, and inserts its row after that. -/
theorem migrationControl_stale_source :
    ∃ w, sampleMachine.Reach (fun _ _ => True) w
      ∧ ¬ MigrationControl w.shared.log w.shared.committed 1 := by
  have hrun := sample_runs.2.1
  obtain ⟨w, hw, htest⟩ := Machine.reach_of_runIf (fun _ _ _ => trivial) sampleStart_init hrun
  obtain ⟨hactive, m, hm, hstate, hsource⟩ := of_decide_eq_true htest
  refine ⟨w, hw, fun hcontrol => ?_⟩
  have hstands := hcontrol.before m hm (by rw [hstate]; rfl) (by rw [hstate]; rfl)
  rw [hactive, hsource] at hstands
  cases hstands

/-! ## What the runtime counts on -/

/-- **When the resolver and the state machine agree**: there is no migration, or the most
recent one is being rolled back, or the profile it names is the active one and no
migration to that profile has failed or been rolled back. -/
def FenceAgrees (db : StorageDb) (t : Uuid) : Prop :=
  ∀ m, db.latest t = some m → m.state.isRollback = false →
    ∃ p, m.businessWriteProfileId = some p ∧ db.active t = [p]
      ∧ ∀ m' ∈ db.migrationsOf t, m'.targetProfileId = p →
        m'.state ≠ .FAILED ∧ m'.state ≠ .ROLLED_BACK

/-- The test of the resolver, for one profile. -/
theorem resolve_test {db : StorageDb} {t p : Uuid} :
    ((db.migrationsOf t).all (fun m =>
      !(m.targetProfileId = p && !(m.state = .OBSERVING || m.state = .COMPLETED))) = true)
      ↔ ∀ m ∈ db.migrationsOf t, m.targetProfileId = p →
        m.state = .OBSERVING ∨ m.state = .COMPLETED := by
  rw [List.all_eq_true]
  refine forall₂_congr (fun m _ => ?_)
  by_cases htarget : m.targetProfileId = p
  · simp [htarget]
  · simp [htarget]

section Fence

variable {strict : Prop} {valid : Uuid → Prop} {db : StorageDb} {t : Uuid}

/-- Where the most recent migration stands among the others. -/
theorem ControlOk.latest_cases (h : ControlOk strict valid db) {m : StorageMigration}
    (hm : db.latest t = some m) : m ∈ db.migrationsOf t
      ∧ ∀ m' ∈ db.migrationsOf t, m' = m ∨ m'.state.isClosed = true := by
  refine ⟨List.mem_of_getLast? hm, fun m' hm' => ?_⟩
  by_cases hclosed : m'.state.isClosed = true
  · exact .inr hclosed
  · have hrow := (h.row_of_mem hm').1
    have hlast := latest_of_getLast (h.last t m'.id m' hrow (by simpa using hclosed)) hrow
    rw [hm] at hlast
    exact .inl (Option.some.inj hlast).symm

/-- The most recent migration is the last that was requested. -/
theorem ControlOk.getLast_of_latest (h : ControlOk strict valid db) {m : StorageMigration}
    (hm : db.latest t = some m) :
    (db.order t).getLast? = some m.id ∧ db.migrations t m.id = some m := by
  have hne : db.order t ≠ [] := by
    intro hnil
    unfold StorageDb.latest StorageDb.migrationsOf at hm
    rw [hnil] at hm
    cases hm
  obtain ⟨id, hid⟩ : ∃ id, (db.order t).getLast? = some id := by
    exact ⟨_, List.getLast?_eq_some_getLast hne⟩
  obtain ⟨m', hm'⟩ := Option.isSome_iff_exists.mp
    ((h.listed t id).mpr (List.mem_of_getLast? hid))
  rw [latest_of_getLast hid hm'] at hm
  obtain rfl := Option.some.inj hm
  rw [(h.row t id m' hm').id]
  exact ⟨hid, hm'⟩

/-- A migration to the profile that the most recent one names: it has failed, or it has
been rolled back, or it is observing or completed. -/
theorem ControlOk.target_cases (h : ControlOk strict valid db) {m m' : StorageMigration} {p : Uuid}
    (hm : db.latest t = some m) (hp : m.businessWriteProfileId = some p)
    (hm' : m' ∈ db.migrationsOf t) (htarget : m'.targetProfileId = p)
    (hfailed : m'.state ≠ .FAILED ∧ m'.state ≠ .ROLLED_BACK) :
    m'.state = .OBSERVING ∨ m'.state = .COMPLETED := by
  rcases (h.latest_cases hm).2 m' hm' with rfl | hclosed
  · -- A migration names its target only when it is observing or completed.
    by_contra hnot
    unfold StorageMigration.businessWriteProfileId at hp
    split at hp
    · cases hp
    · exact (h.row_of_mem hm').2.apart ((Option.some.inj hp).trans htarget.symm)
  · cases hs : m'.state with
    | COMPLETED => exact .inr rfl
    | FAILED => exact absurd hs hfailed.1
    | ROLLED_BACK => exact absurd hs hfailed.2
    | _ => rw [hs] at hclosed; cases hclosed

/-- **The fence, computed twice.** -/
theorem ControlOk.resolve_eq_iff (h : ControlOk strict valid db) :
    db.resolve t = db.writeProfile t ↔ FenceAgrees db t := by
  unfold StorageDb.resolve StorageDb.writeProfile FenceAgrees
  cases hm : db.latest t with
  | none =>
    have hnil : db.migrationsOf t = [] := List.getLast?_eq_none_iff.mp hm
    refine ⟨fun _ m hsome => (by cases hsome), fun _ => ?_⟩
    rw [hnil]
    cases db.active t <;> rfl
  | some m =>
    have hlast := h.getLast_of_latest hm
    by_cases hroll : m.state.isRollback = true
    · -- During a rollback the target is active, and the migration itself fences it.
      have hactive : db.active t = [m.targetProfileId] := by
        rw [h.standing t m.id m hlast.1 hlast.2 (.inr ?_)]
        · unfold StorageMigration.standing
          rw [if_pos]
          cases hs : m.state <;> rw [hs] at hroll <;> first | rfl | cases hroll
        · cases hs : m.state <;> rw [hs] at hroll <;> first | rfl | cases hroll
      have hfenced : (db.migrationsOf t).all (fun m' => !(m'.targetProfileId = m.targetProfileId
          && !(m'.state = .OBSERVING || m'.state = .COMPLETED))) = false := by
        rw [Bool.eq_false_iff, Ne, resolve_test]
        intro hall
        rcases hall m (h.latest_cases hm).1 rfl with hs | hs <;> rw [hs] at hroll <;> cases hroll
      refine ⟨fun _ m' hsome hnot => ?_, fun _ => ?_⟩
      · obtain rfl := Option.some.inj hsome
        rw [hroll] at hnot
        cases hnot
      · show _ = m.businessWriteProfileId
        unfold StorageMigration.businessWriteProfileId
        rw [if_pos hroll, hactive, List.find?_singleton, hfenced]
        rfl
    · have hwrite : ∃ p, m.businessWriteProfileId = some p := by
        unfold StorageMigration.businessWriteProfileId
        rw [if_neg hroll]
        split
        · exact ⟨_, rfl⟩
        · exact ⟨_, rfl⟩
      obtain ⟨p, hp⟩ := hwrite
      have hlen := h.single t
      show (db.active t).find? _ = m.businessWriteProfileId ↔ _
      rw [hp]
      constructor
      · intro hfind m' hsome _
        obtain rfl := Option.some.inj hsome
        refine ⟨p, hp, ?_, fun m' hm' htarget => ?_⟩
        · have hmem := List.mem_of_find?_eq_some hfind
          obtain ⟨x, hx⟩ := List.length_eq_one_iff.mp
            (Nat.le_antisymm hlen (List.length_pos_of_mem hmem))
          rw [hx] at hmem ⊢
          rw [List.mem_singleton.mp hmem]
        · have htest := List.find?_some hfind
          rcases resolve_test.mp htest m' hm' htarget with hs | hs <;> rw [hs] <;>
            exact ⟨by decide, by decide⟩
      · intro hagree
        obtain ⟨p', hp', hactive, hall⟩ := hagree m rfl (by simpa using hroll)
        rw [hp] at hp'
        obtain rfl := Option.some.inj hp'
        rw [hactive, List.find?_singleton, if_pos]
        exact resolve_test.mpr (fun m' hm' htarget =>
          h.target_cases hm hp hm' htarget (hall m' hm' htarget))

end Fence

/-- **When the runtime resolver implements the write fence**, in every reachable state of
the control plane. -/
theorem resolve_eq_writeProfile_iff (sha256 : Bytes → String) (adapters : Uuid → Uuid → Uuid → ℕ)
    {w : StorageCalls} (h : (storageMachine sha256 adapters).Reach (fun _ _ => True) w) (t : Uuid) :
    w.shared.committed.resolve t = w.shared.committed.writeProfile t
      ↔ FenceAgrees w.shared.committed t := by
  have hrec : Chronicle sha256 adapters False (fun _ => True) w.shared := by
    refine (Pool.reach_safe (controlDiscipline sha256 adapters False (fun _ => True))
      (h.mono (fun v l _ => ?_))).inv
    cases l with
    | act pid c => exact fun _ _ _ _ hfalse => hfalse.elim
    | _ => trivial
  exact (controlOk_of_recorded hrec).resolve_eq_iff

/-- A migration from 10 to 20 that is observed: both name 20. -/
theorem resolve_eq_writeProfile_observed :
    ∃ w, sampleMachine.Reach (fun _ _ => True) w
      ∧ FenceAgrees w.shared.committed 1
      ∧ w.shared.committed.resolve 1 = w.shared.committed.writeProfile 1
      ∧ w.shared.committed.writeProfile 1 = some 20 := by
  have hrun := sample_runs.2.2.1
  obtain ⟨w, hw, htest⟩ := Machine.reach_of_runIf (fun _ _ _ => trivial) sampleStart_init hrun
  obtain ⟨heq, hwrite⟩ := of_decide_eq_true htest
  exact ⟨w, hw, (resolve_eq_writeProfile_iff sampleSha256 _ hw 1).mp heq, heq, hwrite⟩

/-- **A migration that was denied fences its target for good**: the next migration to it
is observed, and the resolver finds no profile. -/
theorem resolve_none_after_denial :
    ∃ w, sampleMachine.Reach (fun _ _ => True) w
      ∧ w.shared.committed.writeProfile 1 = some 20 ∧ w.shared.committed.resolve 1 = none := by
  have hrun := sample_runs.2.2.2
  obtain ⟨w, hw, htest⟩ := Machine.reach_of_runIf (fun _ _ _ => trivial) sampleStart_init hrun
  exact ⟨w, hw, of_decide_eq_true htest⟩
