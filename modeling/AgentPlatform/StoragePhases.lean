import AgentPlatform.StorageReplication
import AgentPlatform.SwitchEvidence

/-!
# The phases of a migration, one worker alone

What `backfill`, `catch_up` and `validate` come to when nothing else reaches the
adapters while they run. `Alone` says what holds of every way such a program can
return; a statement that fails ends it without a result.

`copied` is what a backfill leaves on the adapters of its target: the objects of the
source over what the target held. A catch-up from the watermarks of that backfill adds
nothing when the source was left alone, and `evidenceOf` is the evidence of `validate`.
-/

section Alone

variable {sha256 : Bytes → String} {pid : ℕ} {α β : Type}

/-- **A worker alone**: if the program returns, then with this. -/
def Alone (sha256 : Bytes → String) (pid : ℕ) (p : StorageProg α)
    (Q : α → StorageState → Prop) (s : StorageState) : Prop :=
  p.wp (Prog.Handled ((storageEngine sha256).handler pid) (fun _ _ _ => True))
    (Prog.outcome Q (fun _ _ => True)) s

/-- The program can return `a` when it runs alone. -/
def Returns (sha256 : Bytes → String) (pid : ℕ) (p : StorageProg α) (s : StorageState) (a : α)
    (s' : StorageState) : Prop :=
  p.Runs (Prog.Handled ((storageEngine sha256).handler pid) (fun _ _ _ => True)) s (.ok a) s'

theorem Alone.returns {p : StorageProg α} {Q : α → StorageState → Prop} {s s' : StorageState}
    {a : α} (h : Alone sha256 pid p Q s) (hr : Returns sha256 pid p s a s') : Q a s' :=
  Prog.Safe.runs (fun _ => rfl) h hr

theorem Alone.ret {Q : α → StorageState → Prop} {s : StorageState} {a : α} (h : Q a s) :
    Alone sha256 pid (Prog.ret a) Q s := h

theorem Alone.throw {Q : α → StorageState → Prop} {s : StorageState} (e : PyException) :
    Alone sha256 pid (Prog.raise e) Q s := trivial

theorem Alone.bind {p : StorageProg α} {f : α → StorageProg β} {Q : α → StorageState → Prop}
    {Q' : β → StorageState → Prop} {s : StorageState} (h : Alone sha256 pid p Q s)
    (hf : ∀ a s', Q a s' → Alone sha256 pid (f a) Q' s') : Alone sha256 pid (p.bind f) Q' s :=
  Prog.Safe.bind h (fun a s' ha => hf a s' ha) (fun _ _ _ => trivial)

theorem Alone.mono {p : StorageProg α} {Q Q' : α → StorageState → Prop} {s : StorageState}
    (h : Alone sha256 pid p Q s) (hQ : ∀ a s', Q a s' → Q' a s') : Alone sha256 pid p Q' s := by
  refine Prog.wp_mono h (fun r s' hr => ?_)
  cases r with
  | ok a => exact hQ a s' hr
  | error e => trivial

/-- **What the worker finds**: the adapters, and the rows it sees. -/
structure Found (sha256 : Bytes → String) (pid : ℕ) (stores : AdapterStores) (db : StorageDb)
    (s : StorageState) : Prop where
  stores : s.ext.stores = stores
  view : (storageEngine sha256).view s pid = db

variable {stores : AdapterStores} {db : StorageDb} {s : StorageState}

/-- What is seen after a statement. -/
theorem view_ran (sha256 : Bytes → String) (pid : ℕ) (a : StorageSupply) (op : StorageOp)
    (s : StorageState) :
    (storageEngine sha256).view ((storageEngine sha256).ran pid a op s) pid
      = (storageEngine sha256).applyAll
          (op.exec sha256 a (Engine.free s pid) ((storageEngine sha256).view s pid) s.ext).2.1
          ((storageEngine sha256).view s pid) := by
  cases hp : s.pending pid with
  | none =>
    simp only [Engine.ran, Engine.perform, Engine.view, hp, Engine.install]
    rfl
  | some old => exact (storageEngine sha256).view_perform hp _ _ _

/-- **A statement, alone**: the rows it writes are seen. -/
theorem Alone.statement {op : StorageOp} {Q : StorageRes op → StorageState → Prop}
    (h : Found sha256 pid stores db s)
    (hQ : ∀ (a : StorageSupply) (free : StorageRow → Bool) (ext : StorageExt) (r : StorageRes op)
      (s' : StorageState), ext.stores = stores → (op.exec sha256 a free db ext).1 = .ok r →
      Found sha256 pid (op.exec sha256 a free db ext).2.2.stores
        ((storageEngine sha256).applyAll (op.exec sha256 a free db ext).2.1 db) s' → Q r s') :
    Alone sha256 pid (storage op) Q s := by
  refine Engine.safe_stmt (fun s₁ _ _ => ⟨trivial, trivial⟩) (fun s₁ a hs₁ _ _ => ⟨trivial, ?_⟩)
  obtain rfl := hs₁
  have hview := view_ran sha256 pid a op s
  have hext : ((storageEngine sha256).ran pid a op s).ext
      = (op.exec sha256 a (Engine.free s pid) ((storageEngine sha256).view s pid) s.ext).2.2 := by
    unfold Engine.ran Engine.perform
    cases s.pending pid <;> rfl
  rw [h.view] at hview hext
  cases hr : (op.exec sha256 a (Engine.free s pid) db s.ext).1 with
  | error e =>
    have hanswer : (storageEngine sha256).answer pid a op s = .error e := by
      unfold Engine.answer
      rw [h.view]
      exact hr
    rw [hanswer]
    trivial
  | ok r =>
    have hanswer : (storageEngine sha256).answer pid a op s = .ok r := by
      unfold Engine.answer
      rw [h.view]
      exact hr
    rw [hanswer]
    exact hQ a (Engine.free s pid) s.ext r _ h.stores hr ⟨by rw [hext], hview⟩

/-- A statement that writes no rows and leaves the adapters alone. -/
theorem Alone.read {op : StorageOp} {Q : StorageRes op → StorageState → Prop}
    (h : Found sha256 pid stores db s)
    (hwrites : ∀ a free ext, (op.exec sha256 a free db ext).2.1 = [])
    (hstores : ∀ a free ext, (op.exec sha256 a free db ext).2.2.stores = ext.stores)
    (hQ : ∀ (a : StorageSupply) (free : StorageRow → Bool) (ext : StorageExt) (r : StorageRes op)
      (s' : StorageState), ext.stores = stores → (op.exec sha256 a free db ext).1 = .ok r →
      Found sha256 pid stores db s' → Q r s') :
    Alone sha256 pid (storage op) Q s := by
  refine Alone.statement h (fun a free ext r s' hext hr hfound => hQ a free ext r s' hext hr ?_)
  rw [hwrites, hstores, hext] at hfound
  exact hfound

/-- A request to an adapter. -/
theorem Alone.adapter (op : AdapterOp) (h : Found sha256 pid stores db s) :
    Alone sha256 pid (storage (.adapter op))
      (fun r s' => r = (op.serve stores).1 ∧ Found sha256 pid (op.serve stores).2 db s') s := by
  refine Alone.statement h (fun a free ext r s' hext hr hfound => ?_)
  subst hext
  exact ⟨(Except.ok.inj hr).symm, hfound⟩

/-! ## Backfill and catch-up -/

/-- The objects of an adapter, as changes. -/
def asChanges (a : MemoryAdapter) (t : String) : List (String × Option Bytes) :=
  (a.snapshotTenant t).2.map (fun e => (e.1, some e.2))

/-- **What a backfill leaves** on the adapters. -/
def copied (t : String) (source target : Uuid) : List ℕ → AdapterStores → AdapterStores
  | [], stores => stores
  | i :: rest, stores => copied t source target rest
      (stores.set target i ((stores target i).applyChanges t (asChanges (stores source i) t)))

theorem copied_of_ne {t : String} {source target p : Uuid} (hp : p ≠ target) (is : List ℕ)
    (stores : AdapterStores) (i : ℕ) : copied t source target is stores p i = stores p i := by
  induction is generalizing stores with
  | nil => rfl
  | cons j is ih =>
    rw [copied, ih]
    exact stores.set_of_ne _ (fun h => hp h.1)

theorem copied_of_not_mem {t : String} {source target : Uuid} {is : List ℕ} {i : ℕ} (hi : i ∉ is)
    (stores : AdapterStores) : copied t source target is stores target i = stores target i := by
  induction is generalizing stores with
  | nil => rfl
  | cons j is ih =>
    obtain ⟨hij, hrest⟩ := List.ne_and_not_mem_of_not_mem_cons hi
    rw [copied, ih hrest]
    exact stores.set_of_ne _ (fun h => hij h.2)

/-- Each target adapter takes in the objects of its source. -/
theorem copied_target {t : String} {source target : Uuid} (hne : source ≠ target) {is : List ℕ}
    (hnodup : is.Nodup) {i : ℕ} (hi : i ∈ is) (stores : AdapterStores) :
    copied t source target is stores target i
      = (stores target i).applyChanges t (asChanges (stores source i) t) := by
  induction is generalizing stores with
  | nil => cases hi
  | cons j is ih =>
    obtain ⟨hj, hrest⟩ := List.nodup_cons.mp hnodup
    rw [copied]
    rcases List.mem_cons.mp hi with rfl | hmem
    · rw [copied_of_not_mem hj, AdapterStores.set_self]
    · have hij : i ≠ j := fun h => hj (h ▸ hmem)
      rw [ih hrest hmem, stores.set_of_ne _ (fun h => hij h.2),
        stores.set_of_ne _ (fun h => hne h.1)]

theorem alone_backfillPairs {t : String} {source target : Uuid} (hne : source ≠ target)
    (is : List ℕ) (h : Found sha256 pid stores db s) :
    Alone sha256 pid
      (StorageMigrationExecutor.backfillPairs (fun op => storage (.adapter op)) t source target is)
      (fun ws s' => ws = is.map (fun i => (stores source i).watermark)
        ∧ Found sha256 pid (copied t source target is stores) db s') s := by
  induction is generalizing stores s with
  | nil => exact Alone.ret ⟨rfl, h⟩
  | cons i is ih =>
    refine (Alone.adapter (.snapshotTenant source i t) h).bind (fun snapshot s₁ hs₁ => ?_)
    obtain ⟨rfl, h₁⟩ := hs₁
    refine (Alone.adapter (.applyChanges target i t _) h₁).bind (fun _ s₂ hs₂ => ?_)
    refine (ih hs₂.2).bind (fun ws s₃ hs₃ => Alone.ret ⟨?_, hs₃.2⟩)
    rw [hs₃.1, List.map_cons]
    refine congrArg (List.cons _) (List.map_congr_left (fun j _ => ?_))
    exact congrArg MemoryAdapter.watermark (stores.set_of_ne _ (fun hk => hne hk.1))

/-- Replaying the feed from where it stands changes nothing. -/
theorem applyChanges_changesSince (a b : MemoryAdapter) (t : String) :
    a.applyChanges t (b.changesSince t b.watermark).2 = a := by
  rw [Behind.changesSince_watermark]
  rfl

/-- **A catch-up from where the sources stand** changes nothing. -/
theorem alone_catchUpPairs {t : String} {source target : Uuid} (hne : source ≠ target)
    (is : List ℕ) (h : Found sha256 pid stores db s) :
    Alone sha256 pid
      (StorageMigrationExecutor.catchUpPairs (fun op => storage (.adapter op)) t source target
        (is.map (fun i => (i, (stores source i).watermark))))
      (fun _ s' => Found sha256 pid stores db s') s := by
  induction is generalizing s with
  | nil => exact Alone.ret h
  | cons i is ih =>
    refine (Alone.adapter (.changesSince source i t _) h).bind (fun feed s₁ hs₁ => ?_)
    obtain ⟨rfl, h₁⟩ := hs₁
    refine (Alone.adapter (.applyChanges target i t _) h₁).bind (fun _ s₂ hs₂ => ?_)
    have hsame : (AdapterOp.serve (.applyChanges target i t
        ((AdapterOp.changesSince source i t (stores source i).watermark).serve stores).1.2)
        stores).2
        = stores := by
      funext p j
      show stores.set target i ((stores target i).applyChanges t
        ((stores source i).changesSince t (stores source i).watermark).2) p j = stores p j
      rw [applyChanges_changesSince]
      by_cases hk : p = target ∧ j = i
      · obtain ⟨rfl, rfl⟩ := hk
        exact stores.set_self _ _ _
      · exact stores.set_of_ne _ hk
    have h₂ : Found sha256 pid stores db s₂ := ⟨hs₂.2.stores.trans hsame, hs₂.2.view⟩
    exact (ih h₂).bind (fun _ _ h₃ => Alone.ret h₃)

/-! ## Validation -/

/-- The evidence of a pair. -/
def pairEvidence (sha256 : Bytes → String) (t : String) (source target : Uuid)
    (stores : AdapterStores) (i : ℕ) : PairEvidence :=
  ((stores source i).tenantFingerprint sha256 t, (stores target i).tenantFingerprint sha256 t,
    (stores target i).vectorRecallAgainst (stores source i) t)

/-- **The evidence of the pairs.** -/
def evidenceOf (sha256 : Bytes → String) (t : String) (source target : Uuid) (n : ℕ)
    (stores : AdapterStores) : ValidationEvidence :=
  .ofPairs sha256 ((List.range n).map (pairEvidence sha256 t source target stores))

theorem alone_fingerprintPairs {t : String} {source target : Uuid} (is : List ℕ)
    (h : Found sha256 pid stores db s) :
    Alone sha256 pid (fingerprintPairs t source target is)
      (fun found s' => found = is.map (pairEvidence sha256 t source target stores)
        ∧ Found sha256 pid stores db s') s := by
  induction is generalizing s with
  | nil => exact Alone.ret ⟨rfl, h⟩
  | cons i is ih =>
    have hfingerprint : ∀ (p : Uuid) {s₀ : StorageState}, Found sha256 pid stores db s₀ →
        Alone sha256 pid (storage (.tenantFingerprint p i t))
          (fun r s' => r = (stores p i).tenantFingerprint sha256 t
            ∧ Found sha256 pid stores db s') s₀ := by
      intro p s₀ h₀
      refine Alone.read h₀ (fun _ _ _ => rfl) (fun _ _ _ => rfl) ?_
      intro a free ext r s' hext hr hfound
      subst hext
      exact ⟨(Except.ok.inj hr).symm, hfound⟩
    refine (hfingerprint source h).bind (fun fromSource s₁ hs₁ => ?_)
    refine (hfingerprint target hs₁.2).bind (fun fromTarget s₂ hs₂ => ?_)
    have hrecall : Alone sha256 pid (storage (.vectorRecallAgainst target source i t))
        (fun r s' => r = (stores target i).vectorRecallAgainst (stores source i) t
          ∧ Found sha256 pid stores db s') s₂ := by
      refine Alone.read hs₂.2 (fun _ _ _ => rfl) (fun _ _ _ => rfl) ?_
      intro a free ext r s' hext hr hfound
      subst hext
      exact ⟨(Except.ok.inj hr).symm, hfound⟩
    refine hrecall.bind (fun recalled s₃ hs₃ => ?_)
    refine (ih hs₃.2).bind (fun found s₄ hs₄ => Alone.ret ⟨?_, hs₄.2⟩)
    rw [hs₄.1, hs₁.1, hs₂.1, hs₃.1]
    rfl

/-- **`validate`, alone.** -/
theorem alone_validate (adapters : Uuid → Uuid → Uuid → ℕ) (tenantId source target : Uuid)
    (h : Found sha256 pid stores db s) :
    Alone sha256 pid (StorageMigrationWorker.validate sha256 adapters tenantId source target)
      (fun evidence s' => evidence = evidenceOf sha256 tenantId.str source target
          (adapters tenantId source target) stores
        ∧ Found sha256 pid stores db s') s := by
  unfold StorageMigrationWorker.validate
  dsimp only
  split_ifs
  · exact Alone.throw _
  · exact (alone_fingerprintPairs _ h).bind (fun found s₁ hs₁ =>
      Alone.ret ⟨congrArg (ValidationEvidence.ofPairs sha256) hs₁.1, hs₁.2⟩)

/-! ## The phases of a rollback -/

variable {adapters : Uuid → Uuid → Uuid → ℕ} {row : StorageMigration}

/-- **The phases that bring the old source up to date.** The watermarks go from one to
the other in the checkpoint. -/
def rollbackPhases (sha256 : Bytes → String) (adapters : Uuid → Uuid → Uuid → ℕ)
    (row : StorageMigration) : StorageProg Unit := do
  StorageMigrationWorker.executePhase sha256 adapters { row with state := .ROLLING_BACK }
  StorageMigrationWorker.executePhase sha256 adapters { row with state := .ROLLBACK_CATCHING_UP }

/-- An update of a migration leaves the checkpoints alone. -/
theorem alone_updateAudited {update : MigrationUpdate} {action : String}
    (h : Found sha256 pid stores db s) :
    Alone sha256 pid (updateAudited row update action)
      (fun _ s' => ∃ db', db'.checkpoints = db.checkpoints ∧ Found sha256 pid stores db' s') s := by
  have hupdate : Alone sha256 pid (storage (.updateMigration row.tenantId row.id update))
      (fun _ s' => ∃ db', db'.checkpoints = db.checkpoints ∧ Found sha256 pid stores db' s') s := by
    refine Alone.statement h (fun a free ext r s' hext hr hfound => ?_)
    subst hext
    cases hm : db.migrations row.tenantId row.id with
    | none =>
      simp only [StorageOp.exec, hm] at hfound
      exact ⟨db, rfl, hfound⟩
    | some m =>
      simp only [StorageOp.exec, hm] at hfound
      refine ⟨_, ?_, hfound⟩
      rfl
  refine hupdate.bind (fun _ s₁ hs₁ => ?_)
  obtain ⟨db', hcheckpoints, h₁⟩ := hs₁
  have haudit : Alone sha256 pid (storage (.insertAudit action))
      (fun _ s' => Found sha256 pid stores db' s') s₁ :=
    Alone.read h₁ (fun _ _ _ => rfl) (fun _ _ _ => rfl) (fun _ _ _ _ _ _ _ h₂ => h₂)
  exact haudit.bind (fun _ s₂ h₂ => Alone.ret ⟨db', hcheckpoints, h₂⟩)

theorem alone_advance {operation : MigrationOperation} {action : String}
    {evidence : Option ValidationEvidence} (h : Found sha256 pid stores db s) :
    Alone sha256 pid (StorageMigrationWorker.advance row operation action evidence)
      (fun _ s' => ∃ db', db'.checkpoints = db.checkpoints ∧ Found sha256 pid stores db' s') s := by
  unfold StorageMigrationWorker.advance
  cases row.state.advance operation evidence with
  | error e => exact Alone.throw e
  | ok next => exact alone_updateAudited h

theorem alone_lockCheckpoint (tenantId id : Uuid) (h : Found sha256 pid stores db s) :
    Alone sha256 pid (storage (.lockCheckpoint tenantId id))
      (fun r s' => r = db.checkpoints tenantId id ∧ Found sha256 pid stores db s') s :=
  Alone.read h (fun _ _ _ => rfl) (fun _ _ _ => rfl)
    (fun _ _ _ _ _ _ hr h₁ => ⟨(Except.ok.inj hr).symm, h₁⟩)

theorem alone_upsertCheckpoint (tenantId id : Uuid) (forward rollback : Option (List ℕ))
    (h : Found sha256 pid stores db s) :
    Alone sha256 pid (storage (.upsertCheckpoint tenantId id forward rollback))
      (fun _ s' => ∃ db', db'.checkpoints tenantId id
          = some (.upsert (db.checkpoints tenantId id) forward rollback)
        ∧ Found sha256 pid stores db' s') s := by
  refine Alone.statement h (fun a free ext r s' hext hr hfound => ?_)
  subst hext
  refine ⟨_, ?_, hfound⟩
  show setAt db.checkpoints tenantId id _ tenantId id = _
  unfold setAt
  exact if_pos ⟨rfl, rfl⟩

/-- **`ROLLING_BACK`, alone**: the objects of the target are on the source, and the
checkpoint says where the target stood. -/
theorem alone_rollingBack (hne : row.targetProfileId ≠ row.sourceProfileId)
    (h : Found sha256 pid stores db s) :
    Alone sha256 pid
      (StorageMigrationWorker.executePhase sha256 adapters { row with state := .ROLLING_BACK })
      (fun _ s' => ∃ db' checkpoint, db'.checkpoints row.tenantId row.id = some checkpoint
        ∧ checkpoint.rollbackWatermarks
          = (List.range (adapters row.tenantId row.targetProfileId row.sourceProfileId)).map
            (fun i => (stores row.targetProfileId i).watermark)
        ∧ Found sha256 pid (copied row.tenantId.str row.targetProfileId row.sourceProfileId
          (List.range (adapters row.tenantId row.targetProfileId row.sourceProfileId)) stores)
          db' s') s := by
  refine (alone_lockCheckpoint row.tenantId row.id h).bind (fun found s₁ hs₁ => ?_)
  dsimp only
  rw [if_neg (by decide)]
  cases found with
  | none => exact Alone.throw _
  | some checkpoint =>
    dsimp only
    rw [if_neg (by decide), if_neg (by decide), if_pos rfl]
    have hbackfill : Alone sha256 pid
        (StorageMigrationWorker.backfill adapters row.tenantId row.targetProfileId
          row.sourceProfileId)
        (fun ws s' => ws = (List.range (adapters row.tenantId row.targetProfileId
            row.sourceProfileId)).map (fun i => (stores row.targetProfileId i).watermark)
          ∧ Found sha256 pid (copied row.tenantId.str row.targetProfileId row.sourceProfileId
            (List.range (adapters row.tenantId row.targetProfileId row.sourceProfileId)) stores)
            db s') s₁ := by
      unfold StorageMigrationWorker.backfill StorageMigrationExecutor.backfill
      split_ifs
      · exact Alone.throw _
      · exact alone_backfillPairs hne _ hs₁.2
    refine hbackfill.bind (fun ws s₂ hs₂ => ?_)
    refine (alone_upsertCheckpoint _ _ none (some ws) hs₂.2).bind (fun _ s₃ hs₃ => ?_)
    obtain ⟨db₃, hcheckpoint, h₃⟩ := hs₃
    refine (alone_advance h₃).mono (fun _ s₄ hs₄ => ?_)
    obtain ⟨db₄, hsame, h₄⟩ := hs₄
    refine ⟨db₄, _, by rw [hsame]; exact hcheckpoint, ?_, h₄⟩
    rw [← hs₂.1]
    rfl

/-- **`ROLLBACK_CATCHING_UP`, alone**, from the watermarks of a target that has been left
alone: nothing is added. -/
theorem alone_rollbackCatchingUp (hne : row.targetProfileId ≠ row.sourceProfileId)
    {checkpoint : MigrationCheckpoint}
    (hcheckpoint : db.checkpoints row.tenantId row.id = some checkpoint)
    (hwatermarks : checkpoint.rollbackWatermarks
      = (List.range (adapters row.tenantId row.targetProfileId row.sourceProfileId)).map
        (fun i => (stores row.targetProfileId i).watermark))
    (h : Found sha256 pid stores db s) :
    Alone sha256 pid
      (StorageMigrationWorker.executePhase sha256 adapters
        { row with state := .ROLLBACK_CATCHING_UP })
      (fun _ s' => ∃ db', Found sha256 pid stores db' s') s := by
  refine (alone_lockCheckpoint row.tenantId row.id h).bind (fun found s₁ hs₁ => ?_)
  dsimp only
  rw [if_neg (by decide), hs₁.1.trans hcheckpoint]
  dsimp only
  rw [if_neg (by decide), if_neg (by decide), if_neg (by decide), if_pos rfl]
  have hcatchUp : Alone sha256 pid
      (StorageMigrationWorker.catchUp adapters row.tenantId row.targetProfileId row.sourceProfileId
        checkpoint.rollbackWatermarks)
      (fun _ s' => Found sha256 pid stores db s') s₁ := by
    unfold StorageMigrationWorker.catchUp StorageMigrationExecutor.catchUp
    split_ifs
    · exact Alone.throw _
    · have hpairs : ∀ (f : ℕ → ℕ) (is : List ℕ), is.zip (is.map f) = is.map (fun i => (i, f i)) :=
        fun f is => by simpa using List.zip_map' (f := id) (g := f) (l := is)
      rw [hwatermarks, hpairs]
      exact (alone_catchUpPairs hne _ hs₁.2).mono (fun _ _ h₂ => h₂)
  refine hcatchUp.bind (fun ws s₂ h₂ => ?_)
  refine (alone_upsertCheckpoint _ _ none (some ws) h₂).bind (fun _ s₃ hs₃ => ?_)
  obtain ⟨db₃, -, h₃⟩ := hs₃
  refine (alone_advance h₃).mono (fun _ s₄ hs₄ => ?_)
  obtain ⟨db₄, -, h₄⟩ := hs₄
  exact ⟨db₄, h₄⟩

/-- **The phases, alone.** -/
theorem alone_rollbackPhases (hne : row.targetProfileId ≠ row.sourceProfileId)
    (h : Found sha256 pid stores db s) :
    Alone sha256 pid (rollbackPhases sha256 adapters row)
      (fun _ s' => ∃ db', Found sha256 pid
        (copied row.tenantId.str row.targetProfileId row.sourceProfileId
          (List.range (adapters row.tenantId row.targetProfileId row.sourceProfileId)) stores)
        db' s') s := by
  refine (alone_rollingBack hne h).bind (fun _ s₁ hs₁ => ?_)
  obtain ⟨db₁, checkpoint, hcheckpoint, hwatermarks, h₁⟩ := hs₁
  refine alone_rollbackCatchingUp hne hcheckpoint ?_ h₁
  rw [hwatermarks]
  refine List.map_congr_left (fun i _ => ?_)
  rw [copied_of_ne hne]

end Alone
