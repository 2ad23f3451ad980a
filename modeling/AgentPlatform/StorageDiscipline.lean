import AgentPlatform.StorageHistory

/-!
# The handlers and the worker keep the control plane in order

What each program of `admin_api/storage_profiles.py`, `admin_api/storage_migrations.py`
and `storage_migration_worker.py` commits is one of the changes of `ControlCommit`,
whatever else runs between its statements. The row of the migration it has locked, the
entry of the tenant in an index, and the migrations that are closed do not change under
it; what it read before it took a lock may have.

Next to the tables stand the adapters. While a migration is being validated its row is
locked, nobody copies to its target, and the business writes to its source only:
`AdaptersKept` is what the validation may count on, and `EvidenceHolds` is what is left of
it in `READY_TO_SWITCH` – what the fingerprints of source and target said is still so,
unless the business has written to the source since.
-/

/-! ## Rows behind keys -/

/-- What is behind a key. -/
abbrev StorageCell : StorageRow → Type
  | .profile .. => Option StorageProfileRow
  | .nameIndex .. => Option Uuid
  | .claim .. => Option Uuid
  | .activeIndex _ => List Uuid
  | .openIndex _ => List Uuid
  | .migration .. => Option StorageMigration
  | .checkpoint .. => Option MigrationCheckpoint

/-- The row behind a key. -/
def storageLook : (k : StorageRow) → StorageDb → StorageCell k
  | .profile t id, db => db.profiles t id
  | .nameIndex t name, db => db.names t name
  | .claim kind fingerprint, db => db.claims (kind, fingerprint)
  | .activeIndex t, db => db.active t
  | .openIndex t, db => db.order t
  | .migration t id, db => db.migrations t id
  | .checkpoint t id, db => db.checkpoints t id

/-- A write leaves the rows it is not keyed by alone. -/
theorem storageLook_apply (w : StorageWrite) (db : StorageDb) (k : StorageRow) (hk : w.key ≠ k) :
    storageLook k (w.apply db) = storageLook k db := by
  cases w with
  | profile t id row =>
    cases k with
    | profile t' id' => exact setAt_of_ne _ _ (fun h => hk (by rw [h.1, h.2]; rfl))
    | _ => rfl
  | nameEntry t name id =>
    cases k with
    | nameIndex t' name' => exact if_neg (fun h => hk (by rw [h.1, h.2]; rfl))
    | _ => rfl
  | claim kind fingerprint t =>
    cases k with
    | claim kind' fingerprint' =>
      refine Function.update_of_ne (fun h => hk ?_) _ _
      rw [(Prod.mk.inj h).1, (Prod.mk.inj h).2]
      rfl
    | _ => rfl
  | activate t id =>
    cases k with
    | activeIndex t' => exact Function.update_of_ne (fun h => hk (by rw [h]; rfl)) _ _
    | _ => rfl
  | deactivate t id =>
    cases k with
    | activeIndex t' => exact Function.update_of_ne (fun h => hk (by rw [h]; rfl)) _ _
    | _ => rfl
  | append t id =>
    cases k with
    | openIndex t' => exact Function.update_of_ne (fun h => hk (by rw [h]; rfl)) _ _
    | _ => rfl
  | migration row =>
    cases k with
    | migration t' id' => exact setAt_of_ne _ _ (fun h => hk (by rw [h.1, h.2]; rfl))
    | _ => rfl
  | update t id u =>
    cases k with
    | migration t' id' => exact setAt_of_ne _ _ (fun h => hk (by rw [h.1, h.2]; rfl))
    | _ => rfl
  | checkpoint t id row =>
    cases k with
    | checkpoint t' id' => exact setAt_of_ne _ _ (fun h => hk (by rw [h.1, h.2]; rfl))
    | _ => rfl

/-- What a write leaves under its own key. -/
theorem storageLook_key (w : StorageWrite) (db db' : StorageDb)
    (h : storageLook w.key db = storageLook w.key db') :
    storageLook w.key (w.apply db) = storageLook w.key (w.apply db') := by
  cases w with
  | profile t id row => exact (setAt_self _ t id _).trans (setAt_self _ t id _).symm
  | nameEntry t name id => exact (if_pos ⟨rfl, rfl⟩).trans (if_pos ⟨rfl, rfl⟩).symm
  | claim kind fingerprint t =>
    show Function.update db.claims _ _ _ = Function.update db'.claims _ _ _
    rw [Function.update_self, Function.update_self]
  | activate t id =>
    have hrow : db.active t = db'.active t := h
    show Function.update db.active t _ t = Function.update db'.active t _ t
    rw [Function.update_self, Function.update_self, hrow]
  | deactivate t id =>
    have hrow : db.active t = db'.active t := h
    show Function.update db.active t _ t = Function.update db'.active t _ t
    rw [Function.update_self, Function.update_self, hrow]
  | append t id =>
    have hrow : db.order t = db'.order t := h
    show Function.update db.order t _ t = Function.update db'.order t _ t
    rw [Function.update_self, Function.update_self, hrow]
  | migration row => exact (setAt_self _ _ _ _).trans (setAt_self _ _ _ _).symm
  | update t id u =>
    have hrow : db.migrations t id = db'.migrations t id := h
    show setAt db.migrations t id _ t id = setAt db'.migrations t id _ t id
    rw [setAt_self, setAt_self, hrow]
  | checkpoint t id row => exact (setAt_self _ t id _).trans (setAt_self _ t id _).symm

/-- **Locking works**: a write touches the row it is keyed by, and a statement locks what
it writes. -/
theorem storageEngine_lawful (sha256 : Bytes → String) :
    (storageEngine sha256).Lawful storageLook where
  look_apply := storageLook_apply
  look_congr w db db' k h := by
    by_cases hk : w.key = k
    · subst hk
      exact storageLook_key w db db' h
    · exact (storageLook_apply w db k hk).trans (h.trans (storageLook_apply w db' k hk).symm)
  exec_locked a op fr db x w hw := by
    cases op with
    | claimResource kind fingerprint t =>
      have hmem : w ∈ if (db.claims (kind, fingerprint)).isNone then
        [StorageWrite.claim kind fingerprint t] else [] := hw
      split at hmem
      · rw [List.mem_singleton.mp hmem]
        exact List.mem_singleton_self _
      · cases hmem
    | insertProfile t id config active =>
      simp only [storageEngine, StorageOp.exec] at hw
      split at hw
      · cases hw
      · cases active <;> simp only [Bool.false_eq_true, if_false, if_true, List.append_nil,
          List.cons_append, List.nil_append, List.mem_cons, List.not_mem_nil, or_false] at hw
        · rcases hw with rfl | rfl <;> simp [storageEngine, StorageWrite.key, StorageOp.locks]
        · rcases hw with rfl | rfl | rfl <;>
            simp [storageEngine, StorageWrite.key, StorageOp.locks]
    | insertMigration row =>
      simp only [storageEngine, StorageOp.exec] at hw
      split at hw
      · cases hw
      · simp only [List.mem_cons, List.not_mem_nil, or_false] at hw
        rcases hw with rfl | rfl <;> simp [storageEngine, StorageWrite.key, StorageOp.locks]
    | updateMigration t id u =>
      simp only [storageEngine, StorageOp.exec] at hw
      split at hw
      · rw [List.mem_singleton.mp hw]
        simp [storageEngine, StorageWrite.key, StorageOp.locks]
      · cases hw
    | setActive t id active =>
      have hkeys : w.key = .profile t id ∨ w.key = .activeIndex t := by
        simp only [storageEngine, StorageOp.exec] at hw
        split at hw
        · cases hw
        · split at hw
          · split at hw
            · rw [List.mem_singleton.mp hw]
              exact .inl rfl
            · split at hw
              · cases hw
              · simp only [List.mem_cons, List.not_mem_nil, or_false] at hw
                rcases hw with rfl | rfl
                · exact .inl rfl
                · exact .inr rfl
          · simp only [List.mem_cons, List.not_mem_nil, or_false] at hw
            rcases hw with rfl | rfl
            · exact .inl rfl
            · exact .inr rfl
      rcases hkeys with hk | hk
      · exact List.mem_cons.mpr (.inl hk)
      · exact List.mem_cons_of_mem _ (List.mem_singleton.mpr hk)
    | upsertCheckpoint t id forward rollback =>
      rw [List.mem_singleton.mp hw]
      exact List.mem_singleton_self _
    | businessWrite t i key value =>
      simp only [storageEngine, StorageOp.exec] at hw
      split at hw <;> cases hw
    | _ => cases hw

/-! ## The adapters -/

namespace StorageExt

variable (sha256 : Bytes → String) (x : StorageExt)

/-- What an adapter of a profile holds for a tenant. -/
def entries (p : Uuid) (i : ℕ) (t : String) : List (String × Bytes) :=
  ((x.stores p i).snapshotTenant t).2

/-- How many objects the adapters of a profile hold for a tenant, together. -/
def count (t : String) (p : Uuid) (n : ℕ) : ℕ :=
  ((List.range n).map (fun i => (x.entries p i t).length)).sum

/-- The digests of the adapters of a profile, for a tenant. -/
def digests (t : String) (p : Uuid) (n : ℕ) : List String :=
  (List.range n).map (fun i => sha256 (MemoryAdapter.fingerprintText (x.entries p i t)))

/-- The digest of the digests. -/
def digest (t : String) (p : Uuid) (n : ℕ) : String :=
  sha256 ((x.digests sha256 t p n).flatMap (fun d => d.toUTF8.toList))

/-- **The fingerprints of source and target agree**, as `is_valid` compares them. -/
def Agree (t : String) (source target : Uuid) (n : ℕ) : Prop :=
  x.count t source n = x.count t target n ∧ x.digest sha256 t source n = x.digest sha256 t target n

end StorageExt

/-- Only what is held for one tenant changes. -/
def OnlyTenant (t : String) (x x' : StorageExt) : Prop :=
  ∀ p i t', t' ≠ t → x'.entries p i t' = x.entries p i t' ∧ x'.written p i t' = x.written p i t'

theorem StorageExt.agree_congr {sha256 : Bytes → String} {x x' : StorageExt} {t : String}
    {source target : Uuid} {n : ℕ}
    (h : ∀ i < n, x'.entries source i t = x.entries source i t
      ∧ x'.entries target i t = x.entries target i t) (ha : x.Agree sha256 t source target n) :
    x'.Agree sha256 t source target n := by
  have hcount : ∀ p, (∀ i < n, x'.entries p i t = x.entries p i t) →
      x'.count t p n = x.count t p n := by
    intro p hp
    unfold StorageExt.count
    rw [List.map_congr_left (fun i hi => by rw [hp i (List.mem_range.mp hi)])]
  have hdigest : ∀ p, (∀ i < n, x'.entries p i t = x.entries p i t) →
      x'.digest sha256 t p n = x.digest sha256 t p n := by
    intro p hp
    unfold StorageExt.digest StorageExt.digests
    rw [List.map_congr_left (fun i hi => by rw [hp i (List.mem_range.mp hi)])]
  obtain ⟨hc, hd⟩ := ha
  refine ⟨?_, ?_⟩
  · rw [hcount source (fun i hi => (h i hi).1), hcount target (fun i hi => (h i hi).2)]
    exact hc
  · rw [hdigest source (fun i hi => (h i hi).1), hdigest target (fun i hi => (h i hi).2)]
    exact hd

/-! ## The regime -/

/-- Tenants of some kind have texts of their own. -/
def TextsApart (valid : Uuid → Prop) : Prop :=
  ∀ t t', valid t → valid t' → Uuid.str t = Uuid.str t' → t = t'

section Regime

/-- The state of the control plane. -/
abbrev StorageState := TxState StorageDb StorageWrite StorageRow StorageExt

variable (sha256 : Bytes → String) (adapters : Uuid → Uuid → Uuid → ℕ) (strict : Prop)
  (valid : Uuid → Prop)

/-- **What is left of a validation**: the fingerprints still agree, unless the business has
written to the source since they were taken. -/
def EvidenceHolds (db : StorageDb) (x : StorageExt) : Prop :=
  TextsApart valid → ∀ t id m, db.migrations t id = some m → m.state = .READY_TO_SWITCH →
    (∀ i < adapters t m.sourceProfileId m.targetProfileId,
      x.written m.sourceProfileId i (Uuid.str t) = false) →
    x.Agree sha256 (Uuid.str t) m.sourceProfileId m.targetProfileId
      (adapters t m.sourceProfileId m.targetProfileId)

/-- **What a validation may count on**: the target stays as it is, and so does the source
unless the business has written to it. -/
def AdaptersKept (pid : ℕ) (s s' : StorageState) : Prop :=
  TextsApart valid → ∀ t id m, s.holder (.migration t id) = some pid →
    s.committed.migrations t id = some m → m.state = .VALIDATING → ∀ i,
    s'.ext.entries m.targetProfileId i (Uuid.str t) = s.ext.entries m.targetProfileId i (Uuid.str t)
      ∧ (s'.ext.written m.sourceProfileId i (Uuid.str t) = false →
        s.ext.written m.sourceProfileId i (Uuid.str t) = false
          ∧ s'.ext.entries m.sourceProfileId i (Uuid.str t)
            = s.ext.entries m.sourceProfileId i (Uuid.str t))

/-- **The regime of the control plane.** -/
def controlRegime : Engine.Regime StorageDb StorageWrite StorageRow StorageExt where
  start db := db = StorageDb.empty
  change := ControlCommit strict valid
  also s := EvidenceHolds sha256 adapters valid s.committed s.ext
  kept pid s s' := ControlKept s.committed s'.committed ∧ AdaptersKept valid pid s s'

variable {sha256 adapters strict valid} {pid : ℕ} {s s' : StorageState}

/-- What is committed is in order. -/
theorem controlOk_of_recorded {N : Engine StorageOp StorageRes PyException StorageSupply StorageDb
      StorageWrite StorageRow StorageExt}
    (h : N.Recorded (controlRegime sha256 adapters strict valid) s) :
    ControlOk strict valid s.committed := by
  refine h.keeps (P := ControlOk strict valid) ?_ (fun a b hc ha => ha.commit hc)
  rintro db rfl
  exact ControlOk.empty

theorem AdaptersKept.of_ext_eq (h : s'.ext = s.ext) : AdaptersKept valid pid s s' := by
  intro _ t id m _ _ _ i
  rw [h]
  exact ⟨rfl, fun hw => ⟨hw, rfl⟩⟩

theorem AdaptersKept.trans {a b c : StorageState} (h : AdaptersKept valid pid a b)
    (h' : AdaptersKept valid pid b c) (hu : Engine.Untouched storageLook pid a b) :
    AdaptersKept valid pid a c := by
  intro hv t id m hheld hm hstate i
  have hrow : b.committed.migrations t id = some m := (hu.row (.migration t id) hheld).trans hm
  obtain ⟨htarget, hsource⟩ := h hv t id m hheld hm hstate i
  obtain ⟨htarget', hsource'⟩ := h' hv t id m ((hu.held _).mpr hheld) hrow hstate i
  refine ⟨htarget'.trans htarget, fun hw => ?_⟩
  obtain ⟨hw', he'⟩ := hsource' hw
  obtain ⟨hw'', he⟩ := hsource hw'
  exact ⟨hw'', he'.trans he⟩

/-- **The regime is sound.** -/
theorem controlRegime_sound : Engine.Regime.Sound (storageEngine sha256) storageLook
    (controlRegime sha256 adapters strict valid) where
  lawful := storageEngine_lawful sha256
  refl pid s := ⟨.refl _, .of_ext_eq rfl⟩
  trans pid a b c h h' :=
    ⟨h.kept.1.trans h'.kept.1, h.kept.2.trans h'.kept.2 h.untouched⟩
  still pid q s s' _ _ _ hc hx := by
    refine ⟨?_, .of_ext_eq hx⟩
    rw [hc]
    exact .refl _
  also s s' h hc hx := by
    show EvidenceHolds sha256 adapters valid s'.committed s'.ext
    rw [hc, hx]
    exact h
  commit pid q s _ h hc :=
    ⟨ControlKept.of_commit (controlOk_of_recorded h) hc, .of_ext_eq rfl⟩

/-! ## What reaches the adapters -/

/-- The worker has the row of a migration of its own. -/
structure Locked (pid : ℕ) (t id : Uuid) (m : StorageMigration) (s : StorageState) : Prop where
  held : s.holder (.migration t id) = some pid
  row : s.committed.migrations t id = some m

/-- Another tenant has other adapters. -/
theorem str_ne_of_ne (hv : TextsApart valid) {t t' : Uuid} (ht : valid t) (ht' : valid t')
    (hne : t' ≠ t) : Uuid.str t' ≠ Uuid.str t :=
  fun hstr => hne (hv t' t ht' ht hstr)

/-- **What the worker does for one tenant** leaves the evidence of the others. -/
theorem EvidenceHolds.of_only {db : StorageDb} {x x' : StorageExt} {t id : Uuid}
    {m : StorageMigration} (h : EvidenceHolds sha256 adapters valid db x)
    (hok : ControlOk strict valid db) (hm : db.migrations t id = some m)
    (hopen : m.state.isClosed = false) (hstate : m.state ≠ .READY_TO_SWITCH)
    (hx : OnlyTenant (Uuid.str t) x x') : EvidenceHolds sha256 adapters valid db x' := by
  intro hv t' id' m' hm' hready hw
  have hne : t' ≠ t := by
    rintro rfl
    obtain ⟨-, rfl⟩ := hok.open_unique hm hopen hm' (by rw [hready]; rfl)
    exact hstate hready
  have hstr := str_ne_of_ne hv (hok.row t id m hm).valid (hok.row t' id' m' hm').valid hne
  refine StorageExt.agree_congr (fun i _ => ⟨(hx _ i _ hstr).1, (hx _ i _ hstr).1⟩)
    (h hv t' id' m' hm' hready (fun i hi => ?_))
  rw [← (hx _ i _ hstr).2]
  exact hw i hi

/-- … and what their validations count on. -/
theorem AdaptersKept.of_only {q : ℕ} {t id : Uuid} {m : StorageMigration} (hq : q ≠ pid)
    (hok : ControlOk strict valid s.committed) (hl : Locked pid t id m s)
    (hopen : m.state.isClosed = false) (hx : OnlyTenant (Uuid.str t) s.ext s'.ext) :
    AdaptersKept valid q s s' := by
  intro hv t' id' m' hheld hm' hstate i
  have hne : t' ≠ t := by
    rintro rfl
    obtain ⟨rfl, -⟩ := hok.open_unique hl.row hopen hm' (by rw [hstate]; rfl)
    rw [hl.held] at hheld
    exact hq (Option.some.inj hheld).symm
  have hstr := str_ne_of_ne hv (hok.row t id m hl.row).valid (hok.row t' id' m' hm').valid hne
  refine ⟨(hx _ i _ hstr).1, fun hw => ⟨?_, (hx _ i _ hstr).1⟩⟩
  rw [← (hx _ i _ hstr).2]
  exact hw

/-- What an operation of the business does to the adapters. -/
structure BusinessWrote (t : String) (p : Uuid) (i : ℕ) (x x' : StorageExt) : Prop where
  only : OnlyTenant t x x'
  others : ∀ p' j, (p', j) ≠ (p, i) → x'.entries p' j t = x.entries p' j t
    ∧ x'.written p' j t = x.written p' j t
  written : x'.written p i t = true

/-- **The business of a tenant** spoils no evidence but that of its source. -/
theorem EvidenceHolds.of_business {db : StorageDb} {x x' : StorageExt} {t p : Uuid} {i : ℕ}
    (h : EvidenceHolds sha256 adapters valid db x) (hok : ControlOk strict valid db)
    (ht : valid t) (hp : db.writeProfile t = some p) (hx : BusinessWrote (Uuid.str t) p i x x') :
    EvidenceHolds sha256 adapters valid db x' := by
  intro hv t' id' m' hm' hready hw
  by_cases hne : t' = t
  · subst hne
    have hopen : m'.state.isClosed = false := by rw [hready]; rfl
    rw [hok.writeProfile_of_open hm' hopen] at hp
    have hsource : m'.sourceProfileId = p := by
      unfold StorageMigration.businessWriteProfileId at hp
      rw [hready] at hp
      exact Option.some.inj hp
    have happart := (hok.row t' id' m' hm').apart
    have hother : ∀ j < adapters t' m'.sourceProfileId m'.targetProfileId,
        (m'.sourceProfileId, j) ≠ (p, i) := by
      intro j hj heq
      have hwritten := hw j hj
      obtain ⟨h₁, h₂⟩ := Prod.mk.inj heq
      rw [h₁, h₂, hx.written] at hwritten
      cases hwritten
    refine StorageExt.agree_congr (fun j hj => ⟨(hx.others _ j (hother j hj)).1, ?_⟩)
      (h hv t' id' m' hm' hready (fun j hj => ?_))
    · refine (hx.others _ j (fun heq => happart ?_)).1
      rw [hsource]
      exact (Prod.mk.inj heq).1.symm
    · rw [← (hx.others _ j (hother j hj)).2]
      exact hw j hj
  · have hstr := str_ne_of_ne hv ht (hok.row t' id' m' hm').valid hne
    refine StorageExt.agree_congr (fun j _ => ⟨(hx.only _ j _ hstr).1, (hx.only _ j _ hstr).1⟩)
      (h hv t' id' m' hm' hready (fun j hj => ?_))
    rw [← (hx.only _ j _ hstr).2]
    exact hw j hj

theorem AdaptersKept.of_business {q : ℕ} {t p : Uuid} {i : ℕ}
    (hok : ControlOk strict valid s.committed) (ht : valid t)
    (hp : s.committed.writeProfile t = some p)
    (hx : BusinessWrote (Uuid.str t) p i s.ext s'.ext) : AdaptersKept valid q s s' := by
  intro hv t' id' m' _ hm' hstate j
  by_cases hne : t' = t
  · subst hne
    have hopen : m'.state.isClosed = false := by rw [hstate]; rfl
    rw [hok.writeProfile_of_open hm' hopen] at hp
    have hsource : m'.sourceProfileId = p := by
      unfold StorageMigration.businessWriteProfileId at hp
      rw [hstate] at hp
      exact Option.some.inj hp
    have happart := (hok.row t' id' m' hm').apart
    refine ⟨(hx.others _ j (fun heq => happart ?_)).1, fun hw => ?_⟩
    · rw [hsource]
      exact (Prod.mk.inj heq).1.symm
    · have hother : (m'.sourceProfileId, j) ≠ (p, i) := by
        intro heq
        obtain ⟨h₁, h₂⟩ := Prod.mk.inj heq
        rw [h₁, h₂, hx.written] at hw
        cases hw
      obtain ⟨he, hwr⟩ := hx.others _ j hother
      exact ⟨by rw [← hwr]; exact hw, he⟩
  · have hstr := str_ne_of_ne hv ht (hok.row t' id' m' hm').valid hne
    refine ⟨(hx.only _ j _ hstr).1, fun hw => ⟨?_, (hx.only _ j _ hstr).1⟩⟩
    rw [← (hx.only _ j _ hstr).2]
    exact hw

end Regime
