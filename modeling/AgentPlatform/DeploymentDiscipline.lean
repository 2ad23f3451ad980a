import AgentPlatform.ChangeLog
import AgentPlatform.DeploymentHistory

/-!
# What the deployment endpoints commit

Every commit of the endpoints is a `DeploymentChange`, whatever runs between their
statements. Two locks see to it. The row of the application is locked by everyone
who places or activates a deployment of it, so nobody else adds an active row
meanwhile (`NoNewActive`); and the current deployment is locked when it is read,
so nobody halts it. Together they keep the current deployment current until the
transaction ends (`firm_atCurrent`), long after it was read.
-/

/-! ## Rows behind keys -/

/-- What is behind a key. Nobody writes an application. -/
abbrev DeploymentCell : DeploymentRow → Type
  | .application .. => Unit
  | .deployment .. => List AgentDeployment
  | .run .. => List EvalRun

/-- The rows behind a key. -/
def deploymentLook : (k : DeploymentRow) → DeploymentDb → DeploymentCell k
  | .application .., _ => ()
  | .deployment t id, db => db.deployments.filter (fun d => d.key = (t, id))
  | .run t id, db => db.runs.filter (fun r => (r.tenantId, r.id) = (t, id))

/-- Changing the row under a key, and looking for the rows under a key. -/
theorem filter_update (db : DeploymentDb) (key k : Uuid × Uuid)
    {f : AgentDeployment → AgentDeployment} (hf : ∀ d, (f d).key = d.key) :
    (db.update key f).deployments.filter (fun d => d.key = k)
      = (db.deployments.filter (fun d => d.key = k)).map
        (fun d => if d.key = key then f d else d) := by
  show (db.deployments.map _).filter _ = _
  rw [List.filter_map]
  refine congrArg _ (List.filter_congr (fun d _ => ?_))
  simp only [Function.comp_apply]
  split
  · rw [hf]
  · rfl

theorem filter_update_of_ne (db : DeploymentDb) {key k : Uuid × Uuid} (hne : key ≠ k)
    {f : AgentDeployment → AgentDeployment} (hf : ∀ d, (f d).key = d.key) :
    (db.update key f).deployments.filter (fun d => d.key = k)
      = db.deployments.filter (fun d => d.key = k) := by
  rw [filter_update db key k hf]
  refine (List.map_congr_left (fun d hd => if_neg (fun hkey => hne ?_))).trans (List.map_id' _)
  exact hkey.symm.trans (of_decide_eq_true (List.mem_filter.mp hd).2)

theorem filter_update_congr {db db' : DeploymentDb} (key : Uuid × Uuid) {k : Uuid × Uuid}
    (h : db.deployments.filter (fun d => d.key = k) = db'.deployments.filter (fun d => d.key = k))
    {f : AgentDeployment → AgentDeployment} (hf : ∀ d, (f d).key = d.key) :
    (db.update key f).deployments.filter (fun d => d.key = k)
      = (db'.update key f).deployments.filter (fun d => d.key = k) := by
  rw [filter_update db key k hf, filter_update db' key k hf, h]

/-- A write leaves the rows it is not keyed by alone. -/
theorem deploymentLook_apply (w : DeploymentWrite) (db : DeploymentDb) (k : DeploymentRow)
    (hk : w.key ≠ k) : deploymentLook k (w.apply db) = deploymentLook k db := by
  cases k with
  | application t a => rfl
  | deployment t id =>
    cases w with
    | insert row =>
      show (db.deployments ++ [row]).filter _ = db.deployments.filter _
      have hne : ¬ row.key = (t, id) := fun h => hk (by
        obtain ⟨rfl, rfl⟩ := Prod.mk.inj h
        rfl)
      rw [List.filter_append]
      simp [hne]
    | activate t' id' approver now =>
      exact filter_update_of_ne db (fun h => hk (by rw [DeploymentWrite.key, (Prod.mk.inj h).1,
        (Prod.mk.inj h).2])) (fun _ => rfl)
    | halt t' id' now =>
      exact filter_update_of_ne db (fun h => hk (by rw [DeploymentWrite.key, (Prod.mk.inj h).1,
        (Prod.mk.inj h).2])) (fun _ => rfl)
    | run row => rfl
  | run t id =>
    cases w with
    | run row =>
      show (db.runs ++ [row]).filter _ = db.runs.filter _
      have hne : ¬ (row.tenantId, row.id) = (t, id) := fun h => hk (by
        obtain ⟨rfl, rfl⟩ := Prod.mk.inj h
        rfl)
      rw [List.filter_append]
      simp only [hne, decide_false, List.filter_cons, Bool.false_eq_true, if_false,
        List.filter_nil, List.append_nil]
    | _ => rfl

/-- What a write makes of rows depends on those rows alone. -/
theorem deploymentLook_congr (w : DeploymentWrite) (db db' : DeploymentDb) (k : DeploymentRow)
    (h : deploymentLook k db = deploymentLook k db') :
    deploymentLook k (w.apply db) = deploymentLook k (w.apply db') := by
  cases k with
  | application t a => rfl
  | deployment t id =>
    have hrows : db.deployments.filter (fun d => d.key = (t, id))
        = db'.deployments.filter (fun d => d.key = (t, id)) := h
    cases w with
    | insert row =>
      show (db.deployments ++ [row]).filter _ = (db'.deployments ++ [row]).filter _
      rw [List.filter_append, List.filter_append, hrows]
    | activate t' id' approver now => exact filter_update_congr _ hrows (fun _ => rfl)
    | halt t' id' now => exact filter_update_congr _ hrows (fun _ => rfl)
    | run row => exact hrows
  | run t id =>
    have hrows : db.runs.filter (fun r => (r.tenantId, r.id) = (t, id))
        = db'.runs.filter (fun r => (r.tenantId, r.id) = (t, id)) := h
    cases w with
    | run row =>
      show (db.runs ++ [row]).filter _ = (db'.runs ++ [row]).filter _
      rw [List.filter_append, List.filter_append, hrows]
    | _ => exact hrows

/-- **Locking works.** -/
theorem deploymentEngine_lawful : deploymentEngine.Lawful deploymentLook where
  look_apply := deploymentLook_apply
  look_congr := deploymentLook_congr
  exec_locked a op fr db x w hw := by
    cases op with
    | insertDeployment row =>
      simp only [deploymentEngine, DeploymentOp.exec] at hw
      split at hw
      · rw [List.mem_singleton.mp hw]
        exact List.mem_singleton_self _
      · cases hw
    | activate t id app approver now =>
      simp only [deploymentEngine, DeploymentOp.exec] at hw
      split at hw
      · rw [List.mem_singleton.mp hw]
        exact List.mem_singleton_self _
      · cases hw
    | halt t id now =>
      rw [List.mem_singleton.mp hw]
      exact List.mem_singleton_self _
    | insertRun row =>
      simp only [deploymentEngine, DeploymentOp.exec] at hw
      split at hw
      · cases hw
      · rw [List.mem_singleton.mp hw]
        exact List.mem_singleton_self _
    | _ => cases hw

/-! ## The regime -/

/-- **An application gets no active deployment it did not have.** -/
def NoNewActive (t app : Uuid) (db db' : DeploymentDb) : Prop :=
  ∀ d ∈ db'.deployments, d.tenantId = t → d.applicationId = app → d.status = .ACTIVE →
    d ∈ db.deployments

/-- **The regime of the deployments**: each commit is a change, and who has an
application locked can count on its active deployments. -/
def deploymentRegime : Engine.Regime DeploymentDb DeploymentWrite DeploymentRow Timestamp where
  start db := db.deployments = []
  change := DeploymentChange
  also _ := True
  kept pid s s' := ∀ t app, s.holder (.application t app) = some pid →
    NoNewActive t app s.committed s'.committed

/-- The regime is steady. -/
theorem deploymentRegime_steady :
    Engine.Regime.Steady deploymentEngine deploymentLook deploymentRegime where
  lawful := deploymentEngine_lawful
  refl _ _ _ _ _ _ hd _ _ _ := hd
  trans pid a b c h h' t app hheld d hd ht happ hstatus := by
    have hheld' : b.holder (.application t app) = some pid := (h.untouched.held _).mpr hheld
    exact h.kept t app hheld d (h'.kept t app hheld' d hd ht happ hstatus) ht happ hstatus
  still pid q s s' _ _ _ hc _ t app _ d hd _ _ _ := hc ▸ hd
  also _ _ _ _ _ := trivial

section Programs

/-- What is committed is a history of changes. -/
abbrev Deployed (s : DeploymentState) : Prop := deploymentEngine.Recorded deploymentRegime s

/-- A program commits changes only. -/
abbrev Deploys (pid : ℕ) {α : Type} (p : DeploymentProg α)
    (Q : Except PyException α → DeploymentState → Prop) (s : DeploymentState) : Prop :=
  deploymentEngine.Records deploymentLook deploymentRegime (fun _ _ _ => True) pid p Q s

/-- A fact that lasts while a transaction is open. -/
abbrev FirmFor (pid : ℕ) (F : DeploymentState → Prop) : Prop :=
  deploymentEngine.Firm deploymentLook deploymentRegime pid F

/-- What a transaction has written so far, and what it rests on. -/
abbrev Midway (pid : ℕ) (ws : List DeploymentWrite) (F : DeploymentState → Prop)
    (s : DeploymentState) : Prop :=
  s.pending pid = some ws ∧ F s

/-- What is committed is in order. -/
theorem Deployed.ok {s : DeploymentState} (h : Deployed s) : DeploymentsOk s.committed := by
  refine h.keeps (P := DeploymentsOk) (fun db hdb => ?_) (fun a b hc ha => ha.change hc)
  have hnil : db.deployments = [] := hdb
  refine ⟨by rw [hnil]; exact List.nodup_nil, fun d hd => ?_, fun d hd => ?_⟩
  · rw [hnil] at hd
    exact absurd hd List.not_mem_nil
  · rw [hnil] at hd
    exact absurd hd List.not_mem_nil

variable {pid : ℕ} {s : DeploymentState} {ws : List DeploymentWrite} {F : DeploymentState → Prop}

/-! ### What a transaction rests on -/

theorem firm_true : FirmFor pid (fun _ => True) :=
  ⟨fun _ _ _ _ _ => trivial, fun _ _ _ _ _ _ _ => trivial⟩

/-- A lock is kept. -/
theorem firm_held (k : DeploymentRow) : FirmFor pid (fun s => s.holder k = some pid) where
  stands _ _ h _ hst := (hst.untouched.held k).mpr h
  grew _ _ _ _ h hg _ := hg.held k h

/-- What is known of the rows behind a lock stays so. -/
theorem firm_rows (k : DeploymentRow) (P : DeploymentCell k → Prop) :
    FirmFor pid (fun s => s.holder k = some pid ∧ P (deploymentLook k s.committed)) where
  stands s s' h _ hst := by
    refine ⟨(hst.untouched.held k).mpr h.1, ?_⟩
    rw [hst.untouched.row k h.1]
    exact h.2
  grew ls ws s s' h hg _ := ⟨hg.held k h.1, by rw [hg.committed]; exact h.2⟩

/-- **The current deployment of a scope is known, and locked** like its
application. -/
structure AtCurrent (pid : ℕ) (scope : DeploymentScope) (current : Option AgentDeployment)
    (s : DeploymentState) : Prop where
  application : s.holder (.application scope.tenantId scope.applicationId) = some pid
  row : ∀ c ∈ current, s.holder (.deployment c.tenantId c.id) = some pid
  current : s.committed.current scope = current

/-- **It stays the current one.** -/
theorem firm_atCurrent (scope : DeploymentScope) (current : Option AgentDeployment) :
    FirmFor pid (AtCurrent pid scope current) where
  stands s s' h hr hst := by
    obtain ⟨happ, hrow, hcur⟩ := h
    refine ⟨(hst.untouched.held _).mpr happ, fun c hc => (hst.untouched.held _).mpr (hrow c hc), ?_⟩
    have hold : ∀ b ∈ s'.committed.active scope, b ∈ s.committed.active scope := by
      intro b hb
      obtain ⟨hmem, hb'⟩ := List.mem_filter.mp hb
      obtain ⟨hscope, hstatus⟩ := of_decide_eq_true hb'
      refine List.mem_filter.mpr ⟨?_, hb'⟩
      exact hst.kept scope.tenantId scope.applicationId happ b hmem
        (congrArg DeploymentScope.tenantId hscope) (congrArg DeploymentScope.applicationId hscope)
        hstatus
    cases current with
    | none =>
      have hnil : s.committed.active scope = [] := lastBy_eq_none_iff.mp hcur
      refine lastBy_eq_none_iff.mpr (List.eq_nil_iff_forall_not_mem.mpr (fun b hb => ?_))
      exact absurd (hnil ▸ hold b hb) List.not_mem_nil
    | some c =>
      have hlast := rank_le_lastBy AgentDeployment.precedes_iff hcur
      obtain ⟨hmem, hscope, hstatus⟩ := DeploymentDb.mem_of_current hcur
      have hrows : s'.committed.deployments.filter (fun d => d.key = (c.tenantId, c.id))
          = s.committed.deployments.filter (fun d => d.key = (c.tenantId, c.id)) :=
        hst.untouched.row _ (hrow c rfl)
      have hc : c ∈ s'.committed.deployments.filter (fun d => d.key = (c.tenantId, c.id)) := by
        rw [hrows]
        exact List.mem_filter.mpr ⟨hmem, decide_eq_true rfl⟩
      refine (Deployed.ok hr).current_eq_some_iff.mpr ⟨?_, fun b hb => hlast b (hold b hb)⟩
      exact List.mem_filter.mpr ⟨(List.mem_filter.mp hc).1, decide_eq_true ⟨hscope, hstatus⟩⟩
  grew ls ws s s' h hg _ :=
    ⟨hg.held _ h.application, fun c hc => hg.held _ (h.row c hc), by
      rw [hg.committed]
      exact h.current⟩

/-! ### Statements -/

/-- All statements but the first leave the clock. -/
theorem exec_clock {supply : DeploymentSupply} {db : DeploymentDb} {clock : Timestamp}
    {op : DeploymentOp} (hop : ∀ t, op ≠ .setTenant t) :
    (op.exec supply db clock).2.2 = clock := by
  cases op with
  | setTenant t => exact absurd rfl (hop t)
  | insertDeployment row =>
    simp only [DeploymentOp.exec]
    split <;> rfl
  | activate t id app approver now =>
    simp only [DeploymentOp.exec]
    split <;> rfl
  | insertRun row =>
    simp only [DeploymentOp.exec]
    split <;> rfl
  | _ => rfl

/-- An insert that succeeds is of a new row. -/
theorem exec_insertDeployment {supply : DeploymentSupply} {db : DeploymentDb} {clock : Timestamp}
    {row r : AgentDeployment}
    (h : ((DeploymentOp.insertDeployment row).exec supply db clock).1 = .ok r) :
    row.key ∉ db.deployments.map AgentDeployment.key
      ∧ ((DeploymentOp.insertDeployment row).exec supply db clock).2.1 = [.insert row] := by
  simp only [DeploymentOp.exec] at h ⊢
  split at h
  · rename_i hfree
    rw [if_pos hfree]
    exact ⟨hfree.2, rfl⟩
  · cases h

/-- An update that finds its row writes it. -/
theorem exec_activate {supply : DeploymentSupply} {db : DeploymentDb} {clock : Timestamp}
    {t id app : Uuid} {approver : String} {now : Timestamp} {r : AgentDeployment}
    (h : ((DeploymentOp.activate t id app approver now).exec supply db clock).1 = .ok (some r)) :
    ((DeploymentOp.activate t id app approver now).exec supply db clock).2.1
      = [.activate t id approver now] := by
  simp only [DeploymentOp.exec] at h ⊢
  split at h
  · rfl
  · cases h

/-- **Statement rule.** The statement fails, or it answers, takes its locks and adds
its writes. -/
theorem deploys_stmt {op : DeploymentOp} {P : DeploymentRes op → DeploymentState → Prop}
    (hop : ∀ t, op ≠ .setTenant t) (hF : FirmFor pid F) (hs : Midway pid ws F s)
    (h : ∀ supply s₁ s₂ r, Deployed s₁ → F s₁ → s₂.committed = s₁.committed →
      (op.exec supply (deploymentEngine.applyAll ws s₁.committed) s₁.ext).1 = .ok r →
      (∀ k ∈ op.locks (deploymentEngine.applyAll ws s₁.committed), s₂.holder k = some pid) →
      Midway pid (ws
        ++ (op.exec supply (deploymentEngine.applyAll ws s₁.committed) s₁.ext).2.1) F s₂ →
      P r s₂) :
    Deploys pid (deployment op) (Prog.outcome P (fun _ _ => True)) s := by
  refine deploymentRegime_steady.records_step hF hs (fun _ _ _ => trivial)
    (fun s₁ s₂ a hr hws hF₁ _ => ⟨exec_clock hop, fun hgrew _ hF₂ => ?_⟩)
  cases hout : deploymentEngine.exec a op (Engine.free s₁ pid)
      (deploymentEngine.applyAll ws s₁.committed) s₁.ext with
  | mk r rest =>
    cases r with
    | error e => trivial
    | ok r =>
      exact h a s₁ s₂ r hr hF₁ hgrew.committed (congrArg Prod.fst hout) hgrew.locked
        ⟨hgrew.pending ws hws, hF₂⟩

/-- **Statement rule**, for a statement that writes nothing. -/
theorem deploys_read {op : DeploymentOp} {P : DeploymentRes op → DeploymentState → Prop}
    (hop : ∀ t, op ≠ .setTenant t) (hreads : ∀ supply db clock, (op.exec supply db clock).2.1 = [])
    (hF : FirmFor pid F) (hs : Midway pid ws F s)
    (h : ∀ supply s₁ s₂ r, Deployed s₁ → F s₁ → s₂.committed = s₁.committed →
      (op.exec supply (deploymentEngine.applyAll ws s₁.committed) s₁.ext).1 = .ok r →
      (∀ k ∈ op.locks (deploymentEngine.applyAll ws s₁.committed), s₂.holder k = some pid) →
      Midway pid ws F s₂ → P r s₂) :
    Deploys pid (deployment op) (Prog.outcome P (fun _ _ => True)) s := by
  refine deploys_stmt hop hF hs (fun supply s₁ s₂ r hr hF₁ hc hok hl hs₂ => ?_)
  rw [hreads, List.append_nil] at hs₂
  exact h supply s₁ s₂ r hr hF₁ hc hok hl hs₂

/-- **Statement rule**, for a statement whose answer does not matter. -/
theorem deploys_skip {op : DeploymentOp} (hop : ∀ t, op ≠ .setTenant t)
    (hreads : ∀ supply db clock, (op.exec supply db clock).2.1 = []) (hF : FirmFor pid F)
    (hs : Midway pid ws F s) :
    Deploys pid (deployment op) (Prog.outcome (fun _ => Midway pid ws F) (fun _ _ => True)) s :=
  deploys_read hop hreads hF hs (fun _ _ _ _ _ _ _ _ _ h => h)

/-! ### Transactions -/

/-- **A transaction may commit**: what it has written is a change, and activates
nothing of an application that another one has locked. -/
def ReadyToDeploy (pid : ℕ) (s : DeploymentState) : Prop :=
  ∃ ws F, FirmFor pid F ∧ Midway pid ws F s ∧ ∀ s₁, Deployed s₁ → F s₁ →
    DeploymentChange s₁.committed (deploymentEngine.applyAll ws s₁.committed)
      ∧ ∀ q, q ≠ pid → ∀ t app, s₁.holder (.application t app) = some q →
        NoNewActive t app s₁.committed (deploymentEngine.applyAll ws s₁.committed)

theorem ReadyToDeploy.mayPublish (h : ReadyToDeploy pid s) :
    deploymentEngine.MayPublish deploymentLook deploymentRegime pid s := by
  obtain ⟨ws, F, hF, hs, hready⟩ := h
  refine hF.mayPublish hs (fun s₁ hr _ hF₁ hview => ?_)
  obtain ⟨hchange, hkept⟩ := hready s₁ hr hF₁
  refine ⟨hchange, trivial, fun q hq t app hheld => ?_⟩
  have hcommitted : (deploymentEngine.publish s₁ pid).committed
      = deploymentEngine.applyAll ws s₁.committed := hview
  rw [hcommitted]
  exact hkept q hq t app hheld

/-- Nothing written, or only evaluation runs. -/
theorem ready_of_same (hF : FirmFor pid F) (hs : Midway pid ws F s)
    (hsame : ∀ db : DeploymentDb, (deploymentEngine.applyAll ws db).deployments = db.deployments) :
    ReadyToDeploy pid s := by
  refine ⟨ws, F, hF, hs, fun s₁ _ _ => ⟨.same (hsame _), fun _ _ t app _ d hd _ _ _ => ?_⟩⟩
  rw [← hsame]
  exact hd

/-- Statements that write nothing leave a transaction ready. -/
theorem deploys_still {op : DeploymentOp} (hop : ∀ t, op ≠ .setTenant t)
    (hreads : ∀ supply db clock, (op.exec supply db clock).2.1 = []) (h : ReadyToDeploy pid s) :
    Deploys pid (deployment op)
      (Prog.outcome (fun _ => ReadyToDeploy pid) (fun _ _ => True)) s := by
  obtain ⟨ws, F, hF, hs, hready⟩ := h
  refine (deploys_skip hop hreads hF hs).mono (fun r s₁ hr => ?_)
  cases r with
  | ok a => exact ⟨ws, F, hF, hr, hready⟩
  | error e => trivial

/-- **A handler**: its work makes its transaction ready, and the ledger and the audit
change nothing. -/
theorem deploys_recorded {t : Uuid} {work : Timestamp → DeploymentProg DeploymentReply}
    (hwork : ∀ now s₁, Midway pid [] (fun _ => True) s₁ → Deploys pid (work now)
      (Prog.outcome (fun _ => ReadyToDeploy pid) (fun _ _ => True)) s₁) :
    Deploys pid (tenantTransaction t (fun now => recorded (work now))) (fun _ _ => True) s := by
  refine deploymentRegime_steady.records_publishing (fun s₁ hr _ => ?_)
  have hbody : Deploys pid (do
      let now ← deployment (.setTenant t)
      recorded (work now)) (Prog.outcome (fun _ => ReadyToDeploy pid) (fun _ _ => True))
        (Engine.opened s₁ pid) := by
    have hin : (Engine.opened s₁ pid).pending pid = some [] := by simp [Engine.opened]
    refine Prog.Safe.bind (Q := Prog.outcome (fun _ => Midway pid [] (fun _ => True))
      (fun _ _ => True)) ?_ (fun now s₂ hs₂ => ?_) (fun _ _ _ => trivial)
    · refine deploymentRegime_steady.records_stmt (by rw [hin]; rfl) (fun _ _ _ => trivial)
        (fun s₂ a _ hst _ _ => ?_)
      have hin₂ : s₂.pending pid = some [] := hst.untouched.pending.trans hin
      refine ⟨trivial, fun q _ u app _ d hd _ _ _ => ?_, Engine.pending_ran hin₂, trivial⟩
      rwa [Engine.committed_ran (by rw [hin₂]; rfl)] at hd
    · refine Prog.Safe.bind (deploys_skip (fun _ h => by cases h) (fun _ _ _ => rfl) firm_true hs₂)
        (fun replayed s₃ hs₃ => ?_) (fun _ _ _ => trivial)
      cases replayed with
      | some reply => exact ready_of_same firm_true hs₃ (fun _ => rfl)
      | none =>
        refine Prog.Safe.bind (hwork now s₃ hs₃) (fun reply s₄ hs₄ => ?_) (fun _ _ _ => trivial)
        refine Prog.Safe.bind (deploys_still (fun _ h => by cases h) (fun _ _ _ => rfl) hs₄)
          (fun _ s₅ hs₅ => ?_) (fun _ _ _ => trivial)
        exact Prog.Safe.bind (deploys_still (fun _ h => by cases h) (fun _ _ _ => rfl) hs₅)
          (fun _ s₆ hs₆ => hs₆) (fun _ _ _ => trivial)
  refine hbody.mono (fun r s₂ hr₂ => ?_)
  cases r with
  | ok a => exact ReadyToDeploy.mayPublish hr₂
  | error e => trivial

/-! ### The parts of the handlers -/

/-- The application is locked. -/
abbrev HoldsApplication (pid : ℕ) (t app : Uuid) (s : DeploymentState) : Prop :=
  s.holder (.application t app) = some pid

/-- Locking an application that is there. -/
theorem deploys_lockApplication (t app : Uuid) (hs : Midway pid [] (fun _ => True) s) :
    Deploys pid (deployment (.lockApplication t app))
      (Prog.outcome (fun found s' => found = true → Midway pid [] (HoldsApplication pid t app) s')
        (fun _ _ => True)) s := by
  refine deploys_read (fun _ h => nomatch h) (fun _ _ _ => rfl) firm_true hs
    (fun supply s₁ s₂ r _ _ _ hok hl hs₂ hfound => ⟨hs₂.1, hl _ ?_⟩)
  have hmem : (t, app) ∈ s₁.committed.applications := by
    subst hfound
    exact of_decide_eq_true (Except.ok.inj hok)
  simp [DeploymentOp.locks, hmem]

/-- Reading the current deployment under the lock of its application. -/
theorem deploys_lockCurrent (scope : DeploymentScope) (hF : FirmFor pid F)
    (hs : Midway pid [] (fun s => HoldsApplication pid scope.tenantId scope.applicationId s ∧ F s)
      s) :
    Deploys pid (deployment (.lockCurrent scope))
      (Prog.outcome (fun current => Midway pid [] (fun s => AtCurrent pid scope current s ∧ F s))
        (fun _ _ => True)) s := by
  refine deploys_read (fun _ h => nomatch h) (fun _ _ _ => rfl) ((firm_held _).and hF) hs
    (fun supply s₁ s₂ r _ _ hc hok hl hs₂ => ?_)
  have hcur : s₁.committed.current scope = r := Except.ok.inj hok
  refine ⟨hs₂.1, ⟨hs₂.2.1, fun c hmem => hl _ ?_, by rw [hc, hcur]⟩, hs₂.2.2⟩
  rw [Option.mem_def] at hmem
  subst hmem
  simp [DeploymentOp.locks, hcur]

/-- A write to one application leaves the active deployments of the others. -/
theorem noNewActive_insert {row : AgentDeployment} {db : DeploymentDb} {t app : Uuid}
    (hne : ¬ (row.tenantId = t ∧ row.applicationId = app)) :
    NoNewActive t app db { db with deployments := db.deployments ++ [row] } := by
  intro d hd ht happ _
  rcases List.mem_append.mp hd with hd | hd
  · exact hd
  · obtain rfl := List.mem_singleton.mp hd
    exact absurd ⟨ht, happ⟩ hne

/-- **Inserting a row on top of the current deployment.** -/
theorem deploys_insert {scope : DeploymentScope} {current : Option AgentDeployment}
    {row : AgentDeployment} (hplaced : row.PlacedOn current) (hscope : row.scope = scope)
    (hs : Midway pid [] (fun s => AtCurrent pid scope current s ∧ True) s) :
    Deploys pid (deployment (.insertDeployment row))
      (Prog.outcome (fun _ => ReadyToDeploy pid) (fun _ _ => True)) s := by
  refine deploys_stmt (fun _ h => nomatch h) ((firm_atCurrent scope current).and firm_true) hs
    (fun supply s₁ s₂ r _ _ hc hok hl hs₂ => ?_)
  obtain ⟨hfree, hwrites⟩ := exec_insertDeployment hok
  rw [hwrites] at hs₂
  have hfresh : s₂.holder (.deployment row.tenantId row.id) = some pid
      ∧ deploymentLook (.deployment row.tenantId row.id) s₂.committed = [] := by
    refine ⟨hl _ (List.mem_singleton_self _), ?_⟩
    rw [hc]
    refine List.filter_eq_nil_iff.mpr (fun d hd hkey => hfree ?_)
    exact List.mem_map.mpr ⟨d, hd, of_decide_eq_true hkey⟩
  have hfirm : FirmFor pid (fun s => AtCurrent pid scope current s
      ∧ s.holder (.deployment row.tenantId row.id) = some pid
        ∧ deploymentLook (.deployment row.tenantId row.id) s.committed = []) :=
    (firm_atCurrent scope current).and
      (firm_rows (.deployment row.tenantId row.id) (fun rows => rows = []))
  refine ⟨_, _, hfirm, ⟨hs₂.1, hs₂.2.1, hfresh⟩, fun s₃ _ hF₃ => ?_⟩
  obtain ⟨hat, -, hnone⟩ := hF₃
  refine ⟨.placed row (fun hmem => ?_) (by rw [hscope, hat.current]; exact hplaced),
    fun q hq t app hheld => noNewActive_insert (fun hsame => hq ?_)⟩
  · obtain ⟨d, hd, hkey⟩ := List.mem_map.mp hmem
    exact List.filter_eq_nil_iff.mp hnone d hd (decide_eq_true hkey)
  · have happ := hat.application
    rw [← hscope] at happ
    rw [← hsame.1, ← hsame.2] at hheld
    exact Option.some.inj (hheld.symm.trans happ)

/-! ### The handlers -/

/-- **`create_deployment`.** -/
theorem deploys_create (t app id : Uuid) (payload : AgentDeploymentCreate) (expected : Option ℤ)
    (subject : String) :
    Deploys pid (createDeployment t app id payload expected subject) (fun _ _ => True) s := by
  refine deploys_recorded (fun now s₁ hs₁ => ?_)
  refine Prog.Safe.bind (deploys_lockApplication t app hs₁) (fun found s₂ hs₂ => ?_)
    (fun _ _ _ => trivial)
  cases found with
  | false => trivial
  | true =>
    have hheld := hs₂ rfl
    refine Prog.Safe.bind (deploys_skip (fun _ h => by cases h) (fun _ _ _ => rfl)
      ((firm_held _).and firm_true) ⟨hheld.1, hheld.2, trivial⟩) (fun release s₃ hs₃ => ?_)
      (fun _ _ _ => trivial)
    cases release with
    | false => trivial
    | true =>
      refine Prog.Safe.bind (deploys_lockCurrent
        ⟨t, app, payload.environment⟩ firm_true hs₃) (fun current s₄ hs₄ => ?_)
        (fun _ _ _ => trivial)
      cases hnew : newDeployment t app id payload expected subject now current with
      | error e => trivial
      | ok row =>
        obtain ⟨hplaced, hscope⟩ := AgentDeployment.placedOn_of_new hnew
        exact Prog.Safe.bind (deploys_insert hplaced hscope hs₄) (fun _ _ h => h)
          (fun _ _ _ => trivial)

/-- **`rollback_deployment`.** -/
theorem deploys_rollback (t app id rollbackId release : Uuid) (expected : ℤ) (subject : String) :
    Deploys pid (rollbackDeployment t app id rollbackId release expected subject)
      (fun _ _ => True) s := by
  refine deploys_recorded (fun now s₁ hs₁ => ?_)
  refine Prog.Safe.bind (deploys_lockApplication t app hs₁) (fun found s₂ hs₂ => ?_)
    (fun _ _ _ => trivial)
  cases found with
  | false => trivial
  | true =>
    have hheld := hs₂ rfl
    refine Prog.Safe.bind (deploys_skip (fun _ h => nomatch h) (fun _ _ _ => rfl)
      ((firm_held _).and firm_true) ⟨hheld.1, hheld.2, trivial⟩) (fun source s₃ hs₃ => ?_)
      (fun _ _ _ => trivial)
    cases source with
    | none => trivial
    | some source =>
      refine Prog.Safe.bind (deploys_skip (fun _ h => nomatch h) (fun _ _ _ => rfl)
        ((firm_held _).and firm_true) hs₃) (fun found s₄ hs₄ => ?_) (fun _ _ _ => trivial)
      cases found with
      | false => trivial
      | true =>
        refine Prog.Safe.bind (deploys_lockCurrent
          ⟨t, app, source.environment⟩ firm_true hs₄) (fun current s₅ hs₅ => ?_)
          (fun _ _ _ => trivial)
        cases current with
        | none => trivial
        | some current =>
          show Deploys pid (if current.id = id ∧ current.version = expected then _ else _) _ s₅
          split
          · exact Prog.Safe.bind (deploys_insert
              (AgentDeployment.placedOn_rollbackTo t app rollbackId release source.environment
                subject now current) rfl hs₅) (fun _ _ h => h) (fun _ _ _ => trivial)
          · trivial

/-- The row of a request is known, and locked. -/
abbrev HoldsRequest (pid : ℕ) (t id : Uuid) (request : AgentDeployment) (s : DeploymentState) :
    Prop :=
  s.holder (.deployment t id) = some pid
    ∧ request ∈ deploymentLook (.deployment t id) s.committed

theorem firm_request (t id : Uuid) (request : AgentDeployment) :
    FirmFor pid (HoldsRequest pid t id request) :=
  firm_rows (.deployment t id) (fun rows => request ∈ rows)

/-- Locking the row of a deployment. -/
theorem deploys_lockDeployment (t id app : Uuid) (hF : FirmFor pid F) (hs : Midway pid [] F s) :
    Deploys pid (deployment (.lockDeployment t id app))
      (Prog.outcome (fun found s' => ∀ request, found = some request →
        request.applicationId = app ∧ Midway pid [] (fun s => HoldsRequest pid t id request s ∧ F s)
          s') (fun _ _ => True)) s := by
  refine deploys_read (fun _ h => nomatch h) (fun _ _ _ => rfl) hF hs
    (fun supply s₁ s₂ r _ _ hc hok hl hs₂ request hfound => ?_)
  subst hfound
  have hfind : s₁.committed.find t id app = some request := Except.ok.inj hok
  obtain ⟨hmem, hkey, happ⟩ := DeploymentDb.mem_of_find hfind
  refine ⟨happ, hs₂.1, ⟨hl _ (by simp [DeploymentOp.locks, hfind]), ?_⟩, hs₂.2⟩
  rw [hc]
  exact List.mem_filter.mpr ⟨hmem, decide_eq_true hkey⟩

/-- Activating a row of one application leaves the active deployments of the others. -/
theorem noNewActive_activate {db : DeploymentDb} {t' id t app : Uuid} {approver : String}
    {now : Timestamp}
    (hne : ∀ d ∈ db.deployments, d.key = (t', id) → ¬ (d.tenantId = t ∧ d.applicationId = app)) :
    NoNewActive t app db (db.update (t', id) (fun d => d.activated approver now)) := by
  intro d hd ht happ _
  obtain ⟨e, he, rfl⟩ := List.mem_map.mp hd
  by_cases hkey : e.key = (t', id)
  · rw [if_pos hkey] at ht happ
    exact absurd ⟨ht, happ⟩ (hne e he hkey)
  · rw [if_neg hkey]
    exact he

/-- **Activating a request whose pointer is right.** -/
theorem deploys_activate {t app id : Uuid} {request : AgentDeployment}
    {current : Option AgentDeployment} {subject : String} {now : Timestamp}
    (hpending : request.status = .PENDING_APPROVAL) (happ : request.applicationId = app)
    (hpointer : pointer current = request.expectedPointer)
    (hs : Midway pid [] (fun s => AtCurrent pid ⟨t, app, .production⟩ current s
      ∧ HoldsRequest pid t id request s) s) :
    Deploys pid (deployment (.activate t id app subject now))
      (Prog.outcome (fun row s' => row ≠ none → ReadyToDeploy pid s') (fun _ _ => True)) s := by
  refine deploys_stmt (fun _ h => nomatch h) ((firm_atCurrent _ current).and (firm_request t id _))
    hs (fun supply s₁ s₂ r _ _ _ hok _ hs₂ hne => ?_)
  cases r with
  | none => exact absurd rfl hne
  | some row =>
    rw [exec_activate hok] at hs₂
    refine ⟨_, _, (firm_atCurrent _ current).and (firm_request t id _), hs₂, fun s₃ hr₃ hF₃ => ?_⟩
    obtain ⟨hat, -, hrow⟩ := hF₃
    obtain ⟨hmem, hkey⟩ := List.mem_filter.mp hrow
    have hkey : request.key = (t, id) := of_decide_eq_true hkey
    have hscope : request.scope = ⟨t, app, .production⟩ := by
      have hproduction := (Deployed.ok hr₃).requested request hmem hpending
      unfold AgentDeployment.scope
      rw [hproduction, happ, (Prod.mk.inj hkey).1]
    refine ⟨?_, fun q hq t' app' hheld => noNewActive_activate (fun d hd hdkey hsame => hq ?_)⟩
    · show DeploymentChange s₃.committed (s₃.committed.update (t, id) _)
      rw [← hkey]
      refine .activated request subject now hmem hpending ?_
      rw [hscope, hat.current]
      exact hpointer
    · obtain rfl := (Deployed.ok hr₃).unique hd hmem (hdkey.trans hkey.symm)
      have hheld' := hat.application
      rw [← hscope] at hheld'
      rw [← hsame.1, ← hsame.2] at hheld
      exact Option.some.inj (hheld.symm.trans hheld')

/-- **`approve_deployment`.** -/
theorem deploys_approve (t app id : Uuid) (expected : ℤ) (subject : String) :
    Deploys pid (approveDeployment t app id expected subject) (fun _ _ => True) s := by
  refine deploys_recorded (fun now s₁ hs₁ => ?_)
  refine Prog.Safe.bind (deploys_lockApplication t app hs₁) (fun found s₂ hs₂ => ?_)
    (fun _ _ _ => trivial)
  cases found with
  | false => trivial
  | true =>
    refine Prog.Safe.bind (deploys_lockDeployment t id app (firm_held _) (hs₂ rfl))
      (fun request s₃ hs₃ => ?_) (fun _ _ _ => trivial)
    cases request with
    | none => trivial
    | some request =>
      obtain ⟨happ, hs₃⟩ := hs₃ request rfl
      dsimp only
      cases herr : approvalError request expected subject with
      | some e => trivial
      | none =>
        have hpending : request.status = .PENDING_APPROVAL := by
          unfold approvalError at herr
          split at herr
          · cases herr
          · split at herr
            · cases herr
            · rename_i hstatus
              exact not_not.mp hstatus
        refine Prog.Safe.bind (deploys_skip (fun _ h => by cases h) (fun _ _ _ => rfl)
          ((firm_request t id request).and (firm_held _)) hs₃) (fun run s₄ hs₄ => ?_)
          (fun _ _ _ => trivial)
        cases productionEvalGateError run with
        | some gateError => trivial
        | none =>
          refine Prog.Safe.bind (deploys_lockCurrent ⟨t, app, .production⟩
            (firm_request t id request) ⟨hs₄.1, hs₄.2.2, hs₄.2.1⟩) (fun current s₅ hs₅ => ?_)
            (fun _ _ _ => trivial)
          show Deploys pid (if pointer current = request.expectedPointer then _ else _) _ s₅
          split
          · rename_i hpointer
            refine Prog.Safe.bind (deploys_activate hpending happ hpointer hs₅)
              (fun row s₆ hs₆ => ?_) (fun _ _ _ => trivial)
            cases row with
            | none => trivial
            | some row => exact hs₆ (by simp)
          · trivial

/-- **`create_eval_run`** leaves the deployments. -/
theorem deploys_evalRun (t app runId : Uuid) (payload : EvalRunCreate) (subject : String) :
    Deploys pid (createEvalRun t app runId payload subject) (fun _ _ => True) s := by
  refine deploys_recorded (fun now s₁ hs₁ => ?_)
  refine Prog.Safe.bind (deploys_skip (fun _ h => nomatch h) (fun _ _ _ => rfl) firm_true hs₁)
    (fun suite s₂ hs₂ => ?_) (fun _ _ _ => trivial)
  cases suite with
  | none => trivial
  | some suite =>
    refine Prog.Safe.bind (deploys_skip (fun _ h => nomatch h) (fun _ _ _ => rfl) firm_true hs₂)
      (fun release s₃ hs₃ => ?_) (fun _ _ _ => trivial)
    cases release with
    | false => trivial
    | true =>
      refine Prog.Safe.bind (Q := Prog.outcome (fun _ => ReadyToDeploy pid) (fun _ _ => True))
        (deploys_stmt (fun _ h => nomatch h) firm_true hs₃
          (fun supply s₄ s₅ r _ _ _ _ _ hs₅ => ready_of_same firm_true hs₅ (fun db => ?_)))
        (fun _ _ h => h) (fun _ _ _ => trivial)
      simp only [DeploymentOp.exec]
      split <;> rfl

/-- **`record_eval_canary_observation`** halts a deployment at most. -/
theorem deploys_observe (t app id runId : Uuid) (metrics : EvidenceMap) :
    Deploys pid (recordEvalCanaryObservation t app id runId metrics) (fun _ _ => True) s := by
  refine deploys_recorded (fun now s₁ hs₁ => ?_)
  refine Prog.Safe.bind (deploys_skip (fun _ h => by cases h) (fun _ _ _ => rfl) firm_true hs₁)
    (fun row s₂ hs₂ => ?_) (fun _ _ _ => trivial)
  dsimp only
  cases row.filter (fun d => d.environment = .production) with
  | none => trivial
  | some d =>
    show Deploys pid (if d.status = .ACTIVE then _ else _) _ s₂
    split
    · refine Prog.Safe.bind (deploys_skip (fun _ h => by cases h) (fun _ _ _ => rfl) firm_true hs₂)
        (fun run s₃ hs₃ => ?_) (fun _ _ _ => trivial)
      cases run with
      | none => trivial
      | some thresholds =>
        show Deploys pid (if _ then _ else _) _ s₃
        split
        · refine Prog.Safe.bind (Q := Prog.outcome (fun _ => ReadyToDeploy pid) (fun _ _ => True))
            (deploys_stmt (fun _ h => by cases h) firm_true hs₃
              (fun supply s₄ s₅ r _ _ _ _ _ hs₅ => ?_)) (fun _ s₄ hs₄ => ?_) (fun _ _ _ => trivial)
          · refine ⟨_, _, firm_true, hs₅, fun s₆ _ _ => ⟨.halted (t, id) now, ?_⟩⟩
            intro q _ u app' _ d hd _ _ hactive
            obtain ⟨e, he, rfl⟩ := List.mem_map.mp hd
            split at hactive
            · cases hactive
            · rename_i hne
              rw [if_neg hne]
              exact he
          · exact Prog.Safe.bind (deploys_still (fun _ h => by cases h) (fun _ _ _ => rfl) hs₄)
              (fun _ _ h => h) (fun _ _ _ => trivial)
        · refine Prog.Safe.bind (deploys_skip (fun _ h => by cases h) (fun _ _ _ => rfl) firm_true
            hs₃) (fun _ s₄ hs₄ => ?_) (fun _ _ _ => trivial)
          exact ready_of_same firm_true hs₄ (fun _ => rfl)
    · trivial

end Programs

/-- **The endpoints commit changes only**, whatever runs between their statements. -/
def deploymentDiscipline :
    Pool.Discipline deploymentPool deploymentStart (fun _ _ => True) (fun _ _ _ _ => True)
      (fun _ _ => True) :=
  Engine.steadyDiscipline deploymentRegime_steady
    (fun _ ⟨db, clock, hempty, _, hs⟩ => ⟨trivial, db, clock, hs, hempty⟩)
    (fun _ _ call _ _ _ => match call with
      | .create t a id payload expected subject => deploys_create t a id payload expected subject
      | .approve t a id expected subject => deploys_approve t a id expected subject
      | .rollback t a id rollbackId release expected subject =>
        deploys_rollback t a id rollbackId release expected subject
      | .evalRun t a runId payload subject => deploys_evalRun t a runId payload subject
      | .observe t a id runId metrics => deploys_observe t a id runId metrics)

/-- The requests as a transition system. -/
abbrev deploymentMachine := deploymentPool.machine deploymentStart

theorem deployed_of_reach {w : DeploymentsState} (h : deploymentMachine.Reach Machine.anyStep w) :
    Deployed w.shared :=
  (Pool.reach_safe deploymentDiscipline (Pool.reach_any h)).inv

/-- **Every commit so far is a change of deployments that were in order.** -/
theorem deployment_history {w : DeploymentsState}
    (h : deploymentMachine.Reach Machine.anyStep w) :
    ∀ c ∈ w.shared.log, DeploymentsOk c.before ∧ DeploymentChange c.before c.after := by
  refine ((deployed_of_reach h).history (P := fun log db => DeploymentsOk db
    ∧ ∀ c ∈ log, DeploymentsOk c.before ∧ DeploymentChange c.before c.after) (fun db hdb => ?_)
    (fun log c hc hlog => ⟨hlog.1.change hc, fun c' hc' => ?_⟩)).2
  · have hnil : db.deployments = [] := hdb
    refine ⟨⟨by rw [hnil]; exact List.nodup_nil, fun d hd => ?_, fun d hd => ?_⟩,
      fun c hc => absurd hc List.not_mem_nil⟩
    · rw [hnil] at hd
      exact absurd hd List.not_mem_nil
    · rw [hnil] at hd
      exact absurd hd List.not_mem_nil
  · rcases List.mem_append.mp hc' with hc' | hc'
    · exact hlog.2 c' hc'
    · obtain rfl := List.mem_singleton.mp hc'
      exact ⟨hlog.1, hc⟩
