import AgentPlatform.LifecyclePhases

/-!
# What a lifecycle worker has written

The writes of a worker's open transaction show its phase: one that records an
outcome has written of its own request only, one that sweeps has removed content
of its own tenant only. With the locks on what is written, this says of every
commit what it can have changed.

`WritesInPhase` is that invariant; `phased_step` is the step that keeps it, and
says which of three things a permitted request does to what is committed: nothing,
an erasure outside, or the publication of the writes of a phase.
-/

/-! ## Rows and locks -/

/-- What a lock of the content lifecycle protects. -/
abbrev LifecycleLook : LifecycleKey → Type
  | .request _ => Option DeletionRequest
  | .proof .. => Option DeletionProofRow
  | .content _ => Option ContentRow
  | .artifact .. => Option Timestamp

/-- The rows of the tables. -/
def lifecycleLook : (k : LifecycleKey) → LifecycleDb → LifecycleLook k
  | .request key, db => db.requests.get key
  | .proof key backend, db => db.proofs.get (key, backend)
  | .content id, db => db.content.get id
  | .artifact tenantId id, db => db.artifacts.get (tenantId, id)

/-- What a write leaves of the row it is keyed by. -/
def LifecycleWrite.leaves : (w : LifecycleWrite) → LifecycleLook w.key
  | .setRequest _ row => some row
  | .putProof _ _ row => some row
  | .expire _ _ row => if row.table = .inboundMessage then none
    else some { row with erased := true }
  | .deleteArtifact .. => (none : Option Timestamp)

/-- **A write sets the row it is keyed by**, whatever was there. -/
theorem lifecycleLook_apply_self (w : LifecycleWrite) (db : LifecycleDb) :
    lifecycleLook w.key (w.apply db) = w.leaves := by
  cases w with
  | setRequest key row => exact (Dictionary.get_set ..).trans (if_pos rfl)
  | putProof key backend row => exact (Dictionary.get_set ..).trans (if_pos rfl)
  | expire tenantId id row =>
    show (lifecycleLook (.content id) (if _ then _ else _)) = (if _ then _ else _)
    split
    · exact (Dictionary.get_pop ..).trans (if_pos rfl)
    · exact (Dictionary.get_set ..).trans (if_pos rfl)
  | deleteArtifact tenantId id => exact (Dictionary.get_pop ..).trans (if_pos rfl)

/-- It leaves the others alone. -/
theorem lifecycleLook_apply_of_ne {w : LifecycleWrite} {k : LifecycleKey} (hk : w.key ≠ k)
    (db : LifecycleDb) : lifecycleLook k (w.apply db) = lifecycleLook k db := by
  have hset : ∀ {K V : Type} [DecidableEq K] (d : Dictionary K V) (k k' : K) (v : V), k' ≠ k →
      (d.set k v).get k' = d.get k' := fun d k k' v h => (Dictionary.get_set ..).trans (if_neg h)
  have hpop : ∀ {K V : Type} [DecidableEq K] (d : Dictionary K V) (k k' : K), k' ≠ k →
      (d.pop k).get k' = d.get k' := fun d k k' h => (Dictionary.get_pop ..).trans (if_neg h)
  cases w with
  | setRequest key row =>
    cases k with
    | request key' => exact hset _ _ _ _ (fun h => hk (congrArg LifecycleKey.request h.symm))
    | _ => rfl
  | putProof key backend row =>
    cases k with
    | proof key' backend' =>
      refine hset _ _ _ _ (fun h => hk ?_)
      obtain ⟨rfl, rfl⟩ := Prod.mk.inj h
      rfl
    | _ => rfl
  | expire tenantId id row =>
    show lifecycleLook k (if _ then _ else _) = _
    cases k with
    | content id' =>
      have hne : id' ≠ id := fun h => hk (congrArg LifecycleKey.content h.symm)
      split
      · exact hpop _ _ _ hne
      · exact hset _ _ _ _ hne
    | _ =>
      split
      · rfl
      · rfl
  | deleteArtifact tenantId id =>
    cases k with
    | artifact tenantId' id' =>
      refine hpop _ _ _ (fun h => hk ?_)
      obtain ⟨rfl, rfl⟩ := Prod.mk.inj h
      rfl
    | _ => rfl

theorem mem_updateRequest {db : LifecycleDb} {key : RequestKey}
    {f : DeletionRequest → DeletionRequest} {w : LifecycleWrite}
    (hw : w ∈ updateRequest db key f) :
    ∃ row, db.requests.get key = some row ∧ w = .setRequest key (f row) := by
  unfold updateRequest at hw
  split at hw
  · rename_i row hrow
    exact ⟨row, hrow, List.mem_singleton.mp hw⟩
  · cases hw

/-- **The workers lock what they write.** -/
theorem lifecycleEngine_lawful : lifecycleEngine.Lawful lifecycleLook where
  look_apply w db k hk := lifecycleLook_apply_of_ne hk db
  look_congr w db db' k h := by
    by_cases hk : w.key = k
    · subst hk
      exact (lifecycleLook_apply_self w db).trans (lifecycleLook_apply_self w db').symm
    · exact (lifecycleLook_apply_of_ne hk db).trans
        (h.trans (lifecycleLook_apply_of_ne hk db').symm)
  exec_locked a op fr db x w hw := by
    have hlocked : ∀ {key : RequestKey} {f : DeletionRequest → DeletionRequest},
        w ∈ updateRequest db key f → w.key ∈ lockRequest db key := by
      intro key f hw
      obtain ⟨row, hrow, rfl⟩ := mem_updateRequest hw
      unfold lockRequest
      rw [hrow]
      exact List.mem_singleton.mpr rfl
    cases op with
    | block key => exact hlocked hw
    | setRetryable key next error => exact hlocked hw
    | setCompleted key current => exact hlocked hw
    | claim key current =>
      simp only [lifecycleEngine] at hw ⊢
      split at hw
      · rename_i hclaim
        obtain ⟨row, -, rfl⟩ := mem_updateRequest hw
        rw [if_pos hclaim]
        exact List.mem_singleton.mpr rfl
      · cases hw
    | upsertProof key backend row =>
      simp only [lifecycleEngine] at hw ⊢
      split at hw
      · rw [List.mem_singleton.mp hw]
        exact List.mem_singleton.mpr rfl
      · cases hw
    | expire table tenantId cutoff =>
      obtain ⟨e, he, rfl⟩ := List.mem_map.mp hw
      exact List.mem_map.mpr ⟨e, he, rfl⟩
    | deleteArtifact tenantId id =>
      obtain ⟨e, he, rfl⟩ := List.mem_map.mp hw
      exact List.mem_map.mpr ⟨e, he, rfl⟩
    | _ => cases hw

/-- **What writes leave of a row**: what was there, or what one of them left. -/
theorem look_applyAll_cases (ws : List LifecycleWrite) (k : LifecycleKey) (db : LifecycleDb) :
    ((∀ w ∈ ws, w.key ≠ k)
        ∧ lifecycleLook k (lifecycleEngine.applyAll ws db) = lifecycleLook k db)
      ∨ ∃ w ∈ ws, ∃ h : w.key = k,
        lifecycleLook k (lifecycleEngine.applyAll ws db) = h ▸ w.leaves := by
  induction ws generalizing db with
  | nil => exact .inl ⟨fun w hw => absurd hw List.not_mem_nil, rfl⟩
  | cons w ws ih =>
    rcases ih (w.apply db) with ⟨hne, h⟩ | ⟨w', hw', hk, h⟩
    · by_cases hk : w.key = k
      · subst hk
        exact .inr ⟨w, List.mem_cons_self, rfl, h.trans (lifecycleLook_apply_self w db)⟩
      · refine .inl ⟨fun w' hw' => ?_, h.trans (lifecycleLook_apply_of_ne hk db)⟩
        rcases List.mem_cons.mp hw' with rfl | hw'
        · exact hk
        · exact hne w' hw'
    · exact .inr ⟨w', List.mem_cons_of_mem w hw', hk, h⟩

theorem requests_applyAll (ws : List LifecycleWrite) (db : LifecycleDb) (key : RequestKey) :
    (lifecycleEngine.applyAll ws db).requests.get key = db.requests.get key
      ∨ ∃ row, .setRequest key row ∈ ws
        ∧ (lifecycleEngine.applyAll ws db).requests.get key = some row := by
  rcases look_applyAll_cases ws (.request key) db with ⟨-, h⟩ | ⟨w, hw, hk, h⟩
  · exact .inl h
  · cases w with
    | setRequest key' row =>
      obtain rfl := LifecycleKey.request.inj hk
      exact .inr ⟨row, hw, h⟩
    | _ => cases hk

theorem proofs_applyAll (ws : List LifecycleWrite) (db : LifecycleDb) (key : RequestKey)
    (backend : ContentBackend) :
    ((∀ row, .putProof key backend row ∉ ws)
        ∧ (lifecycleEngine.applyAll ws db).proofs.get (key, backend) = db.proofs.get (key, backend))
      ∨ ∃ row, .putProof key backend row ∈ ws
        ∧ (lifecycleEngine.applyAll ws db).proofs.get (key, backend) = some row := by
  rcases look_applyAll_cases ws (.proof key backend) db with ⟨hne, h⟩ | ⟨w, hw, hk, h⟩
  · exact .inl ⟨fun row hrow => hne _ hrow rfl, h⟩
  · cases w with
    | putProof key' backend' row =>
      obtain ⟨rfl, rfl⟩ := LifecycleKey.proof.inj hk
      exact .inr ⟨row, hw, h⟩
    | _ => cases hk

theorem content_applyAll (ws : List LifecycleWrite) (db : LifecycleDb) (id : Uuid) :
    (lifecycleEngine.applyAll ws db).content.get id = db.content.get id
      ∨ ∃ tenantId row, .expire tenantId id row ∈ ws := by
  rcases look_applyAll_cases ws (.content id) db with ⟨-, h⟩ | ⟨w, hw, hk, -⟩
  · exact .inl h
  · cases w with
    | expire tenantId id' row =>
      obtain rfl := LifecycleKey.content.inj hk
      exact .inr ⟨tenantId, row, hw⟩
    | _ => cases hk

theorem artifacts_applyAll (ws : List LifecycleWrite) (db : LifecycleDb) (tenantId id : Uuid) :
    (lifecycleEngine.applyAll ws db).artifacts.get (tenantId, id) = db.artifacts.get (tenantId, id)
      ∨ .deleteArtifact tenantId id ∈ ws := by
  rcases look_applyAll_cases ws (.artifact tenantId id) db with ⟨-, h⟩ | ⟨w, hw, hk, -⟩
  · exact .inl h
  · cases w with
    | deleteArtifact tenantId' id' =>
      obtain ⟨rfl, rfl⟩ := LifecycleKey.artifact.inj hk
      exact .inr hw
    | _ => cases hk

/-- Writes do not touch holds. -/
theorem holds_applyAll (ws : List LifecycleWrite) (db : LifecycleDb) :
    (lifecycleEngine.applyAll ws db).holds = db.holds := by
  induction ws generalizing db with
  | nil => rfl
  | cons w ws ih =>
    refine (ih _).trans ?_
    cases w with
    | expire tenantId id row =>
      show LifecycleDb.holds (if _ then _ else _) = _
      split
      · rfl
      · rfl
    | _ => rfl

theorem view_held (s : LifecycleState) (pid : ℕ) (tenantId : Uuid) :
    (lifecycleEngine.view s pid).held tenantId = s.committed.held tenantId := by
  unfold LifecycleDb.held Engine.view
  split
  · rfl
  · rw [holds_applyAll]

/-! ## The writes of a phase -/

/-- A stored proof is of a verified erasure and has the digest of its own fields. -/
def ProofHashing.Attests (H : ProofHashing) (key : RequestKey) (backend : ContentBackend)
    (row : DeletionProofRow) : Prop :=
  row.verified = true ∧ row.evidenceDigest
    = H.digest key.2 backend row.deletedCount row.verified row.completedAt

/-- **What a worker has written in a phase.** It completes a request only next to a
proof of every backend. -/
def LifecyclePhase.Wrote (H : ProofHashing) (ws : List LifecycleWrite) : LifecyclePhase → Prop
  | .held tenantId => ∀ w ∈ ws, ∃ key row, w = .setRequest key row ∧ key.1 = tenantId
      ∧ row.status = .blockedLegalHold
  | .claimed key => ∀ w ∈ ws, ∃ row, w = .setRequest key row ∧ row.status = .processing
  | .recording key proven =>
    (∀ w ∈ ws, (∃ backend row, w = .putProof key backend row ∧ H.Attests key backend row)
      ∨ ∃ row, w = .setRequest key row
        ∧ (row.status = .completed → ∀ b, ∃ p, LifecycleWrite.putProof key b p ∈ ws))
    ∧ ∀ b ∈ proven, ∃ p, LifecycleWrite.putProof key b p ∈ ws
  | .sweeping tenantId => ∀ w ∈ ws, ∃ id row, w = .expire tenantId id row
  | .deleting tenantId _ => ∀ w ∈ ws, ∃ id, w = .deleteArtifact tenantId id
  | .failing => True
  | _ => ws = []

section Phases

variable {H : ProofHashing} {g : LifecyclePhase} {ws : List LifecycleWrite}

/-- A transaction that has written nothing may be in any phase but those that claim
to have written. -/
theorem LifecyclePhase.wrote_begun : g.begun.Wrote H [] := by
  have hnone : ∀ {P : LifecycleWrite → Prop}, ∀ w ∈ ([] : List LifecycleWrite), P w :=
    fun w hw => absurd hw List.not_mem_nil
  cases g with
  | executing key reached => exact ⟨hnone, fun b hb => absurd hb List.not_mem_nil⟩
  | executed key => exact ⟨hnone, fun b hb => absurd hb List.not_mem_nil⟩
  | purging tenantId left => exact hnone
  | _ => exact rfl

/-- A failure leaves what is written, in a transaction that can only be rolled
back. -/
theorem LifecyclePhase.Wrote.failed (h : g.Wrote H ws) : g.failed.Wrote H ws := by
  cases g with
  | idle => exact h
  | executing key reached => exact h
  | executed key => exact h
  | listing tenantId => exact h
  | purging tenantId left => exact h
  | _ => trivial

/-- **A write, and the phase it is made in.** -/
inductive LifecyclePhase.Writes (H : ProofHashing) (ws : List LifecycleWrite) :
    LifecyclePhase → LifecycleWrite → Prop
  | block (key : RequestKey) (row : DeletionRequest) (hstatus : row.status = .blockedLegalHold) :
      Writes H ws (.held key.1) (.setRequest key row)
  | claim (key : RequestKey) (row : DeletionRequest) (hstatus : row.status = .processing) :
      Writes H ws (.claimed key) (.setRequest key row)
  | proof (key : RequestKey) (proven : List ContentBackend) (backend : ContentBackend)
      (row : DeletionProofRow) (hattests : H.Attests key backend row) :
      Writes H ws (.recording key proven) (.putProof key backend row)
  | outcome (key : RequestKey) (proven : List ContentBackend) (row : DeletionRequest)
      (hall : row.status = .completed → ∀ b, ∃ p, LifecycleWrite.putProof key b p ∈ ws) :
      Writes H ws (.recording key proven) (.setRequest key row)
  | expire (tenantId id : Uuid) (row : ContentRow) :
      Writes H ws (.sweeping tenantId) (.expire tenantId id row)
  | artifact (tenantId id : Uuid) (left : ℕ) :
      Writes H ws (.deleting tenantId left) (.deleteArtifact tenantId id)

theorem LifecyclePhase.Wrote.writes {w : LifecycleWrite} (h : g.Wrote H ws) (hg : g ≠ .failing)
    (hw : w ∈ ws) : g.Writes H ws w := by
  cases g with
  | failing => exact absurd rfl hg
  | held tenantId =>
    obtain ⟨key, row, rfl, rfl, hstatus⟩ := h w hw
    exact .block key row hstatus
  | claimed key =>
    obtain ⟨row, rfl, hstatus⟩ := h w hw
    exact .claim key row hstatus
  | recording key proven =>
    rcases h.1 w hw with ⟨b, p, rfl, hattests⟩ | ⟨row, rfl, hall⟩
    · exact .proof key proven b p hattests
    · exact .outcome key proven row hall
  | sweeping tenantId =>
    obtain ⟨id, row, rfl⟩ := h w hw
    exact .expire tenantId id row
  | deleting tenantId left =>
    obtain ⟨id, rfl⟩ := h w hw
    exact .artifact tenantId id left
  | _ =>
    obtain rfl : ws = [] := h
    cases hw

/-- The writes of a request that is being recorded stay so when more are added. -/
theorem LifecyclePhase.Wrote.record {key : RequestKey} {proven proven' : List ContentBackend}
    {ws' : List LifecycleWrite} (h : (LifecyclePhase.recording key proven).Wrote H ws)
    (hws' : ∀ w ∈ ws', (∃ backend row, w = .putProof key backend row ∧ H.Attests key backend row)
      ∨ ∃ row, w = .setRequest key row
        ∧ (row.status = .completed → ∀ b, ∃ p, LifecycleWrite.putProof key b p ∈ ws))
    (hproven : ∀ b ∈ proven', b ∈ proven ∨ ∃ p, LifecycleWrite.putProof key b p ∈ ws') :
    (LifecyclePhase.recording key proven').Wrote H (ws ++ ws') := by
  obtain ⟨hws, hold⟩ := h
  refine ⟨fun w hw => ?_, fun b hb => ?_⟩
  · rcases List.mem_append.mp hw with hw | hw
    · refine (hws w hw).imp_right ?_
      rintro ⟨row, hrow, hall⟩
      exact ⟨row, hrow, fun hc b => (hall hc b).imp (fun p hp => List.mem_append_left _ hp)⟩
    · refine (hws' w hw).imp_right ?_
      rintro ⟨row, hrow, hall⟩
      exact ⟨row, hrow, fun hc b => (hall hc b).imp (fun p hp => List.mem_append_left _ hp)⟩
  · rcases hproven b hb with hb | ⟨p, hp⟩
    · exact (hold b hb).imp (fun p hp => List.mem_append_left _ hp)
    · exact ⟨p, List.mem_append_right _ hp⟩

/-- **A permitted statement writes what its phase may write.** -/
theorem LifecyclePhase.Wrote.stated {op : LifecycleOp} (h : g.Wrote H ws)
    (hop : g.permits H (.run op)) (a : LifecycleAnswer) (free : LifecycleKey → Bool)
    (db : LifecycleDb) (x : List Erasure) :
    (g.stated op (lifecycleEngine.exec a op free db x).1).Wrote H
      (ws ++ (lifecycleEngine.exec a op free db x).2.1) := by
  have hread : ∀ {g' : LifecyclePhase}, g'.Wrote H ws → g'.Wrote H (ws ++ []) :=
    fun h' => (List.append_nil ws).symm ▸ h'
  have hupdate : ∀ {key : RequestKey} {proven : List ContentBackend}
      {f : DeletionRequest → DeletionRequest},
      (LifecyclePhase.recording key proven).Wrote H ws →
      (∀ row, (f row).status = .completed → ∀ b, b ∈ proven) →
      (LifecyclePhase.recording key proven).Wrote H (ws ++ updateRequest db key f) := by
    intro key proven f h hf
    refine h.record (fun w hw => .inr ?_) (fun b hb => .inl hb)
    obtain ⟨row, -, rfl⟩ := mem_updateRequest hw
    exact ⟨f row, rfl, fun hc b => h.2 b (hf row hc b)⟩
  cases op with
  | clock => exact hread h
  | selectTenants => exact hread h
  | selectDue tenantId current => exact hread h
  | selectHeld tenantId =>
    obtain rfl : g = .opened := hop
    obtain rfl : ws = [] := h
    show (if db.held tenantId = true then _ else _ : LifecyclePhase).Wrote H ([] ++ [])
    split
    · exact fun w hw => absurd hw List.not_mem_nil
    · exact rfl
  | block key =>
    obtain rfl : g = .held key.1 := hop
    intro w hw
    rcases List.mem_append.mp hw with hw | hw
    · exact h w hw
    · obtain ⟨row, -, rfl⟩ := mem_updateRequest hw
      exact ⟨key, _, rfl, rfl, rfl⟩
  | claim key current =>
    obtain rfl : g = .checked key.1 := hop
    obtain rfl : ws = [] := h
    simp only [lifecycleEngine]
    split
    · intro w hw
      obtain ⟨row, -, rfl⟩ := mem_updateRequest hw
      exact ⟨_, rfl, rfl⟩
    · exact rfl
  | erase backend tenantId =>
    obtain ⟨key, reached, rfl, -, -⟩ := hop
    refine hread ?_
    show (LifecyclePhase.stated _ (.erase backend tenantId) a.erased).Wrote H ws
    cases a.erased with
    | ok n => exact h
    | error e => exact h
  | verifyErased backend tenantId =>
    refine hread ?_
    show (LifecyclePhase.stated _ (.verifyErased backend tenantId) a.verified).Wrote H ws
    cases a.verified with
    | ok verified =>
      show (if verified = true then g else g.failed).Wrote H ws
      split
      · exact h
      · exact h.failed
    | error e => exact h.failed
  | upsertProof key backend row =>
    obtain ⟨⟨proven, rfl⟩, hattests⟩ := hop
    simp only [lifecycleEngine]
    split
    · refine h.record (fun w hw => .inl ?_) (fun b hb => ?_)
      · rw [List.mem_singleton.mp hw]
        exact ⟨backend, row, rfl, hattests⟩
      · rcases List.mem_append.mp hb with hb | hb
        · exact .inl hb
        · rw [List.mem_singleton.mp hb]
          exact .inr ⟨row, List.mem_singleton.mpr rfl⟩
    · trivial
  | setRetryable key nextAttemptAt error =>
    obtain ⟨proven, rfl⟩ := hop
    exact hupdate h (fun row hc => by cases hc)
  | setCompleted key current =>
    obtain ⟨proven, rfl, hall⟩ := hop
    exact hupdate h (fun row _ => hall)
  | selectPolicy tenantId =>
    obtain rfl : g = .checked tenantId := hop
    obtain rfl : ws = [] := h
    exact fun w hw => absurd hw List.not_mem_nil
  | expire table tenantId cutoff =>
    obtain rfl : g = .sweeping tenantId := hop
    intro w hw
    rcases List.mem_append.mp hw with hw | hw
    · exact h w hw
    · obtain ⟨e, -, rfl⟩ := List.mem_map.mp hw
      exact ⟨e.1, e.2, rfl⟩
  | listExpired tenantId now =>
    obtain rfl : g = .listing tenantId := hop
    obtain rfl : ws = [] := h
    show (if _ then _ else _ : LifecyclePhase).Wrote H []
    split
    · exact rfl
    · exact rfl
  | deleteArtifact tenantId id =>
    obtain ⟨n, rfl⟩ := hop
    intro w hw
    rcases List.mem_append.mp hw with hw | hw
    · exact h w hw
    · obtain ⟨e, -, rfl⟩ := List.mem_map.mp hw
      exact ⟨id, rfl⟩
  | emitAudit tenantId id =>
    refine hread ?_
    show (LifecyclePhase.stated _ (.emitAudit tenantId id) a.audited).Wrote H ws
    cases a.audited with
    | ok u => exact h
    | error e => exact h.failed

end Phases

/-! ## Workers with their phases -/

/-- The tables, and the phase of every worker. -/
abbrev PhasedState := LifecycleState × (ℕ → LifecyclePhase)

/-- **The workers, each with its phase.** -/
abbrev phasedWorkers (H : ProofHashing) :=
  (lifecycleWorkers H).phased LifecyclePhase.next .idle

theorem phasedWorkers_follow (H : ProofHashing) (call : LifecycleCall) :
    Prog.Follows (LifecyclePhase.permits H) LifecyclePhase.next .idle
      ((lifecycleWorkers H).body call) (fun _ _ => True) :=
  (follows_lifecycleCall call).mono (fun _ _ _ => trivial)

/-- A state of the workers with their phases. -/
abbrev PhasedPool := Pool.State (TxOp LifecycleOp) (TxRes LifecycleRes) LifecycleException
  PhasedState LifecycleCall LifecycleResult

/-- **Their transition system.** -/
def phasedMachine (H : ProofHashing) :=
  (phasedWorkers H).machine (fun x => lifecycleStart x.1 ∧ x.2 = fun _ => .idle)

/-- **Every open transaction has written what its phase may write.** -/
structure WritesInPhase (H : ProofHashing) (s : LifecycleState) (g : ℕ → LifecyclePhase) :
    Prop where
  owned : lifecycleEngine.Owned s
  inTx : ∀ pid, (g pid).inTx = true → (s.pending pid).isSome
  wrote : ∀ pid ws, s.pending pid = some ws → (g pid).Wrote H ws

/-- **What a permitted request does to what is committed.** -/
inductive LifecycleEffect (pid : ℕ) (g : LifecyclePhase) (op : TxOp LifecycleOp)
    (s s' : LifecycleState) : Prop
  /-- Nothing. -/
  | still (hcommitted : s'.committed = s.committed) (hext : s'.ext = s.ext)
      (hlog : ∀ c ∈ s'.log, c ∈ s.log ∨ c.after = c.before)
  /-- A backend that was not reached before erases the tenant's content. -/
  | erased (key : RequestKey) (reached : List ContentBackend) (backend : ContentBackend)
      (hg : g = .executing key reached) (hnew : backend ∉ reached)
      (hcommitted : s'.committed = s.committed)
      (hext : s'.ext = s.ext ++ [⟨backend, key.1, s.committed.held key.1⟩])
      (hlog : ∀ c ∈ s'.log, c ∈ s.log ∨ c.after = c.before)
  /-- The writes of its phase are published. -/
  | published (ws : List LifecycleWrite) (hpending : s.pending pid = some ws)
      (hop : op = .commit) (hg : g ≠ .failing) (hs : s' = lifecycleEngine.publish s pid)

section Steps

variable {H : ProofHashing} {pid : ℕ} {s s' : LifecycleState} {g : ℕ → LifecyclePhase}

/-- A transaction is open after a statement only if it was open before. -/
theorem LifecyclePhase.inTx_of_stated {g : LifecyclePhase} {op : LifecycleOp}
    (hop : g.permits H (.run op)) {r : Except LifecycleException (LifecycleRes op)}
    (h : (g.stated op r).inTx = true) : g.inTx = true := by
  have hfailed : g.failed.inTx = true → g.inTx = true := by
    intro h
    cases g with
    | executing key reached => exact h
    | idle => exact h
    | executed key => exact h
    | listing tenantId => exact h
    | purging tenantId left => exact h
    | _ => rfl
  cases r with
  | error e =>
    rw [LifecyclePhase.stated_error] at h
    exact hfailed h
  | ok a =>
    cases op with
    | selectHeld tenantId =>
      obtain rfl : g = .opened := hop
      rfl
    | claim key current =>
      obtain rfl : g = .checked key.1 := hop
      rfl
    | erase backend tenantId =>
      obtain ⟨key, reached, rfl, -, -⟩ := hop
      exact h
    | verifyErased backend tenantId =>
      have h' : (if a = true then g else g.failed : LifecyclePhase).inTx = true := h
      split at h'
      · exact h'
      · exact hfailed h'
    | upsertProof key backend row =>
      obtain ⟨⟨proven, rfl⟩, -⟩ := hop
      rfl
    | selectPolicy tenantId =>
      obtain rfl : g = .checked tenantId := hop
      rfl
    | listExpired tenantId now =>
      have h' : (if List.length a = 0 then LifecyclePhase.idle
        else .purging tenantId (List.length a)).inTx = true := h
      split at h'
      · cases h'
      · cases h'
    | deleteArtifact tenantId id =>
      obtain ⟨n, rfl⟩ := hop
      rfl
    | _ => exact h

/-- What a worker writes, it writes in a transaction. -/
theorem exec_writes_eq_nil {g : LifecyclePhase} {op : LifecycleOp} (hop : g.permits H (.run op))
    (hg : g.inTx ≠ true) (a : LifecycleAnswer) (free : LifecycleKey → Bool) (db : LifecycleDb)
    (x : List Erasure) : (lifecycleEngine.exec a op free db x).2.1 = [] := by
  cases op with
  | block key =>
    obtain rfl : g = .held key.1 := hop
    exact absurd rfl hg
  | claim key current =>
    obtain rfl : g = .checked key.1 := hop
    exact absurd rfl hg
  | upsertProof key backend row =>
    obtain ⟨⟨proven, rfl⟩, -⟩ := hop
    exact absurd rfl hg
  | setRetryable key nextAttemptAt error =>
    obtain ⟨proven, rfl⟩ := hop
    exact absurd rfl hg
  | setCompleted key current =>
    obtain ⟨proven, rfl, -⟩ := hop
    exact absurd rfl hg
  | expire table tenantId cutoff =>
    obtain rfl : g = .sweeping tenantId := hop
    exact absurd rfl hg
  | deleteArtifact tenantId id =>
    obtain ⟨n, rfl⟩ := hop
    exact absurd rfl hg
  | _ => rfl

/-- Outside a transaction nothing is written. -/
theorem LifecyclePhase.Wrote.eq_nil {g : LifecyclePhase} {ws : List LifecycleWrite}
    (h : g.Wrote H ws) (hg : g.inTx = false) : ws = [] := by
  cases g with
  | idle => exact h
  | executing key reached => exact h
  | executed key => exact h
  | listing tenantId => exact h
  | purging tenantId left => exact h
  | _ => cases hg

theorem WritesInPhase.inTx_pending (h : WritesInPhase H s g) (hnone : s.pending pid = none) :
    (g pid).inTx ≠ true := by
  intro hin
  have hsome := h.inTx pid hin
  rw [hnone] at hsome
  cases hsome

/-- What is written stays with its phase while others act. -/
theorem WritesInPhase.update (h : WritesInPhase H s g) (hmoves : lifecycleEngine.Moves pid s s')
    {g' : LifecyclePhase} (hinTx : g'.inTx = true → (s'.pending pid).isSome)
    (hwrote : ∀ ws, s'.pending pid = some ws → g'.Wrote H ws) :
    WritesInPhase H s' (Function.update g pid g') := by
  refine ⟨lifecycleEngine_lawful.owned_of_moves h.owned hmoves, fun q hq => ?_, fun q ws hq => ?_⟩
  · by_cases hqp : q = pid
    · subst hqp
      rw [Function.update_self] at hq
      exact hinTx hq
    · rw [Function.update_of_ne hqp] at hq
      rw [(hmoves.apart hqp).pending]
      exact h.inTx q hq
  · by_cases hqp : q = pid
    · subst hqp
      rw [Function.update_self]
      exact hwrote ws hq
    · rw [Function.update_of_ne hqp]
      exact h.wrote q ws ((hmoves.apart hqp).pending.symm.trans hq)

/-- A transaction that has ended has written nothing. -/
theorem WritesInPhase.ended (h : WritesInPhase H s g) (hmoves : lifecycleEngine.Moves pid s s')
    (hnone : s'.pending pid = none) {g' : LifecyclePhase} (hg' : g'.inTx = false) :
    WritesInPhase H s' (Function.update g pid g') :=
  h.update hmoves (fun hin => nomatch hg'.symm.trans hin)
    (fun _ hws => nomatch hnone.symm.trans hws)

theorem LifecyclePhase.inTx_committed (g : LifecyclePhase) : g.committed.inTx = false := by
  cases g with
  | deleting tenantId left =>
    cases left with
    | zero => rfl
    | succ n => rfl
  | _ => rfl

/-- **The step of the workers**: a permitted request leaves every open transaction
with the writes of its phase. -/
theorem phased_step {op : TxOp LifecycleOp} {c : Choice LifecycleAnswer}
    {r : Except LifecycleException (TxRes LifecycleRes op)} (h : WritesInPhase H s g)
    (hop : (g pid).permits H op) (hh : lifecycleEngine.handler pid c op s = some (r, s')) :
    WritesInPhase H s' (Function.update g pid ((g pid).next op r))
      ∧ LifecycleEffect pid (g pid) op s s' := by
  have hmoves := lifecycleEngine.moves_of_handler hh
  have hpublish : WritesInPhase H (lifecycleEngine.publish s pid)
      (Function.update g pid (g pid).committed)
      ∧ WritesInPhase H (lifecycleEngine.publish s pid) (Function.update g pid .idle)
      ∧ (g pid ≠ .failing →
        LifecycleEffect pid (g pid) .commit s (lifecycleEngine.publish s pid)) := by
    have hnone : (lifecycleEngine.publish s pid).pending pid = none := Function.update_self ..
    refine ⟨h.ended .publish hnone (LifecyclePhase.inTx_committed _),
      h.ended .publish hnone rfl, fun hg => ?_⟩
    cases hp : s.pending pid with
    | some ws => exact .published ws hp rfl hg rfl
    | none =>
      have hview : lifecycleEngine.view s pid = s.committed := by
        unfold Engine.view
        rw [hp]
      refine .still hview rfl (fun c hc => ?_)
      rcases List.mem_append.mp hc with hc | hc
      · exact .inl hc
      · rw [List.mem_singleton.mp hc]
        exact .inr hview
  have hclose : WritesInPhase H (Engine.close s pid) (Function.update g pid .idle)
      ∧ LifecycleEffect pid (g pid) op s (Engine.close s pid) :=
    ⟨h.ended .close (Function.update_self ..) rfl, .still rfl rfl (fun _ hc => .inl hc)⟩
  have hstay : LifecycleEffect pid (g pid) op s s := .still rfl rfl (fun _ hc => .inl hc)
  cases op with
  | begin =>
    cases c with
    | serve a =>
      cases hh
      refine ⟨h.update .begin (fun _ => ?_) (fun ws hws => ?_), .still rfl rfl
        (fun _ hc => .inl hc)⟩
      · simp
      · simp only [Function.update_self, Option.some.injEq] at hws
        subst hws
        exact LifecyclePhase.wrote_begun
    | fault =>
      cases hh
      refine ⟨h.update .stay (fun hin => by cases hin) (fun ws hws => ?_), hstay⟩
      exact (h.wrote pid ws hws).eq_nil hop
    | lost => cases hh
  | commit =>
    cases c with
    | serve a => cases hh; exact ⟨hpublish.1, hpublish.2.2 hop⟩
    | fault => cases hh; exact hclose
    | lost => cases hh; exact ⟨hpublish.2.1, hpublish.2.2 hop⟩
  | rollback =>
    cases c with
    | serve a => cases hh; exact hclose
    | fault => cases hh
    | lost => cases hh
  | run op =>
    rcases lifecycleEngine.run_cases hh with ⟨-, rfl, rfl⟩ | ⟨a, -, hfree, rfl, rfl⟩
    · refine ⟨h.update .stay (fun hin => ?_) (fun ws hws => ?_), hstay⟩
      · have hin' : ((g pid).stated op (.error lifecycleEngine.dbError)).inTx = true := hin
        exact h.inTx pid (LifecyclePhase.inTx_of_stated hop hin')
      · have hfailed := (h.wrote pid ws hws).failed
        rw [← LifecyclePhase.stated_error _ op lifecycleEngine.dbError] at hfailed
        exact hfailed
    · exact phased_stmt h hop hfree a
where
  /-- A statement that runs. -/
  phased_stmt {op : LifecycleOp} (h : WritesInPhase H s g) (hop : (g pid).permits H (.run op))
      (hfree : (lifecycleEngine.locks op (Engine.free s pid) (lifecycleEngine.view s pid) s.ext).all
        (Engine.free s pid) = true) (a : LifecycleAnswer) :
      WritesInPhase H (lifecycleEngine.ran pid a op s)
        (Function.update g pid ((g pid).stated op (lifecycleEngine.answer pid a op s)))
      ∧ LifecycleEffect pid (g pid) (.run op) s (lifecycleEngine.ran pid a op s) := by
    have hmoves : lifecycleEngine.Moves pid s (lifecycleEngine.ran pid a op s) :=
      .perform a op hfree
    have hpending : ∀ ws, s.pending pid = some ws → (lifecycleEngine.ran pid a op s).pending pid
        = some (ws ++ (lifecycleEngine.exec a op (Engine.free s pid) (lifecycleEngine.view s pid)
          s.ext).2.1) := fun ws hws => Engine.pending_ran hws
    have hnone : s.pending pid = none → (lifecycleEngine.ran pid a op s).pending pid = none := by
      intro hnone
      unfold Engine.ran Engine.perform
      rw [hnone]
      exact hnone
    refine ⟨h.update hmoves (fun hin => ?_) (fun ws hws => ?_), ?_⟩
    · obtain ⟨ws, hws⟩ := Option.isSome_iff_exists.mp
        (h.inTx pid (LifecyclePhase.inTx_of_stated hop hin))
      rw [hpending ws hws]
      rfl
    · cases hp : s.pending pid with
      | none =>
        rw [hnone hp] at hws
        cases hws
      | some old =>
        obtain rfl := Option.some.inj ((hpending old hp).symm.trans hws)
        exact (h.wrote pid old hp).stated hop a _ _ _
    · have hcommitted : (lifecycleEngine.ran pid a op s).committed = s.committed := by
        cases hp : s.pending pid with
        | some old => exact Engine.committed_ran (hp ▸ rfl)
        | none =>
          have hnil := exec_writes_eq_nil hop (h.inTx_pending hp) a (Engine.free s pid)
            (lifecycleEngine.view s pid) s.ext
          unfold Engine.ran Engine.perform
          rw [hp, hnil]
          rfl
      have hlog : ∀ c ∈ (lifecycleEngine.ran pid a op s).log, c ∈ s.log ∨ c.after = c.before := by
        rcases hmoves.log with ⟨hlog, -⟩ | hlog
        · exact fun c hc => .inl (hlog ▸ hc)
        · intro c hc
          rw [hlog] at hc
          rcases List.mem_append.mp hc with hc | hc
          · exact .inl hc
          · rw [List.mem_singleton.mp hc]
            exact .inr hcommitted
      have hext : (lifecycleEngine.ran pid a op s).ext
          = (lifecycleEngine.exec a op (Engine.free s pid)
            (lifecycleEngine.view s pid) s.ext).2.2 :=
        Engine.ext_ran
      cases op with
      | erase backend tenantId =>
        obtain ⟨key, reached, hg, rfl, hnew⟩ := hop
        refine .erased key reached backend hg hnew hcommitted ?_ hlog
        rw [hext, ← view_held s pid key.1]
        rfl
      | claim key current =>
        refine .still hcommitted (hext.trans ?_) hlog
        simp only [lifecycleEngine]
        split
        · rfl
        · rfl
      | upsertProof key backend row =>
        refine .still hcommitted (hext.trans ?_) hlog
        simp only [lifecycleEngine]
        split
        · rfl
        · rfl
      | _ => exact .still hcommitted hext hlog

/-- A worker that is abandoned has written nothing. -/
theorem WritesInPhase.abandon (h : WritesInPhase H s g) (pid : ℕ) :
    WritesInPhase H (Engine.close s pid) (Function.update g pid .idle) :=
  h.ended .close (Function.update_self ..) rfl

end Steps

/-- In the beginning no transaction is open. -/
theorem writesInPhase_start (H : ProofHashing) {s : LifecycleState} (hs : lifecycleStart s) :
    WritesInPhase H s (fun _ => .idle) := by
  subst hs
  exact ⟨fun _ _ hq => (nomatch hq), fun _ hq => (nomatch hq), fun _ _ hq => (nomatch hq)⟩

/-! ## What happens besides -/

/-- **What an event leaves alone**: the rows that are there. A request begins as
pending, and a hold becomes active only when it is approved. -/
structure EventKeeps (e : LifecycleEvent) (db db' : LifecycleDb) : Prop where
  requests : ∀ key row, db.requests.get key = some row → db'.requests.get key = some row
  pending : ∀ key row, db'.requests.get key = some row →
    db.requests.get key = some row ∨ row.status = .pending
  proofs : db'.proofs = db.proofs
  content : ∀ id row, db.content.get id = some row → db'.content.get id = some row
  artifacts : ∀ k at_, db.artifacts.get k = some at_ → db'.artifacts.get k = some at_
  held : ∀ tenantId, db'.held tenantId = true → db.held tenantId = true
    ∨ ∃ id subject, e = .approveHold tenantId id subject

/-- An event that does not touch the tables of the workers. -/
theorem EventKeeps.of_holds {e : LifecycleEvent} {db : LifecycleDb} {holds : List LegalHold}
    (hheld : ∀ tenantId, ({ db with holds := holds } : LifecycleDb).held tenantId = true →
      db.held tenantId = true ∨ ∃ id subject, e = .approveHold tenantId id subject) :
    EventKeeps e db { db with holds := holds } :=
  ⟨fun _ _ => id, fun _ _ => .inl, rfl, fun _ _ => id, fun _ _ => id, hheld⟩

/-- A hold that is active after the holds were gone through was active before, or is
the one that was changed. -/
theorem held_map {db : LifecycleDb} {tenantId id : Uuid} {f : LegalHold → LegalHold}
    (hf : ∀ h, (f h).tenantId = h.tenantId) {t : Uuid}
    (h : ({ db with holds := db.holds.map (fun h => if h.tenantId = tenantId ∧ h.id = id
      then f h else h) } : LifecycleDb).held t = true) :
    db.held t = true ∨ t = tenantId ∧ ∃ h ∈ db.holds, (f h).status = .active := by
  obtain ⟨x, hx, hactive⟩ := List.any_eq_true.mp h
  obtain ⟨y, hy, rfl⟩ := List.mem_map.mp hx
  split at hactive
  · rename_i hid
    simp only [Bool.and_eq_true, decide_eq_true_eq, hf] at hactive
    exact .inr ⟨hactive.1.symm.trans hid.1, y, hy, hactive.2⟩
  · exact .inl (List.any_eq_true.mpr ⟨y, hy, hactive⟩)

theorem eventKeeps {e : LifecycleEvent} {db db' : LifecycleDb} (h : e.apply db = some db') :
    EventKeeps e db db' := by
  have hset : ∀ {K V : Type} [DecidableEq K] {d : Dictionary K V} {k : K} {v : V},
      d.get k = none → ∀ k' v', d.get k' = some v' → (d.set k v).get k' = some v' := by
    intro K V _ d k v hnone k' v' hk'
    rw [Dictionary.get_set, if_neg]
    · exact hk'
    · rintro rfl
      exact nomatch hnone.symm.trans hk'
  cases e with
  | createTenant id =>
    cases h
    exact ⟨fun _ _ h => h, fun _ _ => .inl, rfl, fun _ _ h => h, fun _ _ h => h, fun _ => .inl⟩
  | setPolicy tenantId policy =>
    cases h
    exact ⟨fun _ _ h => h, fun _ _ => .inl, rfl, fun _ _ h => h, fun _ _ h => h, fun _ => .inl⟩
  | createHold tenantId id initiator =>
    simp only [LifecycleEvent.apply] at h
    split at h
    · cases h
    · cases h
      refine .of_holds (fun t ht => ?_)
      obtain ⟨x, hx, hactive⟩ := List.any_eq_true.mp ht
      rcases List.mem_append.mp hx with hx | hx
      · exact .inl (List.any_eq_true.mpr ⟨x, hx, hactive⟩)
      · rw [List.mem_singleton.mp hx] at hactive
        simp at hactive
  | approveHold tenantId id subject =>
    simp only [LifecycleEvent.apply, approveLegalHold] at h
    split at h
    · cases h
    · split at h
      · cases h
      · split at h
        · cases h
        · cases h
          refine .of_holds (fun t ht => ?_)
          rcases held_map
            (f := fun h => { h with status := .active, approver := some subject })
            (fun _ => rfl) ht with ht | ⟨rfl, -⟩
          · exact .inl ht
          · exact .inr ⟨id, subject, rfl⟩
  | releaseHold tenantId id subject =>
    simp only [LifecycleEvent.apply, releaseLegalHold] at h
    split at h
    · cases h
    · split at h
      · cases h
      · split at h
        · cases h
        · cases h
          refine .of_holds (fun t ht => ?_)
          rcases held_map (f := fun h => { h with status := .released })
            (fun _ => rfl) ht with ht | ⟨-, x, -, hactive⟩
          · exact .inl ht
          · cases hactive
  | createRequest key now =>
    simp only [LifecycleEvent.apply] at h
    split at h
    · cases h
    · rename_i hnone
      split at h
      · cases h
      · cases h
        refine ⟨hset hnone, fun key' row hrow => ?_, rfl, fun _ _ h => h, fun _ _ h => h,
          fun _ => .inl⟩
        rw [Dictionary.get_set] at hrow
        split at hrow
        · cases hrow
          exact .inr rfl
        · exact .inl hrow
  | addContent id row =>
    simp only [LifecycleEvent.apply] at h
    split at h
    · cases h
    · rename_i hnone
      cases h
      exact ⟨fun _ _ h => h, fun _ _ => .inl, rfl, hset hnone, fun _ _ h => h, fun _ => .inl⟩
  | addArtifact tenantId id expiresAt =>
    simp only [LifecycleEvent.apply] at h
    split at h
    · cases h
    · rename_i hnone
      cases h
      exact ⟨fun _ _ h => h, fun _ _ => .inl, rfl, fun _ _ h => h, hset hnone, fun _ => .inl⟩

/-- An event leaves the open transactions alone. -/
theorem WritesInPhase.event {H : ProofHashing} {s : LifecycleState} {g : ℕ → LifecyclePhase}
    (h : WritesInPhase H s g) (db : LifecycleDb) :
    WritesInPhase H { s with committed := db } g :=
  ⟨h.owned, h.inTx, h.wrote⟩
