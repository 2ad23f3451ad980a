import Mathlib.Data.List.Pairwise
import Mathlib.Tactic.NormNum
import AgentPlatform.InboundIdentity
import AgentPlatform.StoragePhases

/-!
# What a rollback restores, and what a validation proves

A rollback copies the objects of the target over those of the old source. What the target
has erased since the switch stays on the old source, since a snapshot does not mention it:
`rollback_restores` says exactly when both are equal afterwards, and `validate` finds them
so.

A validation compares digests of a serialization that ends keys and values with a zero
byte, the number of objects of all pairs together, versions, and a share of the objects
one by one. `validate_proves_equality` says exactly which contents pass without being
equal.
-/

/-! ## Contents and what is digested of them -/

namespace MemoryAdapter

variable {a b : MemoryAdapter} {t : String}

/-- **Objects copied over others**: those of the snapshot, and the others as before. -/
theorem contents_copy (a b : MemoryAdapter) (t key : String) :
    (a.applyChanges t (asChanges b t)).contents t key
      = (b.contents t key).or (a.contents t key) := by
  rw [contents_applyChanges]
  refine Option.ext (fun v => ?_)
  show replay (a.contents t) ((b.snapshotTenant t).2.map (fun e => (e.1, some e.2))) key = some v
    ↔ _
  rw [replay_snapshot.replay_puts (b.snapshotTenant_keys t), ← contents_eq_some_iff]
  cases hb : b.contents t key with
  | some w =>
    rw [Option.some_or]
    constructor
    · rintro (h | ⟨hnone, -⟩)
      · exact h
      · exact absurd rfl (hnone (key, w) ((contents_eq_some_iff b t key w).mp hb))
    · exact .inl
  | none =>
    rw [Option.none_or]
    constructor
    · rintro (h | ⟨-, h⟩)
      · cases h
      · exact h
    · refine fun h => .inr ⟨fun e he hkey => ?_, h⟩
      have hsome := (contents_eq_some_iff b t e.1 e.2).mpr he
      rw [hkey, hb] at hsome
      cases hsome

/-- Equal contents are the same entries, in some order. -/
theorem perm_of_contents_eq (h : a.contents t = b.contents t) :
    (a.snapshotTenant t).2.Perm (b.snapshotTenant t).2 := by
  have hnodup : ∀ c : MemoryAdapter, (c.snapshotTenant t).2.Nodup :=
    fun c => (c.snapshotTenant_keys t).imp (fun hne heq => hne (congrArg Prod.fst heq))
  refine (List.perm_ext_iff_of_nodup (hnodup a) (hnodup b)).mpr (fun e => ?_)
  rw [← contents_eq_some_iff, ← contents_eq_some_iff, h]

/-- Entries with different keys are digested in one order. -/
theorem fingerprintText_eq_of_perm {es es' : List (String × Bytes)}
    (hkeys : es.Pairwise (fun e e' => e.1 ≠ e'.1)) (h : es.Perm es') :
    fingerprintText es = fingerprintText es' := by
  have hsorted : ∀ l : List (String × Bytes),
      (l.mergeSort (fun e e' => decide (e.1 ≤ e'.1))).Pairwise (fun e e' => e.1 ≤ e'.1) := by
    intro l
    refine List.Pairwise.imp (fun hxy => of_decide_eq_true hxy) (List.pairwise_mergeSort ?_ ?_ l)
    · intro x y z hxy hyz
      exact decide_eq_true (String.le_trans (of_decide_eq_true hxy) (of_decide_eq_true hyz))
    · intro x y
      simpa using String.le_total x.1 y.1
  have hperm := ((List.mergeSort_perm es (fun e e' => decide (e.1 ≤ e'.1))).trans h).trans
    (List.mergeSort_perm es' (fun e e' => decide (e.1 ≤ e'.1))).symm
  unfold fingerprintText
  rw [hperm.eq_of_pairwise ?_ (hsorted es) (hsorted es')]
  intro x y hx hy hxy hyx
  have hx' := (List.mergeSort_perm es _).mem_iff.mp hx
  have hy' := h.mem_iff.mpr ((List.mergeSort_perm es' _).mem_iff.mp hy)
  by_contra hne
  have : Std.Symm (fun e e' : String × Bytes => e.1 ≠ e'.1) := ⟨fun _ _ h => h.symm⟩
  exact hkeys.forall hx' hy' hne (String.le_antisymm hxy hyx)

/-- Entries in order are digested as they stand. -/
theorem fingerprintText_of_sorted {es : List (String × Bytes)}
    (h : es.Pairwise (fun e e' => e.1 ≤ e'.1)) :
    fingerprintText es = es.flatMap (fun e => e.1.toUTF8.toList ++ [0] ++ e.2 ++ [0]) := by
  unfold fingerprintText
  rw [List.mergeSort_of_pairwise (h.imp (fun hxy => decide_eq_true hxy))]

/-- Equal contents are recalled in full. -/
theorem vectorRecallAgainst_eq (h : a.contents t = b.contents t) :
    a.vectorRecallAgainst b t = 1 := by
  unfold vectorRecallAgainst
  dsimp only
  split_ifs with hempty
  · rfl
  · have hall : (b.snapshotTenant t).2.filter (fun e => a.objects.get (t, e.1) = some e.2)
        = (b.snapshotTenant t).2 := by
      refine List.filter_eq_self.mpr (fun e he => decide_eq_true ?_)
      have hb := (contents_eq_some_iff b t e.1 e.2).mpr he
      rw [← h] at hb
      exact hb
    rw [hall]
    refine div_self (Nat.cast_ne_zero.mpr (fun h0 => hempty ?_))
    exact List.isEmpty_iff.mpr (List.length_eq_zero_iff.mp h0)

end MemoryAdapter

/-! ## What passes a validation -/

section Validation

variable {sha256 : Bytes → String} {t : String} {source target : Uuid} {n : ℕ}
  {stores : AdapterStores}

/-- What is digested for an adapter. -/
def digestedText (t : String) (stores : AdapterStores) (p : Uuid) (i : ℕ) : Bytes :=
  MemoryAdapter.fingerprintText ((stores p i).snapshotTenant t).2

/-- What is digested for a profile. -/
def digestedDigests (sha256 : Bytes → String) (t : String) (stores : AdapterStores) (n : ℕ)
    (p : Uuid) : Bytes :=
  (List.range n).flatMap (fun i => (sha256 (digestedText t stores p i)).toUTF8.toList)

/-- **All that a validation digests.** -/
def digested (sha256 : Bytes → String) (t : String) (source target : Uuid) (n : ℕ)
    (stores : AdapterStores) : Set Bytes :=
  {b | ∃ p, (p = source ∨ p = target)
    ∧ (b = digestedDigests sha256 t stores n p ∨ ∃ i < n, b = digestedText t stores p i)}

/-- How many objects an adapter holds for a tenant. -/
def objectCount (t : String) (stores : AdapterStores) (p : Uuid) (i : ℕ) : ℕ :=
  ((stores p i).snapshotTenant t).2.length

/-- **The pairs pass for equal**: each serializes to one text on both sides, the numbers of
objects agree in total, and so do the versions; and nineteen of twenty objects of each
source are on its target. -/
structure PassForEqual (t : String) (source target : Uuid) (n : ℕ) (stores : AdapterStores) :
    Prop where
  texts : ∀ i < n, digestedText t stores source i = digestedText t stores target i
  count : ((List.range n).map (objectCount t stores source)).sum
    = ((List.range n).map (objectCount t stores target)).sum
  version : ((List.range n).map (fun i => (stores source i).watermark)).foldr max 0
    = ((List.range n).map (fun i =>
        if objectCount t stores source i = objectCount t stores target i then
          (stores source i).watermark
        else (stores target i).watermark)).foldr max 0
  vectorRecall : ∀ i < n, 19 / 20 ≤ (stores target i).vectorRecallAgainst (stores source i) t

/-- Equal contents pass for equal. -/
theorem PassForEqual.of_eq
    (h : ∀ i < n, (stores source i).contents t = (stores target i).contents t) :
    PassForEqual t source target n stores := by
  have hcount : ∀ i < n, objectCount t stores source i = objectCount t stores target i :=
    fun i hi => (MemoryAdapter.perm_of_contents_eq (h i hi)).length_eq
  refine ⟨fun i hi => ?_, ?_, ?_, fun i hi => ?_⟩
  · exact MemoryAdapter.fingerprintText_eq_of_perm ((stores source i).snapshotTenant_keys t)
      (MemoryAdapter.perm_of_contents_eq (h i hi))
  · exact congrArg List.sum
      (List.map_congr_left (fun i hi => hcount i (List.mem_range.mp hi)))
  · exact congrArg (List.foldr max 0)
      (List.map_congr_left (fun i hi => (if_pos (hcount i (List.mem_range.mp hi))).symm))
  · rw [MemoryAdapter.vectorRecallAgainst_eq (h i hi).symm]
    norm_num

theorem le_foldr_min {q : ℚ} (hq : q ≤ 1) (l : List ℚ) :
    q ≤ l.foldr min 1 ↔ ∀ r ∈ l, q ≤ r := by
  induction l with
  | nil => simpa using hq
  | cons r l ih => rw [List.foldr_cons, le_min_iff, ih, List.forall_mem_cons]

/-- The evidence, part by part. -/
theorem evidenceOf_isValid_iff : (evidenceOf sha256 t source target n stores).isValid = true
    ↔ ((List.range n).map (objectCount t stores source)).sum
        = ((List.range n).map (objectCount t stores target)).sum
      ∧ sha256 (digestedDigests sha256 t stores n source)
        = sha256 (digestedDigests sha256 t stores n target)
      ∧ ((List.range n).map (fun i => (stores source i).watermark)).foldr max 0
        = ((List.range n).map (fun i =>
            if objectCount t stores source i = objectCount t stores target i
              ∧ sha256 (digestedText t stores source i)
                = sha256 (digestedText t stores target i) then
              (stores source i).watermark
            else (stores target i).watermark)).foldr max 0
      ∧ ∀ i < n, 19 / 20 ≤ (stores target i).vectorRecallAgainst (stores source i) t := by
  have hrecall : (19 / 20 : ℚ) ≤ ((List.range n).map (fun i =>
      (stores target i).vectorRecallAgainst (stores source i) t)).foldr min 1
      ↔ ∀ i < n, 19 / 20 ≤ (stores target i).vectorRecallAgainst (stores source i) t := by
    rw [le_foldr_min (by norm_num)]
    simp
  unfold evidenceOf ValidationEvidence.ofPairs ValidationEvidence.isValid
  simp only [Bool.and_eq_true, decide_eq_true_eq, List.map_map, List.flatMap_map]
  rw [and_assoc, and_assoc, ← hrecall]
  exact Iff.rfl

/-- **What passes for equal is valid.** -/
theorem PassForEqual.isValid (h : PassForEqual t source target n stores) :
    (evidenceOf sha256 t source target n stores).isValid = true := by
  refine evidenceOf_isValid_iff.mpr ⟨h.count, ?_, ?_, h.vectorRecall⟩
  · refine congrArg sha256 (List.flatMap_congr (fun i hi => ?_))
    rw [h.texts i (List.mem_range.mp hi)]
  · rw [h.version]
    refine congrArg (List.foldr max 0) (List.map_congr_left (fun i hi => ?_))
    rw [h.texts i (List.mem_range.mp hi)]
    simp only [and_true]

/-- **What is valid passes for equal**, when the digests tell apart what is digested. -/
theorem PassForEqual.of_isValid (hwidth : ∀ b, (sha256 b).toUTF8.toList.length = 64)
    (hinj : Set.InjOn sha256 (digested sha256 t source target n stores))
    (h : (evidenceOf sha256 t source target n stores).isValid = true) :
    PassForEqual t source target n stores := by
  obtain ⟨hcount, hdigest, hversion, hrecall⟩ := evidenceOf_isValid_iff.mp h
  have hjoined := hinj ⟨source, .inl rfl, .inl rfl⟩ ⟨target, .inr rfl, .inl rfl⟩ hdigest
  have hflat : ∀ p, (StorageExt.digests sha256 ⟨stores, fun _ _ _ => false⟩ t p n).flatMap
      (fun d => d.toUTF8.toList) = digestedDigests sha256 t stores n p := by
    intro p
    unfold StorageExt.digests
    rw [List.flatMap_map]
    rfl
  have hdigests := digests_eq_of_flatMap_eq hwidth ((hflat source).trans (hjoined.trans
    (hflat target).symm))
  have htexts : ∀ i < n, digestedText t stores source i = digestedText t stores target i := by
    intro i hi
    refine hinj ⟨source, .inl rfl, .inr ⟨i, hi, rfl⟩⟩ ⟨target, .inr rfl, .inr ⟨i, hi, rfl⟩⟩ ?_
    exact List.map_inj_left.mp hdigests i (List.mem_range.mpr hi)
  refine ⟨htexts, hcount, hversion.trans ?_, hrecall⟩
  refine congrArg (List.foldr max 0) (List.map_congr_left (fun i hi => ?_))
  rw [htexts i (List.mem_range.mp hi)]
  simp only [and_true]

end Validation

/-! ## Rollbacks -/

section Rollback

variable {sha256 : Bytes → String} {adapters : Uuid → Uuid → Uuid → ℕ} {pid : ℕ}

/-- The number of pairs of a rollback. -/
def StorageMigration.rollbackPairs (adapters : Uuid → Uuid → Uuid → ℕ) (row : StorageMigration) :
    ℕ :=
  adapters row.tenantId row.targetProfileId row.sourceProfileId

/-- **The old source holds what the target holds**, for the tenant of a migration. -/
def StorageMigration.Restored (adapters : Uuid → Uuid → Uuid → ℕ) (row : StorageMigration)
    (stores : AdapterStores) : Prop :=
  ∀ i < row.rollbackPairs adapters, (stores row.sourceProfileId i).contents row.tenantId.str
    = (stores row.targetProfileId i).contents row.tenantId.str

/-- Nothing that the old source holds has been erased from the target. -/
def StorageMigration.NothingErased (adapters : Uuid → Uuid → Uuid → ℕ) (row : StorageMigration)
    (stores : AdapterStores) : Prop :=
  ∀ i < row.rollbackPairs adapters, ∀ key,
    (stores row.targetProfileId i).contents row.tenantId.str key = none →
      (stores row.sourceProfileId i).contents row.tenantId.str key = none

/-- **A rollback restores equality, and its validation succeeds, exactly when the target
holds every key that the old source holds.** -/
theorem rollback_restores (sha256 : Bytes → String) (adapters : Uuid → Uuid → Uuid → ℕ) (pid : ℕ)
    {row : StorageMigration} (hne : row.sourceProfileId ≠ row.targetProfileId)
    {s s' : StorageState} (hrun : Returns sha256 pid (rollbackPhases sha256 adapters row) s () s') :
    row.Restored adapters s'.ext.stores
        ∧ (∀ evidence s'', Returns sha256 pid (StorageMigrationWorker.validate sha256 adapters
            row.tenantId row.targetProfileId row.sourceProfileId) s' evidence s'' →
          evidence.isValid = true)
      ↔ row.NothingErased adapters s.ext.stores := by
  have hstart : Found sha256 pid s.ext.stores ((storageEngine sha256).view s pid) s := ⟨rfl, rfl⟩
  obtain ⟨db', hfound⟩ := (alone_rollbackPhases hne.symm hstart).returns hrun
  -- What both profiles hold now.
  have htarget : ∀ i, s'.ext.stores row.targetProfileId i
      = s.ext.stores row.targetProfileId i := by
    intro i
    rw [hfound.stores, copied_of_ne hne.symm]
  have hsource : ∀ i < row.rollbackPairs adapters, ∀ key,
      (s'.ext.stores row.sourceProfileId i).contents row.tenantId.str key
        = ((s.ext.stores row.targetProfileId i).contents row.tenantId.str key).or
          ((s.ext.stores row.sourceProfileId i).contents row.tenantId.str key) := by
    intro i hi key
    have hmem : i ∈ List.range (adapters row.tenantId row.targetProfileId row.sourceProfileId) :=
      List.mem_range.mpr hi
    rw [hfound.stores, copied_target hne.symm List.nodup_range hmem, MemoryAdapter.contents_copy]
  have hrestored : row.Restored adapters s'.ext.stores
      ↔ row.NothingErased adapters s.ext.stores := by
    refine forall₂_congr (fun i hi => ?_)
    rw [funext_iff, htarget]
    refine forall_congr' (fun key => ?_)
    rw [hsource i hi key]
    cases (s.ext.stores row.targetProfileId i).contents row.tenantId.str key <;> simp
  refine ⟨fun h => hrestored.mp h.1, fun h => ⟨hrestored.mpr h, fun evidence s'' hreturns => ?_⟩⟩
  have hevidence := ((alone_validate adapters row.tenantId row.targetProfileId row.sourceProfileId
    hfound).returns hreturns).1
  rw [hevidence, ← hfound.stores]
  exact (PassForEqual.of_eq (fun i hi => (hrestored.mpr h i hi).symm)).isValid

end Rollback

/-! ## Validations -/

section Validate

/-- A statement that locks nothing and does not fail can answer. -/
theorem returns_storage (sha256 : Bytes → String) (pid : ℕ) (op : StorageOp)
    (hlocks : ∀ free db, op.locks free db = [])
    (hok : ∀ a free db ext, ∃ r, (op.exec sha256 a free db ext).1 = .ok r) (s : StorageState) :
    ∃ r s', Returns sha256 pid (storage op) s r s' := by
  obtain ⟨r, hr⟩ := hok ⟨0, none⟩ (Engine.free s pid) ((storageEngine sha256).view s pid) s.ext
  have hrun : (storage op).Runs (Prog.Handled ((storageEngine sha256).handler pid)
      (fun _ _ _ => True)) s ((storageEngine sha256).answer pid ⟨0, none⟩ op s)
      ((storageEngine sha256).ran pid ⟨0, none⟩ op s) := by
    refine Engine.runs_stmt trivial ?_
    show (op.locks _ _).all _ = true
    rw [hlocks]
    rfl
  have hanswer : (storageEngine sha256).answer pid ⟨0, none⟩ op s = .ok r := hr
  rw [hanswer] at hrun
  exact ⟨r, _, hrun⟩

theorem returns_fingerprintPairs (sha256 : Bytes → String) (pid : ℕ) (t : String)
    (source target : Uuid) (is : List ℕ) (s : StorageState) :
    ∃ found s', Returns sha256 pid (fingerprintPairs t source target is) s found s' := by
  induction is generalizing s with
  | nil => exact ⟨[], s, Prog.runs_ret _ _⟩
  | cons i is ih =>
    obtain ⟨fromSource, s₁, h₁⟩ := returns_storage sha256 pid (.tenantFingerprint source i t)
      (fun _ _ => rfl) (fun _ _ _ _ => ⟨_, rfl⟩) s
    obtain ⟨fromTarget, s₂, h₂⟩ := returns_storage sha256 pid (.tenantFingerprint target i t)
      (fun _ _ => rfl) (fun _ _ _ _ => ⟨_, rfl⟩) s₁
    obtain ⟨recalled, s₃, h₃⟩ := returns_storage sha256 pid
      (.vectorRecallAgainst target source i t) (fun _ _ => rfl) (fun _ _ _ _ => ⟨_, rfl⟩) s₂
    obtain ⟨found, s₄, h₄⟩ := ih s₃
    exact ⟨_, s₄, h₁.bind (h₂.bind (h₃.bind (h₄.bind (Prog.runs_ret _ _))))⟩

/-- A validation of some pairs can come to its evidence. -/
theorem returns_validate (sha256 : Bytes → String) (adapters : Uuid → Uuid → Uuid → ℕ)
    (pid : ℕ) (tenantId source target : Uuid) (hpairs : adapters tenantId source target ≠ 0)
    (s : StorageState) :
    ∃ evidence s', Returns sha256 pid
      (StorageMigrationWorker.validate sha256 adapters tenantId source target) s evidence s' := by
  obtain ⟨found, s', h⟩ := returns_fingerprintPairs sha256 pid tenantId.str source target
    (List.range (adapters tenantId source target)) s
  refine ⟨.ofPairs sha256 found, s', ?_⟩
  unfold StorageMigrationWorker.validate
  dsimp only
  rw [if_neg hpairs]
  exact h.bind (Prog.runs_ret _ _)

end Validate

/-! ## Migrations of one pair -/

section Samples

/-- A digest that tells texts of 64 bytes from others. -/
def lengthSha256 (b : Bytes) : String :=
  if b.length = 64 then "ceb95195e67f3cc7081bc7a57bc8cb8c774113515abd080a805fee25b5b15813"
  else "dbf7d5191cde9c3f092923edb09ed0fd6fa48217db98f7c7130ed55e1183fc23"

theorem lengthSha256_width (b : Bytes) : (lengthSha256 b).toUTF8.toList.length = 64 := by
  unfold lengthSha256
  split <;> decide +kernel

theorem lengthSha256_of_eq {b : Bytes} (h : b.length = 64) :
    lengthSha256 b = "ceb95195e67f3cc7081bc7a57bc8cb8c774113515abd080a805fee25b5b15813" :=
  if_pos h

theorem lengthSha256_of_ne {b : Bytes} (h : b.length ≠ 64) :
    lengthSha256 b = "dbf7d5191cde9c3f092923edb09ed0fd6fa48217db98f7c7130ed55e1183fc23" :=
  if_neg h

/-- It tells apart what is digested of a pair that serializes to one text. -/
theorem lengthSha256_injOn {t : String} {source target : Uuid} {stores : AdapterStores}
    (htext : digestedText t stores source 0 = digestedText t stores target 0)
    (hlength : (digestedText t stores source 0).length ≠ 64) :
    Set.InjOn lengthSha256 (digested lengthSha256 t source target 1 stores) := by
  have hjoined : ∀ p, digestedDigests lengthSha256 t stores 1 p
      = (lengthSha256 (digestedText t stores p 0)).toUTF8.toList :=
    fun p => List.append_nil _
  have hsame : digestedDigests lengthSha256 t stores 1 source
      = digestedDigests lengthSha256 t stores 1 target := by
    rw [hjoined, hjoined, htext]
  have hcases : ∀ b ∈ digested lengthSha256 t source target 1 stores,
      b = digestedDigests lengthSha256 t stores 1 source ∨ b = digestedText t stores source 0 := by
    rintro b ⟨p, hp, hb | ⟨i, hi, hb⟩⟩
    · rcases hp with rfl | rfl
      · exact .inl hb
      · exact .inl (hb.trans hsame.symm)
    · obtain rfl : i = 0 := by omega
      rcases hp with rfl | rfl
      · exact .inr hb
      · exact .inr (hb.trans htext.symm)
  have hapart : lengthSha256 (digestedDigests lengthSha256 t stores 1 source)
      ≠ lengthSha256 (digestedText t stores source 0) := by
    have hdigest : (digestedDigests lengthSha256 t stores 1 source).length = 64 := by
      rw [hjoined]
      exact lengthSha256_width _
    rw [lengthSha256_of_eq hdigest, lengthSha256_of_ne hlength]
    decide
  intro b hb b' hb' heq
  rcases hcases b hb with rfl | rfl <;> rcases hcases b' hb' with rfl | rfl
  · rfl
  · exact absurd heq hapart
  · exact absurd heq.symm hapart
  · rfl

/-- One pair of adapters. -/
def onePair : Uuid → Uuid → Uuid → ℕ := fun _ _ _ => 1

/-- A migration of the tenant 1 from the profile 10 to the profile 20. -/
def sampleMigration : StorageMigration where
  tenantId := 1
  id := 100
  sourceProfileId := 10
  targetProfileId := 20
  state := .ROLLING_BACK
  approvalStatus := .APPROVED
  requestedBy := "a"
  approvedBy := some "b"
  rollbackApprovalStatus := .APPROVED
  rollbackRequestedBy := some "a"
  rollbackApprovedBy := some "b"
  validation := none
  observationSeconds := 60
  observationEndsAt := none
  version := 1
  createdAt := 0

/-- The migration in its rollback, with the objects of both profiles. -/
def rollbackStart (source target : MemoryAdapter) : StorageState :=
  Engine.quiet
    { StorageDb.empty with
      migrations := setAt StorageDb.empty.migrations 1 100 (some sampleMigration)
      checkpoints := setAt StorageDb.empty.checkpoints 1 100 (some ⟨[0], []⟩) }
    ⟨fun p _ => if p = 10 then source else target, fun _ _ _ => false⟩

/-- An adapter with one object of the tenant. -/
def holding (value : Bytes) : MemoryAdapter := MemoryAdapter.new.put (Uuid.str 1) "k" value

/-- An adapter whose object was erased. -/
def erased : MemoryAdapter := ((holding [118]).eraseTenant (Uuid.str 1)).2

/-- The phases can be run. -/
theorem rollbackStart_runs (source target : MemoryAdapter) :
    ∃ s', Returns lengthSha256 0 (rollbackPhases lengthSha256 onePair sampleMigration)
      (rollbackStart source target) () s' := by
  have heval : ((rollbackPhases lengthSha256 onePair sampleMigration).eval
      ((storageEngine lengthSha256).handler 0) (List.replicate 12 (.serve ⟨0, none⟩))
      (rollbackStart source target)).map (fun x => x.1.toOption.any (fun _ => true)) = some true :=
    rfl
  obtain ⟨r, s', -, hrun⟩ := Prog.runs_of_eval_test heval
  exact ⟨s', hrun⟩

/-- An object that was changed after the switch is restored. -/
theorem rollback_restores_changed : ∃ s',
    Returns lengthSha256 0 (rollbackPhases lengthSha256 onePair sampleMigration)
      (rollbackStart (holding [118]) (holding [119])) () s'
    ∧ sampleMigration.Restored onePair s'.ext.stores := by
  obtain ⟨s', hrun⟩ := rollbackStart_runs (holding [118]) (holding [119])
  refine ⟨s', hrun, ((rollback_restores lengthSha256 onePair 0 (by decide) hrun).mpr ?_).1⟩
  intro i _ key hnone
  have hheld : ∀ value, (holding value).contents (Uuid.str 1) key
      = if (Uuid.str 1, key) = (Uuid.str 1, "k") then some value else none :=
    fun value => Dictionary.get_set _ _ _ _
  change (holding [119]).contents (Uuid.str 1) key = none at hnone
  change (holding [118]).contents (Uuid.str 1) key = none
  rw [hheld] at hnone ⊢
  split_ifs at hnone ⊢
  rfl

/-- **An erasure is not restored**: the object comes back with the old source, and the
rollback fails its validation. -/
theorem erased_object_returns : ∃ s',
    Returns lengthSha256 0 (rollbackPhases lengthSha256 onePair sampleMigration)
      (rollbackStart (holding [118]) erased) () s'
    ∧ ¬ sampleMigration.Restored onePair s'.ext.stores
    ∧ ∃ evidence s'', Returns lengthSha256 0
        (StorageMigrationWorker.validate lengthSha256 onePair 1 20 10) s' evidence s''
      ∧ evidence.isValid = false := by
  obtain ⟨s', hrun⟩ := rollbackStart_runs (holding [118]) erased
  obtain ⟨db', hfound⟩ := (alone_rollbackPhases (by decide) ⟨rfl, rfl⟩).returns hrun
  refine ⟨s', hrun, fun h => ?_, ?_⟩
  · have hk := congrFun (h 0 Nat.one_pos) "k"
    rw [hfound.stores] at hk
    revert hk
    decide +kernel
  · obtain ⟨evidence, s'', hreturns⟩ :=
      returns_validate lengthSha256 onePair 0 1 20 10 (by decide) s'
    refine ⟨evidence, s'', hreturns, Bool.eq_false_iff.mpr (fun hvalid => ?_)⟩
    rw [((alone_validate onePair 1 20 10 hfound).returns hreturns).1] at hvalid
    have hcount := (evidenceOf_isValid_iff.mp hvalid).1
    revert hcount
    decide +kernel

/-! ## Contents that pass for equal -/

/-- Nineteen objects. -/
def commonObjects : List (String × Bytes) :=
  ["b", "c", "d", "e", "f", "g", "h", "i", "j", "k", "l", "m", "n", "o", "p", "q", "r", "s",
    "t"].map (fun key => (key, [1]))

/-- An adapter with these objects of the tenant. -/
def withObjects (es : List (String × Bytes)) : MemoryAdapter :=
  es.foldl (fun a e => a.put (Uuid.str 1) e.1 e.2) .new

/-- The twentieth object: its value has a zero byte, or its key has it. -/
def collidedSource : List (String × Bytes) := ("a", [98, 0, 99]) :: commonObjects

def collidedTarget : List (String × Bytes) := ("a\x00b", [99]) :: commonObjects

theorem snapshot_collided :
    ((withObjects collidedSource).snapshotTenant (Uuid.str 1)).2 = collidedSource
      ∧ ((withObjects collidedTarget).snapshotTenant (Uuid.str 1)).2 = collidedTarget := by
  decide +kernel

/-- The migration with these objects. -/
def collided : StorageState :=
  rollbackStart (withObjects collidedSource) (withObjects collidedTarget)

theorem collided_passForEqual : PassForEqual (Uuid.str 1) 10 20 1 collided.ext.stores := by
  have hrecall : (19 / 20 : ℚ) ≤ (withObjects collidedTarget).vectorRecallAgainst
      (withObjects collidedSource) (Uuid.str 1) := by
    decide +kernel
  refine ⟨fun i _ => ?_, by decide +kernel, by decide +kernel, fun i _ => hrecall⟩
  show MemoryAdapter.fingerprintText ((withObjects collidedSource).snapshotTenant (Uuid.str 1)).2
    = MemoryAdapter.fingerprintText ((withObjects collidedTarget).snapshotTenant (Uuid.str 1)).2
  rw [snapshot_collided.1, snapshot_collided.2,
    MemoryAdapter.fingerprintText_of_sorted (by decide +kernel),
    MemoryAdapter.fingerprintText_of_sorted (by decide +kernel)]
  decide +kernel

end Samples
