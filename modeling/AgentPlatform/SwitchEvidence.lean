import AgentPlatform.MigrationControl

/-!
# What a switch leaves behind

A switch makes the target of a migration the active profile. What the business has written
to the source until then is on the target if the fingerprints that the validation compared
still describe both: they tell contents apart as long as no object has a zero byte in its
key or its value, since a zero byte is what `tenant_fingerprint` ends keys and values with,
and they are not taken again. A write that the source accepts between its fingerprint and
the switch is not on the target.
-/


/-! ## What a fingerprint says -/

section Text

theorem utf8_loop (bs : ByteArray) (i : ℕ) (r : List UInt8) :
    ByteArray.toList.loop bs i r = r.reverse ++ bs.data.toList.drop i := by
  fun_induction ByteArray.toList.loop bs i r with
  | case1 i r hi ih =>
    have hlt : i < bs.data.toList.length := by simpa using hi
    have hget : bs.get! i = bs.data.toList[i] := by
      cases bs with
      | mk data => exact getElem!_pos data i hi
    rw [ih, hget, List.reverse_cons, List.append_assoc, List.singleton_append,
      List.drop_eq_getElem_cons hlt]
  | case2 i r hi =>
    have hle : bs.data.toList.length ≤ i := by simpa using hi
    rw [List.drop_of_length_le hle, List.append_nil]

/-- The bytes of a text say which text it is. -/
theorem utf8_inj {s s' : String} (h : s.toUTF8.toList = s'.toUTF8.toList) : s = s' := by
  have hbytes : ∀ bs : ByteArray, bs.toList = bs.data.toList :=
    fun bs => (utf8_loop bs 0 []).trans (by simp)
  rw [hbytes, hbytes] at h
  refine String.toByteArray_inj.mp (ByteArray.ext ?_)
  exact Array.toList_inj.mp h

/-- What comes before the first zero byte. -/
theorem split_at_zero {a a' r r' : Bytes} (ha : 0 ∉ a) (ha' : 0 ∉ a')
    (h : a ++ 0 :: r = a' ++ 0 :: r') : a = a' ∧ r = r' := by
  induction a generalizing a' with
  | nil =>
    cases a' with
    | nil => exact ⟨rfl, (List.cons.inj h).2⟩
    | cons b a' => exact absurd ((List.cons.inj h).1 ▸ List.mem_cons_self) ha'
  | cons b a ih =>
    cases a' with
    | nil => exact absurd ((List.cons.inj h).1 ▸ List.mem_cons_self) ha
    | cons b' a' =>
      obtain ⟨rfl, htail⟩ := List.cons.inj h
      obtain ⟨rfl, hr⟩ := ih (fun h0 => ha (List.mem_cons_of_mem _ h0))
        (fun h0 => ha' (List.mem_cons_of_mem _ h0)) htail
      exact ⟨rfl, hr⟩

/-- An object without a zero byte in its key or its value. -/
def ZeroFree (e : String × Bytes) : Prop := 0 ∉ e.1.toUTF8.toList ∧ 0 ∉ e.2

/-- Entries can be read off what is fed to the digest. -/
theorem entries_eq_of_text_eq {es es' : List (String × Bytes)} (hes : ∀ e ∈ es, ZeroFree e)
    (hes' : ∀ e ∈ es', ZeroFree e)
    (h : es.flatMap (fun e => e.1.toUTF8.toList ++ [0] ++ e.2 ++ [0])
      = es'.flatMap (fun e => e.1.toUTF8.toList ++ [0] ++ e.2 ++ [0])) : es = es' := by
  induction es generalizing es' with
  | nil =>
    cases es' with
    | nil => rfl
    | cons e' es' => simp at h
  | cons e es ih =>
    cases es' with
    | nil => simp at h
    | cons e' es' =>
      have hsplit : ∀ (e : String × Bytes) (rest : Bytes),
          (e.1.toUTF8.toList ++ [0] ++ e.2 ++ [0]) ++ rest
            = e.1.toUTF8.toList ++ 0 :: (e.2 ++ 0 :: rest) := by
        intro e rest
        simp
      rw [List.flatMap_cons, List.flatMap_cons, hsplit, hsplit] at h
      have hfree := hes e List.mem_cons_self
      have hfree' := hes' e' List.mem_cons_self
      obtain ⟨hkey, h⟩ := split_at_zero hfree.1 hfree'.1 h
      obtain ⟨hvalue, h⟩ := split_at_zero hfree.2 hfree'.2 h
      have hrest := ih (fun x hx => hes x (List.mem_cons_of_mem _ hx))
        (fun x hx => hes' x (List.mem_cons_of_mem _ hx)) h
      rw [hrest, Prod.ext (utf8_inj hkey) hvalue]

/-- Entries that are fed to the digest as one text are the same objects. -/
theorem perm_of_fingerprintText_eq {es es' : List (String × Bytes)} (hes : ∀ e ∈ es, ZeroFree e)
    (hes' : ∀ e ∈ es', ZeroFree e)
    (h : MemoryAdapter.fingerprintText es = MemoryAdapter.fingerprintText es') : es.Perm es' := by
  have hsorted := entries_eq_of_text_eq
    (fun e he => hes e ((List.mergeSort_perm es _).mem_iff.mp he))
    (fun e he => hes' e ((List.mergeSort_perm es' _).mem_iff.mp he)) h
  have hperm := List.mergeSort_perm es (fun e e' => decide (e.1 ≤ e'.1))
  rw [hsorted] at hperm
  exact hperm.symm.trans (List.mergeSort_perm es' _)

/-- What an adapter holds for a tenant. -/
theorem MemoryAdapter.contents_eq_some_iff (a : MemoryAdapter) (t key : String) (value : Bytes) :
    a.contents t key = some value ↔ (key, value) ∈ (a.snapshotTenant t).2 := by
  unfold MemoryAdapter.contents MemoryAdapter.snapshotTenant
  rw [Dictionary.get_eq_some_iff]
  simp only [List.mem_map, List.mem_filter, decide_eq_true_eq, Prod.mk.injEq, Prod.exists]
  constructor
  · intro hmem
    exact ⟨t, key, value, ⟨hmem, rfl⟩, rfl, rfl⟩
  · rintro ⟨t', key', value', ⟨hmem, rfl⟩, rfl, rfl⟩
    exact hmem

/-- The same objects are the same contents. -/
theorem MemoryAdapter.contents_eq_of_perm {a a' : MemoryAdapter} {t : String}
    (h : (a.snapshotTenant t).2.Perm (a'.snapshotTenant t).2) : a.contents t = a'.contents t := by
  funext key
  refine Option.ext (fun value => ?_)
  rw [contents_eq_some_iff, contents_eq_some_iff]
  exact h.mem_iff

end Text

/-! ## What a validation says -/

section Validation

/-- Two texts are not a collision. -/
def NoCollision (sha256 : Bytes → String) (b b' : Bytes) : Prop := sha256 b = sha256 b' → b = b'

variable (sha256 : Bytes → String) (x : StorageExt) (t : String) (source target : Uuid) (n : ℕ)

/-- **The fingerprints of a source and a target tell contents apart**: what is digested is
no collision, and no object has a zero byte. -/
structure Telling : Prop where
  objects : ∀ i < n, NoCollision sha256 (MemoryAdapter.fingerprintText (x.entries source i t))
    (MemoryAdapter.fingerprintText (x.entries target i t))
  digests : NoCollision sha256
    ((x.digests sha256 t source n).flatMap (fun d => d.toUTF8.toList))
    ((x.digests sha256 t target n).flatMap (fun d => d.toUTF8.toList))
  zeroFree : ∀ i < n, (∀ e ∈ x.entries source i t, ZeroFree e)
    ∧ ∀ e ∈ x.entries target i t, ZeroFree e

variable {sha256 x t source target n}

/-- Digests of one width can be read off their concatenation. -/
theorem digests_eq_of_flatMap_eq (hwidth : ∀ b, (sha256 b).toUTF8.toList.length = 64)
    (h : (x.digests sha256 t source n).flatMap (fun d => d.toUTF8.toList)
      = (x.digests sha256 t target n).flatMap (fun d => d.toUTF8.toList)) :
    x.digests sha256 t source n = x.digests sha256 t target n := by
  have hlengths : ∀ p, ((x.digests sha256 t p n).map (fun d => d.toUTF8.toList)).map List.length
      = (List.range n).map (fun _ => 64) := by
    intro p
    unfold StorageExt.digests
    rw [List.map_map, List.map_map]
    exact List.map_congr_left (fun i _ => hwidth _)
  rw [List.flatMap_def, List.flatMap_def] at h
  have hlists := List.eq_iff_flatten_eq.mpr ⟨h, (hlengths source).trans (hlengths target).symm⟩
  exact List.map_injective_iff.mpr (fun _ _ hd => utf8_inj hd) hlists

/-- **Where fingerprints agree, the contents do.** -/
theorem StorageExt.Agree.contents_eq (h : x.Agree sha256 t source target n)
    (hwidth : ∀ b, (sha256 b).toUTF8.toList.length = 64)
    (htell : Telling sha256 x t source target n) {i : ℕ} (hi : i < n) :
    (x.stores target i).contents t = (x.stores source i).contents t := by
  have hdigests := digests_eq_of_flatMap_eq hwidth (htell.digests h.2)
  unfold StorageExt.digests at hdigests
  have hdigest := List.map_inj_left.mp hdigests i (List.mem_range.mpr hi)
  have htext := htell.objects i hi hdigest
  obtain ⟨hfree, hfree'⟩ := htell.zeroFree i hi
  exact (MemoryAdapter.contents_eq_of_perm (perm_of_fingerprintText_eq hfree hfree' htext)).symm

end Validation

/-! ## The switch -/

section Step

variable {sha256 : Bytes → String} {adapters : Uuid → Uuid → Uuid → ℕ}

/-- A statement writes rows, or it reaches the adapters. -/
theorem storageExec_quiet (sha256 : Bytes → String) (a : StorageSupply) (free : StorageRow → Bool)
    (db : StorageDb)
    (x : StorageExt) (op : StorageOp) :
    (op.exec sha256 a free db x).2.1 = [] ∨ (op.exec sha256 a free db x).2.2 = x := by
  cases op with
  | adapter op => exact .inl rfl
  | tenantFingerprint p i t => exact .inl rfl
  | businessWrite t i key value =>
    left
    simp only [StorageOp.exec]
    split <;> rfl
  | insertProfile t id config active =>
    right
    simp only [StorageOp.exec]
    split <;> rfl
  | insertMigration row =>
    right
    simp only [StorageOp.exec]
    split <;> rfl
  | updateMigration t id u =>
    right
    simp only [StorageOp.exec]
    split <;> rfl
  | setActive t id active =>
    right
    simp only [StorageOp.exec]
    repeat' split
    all_goals rfl
  | _ => exact .inr rfl

/-- A step that commits something leaves the adapters alone. -/
theorem storageMoves_quiet {pid : ℕ} {s s' : StorageState}
    (h : (storageEngine sha256).Moves pid s s') :
    s'.committed = s.committed ∨ s'.ext = s.ext := by
  cases h with
  | stay => exact .inl rfl
  | begin => exact .inl rfl
  | close => exact .inl rfl
  | publish => exact .inr rfl
  | perform a op hfree =>
    cases hp : s.pending pid with
    | some old =>
      left
      simp only [Engine.perform, hp]
    | none =>
      rcases storageExec_quiet sha256 a (Engine.free s pid) ((storageEngine sha256).view s pid)
        s.ext op with hws | hx
      · left
        simp only [Engine.perform, hp, Engine.install]
        rw [show ((storageEngine sha256).exec a op (Engine.free s pid)
          ((storageEngine sha256).view s pid) s.ext).2.1 = [] from hws]
        rfl
      · right
        simp only [Engine.perform, hp]
        exact hx

end Step

/-- The runs in which tenants are UUIDs. -/
abbrev uuidTenants (w : StorageCalls) (l : StorageLabel) : Prop :=
  Pool.stepOk (fun _ call => call.tenant < 2 ^ 128) (fun _ _ _ _ => True) (fun _ _ => True) w l

/-- **A switch loses no write of the business that its source has accepted before its
fingerprint was taken**, and leaves the contents of source and target equal if there
was none after that. -/
theorem contents_eq_of_switch (sha256 : Bytes → String)
    (hwidth : ∀ b, (sha256 b).toUTF8.toList.length = 64) (adapters : Uuid → Uuid → Uuid → ℕ)
    {w w' : StorageCalls} {l : StorageLabel} {t id : Uuid} {m m' : StorageMigration}
    (h : (storageMachine sha256 adapters).Reach uuidTenants w)
    (hstep : (storageMachine sha256 adapters).step w l = some w')
    (hm : w.shared.committed.migrations t id = some m) (hready : m.state = .READY_TO_SWITCH)
    (hm' : w'.shared.committed.migrations t id = some m') (hobserving : m'.state = .OBSERVING)
    (hquiet : ∀ i < adapters t m.sourceProfileId m.targetProfileId,
      w.shared.ext.written m.sourceProfileId i (Uuid.str t) = false)
    (htell : Telling sha256 w.shared.ext (Uuid.str t) m.sourceProfileId m.targetProfileId
      (adapters t m.sourceProfileId m.targetProfileId)) :
    ∀ i < adapters t m.sourceProfileId m.targetProfileId,
      (w'.shared.ext.stores m.targetProfileId i).contents (Uuid.str t)
        = (w'.shared.ext.stores m.sourceProfileId i).contents (Uuid.str t) := by
  intro i hi
  have hrec : Chronicle sha256 adapters False (· < 2 ^ 128) w.shared := by
    refine (Pool.reach_safe (controlDiscipline sha256 adapters False (· < 2 ^ 128))
      (h.mono (fun v l hok => ?_))).inv
    cases l with
    | spawn call => exact hok
    | act pid c => exact fun _ _ _ _ hfalse => hfalse.elim
    | _ => trivial
  have hagree := hrec.also (fun _ _ => Uuid.str_inj) t id m hm hready hquiet
  -- The step commits the switch, so it does not reach the adapters.
  obtain ⟨pid, hmoves⟩ := (storageEngine sha256).moves_of_step hstep
  have hext : w'.shared.ext = w.shared.ext := by
    refine (storageMoves_quiet hmoves).resolve_left (fun hsame => ?_)
    rw [hsame, hm] at hm'
    obtain rfl := Option.some.inj hm'
    rw [hready] at hobserving
    cases hobserving
  rw [hext]
  exact hagree.contents_eq hwidth htell hi

/-! ## Runs -/

/-- The digests of the object `v` under the key `k`, and of the text of that digest. -/
def objectSha256 (b : Bytes) : String :=
  if b = [107, 0, 118, 0] then "ceb95195e67f3cc7081bc7a57bc8cb8c774113515abd080a805fee25b5b15813"
  else "dbf7d5191cde9c3f092923edb09ed0fd6fa48217db98f7c7130ed55e1183fc23"

theorem objectSha256_width (b : Bytes) : (objectSha256 b).toUTF8.toList.length = 64 := by
  unfold objectSha256
  split <;> decide +kernel

/-- One pair of adapters. -/
abbrev objectMachine := storageMachine objectSha256 (fun _ _ _ => 1)

/-- The profile 10 holds one object of the tenant 1. -/
def objectStart : StorageCalls :=
  Pool.idle (Engine.quiet StorageDb.empty ⟨fun p _ => if p = 10 then
    MemoryAdapter.new.put (Uuid.str 1) "k" [118] else MemoryAdapter.new, fun _ _ _ => false⟩)

theorem objectStart_init : objectMachine.init objectStart := ⟨_, ⟨_, rfl⟩, rfl⟩

/-- A test of `uuidTenants`. -/
def uuidTenantsTest (_ : StorageCalls) : StorageLabel → Bool
  | .spawn call => call.tenant < 2 ^ 128
  | _ => true

theorem uuidTenants_of_test (w : StorageCalls) (l : StorageLabel)
    (h : uuidTenantsTest w l = true) : uuidTenants w l := by
  cases l with
  | spawn call =>
    have hlt : call.tenant < 2 ^ 128 := of_decide_eq_true h
    exact hlt
  | act pid c => exact fun _ _ _ _ => trivial
  | _ => trivial

/-- The migration of the tenant 1, in a state and from 10 to 20. -/
def SampleIn (state : StorageMigrationState) (w : StorageCalls) : Prop :=
  (w.shared.committed.migrations 1 100).map
    (fun m => (m.state, m.sourceProfileId, m.targetProfileId)) = some (state, 10, 20)

instance (state : StorageMigrationState) (w : StorageCalls) : Decidable (SampleIn state w) :=
  inferInstanceAs (Decidable (_ = _))

/-- One object, copied, validated and switched over. -/
theorem contents_eq_of_switch_object :
    ∃ w w', objectMachine.Reach uuidTenants w
      ∧ objectMachine.step w (.act 9 (.serve ⟨0, none⟩)) = some w'
      ∧ SampleIn .READY_TO_SWITCH w ∧ SampleIn .OBSERVING w'
      ∧ (w'.shared.ext.stores 20 0).contents (Uuid.str 1)
        = (w'.shared.ext.stores 10 0).contents (Uuid.str 1)
      ∧ (w'.shared.ext.stores 10 0).contents (Uuid.str 1) "k" = some [118] := by
  have hrun : (objectMachine.runIf uuidTenantsTest objectStart
      (profilesCreated ++ readied
        ++ .spawn (.advanceMigration 1 100 .SWITCH) :: turns 9 8 0)).map (fun w =>
        (objectMachine.step w (.act 9 (.serve ⟨0, none⟩))).any (fun w' => decide
          (SampleIn .READY_TO_SWITCH w ∧ SampleIn .OBSERVING w'
            ∧ w.shared.ext.written 10 0 (Uuid.str 1) = false
            ∧ w.shared.ext.entries 10 0 (Uuid.str 1) = [("k", [118])]
            ∧ w.shared.ext.entries 20 0 (Uuid.str 1) = [("k", [118])]
            ∧ (w'.shared.ext.stores 10 0).contents (Uuid.str 1) "k" = some [118])))
        = some true := by
    decide +kernel
  obtain ⟨w, hw, htest⟩ := Machine.reach_of_runIf uuidTenants_of_test objectStart_init hrun
  obtain ⟨w', hstep, htest⟩ := (Option.any_eq_true _ _).mp htest
  obtain ⟨hready, hobserving, hwritten, hsource, htarget, hobject⟩ := of_decide_eq_true htest
  obtain ⟨m, hm, hstate⟩ := Option.map_eq_some_iff.mp hready
  obtain ⟨m', hm', hstate'⟩ := Option.map_eq_some_iff.mp hobserving
  obtain ⟨hs, hp⟩ := Prod.mk.inj hstate
  obtain ⟨hp, hp'⟩ := Prod.mk.inj hp
  have htell : Telling objectSha256 w.shared.ext (Uuid.str 1) 10 20 1 := by
    have hsame : ∀ i < 1, w.shared.ext.entries 10 i (Uuid.str 1) = [("k", [118])]
        ∧ w.shared.ext.entries 20 i (Uuid.str 1) = [("k", [118])] := by
      intro i hi
      rw [Nat.lt_one_iff.mp hi]
      exact ⟨hsource, htarget⟩
    have hdigests : w.shared.ext.digests objectSha256 (Uuid.str 1) 10 1
        = w.shared.ext.digests objectSha256 (Uuid.str 1) 20 1 := by
      refine List.map_congr_left (fun i hi => ?_)
      rw [(hsame i (List.mem_range.mp hi)).1, (hsame i (List.mem_range.mp hi)).2]
    have hfree : ∀ e ∈ [("k", ([118] : Bytes))], ZeroFree e := by
      intro e he
      rw [List.mem_singleton.mp he]
      exact ⟨by decide +kernel, by decide⟩
    refine ⟨fun i hi _ => ?_, fun _ => by rw [hdigests], fun i hi => ?_⟩
    · rw [(hsame i hi).1, (hsame i hi).2]
    · rw [(hsame i hi).1, (hsame i hi).2]
      exact ⟨hfree, hfree⟩
  refine ⟨w, w', hw, hstep, hready, hobserving, ?_, hobject⟩
  have hcontents := contents_eq_of_switch objectSha256 objectSha256_width (fun _ _ _ => 1) hw hstep
    hm hs hm' (Prod.mk.inj hstate').1
    (by
      intro i hi
      rw [Nat.lt_one_iff.mp hi, hp]
      exact hwritten)
    (by rw [hp, hp']; exact htell) 0 Nat.one_pos
  rw [hp, hp'] at hcontents
  exact hcontents

/-- **A write that is accepted between the validation and the switch is lost**: the
source has it, and the target has not. -/
theorem contents_ne_after_switch :
    ∃ w w', objectMachine.Reach uuidTenants w
      ∧ objectMachine.step w (.act 10 (.serve ⟨0, none⟩)) = some w'
      ∧ SampleIn .READY_TO_SWITCH w ∧ SampleIn .OBSERVING w'
      ∧ (w'.shared.ext.stores 10 0).contents (Uuid.str 1) "k" = some [119]
      ∧ (w'.shared.ext.stores 20 0).contents (Uuid.str 1) "k" = some [118] := by
  have hrun : (objectMachine.runIf uuidTenantsTest objectStart
      (profilesCreated ++ readied
        ++ .spawn (.businessWrite 1 0 "k" (some [119])) :: turns 9 1 0
        ++ .spawn (.advanceMigration 1 100 .SWITCH) :: turns 10 8 0)).map (fun w =>
        (objectMachine.step w (.act 10 (.serve ⟨0, none⟩))).any (fun w' => decide
          (SampleIn .READY_TO_SWITCH w ∧ SampleIn .OBSERVING w'
            ∧ (w'.shared.ext.stores 10 0).contents (Uuid.str 1) "k" = some [119]
            ∧ (w'.shared.ext.stores 20 0).contents (Uuid.str 1) "k" = some [118])))
        = some true := by
    decide +kernel
  obtain ⟨w, hw, htest⟩ := Machine.reach_of_runIf uuidTenants_of_test objectStart_init hrun
  obtain ⟨w', hstep, htest⟩ := (Option.any_eq_true _ _).mp htest
  exact ⟨w, w', hw, hstep, of_decide_eq_true htest⟩
