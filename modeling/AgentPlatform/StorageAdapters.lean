import AgentPlatform.Alongside
import AgentPlatform.Dictionary
import AgentPlatform.ExecutionStore

/-!
# Storage Adapters and their change feeds

The embedding of `_NamespacedMemoryAdapter` of `storage.py` and of
`StorageMigrationExecutor` of `storage_migration.py`. An adapter keeps objects by
tenant and key, and records every operation of the business in a change feed,
under the value of a watermark that each operation raises. A migration copies a
snapshot to another adapter and then replays the feed from the watermark of the
snapshot on.

`Behind` is what the target is to the source in between: what the feed has after
a watermark, replayed on what the target holds, gives what the source holds. An
operation on the source keeps it, whoever makes it, and so does a replay, with a
later watermark. An erasure puts several changes under one watermark; they are
all after a watermark or none is.
-/

/-- `bytes`. -/
abbrev Bytes := List UInt8

/-- An entry of a change feed; `none` is a removal. -/
structure StorageChange where
  sequence : ℕ
  tenantId : String
  key : String
  value : Option Bytes
  deriving DecidableEq

/-- **`_NamespacedMemoryAdapter`.** No change is recorded ahead of the watermark. -/
structure MemoryAdapter where
  objects : Dictionary (String × String) Bytes
  watermark : ℕ
  changes : List StorageChange
  recorded : ∀ c ∈ changes, c.sequence ≤ watermark

namespace MemoryAdapter

/-- A new adapter. -/
def new : MemoryAdapter := ⟨Dictionary.empty, 0, [], fun _ h => absurd h List.not_mem_nil⟩

/-- Record changes under the next watermark. -/
def record (a : MemoryAdapter) (objects : Dictionary (String × String) Bytes) (tenantId : String)
    (changes : List (String × Option Bytes)) : MemoryAdapter where
  objects := objects
  watermark := a.watermark + 1
  changes := a.changes ++ changes.map (fun c => ⟨a.watermark + 1, tenantId, c.1, c.2⟩)
  recorded c hc := by
    rcases List.mem_append.mp hc with hc | hc
    · exact Nat.le_succ_of_le (a.recorded c hc)
    · obtain ⟨x, -, rfl⟩ := List.mem_map.mp hc
      exact Nat.le_refl _

/-- **`put`.** -/
def put (a : MemoryAdapter) (tenantId key : String) (value : Bytes) : MemoryAdapter :=
  a.record (a.objects.set (tenantId, key) value) tenantId [(key, some value)]

/-- The keys of a tenant. -/
def keys (a : MemoryAdapter) (tenantId : String) : List String :=
  (a.objects.items.filter (fun e => e.1.1 = tenantId)).map (fun e => e.1.2)

/-- **`erase_tenant`**: how many objects are erased, and what is left. -/
def eraseTenant (a : MemoryAdapter) (tenantId : String) : ℕ × MemoryAdapter :=
  ((a.keys tenantId).length,
    a.record (a.objects.filterKeys (fun k => k.1 ≠ tenantId)) tenantId
      ((a.keys tenantId).map (fun key => (key, none))))

/-- **`snapshot_tenant`.** -/
def snapshotTenant (a : MemoryAdapter) (tenantId : String) : ℕ × List (String × Bytes) :=
  (a.watermark, (a.objects.items.filter (fun e => e.1.1 = tenantId)).map (fun e => (e.1.2, e.2)))

/-- **`changes_since`.** -/
def changesSince (a : MemoryAdapter) (tenantId : String) (watermark : ℕ) :
    ℕ × List (String × Option Bytes) :=
  (a.watermark, (a.changes.filter (fun c => c.tenantId = tenantId ∧ watermark < c.sequence)).map
    (fun c => (c.key, c.value)))

/-- One turn of the loop of `apply_changes`. -/
def applyChange (tenantId : String) (objects : Dictionary (String × String) Bytes)
    (change : String × Option Bytes) : Dictionary (String × String) Bytes :=
  match change.2 with
  | none => objects.pop (tenantId, change.1)
  | some value => objects.set (tenantId, change.1) value

/-- **`apply_changes`.** They are not recorded in the feed of the target. -/
def applyChanges (a : MemoryAdapter) (tenantId : String) (changes : List (String × Option Bytes)) :
    MemoryAdapter :=
  { a with objects := changes.foldl (applyChange tenantId) a.objects }

/-- What `tenant_fingerprint` feeds to the digest: the entries in the order of their
keys, a zero byte after each key and each value. -/
def fingerprintText (entries : List (String × Bytes)) : Bytes :=
  (entries.mergeSort (fun e e' => decide (e.1 ≤ e'.1))).flatMap
    (fun e => e.1.toUTF8.toList ++ [0] ++ e.2 ++ [0])

/-- **`tenant_fingerprint`.** -/
def tenantFingerprint (sha256 : Bytes → String) (a : MemoryAdapter) (tenantId : String) :
    ℕ × String × ℕ :=
  ((a.snapshotTenant tenantId).2.length, sha256 (fingerprintText (a.snapshotTenant tenantId).2),
    a.watermark)

/-- **`vector_recall_against`.** -/
def vectorRecallAgainst (a source : MemoryAdapter) (tenantId : String) : ℚ :=
  let objects := (source.snapshotTenant tenantId).2
  if objects.isEmpty then 1
  else (objects.filter (fun e => a.objects.get (tenantId, e.1) = some e.2)).length
    / (objects.length : ℚ)

/-- The contents of a tenant. -/
def contents (a : MemoryAdapter) (tenantId key : String) : Option Bytes :=
  a.objects.get (tenantId, key)

end MemoryAdapter

/-! ## The executor -/

/-- The adapters of the Storage Profiles: each has a list of them. -/
abbrev AdapterStores := Uuid → ℕ → MemoryAdapter

/-- What a migration asks of an adapter of a profile. -/
inductive AdapterOp where
  | snapshotTenant (profileId : Uuid) (index : ℕ) (tenantId : String)
  | changesSince (profileId : Uuid) (index : ℕ) (tenantId : String) (watermark : ℕ)
  | applyChanges (profileId : Uuid) (index : ℕ) (tenantId : String)
      (changes : List (String × Option Bytes))

/-- What it is answered. -/
abbrev AdapterRes : AdapterOp → Type
  | .snapshotTenant .. => ℕ × List (String × Bytes)
  | .changesSince .. => ℕ × List (String × Option Bytes)
  | .applyChanges .. => Unit

/-- Change one adapter. -/
def AdapterStores.set (s : AdapterStores) (profileId : Uuid) (index : ℕ) (a : MemoryAdapter) :
    AdapterStores :=
  fun p i => if p = profileId ∧ i = index then a else s p i

/-- The adapters serve a request. -/
def AdapterOp.serve : (op : AdapterOp) → AdapterStores → AdapterRes op × AdapterStores
  | .snapshotTenant p i t, s => ((s p i).snapshotTenant t, s)
  | .changesSince p i t w, s => ((s p i).changesSince t w, s)
  | .applyChanges p i t changes, s => ((), s.set p i ((s p i).applyChanges t changes))

/-- `StorageMigrationError`. -/
def storageMigrationError (code : String) : PyException := .other code

namespace StorageMigrationExecutor

variable {Op : Type} {Res : Op → Type}
variable (ask : (op : AdapterOp) → Prog Op Res PyException (AdapterRes op))

/-- The loop of `backfill`. -/
def backfillPairs (tenantId : String) (source target : Uuid) :
    List ℕ → Prog Op Res PyException (List ℕ)
  | [] => return []
  | i :: rest => do
    let snapshot ← ask (.snapshotTenant source i tenantId)
    let _ ← ask (.applyChanges target i tenantId (snapshot.2.map (fun e => (e.1, some e.2))))
    let watermarks ← backfillPairs tenantId source target rest
    return snapshot.1 :: watermarks

/-- **`backfill`**, over `pairs` pairs of adapters. -/
def backfill (pairs : ℕ) (tenantId : String) (source target : Uuid) :
    Prog Op Res PyException (List ℕ) :=
  if pairs = 0 then throw (storageMigrationError "STORAGE_MIGRATION_ADAPTERS_UNAVAILABLE")
  else backfillPairs ask tenantId source target (List.range pairs)

/-- The loop of `catch_up`. -/
def catchUpPairs (tenantId : String) (source target : Uuid) :
    List (ℕ × ℕ) → Prog Op Res PyException (List ℕ)
  | [] => return []
  | (i, watermark) :: rest => do
    let feed ← ask (.changesSince source i tenantId watermark)
    let _ ← ask (.applyChanges target i tenantId feed.2)
    let watermarks ← catchUpPairs tenantId source target rest
    return feed.1 :: watermarks

/-- **`catch_up`.** The watermarks stand in the order of the pairs. -/
def catchUp (pairs : ℕ) (tenantId : String) (source target : Uuid) (watermarks : List ℕ) :
    Prog Op Res PyException (List ℕ) :=
  if pairs ≠ watermarks.length then
    throw (storageMigrationError "STORAGE_MIGRATION_CHECKPOINT_INVALID")
  else catchUpPairs ask tenantId source target ((List.range pairs).zip watermarks)

end StorageMigrationExecutor

/-! ## Contents -/

/-- What is left of contents after changes, in order. -/
def replay (held : String → Option Bytes) (changes : List (String × Option Bytes)) :
    String → Option Bytes :=
  changes.foldl (fun h c => Function.update h c.1 c.2) held

@[simp] theorem replay_nil (held : String → Option Bytes) : replay held [] = held := rfl

theorem replay_append (held : String → Option Bytes) (cs cs' : List (String × Option Bytes)) :
    replay held (cs ++ cs') = replay (replay held cs) cs' := by
  unfold replay
  rw [List.foldl_append]

namespace MemoryAdapter

/-- What a change makes of a key. -/
theorem get_applyChange (t t' key : String) (objects : Dictionary (String × String) Bytes)
    (c : String × Option Bytes) :
    (applyChange t objects c).get (t', key)
      = if t' = t ∧ key = c.1 then c.2 else objects.get (t', key) := by
  unfold applyChange
  cases hc : c.2 with
  | none =>
    show (objects.pop (t, c.1)).get (t', key) = _
    rw [Dictionary.get_pop]
    simp only [Prod.mk.injEq]
  | some value =>
    show (objects.set (t, c.1) value).get (t', key) = _
    rw [Dictionary.get_set]
    simp only [Prod.mk.injEq]

/-- **Applying changes replays them** on the contents of their tenant. -/
theorem contents_applyChanges (a : MemoryAdapter) (t : String) (cs : List (String × Option Bytes)) :
    (a.applyChanges t cs).contents t = replay (a.contents t) cs := by
  show (fun key => (cs.foldl (applyChange t) a.objects).get (t, key)) = _
  have hfold : ∀ objects : Dictionary (String × String) Bytes,
      (fun key => (cs.foldl (applyChange t) objects).get (t, key))
        = replay (fun key => objects.get (t, key)) cs := by
    induction cs with
    | nil => exact fun _ => rfl
    | cons c cs ih =>
      intro objects
      rw [List.foldl_cons, ih]
      show replay _ cs = replay (Function.update _ c.1 c.2) cs
      congr 1
      funext key
      rw [get_applyChange, Function.update_apply]
      simp
  exact hfold a.objects

/-- Other tenants are left alone. -/
theorem contents_applyChanges_of_ne (a : MemoryAdapter) {t t' : String} (ht : t' ≠ t)
    (cs : List (String × Option Bytes)) : (a.applyChanges t cs).contents t' = a.contents t' := by
  funext key
  show (cs.foldl (applyChange t) a.objects).get (t', key) = a.objects.get (t', key)
  induction cs generalizing a with
  | nil => rfl
  | cons c cs ih =>
    rw [List.foldl_cons]
    refine (ih { a with objects := applyChange t a.objects c }).trans ?_
    show (applyChange t a.objects c).get (t', key) = _
    rw [get_applyChange, if_neg (fun h => ht h.1)]

/-- A snapshot has each key once. -/
theorem snapshotTenant_keys (a : MemoryAdapter) (t : String) :
    (a.snapshotTenant t).2.Pairwise (fun e e' => e.1 ≠ e'.1) := by
  show ((a.objects.items.filter (fun e => e.1.1 = t)).map (fun e => (e.1.2, e.2))).Pairwise _
  rw [List.pairwise_map]
  have hkeys : (a.objects.items.filter (fun e => e.1.1 = t)).Pairwise (fun e e' => e.1 ≠ e'.1) :=
    (List.pairwise_map.mp a.objects.nodup).sublist List.filter_sublist
  refine hkeys.imp_of_mem (fun {e e'} he he' hne hkey => hne ?_)
  have ht : e.1.1 = t := by simpa using (List.mem_filter.mp he).2
  have ht' : e'.1.1 = t := by simpa using (List.mem_filter.mp he').2
  exact Prod.ext (ht.trans ht'.symm) hkey

/-- **A snapshot replayed on nothing is the contents.** -/
theorem replay_snapshot (a : MemoryAdapter) (t : String) :
    replay (fun _ => none) ((a.snapshotTenant t).2.map (fun e => (e.1, some e.2)))
      = a.contents t := by
  funext key
  refine Option.ext (fun v => ?_)
  show replay _ _ key = some v ↔ a.objects.get (t, key) = some v
  rw [replay_puts (a.snapshotTenant_keys t), Dictionary.get_eq_some_iff]
  simp only [snapshotTenant, List.mem_map, List.mem_filter, decide_eq_true_eq]
  constructor
  · rintro (⟨⟨⟨t', k⟩, v'⟩, ⟨hmem, rfl⟩, heq⟩ | h)
    · obtain ⟨rfl, rfl⟩ := Prod.mk.inj heq
      exact hmem
    · cases h.2
  · intro hmem
    exact .inl ⟨((t, key), v), ⟨hmem, rfl⟩, rfl⟩
where
  /-- Putting entries with distinct keys gives exactly these. -/
  replay_puts {entries : List (String × Bytes)} (h : entries.Pairwise (fun e e' => e.1 ≠ e'.1))
      {held : String → Option Bytes} {key : String} {v : Bytes} :
      replay held (entries.map (fun e => (e.1, some e.2))) key = some v
        ↔ (key, v) ∈ entries ∨ ((∀ e ∈ entries, e.1 ≠ key) ∧ held key = some v) := by
    induction entries generalizing held with
    | nil => simp
    | cons e entries ih =>
      obtain ⟨hhead, htail⟩ := List.pairwise_cons.mp h
      show replay (Function.update held e.1 (some e.2)) (entries.map _) key = some v ↔ _
      rw [ih htail, Function.update_apply]
      by_cases hkey : key = e.1
      · rw [if_pos hkey]
        constructor
        · rintro (hmem | ⟨-, hv⟩)
          · exact .inl (List.mem_cons_of_mem e hmem)
          · exact .inl (by rw [← Option.some.inj hv, hkey]; exact List.mem_cons_self)
        · rintro (hmem | ⟨hne, -⟩)
          · rcases List.mem_cons.mp hmem with heq | hmem
            · refine .inr ⟨fun e' he' hk => hhead e' he' (hk.trans hkey).symm, ?_⟩
              rw [← heq]
            · exact .inl hmem
          · exact absurd hkey.symm (hne e List.mem_cons_self)
      · rw [if_neg hkey]
        constructor
        · rintro (hmem | ⟨hne, hv⟩)
          · exact .inl (List.mem_cons_of_mem e hmem)
          · refine .inr ⟨fun e' he' => ?_, hv⟩
            rcases List.mem_cons.mp he' with rfl | he'
            · exact fun hk => hkey hk.symm
            · exact hne e' he'
        · rintro (hmem | ⟨hne, hv⟩)
          · rcases List.mem_cons.mp hmem with heq | hmem
            · exact absurd (congrArg Prod.fst heq) hkey
            · exact .inl hmem
          · exact .inr ⟨fun e' he' => hne e' (List.mem_cons_of_mem e he'), hv⟩

/-! ## Other tenants -/

/-- The entries of a tenant are those of its keys. -/
theorem snapshotTenant_eq_of_items {a b : MemoryAdapter} {t : String}
    (h : a.objects.items.filter (fun e => e.1.1 = t)
      = b.objects.items.filter (fun e => e.1.1 = t)) :
    (a.snapshotTenant t).2 = (b.snapshotTenant t).2 := by
  show List.map _ _ = List.map _ _
  rw [h]

/-- **What an operation on one tenant leaves of another.** -/
theorem snapshotTenant_put_of_ne (a : MemoryAdapter) {t t' : String} (ht : t' ≠ t) (key : String)
    (value : Bytes) : ((a.put t key value).snapshotTenant t').2 = (a.snapshotTenant t').2 :=
  snapshotTenant_eq_of_items (a.objects.filter_items_set value (p := fun k => k.1 = t')
    (decide_eq_false (fun h => ht h.symm)))

theorem snapshotTenant_eraseTenant_of_ne (a : MemoryAdapter) {t t' : String} (ht : t' ≠ t) :
    ((a.eraseTenant t).2.snapshotTenant t').2 = (a.snapshotTenant t').2 := by
  refine snapshotTenant_eq_of_items (a.objects.filter_items_filterKeys (p := fun k => k.1 = t')
    (fun k hk => decide_eq_true (fun h => ht ?_)))
  rw [← h]
  exact (of_decide_eq_true hk).symm

theorem snapshotTenant_applyChanges_of_ne (a : MemoryAdapter) {t t' : String} (ht : t' ≠ t)
    (cs : List (String × Option Bytes)) :
    ((a.applyChanges t cs).snapshotTenant t').2 = (a.snapshotTenant t').2 := by
  refine snapshotTenant_eq_of_items ?_
  show (cs.foldl (applyChange t) a.objects).items.filter _ = _
  induction cs generalizing a with
  | nil => rfl
  | cons c cs ih =>
    rw [List.foldl_cons]
    refine (ih { a with objects := applyChange t a.objects c }).trans ?_
    show (applyChange t a.objects c).items.filter _ = _
    unfold applyChange
    cases c.2 with
    | none =>
      refine a.objects.filter_items_filterKeys (p := fun k => k.1 = t') (fun k hk => ?_)
      refine decide_eq_true (fun h => ht ?_)
      rw [← of_decide_eq_true hk, h]
    | some value =>
      exact a.objects.filter_items_set value (p := fun k => k.1 = t')
        (decide_eq_false (fun h => ht h.symm))

end MemoryAdapter
