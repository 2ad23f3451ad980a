import AgentPlatform.StorageAdapters

/-!
# A snapshot and the change feed after it

A migration runs `backfill` and then `catch_up` any number of times, each from the
watermarks of the one before, while tenants go on writing to the source: between
any two requests of the migration, any operation may reach any source adapter.
When a `catch_up` has returned and its source has had no operation since, the
target holds what the source holds.
-/

/-- An operation of the business on an adapter. -/
inductive AdapterWrite where
  | put (tenantId key : String) (value : Bytes)
  | eraseTenant (tenantId : String)

namespace AdapterWrite

/-- The effect of an operation. -/
def apply : AdapterWrite → MemoryAdapter → MemoryAdapter
  | .put t key value, a => a.put t key value
  | .eraseTenant t, a => (a.eraseTenant t).2

/-- The tenant that makes it. -/
def tenantId : AdapterWrite → String
  | .put t _ _ => t
  | .eraseTenant t => t

/-- The changes it records. -/
def recorded : AdapterWrite → MemoryAdapter → List (String × Option Bytes)
  | .put _ key value, _ => [(key, some value)]
  | .eraseTenant t, a => (a.keys t).map (fun key => (key, none))

/-- **Every operation raises the watermark.** -/
theorem watermark_apply (w : AdapterWrite) (a : MemoryAdapter) :
    (w.apply a).watermark = a.watermark + 1 := by
  cases w <;> rfl

theorem changes_apply (w : AdapterWrite) (a : MemoryAdapter) :
    (w.apply a).changes
      = a.changes ++ (w.recorded a).map (fun c => ⟨a.watermark + 1, w.tenantId, c.1, c.2⟩) := by
  cases w <;> rfl

/-- **What an operation makes of the contents is what it records.** -/
theorem contents_apply (w : AdapterWrite) (a : MemoryAdapter) (t : String) :
    (w.apply a).contents t
      = if w.tenantId = t then replay (a.contents t) (w.recorded a) else a.contents t := by
  funext key
  cases w with
  | put t' k v =>
    show (a.objects.set (t', k) v).get (t, key) = (if t' = t then replay (a.contents t)
      [(k, some v)] else a.contents t) key
    rw [Dictionary.get_set]
    by_cases ht : t' = t
    · rw [if_pos ht]
      show _ = Function.update (a.contents t) k (some v) key
      rw [Function.update_apply]
      simp only [Prod.mk.injEq, ht, true_and]
      rfl
    · rw [if_neg ht, if_neg (fun h => ht (Prod.mk.inj h).1.symm)]
      rfl
  | eraseTenant t' =>
    show (a.objects.filterKeys (fun k => k.1 ≠ t')).get (t, key) = (if t' = t then
      replay (a.contents t) ((a.keys t').map (fun key => (key, none))) else a.contents t) key
    rw [Dictionary.get_filterKeys]
    by_cases ht : t' = t
    · subst ht
      rw [if_pos rfl]
      show _ = replay (a.contents t') ((a.keys t').map (fun key => (key, none))) key
      rw [replay_removals]
      by_cases hkey : key ∈ a.keys t'
      · simp [hkey]
      · rw [if_neg hkey]
        simp only [ne_eq, decide_not, decide_true, Bool.not_true, Bool.false_eq_true, if_false]
        refine (Option.eq_none_iff_forall_not_mem.mpr (fun v hv => hkey ?_)).symm
        have hmem := Dictionary.get_eq_some_iff.mp (show a.objects.get (t', key) = some v from hv)
        exact List.mem_map.mpr ⟨((t', key), v), List.mem_filter.mpr ⟨hmem, by simp⟩, rfl⟩
    · rw [if_neg ht]
      have htest : decide (t ≠ t') = true := decide_eq_true (fun h => ht h.symm)
      rw [if_pos htest]
      rfl
where
  /-- Removing keys. -/
  replay_removals (held : String → Option Bytes) (keys : List String) (key : String) :
      replay held (keys.map (fun k => (k, none))) key = if key ∈ keys then none else held key := by
    induction keys generalizing held with
    | nil => simp
    | cons k keys ih =>
      show replay (Function.update held k none) (keys.map _) key = _
      rw [ih, Function.update_apply]
      by_cases hk : key = k <;> by_cases hmem : key ∈ keys <;> simp [hk, hmem]

/-- **The feed after a watermark grows by what an operation records.** -/
theorem changesSince_apply (w : AdapterWrite) (a : MemoryAdapter) (t : String) {wm : ℕ}
    (h : wm ≤ a.watermark) :
    ((w.apply a).changesSince t wm).2
      = (a.changesSince t wm).2 ++ if w.tenantId = t then w.recorded a else [] := by
  show ((w.apply a).changes.filter _).map _ = (a.changes.filter _).map _ ++ _
  rw [changes_apply, List.filter_append, List.map_append]
  congr 1
  rw [List.filter_map, List.map_map]
  have hlt : wm < a.watermark + 1 := Nat.lt_succ_of_le h
  by_cases ht : w.tenantId = t
  · rw [if_pos ht, List.filter_eq_self.mpr (fun c _ => by simp [ht, hlt])]
    exact List.map_id _
  · rw [if_neg ht, List.filter_eq_nil_iff.mpr (fun c _ => by simp [ht])]
    rfl

end AdapterWrite

/-! ## Behind a source -/

/-- **What is held is behind a source by what its feed has after a watermark.** -/
def Behind (t : String) (a : MemoryAdapter) (held : String → Option Bytes) (wm : ℕ) : Prop :=
  wm ≤ a.watermark ∧ replay held (a.changesSince t wm).2 = a.contents t

namespace Behind

variable {t : String} {a : MemoryAdapter} {held : String → Option Bytes} {wm : ℕ}

/-- The feed has nothing after the present watermark. -/
theorem changesSince_watermark (a : MemoryAdapter) (t : String) :
    (a.changesSince t a.watermark).2 = [] := by
  show (a.changes.filter _).map _ = []
  rw [List.filter_eq_nil_iff.mpr, List.map_nil]
  intro c hc
  have := a.recorded c hc
  simp only [decide_eq_true_eq, not_and, Nat.not_lt]
  exact fun _ => this

/-- An operation on the source keeps what is behind it. -/
theorem write (h : Behind t a held wm) (w : AdapterWrite) : Behind t (w.apply a) held wm := by
  refine ⟨?_, ?_⟩
  · rw [w.watermark_apply]
    exact Nat.le_succ_of_le h.1
  · rw [w.changesSince_apply a t h.1, replay_append, h.2, w.contents_apply]
    split
    · rfl
    · rw [replay_nil]

/-- A snapshot is behind by nothing. -/
theorem snapshot (a : MemoryAdapter) (t : String) : Behind t a (a.contents t) a.watermark := by
  refine ⟨Nat.le_refl _, ?_⟩
  rw [changesSince_watermark, replay_nil]

/-- Replaying the feed catches up. -/
theorem catchUp (h : Behind t a held wm) :
    Behind t a (replay held (a.changesSince t wm).2) a.watermark := by
  rw [h.2]
  exact snapshot a t

/-- **Behind by nothing is the same contents.** -/
theorem eq_contents (h : Behind t a held wm) (hwm : a.watermark = wm) : held = a.contents t := by
  rw [← h.2, ← hwm, changesSince_watermark, replay_nil]

end Behind

/-! ## The migration -/

/-- `catch_up` again and again. -/
def catchUps (pairs : ℕ) (t : String) (source target : Uuid) :
    ℕ → List ℕ → Prog AdapterOp AdapterRes PyException (List ℕ)
  | 0, watermarks => return watermarks
  | rounds + 1, watermarks => do
    let next ← StorageMigrationExecutor.catchUp Prog.perform pairs t source target watermarks
    catchUps pairs t source target rounds next

/-- **`backfill`, then `catch_up` some number of times.** -/
def replicateTenant (pairs : ℕ) (t : String) (source target : Uuid) (rounds : ℕ) :
    Prog AdapterOp AdapterRes PyException (List ℕ) := do
  let watermarks ← StorageMigrationExecutor.backfill Prog.perform pairs t source target
  catchUps pairs t source target rounds watermarks

/-- An operation on an adapter of the source profile. -/
structure SourceWrite where
  index : ℕ
  write : AdapterWrite

/-- Its effect. -/
def SourceWrite.apply (source : Uuid) (w : SourceWrite) (s : AdapterStores) : AdapterStores :=
  s.set source w.index (w.write.apply (s source w.index))

/-- The adapters answer at once. -/
def adapterHandler (op : AdapterOp) (s : AdapterStores) :
    Except PyException (AdapterRes op) × AdapterStores :=
  (.ok (op.serve s).1, (op.serve s).2)

/-- **The migration among operations on its source.** -/
def replicationMachine (pairs : ℕ) (t : String) (source target : Uuid) (rounds : ℕ)
    (s₀ : AdapterStores) :=
  Prog.alongside adapterHandler (SourceWrite.apply source) (fun s => s = s₀)
    (replicateTenant pairs t source target rounds)

section Migration

variable {t : String} {source target : Uuid} {s₀ s s' : AdapterStores}

@[simp] theorem AdapterStores.set_self (s : AdapterStores) (p : Uuid) (i : ℕ) (a : MemoryAdapter) :
    s.set p i a p i = a := by
  simp [AdapterStores.set]

theorem AdapterStores.set_of_ne (s : AdapterStores) {p p' : Uuid} {i i' : ℕ} (a : MemoryAdapter)
    (h : ¬ (p' = p ∧ i' = i)) : s.set p i a p' i' = s p' i' := if_neg h

/-- **What operations on the source do**: they leave the other profiles alone, and
what is behind a source adapter stays so. -/
structure SourceMoves (source : Uuid) (s s' : AdapterStores) : Prop where
  other : ∀ p i, p ≠ source → s' p i = s p i
  behind : ∀ i t held wm, Behind t (s source i) held wm → Behind t (s' source i) held wm

theorem SourceMoves.refl (source : Uuid) (s : AdapterStores) : SourceMoves source s s :=
  ⟨fun _ _ _ => rfl, fun _ _ _ _ h => h⟩

theorem SourceMoves.trans {a b c : AdapterStores} (h : SourceMoves source a b)
    (h' : SourceMoves source b c) : SourceMoves source a c :=
  ⟨fun p i hp => (h'.other p i hp).trans (h.other p i hp),
    fun i t held wm hb => h'.behind i t held wm (h.behind i t held wm hb)⟩

theorem SourceMoves.of_write (w : SourceWrite) (s : AdapterStores) :
    SourceMoves source s (w.apply source s) := by
  refine ⟨fun p i hp => s.set_of_ne _ (fun h => hp h.1), fun i t held wm hb => ?_⟩
  by_cases hi : i = w.index
  · subst hi
    show Behind t (s.set source w.index _ source w.index) held wm
    rw [AdapterStores.set_self]
    exact hb.write w.write
  · show Behind t (s.set source w.index _ source i) held wm
    rw [s.set_of_ne _ (fun h => hi h.2)]
    exact hb

/-- **The state of a migration**: the pairs in `done` are behind by what comes after
their watermark, the targets in `empty` hold nothing of the tenant, and those of
other tenants have not changed. -/
structure Replicating (t : String) (source target : Uuid) (s₀ : AdapterStores)
    (done : List (ℕ × ℕ)) (empty : List ℕ) (s : AdapterStores) : Prop where
  behind : ∀ p ∈ done, Behind t (s source p.1) ((s target p.1).contents t) p.2
  empty : ∀ i ∈ empty, (s target i).contents t = fun _ => none
  others : ∀ i t', t' ≠ t → (s target i).contents t' = (s₀ target i).contents t'

theorem Replicating.moves (hne : target ≠ source) {done : List (ℕ × ℕ)} {empty : List ℕ}
    (h : Replicating t source target s₀ done empty s) (hm : SourceMoves source s s') :
    Replicating t source target s₀ done empty s' := by
  refine ⟨fun p hp => ?_, fun i hi => ?_, fun i t' ht' => ?_⟩
  · rw [hm.other target p.1 hne]
    exact hm.behind p.1 t _ p.2 (h.behind p hp)
  · rw [hm.other target i hne]
    exact h.empty i hi
  · rw [hm.other target i hne]
    exact h.others i t' ht'

/-- Changes applied to one target bring its pair up to a watermark. -/
theorem Replicating.apply (hne : target ≠ source) {done : List (ℕ × ℕ)} {empty : List ℕ}
    (h : Replicating t source target s₀ done empty s) {i w : ℕ} (hdone : i ∉ done.map Prod.fst)
    (hempty : i ∉ empty) {cs : List (String × Option Bytes)}
    (hbehind : Behind t (s source i) (replay ((s target i).contents t) cs) w) :
    Replicating t source target s₀ (done ++ [(i, w)]) empty
      (s.set target i ((s target i).applyChanges t cs)) := by
  have hother : ∀ j, j ≠ i →
      s.set target i ((s target i).applyChanges t cs) target j = s target j :=
    fun j hj => s.set_of_ne _ (fun hx => hj hx.2)
  have hsource : ∀ j, s.set target i ((s target i).applyChanges t cs) source j = s source j :=
    fun j => s.set_of_ne _ (fun hx => hne hx.1.symm)
  refine ⟨fun p hp => ?_, fun j hj => ?_, fun j t' ht' => ?_⟩
  · rcases List.mem_append.mp hp with hp | hp
    · have hpi : p.1 ≠ i := fun hpi => hdone (hpi ▸ List.mem_map_of_mem hp)
      rw [hsource, hother p.1 hpi]
      exact h.behind p hp
    · rw [List.mem_singleton.mp hp]
      show Behind t (_ : MemoryAdapter) _ w
      rw [hsource, AdapterStores.set_self, MemoryAdapter.contents_applyChanges]
      exact hbehind
  · rw [hother j (fun hji => hempty (hji ▸ hj))]
    exact h.empty j hj
  · by_cases hji : j = i
    · rw [hji, AdapterStores.set_self, MemoryAdapter.contents_applyChanges_of_ne _ ht']
      exact h.others i t' ht'
    · rw [hother j hji]
      exact h.others j t' ht'

/-- A program of the migration leaves this, if it returns. -/
abbrev Replicates (source : Uuid) {α : Type} (p : Prog AdapterOp AdapterRes PyException α)
    (Φ : α → AdapterStores → Prop) (s : AdapterStores) : Prop :=
  p.Safe (fun op s r s' => adapterHandler op s = (r, s')) (SourceMoves source) (fun _ _ => True)
    (Prog.outcome Φ (fun _ _ => True)) s

/-- **Request rule.** -/
theorem replicates_ask {op : AdapterOp} {Φ : AdapterRes op → AdapterStores → Prop}
    (h : ∀ s₁, SourceMoves source s s₁ → Φ (op.serve s₁).1 (op.serve s₁).2) :
    Replicates source (Prog.perform op) Φ s := by
  refine (Prog.safe_perform _ _ _).mpr (fun s₁ hm r s₂ hserve => ⟨trivial, ?_⟩)
  obtain ⟨rfl, rfl⟩ := Prod.mk.inj hserve
  exact h s₁ hm

/-- **The loop of `backfill`.** -/
theorem replicates_backfillPairs (hne : target ≠ source) {is : List ℕ} {done : List (ℕ × ℕ)}
    (hnodup : (done.map Prod.fst ++ is).Nodup)
    (h : Replicating t source target s₀ done is s) :
    Replicates source (StorageMigrationExecutor.backfillPairs Prog.perform t source target is)
      (fun ws s' => ws.length = is.length
        ∧ Replicating t source target s₀ (done ++ is.zip ws) [] s') s := by
  induction is generalizing done s with
  | nil => exact ⟨rfl, by simpa using h⟩
  | cons i is ih =>
    obtain ⟨-, hrest, hdisj⟩ := List.nodup_append.mp hnodup
    have hi : i ∉ done.map Prod.fst := fun hmem => hdisj i hmem i List.mem_cons_self rfl
    have hsnapshot : Replicates source (Prog.perform (AdapterOp.snapshotTenant source i t))
        (fun snapshot s₁ => Replicating t source target s₀ done (i :: is) s₁
          ∧ Behind t (s₁ source i) (replay (fun _ => none)
            (snapshot.2.map (fun e => (e.1, some e.2)))) snapshot.1) s := by
      refine replicates_ask (fun s₁ hm => ⟨h.moves hne hm, ?_⟩)
      show Behind t (s₁ source i) (replay _ (((s₁ source i).snapshotTenant t).2.map _)) _
      rw [MemoryAdapter.replay_snapshot]
      exact Behind.snapshot _ t
    refine Prog.Safe.bind hsnapshot (fun snapshot s₁ hs₁ => ?_) (fun _ _ h => h)
    have happly : Replicates source (Prog.perform (AdapterOp.applyChanges target i t
          (snapshot.2.map (fun e => (e.1, some e.2)))))
        (fun _ s₂ => Replicating t source target s₀ (done ++ [(i, snapshot.1)]) is s₂) s₁ := by
      refine replicates_ask (fun s₂ hm => ?_)
      have hrep := hs₁.1.moves hne hm
      have hkeep : Replicating t source target s₀ done is s₂ :=
        ⟨hrep.behind, fun j hj => hrep.empty j (List.mem_cons_of_mem i hj), hrep.others⟩
      refine hkeep.apply hne hi (List.nodup_cons.mp hrest).1 ?_
      rw [hrep.empty i List.mem_cons_self]
      exact hm.behind i t _ _ hs₁.2
    refine Prog.Safe.bind happly (fun _ s₂ hs₂ => ?_) (fun _ _ h => h)
    have hnodup' : ((done ++ [(i, snapshot.1)]).map Prod.fst ++ is).Nodup := by
      simpa using hnodup
    refine Prog.Safe.bind (ih hnodup' hs₂) (fun ws s₃ hs₃ => ?_) (fun _ _ h => h)
    exact ⟨by rw [List.length_cons, List.length_cons, hs₃.1], by simpa using hs₃.2⟩

/-- **The loop of `catch_up`.** -/
theorem replicates_catchUpPairs (hne : target ≠ source) {todo done : List (ℕ × ℕ)}
    (hnodup : ((done ++ todo).map Prod.fst).Nodup)
    (h : Replicating t source target s₀ (done ++ todo) [] s) :
    Replicates source (StorageMigrationExecutor.catchUpPairs Prog.perform t source target todo)
      (fun ws s' => ws.length = todo.length
        ∧ Replicating t source target s₀ (done ++ (todo.map Prod.fst).zip ws) [] s') s := by
  induction todo generalizing done s with
  | nil => exact ⟨rfl, by simpa using h⟩
  | cons p todo ih =>
    obtain ⟨i, w⟩ := p
    have hsplit : (done.map Prod.fst ++ i :: todo.map Prod.fst).Nodup := by simpa using hnodup
    obtain ⟨-, hrest, hdisj⟩ := List.nodup_append.mp hsplit
    have hi : i ∉ (done ++ todo).map Prod.fst := by
      rw [List.map_append, List.mem_append]
      rintro (hmem | hmem)
      · exact hdisj i hmem i List.mem_cons_self rfl
      · exact (List.nodup_cons.mp hrest).1 hmem
    have hfeed : Replicates source (Prog.perform (AdapterOp.changesSince source i t w))
        (fun feed s₁ => Replicating t source target s₀ (done ++ (i, w) :: todo) [] s₁
          ∧ Behind t (s₁ source i) (replay ((s₁ target i).contents t) feed.2) feed.1) s := by
      refine replicates_ask (fun s₁ hm => ?_)
      have hrep := h.moves hne hm
      exact ⟨hrep, (hrep.behind (i, w) (by simp)).catchUp⟩
    refine Prog.Safe.bind hfeed (fun feed s₁ hs₁ => ?_) (fun _ _ h => h)
    have happly : Replicates source (Prog.perform (AdapterOp.applyChanges target i t feed.2))
        (fun _ s₂ => Replicating t source target s₀ ((done ++ todo) ++ [(i, feed.1)]) [] s₂)
        s₁ := by
      refine replicates_ask (fun s₂ hm => ?_)
      have hrep := hs₁.1.moves hne hm
      have hkeep : Replicating t source target s₀ (done ++ todo) [] s₂ := by
        refine ⟨fun p hp => hrep.behind p ?_, hrep.empty, hrep.others⟩
        rcases List.mem_append.mp hp with hp | hp
        · exact List.mem_append_left _ hp
        · exact List.mem_append_right _ (List.mem_cons_of_mem _ hp)
      refine hkeep.apply hne hi List.not_mem_nil ?_
      rw [hm.other target i hne]
      exact hm.behind i t _ _ hs₁.2
    refine Prog.Safe.bind happly (fun _ s₂ hs₂ => ?_) (fun _ _ h => h)
    have hs₂' : Replicating t source target s₀ ((done ++ [(i, feed.1)]) ++ todo) [] s₂ := by
      refine ⟨fun p hp => hs₂.behind p ?_, hs₂.empty, hs₂.others⟩
      simp only [List.mem_append, List.mem_singleton] at hp ⊢
      tauto
    have hnodup' : (((done ++ [(i, feed.1)]) ++ todo).map Prod.fst).Nodup := by
      simpa using hnodup
    refine Prog.Safe.bind (ih hnodup' hs₂') (fun ws s₃ hs₃ => ?_) (fun _ _ h => h)
    exact ⟨by rw [List.length_cons, List.length_cons, hs₃.1], by simpa using hs₃.2⟩

/-- The pairs of a migration with their watermarks. -/
def watermarked (ws : List ℕ) : List (ℕ × ℕ) := (List.range ws.length).zip ws

theorem map_fst_watermarked (ws : List ℕ) : (watermarked ws).map Prod.fst
    = List.range ws.length := by
  unfold watermarked
  rw [List.map_fst_zip]
  simp

/-- **`catch_up`, any number of times.** -/
theorem replicates_catchUps (hne : target ≠ source) {pairs rounds : ℕ} {ws : List ℕ}
    (hlen : ws.length = pairs) (h : Replicating t source target s₀ (watermarked ws) [] s) :
    Replicates source (catchUps pairs t source target rounds ws)
      (fun ws' s' => ws'.length = pairs
        ∧ Replicating t source target s₀ (watermarked ws') [] s') s := by
  induction rounds generalizing ws s with
  | zero => exact ⟨hlen, h⟩
  | succ rounds ih =>
    have hcatch : StorageMigrationExecutor.catchUp Prog.perform pairs t source target ws
        = StorageMigrationExecutor.catchUpPairs Prog.perform t source target (watermarked ws) := by
      unfold StorageMigrationExecutor.catchUp watermarked
      rw [if_neg (by simp [hlen]), hlen]
    show Replicates source (Prog.bind (StorageMigrationExecutor.catchUp Prog.perform pairs t source
      target ws) _) _ s
    rw [hcatch]
    have hnodup : (([] ++ watermarked ws).map Prod.fst).Nodup := by
      rw [List.nil_append, map_fst_watermarked]
      exact List.nodup_range
    refine Prog.Safe.bind (replicates_catchUpPairs hne hnodup (by simpa using h))
      (fun ws' s' hs' => ?_) (fun _ _ h => h)
    have hlen' : ws'.length = ws.length := by
      rw [hs'.1]
      simp [watermarked]
    refine ih (hlen'.trans hlen) ?_
    have hzip := hs'.2
    rw [List.nil_append, map_fst_watermarked, ← hlen'] at hzip
    exact hzip

/-- **The whole migration.** -/
theorem replicates_replicateTenant (hne : target ≠ source) {pairs : ℕ} (rounds : ℕ)
    (hempty : ∀ i < pairs, (s₀ target i).contents t = fun _ => none) :
    Replicates source (replicateTenant pairs t source target rounds)
      (fun ws s => ws.length = pairs ∧ Replicating t source target s₀ (watermarked ws) [] s)
        s₀ := by
  show Replicates source (Prog.bind (StorageMigrationExecutor.backfill Prog.perform pairs t source
    target) _) _ s₀
  unfold StorageMigrationExecutor.backfill
  split
  · trivial
  · have hstart : Replicating t source target s₀ [] (List.range pairs) s₀ :=
      ⟨fun p hp => absurd hp List.not_mem_nil, fun i hi => hempty i (List.mem_range.mp hi),
        fun _ _ _ => rfl⟩
    refine Prog.Safe.bind (replicates_backfillPairs hne (by simpa using List.nodup_range) hstart)
      (fun ws s hs => ?_) (fun _ _ h => h)
    have hlen : ws.length = pairs := by simpa using hs.1
    refine replicates_catchUps hne hlen ?_
    have hzip := hs.2
    rw [List.nil_append, ← hlen] at hzip
    exact hzip

/-- **A snapshot and the change feed after it give the source**: in every run of a
migration among operations of any tenants on its source, when the migration has
returned its watermarks, a target whose source has had no operation since holds
what the source holds for the tenant, and what it held for other tenants. -/
theorem replication_converges (pairs : ℕ) (t : String) {source target : Uuid}
    (hne : target ≠ source) (rounds : ℕ) {s₀ : AdapterStores}
    (hempty : ∀ i < pairs, (s₀ target i).contents t = fun _ => none)
    {x : AdapterStores × Prog AdapterOp AdapterRes PyException (List ℕ)}
    (h : (replicationMachine pairs t source target rounds s₀).Reach Machine.anyStep x)
    {ws : List ℕ} (hdone : x.2 = .ret ws) :
    (∀ i w, (i, w) ∈ watermarked ws → (x.1 source i).watermark = w →
      (x.1 target i).contents t = (x.1 source i).contents t)
    ∧ ws.length = pairs
    ∧ ∀ i t', t' ≠ t → (x.1 target i).contents t' = (s₀ target i).contents t' := by
  have hsafe := Prog.alongside_safe (SourceMoves.refl source)
    (fun _ _ _ => SourceMoves.trans) (fun w s => SourceMoves.of_write w s)
    (Q := Prog.outcome (fun ws s => ws.length = pairs
      ∧ Replicating t source target s₀ (watermarked ws) [] s) (fun _ _ => True))
    (fun r s s' hr hm => ?_)
    (fun s hs => by
      rw [show s = s₀ from hs]
      exact replicates_replicateTenant hne rounds hempty) h
  · rw [hdone] at hsafe
    obtain ⟨hlen, hrep⟩ := hsafe
    exact ⟨fun i w hmem hwm => (hrep.behind (i, w) hmem).eq_contents hwm, hlen, hrep.others⟩
  · cases r with
    | ok ws => exact ⟨hr.1, hr.2.moves hne hm⟩
    | error e => trivial

end Migration

/-! ## A tenant moves -/

/-- The source has an object of the tenant and one of another. -/
def seededStores : AdapterStores := fun p _ =>
  if p = 1 then (MemoryAdapter.new.put "a" "x" [1]).put "b" "x" [9] else MemoryAdapter.new

/-- The tenant writes after the snapshot, is erased, and writes again. -/
def replicationRun : List (Option SourceWrite) :=
  [none, some ⟨0, .put "a" "y" [2]⟩, none, some ⟨0, .eraseTenant "a"⟩,
    some ⟨0, .put "a" "z" [3]⟩, none, none]

/-- After one `catch_up` the target has what is left at the source. -/
theorem replication_converges_sample :
    ∃ x ws, (replicationMachine 1 "a" 1 2 1 seededStores).Reach Machine.anyStep x
      ∧ x.2 = .ret ws ∧ (x.1 2 0).contents "a" = (x.1 1 0).contents "a"
      ∧ (x.1 2 0).contents "a" "z" = some [3] := by
  have hrun : ((replicationMachine 1 "a" 1 2 1 seededStores).run
      (seededStores, replicateTenant 1 "a" 1 2 1) replicationRun).map
      (fun x => match x.2 with
        | .ret ws => decide (ws = [5] ∧ (x.1 1 0).watermark = 5
          ∧ (x.1 2 0).contents "a" "z" = some [3])
        | _ => false) = some true := by
    decide +kernel
  obtain ⟨x, hx, htest⟩ := Machine.reach_of_run (M := replicationMachine 1 "a" 1 2 1 seededStores)
    ⟨rfl, rfl⟩ hrun
  cases hx2 : x.2 with
  | ret ws =>
    rw [hx2] at htest
    obtain ⟨rfl, hwm, hz⟩ := of_decide_eq_true htest
    have hresult := replication_converges 1 "a" (by decide) 1
      (fun i _ => rfl) hx hx2
    exact ⟨x, [5], hx, hx2, hresult.1 0 5 (by decide) hwm, hz⟩
  | raise e =>
    rw [hx2] at htest
    cases htest
  | call op k =>
    rw [hx2] at htest
    cases htest
