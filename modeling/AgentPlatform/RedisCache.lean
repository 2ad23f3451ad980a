import AgentPlatform.Interleaving
import AgentPlatform.StorageAdapters

/-!
# A cache beside its authority

The embedding of `RedisCacheAdapter` of `storage.py`. Each method goes to the
authority and to the cache in two steps with an `await` between them: `put` writes
the authority first, `get` fills the cache with what the authority answered, and
`erase_tenant` empties the cache before the authority. Other calls run in between.

A value can be overtaken on its way into the cache, and a tenant can be cached
again before the authority has erased it. `cache_coherent` says that nothing else
goes wrong.
-/

/-- The key of an object: its tenant, and its key there. -/
abbrev ObjectKey := String × String

/-- **What the methods do**, step by step. -/
inductive CacheOp where
  /-- `self._cache.get(...)`. -/
  | cacheGet (key : ObjectKey)
  /-- `self._cache[...] = value`. -/
  | cacheSet (key : ObjectKey) (value : Bytes)
  /-- The entries of a tenant are deleted from the cache. -/
  | cacheDrop (tenantId : String)
  /-- `put` of the authority. -/
  | put (key : ObjectKey) (value : Bytes)
  /-- `get` of the authority. -/
  | get (key : ObjectKey)
  /-- `erase_tenant` of the authority. -/
  | eraseTenant (tenantId : String)

/-- The answers. -/
abbrev CacheRes : CacheOp → Type
  | .cacheGet _ => Option Bytes
  | .cacheSet .. => Unit
  | .cacheDrop _ => ℕ
  | .put .. => Unit
  | .get _ => Option Bytes
  | .eraseTenant _ => ℕ

/-- A program of the adapter. -/
abbrev CacheProg (α : Type) := Prog CacheOp CacheRes PyException α

/-- Issue one step. -/
abbrev CacheOp.ask (op : CacheOp) : CacheProg (CacheRes op) := Prog.perform op

namespace RedisCacheAdapter

/-- **`put`.** -/
def put (key : ObjectKey) (value : Bytes) : CacheProg Unit := do
  let _ ← CacheOp.ask (.put key value)
  CacheOp.ask (.cacheSet key value)

/-- **`get`.** -/
def get (key : ObjectKey) : CacheProg (Option Bytes) := do
  match ← CacheOp.ask (.cacheGet key) with
  | some cached => return some cached
  | none =>
    match ← CacheOp.ask (.get key) with
    | some value =>
      let _ ← CacheOp.ask (.cacheSet key value)
      return some value
    | none => return none

/-- **`erase_tenant`.** -/
def eraseTenant (tenantId : String) : CacheProg ℕ := do
  let cached ← CacheOp.ask (.cacheDrop tenantId)
  let erased ← CacheOp.ask (.eraseTenant tenantId)
  return max cached erased

end RedisCacheAdapter

/-- A call of the adapter. -/
inductive CacheCall where
  | put (key : ObjectKey) (value : Bytes)
  | get (key : ObjectKey)
  | eraseTenant (tenantId : String)

/-- What a call returns. -/
inductive CacheAnswer where
  | done
  | value (value : Option Bytes)
  | erased (count : ℕ)

/-- The program of a call. -/
def CacheCall.body : CacheCall → CacheProg CacheAnswer
  | .put key value => (RedisCacheAdapter.put key value).bind (fun _ => .ret .done)
  | .get key => (RedisCacheAdapter.get key).bind (fun v => .ret (.value v))
  | .eraseTenant tenantId =>
    (RedisCacheAdapter.eraseTenant tenantId).bind (fun n => .ret (.erased n))

/-- **The state**: what the authority and the cache hold. A call that has put a key
at the authority, and not yet in the cache, is `writing` it. -/
structure CacheState where
  authority : Dictionary ObjectKey Bytes
  cache : Dictionary ObjectKey Bytes
  writing : ℕ → Option ObjectKey

/-- **One step of the call running as `pid`.** The authority may fail, and then does
nothing. -/
def cacheHandler (pid : ℕ) (failure : Option PyException) : (op : CacheOp) → CacheState →
    Option (Except PyException (CacheRes op) × CacheState)
  | .cacheGet key, s => some (.ok (s.cache.get key), s)
  | .cacheSet key value, s => some (.ok (), { s with
      cache := s.cache.set key value
      writing := Function.update s.writing pid none })
  | .cacheDrop tenantId, s => some (.ok (s.cache.items.countP (fun e => e.1.1 = tenantId)),
      { s with cache := s.cache.filterKeys (fun key => key.1 ≠ tenantId) })
  | .put key value, s =>
    match failure with
    | some e => some (.error e, s)
    | none => some (.ok (), { s with
        authority := s.authority.set key value
        writing := Function.update s.writing pid (some key) })
  | .get key, s =>
    match failure with
    | some e => some (.error e, s)
    | none => some (.ok (s.authority.get key), s)
  | .eraseTenant tenantId, s =>
    match failure with
    | some e => some (.error e, s)
    | none => some (.ok (s.authority.items.countP (fun e => e.1.1 = tenantId)),
        { s with authority := s.authority.filterKeys (fun key => key.1 ≠ tenantId) })

/-- **Any number of calls on one adapter.** A call that is cancelled leaves things
as they are. -/
def redisCache : Pool CacheOp CacheRes PyException (Option PyException) CacheState CacheCall
    CacheAnswer Empty where
  handler := cacheHandler
  body := CacheCall.body
  abandon := fun _ s => s
  env := fun e => nomatch e

/-- A state of the system. -/
abbrev CachePool := Pool.State CacheOp CacheRes PyException CacheState CacheCall CacheAnswer

/-- A step of it. -/
abbrev CacheLabel := Pool.Label (Option PyException) CacheCall Empty

/-- The adapter is new. -/
structure CacheState.Fresh (s : CacheState) : Prop where
  cache : s.cache = .empty
  writing : s.writing = fun _ => none

/-- **What is cached is what the authority holds.** -/
def CacheState.Coherent (s : CacheState) : Prop :=
  ∀ key value, s.cache.get key = some value → s.authority.get key = some value

/-! ## Values on their way into the cache -/

/-- **Nothing is overtaken.** A value goes into the cache while the authority still
holds it, and the authority erases a tenant of which nothing has been cached since
the cache was emptied. -/
def NotOvertaken (op : CacheOp) (s : CacheState) : Prop :=
  match op with
  | .cacheSet key value => s.authority.get key = some value
  | .eraseTenant tenantId => ∀ key, key.1 = tenantId → s.cache.get key = none
  | _ => True

/-- **Steps in order**: nothing is overtaken, and no call is cancelled while it is
writing. -/
def cacheSteps (w : CachePool) (l : CacheLabel) : Prop :=
  Pool.stepOk (fun _ _ => True) (fun _ _ op s => NotOvertaken op s) (fun _ _ => True) w l
    ∧ ∀ pid, l = .crash pid → w.shared.writing pid = none

/-- **The invariant**: a cached value that the authority does not hold is about to be
written over. -/
def CacheInv (s : CacheState) : Prop :=
  ∀ key value, s.cache.get key = some value →
    s.authority.get key = some value ∨ ∃ pid, s.writing pid = some key

section Steps

variable {s : CacheState} {pid : ℕ}

/-- What a step of `pid` does to the others. -/
def CacheOwes (pid : ℕ) (s s' : CacheState) : Prop :=
  CacheInv s' ∧ ∀ q, q ≠ pid → s'.writing q = s.writing q

theorem CacheInv.cacheSet (h : CacheInv s) {key : ObjectKey} {value : Bytes}
    (hheld : s.authority.get key = some value) (hmine : ∀ k, s.writing pid = some k → k = key) :
    CacheInv { s with
      cache := s.cache.set key value
      writing := Function.update s.writing pid none } := by
  intro k v hk
  have hset : (s.cache.set key value).get k = some v := hk
  rw [Dictionary.get_set] at hset
  split at hset
  · rename_i hkey
    obtain rfl := Option.some.inj hset
    exact .inl (hkey ▸ hheld)
  · rename_i hkey
    rcases h k v hset with hv | ⟨q, hq⟩
    · exact .inl hv
    · refine .inr ⟨q, ?_⟩
      -- What `pid` was writing is the key it has written.
      have hqp : q ≠ pid := fun hqp => hkey (hmine k (hqp ▸ hq))
      exact (Function.update_of_ne hqp _ _).trans hq

theorem CacheInv.put (h : CacheInv s) (key : ObjectKey) (value : Bytes)
    (hmine : s.writing pid = none) :
    CacheInv { s with
      authority := s.authority.set key value
      writing := Function.update s.writing pid (some key) } := by
  intro k v hk
  by_cases hkey : k = key
  · exact .inr ⟨pid, hkey ▸ Function.update_self ..⟩
  · rcases h k v hk with hv | ⟨q, hq⟩
    · refine .inl ?_
      show (s.authority.set key value).get k = some v
      rw [Dictionary.get_set, if_neg hkey]
      exact hv
    · refine .inr ⟨q, ?_⟩
      have hqp : q ≠ pid := by
        rintro rfl
        rw [hmine] at hq
        cases hq
      exact (Function.update_of_ne hqp _ _).trans hq

theorem CacheInv.cacheDrop (h : CacheInv s) (tenantId : String) :
    CacheInv { s with cache := s.cache.filterKeys (fun key => key.1 ≠ tenantId) } := by
  intro k v hk
  have hfiltered : (s.cache.filterKeys (fun key => key.1 ≠ tenantId)).get k = some v := hk
  rw [Dictionary.get_filterKeys] at hfiltered
  split at hfiltered
  · exact h k v hfiltered
  · cases hfiltered

theorem CacheInv.eraseTenant (h : CacheInv s) {tenantId : String}
    (hnone : ∀ key, key.1 = tenantId → s.cache.get key = none) :
    CacheInv { s with authority := s.authority.filterKeys (fun key => key.1 ≠ tenantId) } := by
  intro k v hk
  have hother : k.1 ≠ tenantId := by
    intro hk₁
    have hcached : s.cache.get k = some v := hk
    rw [hnone k hk₁] at hcached
    cases hcached
  refine (h k v hk).imp_left (fun hv => ?_)
  show (s.authority.filterKeys (fun key => key.1 ≠ tenantId)).get k = some v
  rw [Dictionary.get_filterKeys, if_pos (decide_eq_true hother)]
  exact hv

end Steps

/-! ## The calls -/

section Calls

variable {pid : ℕ} {s : CacheState}

/-- **A program keeps the cache** among others, and ends with `Q`. -/
abbrev KeepsCache (pid : ℕ) {α : Type} (p : CacheProg α)
    (Q : Except PyException α → CacheState → Prop) (s : CacheState) : Prop :=
  p.Safe (Prog.Handled (cacheHandler pid) (fun _ op s => NotOvertaken op s))
    (fun a b => CacheInv b ∧ b.writing pid = a.writing pid) (CacheOwes pid) Q s

/-- **Step rule**, for a call that is writing `k` or nothing. -/
theorem keepsCache_ask {op : CacheOp} {k : Option ObjectKey}
    {Q : Except PyException (CacheRes op) → CacheState → Prop} (hk : s.writing pid = k)
    (hop : ∀ s₁ failure r s₂, CacheInv s₁ → s₁.writing pid = k → NotOvertaken op s₁ →
      cacheHandler pid failure op s₁ = some (r, s₂) → CacheOwes pid s₁ s₂ ∧ Q r s₂) :
    KeepsCache pid op.ask Q s := by
  refine (Prog.safe_perform _ _ _).mpr ?_
  rintro s₁ ⟨hinv, hsame⟩ r s₂ ⟨failure, hallow, hh⟩
  exact hop s₁ failure r s₂ hinv (hsame.trans hk) hallow hh

/-- A value goes into the cache, and nothing is being written any more. -/
theorem keepsCache_cacheSet {key : ObjectKey} {value : Bytes} {k : Option ObjectKey}
    (hk : s.writing pid = k) (hmine : ∀ k', k = some k' → k' = key) :
    KeepsCache pid (CacheOp.ask (.cacheSet key value)) (fun _ s' => s'.writing pid = none) s := by
  refine keepsCache_ask hk (fun s₁ failure r s₂ hinv hw hheld hh => ?_)
  obtain ⟨rfl, rfl⟩ := Prod.mk.inj (Option.some.inj hh)
  refine ⟨⟨hinv.cacheSet hheld (fun k' hk' => hmine k' (hw.symm.trans hk')), fun q hq => ?_⟩, ?_⟩
  · exact Function.update_of_ne hq _ _
  · exact Function.update_self ..

/-- **`put`.** -/
theorem keepsCache_put (hs : s.writing pid = none) (key : ObjectKey) (value : Bytes) :
    KeepsCache pid (RedisCacheAdapter.put key value) (fun _ s' => s'.writing pid = none) s := by
  refine Prog.Safe.bind (Q := Prog.outcome (fun (_ : Unit) (s' : CacheState) =>
    s'.writing pid = some key) (fun _ s' => s'.writing pid = none)) ?_ ?_ (fun _ _ h => h)
  · refine keepsCache_ask hs (fun s₁ failure r s₂ hinv hw _ hh => ?_)
    cases failure with
    | some e =>
      obtain ⟨rfl, rfl⟩ := Prod.mk.inj (Option.some.inj hh)
      exact ⟨⟨hinv, fun _ _ => rfl⟩, hw⟩
    | none =>
      obtain ⟨rfl, rfl⟩ := Prod.mk.inj (Option.some.inj hh)
      refine ⟨⟨hinv.put key value hw, fun q hq => ?_⟩, ?_⟩
      · exact Function.update_of_ne hq _ _
      · exact Function.update_self ..
  · intro _ s' hs'
    exact keepsCache_cacheSet hs' (fun k' hk' => (Option.some.inj hk').symm)

/-- A step that leaves everything as it is. -/
theorem keepsCache_look {op : CacheOp} (hs : s.writing pid = none)
    (hop : ∀ s₁ failure r s₂, cacheHandler pid failure op s₁ = some (r, s₂) → s₂ = s₁) :
    KeepsCache pid op.ask (fun _ s' => s'.writing pid = none) s := by
  refine keepsCache_ask hs (fun s₁ failure r s₂ hinv hw _ hh => ?_)
  obtain rfl := hop s₁ failure r s₂ hh
  exact ⟨⟨hinv, fun _ _ => rfl⟩, hw⟩

/-- **`get`.** -/
theorem keepsCache_get (hs : s.writing pid = none) (key : ObjectKey) :
    KeepsCache pid (RedisCacheAdapter.get key) (fun _ s' => s'.writing pid = none) s := by
  refine Prog.Safe.bind (Q := fun _ s' => s'.writing pid = none) ?_ ?_ (fun _ _ h => h)
  · refine keepsCache_look hs (fun s₁ failure r s₂ hh => ?_)
    exact (Prod.mk.inj (Option.some.inj hh)).2.symm
  · intro cached s₁ hs₁
    cases cached with
    | some cached => exact hs₁
    | none =>
      refine Prog.Safe.bind (Q := fun _ s' => s'.writing pid = none) ?_ ?_ (fun _ _ h => h)
      · refine keepsCache_look hs₁ (fun s₂ failure r s₃ hh => ?_)
        cases failure with
        | some e => exact (Prod.mk.inj (Option.some.inj hh)).2.symm
        | none => exact (Prod.mk.inj (Option.some.inj hh)).2.symm
      · intro value s₂ hs₂
        cases value with
        | none => exact hs₂
        | some value =>
          refine Prog.Safe.bind (keepsCache_cacheSet hs₂ (fun k' hk' => nomatch hk')) ?_
            (fun _ _ h => h)
          exact fun _ _ h => h

/-- **`erase_tenant`.** -/
theorem keepsCache_eraseTenant (hs : s.writing pid = none) (tenantId : String) :
    KeepsCache pid (RedisCacheAdapter.eraseTenant tenantId) (fun _ s' => s'.writing pid = none)
      s := by
  refine Prog.Safe.bind (Q := fun _ s' => s'.writing pid = none) ?_ ?_ (fun _ _ h => h)
  · refine keepsCache_ask hs (fun s₁ failure r s₂ hinv hw _ hh => ?_)
    obtain ⟨rfl, rfl⟩ := Prod.mk.inj (Option.some.inj hh)
    exact ⟨⟨hinv.cacheDrop tenantId, fun _ _ => rfl⟩, hw⟩
  · intro cached s₁ hs₁
    refine Prog.Safe.bind (Q := fun _ s' => s'.writing pid = none) ?_ ?_ (fun _ _ h => h)
    · refine keepsCache_ask hs₁ (fun s₂ failure r s₃ hinv hw hnone hh => ?_)
      cases failure with
      | some e =>
        obtain ⟨rfl, rfl⟩ := Prod.mk.inj (Option.some.inj hh)
        exact ⟨⟨hinv, fun _ _ => rfl⟩, hw⟩
      | none =>
        obtain ⟨rfl, rfl⟩ := Prod.mk.inj (Option.some.inj hh)
        exact ⟨⟨hinv.eraseTenant hnone, fun _ _ => rfl⟩, hw⟩
    · exact fun _ _ h => h

/-- **Every call.** -/
theorem keepsCache_body (hs : s.writing pid = none) (call : CacheCall) :
    KeepsCache pid call.body (fun _ s' => s'.writing pid = none) s := by
  cases call with
  | put key value => exact (keepsCache_put hs key value).bind (fun _ _ h => h) (fun _ _ h => h)
  | get key => exact (keepsCache_get hs key).bind (fun _ _ h => h) (fun _ _ h => h)
  | eraseTenant tenantId =>
    exact (keepsCache_eraseTenant hs tenantId).bind (fun _ _ h => h) (fun _ _ h => h)

end Calls

/-- **The discipline of the adapter.** -/
def cacheDiscipline : Pool.Discipline redisCache CacheState.Fresh (fun _ _ => True)
    (fun _ _ op s => NotOvertaken op s) (fun _ _ => True) where
  inv := CacheInv
  unused := fun pid s => s.writing pid = none
  rely := fun pid a b => b.writing pid = a.writing pid
  post := fun pid _ _ s => s.writing pid = none
  rely_refl := fun _ _ => rfl
  rely_trans := fun _ _ _ _ h h' => h'.trans h
  unused_rely := fun _ _ _ h hr => hr.trans h
  start_ok := fun s hs => by
    refine ⟨fun key value hkey => ?_, fun pid => by rw [hs.writing]⟩
    rw [hs.cache] at hkey
    cases hkey
  safe_body := fun pid s call _ _ hs => keepsCache_body hs call
  safe_crash := fun _ _ hinv => ⟨hinv, fun _ _ => rfl⟩
  safe_env := fun e => nomatch e

/-- **The cache is coherent** in every run in which nothing is overtaken, whenever no
call is in progress. Nothing of a tenant the authority has erased is cached. -/
theorem cache_coherent {w : CachePool}
    (h : (redisCache.machine CacheState.Fresh).Reach cacheSteps w)
    (hidle : ∀ pid, w.threads pid = none) :
    w.shared.Coherent ∧ ∀ tenantId, (∀ key, w.shared.authority.get (tenantId, key) = none) →
      ∀ key, w.shared.cache.get (tenantId, key) = none := by
  have hinv : CacheInv w.shared := (Pool.reach_safe cacheDiscipline (h.mono (fun _ _ hok => hok.1))).inv
  have hdone : ∀ pid, w.shared.writing pid = none := by
    intro pid
    exact cacheDiscipline.gone_of (G := fun q s => s.writing q = none) (fun _ _ hok => hok.1)
      (fun _ _ hun => hun) (fun _ _ _ hg hr => hr.trans hg) (fun _ _ _ _ hpost => hpost)
      (fun v q hok _ => hok.2 q rfl) h pid (hidle pid)
  have hcoherent : w.shared.Coherent := by
    intro key value hkey
    refine (hinv key value hkey).resolve_right ?_
    rintro ⟨pid, hpid⟩
    rw [hdone pid] at hpid
    cases hpid
  refine ⟨hcoherent, fun tenantId hnone key => ?_⟩
  cases hcached : w.shared.cache.get (tenantId, key) with
  | none => rfl
  | some value =>
    have hheld := hcoherent _ _ hcached
    rw [hnone key] at hheld
    cases hheld

/-! ### An object of a tenant -/

/-- The object of the runs below. -/
def sampleObject : ObjectKey := ("t", "k")

/-- The authority holds it, and the cache is empty. -/
def sampleAuthority : CachePool :=
  Pool.idle ⟨Dictionary.empty.set sampleObject [1], .empty, fun _ => none⟩

theorem sampleAuthority_init : (redisCache.machine CacheState.Fresh).init sampleAuthority :=
  ⟨_, ⟨rfl, rfl⟩, rfl⟩

instance (op : CacheOp) (s : CacheState) : Decidable (NotOvertaken op s) :=
  match op with
  | .cacheSet key value => inferInstanceAs (Decidable (s.authority.get key = some value))
  | .eraseTenant tenantId => decidable_of_iff (∀ e ∈ s.cache.items, e.1.1 ≠ tenantId) (by
      constructor
      · intro h key hkey
        cases hget : s.cache.get key with
        | none => rfl
        | some value => exact absurd hkey (h _ (Dictionary.get_eq_some_iff.mp hget))
      · intro h e he hkey
        have hget := Dictionary.get_eq_some_iff.mpr he
        rw [h e.1 hkey] at hget
        cases hget)
  | .cacheGet _ | .cacheDrop _ | .put .. | .get _ => isTrue trivial

/-- Two calls have been made and have ended, with this in the cache and at the
authority. -/
def endsWith (cached held : Option Bytes) (w : CachePool) : Bool :=
  w.spawned = 2 && (w.threads 0).isNone && (w.threads 1).isNone
    && w.shared.cache.get sampleObject = cached && w.shared.authority.get sampleObject = held

theorem idle_of_endsWith {ok : CachePool → CacheLabel → Prop} {w : CachePool}
    {cached held : Option Bytes} (h : (redisCache.machine CacheState.Fresh).Reach ok w)
    (hends : endsWith cached held w = true) :
    (∀ pid, w.threads pid = none) ∧ w.shared.cache.get sampleObject = cached
      ∧ w.shared.authority.get sampleObject = held := by
  simp only [endsWith, Bool.and_eq_true, decide_eq_true_eq, Option.isNone_iff_eq_none] at hends
  obtain ⟨⟨⟨⟨hspawned, hzero⟩, hone⟩, hcached⟩, hheld⟩ := hends
  refine ⟨fun pid => ?_, hcached, hheld⟩
  by_contra hne
  have hlt := (Pool.reach_orderly h).arrived pid hne
  rw [hspawned] at hlt
  have hpid : pid = 0 ∨ pid = 1 := by omega
  rcases hpid with rfl | rfl
  · exact hne hzero
  · exact hne hone

/-- A step that is no cancellation. -/
def liveTest (_w : CachePool) : CacheLabel → Bool
  | .crash _ => false
  | _ => true

theorem isLive_of_test {w : CachePool} {l : CacheLabel} (h : liveTest w l = true) : l.isLive := by
  cases l with
  | crash pid => cases h
  | _ => trivial

/-- A step in order that is no cancellation. -/
def orderedTest (w : CachePool) : CacheLabel → Bool
  | .crash _ => false
  | l => decide (Pool.stepOk (fun _ _ => True) (fun _ _ op s => NotOvertaken op s)
      (fun _ _ => True) w l)

theorem cacheSteps_of_test {w : CachePool} {l : CacheLabel} (h : orderedTest w l = true) :
    cacheSteps w l := by
  cases l with
  | crash pid => cases h
  | spawn call => exact ⟨of_decide_eq_true h, fun pid hl => nomatch hl⟩
  | act pid c => exact ⟨of_decide_eq_true h, fun pid hl => nomatch hl⟩
  | env e => exact nomatch e

/-- A `get` that misses, and an erasure; a `put`, and a `get`. -/
theorem sample_cache_runs :
    ((redisCache.machine CacheState.Fresh).runIf liveTest sampleAuthority
      [.spawn (.get sampleObject), .act 0 none, .act 0 none, .spawn (.eraseTenant "t"),
        .act 1 none, .act 1 none, .act 0 none]).map (endsWith (some [1]) none) = some true
    ∧ ((redisCache.machine CacheState.Fresh).runIf orderedTest sampleAuthority
      [.spawn (.put sampleObject [2]), .act 0 none, .spawn (.get sampleObject), .act 1 none,
        .act 0 none, .act 1 none, .act 1 none]).map (endsWith (some [2]) (some [2])) = some true := by
  decide +kernel

/-- A `put` and a `get` of one object, side by side. -/
theorem cache_coherent_sample :
    ∃ w : CachePool, (redisCache.machine CacheState.Fresh).Reach cacheSteps w
      ∧ w.shared.cache.get sampleObject = some [2] ∧ w.shared.Coherent := by
  obtain ⟨w, hreach, hends⟩ := Machine.reach_of_runIf (fun _ _ => cacheSteps_of_test)
    sampleAuthority_init sample_cache_runs.2
  obtain ⟨hidle, hcached, -⟩ := idle_of_endsWith hreach hends
  exact ⟨w, hreach, hcached, (cache_coherent hreach hidle).1⟩

/-- **A stale fill.** A `get` has the value from the authority; the tenant is erased,
in the cache and at the authority; the `get` fills the cache. -/
theorem stale_fill :
    ¬ ∀ w : CachePool, (redisCache.machine CacheState.Fresh).Reach (fun _ l => l.isLive) w →
      (∀ pid, w.threads pid = none) → w.shared.Coherent := by
  intro hclaim
  obtain ⟨w, hreach, hends⟩ := Machine.reach_of_runIf (fun _ _ => isLive_of_test)
    sampleAuthority_init sample_cache_runs.1
  obtain ⟨hidle, hcached, hheld⟩ := idle_of_endsWith hreach hends
  have hstale := hclaim w hreach hidle _ _ hcached
  rw [hheld] at hstale
  cases hstale
