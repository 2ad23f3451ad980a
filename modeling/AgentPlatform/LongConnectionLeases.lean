import AgentPlatform.Sessions
import AgentPlatform.TimedService

/-!
# The two stores of long-connection leases

The embedding of `MemoryLongConnectionLeaseStore` and
`DatabaseLongConnectionLeaseStore` of `channels/feishu.py`. A lease says which
gateway may consume the long connection of an application, until when, and under
which fencing token.

The stores write down a release, the end of a lease and the return of an owner in
different ways. The store in memory forgets a lease that is released, and counts a
token for every lease that begins; the store in the database puts the end of the
lease back to the present, and counts a token for every change of the owner. The
first compares the whole lease with the one it has, the second the owner and the
token. `step_agrees_iff` says which calls they answer alike.
-/

/-- **`LongConnectionLease`.** -/
structure LongConnectionLease where
  connectionKey : String
  ownerId : String
  fencingToken : ℕ
  expiresAt : Timestamp
  deriving DecidableEq, Repr

/-- What a call of a lease store answers. -/
abbrev LeaseAnswer := Except PyException (Option LongConnectionLease)

/-! ## The store in memory -/

/-- `MemoryLongConnectionLeaseStore`; `tokens` is 0 where `_tokens` has no entry. -/
structure MemoryLongConnectionLeaseStore where
  leases : String → Option LongConnectionLease
  tokens : String → ℕ

namespace MemoryLongConnectionLeaseStore

/-- `self._leases[lease.connection_key] = lease`. -/
def put (store : MemoryLongConnectionLeaseStore) (lease : LongConnectionLease) :
    MemoryLongConnectionLeaseStore :=
  { store with leases := Function.update store.leases lease.connectionKey (some lease) }

/-- A lease under the next token of its key. -/
def begins (now ttl : Timestamp) (connectionKey ownerId : String)
    (store : MemoryLongConnectionLeaseStore) :
    Option LongConnectionLease × MemoryLongConnectionLeaseStore :=
  let token := store.tokens connectionKey + 1
  let lease := ⟨connectionKey, ownerId, token, now + ttl⟩
  (some lease,
    { store with tokens := Function.update store.tokens connectionKey token }.put lease)

/-- **`acquire`.** -/
def acquire (now ttl : Timestamp) (connectionKey ownerId : String)
    (store : MemoryLongConnectionLeaseStore) :
    Option LongConnectionLease × MemoryLongConnectionLeaseStore :=
  match store.leases connectionKey with
  | some current =>
    if now < current.expiresAt ∧ current.ownerId ≠ ownerId then (none, store)
    else if now < current.expiresAt then
      let lease := ⟨connectionKey, ownerId, current.fencingToken, now + ttl⟩
      (some lease, store.put lease)
    else store.begins now ttl connectionKey ownerId
  | none => store.begins now ttl connectionKey ownerId

/-- **`renew`.** -/
def renew (now ttl : Timestamp) (lease : LongConnectionLease)
    (store : MemoryLongConnectionLeaseStore) :
    Option LongConnectionLease × MemoryLongConnectionLeaseStore :=
  if store.leases lease.connectionKey ≠ some lease ∨ lease.expiresAt ≤ now then (none, store)
  else
    let renewed := { lease with expiresAt := now + ttl }
    (some renewed, store.put renewed)

/-- **`release`.** -/
def release (lease : LongConnectionLease) (store : MemoryLongConnectionLeaseStore) :
    MemoryLongConnectionLeaseStore :=
  if store.leases lease.connectionKey = some lease then
    { store with leases := Function.update store.leases lease.connectionKey none }
  else store

/-- The lease of a key, if it has not ended. -/
def live (now : Timestamp) (connectionKey : String) (store : MemoryLongConnectionLeaseStore) :
    Option LongConnectionLease :=
  (store.leases connectionKey).filter (fun lease => now < lease.expiresAt)

end MemoryLongConnectionLeaseStore

/-! ## The store in the database -/

/-- **A row of `tenant.channel_connection_lease`**, of one tenant and key. -/
structure ChannelConnectionLease where
  ownerId : String
  fencingToken : ℕ
  expiresAt : Timestamp
  deriving DecidableEq, Repr

/-- The lease that a row of a key stands for. -/
def ChannelConnectionLease.lease (connectionKey : String) (row : ChannelConnectionLease) :
    LongConnectionLease :=
  ⟨connectionKey, row.ownerId, row.fencingToken, row.expiresAt⟩

/-- A lease is that of a row when it has its owner, its token and its end. -/
theorem ChannelConnectionLease.lease_eq_iff {row : ChannelConnectionLease}
    {lease : LongConnectionLease} :
    row.lease lease.connectionKey = lease ↔ row.ownerId = lease.ownerId
      ∧ row.fencingToken = lease.fencingToken ∧ lease.expiresAt = row.expiresAt := by
  obtain ⟨connectionKey, ownerId, fencingToken, expiresAt⟩ := lease
  simp [ChannelConnectionLease.lease, eq_comm]

/-- The rows of a tenant, by `connection_key`. -/
abbrev ChannelConnectionLeases := String → Option ChannelConnectionLease

namespace DatabaseLongConnectionLeaseStore

/-- The checks of the table on its key and its owner. -/
def RowChecks (connectionKey ownerId : String) : Prop :=
  1 ≤ connectionKey.length ∧ connectionKey.length ≤ 512
    ∧ 1 ≤ ownerId.length ∧ ownerId.length ≤ 256

instance (connectionKey ownerId : String) : Decidable (RowChecks connectionKey ownerId) :=
  inferInstanceAs (Decidable (_ ∧ _ ∧ _ ∧ _))

/-- `INSERT ... ON CONFLICT (tenant_id,connection_key) DO UPDATE ... RETURNING
fencing_token`, in a transaction that began at `now`. -/
def upsert (now ttl : Timestamp) (connectionKey ownerId : String)
    (rows : ChannelConnectionLeases) : Option ℕ × ChannelConnectionLeases :=
  match rows connectionKey with
  | none => (some 1, Function.update rows connectionKey (some ⟨ownerId, 1, now + ttl⟩))
  | some row =>
    if row.expiresAt ≤ now ∨ row.ownerId = ownerId then
      let token := if row.ownerId = ownerId then row.fencingToken else row.fencingToken + 1
      (some token, Function.update rows connectionKey (some ⟨ownerId, token, now + ttl⟩))
    else (none, rows)

/-- **`acquire`**, in a transaction that began at `now`, when the caller read `clock`. -/
def acquire (now clock ttl : Timestamp) (connectionKey ownerId : String)
    (rows : ChannelConnectionLeases) : LeaseAnswer × ChannelConnectionLeases :=
  if RowChecks connectionKey ownerId then
    (.ok ((upsert now ttl connectionKey ownerId rows).1.map
        (fun token => ⟨connectionKey, ownerId, token, clock + ttl⟩)),
      (upsert now ttl connectionKey ownerId rows).2)
  else (.error .sqlAlchemy, rows)

/-- The `UPDATE ... RETURNING fencing_token` of `renew`. -/
def extend (now ttl : Timestamp) (lease : LongConnectionLease) (rows : ChannelConnectionLeases) :
    Option ℕ × ChannelConnectionLeases :=
  match rows lease.connectionKey with
  | some row =>
    if row.ownerId = lease.ownerId ∧ row.fencingToken = lease.fencingToken
        ∧ now < row.expiresAt then
      (some row.fencingToken,
        Function.update rows lease.connectionKey (some { row with expiresAt := now + ttl }))
    else (none, rows)
  | none => (none, rows)

/-- **`renew`**, in a transaction that began at `now`, when the caller read `clock`. -/
def renew (now clock ttl : Timestamp) (lease : LongConnectionLease)
    (rows : ChannelConnectionLeases) : LeaseAnswer × ChannelConnectionLeases :=
  (.ok ((extend now ttl lease rows).1.map
      (fun token => ⟨lease.connectionKey, lease.ownerId, token, clock + ttl⟩)),
    (extend now ttl lease rows).2)

/-- **`release`**, in a transaction that began at `now`. -/
def release (now : Timestamp) (lease : LongConnectionLease) (rows : ChannelConnectionLeases) :
    ChannelConnectionLeases :=
  match rows lease.connectionKey with
  | some row =>
    if row.ownerId = lease.ownerId ∧ row.fencingToken = lease.fencingToken then
      Function.update rows lease.connectionKey (some { row with expiresAt := now })
    else rows
  | none => rows

/-- The lease that the row of a key stands for, if it has not ended. -/
def live (now : Timestamp) (connectionKey : String) (rows : ChannelConnectionLeases) :
    Option LongConnectionLease :=
  ((rows connectionKey).filter (fun row => now < row.expiresAt)).map
    (ChannelConnectionLease.lease connectionKey)

/-- The token of a key, 0 where there is no row. -/
def token (connectionKey : String) (rows : ChannelConnectionLeases) : ℕ :=
  (rows connectionKey).elim 0 ChannelConnectionLease.fencingToken

end DatabaseLongConnectionLeaseStore

/-! ## Calls of a store -/

/-- A call of a lease store. -/
inductive LeaseCall where
  | acquire (connectionKey ownerId : String) (ttl : Timestamp)
  | renew (lease : LongConnectionLease) (ttl : Timestamp)
  | release (lease : LongConnectionLease)
  deriving DecidableEq, Repr

/-- The store in memory, called at times. -/
def memoryLeases :
    TimedService Timestamp MemoryLongConnectionLeaseStore LeaseCall LeaseAnswer where
  start := ⟨fun _ => none, fun _ => 0⟩
  call
    | now, .acquire connectionKey ownerId ttl, store =>
      (store.acquire now ttl connectionKey ownerId).map Except.ok id
    | now, .renew lease ttl, store => (store.renew now ttl lease).map Except.ok id
    | _, .release lease, store => (.ok none, store.release lease)

/-- The store in the database, whose clock the callers read. -/
def databaseLeases : TimedService Timestamp ChannelConnectionLeases LeaseCall LeaseAnswer where
  start := fun _ => none
  call
    | now, .acquire connectionKey ownerId ttl, rows =>
      DatabaseLongConnectionLeaseStore.acquire now now ttl connectionKey ownerId rows
    | now, .renew lease ttl, rows => DatabaseLongConnectionLeaseStore.renew now now ttl lease rows
    | now, .release lease, rows =>
      (.ok none, DatabaseLongConnectionLeaseStore.release now lease rows)

/-! ## What a store has -/

namespace MemoryLongConnectionLeaseStore

variable {now ttl : Timestamp} {connectionKey ownerId : String} {lease : LongConnectionLease}
  {store : MemoryLongConnectionLeaseStore}

/-- What the lease of a key is, when it has not ended. -/
theorem live_eq_some_iff :
    store.live now connectionKey = some lease
      ↔ store.leases connectionKey = some lease ∧ now < lease.expiresAt := by
  simp [live, Option.filter_eq_some_iff]

/-- What an owner finds decides what `acquire` does: another's lease, its own, or none. -/
theorem acquire_eq :
    store.acquire now ttl connectionKey ownerId
      = match store.live now connectionKey with
        | some current =>
          if current.ownerId = ownerId then
            (some ⟨connectionKey, ownerId, current.fencingToken, now + ttl⟩,
              store.put ⟨connectionKey, ownerId, current.fencingToken, now + ttl⟩)
          else (none, store)
        | none => store.begins now ttl connectionKey ownerId := by
  unfold acquire live
  cases hleases : store.leases connectionKey with
  | none => rfl
  | some current =>
    rw [Option.filter_some]
    by_cases hlive : now < current.expiresAt
    · by_cases howner : current.ownerId = ownerId
      · simp [hlive, howner]
      · simp [hlive, howner]
    · simp [hlive]

/-- `renew` is for the lease that the key has. -/
theorem renew_eq :
    store.renew now ttl lease
      = if store.live now lease.connectionKey = some lease then
          (some { lease with expiresAt := now + ttl },
            store.put { lease with expiresAt := now + ttl })
        else (none, store) := by
  unfold renew
  by_cases h : store.live now lease.connectionKey = some lease
  · obtain ⟨hstored, hlive⟩ := live_eq_some_iff.mp h
    rw [if_pos h, if_neg (by simp [hstored, hlive])]
  · rw [if_neg h, if_pos]
    by_contra hboth
    rw [not_or, not_not, not_le] at hboth
    exact h (live_eq_some_iff.mpr hboth)

end MemoryLongConnectionLeaseStore

namespace DatabaseLongConnectionLeaseStore

variable {now ttl : Timestamp} {connectionKey : String} {lease : LongConnectionLease}
  {rows : ChannelConnectionLeases} {row : ChannelConnectionLease}

/-- What `upsert` does: it writes a row over one that has ended or is the owner's, or
nothing. -/
theorem upsert_cases (now ttl : Timestamp) (connectionKey ownerId : String)
    (rows : ChannelConnectionLeases) :
    (∃ token, (∀ row ∈ rows connectionKey, row.expiresAt ≤ now ∨ row.ownerId = ownerId)
        ∧ upsert now ttl connectionKey ownerId rows
          = (some token,
            Function.update rows connectionKey (some ⟨ownerId, token, now + ttl⟩)))
      ∨ upsert now ttl connectionKey ownerId rows = (none, rows) := by
  unfold upsert
  cases hrow : rows connectionKey with
  | none => exact .inl ⟨1, by simp, rfl⟩
  | some row =>
    by_cases hfree : row.expiresAt ≤ now ∨ row.ownerId = ownerId
    · exact .inl ⟨_, by simpa using hfree, if_pos hfree⟩
    · exact .inr (if_neg hfree)

/-- What `extend` does: it writes a new end to a row with the owner and the token of the
lease, or nothing. -/
theorem extend_cases (now ttl : Timestamp) (lease : LongConnectionLease)
    (rows : ChannelConnectionLeases) :
    (∃ row ∈ rows lease.connectionKey, row.ownerId = lease.ownerId
        ∧ extend now ttl lease rows
          = (some row.fencingToken, Function.update rows lease.connectionKey
            (some ⟨lease.ownerId, row.fencingToken, now + ttl⟩)))
      ∨ extend now ttl lease rows = (none, rows) := by
  unfold extend
  cases hrow : rows lease.connectionKey with
  | none => exact .inr rfl
  | some row =>
    by_cases hmatch : row.ownerId = lease.ownerId ∧ row.fencingToken = lease.fencingToken
        ∧ now < row.expiresAt
    · refine .inl ⟨row, rfl, hmatch.1, ?_⟩
      dsimp only
      rw [if_pos hmatch, hmatch.1]
    · exact .inr (if_neg hmatch)

/-- What `release` does: it puts back the end of a row with the owner and the token of
the lease, or nothing. -/
theorem release_cases (now : Timestamp) (lease : LongConnectionLease)
    (rows : ChannelConnectionLeases) :
    (∃ row ∈ rows lease.connectionKey,
        (row.ownerId = lease.ownerId ∧ row.fencingToken = lease.fencingToken)
        ∧ release now lease rows
          = Function.update rows lease.connectionKey (some { row with expiresAt := now }))
      ∨ (¬∃ row ∈ rows lease.connectionKey,
          row.ownerId = lease.ownerId ∧ row.fencingToken = lease.fencingToken)
        ∧ release now lease rows = rows := by
  unfold release
  cases hrow : rows lease.connectionKey with
  | none => exact .inr ⟨by simp, rfl⟩
  | some row =>
    by_cases hmatch : row.ownerId = lease.ownerId ∧ row.fencingToken = lease.fencingToken
    · exact .inl ⟨row, rfl, hmatch, if_pos hmatch⟩
    · exact .inr ⟨by simpa using hmatch, if_neg hmatch⟩

/-- What the lease of a key is, when it has not ended. -/
theorem live_eq_some_iff :
    live now connectionKey rows = some lease
      ↔ ∃ row, rows connectionKey = some row ∧ now < row.expiresAt
        ∧ row.lease connectionKey = lease := by
  simp [live, Option.filter_eq_some_iff, and_assoc]

/-- A row that has not ended is the lease of its key. -/
theorem live_of_row (hrow : rows connectionKey = some row) (hlive : now < row.expiresAt) :
    live now connectionKey rows = some (row.lease connectionKey) :=
  live_eq_some_iff.mpr ⟨row, hrow, hlive, rfl⟩

/-- A row that has ended is no lease. -/
theorem live_of_ended (hrow : rows connectionKey = some row) (hended : row.expiresAt ≤ now) :
    live now connectionKey rows = none := by
  simp [live, hrow, hended]

/-- A row whose end is put back to the present is no lease. -/
theorem live_putBack :
    live now connectionKey
      (Function.update rows connectionKey (some { row with expiresAt := now })) = none :=
  live_of_ended (Function.update_self _ _ _) le_rfl

end DatabaseLongConnectionLeaseStore

/-! ## The two stores side by side -/

/-- **The stores agree** at a time: each key has the same lease in both, if any, and
the same token. -/
structure StoresAgree (now : Timestamp) (store : MemoryLongConnectionLeaseStore)
    (rows : ChannelConnectionLeases) : Prop where
  live : ∀ connectionKey, store.live now connectionKey
    = DatabaseLongConnectionLeaseStore.live now connectionKey rows
  tokens : ∀ connectionKey, store.tokens connectionKey
    = DatabaseLongConnectionLeaseStore.token connectionKey rows

/-- **The calls that the stores answer alike**: the key and the owner pass the checks
of the table, an owner does not come back to a key whose last lease was its own and
has ended, and a lease that is renewed or released is the one that the key has, unless
that one has ended or is another's. -/
def Coincides (now : Timestamp) : LeaseCall → ChannelConnectionLeases → Prop
  | .acquire connectionKey ownerId _, rows =>
    DatabaseLongConnectionLeaseStore.RowChecks connectionKey ownerId
      ∧ ∀ row ∈ rows connectionKey, row.ownerId = ownerId → now < row.expiresAt
  | .renew lease _, rows | .release lease, rows =>
    ∀ row ∈ rows lease.connectionKey, row.ownerId = lease.ownerId →
      row.fencingToken = lease.fencingToken → now < row.expiresAt →
        lease.expiresAt = row.expiresAt

instance (now : Timestamp) :
    ∀ (call : LeaseCall) (rows : ChannelConnectionLeases), Decidable (Coincides now call rows)
  | .acquire _ _ _, _ => inferInstanceAs (Decidable (_ ∧ ∀ row ∈ _, _))
  | .renew _ _, _ => inferInstanceAs (Decidable (∀ row ∈ _, _))
  | .release _, _ => inferInstanceAs (Decidable (∀ row ∈ _, _))

namespace StoresAgree

variable {now : Timestamp} {store : MemoryLongConnectionLeaseStore}
  {rows : ChannelConnectionLeases} {lease : LongConnectionLease}

/-- The stores agree before the first call. -/
theorem start (now : Timestamp) : StoresAgree now memoryLeases.start databaseLeases.start :=
  ⟨fun _ => rfl, fun _ => rfl⟩

/-- Stores that agree do so later: what a lease is does not change with time, only
whether it has ended. -/
theorem later {now' : Timestamp} (h : StoresAgree now store rows) (hle : now ≤ now') :
    StoresAgree now' store rows := by
  refine ⟨fun connectionKey => Option.ext fun lease => ?_, h.tokens⟩
  have hlive := h.live connectionKey
  have hmemory : store.live now' connectionKey = some lease
      ↔ store.live now connectionKey = some lease ∧ now' < lease.expiresAt := by
    simp only [MemoryLongConnectionLeaseStore.live_eq_some_iff]
    constructor
    · rintro ⟨hstored, hlate⟩
      exact ⟨⟨hstored, lt_of_le_of_lt hle hlate⟩, hlate⟩
    · rintro ⟨⟨hstored, -⟩, hlate⟩
      exact ⟨hstored, hlate⟩
  rw [hmemory, hlive]
  simp only [DatabaseLongConnectionLeaseStore.live_eq_some_iff]
  constructor
  · rintro ⟨⟨row, hrow, -, rfl⟩, hlate⟩
    exact ⟨row, hrow, hlate, rfl⟩
  · rintro ⟨row, hrow, hlate, rfl⟩
    exact ⟨⟨row, hrow, lt_of_le_of_lt hle hlate, rfl⟩, hlate⟩

/-- A lease that both stores write down. -/
theorem write (h : StoresAgree now store rows) (lease : LongConnectionLease) :
    StoresAgree now
      (MemoryLongConnectionLeaseStore.put
        { store with
          tokens := Function.update store.tokens lease.connectionKey lease.fencingToken } lease)
      (Function.update rows lease.connectionKey
        (some ⟨lease.ownerId, lease.fencingToken, lease.expiresAt⟩)) := by
  refine ⟨fun connectionKey => ?_, fun connectionKey => ?_⟩
  · by_cases hkey : connectionKey = lease.connectionKey
    · subst hkey
      simp [MemoryLongConnectionLeaseStore.live, MemoryLongConnectionLeaseStore.put,
        DatabaseLongConnectionLeaseStore.live, ChannelConnectionLease.lease, Option.filter_some,
        apply_ite]
    · have hlive := h.live connectionKey
      simpa [MemoryLongConnectionLeaseStore.live, MemoryLongConnectionLeaseStore.put,
        DatabaseLongConnectionLeaseStore.live, Function.update_of_ne hkey] using hlive
  · by_cases hkey : connectionKey = lease.connectionKey
    · subst hkey
      simp [MemoryLongConnectionLeaseStore.put, DatabaseLongConnectionLeaseStore.token]
    · have htoken := h.tokens connectionKey
      simpa [MemoryLongConnectionLeaseStore.put, DatabaseLongConnectionLeaseStore.token,
        Function.update_of_ne hkey] using htoken

/-- A lease under the token that its key has already. -/
theorem put (h : StoresAgree now store rows) (lease : LongConnectionLease)
    (htoken : store.tokens lease.connectionKey = lease.fencingToken) :
    StoresAgree now (store.put lease)
      (Function.update rows lease.connectionKey
        (some ⟨lease.ownerId, lease.fencingToken, lease.expiresAt⟩)) := by
  have hwrite := h.write lease
  rwa [← htoken, Function.update_eq_self, htoken] at hwrite

/-- The token of a row. -/
theorem tokens_of_row (h : StoresAgree now store rows) {connectionKey : String}
    {row : ChannelConnectionLease} (hrow : rows connectionKey = some row) :
    store.tokens connectionKey = row.fencingToken := by
  rw [h.tokens, DatabaseLongConnectionLeaseStore.token, hrow, Option.elim_some]

/-- A lease that has ended is forgotten in memory. -/
theorem forget {connectionKey : String} (h : StoresAgree now store rows)
    (hended : store.live now connectionKey = none) :
    StoresAgree now { store with leases := Function.update store.leases connectionKey none }
      rows := by
  refine ⟨fun key => ?_, h.tokens⟩
  rw [← h.live key]
  by_cases hkey : key = connectionKey
  · rw [hkey, hended]
    simp [MemoryLongConnectionLeaseStore.live]
  · simp [MemoryLongConnectionLeaseStore.live, Function.update_of_ne hkey]

/-- The end of a row is put back, and no lease has it in memory. -/
theorem putBack {connectionKey : String} (h : StoresAgree now store rows)
    {row : ChannelConnectionLease} (hrow : rows connectionKey = some row)
    (hended : store.live now connectionKey = none) :
    StoresAgree now store
      (Function.update rows connectionKey (some { row with expiresAt := now })) := by
  refine ⟨fun key => ?_, fun key => ?_⟩
  · by_cases hkey : key = connectionKey
    · rw [hkey, hended, DatabaseLongConnectionLeaseStore.live_putBack]
    · rw [h.live key]
      simp [DatabaseLongConnectionLeaseStore.live, Function.update_of_ne hkey]
  · rw [h.tokens key]
    by_cases hkey : key = connectionKey
    · simp [hkey, DatabaseLongConnectionLeaseStore.token, hrow]
    · simp [DatabaseLongConnectionLeaseStore.token, Function.update_of_ne hkey]

/-- A lease is forgotten in memory when its row is put back. -/
theorem drop {connectionKey : String} (h : StoresAgree now store rows)
    {row : ChannelConnectionLease} (hrow : rows connectionKey = some row) :
    StoresAgree now { store with leases := Function.update store.leases connectionKey none }
      (Function.update rows connectionKey (some { row with expiresAt := now })) := by
  refine ⟨fun key => ?_, fun key => ?_⟩
  · by_cases hkey : key = connectionKey
    · simp [hkey, MemoryLongConnectionLeaseStore.live, DatabaseLongConnectionLeaseStore.live]
    · have hlive := h.live key
      simpa [MemoryLongConnectionLeaseStore.live, DatabaseLongConnectionLeaseStore.live,
        Function.update_of_ne hkey] using hlive
  · rw [h.tokens key]
    by_cases hkey : key = connectionKey
    · simp [hkey, DatabaseLongConnectionLeaseStore.token, hrow]
    · simp [DatabaseLongConnectionLeaseStore.token, Function.update_of_ne hkey]

/-- `acquire` of a key under whose last lease, if it has ended, somebody else was. -/
theorem acquire_iff (h : StoresAgree now store rows) (connectionKey ownerId : String)
    (ttl : Timestamp) :
    ((memoryLeases.call now (.acquire connectionKey ownerId ttl) store).1
          = (databaseLeases.call now (.acquire connectionKey ownerId ttl) rows).1
        ∧ StoresAgree now (memoryLeases.call now (.acquire connectionKey ownerId ttl) store).2
          (databaseLeases.call now (.acquire connectionKey ownerId ttl) rows).2)
      ↔ Coincides now (.acquire connectionKey ownerId ttl) rows := by
  simp only [memoryLeases, databaseLeases, DatabaseLongConnectionLeaseStore.acquire, Prod.map,
    id, MemoryLongConnectionLeaseStore.acquire_eq, h.live connectionKey, Coincides]
  by_cases hchecks : DatabaseLongConnectionLeaseStore.RowChecks connectionKey ownerId
  swap
  · simp [hchecks]
  simp only [hchecks, if_true, true_and, DatabaseLongConnectionLeaseStore.upsert]
  cases hrow : rows connectionKey with
  | none =>
    have htoken : store.tokens connectionKey = 0 := by
      rw [h.tokens, DatabaseLongConnectionLeaseStore.token, hrow, Option.elim_none]
    have hlive : DatabaseLongConnectionLeaseStore.live now connectionKey rows = none := by
      simp [DatabaseLongConnectionLeaseStore.live, hrow]
    have hwrite := h.write ⟨connectionKey, ownerId, 1, now + ttl⟩
    simpa [hlive, MemoryLongConnectionLeaseStore.begins, htoken] using hwrite
  | some row =>
    have htoken := h.tokens_of_row hrow
    by_cases hlive : now < row.expiresAt
    · rw [DatabaseLongConnectionLeaseStore.live_of_row hrow hlive]
      by_cases howner : row.ownerId = ownerId
      · have hput := h.put ⟨connectionKey, ownerId, row.fencingToken, now + ttl⟩ htoken
        simpa [ChannelConnectionLease.lease, howner, hlive] using hput
      · simpa [ChannelConnectionLease.lease, howner, hlive, not_le.mpr hlive] using h
    · rw [DatabaseLongConnectionLeaseStore.live_of_ended hrow (not_lt.mp hlive)]
      by_cases howner : row.ownerId = ownerId
      · -- The owner returns: a new token in memory, the old one in the database.
        simp [howner, hlive, MemoryLongConnectionLeaseStore.begins, htoken]
      · have hwrite := h.write ⟨connectionKey, ownerId, row.fencingToken + 1, now + ttl⟩
        simpa [howner, not_lt.mp hlive, MemoryLongConnectionLeaseStore.begins, htoken]
          using hwrite

/-- `renew` with a lease that is the one the key has, if it has the owner and the token
of that one. -/
theorem renew_iff (h : StoresAgree now store rows) (lease : LongConnectionLease)
    (ttl : Timestamp) :
    ((memoryLeases.call now (.renew lease ttl) store).1
          = (databaseLeases.call now (.renew lease ttl) rows).1
        ∧ StoresAgree now (memoryLeases.call now (.renew lease ttl) store).2
          (databaseLeases.call now (.renew lease ttl) rows).2)
      ↔ Coincides now (.renew lease ttl) rows := by
  simp only [memoryLeases, databaseLeases, DatabaseLongConnectionLeaseStore.renew, Prod.map,
    id, MemoryLongConnectionLeaseStore.renew_eq, h.live lease.connectionKey, Coincides,
    DatabaseLongConnectionLeaseStore.extend]
  cases hrow : rows lease.connectionKey with
  | none =>
    have hlive : DatabaseLongConnectionLeaseStore.live now lease.connectionKey rows = none := by
      simp [DatabaseLongConnectionLeaseStore.live, hrow]
    simpa [hlive] using h
  | some row =>
    have htoken := h.tokens_of_row hrow
    by_cases hlive : now < row.expiresAt
    · rw [DatabaseLongConnectionLeaseStore.live_of_row hrow hlive]
      simp only [Option.some.injEq, ChannelConnectionLease.lease_eq_iff]
      by_cases hmatch : row.ownerId = lease.ownerId ∧ row.fencingToken = lease.fencingToken
      · obtain ⟨howner, hfence⟩ := hmatch
        by_cases hsame : lease.expiresAt = row.expiresAt
        · have hput := h.put { lease with expiresAt := now + ttl } (htoken.trans hfence)
          simpa [howner, hfence, hlive, hsame, hsame ▸ hlive] using hput
        · -- The lease is an older one: refused in memory, renewed in the database.
          simp [howner, hfence, hlive, hsame]
      · have hno : ∀ p, ¬(row.ownerId = lease.ownerId
            ∧ row.fencingToken = lease.fencingToken ∧ p) :=
          fun p hboth => hmatch ⟨hboth.1, hboth.2.1⟩
        simp only [hno, if_false, Option.map_none, true_and]
        exact iff_of_true h (by
          rintro row' ⟨rfl⟩ howner hfence
          exact absurd ⟨howner, hfence⟩ hmatch)
    · rw [DatabaseLongConnectionLeaseStore.live_of_ended hrow (not_lt.mp hlive)]
      simpa [hlive] using h

/-- `release` of a lease that is the one the key has, if it has the owner and the token
of that one and that one has not ended. -/
theorem release_iff (h : StoresAgree now store rows) (lease : LongConnectionLease) :
    ((memoryLeases.call now (.release lease) store).1
          = (databaseLeases.call now (.release lease) rows).1
        ∧ StoresAgree now (memoryLeases.call now (.release lease) store).2
          (databaseLeases.call now (.release lease) rows).2)
      ↔ Coincides now (.release lease) rows := by
  simp only [memoryLeases, databaseLeases, true_and, MemoryLongConnectionLeaseStore.release,
    DatabaseLongConnectionLeaseStore.release, Coincides]
  cases hrow : rows lease.connectionKey with
  | none =>
    have hlive := h.live lease.connectionKey
    simp only [DatabaseLongConnectionLeaseStore.live, hrow, Option.filter_none,
      Option.map_none] at hlive
    refine iff_of_true ?_ (by simp)
    split
    · exact h.forget hlive
    · exact h
  | some row =>
    simp only [Option.mem_def, Option.some.injEq, forall_eq']
    by_cases hmatch : row.ownerId = lease.ownerId ∧ row.fencingToken = lease.fencingToken
    · rw [if_pos hmatch]
      by_cases hstored : store.leases lease.connectionKey = some lease
      · rw [if_pos hstored]
        refine iff_of_true (h.drop hrow) (fun _ _ hlive => ?_)
        -- The lease in memory has the end of the row, or it has ended.
        have hleft : store.live now lease.connectionKey = some (row.lease lease.connectionKey) := by
          rw [h.live, DatabaseLongConnectionLeaseStore.live_of_row hrow hlive]
        have hkept := (MemoryLongConnectionLeaseStore.live_eq_some_iff.mp hleft).1
        exact (ChannelConnectionLease.lease_eq_iff.mp
          (Option.some.inj (hkept.symm.trans hstored))).2.2
      · rw [if_neg hstored]
        by_cases hlive : now < row.expiresAt
        · -- An older lease: kept in memory, ended in the database.
          have hleft := h.live lease.connectionKey
          rw [DatabaseLongConnectionLeaseStore.live_of_row hrow hlive] at hleft
          refine iff_of_false (fun hafter => ?_) (fun hsame => hstored ?_)
          · have hnone := hafter.live lease.connectionKey
            rw [DatabaseLongConnectionLeaseStore.live_putBack, hleft] at hnone
            cases hnone
          · rw [← ChannelConnectionLease.lease_eq_iff.mpr
              ⟨hmatch.1, hmatch.2, hsame hmatch.1 hmatch.2 hlive⟩]
            exact (MemoryLongConnectionLeaseStore.live_eq_some_iff.mp hleft).1
        · have hended : store.live now lease.connectionKey = none := by
            rw [h.live, DatabaseLongConnectionLeaseStore.live_of_ended hrow (not_lt.mp hlive)]
          exact iff_of_true (h.putBack hrow hended) (fun _ _ hlate => absurd hlate hlive)
    · rw [if_neg hmatch]
      refine iff_of_true ?_ (fun howner hfence => absurd ⟨howner, hfence⟩ hmatch)
      split
      · rename_i hstored
        refine h.forget ?_
        by_contra hlive
        obtain ⟨left, hleft⟩ := Option.ne_none_iff_exists'.mp hlive
        obtain ⟨hkept, -⟩ := MemoryLongConnectionLeaseStore.live_eq_some_iff.mp hleft
        obtain rfl := Option.some.inj (hkept.symm.trans hstored)
        rw [h.live] at hleft
        obtain ⟨row', hrow', -, hlease⟩ :=
          DatabaseLongConnectionLeaseStore.live_eq_some_iff.mp hleft
        obtain rfl := Option.some.inj (hrow'.symm.trans hrow)
        have hsame := ChannelConnectionLease.lease_eq_iff.mp hlease
        exact hmatch ⟨hsame.1, hsame.2.1⟩
      · exact h

end StoresAgree

/-- **What the stores answer alike**: stores that agree answer a call alike, and agree
after it, exactly when it is a call of `Coincides`. -/
theorem step_agrees_iff {now : Timestamp} {store : MemoryLongConnectionLeaseStore}
    {rows : ChannelConnectionLeases} (h : StoresAgree now store rows) (call : LeaseCall) :
    ((memoryLeases.call now call store).1 = (databaseLeases.call now call rows).1
        ∧ StoresAgree now (memoryLeases.call now call store).2
          (databaseLeases.call now call rows).2)
      ↔ Coincides now call rows := by
  cases call with
  | acquire connectionKey ownerId ttl => exact h.acquire_iff connectionKey ownerId ttl
  | renew lease ttl => exact h.renew_iff lease ttl
  | release lease => exact h.release_iff lease

/-! ## Sequences of calls -/

/-- **The epochs of a key have tokens of their own**: a lease that is granted when the
key has none carries a larger token than every lease that was granted before it. -/
def EpochsFresh {σ : Type} (S : TimedService Timestamp σ LeaseCall LeaseAnswer)
    (live : Timestamp → String → σ → Option LongConnectionLease)
    (calls : List (Timestamp × LeaseCall)) : Prop :=
  ∀ before now connectionKey ownerId ttl later,
    calls = before ++ (now, LeaseCall.acquire connectionKey ownerId ttl) :: later →
    live now connectionKey (S.after S.start before) = none →
    ∀ lease, (S.call now (.acquire connectionKey ownerId ttl) (S.after S.start before)).1
        = .ok (some lease) →
      ∀ earlier, .ok (some earlier) ∈ S.answers S.start before →
        earlier.connectionKey = connectionKey → earlier.fencingToken < lease.fencingToken

namespace MemoryLongConnectionLeaseStore

/-- No lease of the store is under a token that its key has not had. -/
def Counted (store : MemoryLongConnectionLeaseStore) : Prop :=
  ∀ connectionKey lease, store.leases connectionKey = some lease →
    lease.fencingToken ≤ store.tokens connectionKey

variable {now ttl : Timestamp} {connectionKey ownerId : String} {lease : LongConnectionLease}
  {store : MemoryLongConnectionLeaseStore}

/-- A lease that is put down under a token that its key has had. -/
theorem Counted.put (h : store.Counted)
    (hle : lease.fencingToken ≤ store.tokens lease.connectionKey) : (store.put lease).Counted := by
  intro key lease' hlease'
  by_cases hkey : key = lease.connectionKey
  · subst hkey
    simp only [MemoryLongConnectionLeaseStore.put, Function.update_self, Option.some.injEq]
      at hlease'
    subst hlease'
    exact hle
  · simp only [MemoryLongConnectionLeaseStore.put, Function.update_of_ne hkey] at hlease'
    exact h key lease' hlease'

/-- The tokens after a lease begins. -/
theorem tokens_begins (key : String) :
    (store.begins now ttl connectionKey ownerId).2.tokens key
      = if key = connectionKey then store.tokens connectionKey + 1 else store.tokens key := by
  by_cases hkey : key = connectionKey
  · simp [begins, MemoryLongConnectionLeaseStore.put, hkey]
  · simp [begins, MemoryLongConnectionLeaseStore.put, hkey, Function.update_of_ne hkey]

/-- A lease that begins. -/
theorem Counted.begins (h : store.Counted) :
    (store.begins now ttl connectionKey ownerId).2.Counted := by
  refine Counted.put (fun key lease hlease => (h key lease hlease).trans ?_) ?_
  · by_cases hkey : key = connectionKey
    · simp [hkey]
    · simp [Function.update_of_ne hkey]
  · simp

/-- **What a call does to the tokens**: they do not go back, and an answer is under one
that its key has had. -/
structure Counts (store : MemoryLongConnectionLeaseStore)
    (r : Option LongConnectionLease × MemoryLongConnectionLeaseStore) : Prop where
  counted : r.2.Counted
  answered : ∀ lease, r.1 = some lease → lease.fencingToken ≤ r.2.tokens lease.connectionKey
  mono : ∀ connectionKey, store.tokens connectionKey ≤ r.2.tokens connectionKey

/-- Nothing is granted and nothing changes. -/
theorem Counted.refused (h : store.Counted) : Counts store (none, store) :=
  ⟨h, fun _ hlease => (nomatch hlease), fun _ => le_rfl⟩

/-- A lease is granted under a token that its key has had. -/
theorem Counted.granted (h : store.Counted)
    (hle : lease.fencingToken ≤ store.tokens lease.connectionKey) :
    Counts store (some lease, store.put lease) := by
  refine ⟨h.put hle, fun lease' hlease' => ?_, fun _ => le_rfl⟩
  obtain rfl := Option.some.inj hlease'
  exact hle

/-- `acquire`. -/
theorem Counted.acquire (h : store.Counted) :
    Counts store (store.acquire now ttl connectionKey ownerId) := by
  rw [acquire_eq]
  cases hlive : store.live now connectionKey with
  | some current =>
    have hle := h connectionKey current (live_eq_some_iff.mp hlive).1
    dsimp only
    split
    · exact h.granted hle
    · exact h.refused
  | none =>
    refine ⟨h.begins, fun lease hlease => ?_, fun key => ?_⟩
    · obtain rfl := Option.some.inj hlease
      simp [tokens_begins]
    · rw [tokens_begins]
      split
      · rename_i hkey
        rw [hkey]
        exact Nat.le_succ _
      · exact le_rfl

/-- `renew`. -/
theorem Counted.renew (h : store.Counted) : Counts store (store.renew now ttl lease) := by
  rw [renew_eq]
  split
  · rename_i hlive
    exact h.granted (h lease.connectionKey lease (live_eq_some_iff.mp hlive).1)
  · exact h.refused

/-- `release`. -/
theorem Counted.release (h : store.Counted) : Counts store (none, store.release lease) := by
  unfold MemoryLongConnectionLeaseStore.release
  split
  · refine ⟨fun key lease' hlease' => ?_, fun _ hlease' => (nomatch hlease'), fun _ => le_rfl⟩
    dsimp only at hlease'
    by_cases hkey : key = lease.connectionKey
    · simp [hkey] at hlease'
    · rw [Function.update_of_ne hkey] at hlease'
      exact h key lease' hlease'
  · exact h.refused

/-- **Every lease of the store in memory that begins is under a new token**, whatever
the calls. -/
theorem epochsFresh (calls : List (Timestamp × LeaseCall)) :
    EpochsFresh memoryLeases MemoryLongConnectionLeaseStore.live calls := by
  intro before now connectionKey ownerId ttl later _ hended lease hlease earlier hearlier hkey
  have hcall : ∀ (t : Timestamp) (c : LeaseCall) (s : MemoryLongConnectionLeaseStore),
      s.Counted → ∃ r, Counts s r ∧ memoryLeases.call t c s = r.map Except.ok id := by
    intro t c s hs
    cases c with
    | acquire connectionKey ownerId ttl => exact ⟨_, hs.acquire, rfl⟩
    | renew lease ttl => exact ⟨_, hs.renew, rfl⟩
    | release lease => exact ⟨_, hs.release, rfl⟩
  have hcounted := TimedService.invariant (S := memoryLeases)
    (I := MemoryLongConnectionLeaseStore.Counted)
    (A := fun o s => ∀ lease, o = .ok (some lease) →
      lease.fencingToken ≤ s.tokens lease.connectionKey)
    (fun t c s hs => by
      obtain ⟨r, hr, heq⟩ := hcall t c s hs
      rw [heq]
      exact ⟨hr.counted, fun lease hlease => hr.answered lease (Except.ok.inj hlease)⟩)
    (fun t c s o hs ho lease hlease => by
      obtain ⟨r, hr, heq⟩ := hcall t c s hs
      rw [heq]
      exact (ho lease hlease).trans (hr.mono lease.connectionKey))
    (s := memoryLeases.start) (fun _ _ hnone => (nomatch hnone)) before
  have hle := hcounted.2 _ hearlier earlier rfl
  generalize memoryLeases.after memoryLeases.start before = store at hended hlease hle
  have hbegins : memoryLeases.call now (.acquire connectionKey ownerId ttl) store
      = (store.begins now ttl connectionKey ownerId).map Except.ok id := by
    show (store.acquire now ttl connectionKey ownerId).map Except.ok id = _
    rw [acquire_eq, hended]
  rw [hbegins] at hlease
  obtain rfl := Option.some.inj (Except.ok.inj hlease)
  exact Nat.lt_succ_of_le (hkey ▸ hle)

end MemoryLongConnectionLeaseStore

/-- **The two stores answer alike**: on every sequence of calls of `Coincides`, with a
clock that does not go back, they grant and refuse the same calls under the same tokens
until the same times, and in both a lease that begins carries a larger token than every
lease of its key before it. -/
theorem lease_stores_agree (calls : List (Timestamp × LeaseCall))
    (hclock : TimedService.Clocked calls)
    (hcoincides : databaseLeases.Meets Coincides databaseLeases.start calls) :
    memoryLeases.answers memoryLeases.start calls
        = databaseLeases.answers databaseLeases.start calls
      ∧ EpochsFresh memoryLeases MemoryLongConnectionLeaseStore.live calls
      ∧ EpochsFresh databaseLeases DatabaseLongConnectionLeaseStore.live calls := by
  have hlockstep : ∀ {calls : List (Timestamp × LeaseCall)}, TimedService.Clocked calls →
      databaseLeases.Meets Coincides databaseLeases.start calls →
      memoryLeases.answers memoryLeases.start calls
          = databaseLeases.answers databaseLeases.start calls
        ∧ ∀ t, (∀ c ∈ calls, c.1 ≤ t) → StoresAgree t (memoryLeases.after memoryLeases.start calls)
          (databaseLeases.after databaseLeases.start calls) :=
    TimedService.lockstep_start (fun _ _ _ _ hle h => h.later hle)
      (fun _ call _ _ h hok => (step_agrees_iff h call).mpr hok) StoresAgree.start
  refine ⟨(hlockstep hclock hcoincides).1, MemoryLongConnectionLeaseStore.epochsFresh calls, ?_⟩
  rintro before now connectionKey ownerId ttl later rfl hended lease hlease earlier hearlier hkey
  -- What the database answers is what the store in memory answers.
  obtain ⟨hbefore, -, hle⟩ := List.pairwise_append.mp hclock
  obtain ⟨hanswers, hagree⟩ := hlockstep hbefore hcoincides.of_append
  have hnow := hagree now (fun c hc => hle c hc _ List.mem_cons_self)
  have hcall := ((step_agrees_iff hnow _).mpr hcoincides.call_of_append).1
  rw [← hanswers] at hearlier
  rw [← hcall] at hlease
  rw [← hnow.live] at hended
  exact MemoryLongConnectionLeaseStore.epochsFresh _ before now connectionKey ownerId ttl later
    rfl hended lease hlease earlier hearlier hkey

/-- **The owner that comes back**: its lease of ten seconds has ended, nobody had the
key meanwhile, and it acquires again. In memory a second epoch begins, in the database
the first one goes on. -/
def ownerReturns : List (Timestamp × LeaseCall) :=
  [(0, .acquire "feishu:t:cli" "gateway-a" (seconds 10)),
    (seconds 20, .acquire "feishu:t:cli" "gateway-a" (seconds 10))]

/-- **One token for two epochs**: the stores answer the second call under different
tokens, and that of the database is not new. -/
theorem lease_stores_differ :
    TimedService.Clocked ownerReturns
      ∧ memoryLeases.answers memoryLeases.start ownerReturns
        ≠ databaseLeases.answers databaseLeases.start ownerReturns
      ∧ ¬ EpochsFresh databaseLeases DatabaseLongConnectionLeaseStore.live ownerReturns := by
  refine ⟨by decide, by decide, fun hfresh => ?_⟩
  have hlt := hfresh [(0, .acquire "feishu:t:cli" "gateway-a" (seconds 10))] (seconds 20)
    "feishu:t:cli" "gateway-a" (seconds 10) [] rfl (by decide)
    ⟨"feishu:t:cli", "gateway-a", 1, seconds 30⟩ (by decide)
    ⟨"feishu:t:cli", "gateway-a", 1, seconds 10⟩ (by decide) rfl
  exact absurd hlt (by decide)

/-- An owner that renews and releases, another that takes over, and the first that
comes back. -/
def takeover : List (Timestamp × LeaseCall) :=
  [(0, .acquire "feishu:t:cli" "gateway-a" (seconds 10)),
    (seconds 5, .renew ⟨"feishu:t:cli", "gateway-a", 1, seconds 10⟩ (seconds 10)),
    (seconds 6, .release ⟨"feishu:t:cli", "gateway-a", 1, seconds 15⟩),
    (seconds 6, .acquire "feishu:t:cli" "gateway-b" (seconds 10)),
    (seconds 7, .acquire "feishu:t:cli" "gateway-a" (seconds 10)),
    (seconds 16, .acquire "feishu:t:cli" "gateway-a" (seconds 10))]

/-- The stores agree on the takeover, with tokens 1, 2 and 3. -/
theorem lease_stores_agree_takeover :
    memoryLeases.answers memoryLeases.start takeover
        = databaseLeases.answers databaseLeases.start takeover
      ∧ EpochsFresh memoryLeases MemoryLongConnectionLeaseStore.live takeover
      ∧ EpochsFresh databaseLeases DatabaseLongConnectionLeaseStore.live takeover :=
  lease_stores_agree takeover (by decide) (by decide)
