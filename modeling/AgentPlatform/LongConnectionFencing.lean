import Mathlib.Tactic.Linarith
import AgentPlatform.LongConnectionLeases
import AgentPlatform.Transition

/-!
# Who consumes a long connection

The embedding of `acquire_long_connection`, `renew_long_connection`,
`release_long_connection` and the lease check of `receive_long_connection_event` of
`FeishuChannelAdapter`, for the instances of a tenant that share the store in the
database.

A call reads the local clock, begins a transaction, runs one statement, and puts the
answer into `_lease` when it comes back; any number of calls may be under way, and
each may end with an exception at any point. An instance believes its own lease for
as long as its own clock says, and another instance is let in by the clock of the
database, which is read when a transaction begins.

A lease of an instance is covered while the row of its key lasts at least as long
(`FleetFenced.covered`). What uncovers a lease is the instance itself: it is released in
the database before it is forgotten in the instance.
-/

/-- What the adapter of an instance is built with; `clockOffset` is what its clock
shows when that of the database shows 0. -/
structure FeishuAdapterSettings where
  ownerId : String
  leaseTtl : Timestamp
  clockOffset : Timestamp

/-- **`_connection_key`.** -/
def feishuConnectionKey (tenantId appId : String) : String :=
  "feishu:" ++ tenantId ++ ":" ++ appId

/-- A lease that an instance has, or that is on its way to it. `givenUp` is for the
record: since the lease was granted, a release of the instance has ended its row. -/
structure HeldLease where
  lease : LongConnectionLease
  givenUp : Bool
  deriving DecidableEq

/-- The statement a call of an adapter runs. -/
inductive LeaseStatement where
  | acquire (connectionKey : String)
  | renew (lease : LongConnectionLease)
  | release (lease : LongConnectionLease)
  deriving DecidableEq

/-- What comes back to a call that did not raise. -/
inductive LeaseReply where
  | granted (held : HeldLease)
  | lost
  | released
  deriving DecidableEq

/-- How far a call of an adapter has come: the clock was read, the transaction has
begun, or it is committed and the answer is on its way. -/
inductive LeasePhase where
  | idle
  | called (statement : LeaseStatement) (clock : Timestamp)
  | begun (statement : LeaseStatement) (clock began : Timestamp)
  | committed (reply : LeaseReply)
  deriving DecidableEq

/-- The state of the database, of the instances and of their calls; an instance may
have many calls, each under its own number. -/
structure FleetState (ι : Type) where
  now : Timestamp
  rows : ChannelConnectionLeases
  lease : ι → Option HeldLease
  calls : ι → ℕ → LeasePhase

/-- What can happen next. -/
inductive FleetLabel (ι : Type) where
  | tick (elapsed : ℕ)
  | acquire (i : ι) (n : ℕ) (appId : String)
  | renew (i : ι) (n : ℕ)
  | release (i : ι) (n : ℕ)
  | begin (i : ι) (n : ℕ)
  | commit (i : ι) (n : ℕ)
  | resume (i : ι) (n : ℕ)
  | fail (i : ι) (n : ℕ)

namespace FleetState

variable {ι : Type} [DecidableEq ι]

/-- The clock of an instance. -/
def clock (fleet : ι → FeishuAdapterSettings) (s : FleetState ι) (i : ι) : Timestamp :=
  s.now + (fleet i).clockOffset

/-- A call comes to another phase. -/
def goTo (s : FleetState ι) (i : ι) (n : ℕ) (phase : LeasePhase) : FleetState ι :=
  { s with calls := Function.update s.calls i (Function.update (s.calls i) n phase) }

/-- `self._lease = lease`. -/
def keep (s : FleetState ι) (i : ι) (lease : Option HeldLease) : FleetState ι :=
  { s with lease := Function.update s.lease i lease }

/-- **The lease check of `receive_long_connection_event`**, for an event of the
application with this key. -/
def Passes (fleet : ι → FeishuAdapterSettings) (s : FleetState ι) (i : ι)
    (connectionKey : String) : Prop :=
  ∃ held ∈ s.lease i, held.lease.connectionKey = connectionKey
    ∧ s.clock fleet i < held.lease.expiresAt

instance (fleet : ι → FeishuAdapterSettings) (s : FleetState ι) (i : ι)
    (connectionKey : String) : Decidable (s.Passes fleet i connectionKey) :=
  match h : s.lease i with
  | none => .isFalse (fun ⟨held, hheld, _⟩ => by simp [h] at hheld)
  | some held =>
    decidable_of_iff (held.lease.connectionKey = connectionKey
      ∧ s.clock fleet i < held.lease.expiresAt) (by simp [Passes, h])

end FleetState

/-- The record that a release has ended the row of a key. -/
def HeldLease.giveUp (connectionKey : String) (held : HeldLease) : HeldLease :=
  if held.lease.connectionKey = connectionKey then { held with givenUp := true } else held

/-- The same for a call whose lease is on its way. -/
def LeasePhase.giveUp (connectionKey : String) : LeasePhase → LeasePhase
  | .committed (.granted held) => .committed (.granted (held.giveUp connectionKey))
  | phase => phase

namespace FleetState

variable {ι : Type} [DecidableEq ι]

/-- A release of an instance has ended the row of a key: recorded with all the leases
of the key that the instance has or is about to have. -/
def giveUp (s : FleetState ι) (i : ι) (connectionKey : String) : FleetState ι :=
  { s with
    lease := Function.update s.lease i ((s.lease i).map (HeldLease.giveUp connectionKey))
    calls := Function.update s.calls i
      (fun n => (s.calls i n).giveUp connectionKey) }

/-- The phase of a call after the store has answered `acquire`: `None` is raised as
`FEISHU_LONG_CONNECTION_LEASE_HELD`. -/
def acquired : LeaseAnswer → LeasePhase
  | .ok (some lease) => .committed (.granted ⟨lease, false⟩)
  | .ok none => .idle
  | .error _ => .idle

/-- The phase of a call after the store has answered `renew`. -/
def renewed : LeaseAnswer → LeasePhase
  | .ok (some lease) => .committed (.granted ⟨lease, false⟩)
  | .ok none => .committed .lost
  | .error _ => .idle

/-- **The statement of a call and its commit.** -/
def commit (fleet : ι → FeishuAdapterSettings) (s : FleetState ι) (i : ι) (n : ℕ)
    (clock began : Timestamp) : LeaseStatement → FleetState ι
  | .acquire connectionKey =>
    let r := DatabaseLongConnectionLeaseStore.acquire began clock (fleet i).leaseTtl
      connectionKey (fleet i).ownerId s.rows
    { s with rows := r.2 }.goTo i n (acquired r.1)
  | .renew lease =>
    let r := DatabaseLongConnectionLeaseStore.renew began clock (fleet i).leaseTtl lease s.rows
    { s with rows := r.2 }.goTo i n (renewed r.1)
  | .release lease =>
    let rows := DatabaseLongConnectionLeaseStore.release began lease s.rows
    (if ∃ row ∈ s.rows lease.connectionKey,
          row.ownerId = lease.ownerId ∧ row.fencingToken = lease.fencingToken then
        { s with rows := rows }.giveUp i lease.connectionKey
      else { s with rows := rows }).goTo i n (.committed .released)

/-- What an adapter does with the answer. -/
def resume (s : FleetState ι) (i : ι) (n : ℕ) : LeaseReply → FleetState ι
  | .granted held => (s.keep i (some held)).goTo i n .idle
  | .lost => (s.keep i none).goTo i n .idle
  | .released => (s.keep i none).goTo i n .idle

/-- **One step of the fleet.** A renewal without a lease raises, and a release without
one does nothing. -/
def step (tenantId : String) (fleet : ι → FeishuAdapterSettings) (s : FleetState ι) :
    FleetLabel ι → Option (FleetState ι)
  | .tick elapsed => some { s with now := s.now + elapsed }
  | .acquire i n appId =>
    if s.calls i n = .idle then
      some (s.goTo i n (.called (.acquire (feishuConnectionKey tenantId appId))
        (s.clock fleet i)))
    else none
  | .renew i n =>
    match s.calls i n, s.lease i with
    | .idle, some held => some (s.goTo i n (.called (.renew held.lease) (s.clock fleet i)))
    | _, _ => none
  | .release i n =>
    match s.calls i n, s.lease i with
    | .idle, some held => some (s.goTo i n (.called (.release held.lease) (s.clock fleet i)))
    | _, _ => none
  | .begin i n =>
    match s.calls i n with
    | .called statement clock => some (s.goTo i n (.begun statement clock s.now))
    | _ => none
  | .commit i n =>
    match s.calls i n with
    | .begun statement clock began => some (s.commit fleet i n clock began statement)
    | _ => none
  | .resume i n =>
    match s.calls i n with
    | .committed reply => some (s.resume i n reply)
    | _ => none
  | .fail i n => some (s.goTo i n .idle)

/-- An instance has a lease, or one is on its way to it. -/
def Claims (s : FleetState ι) (i : ι) (held : HeldLease) : Prop :=
  s.lease i = some held ∨ ∃ n, s.calls i n = .committed (.granted held)

end FleetState

/-- **The fleet**: no instance has a lease and no call is under way at first. -/
def fleetMachine {ι : Type} [DecidableEq ι] (tenantId : String)
    (fleet : ι → FeishuAdapterSettings) : Machine (FleetState ι) (FleetLabel ι) where
  init s := (∀ i, s.lease i = none) ∧ ∀ i n, s.calls i n = .idle
  step := FleetState.step tenantId fleet

/-! ## The order that the fleet relies on -/

namespace FleetState

variable {ι : Type} [DecidableEq ι] (fleet : ι → FeishuAdapterSettings)

/-- The transaction has not begun before the clock was read for a lease of the key that
the instance has or is about to have, has not given up, and believes in. -/
def InOrder (s : FleetState ι) (i : ι) (connectionKey : String) (began : Timestamp) : Prop :=
  ∀ held, s.Claims i held → held.lease.connectionKey = connectionKey →
    held.givenUp = false → s.clock fleet i < held.lease.expiresAt →
      held.lease.expiresAt ≤ began + (fleet i).clockOffset + (fleet i).leaseTtl

/-- The other instances do not believe any more in the leases of the key that they have
given up. -/
def Forgotten (s : FleetState ι) (i : ι) (connectionKey : String) : Prop :=
  ∀ j, j ≠ i → ∀ held, s.Claims j held → held.lease.connectionKey = connectionKey →
    held.givenUp = true → held.lease.expiresAt ≤ s.clock fleet j

/-- **The steps that keep the fence**: an acquisition or a renewal takes effect in a
transaction that has not begun before the clock was read for a lease of the same
instance, and nobody acquires a key that has ended while another instance believes in
a lease of it that it has released. -/
def Orderly (s : FleetState ι) : FleetLabel ι → Prop
  | .commit i n =>
    match s.calls i n with
    | .begun (.acquire connectionKey) _ began =>
      s.InOrder fleet i connectionKey began
        ∧ ((∀ row ∈ s.rows connectionKey, row.expiresAt ≤ began) →
          s.Forgotten fleet i connectionKey)
    | .begun (.renew lease) _ began => s.InOrder fleet i lease.connectionKey began
    | _ => True
  | _ => True

end FleetState

/-- The lease a statement names is of this owner. -/
def LeaseStatement.Owned (ownerId : String) : LeaseStatement → Prop
  | .acquire _ => True
  | .renew lease => lease.ownerId = ownerId
  | .release lease => lease.ownerId = ownerId

/-- A call reads the clock before its transaction begins, and that is in the past. -/
def LeasePhase.Timely (adapter : FeishuAdapterSettings) (now : Timestamp) : LeasePhase → Prop
  | .called statement clock =>
    statement.Owned adapter.ownerId ∧ clock ≤ now + adapter.clockOffset
  | .begun statement clock began =>
    statement.Owned adapter.ownerId ∧ clock ≤ began + adapter.clockOffset ∧ began ≤ now
  | _ => True

/-- **What keeps the instances apart**: the lease an instance believes in is that of the
row of its key, and ends no later than the row if it was not given up. -/
structure FleetFenced {ι : Type} (fleet : ι → FeishuAdapterSettings) (s : FleetState ι) : Prop where
  covered : ∀ i held, s.Claims i held → s.clock fleet i < held.lease.expiresAt →
    ∃ row ∈ s.rows held.lease.connectionKey, row.ownerId = (fleet i).ownerId
      ∧ (held.givenUp = false → held.lease.expiresAt ≤ row.expiresAt + (fleet i).clockOffset)
  owned : ∀ i held, s.Claims i held → held.lease.ownerId = (fleet i).ownerId
  timely : ∀ i n, (s.calls i n).Timely (fleet i) s.now

namespace FleetState

variable {ι : Type} [DecidableEq ι] {fleet : ι → FeishuAdapterSettings} {s : FleetState ι}
  {i j : ι} {n : ℕ} {held : HeldLease} {phase : LeasePhase} {lease : Option HeldLease}

/-- The leases after a call has come to another phase. -/
theorem Claims.of_goTo (h : (s.goTo i n phase).Claims j held) :
    s.Claims j held ∨ (j = i ∧ phase = .committed (.granted held)) := by
  obtain h | ⟨m, hm⟩ := h
  · exact .inl (.inl h)
  · by_cases hj : j = i
    · subst hj
      by_cases hn : m = n
      · subst hn
        simp only [goTo, Function.update_self] at hm
        exact .inr ⟨rfl, hm⟩
      · simp only [goTo, Function.update_self, Function.update_of_ne hn] at hm
        exact .inl (.inr ⟨m, hm⟩)
    · simp only [goTo, Function.update_of_ne hj] at hm
      exact .inl (.inr ⟨m, hm⟩)

/-- The leases after an instance has put one into `_lease`. -/
theorem Claims.of_keep (h : (s.keep i lease).Claims j held) :
    s.Claims j held ∨ (j = i ∧ lease = some held) := by
  obtain h | h := h
  · by_cases hj : j = i
    · subst hj
      simp only [keep, Function.update_self] at h
      exact .inr ⟨rfl, h⟩
    · simp only [keep, Function.update_of_ne hj] at h
      exact .inl (.inl h)
  · exact .inl (.inr h)

/-- The leases after a release was recorded: those of the instance and the key are
given up, and the others are what they were. -/
theorem Claims.of_giveUp {connectionKey : String} (h : (s.giveUp i connectionKey).Claims j held) :
    ∃ before, s.Claims j before ∧ held.lease = before.lease
      ∧ (held.givenUp = false → before.givenUp = false)
      ∧ (j = i → held.lease.connectionKey = connectionKey → held.givenUp = true) := by
  have hgive : ∀ before : HeldLease, (before.giveUp connectionKey).lease = before.lease
      ∧ ((before.giveUp connectionKey).givenUp = false → before.givenUp = false)
      ∧ (before.lease.connectionKey = connectionKey →
        (before.giveUp connectionKey).givenUp = true) := by
    intro before
    unfold HeldLease.giveUp
    split
    · exact ⟨rfl, nofun, fun _ => rfl⟩
    · rename_i hkey
      exact ⟨rfl, id, fun heq => absurd heq hkey⟩
  by_cases hj : j = i
  swap
  · refine ⟨held, ?_, rfl, id, fun heq => absurd heq hj⟩
    obtain h | ⟨m, hm⟩ := h
    · exact .inl (by simpa [giveUp, Function.update_of_ne hj] using h)
    · exact .inr ⟨m, by simpa [giveUp, Function.update_of_ne hj] using hm⟩
  subst hj
  obtain h | ⟨m, hm⟩ := h
  · simp only [giveUp, Function.update_self, Option.map_eq_some_iff] at h
    obtain ⟨before, hbefore, rfl⟩ := h
    obtain ⟨hlease, hkept, hgiven⟩ := hgive before
    exact ⟨before, .inl hbefore, hlease, hkept, fun _ hkey => hgiven (hlease ▸ hkey)⟩
  · simp only [giveUp, Function.update_self] at hm
    cases hcall : s.calls j m with
    | idle =>
      rw [hcall] at hm
      cases hm
    | called statement clock =>
      rw [hcall] at hm
      cases hm
    | begun statement clock began =>
      rw [hcall] at hm
      cases hm
    | committed reply =>
      cases reply with
      | granted before =>
        rw [hcall] at hm
        obtain rfl := LeaseReply.granted.inj (LeasePhase.committed.inj hm)
        obtain ⟨hlease, hkept, hgiven⟩ := hgive before
        exact ⟨before, .inr ⟨m, hcall⟩, hlease, hkept, fun _ hkey => hgiven (hlease ▸ hkey)⟩
      | lost =>
        rw [hcall] at hm
        cases hm
      | released =>
        rw [hcall] at hm
        cases hm

/-- The phases after a call has come to another one. -/
theorem calls_goTo (m : ℕ) :
    (s.goTo i n phase).calls j m = phase ∨ (s.goTo i n phase).calls j m = s.calls j m := by
  by_cases hj : j = i
  · subst hj
    by_cases hm : m = n
    · subst hm
      exact .inl (by simp [goTo])
    · exact .inr (by simp [goTo, Function.update_of_ne hm])
  · exact .inr (by simp [goTo, Function.update_of_ne hj])

end FleetState

namespace FleetFenced

variable {ι : Type} [DecidableEq ι] {fleet : ι → FeishuAdapterSettings} {s : FleetState ι}
  {i : ι} {n : ℕ}

/-- A call comes to a phase in which no lease is on its way. -/
theorem goTo (h : FleetFenced fleet s) {phase : LeasePhase}
    (hphase : ∀ held, phase ≠ .committed (.granted held))
    (htimely : phase.Timely (fleet i) s.now) : FleetFenced fleet (s.goTo i n phase) := by
  have hclaims : ∀ j held, (s.goTo i n phase).Claims j held → s.Claims j held :=
    fun j held hheld => hheld.of_goTo.resolve_right (fun hgranted => hphase held hgranted.2)
  refine ⟨fun j held hheld hlive => h.covered j held (hclaims j held hheld) hlive,
    fun j held hheld => h.owned j held (hclaims j held hheld), fun j m => ?_⟩
  by_cases hj : j = i
  · subst hj
    obtain hcall | hcall := FleetState.calls_goTo (s := s) (i := j) (j := j) (n := n) m
    · rw [hcall]
      exact htimely
    · rw [hcall]
      exact h.timely j m
  · have hcall : (s.goTo i n phase).calls j m = s.calls j m := by
      simp [FleetState.goTo, Function.update_of_ne hj]
    rw [hcall]
    exact h.timely j m

/-- An instance forgets its lease, or puts one that was on its way into its place. -/
theorem keep (h : FleetFenced fleet s) {lease : Option HeldLease}
    (hlease : ∀ held ∈ lease, s.Claims i held) : FleetFenced fleet (s.keep i lease) := by
  have hclaims : ∀ j held, (s.keep i lease).Claims j held → s.Claims j held := by
    intro j held hheld
    obtain hheld | ⟨rfl, hkept⟩ := hheld.of_keep
    · exact hheld
    · exact hlease held hkept
  exact ⟨fun j held hheld hlive => h.covered j held (hclaims j held hheld) hlive,
    fun j held hheld => h.owned j held (hclaims j held hheld), h.timely⟩

/-- Time passes: a lease that is believed in now was believed in before. -/
theorem tick (h : FleetFenced fleet s) (elapsed : ℕ) :
    FleetFenced fleet { s with now := s.now + elapsed } := by
  have hpast : s.now ≤ s.now + elapsed := le_add_of_nonneg_right (Int.natCast_nonneg elapsed)
  refine ⟨fun j held hheld hlive => h.covered j held hheld (lt_of_le_of_lt ?_ hlive),
    h.owned, fun j m => ?_⟩
  · exact Int.add_le_add_right hpast _
  · have htimely := h.timely j m
    show (s.calls j m).Timely _ _
    cases hcall : s.calls j m with
    | idle => trivial
    | called statement clock =>
      rw [hcall] at htimely
      obtain ⟨howned, hclock⟩ := htimely
      exact ⟨howned, hclock.trans (Int.add_le_add_right hpast _)⟩
    | begun statement clock began =>
      rw [hcall] at htimely
      obtain ⟨howned, hclock, hbegan⟩ := htimely
      exact ⟨howned, hclock, hbegan.trans hpast⟩
    | committed reply => trivial

/-- **A lease is granted**: the new row covers the leases of the instance, and nobody
else believes in one. -/
theorem grant (h : FleetFenced fleet s) {connectionKey : String} {clock began : Timestamp}
    (token : ℕ) (hclock : clock ≤ began + (fleet i).clockOffset)
    (horder : s.InOrder fleet i connectionKey began)
    (hothers : ∀ j, j ≠ i → ∀ held, s.Claims j held → held.lease.connectionKey = connectionKey →
      held.lease.expiresAt ≤ s.clock fleet j) :
    FleetFenced fleet (FleetState.goTo
      { s with
        rows := Function.update s.rows connectionKey
          (some ⟨(fleet i).ownerId, token, began + (fleet i).leaseTtl⟩) } i n
      (.committed (.granted
        ⟨⟨connectionKey, (fleet i).ownerId, token, clock + (fleet i).leaseTtl⟩, false⟩))) := by
  refine ⟨fun j held hheld hlive => ?_, fun j held hheld => ?_, fun j m => ?_⟩
  · obtain hheld | ⟨rfl, hgranted⟩ := hheld.of_goTo
    · have hheld : s.Claims j held := hheld
      by_cases hkey : held.lease.connectionKey = connectionKey
      · obtain rfl : j = i := by
          by_contra hj
          exact absurd (hothers j hj held hheld hkey) (not_le.mpr hlive)
        refine ⟨⟨(fleet j).ownerId, token, began + (fleet j).leaseTtl⟩,
          by simp [FleetState.goTo, hkey], rfl, fun hkept => ?_⟩
        have hle := horder held hheld hkey hkept hlive
        dsimp only
        linarith
      · obtain ⟨row, hrow, hcovered⟩ := h.covered j held hheld hlive
        exact ⟨row, by simpa [FleetState.goTo, Function.update_of_ne hkey] using hrow, hcovered⟩
    · -- The lease that is granted ends by a clock that was read before the row's.
      obtain rfl := LeaseReply.granted.inj (LeasePhase.committed.inj hgranted)
      refine ⟨⟨(fleet j).ownerId, token, began + (fleet j).leaseTtl⟩,
        by simp [FleetState.goTo], rfl, fun _ => ?_⟩
      dsimp only
      linarith
  · obtain hheld | ⟨rfl, hgranted⟩ := hheld.of_goTo
    · exact h.owned j held hheld
    · obtain rfl := LeaseReply.granted.inj (LeasePhase.committed.inj hgranted)
      rfl
  · obtain hcall | hcall := FleetState.calls_goTo (i := i) (j := j) (n := n) m
    · rw [hcall]
      trivial
    · rw [hcall]
      exact h.timely j m

/-- `acquire` takes effect. -/
theorem acquire (h : FleetFenced fleet s) {connectionKey : String} {clock began : Timestamp}
    (hclock : clock ≤ began + (fleet i).clockOffset) (hbegan : began ≤ s.now)
    (howners : Function.Injective (fun i => (fleet i).ownerId))
    (horder : s.InOrder fleet i connectionKey began)
    (hforgotten : (∀ row ∈ s.rows connectionKey, row.expiresAt ≤ began) →
      s.Forgotten fleet i connectionKey) :
    FleetFenced fleet (s.commit fleet i n clock began (.acquire connectionKey)) := by
  simp only [FleetState.commit, DatabaseLongConnectionLeaseStore.acquire]
  split
  swap
  · exact h.goTo (fun _ hnone => by cases hnone) trivial
  obtain ⟨token, hfree, hupsert⟩ | hupsert := DatabaseLongConnectionLeaseStore.upsert_cases began
    (fleet i).leaseTtl connectionKey (fleet i).ownerId s.rows
  · rw [hupsert]
    refine h.grant token hclock horder (fun j hj held hheld hkey => ?_)
    by_contra hlive
    obtain ⟨row, hrow, howner, hcovered⟩ := h.covered j held hheld (not_le.mp hlive)
    rw [hkey] at hrow
    -- The row is another's, so it had ended when the transaction began.
    have hother : row.ownerId ≠ (fleet i).ownerId := fun heq => hj (howners (howner.symm.trans heq))
    have hended : row.expiresAt ≤ began := (hfree row hrow).resolve_right hother
    by_cases hgiven : held.givenUp = true
    · refine hlive (hforgotten (fun row' hrow' => ?_) j hj held hheld hkey hgiven)
      obtain rfl := Option.some.inj (hrow.symm.trans hrow')
      exact hended
    · have hle := hcovered (by simpa using hgiven)
      refine hlive ?_
      simp only [FleetState.clock]
      linarith
  · rw [hupsert]
    exact h.goTo (fun _ hnone => by cases hnone) trivial

/-- `renew` takes effect. -/
theorem renew (h : FleetFenced fleet s) {lease : LongConnectionLease} {clock began : Timestamp}
    (hclock : clock ≤ began + (fleet i).clockOffset)
    (howner : lease.ownerId = (fleet i).ownerId)
    (howners : Function.Injective (fun i => (fleet i).ownerId))
    (horder : s.InOrder fleet i lease.connectionKey began) :
    FleetFenced fleet (s.commit fleet i n clock began (.renew lease)) := by
  simp only [FleetState.commit, DatabaseLongConnectionLeaseStore.renew]
  obtain ⟨row, hrow, hrowner, hextend⟩ | hextend :=
    DatabaseLongConnectionLeaseStore.extend_cases began (fleet i).leaseTtl lease s.rows
  · rw [hextend, howner]
    refine h.grant row.fencingToken hclock horder (fun j hj held hheld hkey => ?_)
    by_contra hlive
    obtain ⟨row', hrow', howner', -⟩ := h.covered j held hheld (not_le.mp hlive)
    rw [hkey] at hrow'
    obtain rfl := Option.some.inj (hrow.symm.trans hrow')
    exact hj (howners (howner'.symm.trans (hrowner.trans howner)))
  · rw [hextend]
    exact h.goTo (fun _ hnone => by cases hnone) trivial

/-- **`release` takes effect**: the leases of the key are given up, and nobody else
believes in one. -/
theorem release (h : FleetFenced fleet s) {lease : LongConnectionLease} {clock began : Timestamp}
    (howner : lease.ownerId = (fleet i).ownerId)
    (howners : Function.Injective (fun i => (fleet i).ownerId)) :
    FleetFenced fleet (s.commit fleet i n clock began (.release lease)) := by
  simp only [FleetState.commit]
  obtain ⟨row, hrow, hmatch, hrelease⟩ | ⟨hno, hrelease⟩ :=
    DatabaseLongConnectionLeaseStore.release_cases began lease s.rows
  swap
  · rw [if_neg hno, hrelease]
    exact h.goTo (fun _ hnone => by cases hnone) trivial
  rw [if_pos ⟨row, hrow, hmatch⟩, hrelease]
  refine FleetFenced.goTo ⟨fun j held hheld hlive => ?_, fun j held hheld => ?_, fun j m => ?_⟩
    (fun _ => nofun) trivial
  · obtain ⟨before, hbefore, hlease, hkept, hgiven⟩ := hheld.of_giveUp
    rw [hlease] at hlive ⊢
    obtain ⟨row', hrow', howner', hcovered⟩ := h.covered j before hbefore hlive
    by_cases hkey : before.lease.connectionKey = lease.connectionKey
    · rw [hkey] at hrow'
      obtain rfl := Option.some.inj (hrow.symm.trans hrow')
      obtain rfl : j = i := howners (howner'.symm.trans (hmatch.1.trans howner))
      have hup := hgiven rfl (hlease ▸ hkey)
      exact ⟨{ row with expiresAt := began }, by simp [FleetState.giveUp, hkey], howner',
        fun hfalse => (nomatch hup.symm.trans hfalse)⟩
    · exact ⟨row', by simpa [FleetState.giveUp, Function.update_of_ne hkey] using hrow', howner',
        fun hfalse => hcovered (hkept hfalse)⟩
  · obtain ⟨before, hbefore, hlease, -⟩ := hheld.of_giveUp
    rw [hlease]
    exact h.owned j before hbefore
  · have htimely := h.timely j m
    by_cases hj : j = i
    · subst hj
      simp only [FleetState.giveUp, Function.update_self]
      cases hcall : s.calls j m with
      | committed reply => cases reply <;> trivial
      | _ =>
        rw [hcall] at htimely
        exact htimely
    · simpa [FleetState.giveUp, Function.update_of_ne hj] using htimely

/-- The answer comes back to an instance. -/
theorem resume (h : FleetFenced fleet s) {reply : LeaseReply}
    (hcall : s.calls i n = .committed reply) :
    FleetFenced fleet (s.resume i n reply) := by
  cases reply with
  | granted held =>
    refine (h.keep (fun held' hheld' => ?_)).goTo (fun _ => nofun) trivial
    obtain rfl := Option.some.inj hheld'
    exact .inr ⟨n, hcall⟩
  | lost => exact (h.keep (by simp)).goTo (fun _ => nofun) trivial
  | released => exact (h.keep (by simp)).goTo (fun _ => nofun) trivial

/-- **What a step of the fleet keeps.** -/
theorem step {tenantId : String} {s' : FleetState ι} {l : FleetLabel ι}
    (howners : Function.Injective (fun i => (fleet i).ownerId)) (h : FleetFenced fleet s)
    (horder : s.Orderly fleet l) (hs : s.step tenantId fleet l = some s') :
    FleetFenced fleet s' := by
  cases l with
  | tick elapsed =>
    obtain rfl := Option.some.inj hs
    exact h.tick elapsed
  | acquire i n appId =>
    simp only [FleetState.step] at hs
    split at hs
    · obtain rfl := Option.some.inj hs
      exact h.goTo (fun _ => nofun) ⟨trivial, le_rfl⟩
    · cases hs
  | renew i n =>
    simp only [FleetState.step] at hs
    split at hs
    · rename_i held _ hheld
      obtain rfl := Option.some.inj hs
      exact h.goTo (fun _ => nofun) ⟨h.owned i held (.inl hheld), le_rfl⟩
    · cases hs
  | release i n =>
    simp only [FleetState.step] at hs
    split at hs
    · rename_i held _ hheld
      obtain rfl := Option.some.inj hs
      exact h.goTo (fun _ => nofun) ⟨h.owned i held (.inl hheld), le_rfl⟩
    · cases hs
  | begin i n =>
    simp only [FleetState.step] at hs
    split at hs
    · rename_i statement clock hcall
      obtain rfl := Option.some.inj hs
      have htimely := h.timely i n
      rw [hcall] at htimely
      exact h.goTo (fun _ => nofun) ⟨htimely.1, htimely.2, le_rfl⟩
    · cases hs
  | commit i n =>
    simp only [FleetState.step] at hs
    split at hs
    · rename_i statement clock began hcall
      obtain rfl := Option.some.inj hs
      have htimely := h.timely i n
      rw [hcall] at htimely
      obtain ⟨howned, hclock, hbegan⟩ := htimely
      simp only [FleetState.Orderly, hcall] at horder
      cases statement with
      | acquire connectionKey => exact h.acquire hclock hbegan howners horder.1 horder.2
      | renew lease => exact h.renew hclock howned howners horder
      | release lease => exact h.release howned howners
    · cases hs
  | resume i n =>
    simp only [FleetState.step] at hs
    split at hs
    · rename_i reply hcall
      obtain rfl := Option.some.inj hs
      exact h.resume hcall
    · cases hs
  | fail i n =>
    obtain rfl := Option.some.inj hs
    exact h.goTo (fun _ hnone => by cases hnone) trivial

end FleetFenced

variable {ι : Type} [DecidableEq ι]

/-- **One instance consumes the long connection**: in every run whose steps are orderly,
instances with distinct owners that pass the lease check for one connection are one
instance. -/
theorem long_connection_exclusive (tenantId : String) (fleet : ι → FeishuAdapterSettings)
    (howners : Function.Injective (fun i => (fleet i).ownerId)) {s : FleetState ι}
    (h : (fleetMachine tenantId fleet).Reach (FleetState.Orderly fleet) s) {i j : ι}
    {connectionKey : String} (hi : s.Passes fleet i connectionKey)
    (hj : s.Passes fleet j connectionKey) : i = j := by
  have hfenced : FleetFenced fleet s := by
    refine h.invariant (fun s₀ ⟨hlease, hcalls⟩ => ?_)
      (fun s l s' _ hs horder hstep => hs.step howners horder hstep)
    have hnone : ∀ i held, ¬s₀.Claims i held := by
      rintro i held (hheld | ⟨n, hcall⟩)
      · rw [hlease] at hheld
        cases hheld
      · rw [hcalls] at hcall
        cases hcall
    refine ⟨fun i held hheld => absurd hheld (hnone i held),
      fun i held hheld => absurd hheld (hnone i held), fun i n => ?_⟩
    rw [hcalls]
    trivial
  obtain ⟨held, hheld, hkey, hlive⟩ := hi
  obtain ⟨held', hheld', hkey', hlive'⟩ := hj
  obtain ⟨row, hrow, howner, -⟩ := hfenced.covered i held (.inl hheld) hlive
  obtain ⟨row', hrow', howner', -⟩ := hfenced.covered j held' (.inl hheld') hlive'
  rw [hkey] at hrow
  rw [hkey'] at hrow'
  obtain rfl := Option.some.inj (hrow.symm.trans hrow')
  exact howners (howner.symm.trans howner')

/-- Two instances whose clocks show the time of the database. -/
def twoGateways : Bool → FeishuAdapterSettings
  | false => ⟨"gateway-a", seconds 30, 0⟩
  | true => ⟨"gateway-b", seconds 30, 0⟩

/-- Nothing has happened yet. -/
def emptyFleet : FleetState Bool := ⟨0, fun _ => none, fun _ => none, fun _ _ => .idle⟩

/-- Every owner is its own. -/
theorem twoGateways_owners : Function.Injective (fun i => (twoGateways i).ownerId) := by
  intro i j
  cases i <;> cases j <;> simp [twoGateways]

/-- **The fence at work**: the first instance has acquired the lease, and whoever passes
the check is that one. -/
theorem long_connection_exclusive_acquired :
    ∃ s, (fleetMachine "t" twoGateways).Reach (FleetState.Orderly twoGateways) s
      ∧ s.Passes twoGateways false "feishu:t:cli"
      ∧ ∀ j, s.Passes twoGateways j "feishu:t:cli" → false = j := by
  have hstart : (fleetMachine "t" twoGateways).Reach (FleetState.Orderly twoGateways) emptyFleet :=
    Machine.Reach.of_init ⟨fun _ => rfl, fun _ _ => rfl⟩
  have hcalled := hstart.next (l := FleetLabel.acquire false 0 "cli") trivial rfl
  have hbegun := hcalled.next (l := FleetLabel.begin false 0) trivial rfl
  -- No instance has a lease when the transaction commits.
  have hnone : ∀ (j : Bool) (held : HeldLease), ¬FleetState.Claims
      ((emptyFleet.goTo false 0 (.called (.acquire (feishuConnectionKey "t" "cli")) 0)).goTo
        false 0 (.begun (.acquire (feishuConnectionKey "t" "cli")) 0 0)) j held := by
    intro j held hheld
    obtain hheld | ⟨-, hgranted⟩ := hheld.of_goTo
    · obtain (hheld | ⟨n, hcall⟩) | ⟨-, hgranted⟩ := hheld.of_goTo
      · cases hheld
      · cases hcall
      · cases hgranted
    · cases hgranted
  have hcommitted := hbegun.next (l := FleetLabel.commit false 0)
    ⟨fun held hheld => absurd hheld (hnone false held),
      fun _ j _ held hheld => absurd hheld (hnone j held)⟩ rfl
  have hresumed := hcommitted.next (l := FleetLabel.resume false 0) trivial rfl
  refine ⟨_, hresumed, by decide +kernel, fun j hj => ?_⟩
  exact long_connection_exclusive "t" twoGateways twoGateways_owners hresumed
    (by decide +kernel) hj

/-- The first instance acquires the lease and, a second later, releases it; the second
acquires it before the first has forgotten it. -/
def releaseWindow : List (FleetLabel Bool) :=
  [.acquire false 0 "cli", .begin false 0, .commit false 0, .resume false 0,
    .tick 1000000, .release false 0, .begin false 0, .commit false 0,
    .acquire true 0 "cli", .begin true 0, .commit true 0, .resume true 0]

/-- **Two consumers**: between the release in the database and the end of the call both
instances pass the check. -/
theorem long_connection_shared :
    ∃ s, (fleetMachine "t" twoGateways).Reach Machine.anyStep s
      ∧ s.Passes twoGateways false "feishu:t:cli"
      ∧ s.Passes twoGateways true "feishu:t:cli" := by
  have hrun : ((fleetMachine "t" twoGateways).run emptyFleet releaseWindow).map
      (fun s => decide (s.Passes twoGateways false "feishu:t:cli"
        ∧ s.Passes twoGateways true "feishu:t:cli")) = some true := by decide +kernel
  have hinit : (fleetMachine "t" twoGateways).init emptyFleet :=
    ⟨fun _ => rfl, fun _ _ => rfl⟩
  obtain ⟨s, hs, hp⟩ := Machine.reach_of_run hinit hrun
  exact ⟨s, hs, of_decide_eq_true hp⟩
