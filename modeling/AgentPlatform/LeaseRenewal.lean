import AgentPlatform.Sessions

/-!
# What a renewal reads

`Connection._statement` of `admin_api/database.py` passes the arguments of a
statement by name: the first is `p1`, the second `p2`, and `$n` is read as `:pn`.
An argument that a statement does not name is passed and never read.

`SessionLeaseManager.renew` passes five arguments, the fencing token fourth and
the configured lease time fifth, and its statement names the fourth twice: in the
comparison with the token, and as the number of seconds of the new lease.
-/

/-- An argument of a statement; a `float` is a number of seconds, in microseconds. -/
inductive SqlArg where
  | uuid (id : Uuid)
  | text (s : String)
  | int (n : ℕ)
  | float (microseconds : Timestamp)
  deriving DecidableEq

namespace Connection

/-- **The parameters of `_statement`**: `f"p{index}"` with its argument. -/
def parameters (args : List SqlArg) : List (String × SqlArg) :=
  (args.zipIdx 1).map (fun e => ("p" ++ toString e.2, e.1))

/-- What `$n` reads. -/
def bound (args : List SqlArg) (n : ℕ) : Option SqlArg :=
  ((parameters args).find? (fun e => e.1 = "p" ++ toString n)).map Prod.snd

end Connection

/-- `make_interval(secs => ...)`; what is no number has no interval. -/
def SqlArg.interval : SqlArg → Option Timestamp
  | .int n => some (seconds n)
  | .float t => some t
  | _ => none

namespace SessionLeaseManager

/-- The arguments of `renew`, in the order they are passed. -/
def renewArgs (ttl : Timestamp) (tenantId : Uuid) (sessionId ownerId : String)
    (fencingToken : ℕ) : List SqlArg :=
  [.uuid tenantId, .text sessionId, .text ownerId, .int fencingToken, .float ttl]

/-- **The statement of `renew`**: `$4` is the token and the number of seconds. -/
def renewStatement (now : Timestamp) (args : List SqlArg) : Tx (Option ℕ) := do
  let db ← get
  match Connection.bound args 1, Connection.bound args 2, Connection.bound args 3,
      Connection.bound args 4 with
  | some (.uuid tenantId), some (.text sessionId), some (.text ownerId), some token =>
    match db.leases tenantId sessionId, token.interval with
    | some lease, some interval =>
      if lease.ownerId = ownerId ∧ .int lease.fencingToken = token ∧ now < lease.expiresAt then
        set { db with
          leases := ExecutionDb.setEntry db.leases tenantId sessionId
            { lease with expiresAt := now + interval } }
        return some lease.fencingToken
      else return none
    | none, some _ => return none
    | _, none => throw .sqlAlchemy
  | _, _, _, _ => throw .sqlAlchemy

/-- **`renew`**, of a manager whose `lease_ttl_seconds` are `ttl`. -/
def renewLease (ttl now : Timestamp) (tenantId : Uuid) (sessionId ownerId : String)
    (fencingToken : ℕ) : Tx Unit := do
  match ← renewStatement now (renewArgs ttl tenantId sessionId ownerId fencingToken) with
  | none => throw (.sessionLease "SESSION_LEASE_INVALID")
  | some _ => return ()

variable {ttl now : Timestamp} {tenantId : Uuid} {sessionId ownerId : String} {fencingToken : ℕ}
  {db db' : ExecutionDb}

/-- What the four parameters of the statement read. -/
theorem bound_renewArgs :
    Connection.bound (renewArgs ttl tenantId sessionId ownerId fencingToken) 1
        = some (.uuid tenantId)
      ∧ Connection.bound (renewArgs ttl tenantId sessionId ownerId fencingToken) 2
        = some (.text sessionId)
      ∧ Connection.bound (renewArgs ttl tenantId sessionId ownerId fencingToken) 3
        = some (.text ownerId)
      ∧ Connection.bound (renewArgs ttl tenantId sessionId ownerId fencingToken) 4
        = some (.int fencingToken) :=
  by simp +decide [Connection.bound, Connection.parameters, renewArgs, List.zipIdx]

/-- **The lease time is never read**: what the worker runs is the same for every
configuration. -/
theorem renewLease_eq :
    renewLease ttl now tenantId sessionId ownerId fencingToken
      = renew now tenantId sessionId ownerId fencingToken := by
  obtain ⟨h₁, h₂, h₃, h₄⟩ := @bound_renewArgs ttl tenantId sessionId ownerId fencingToken
  refine StateT.ext (fun db => ?_)
  simp only [renewLease, renewStatement, renew, h₁, h₂, h₃, h₄, SqlArg.interval]
  cases hlease : db.leases tenantId sessionId with
  | none => simp [StateT.run_bind, hlease]
  | some lease =>
    by_cases hheld : lease.ownerId = ownerId ∧ lease.fencingToken = fencingToken
        ∧ now < lease.expiresAt
    · simp [StateT.run_bind, hlease, hheld]
    · simp [StateT.run_bind, hlease, hheld]

/-- **A renewal extends the lease** to what the manager is configured for, and
leaves its owner and its token alone. -/
def Extends (ttl now : Timestamp) (lease lease' : SessionLease) : Prop :=
  lease'.expiresAt = now + ttl ∧ lease'.ownerId = lease.ownerId
    ∧ lease'.fencingToken = lease.fencingToken

/-- **When a renewal extends the lease**: whenever `renew` returns, the lease has
the configured time left exactly if the token is that number of seconds. -/
theorem renewLease_extends_iff
    (h : (renewLease ttl now tenantId sessionId ownerId fencingToken).run db = .ok ((), db')) :
    (∃ lease lease', db.leases tenantId sessionId = some lease
        ∧ db'.leases tenantId sessionId = some lease' ∧ Extends ttl now lease lease')
      ↔ ttl = seconds fencingToken := by
  rw [renewLease_eq] at h
  obtain ⟨lease, hlease, -, -, -, rfl⟩ := renew_ok h
  constructor
  · rintro ⟨_, lease', -, hlease', hexpires, -, -⟩
    obtain rfl := Option.some.inj ((ExecutionDb.setEntry_self _ _ _ _).symm.trans hlease')
    exact (Int.add_left_cancel hexpires).symm
  · rintro rfl
    exact ⟨lease, _, hlease, ExecutionDb.setEntry_self _ _ _ _, rfl, rfl, rfl⟩

/-- One Session with a lease of thirty seconds that was acquired once. -/
def acquiredOnce : ExecutionDb :=
  (acquire defaultLeaseTtl 0 1 "s" "a").after { ExecutionDb.empty 0 with
    sessions := ExecutionDb.setEntry (fun _ _ => none) 1 "s" ⟨1, 10, "s", 0⟩ }

/-- A renewal of that lease, ten seconds later. -/
def renewedOnce (ttl : Timestamp) : Tx Unit := renewLease ttl (seconds 10) 1 "s" "a" 1

/-- **A renewal that shortens the lease**: the lease of a Session that was acquired
once is renewed ten seconds later, and ends at eleven seconds; it had been good
for thirty. -/
theorem renewal_shortens :
    ∃ db, (renewedOnce defaultLeaseTtl).run acquiredOnce = .ok ((), db)
      ∧ (acquiredOnce.leases 1 "s").map SessionLease.expiresAt = some (seconds 30)
      ∧ (db.leases 1 "s").map SessionLease.expiresAt = some (seconds 11)
      ∧ ¬ ∃ lease lease', acquiredOnce.leases 1 "s" = some lease ∧ db.leases 1 "s" = some lease'
        ∧ Extends defaultLeaseTtl (seconds 10) lease lease' := by
  refine ⟨(renewedOnce defaultLeaseTtl).after acquiredOnce, rfl, rfl, rfl, ?_⟩
  rintro ⟨-, lease', -, hlease', hexpires, -⟩
  have hleft : ((renewedOnce defaultLeaseTtl).after acquiredOnce).leases 1 "s"
      = some ⟨1, "s", "a", 1, seconds 11⟩ := rfl
  obtain rfl := Option.some.inj (hleft.symm.trans hlease')
  exact absurd hexpires (by decide)

/-- With a lease time of one second, the renewal is what it says. -/
theorem renewal_of_one_second :
    ∃ db, (renewedOnce (seconds 1)).run acquiredOnce = .ok ((), db)
      ∧ ∃ lease lease', acquiredOnce.leases 1 "s" = some lease ∧ db.leases 1 "s" = some lease'
        ∧ Extends (seconds 1) (seconds 10) lease lease' := by
  have hok : (renewedOnce (seconds 1)).run acquiredOnce
      = .ok ((), (renewedOnce (seconds 1)).after acquiredOnce) := rfl
  exact ⟨_, hok, (renewLease_extends_iff hok).mpr rfl⟩

end SessionLeaseManager
