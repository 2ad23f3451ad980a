import AgentPlatform.ChangeLog
import AgentPlatform.StorageControl

/-!
# What a commit makes of Storage Profiles and migrations

Every commit of the control plane is one of a few changes: a profile becomes the first
active one of its tenant, a migration is requested, a migration takes a step of its
state machine, the business is switched to the target, or back to the source.
`ControlChange` lists them, each with the checks of the source that stand before it,
and `ControlOk` is what they keep: one active profile, one open migration – the last
that was requested –, and the approvals and the evidence each state rests on.

A request for a migration reads the active profile before it inserts the row, and holds
nothing in between. `strict` says that the profile it read is still the active one;
without it the migration may be requested from a profile that is active no more.
-/

/-! ## The steps of a migration -/

namespace StorageMigrationState

/-- The states from the validation on. -/
def isValidated : StorageMigrationState → Bool
  | .READY_TO_SWITCH | .OBSERVING | .ROLLING_BACK | .ROLLBACK_CATCHING_UP | .ROLLBACK_VALIDATING
  | .COMPLETED | .ROLLED_BACK => true
  | _ => false

/-- The states in which the target is the active profile. -/
def isSwitched : StorageMigrationState → Bool
  | .OBSERVING | .ROLLING_BACK | .ROLLBACK_CATCHING_UP | .ROLLBACK_VALIDATING | .COMPLETED => true
  | _ => false

end StorageMigrationState

/-- The profile a migration leaves active. -/
def StorageMigration.standing (m : StorageMigration) : Uuid :=
  if m.state.isSwitched then m.targetProfileId else m.sourceProfileId

/-- **One step of a migration**, as an `UPDATE` with the checks before it. -/
inductive MigrationStep (m : StorageMigration) : MigrationUpdate → Prop
  | approved (subject : String) (hpending : m.approvalStatus = .PENDING)
      (hother : subject ≠ m.requestedBy) : MigrationStep m (.decide .PREPARED .APPROVED subject)
  | denied (subject : String) (hpending : m.approvalStatus = .PENDING) :
      MigrationStep m (.decide .FAILED .DENIED subject)
  | started (hstate : m.state = .PREPARED) (happroved : m.approvalStatus = .APPROVED) :
      MigrationStep m (.state .BACKFILLING none)
  | backfilled (hstate : m.state = .BACKFILLING) : MigrationStep m (.state .CATCHING_UP none)
  | caughtUp (hstate : m.state = .CATCHING_UP) : MigrationStep m (.state .VALIDATING none)
  | validated (e : ValidationEvidence) (hstate : m.state = .VALIDATING) (he : e.isValid = true) :
      MigrationStep m (.state .READY_TO_SWITCH (some e))
  | failed (hstate : m.state = .BACKFILLING ∨ m.state = .CATCHING_UP ∨ m.state = .VALIDATING) :
      MigrationStep m (.state .FAILED none)
  | completed (hstate : m.state = .OBSERVING) :
      MigrationStep m (.advance .COMPLETED m.validation m.observationEndsAt)
  | rollbackRequested (subject : String) (hstate : m.state = .OBSERVING)
      (hnone : m.rollbackApprovalStatus = .NONE) :
      MigrationStep m (.rollbackApproval .PENDING (some subject) none)
  | rollbackApproved (subject : String) (hstate : m.state = .OBSERVING)
      (hpending : m.rollbackApprovalStatus = .PENDING)
      (hother : subject ≠ m.rollbackRequestedBy.getD "None") :
      MigrationStep m (.rollbackApproval .APPROVED none (some subject))
  | rollbackDenied (subject : String) (hstate : m.state = .OBSERVING)
      (hpending : m.rollbackApprovalStatus = .PENDING) :
      MigrationStep m (.rollbackApproval .DENIED none (some subject))
  | rollbackStarted (hstate : m.state = .OBSERVING)
      (happroved : m.rollbackApprovalStatus = .APPROVED) :
      MigrationStep m (.state .ROLLING_BACK none)
  | rollbackBackfilled (hstate : m.state = .ROLLING_BACK) :
      MigrationStep m (.state .ROLLBACK_CATCHING_UP none)
  | rollbackCaughtUp (hstate : m.state = .ROLLBACK_CATCHING_UP) :
      MigrationStep m (.state .ROLLBACK_VALIDATING none)

/-- **What the state of a migration rests on.** -/
structure MigrationOk (m : StorageMigration) : Prop where
  pending : m.approvalStatus = .PENDING → m.state = .PREPARED
  approved : m.approvalStatus = .APPROVED → ∃ a, m.approvedBy = some a ∧ a ≠ m.requestedBy
  beyond : m.state ≠ .PREPARED → m.state ≠ .FAILED → m.approvalStatus = .APPROVED
  rollbackPending : m.rollbackApprovalStatus = .PENDING → ∃ r, m.rollbackRequestedBy = some r
  rollbackApproved : m.rollbackApprovalStatus = .APPROVED →
    ∃ r a, m.rollbackRequestedBy = some r ∧ m.rollbackApprovedBy = some a ∧ a ≠ r
  rolling : m.state.isRollback ∨ m.state = .ROLLED_BACK → m.rollbackApprovalStatus = .APPROVED
  unvalidated : m.state.isValidated = false → m.state ≠ .FAILED → m.validation = none
  validated : m.state.isValidated → m.validation.any ValidationEvidence.isValid

namespace MigrationOk

variable {m : StorageMigration} {u : MigrationUpdate}

/-- **A step keeps what the state rests on.** -/
theorem step (h : MigrationOk m) (hu : MigrationStep m u) : MigrationOk (u.apply m) := by
  cases hu with
  | approved subject hpending hother =>
    have hstate := h.pending hpending
    refine ⟨fun _ => rfl, fun _ => ⟨subject, rfl, hother⟩, fun hne => absurd rfl hne,
      h.rollbackPending, h.rollbackApproved, ?_, ?_, ?_⟩
    · rintro (hr | hr) <;> cases hr
    · exact fun _ _ => h.unvalidated (by rw [hstate]; rfl) (by rw [hstate]; decide)
    · exact fun hr => by cases hr
  | denied subject hpending =>
    refine ⟨fun hd => (by cases hd), fun hd => (by cases hd), fun _ hne => absurd rfl hne,
      h.rollbackPending, h.rollbackApproved, ?_, fun _ hne => absurd rfl hne, ?_⟩
    · rintro (hr | hr) <;> cases hr
    · exact fun hr => by cases hr
  | started hstate happroved =>
    refine ⟨fun hp => ?_, h.approved, fun _ _ => happroved, h.rollbackPending, h.rollbackApproved,
      ?_, fun _ _ => h.unvalidated (by rw [hstate]; rfl) (by rw [hstate]; decide), ?_⟩
    · rw [show m.approvalStatus = .PENDING from hp] at happroved
      cases happroved
    · rintro (hr | hr) <;> cases hr
    · exact fun hr => by cases hr
  | backfilled hstate => exact forward h (by rw [hstate]; decide) rfl
  | caughtUp hstate => exact forward h (by rw [hstate]; decide) rfl
  | validated e hstate he =>
    have happroved := h.beyond (by rw [hstate]; decide) (by rw [hstate]; decide)
    refine ⟨fun hp => ?_, h.approved, fun _ _ => happroved, h.rollbackPending, h.rollbackApproved,
      ?_, fun hr => (by cases hr), fun _ => he⟩
    · rw [show m.approvalStatus = .PENDING from hp] at happroved
      cases happroved
    · rintro (hr | hr) <;> cases hr
  | failed hstate =>
    have hbeyond : m.state ≠ .PREPARED ∧ m.state ≠ .FAILED := by
      rcases hstate with hs | hs | hs <;> rw [hs] <;> exact ⟨by decide, by decide⟩
    refine ⟨fun hp => ?_, h.approved, fun _ hne => absurd rfl hne, h.rollbackPending,
      h.rollbackApproved, ?_, fun _ hne => absurd rfl hne, ?_⟩
    · exact absurd (h.pending hp) hbeyond.1
    · rintro (hr | hr) <;> cases hr
    · exact fun hr => by cases hr
  | completed hstate =>
    have happroved := h.beyond (by rw [hstate]; decide) (by rw [hstate]; decide)
    refine ⟨fun hp => ?_, h.approved, fun _ _ => happroved, h.rollbackPending, h.rollbackApproved,
      ?_, fun hr => (by cases hr), fun _ => h.validated (by rw [hstate]; rfl)⟩
    · rw [show m.approvalStatus = .PENDING from hp] at happroved
      cases happroved
    · rintro (hr | hr) <;> cases hr
  | rollbackRequested subject hstate hnone =>
    refine ⟨h.pending, h.approved, h.beyond, fun _ => ⟨subject, rfl⟩, fun hr => (by cases hr), ?_,
      h.unvalidated, h.validated⟩
    rintro (hr | hr)
    · exact absurd (show m.state.isRollback = true from hr) (by rw [hstate]; decide)
    · exact absurd (show m.state = .ROLLED_BACK from hr) (by rw [hstate]; decide)
  | rollbackApproved subject hstate hpending hother =>
    obtain ⟨r, hr⟩ := h.rollbackPending hpending
    rw [hr] at hother
    exact ⟨h.pending, h.approved, h.beyond, fun hp => (by cases hp),
      fun _ => ⟨r, subject, hr, rfl, hother⟩, fun _ => rfl, h.unvalidated, h.validated⟩
  | rollbackDenied subject hstate hpending =>
    refine ⟨h.pending, h.approved, h.beyond, fun hp => (by cases hp), fun hr => (by cases hr), ?_,
      h.unvalidated, h.validated⟩
    rintro (hr | hr)
    · exact absurd (show m.state.isRollback = true from hr) (by rw [hstate]; decide)
    · exact absurd (show m.state = .ROLLED_BACK from hr) (by rw [hstate]; decide)
  | rollbackStarted hstate happroved =>
    exact backward h happroved (by rw [hstate]; exact ⟨by decide, by decide, rfl⟩) rfl
  | rollbackBackfilled hstate =>
    exact backward h (h.rolling (.inl (by rw [hstate]; rfl)))
      (by rw [hstate]; exact ⟨by decide, by decide, rfl⟩) rfl
  | rollbackCaughtUp hstate =>
    exact backward h (h.rolling (.inl (by rw [hstate]; rfl)))
      (by rw [hstate]; exact ⟨by decide, by decide, rfl⟩) rfl
where
  /-- A phase of the worker before the validation. -/
  forward {m : StorageMigration} {next : StorageMigrationState} (h : MigrationOk m)
      (hs : m.state.isValidated = false ∧ m.state ≠ .PREPARED ∧ m.state ≠ .FAILED)
      (hnext : (next.isValidated || next.isRollback) = false) :
      MigrationOk ((MigrationUpdate.state next none).apply m) := by
    have happroved := h.beyond hs.2.1 hs.2.2
    have hvalidated : next.isValidated = false := (Bool.or_eq_false_iff.mp hnext).1
    refine ⟨fun hp => absurd (h.pending hp) hs.2.1, h.approved, fun _ _ => happroved,
      h.rollbackPending, h.rollbackApproved, ?_, fun _ _ => h.unvalidated hs.1 hs.2.2, ?_⟩
    · rintro (hr | hr)
      · have hnot : next.isRollback = false := (Bool.or_eq_false_iff.mp hnext).2
        rw [show next.isRollback = true from hr] at hnot
        cases hnot
      · rw [show next = .ROLLED_BACK from hr] at hvalidated
        cases hvalidated
    · intro hr
      rw [show next.isValidated = true from hr] at hvalidated
      cases hvalidated
  /-- A step of a rollback. -/
  backward {m : StorageMigration} {next : StorageMigrationState} (h : MigrationOk m)
      (happroved : m.rollbackApprovalStatus = .APPROVED)
      (hs : m.state ≠ .PREPARED ∧ m.state ≠ .FAILED ∧ m.state.isValidated = true)
      (hnext : next.isValidated = true) :
      MigrationOk ((MigrationUpdate.state next none).apply m) := by
    refine ⟨fun hp => absurd (h.pending hp) hs.1, h.approved, fun _ _ => h.beyond hs.1 hs.2.1,
      h.rollbackPending, h.rollbackApproved, fun _ => happroved, fun hr => ?_, fun _ =>
      h.validated hs.2.2⟩
    rw [show next.isValidated = false from hr] at hnext
    cases hnext

end MigrationOk

/-- A migration that takes a step is open. -/
theorem MigrationStep.open_of_ok {m : StorageMigration} {u : MigrationUpdate}
    (hu : MigrationStep m u) (h : MigrationOk m) : m.state.isClosed = false := by
  cases hu with
  | approved _ hpending _ => rw [h.pending hpending]; rfl
  | denied _ hpending => rw [h.pending hpending]; rfl
  | failed hstate => rcases hstate with hs | hs | hs <;> rw [hs] <;> rfl
  | started hstate _ => rw [hstate]; rfl
  | backfilled hstate => rw [hstate]; rfl
  | caughtUp hstate => rw [hstate]; rfl
  | validated _ hstate _ => rw [hstate]; rfl
  | completed hstate => rw [hstate]; rfl
  | rollbackRequested _ hstate _ => rw [hstate]; rfl
  | rollbackApproved _ hstate _ _ => rw [hstate]; rfl
  | rollbackDenied _ hstate _ => rw [hstate]; rfl
  | rollbackStarted hstate _ => rw [hstate]; rfl
  | rollbackBackfilled hstate => rw [hstate]; rfl
  | rollbackCaughtUp hstate => rw [hstate]; rfl

/-- No step of the machine by itself moves the business. -/
theorem MigrationStep.isSwitched_eq {m : StorageMigration} {u : MigrationUpdate}
    (hu : MigrationStep m u) (h : MigrationOk m) :
    (u.apply m).state.isSwitched = m.state.isSwitched := by
  cases hu with
  | approved _ hpending _ => rw [h.pending hpending]; rfl
  | denied _ hpending => rw [h.pending hpending]; rfl
  | failed hstate => rcases hstate with hs | hs | hs <;> rw [hs] <;> rfl
  | started hstate _ => rw [hstate]; rfl
  | backfilled hstate => rw [hstate]; rfl
  | caughtUp hstate => rw [hstate]; rfl
  | validated _ hstate _ => rw [hstate]; rfl
  | completed hstate => rw [hstate]; rfl
  | rollbackRequested _ _ _ => rfl
  | rollbackApproved _ _ _ _ => rfl
  | rollbackDenied _ _ _ => rfl
  | rollbackStarted hstate _ => rw [hstate]; rfl
  | rollbackBackfilled hstate => rw [hstate]; rfl
  | rollbackCaughtUp hstate => rw [hstate]; rfl

/-- An update leaves what a migration is about. -/
structure SameMigration (m m' : StorageMigration) : Prop where
  tenantId : m'.tenantId = m.tenantId
  id : m'.id = m.id
  sourceProfileId : m'.sourceProfileId = m.sourceProfileId
  targetProfileId : m'.targetProfileId = m.targetProfileId

theorem MigrationUpdate.same (u : MigrationUpdate) (m : StorageMigration) :
    SameMigration m (u.apply m) := by
  cases u <;> exact ⟨rfl, rfl, rfl, rfl⟩

/-! ## The changes -/

/-- No profile is removed. -/
def ProfilesStay (a b : StorageDb) : Prop :=
  ∀ t id, (a.profiles t id).isSome → (b.profiles t id).isSome

/-- **What a commit may change**: migrations and active profiles, with the checks that
stand before it. -/
inductive ControlChange (strict : Prop) (valid : Uuid → Prop) (a b : StorageDb) : Prop
  | quiet (hrows : b.migrations = a.migrations) (horder : b.order = a.order)
      (hactive : b.active = a.active)
  | profiled (t id : Uuid) (hnone : a.active t = []) (hrows : b.migrations = a.migrations)
      (horder : b.order = a.order) (hactive : b.active = Function.update a.active t [id])
  | requested (t id source target : Uuid) (subject : String) (seconds : ℕ) (now : Timestamp)
      (hvalid : valid t) (hnew : a.migrations t id = none) (hne : source ≠ target)
      (hsource : (a.profiles t source).isSome) (htarget : (a.profiles t target).isSome)
      (hclosed : ∀ x ∈ a.order t, ∃ m, a.migrations t x = some m ∧ m.state.isClosed)
      (hchosen : a.active t ≠ []) (hstrict : strict → a.active t = [source])
      (hrows : b.migrations = setAt a.migrations t id
        (some (newMigration t id source target subject seconds now)))
      (horder : b.order = Function.update a.order t (a.order t ++ [id]))
      (hactive : b.active = a.active)
  | stepped (m : StorageMigration) (u : MigrationUpdate)
      (hm : a.migrations m.tenantId m.id = some m) (hu : MigrationStep m u)
      (hrows : b.migrations = setAt a.migrations m.tenantId m.id (some (u.apply m)))
      (horder : b.order = a.order) (hactive : b.active = a.active)
  | switched (m : StorageMigration) (endsAt : Option Timestamp)
      (hm : a.migrations m.tenantId m.id = some m) (hstate : m.state = .READY_TO_SWITCH)
      (hrows : b.migrations = setAt a.migrations m.tenantId m.id
        (some ((MigrationUpdate.advance .OBSERVING m.validation endsAt).apply m)))
      (horder : b.order = a.order)
      (hactive : b.active = Function.update a.active m.tenantId [m.targetProfileId])
  | restored (m : StorageMigration) (e : ValidationEvidence)
      (hm : a.migrations m.tenantId m.id = some m) (hstate : m.state = .ROLLBACK_VALIDATING)
      (he : e.isValid = true)
      (hrows : b.migrations = setAt a.migrations m.tenantId m.id
        (some ((MigrationUpdate.state .ROLLED_BACK (some e)).apply m)))
      (horder : b.order = a.order)
      (hactive : b.active = Function.update a.active m.tenantId [m.sourceProfileId])

/-- **A commit**: a change that removes no profile. -/
structure ControlCommit (strict : Prop) (valid : Uuid → Prop) (a b : StorageDb) : Prop where
  profiles : ProfilesStay a b
  change : ControlChange strict valid a b

/-! ## What commits keep -/

/-- A migration under its key, with its profiles. -/
structure MigrationAt (valid : Uuid → Prop) (db : StorageDb) (t id : Uuid) (m : StorageMigration) :
    Prop where
  tenantId : m.tenantId = t
  id : m.id = id
  valid : valid t
  apart : m.sourceProfileId ≠ m.targetProfileId
  source : (db.profiles t m.sourceProfileId).isSome
  target : (db.profiles t m.targetProfileId).isSome
  ok : MigrationOk m

/-- **The tables of the control plane are in order.** -/
structure ControlOk (strict : Prop) (valid : Uuid → Prop) (db : StorageDb) : Prop where
  single : ∀ t, (db.active t).length ≤ 1
  nodup : ∀ t, (db.order t).Nodup
  listed : ∀ t id, (db.migrations t id).isSome ↔ id ∈ db.order t
  row : ∀ t id m, db.migrations t id = some m → MigrationAt valid db t id m
  chosen : ∀ t, db.order t ≠ [] → db.active t ≠ []
  last : ∀ t id m, db.migrations t id = some m → m.state.isClosed = false →
    (db.order t).getLast? = some id
  standing : ∀ t id m, (db.order t).getLast? = some id → db.migrations t id = some m →
    strict ∨ m.state.isSwitched → db.active t = [m.standing]

section Control

variable {strict : Prop} {valid : Uuid → Prop} {a b : StorageDb}

theorem setAt_self {V : Type} (f : Uuid → Uuid → V) (t id : Uuid) (v : V) :
    setAt f t id v t id = v :=
  if_pos ⟨rfl, rfl⟩

theorem setAt_of_ne {V : Type} (f : Uuid → Uuid → V) {t id t' id' : Uuid} (v : V)
    (h : ¬ (t' = t ∧ id' = id)) : setAt f t id v t' id' = f t' id' := if_neg h

theorem MigrationAt.mono {t id : Uuid} {m : StorageMigration} (h : MigrationAt valid a t id m)
    (hp : ProfilesStay a b) : MigrationAt valid b t id m :=
  ⟨h.tenantId, h.id, h.valid, h.apart, hp t _ h.source, hp t _ h.target, h.ok⟩

theorem MigrationAt.same {t id : Uuid} {m m' : StorageMigration} (h : MigrationAt valid a t id m)
    (hs : SameMigration m m') (hok : MigrationOk m') : MigrationAt valid a t id m' := by
  refine ⟨hs.tenantId.trans h.tenantId, hs.id.trans h.id, h.valid, ?_, ?_, ?_, hok⟩
  · rw [hs.sourceProfileId, hs.targetProfileId]
    exact h.apart
  · rw [hs.sourceProfileId]
    exact h.source
  · rw [hs.targetProfileId]
    exact h.target

namespace ControlOk

theorem empty : ControlOk strict valid StorageDb.empty := by
  refine ⟨fun _ => Nat.zero_le 1, fun _ => List.nodup_nil, fun _ _ => ?_, fun _ _ _ h => ?_,
    fun _ h => absurd rfl h, fun _ _ _ h => ?_, fun _ _ _ h => ?_⟩
  · simp [StorageDb.empty]
  · cases h
  · cases h
  · cases h

/-- **Rows and active profiles that do not change.** -/
theorem quiet (h : ControlOk strict valid a) (hp : ProfilesStay a b)
    (hrows : b.migrations = a.migrations) (horder : b.order = a.order)
    (hactive : ∀ t, b.active t = a.active t ∨ a.active t = [] ∧ (b.active t).length = 1) :
    ControlOk strict valid b := by
  have hkeep : ∀ t, a.order t ≠ [] → b.active t = a.active t := fun t ht =>
    (hactive t).resolve_right (fun hnone => h.chosen t ht hnone.1)
  refine ⟨fun t => ?_, ?_, ?_, ?_, fun t ht => ?_, ?_, fun t id m hlast hm hs => ?_⟩
  · rcases hactive t with heq | ⟨-, hone⟩
    · rw [heq]
      exact h.single t
    · exact hone.le
  · rw [horder]
    exact h.nodup
  · rw [hrows, horder]
    exact h.listed
  · intro t id m hm
    rw [hrows] at hm
    exact (h.row t id m hm).mono hp
  · rw [horder] at ht
    rw [hkeep t ht]
    exact h.chosen t ht
  · rw [hrows, horder]
    exact h.last
  · rw [horder] at hlast
    rw [hrows] at hm
    rw [hkeep t (fun hnil => by rw [hnil] at hlast; cases hlast)]
    exact h.standing t id m hlast hm hs

/-- **A migration that is replaced** by one in another state. -/
theorem replaced (h : ControlOk strict valid a) (hp : ProfilesStay a b) {m m' : StorageMigration}
    (hm : a.migrations m.tenantId m.id = some m) (hopen : m.state.isClosed = false)
    (hsame : SameMigration m m') (hok : MigrationOk m')
    (hrows : b.migrations = setAt a.migrations m.tenantId m.id (some m'))
    (horder : b.order = a.order) (hothers : ∀ t, t ≠ m.tenantId → b.active t = a.active t)
    (hactive : (b.active m.tenantId).length ≤ 1 ∧ b.active m.tenantId ≠ [])
    (hstanding : strict ∨ m'.state.isSwitched → b.active m.tenantId = [m'.standing]) :
    ControlOk strict valid b := by
  have hlast := h.last _ _ m hm hopen
  have hat : ∀ t id x, b.migrations t id = some x →
      (t = m.tenantId ∧ id = m.id ∧ x = m') ∨ a.migrations t id = some x := by
    intro t id x hx
    rw [hrows] at hx
    by_cases hk : t = m.tenantId ∧ id = m.id
    · obtain ⟨rfl, rfl⟩ := hk
      rw [setAt_self] at hx
      exact .inl ⟨rfl, rfl, (Option.some.inj hx).symm⟩
    · rw [setAt_of_ne _ _ hk] at hx
      exact .inr hx
  refine ⟨fun t => ?_, ?_, fun t id => ?_, fun t id x hx => ?_, fun t ht => ?_,
    fun t id x hx hxopen => ?_, fun t id x hxlast hx hs => ?_⟩
  · by_cases ht : t = m.tenantId
    · rw [ht]
      exact hactive.1
    · rw [hothers t ht]
      exact h.single t
  · rw [horder]
    exact h.nodup
  · rw [horder, ← h.listed t id, hrows]
    by_cases hk : t = m.tenantId ∧ id = m.id
    · obtain ⟨rfl, rfl⟩ := hk
      rw [setAt_self, hm]
      exact Iff.rfl
    · rw [setAt_of_ne _ _ hk]
  · rcases hat t id x hx with ⟨rfl, rfl, rfl⟩ | hx
    · exact ((h.row _ _ m hm).same hsame hok).mono hp
    · exact (h.row t id x hx).mono hp
  · rw [horder] at ht
    by_cases htm : t = m.tenantId
    · rw [htm]
      exact hactive.2
    · rw [hothers t htm]
      exact h.chosen t ht
  · rw [horder]
    rcases hat t id x hx with ⟨rfl, rfl, rfl⟩ | hx
    · exact hlast
    · exact h.last t id x hx hxopen
  · rw [horder] at hxlast
    by_cases ht : t = m.tenantId
    · subst ht
      obtain rfl : id = m.id := by
        rw [hlast] at hxlast
        exact (Option.some.inj hxlast).symm
      rw [hrows, setAt_self] at hx
      obtain rfl := Option.some.inj hx
      exact hstanding hs
    · rcases hat t id x hx with ⟨hteq, -, -⟩ | hx
      · exact absurd hteq ht
      · rw [hothers t ht]
        exact h.standing t id x hxlast hx hs

/-- **A migration that is requested.** -/
theorem requested (h : ControlOk strict valid a) (hp : ProfilesStay a b) {m : StorageMigration}
    (hm : MigrationAt valid a m.tenantId m.id m) (hswitched : m.state.isSwitched = false)
    (hnew : a.migrations m.tenantId m.id = none)
    (hclosed : ∀ x ∈ a.order m.tenantId, ∃ y, a.migrations m.tenantId x = some y ∧ y.state.isClosed)
    (hchosen : a.active m.tenantId ≠ [])
    (hstrict : strict → a.active m.tenantId = [m.sourceProfileId])
    (hrows : b.migrations = setAt a.migrations m.tenantId m.id (some m))
    (horder : b.order = Function.update a.order m.tenantId (a.order m.tenantId ++ [m.id]))
    (hactive : b.active = a.active) : ControlOk strict valid b := by
  have hfresh : m.id ∉ a.order m.tenantId := by
    rw [← h.listed, hnew]
    exact Bool.false_ne_true
  have hown : b.order m.tenantId = a.order m.tenantId ++ [m.id] := by
    rw [horder, Function.update_self]
  have hother : ∀ t, t ≠ m.tenantId → b.order t = a.order t := fun t ht => by
    rw [horder, Function.update_of_ne ht]
  have hat : ∀ t id x, b.migrations t id = some x →
      (t = m.tenantId ∧ id = m.id ∧ x = m) ∨ a.migrations t id = some x := by
    intro t id x hx
    rw [hrows] at hx
    by_cases hk : t = m.tenantId ∧ id = m.id
    · obtain ⟨rfl, rfl⟩ := hk
      rw [setAt_self] at hx
      exact .inl ⟨rfl, rfl, (Option.some.inj hx).symm⟩
    · rw [setAt_of_ne _ _ hk] at hx
      exact .inr hx
  refine ⟨fun t => ?_, fun t => ?_, fun t id => ?_, fun t id x hx => ?_, fun t ht => ?_,
    fun t id x hx hxopen => ?_, fun t id x hxlast hx hs => ?_⟩
  · rw [hactive]
    exact h.single t
  · by_cases ht : t = m.tenantId
    · rw [ht, hown]
      exact List.nodup_append.mpr ⟨h.nodup _, List.nodup_singleton _, by
        intro x hx y hy hxy
        rw [List.mem_singleton.mp hy] at hxy
        exact hfresh (hxy ▸ hx)⟩
    · rw [hother t ht]
      exact h.nodup t
  · rw [hrows]
    by_cases ht : t = m.tenantId
    · subst ht
      rw [hown, List.mem_append, ← h.listed, List.mem_singleton]
      by_cases hid : id = m.id
      · rw [hid, setAt_self]
        exact ⟨fun _ => .inr rfl, fun _ => rfl⟩
      · rw [setAt_of_ne _ _ (fun hk => hid hk.2)]
        exact ⟨.inl, fun hor => hor.resolve_right hid⟩
    · rw [hother t ht, setAt_of_ne _ _ (fun hk => ht hk.1)]
      exact h.listed t id
  · rcases hat t id x hx with ⟨rfl, rfl, rfl⟩ | hx
    · exact hm.mono hp
    · exact (h.row t id x hx).mono hp
  · rw [hactive]
    by_cases htm : t = m.tenantId
    · rw [htm]
      exact hchosen
    · rw [hother t htm] at ht
      exact h.chosen t ht
  · rcases hat t id x hx with ⟨rfl, rfl, rfl⟩ | hx
    · rw [hown, List.getLast?_append, List.getLast?_singleton]
      rfl
    · by_cases ht : t = m.tenantId
      · subst ht
        obtain ⟨y, hy, hyclosed⟩ := hclosed id ((h.listed _ id).mp (by rw [hx]; rfl))
        rw [hx] at hy
        obtain rfl := Option.some.inj hy
        rw [hyclosed] at hxopen
        cases hxopen
      · rw [hother t ht]
        exact h.last t id x hx hxopen
  · rw [hactive]
    by_cases ht : t = m.tenantId
    · subst ht
      rw [hown, List.getLast?_append, List.getLast?_singleton] at hxlast
      obtain rfl : id = m.id := (Option.some.inj hxlast).symm
      rw [hrows, setAt_self] at hx
      obtain rfl := Option.some.inj hx
      rw [hstrict (hs.resolve_right (by rw [hswitched]; exact Bool.false_ne_true))]
      unfold StorageMigration.standing
      rw [hswitched]
      rfl
    · rw [hother t ht] at hxlast
      rcases hat t id x hx with ⟨hteq, -, -⟩ | hx
      · exact absurd hteq ht
      · exact h.standing t id x hxlast hx hs

theorem standing_eq_of_same {m m' : StorageMigration} (hs : SameMigration m m')
    (hsw : m'.state.isSwitched = m.state.isSwitched) : m'.standing = m.standing := by
  unfold StorageMigration.standing
  rw [hsw, hs.sourceProfileId, hs.targetProfileId]

/-- **A commit keeps the tables in order.** -/
theorem commit (h : ControlOk strict valid a) (hc : ControlCommit strict valid a b) :
    ControlOk strict valid b := by
  obtain ⟨hp, hc⟩ := hc
  cases hc with
  | quiet hrows horder hactive =>
    exact h.quiet hp hrows horder (fun t => .inl (by rw [hactive]))
  | profiled t id hnone hrows horder hactive =>
    refine h.quiet hp hrows horder (fun t' => ?_)
    rw [hactive]
    by_cases ht : t' = t
    · rw [ht, Function.update_self]
      exact .inr ⟨hnone, rfl⟩
    · exact .inl (Function.update_of_ne ht _ _)
  | requested t id source target subject seconds now hvalid hnew hne hsource htarget hclosed
      hchosen hstrict hrows horder hactive =>
    refine h.requested (m := newMigration t id source target subject seconds now) hp
      ⟨rfl, rfl, hvalid, hne, hsource, htarget, ?_⟩ rfl hnew hclosed hchosen hstrict hrows horder
      hactive
    refine ⟨fun _ => rfl, fun hd => (by cases hd), fun hd => absurd rfl hd, fun hd => (by cases hd),
      fun hd => (by cases hd), ?_, fun _ _ => rfl, fun hd => (by cases hd)⟩
    rintro (hr | hr) <;> cases hr
  | stepped m u hm hu hrows horder hactive =>
    have hok := (h.row _ _ m hm).ok
    have hopen := hu.open_of_ok hok
    have hlast := h.last _ _ m hm hopen
    refine h.replaced hp hm hopen (u.same m) (hok.step hu) hrows horder (fun t _ => by rw [hactive])
      ⟨by rw [hactive]; exact h.single _, ?_⟩ (fun hs => ?_)
    · rw [hactive]
      exact h.chosen _ (fun hnil => by rw [hnil] at hlast; cases hlast)
    · rw [hu.isSwitched_eq hok] at hs
      rw [hactive, h.standing _ _ m hlast hm hs,
        standing_eq_of_same (u.same m) (hu.isSwitched_eq hok)]
  | switched m endsAt hm hstate hrows horder hactive =>
    have hok := (h.row _ _ m hm).ok
    have happroved := hok.beyond (by rw [hstate]; decide) (by rw [hstate]; decide)
    refine h.replaced hp hm (by rw [hstate]; rfl) (MigrationUpdate.same _ m) ?_ hrows horder
      (fun t ht => by rw [hactive, Function.update_of_ne ht]) ?_ (fun _ => ?_)
    · refine ⟨fun hpend => ?_, hok.approved, fun _ _ => happroved, hok.rollbackPending,
        hok.rollbackApproved, ?_, fun hr => (by cases hr), fun _ =>
        hok.validated (by rw [hstate]; rfl)⟩
      · exact absurd (hok.pending hpend) (by rw [hstate]; decide)
      · rintro (hr | hr) <;> cases hr
    · rw [hactive, Function.update_self]
      exact ⟨Nat.le_refl 1, List.cons_ne_nil _ _⟩
    · rw [hactive, Function.update_self]
      rfl
  | restored m e hm hstate he hrows horder hactive =>
    have hok := (h.row _ _ m hm).ok
    have happroved := hok.beyond (by rw [hstate]; decide) (by rw [hstate]; decide)
    refine h.replaced hp hm (by rw [hstate]; rfl) (MigrationUpdate.same _ m) ?_ hrows horder
      (fun t ht => by rw [hactive, Function.update_of_ne ht]) ?_ (fun _ => ?_)
    · exact ⟨fun hpend => absurd (hok.pending hpend) (by rw [hstate]; decide), hok.approved,
        fun _ _ => happroved, hok.rollbackPending, hok.rollbackApproved,
        fun _ => hok.rolling (.inl (by rw [hstate]; rfl)), fun hr => (by cases hr), fun _ => he⟩
    · rw [hactive, Function.update_self]
      exact ⟨Nat.le_refl 1, List.cons_ne_nil _ _⟩
    · rw [hactive, Function.update_self]
      rfl

end ControlOk

/-- **A tenant has one open migration.** -/
theorem ControlOk.open_unique (h : ControlOk strict valid a) {t id id' : Uuid}
    {m m' : StorageMigration} (hm : a.migrations t id = some m) (hopen : m.state.isClosed = false)
    (hm' : a.migrations t id' = some m') (hopen' : m'.state.isClosed = false) :
    id' = id ∧ m' = m := by
  have hlast := h.last t id m hm hopen
  rw [h.last t id' m' hm' hopen'] at hlast
  obtain rfl := Option.some.inj hlast
  rw [hm] at hm'
  exact ⟨rfl, (Option.some.inj hm').symm⟩

/-- The last migration that was requested is the most recent one. -/
theorem latest_of_getLast {t id : Uuid} {m : StorageMigration}
    (hlast : (a.order t).getLast? = some id) (hm : a.migrations t id = some m) :
    a.latest t = some m := by
  obtain ⟨l, hl⟩ := List.getLast?_eq_some_iff.mp hlast
  unfold StorageDb.latest StorageDb.migrationsOf
  rw [hl, List.filterMap_append]
  simp [hm]

/-- The business of a tenant writes where its open migration says. -/
theorem ControlOk.writeProfile_of_open (h : ControlOk strict valid a) {t id : Uuid}
    {m : StorageMigration} (hm : a.migrations t id = some m) (hopen : m.state.isClosed = false) :
    a.writeProfile t = m.businessWriteProfileId := by
  unfold StorageDb.writeProfile
  rw [latest_of_getLast (h.last t id m hm hopen) hm]

/-- **What one transaction may count on while others commit**: the order of migrations
grows, closed migrations stay closed, and the active profile of a tenant with closed
migrations does not change before another is requested. -/
structure ControlKept (a b : StorageDb) : Prop where
  order : ∀ t, a.order t <+: b.order t
  closed : ∀ t id m, a.migrations t id = some m → m.state.isClosed → b.migrations t id = some m
  profiles : ProfilesStay a b
  chosen : ∀ t, a.active t ≠ [] → b.active t ≠ []
  steady : ∀ t, (∀ id ∈ a.order t, ∃ m, a.migrations t id = some m ∧ m.state.isClosed) →
    b.order t = a.order t → a.active t ≠ [] → b.active t = a.active t

namespace ControlKept

theorem refl (a : StorageDb) : ControlKept a a :=
  ⟨fun _ => List.prefix_refl _, fun _ _ _ hm _ => hm, fun _ _ h => h, fun _ h => h,
    fun _ _ _ _ => rfl⟩

theorem trans {a b c : StorageDb} (h : ControlKept a b) (h' : ControlKept b c) :
    ControlKept a c := by
  refine ⟨fun t => (h.order t).trans (h'.order t),
    fun t id m hm hclosed => h'.closed t id m (h.closed t id m hm hclosed) hclosed,
    fun t id hid => h'.profiles t id (h.profiles t id hid),
    fun t ht => h'.chosen t (h.chosen t ht), fun t hclosed horder hne => ?_⟩
  have hab : b.order t = a.order t := by
    refine ((h.order t).eq_of_length_le ?_).symm
    have hle := (h'.order t).length_le
    rw [horder] at hle
    exact hle
  rw [← h.steady t hclosed hab hne]
  refine h'.steady t (fun id hid => ?_) (horder.trans hab.symm) (h.chosen t hne)
  rw [hab] at hid
  obtain ⟨m, hm, hmclosed⟩ := hclosed id hid
  exact ⟨m, h.closed t id m hm hmclosed, hmclosed⟩

theorem prefix_of_eq (h : b.order = a.order) (t : Uuid) : a.order t <+: b.order t := by
  simp [h]

/-- Replacing an open migration leaves the closed ones. -/
theorem closed_of_replaced {m m' : StorageMigration} (hm : a.migrations m.tenantId m.id = some m)
    (hopen : m.state.isClosed = false)
    (hrows : b.migrations = setAt a.migrations m.tenantId m.id (some m')) (t id : Uuid)
    (x : StorageMigration) (hx : a.migrations t id = some x) (hclosed : x.state.isClosed) :
    b.migrations t id = some x := by
  rw [hrows]
  by_cases hk : t = m.tenantId ∧ id = m.id
  · obtain ⟨rfl, rfl⟩ := hk
    rw [hm] at hx
    obtain rfl := Option.some.inj hx
    rw [hclosed] at hopen
    cases hopen
  · rw [setAt_of_ne _ _ hk]
    exact hx

/-- The tenant of an open migration has not closed all of them. -/
theorem not_closed_of_open {m : StorageMigration} (h : ControlOk strict valid a)
    (hm : a.migrations m.tenantId m.id = some m) (hopen : m.state.isClosed = false)
    (hclosed : ∀ id ∈ a.order m.tenantId,
      ∃ x, a.migrations m.tenantId id = some x ∧ x.state.isClosed) : False := by
  obtain ⟨x, hx, hxclosed⟩ := hclosed m.id ((h.listed _ _).mp (by rw [hm]; rfl))
  rw [hm] at hx
  obtain rfl := Option.some.inj hx
  rw [hxclosed] at hopen
  cases hopen

/-- **A commit keeps what others count on.** -/
theorem of_commit (h : ControlOk strict valid a) (hc : ControlCommit strict valid a b) :
    ControlKept a b := by
  obtain ⟨hp, hc⟩ := hc
  cases hc with
  | quiet hrows horder hactive =>
    exact ⟨prefix_of_eq horder, fun t id m hm _ => by rw [hrows]; exact hm, hp,
      fun t ht => by rw [hactive]; exact ht, fun t _ _ _ => by rw [hactive]⟩
  | profiled t id hnone hrows horder hactive =>
    have hother : ∀ t', a.active t' ≠ [] → b.active t' = a.active t' := by
      intro t' ht'
      rw [hactive, Function.update_of_ne]
      rintro rfl
      exact ht' hnone
    exact ⟨prefix_of_eq horder, fun t id m hm _ => by rw [hrows]; exact hm, hp,
      fun t' ht' => by rw [hother t' ht']; exact ht', fun t' _ _ ht' => hother t' ht'⟩
  | requested t id source target subject seconds now hvalid hnew hne hsource htarget hclosed
      hchosen hstrict hrows horder hactive =>
    refine ⟨fun t' => ?_, fun t' id' m hm _ => ?_, hp, fun t' ht' => by rw [hactive]; exact ht',
      fun t' _ _ _ => by rw [hactive]⟩
    · rw [horder]
      by_cases ht : t' = t
      · rw [ht, Function.update_self]
        exact List.prefix_append _ _
      · simp [Function.update_of_ne ht]
    · rw [hrows, setAt_of_ne]
      · exact hm
      · rintro ⟨rfl, rfl⟩
        rw [hnew] at hm
        cases hm
  | stepped m u hm hu hrows horder hactive =>
    have hopen := hu.open_of_ok (h.row _ _ m hm).ok
    exact ⟨prefix_of_eq horder, closed_of_replaced hm hopen hrows, hp,
      fun t ht => by rw [hactive]; exact ht, fun t _ _ _ => by rw [hactive]⟩
  | switched m endsAt hm hstate hrows horder hactive =>
    exact moved h hp hm (by rw [hstate]; rfl) hrows horder hactive
  | restored m e hm hstate he hrows horder hactive =>
    exact moved h hp hm (by rw [hstate]; rfl) hrows horder hactive
where
  /-- A migration that moves the business. -/
  moved {m m' : StorageMigration} {p : Uuid} (h : ControlOk strict valid a) (hp : ProfilesStay a b)
      (hm : a.migrations m.tenantId m.id = some m) (hopen : m.state.isClosed = false)
      (hrows : b.migrations = setAt a.migrations m.tenantId m.id (some m'))
      (horder : b.order = a.order) (hactive : b.active = Function.update a.active m.tenantId [p]) :
      ControlKept a b := by
    refine ⟨prefix_of_eq horder, closed_of_replaced hm hopen hrows, hp, fun t ht => ?_,
      fun t hclosed _ _ => ?_⟩
    · rw [hactive]
      by_cases htm : t = m.tenantId
      · rw [htm, Function.update_self]
        exact List.cons_ne_nil _ _
      · rw [Function.update_of_ne htm]
        exact ht
    · rw [hactive, Function.update_of_ne]
      rintro rfl
      exact not_closed_of_open h hm hopen hclosed

end ControlKept

end Control
