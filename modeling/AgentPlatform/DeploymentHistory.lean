import Mathlib
import AgentPlatform.Deployments

/-!
# How deployments follow each other

A deployment is placed on top of the one that is current: it remembers its
release as `previous_release_id` and its identifier as the pointer that approval
compares. `DeploymentChange` says what one commit may make of the deployments –
place a row, activate a requested one whose pointer is still right, halt one –
and `DeploymentsOk` is what such commits keep: a row that was placed on another
names its release, and only a row that was placed on nothing has no previous
release, and then routes every Session.

The current deployment is the active row that comes last in the order of
`activated_at` and `id`. `current_eq_some_iff` says so without the order of the
rows in the table.
-/

/-! ## The last of some rows -/

section LastBy

variable {α β : Type} [LinearOrder β] {precedes : α → α → Bool} {rank : α → β} {rows : List α}
  {c : α}

theorem lastBy_eq_none_iff : lastBy precedes rows = none ↔ rows = [] := by
  cases rows with
  | nil => simp [lastBy]
  | cons a rows =>
    simp only [lastBy, List.cons_ne_nil, iff_false]
    split
    · simp
    · split <;> simp

theorem mem_of_lastBy (h : lastBy precedes rows = some c) : c ∈ rows := by
  induction rows generalizing c with
  | nil => cases h
  | cons a rows ih =>
    simp only [lastBy] at h
    split at h
    · obtain rfl := Option.some.inj h
      exact List.mem_cons_self
    · rename_i b hb
      split at h
      · obtain rfl := Option.some.inj h
        exact List.mem_cons_of_mem a (ih hb)
      · obtain rfl := Option.some.inj h
        exact List.mem_cons_self

/-- No row comes after the last one. -/
theorem rank_le_lastBy (hrank : ∀ a b, precedes a b = true ↔ rank a < rank b)
    (h : lastBy precedes rows = some c) : ∀ b ∈ rows, rank b ≤ rank c := by
  induction rows generalizing c with
  | nil => exact fun b hb => absurd hb List.not_mem_nil
  | cons a rows ih =>
    intro b hb
    simp only [lastBy] at h
    split at h
    · rename_i hnone
      obtain rfl := Option.some.inj h
      rw [lastBy_eq_none_iff.mp hnone] at hb
      rw [List.mem_singleton.mp hb]
    · rename_i last hlast
      have hrest := ih hlast
      split at h
      · rename_i hlt
        obtain rfl := Option.some.inj h
        rcases List.mem_cons.mp hb with rfl | hb
        · exact ((hrank _ _).mp hlt).le
        · exact hrest b hb
      · rename_i hle
        obtain rfl := Option.some.inj h
        have hle' : rank last ≤ rank a := not_lt.mp (fun hlt => hle ((hrank _ _).mpr hlt))
        rcases List.mem_cons.mp hb with rfl | hb
        · exact le_rfl
        · exact (hrest b hb).trans hle'

/-- **The last row is the one that no other comes after**, when no two rows have
one rank. -/
theorem lastBy_eq_some_iff (hrank : ∀ a b, precedes a b = true ↔ rank a < rank b)
    (hinj : ∀ a ∈ rows, ∀ b ∈ rows, rank a = rank b → a = b) :
    lastBy precedes rows = some c ↔ c ∈ rows ∧ ∀ b ∈ rows, rank b ≤ rank c := by
  refine ⟨fun h => ⟨mem_of_lastBy h, rank_le_lastBy hrank h⟩, fun ⟨hc, hmax⟩ => ?_⟩
  cases h : lastBy precedes rows with
  | none =>
    rw [lastBy_eq_none_iff.mp h] at hc
    exact absurd hc List.not_mem_nil
  | some d =>
    have hd := mem_of_lastBy h
    rw [hinj d hd c hc (le_antisymm (hmax d hd) (rank_le_lastBy hrank h c hc))]

end LastBy

/-- The place of a deployment in the order `activated_at, id`, a null last. -/
def AgentDeployment.rank (d : AgentDeployment) : WithTop ℤ ×ₗ ℕ :=
  toLex (d.activatedAt.elim ⊤ (fun t => (t : WithTop ℤ)), d.id)

theorem AgentDeployment.precedes_iff (d d' : AgentDeployment) :
    d.precedes d' = true ↔ d.rank < d'.rank := by
  unfold AgentDeployment.precedes AgentDeployment.rank
  rw [Prod.Lex.toLex_lt_toLex]
  cases d.activatedAt <;> cases d'.activatedAt <;> simp

/-! ## What is kept -/

namespace AgentDeployment

/-- The columns of a deployment that no statement changes. -/
def placement (d : AgentDeployment) : AgentDeployment :=
  { d with
    status := .HALTED
    approver := none
    version := 0
    activatedAt := none
    haltedAt := none }

theorem placement_activated (d : AgentDeployment) (approver : String) (now : Timestamp) :
    (d.activated approver now).placement = d.placement := rfl

theorem placement_halted (d : AgentDeployment) (now : Timestamp) :
    (d.halted now).placement = d.placement := rfl

theorem key_of_placement {d d' : AgentDeployment} (h : d'.placement = d.placement) :
    d'.key = d.key := by
  simp only [placement, AgentDeployment.mk.injEq] at h
  exact Prod.ext h.1 h.2.1

/-- **A row placed on the current deployment.** -/
structure PlacedOn (row : AgentDeployment) (current : Option AgentDeployment) : Prop where
  deployment : row.previousDeploymentId = current.map AgentDeployment.id
  release : row.previousReleaseId = current.map AgentDeployment.releaseId
  first : current = none → row.rolloutPercentage = 100
  canary : row.rolloutPercentage < 100 → ∀ c ∈ current, c.releaseId ≠ row.releaseId
  requested : row.status = .PENDING_APPROVAL → row.environment = .production

theorem initialStatus_requested {environment : Environment}
    (h : initialStatus environment = .PENDING_APPROVAL) : environment = .production := by
  unfold initialStatus at h
  split at h
  · assumption
  · cases h

/-- **What `create_deployment` inserts.** -/
theorem placedOn_of_new {t app id : Uuid} {payload : AgentDeploymentCreate} {expected : Option ℤ}
    {subject : String} {now : Timestamp} {current : Option AgentDeployment}
    {row : AgentDeployment}
    (h : newDeployment t app id payload expected subject now current = .ok row) :
    row.PlacedOn current ∧ row.scope = ⟨t, app, payload.environment⟩ := by
  simp only [newDeployment] at h
  split at h
  · cases h
  · split at h
    · cases h
    · split at h
      · cases h
      · rename_i hrelease
        split at h
        · cases h
        · rename_i hfirst
          obtain rfl := Except.ok.inj h
          refine ⟨⟨rfl, rfl, fun hnone => ?_, fun _ c hc => ?_, initialStatus_requested⟩, rfl⟩
          · by_contra hne
            exact hfirst ⟨hnone, hne⟩
          · rw [Option.mem_def] at hc
            subst hc
            simpa using hrelease

/-- **What `rollback_deployment` inserts.** -/
theorem placedOn_rollbackTo (t app id release : Uuid) (environment : Environment)
    (subject : String) (now : Timestamp) (current : AgentDeployment) :
    (rollbackTo t app id release environment subject now current).PlacedOn (some current) :=
  ⟨rfl, rfl, (fun h => nomatch h), fun h => absurd h (by simp [rollbackTo]),
    initialStatus_requested⟩

end AgentDeployment

namespace DeploymentDb

/-- The current deployment is a row of the table. -/
theorem mem_of_current {db : DeploymentDb} {scope : DeploymentScope} {c : AgentDeployment}
    (h : db.current scope = some c) :
    c ∈ db.deployments ∧ c.scope = scope ∧ c.status = .ACTIVE := by
  obtain ⟨hmem, hc⟩ := List.mem_filter.mp (mem_of_lastBy h)
  exact ⟨hmem, of_decide_eq_true hc⟩

/-- The row of a deployment is under its key. -/
theorem mem_of_find {db : DeploymentDb} {t id app : Uuid} {d : AgentDeployment}
    (h : db.find t id app = some d) :
    d ∈ db.deployments ∧ d.key = (t, id) ∧ d.applicationId = app := by
  unfold find at h
  have hkey := List.find?_some h
  exact ⟨List.mem_of_find?_eq_some h, of_decide_eq_true hkey⟩

/-- **A row names what it was placed on**: nothing, and then it routes every
Session, or another row of the tenant and its release. -/
def Linked (db : DeploymentDb) (d : AgentDeployment) : Prop :=
  (d.previousDeploymentId = none ∧ d.previousReleaseId = none ∧ d.rolloutPercentage = 100)
    ∨ ∃ e ∈ db.deployments, e.tenantId = d.tenantId ∧ d.previousDeploymentId = some e.id
      ∧ d.previousReleaseId = some e.releaseId
      ∧ (d.rolloutPercentage < 100 → e.releaseId ≠ d.releaseId)

/-- Rows that nobody removes keep what is placed on them linked. -/
theorem Linked.mono {db db' : DeploymentDb} {d d' : AgentDeployment} (h : db.Linked d)
    (hrow : d'.placement = d.placement)
    (hkept : ∀ e ∈ db.deployments, ∃ e' ∈ db'.deployments, e'.placement = e.placement) :
    db'.Linked d' := by
  simp only [AgentDeployment.placement, AgentDeployment.mk.injEq] at hrow
  obtain ⟨ht, -, -, -, hr, hpr, hpd, -, hp, -⟩ := hrow
  unfold Linked
  rw [ht, hr, hpr, hpd, hp]
  refine h.imp_right (fun ⟨e, he, het, hid, hrel, hne⟩ => ?_)
  obtain ⟨e', he', hpl⟩ := hkept e he
  simp only [AgentDeployment.placement, AgentDeployment.mk.injEq] at hpl
  obtain ⟨ht', hi', -, -, hr', -⟩ := hpl
  exact ⟨e', he', ht'.trans het, by rw [hi', hid], by rw [hr', hrel], by rwa [hr']⟩

end DeploymentDb

/-- **The deployments are in order.** -/
structure DeploymentsOk (db : DeploymentDb) : Prop where
  keyed : (db.deployments.map AgentDeployment.key).Nodup
  linked : ∀ d ∈ db.deployments, db.Linked d
  requested : ∀ d ∈ db.deployments, d.status = .PENDING_APPROVAL → d.environment = .production

/-- **What one commit may make of the deployments.** -/
inductive DeploymentChange (db : DeploymentDb) : DeploymentDb → Prop
  | same {db' : DeploymentDb} (h : db'.deployments = db.deployments) : DeploymentChange db db'
  | placed (row : AgentDeployment) (hfresh : row.key ∉ db.deployments.map AgentDeployment.key)
      (hplaced : row.PlacedOn (db.current row.scope)) :
      DeploymentChange db { db with deployments := db.deployments ++ [row] }
  | activated (request : AgentDeployment) (approver : String) (now : Timestamp)
      (hrequest : request ∈ db.deployments) (hpending : request.status = .PENDING_APPROVAL)
      (hpointer : pointer (db.current request.scope) = request.expectedPointer) :
      DeploymentChange db (db.update request.key (fun d => d.activated approver now))
  | halted (key : Uuid × Uuid) (now : Timestamp) :
      DeploymentChange db (db.update key (fun d => d.halted now))

namespace DeploymentsOk

variable {db db' : DeploymentDb}

/-- A row under a key. -/
theorem unique (h : DeploymentsOk db) {d d' : AgentDeployment} (hd : d ∈ db.deployments)
    (hd' : d' ∈ db.deployments) (hkey : d.key = d'.key) : d = d' :=
  List.inj_on_of_nodup_map h.keyed hd hd' hkey

/-- Changing rows without their placement keeps the order. -/
theorem update (h : DeploymentsOk db) (key : Uuid × Uuid) {f : AgentDeployment → AgentDeployment}
    (hf : ∀ d, (f d).placement = d.placement) (hstatus : ∀ d, (f d).status ≠ .PENDING_APPROVAL) :
    DeploymentsOk (db.update key f) := by
  have hkept : ∀ e ∈ db.deployments, ∃ e' ∈ (db.update key f).deployments,
      e'.placement = e.placement := by
    intro e he
    refine ⟨_, List.mem_map_of_mem he, ?_⟩
    split
    · exact hf e
    · rfl
  refine ⟨?_, fun d hd => ?_, fun d hd hp => ?_⟩
  · have hkeys : (db.update key f).deployments.map AgentDeployment.key
        = db.deployments.map AgentDeployment.key := by
      show (db.deployments.map _).map _ = _
      rw [List.map_map]
      refine List.map_congr_left (fun d _ => ?_)
      simp only [Function.comp_apply]
      split
      · exact AgentDeployment.key_of_placement (hf d)
      · rfl
    rw [hkeys]
    exact h.keyed
  · obtain ⟨e, he, rfl⟩ := List.mem_map.mp hd
    refine (h.linked e he).mono ?_ hkept
    split
    · exact hf e
    · rfl
  · obtain ⟨e, he, rfl⟩ := List.mem_map.mp hd
    split at hp
    · exact absurd hp (hstatus e)
    · rename_i hne
      rw [if_neg hne]
      exact h.requested e he hp

/-- **What a commit keeps.** -/
theorem change (h : DeploymentsOk db) (hc : DeploymentChange db db') : DeploymentsOk db' := by
  cases hc with
  | same hsame =>
    refine ⟨by rw [hsame]; exact h.keyed, fun d hd => ?_, fun d hd => h.requested d (hsame ▸ hd)⟩
    exact (h.linked d (hsame ▸ hd)).mono rfl (fun e he => ⟨e, hsame ▸ he, rfl⟩)
  | placed row hfresh hplaced =>
    refine ⟨?_, fun d hd => ?_, fun d hd => ?_⟩
    · rw [List.map_append]
      refine List.nodup_append.mpr ⟨h.keyed, List.nodup_singleton _, ?_⟩
      rintro k hk k' hk' rfl
      exact hfresh (List.mem_singleton.mp hk' ▸ hk)
    · rcases List.mem_append.mp hd with hd | hd
      · exact (h.linked d hd).mono rfl (fun e he => ⟨e, List.mem_append_left _ he, rfl⟩)
      · obtain rfl := List.mem_singleton.mp hd
        cases hcur : db.current d.scope with
        | none =>
          rw [hcur] at hplaced
          exact .inl ⟨hplaced.deployment, hplaced.release, hplaced.first rfl⟩
        | some e =>
          rw [hcur] at hplaced
          obtain ⟨he, hscope, -⟩ := DeploymentDb.mem_of_current hcur
          exact .inr ⟨e, List.mem_append_left _ he, congrArg DeploymentScope.tenantId hscope,
            hplaced.deployment, hplaced.release, fun hp => hplaced.canary hp e rfl⟩
    · rcases List.mem_append.mp hd with hd | hd
      · exact h.requested d hd
      · obtain rfl := List.mem_singleton.mp hd
        exact hplaced.requested
  | activated request approver now hrequest hpending hpointer =>
    exact h.update _ (fun d => d.placement_activated approver now) (fun d hd => nomatch hd)
  | halted key now => exact h.update _ (fun d => d.placement_halted now) (fun d hd => nomatch hd)

/-- **The current deployment, without the order of the table.** -/
theorem current_eq_some_iff (h : DeploymentsOk db) {scope : DeploymentScope}
    {c : AgentDeployment} :
    db.current scope = some c ↔ c ∈ db.active scope ∧ ∀ b ∈ db.active scope, b.rank ≤ c.rank := by
  refine lastBy_eq_some_iff AgentDeployment.precedes_iff (fun a ha b hb hrank => ?_)
  obtain ⟨hamem, ha⟩ := List.mem_filter.mp ha
  obtain ⟨hbmem, hb⟩ := List.mem_filter.mp hb
  have hscope : a.scope = b.scope := (of_decide_eq_true ha).1.trans (of_decide_eq_true hb).1.symm
  refine h.unique hamem hbmem (Prod.ext (congrArg DeploymentScope.tenantId hscope) ?_)
  exact (Prod.mk.inj (toLex_inj.mp hrank)).2

end DeploymentsOk
