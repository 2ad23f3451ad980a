import AgentPlatform.ExecutionStore
import AgentPlatform.Transition

/-!
# The acknowledgement of projections

The embedding of `SessionProjectionConsumer.run_once` of `job_worker.py`. A replica
looks for a published record whose delivery is outstanding, locks the record, runs
the handler and writes down in `platform.session_projection_delivery` how it went.

The record is locked, and the delivery is read from the snapshot of the statement.
The consumer never updates a record, so a lock that was waited for, or that is free
again, does not make the database look at the delivery once more: a replica may act
on the delivery as it was when its statement began. What it writes is one more than
the attempts it has read.
-/

/-- `status` of a delivery. -/
inductive ProjectionStatus where
  | pending
  | succeeded
  | deadLetter
  deriving DecidableEq

/-- **A row of `platform.session_projection_delivery`**, with the check of the table on
its completion. -/
structure ProjectionDelivery where
  status : ProjectionStatus
  attempts : ℕ
  lastError : Option String
  completedAt : Option Timestamp
  check : status = .succeeded ↔ completedAt.isSome
  deriving DecidableEq

/-- How far a replica has come: it scans the rows of its snapshot for one it can lock,
runs the handler, or has still to write down what came of it. -/
inductive ConsumerPhase where
  | idle
  | scanning (rows : List (Uuid × ℕ))
  | handling (outboxId : Uuid) (attempts : ℕ)
  | recording (outboxId : Uuid) (attempts : ℕ) (error : Option String)
  deriving DecidableEq

/-- The tables and the replicas. `published` are the published records of the event
type in the order of `created_at,id`; `failures` counts, for the record, how often the
handler has failed for each. -/
structure ProjectionState (ρ : Type) where
  published : List Uuid
  deliveries : Uuid → Option ProjectionDelivery
  locks : Uuid → Option ρ
  phases : ρ → ConsumerPhase
  failures : Uuid → ℕ

/-- What can happen next. -/
inductive ProjectionLabel (ρ : Type) where
  | publish (outboxId : Uuid) (place : ℕ)
  | select (r : ρ)
  | scan (r : ρ)
  | handled (r : ρ) (error : Option String)
  | record (r : ρ) (now : Timestamp)
  | crash (r : ρ)

namespace SessionProjectionConsumer

/-- `COALESCE(d.attempts,0)`. -/
def attemptsOf (d : Option ProjectionDelivery) : ℕ := d.elim 0 ProjectionDelivery.attempts

/-- The deliveries that are outstanding. -/
def outstanding (maxAttempts : ℕ) (d : Option ProjectionDelivery) : Bool :=
  d.all (fun row => row.status = .pending) && attemptsOf d < maxAttempts

/-- The row after `INSERT ... ON CONFLICT (outbox_id) DO UPDATE SET status='SUCCEEDED'`. -/
def succeed (now : Timestamp) (attempts : ℕ) : ProjectionDelivery :=
  ⟨.succeeded, attempts + 1, none, some now, by simp⟩

/-- The status after a failure. -/
def failedStatus (maxAttempts attempts : ℕ) : ProjectionStatus :=
  if maxAttempts ≤ attempts + 1 then .deadLetter else .pending

/-- A failed delivery is not a completed one. -/
theorem failedStatus_ne (maxAttempts attempts : ℕ) :
    failedStatus maxAttempts attempts ≠ .succeeded := by
  unfold failedStatus
  split <;> simp

/-- **The row after `_record_delivery_failure`**. `completed_at` is left as it is, so the
check refuses the update of a row that is completed. -/
def recordDeliveryFailure (maxAttempts attempts : ℕ) (error : String) :
    Option ProjectionDelivery → Option ProjectionDelivery
  | none => some ⟨failedStatus maxAttempts attempts, attempts + 1,
      some (String.ofList (error.toList.take 512)), none,
      by simp [failedStatus_ne]⟩
  | some row =>
    if h : row.completedAt = none then
      some ⟨failedStatus maxAttempts attempts, attempts + 1,
        some (String.ofList (error.toList.take 512)), row.completedAt,
        by simp [failedStatus_ne, h]⟩
    else none

/-- What is written down, or `none` if the database refuses it. -/
def outcome (maxAttempts : ℕ) (now : Timestamp) (attempts : ℕ) (d : Option ProjectionDelivery) :
    Option String → Option ProjectionDelivery
  | none => some (succeed now attempts)
  | some error => recordDeliveryFailure maxAttempts attempts error d

end SessionProjectionConsumer

namespace ProjectionState

open SessionProjectionConsumer

variable {ρ : Type} [DecidableEq ρ]

/-- A replica comes to another phase. -/
def goTo (s : ProjectionState ρ) (r : ρ) (phase : ConsumerPhase) : ProjectionState ρ :=
  { s with phases := Function.update s.phases r phase }

/-- The transaction of a replica ends, and its lock with it. -/
def finish (s : ProjectionState ρ) (r : ρ) (outboxId : Uuid) : ProjectionState ρ :=
  { s with locks := Function.update s.locks outboxId none }.goTo r .idle

/-- **One step of the replicas.** `FOR UPDATE OF o SKIP LOCKED` takes the first row of
the snapshot whose record is not locked when its turn comes. -/
def step (maxAttempts : ℕ) (s : ProjectionState ρ) :
    ProjectionLabel ρ → Option (ProjectionState ρ)
  | .publish outboxId place =>
    if outboxId ∈ s.published then none
    else some { s with published := s.published.insertIdx place outboxId }
  | .select r =>
    match s.phases r with
    | .idle => some (s.goTo r (.scanning
        ((s.published.filter (fun id => outstanding maxAttempts (s.deliveries id))).map
          (fun id => (id, attemptsOf (s.deliveries id))))))
    | _ => none
  | .scan r =>
    match s.phases r with
    | .scanning [] => some (s.goTo r .idle)
    | .scanning ((outboxId, attempts) :: rows) =>
      match s.locks outboxId with
      | some _ => some (s.goTo r (.scanning rows))
      | none => some ({ s with locks := Function.update s.locks outboxId (some r) }.goTo r
          (.handling outboxId attempts))
    | _ => none
  | .handled r error =>
    match s.phases r with
    | .handling outboxId attempts =>
      some ({ s with
        failures := if error.isSome then
            Function.update s.failures outboxId (s.failures outboxId + 1)
          else s.failures }.goTo r (.recording outboxId attempts error))
    | _ => none
  | .record r now =>
    match s.phases r with
    | .recording outboxId attempts error =>
      match outcome maxAttempts now attempts (s.deliveries outboxId) error with
      | some row => some ({ s with
          deliveries := Function.update s.deliveries outboxId (some row) }.finish r outboxId)
      | none => some (s.finish r outboxId)
    | _ => none
  | .crash r =>
    match s.phases r with
    | .handling outboxId _ => some (s.finish r outboxId)
    | .recording outboxId _ _ => some (s.finish r outboxId)
    | _ => some (s.goTo r .idle)

end ProjectionState

/-- **The replicas over empty deliveries.** -/
def projectionMachine (ρ : Type) [DecidableEq ρ] (maxAttempts : ℕ) :
    Machine (ProjectionState ρ) (ProjectionLabel ρ) where
  init s := s = ⟨[], fun _ => none, fun _ => none, fun _ => .idle, fun _ => 0⟩
  step := ProjectionState.step maxAttempts

/-! ## What a delivery goes through -/

namespace ProjectionState

open SessionProjectionConsumer

variable {ρ : Type} [DecidableEq ρ] {maxAttempts : ℕ} {s s' : ProjectionState ρ} {r : ρ}

/-- **Deliveries only grow**: a row stays, its attempts do not decrease, and one that
has succeeded stays so. -/
def Grows (s s' : ProjectionState ρ) : Prop :=
  ∀ outboxId row, s.deliveries outboxId = some row →
    ∃ row', s'.deliveries outboxId = some row' ∧ row.attempts ≤ row'.attempts
      ∧ (row.status = .succeeded → row'.status = .succeeded)

/-- **At most one attempt since the snapshot**: when an outcome is written down, the row
has at most one attempt more than the snapshot had, unless the database refuses what is
written. -/
def Current (s : ProjectionState ρ) : ProjectionLabel ρ → Prop
  | .record r _ =>
    match s.phases r with
    | .recording outboxId attempts error =>
      ∀ row ∈ s.deliveries outboxId, error = none ∨ row.status ≠ .succeeded →
        row.attempts ≤ attempts + 1
    | _ => True
  | _ => True

instance (s : ProjectionState ρ) : ∀ l : ProjectionLabel ρ, Decidable (s.Current l)
  | .record r _ =>
    match h : s.phases r with
    | .recording outboxId attempts error =>
      decidable_of_iff (∀ row ∈ s.deliveries outboxId, error = none ∨ row.status ≠ .succeeded →
        row.attempts ≤ attempts + 1) (by simp [Current, h])
    | .idle => .isTrue (by simp [Current, h])
    | .scanning _ => .isTrue (by simp [Current, h])
    | .handling _ _ => .isTrue (by simp [Current, h])
  | .publish _ _ => .isTrue trivial
  | .select _ => .isTrue trivial
  | .scan _ => .isTrue trivial
  | .handled _ _ => .isTrue trivial
  | .crash _ => .isTrue trivial

/-- Deliveries that are left alone. -/
theorem Grows.of_eq (h : s'.deliveries = s.deliveries) : Grows s s' :=
  fun _ row hrow => ⟨row, h ▸ hrow, le_rfl, id⟩

/-- What follows from one state follows from what is before it. -/
theorem Grows.trans {s'' : ProjectionState ρ} (h : Grows s s') (h' : Grows s' s'') :
    Grows s s'' := by
  intro outboxId row hrow
  obtain ⟨row', hrow', hle, hsucceeded⟩ := h outboxId row hrow
  obtain ⟨row'', hrow'', hle', hsucceeded'⟩ := h' outboxId row' hrow'
  exact ⟨row'', hrow'', hle.trans hle', fun h => hsucceeded' (hsucceeded h)⟩

/-- What the database accepts: one attempt more than was read, and no failure over a
success. -/
theorem outcome_eq_some {now : Timestamp} {attempts : ℕ} {d : Option ProjectionDelivery}
    {error : Option String} {row : ProjectionDelivery}
    (h : outcome maxAttempts now attempts d error = some row) :
    row.attempts = attempts + 1
      ∧ (error = none ∧ row.status = .succeeded
        ∨ error.isSome ∧ row.status = failedStatus maxAttempts attempts
          ∧ ∀ row' ∈ d, row'.status ≠ .succeeded) := by
  cases error with
  | none =>
    obtain rfl := Option.some.inj h
    exact ⟨rfl, .inl ⟨rfl, rfl⟩⟩
  | some error =>
    cases d with
    | none =>
      obtain rfl := Option.some.inj h
      exact ⟨rfl, .inr ⟨rfl, rfl, by simp⟩⟩
    | some row' =>
      simp only [outcome, recordDeliveryFailure] at h
      split at h
      · rename_i hopen
        obtain rfl := Option.some.inj h
        refine ⟨rfl, .inr ⟨rfl, rfl, fun row'' hrow'' => ?_⟩⟩
        obtain rfl := Option.some.inj hrow''
        intro hsucceeded
        have hsome := row'.check.mp hsucceeded
        rw [hopen] at hsome
        cases hsome
      · cases h

/-- What the database refuses: a failure over a success. -/
theorem outcome_eq_none {now : Timestamp} {attempts : ℕ} {d : Option ProjectionDelivery}
    {error : Option String} (h : outcome maxAttempts now attempts d error = none) :
    error.isSome ∧ ∃ row ∈ d, row.status = .succeeded := by
  cases error with
  | none => cases h
  | some error =>
    cases d with
    | none => cases h
    | some row =>
      simp only [outcome, recordDeliveryFailure] at h
      split at h
      · cases h
      · rename_i hclosed
        exact ⟨rfl, row, rfl, row.check.mpr (Option.ne_none_iff_isSome.mp hclosed)⟩

/-- **When a step lets the deliveries grow**: exactly when it is `Current`. -/
theorem step_grows_iff {l : ProjectionLabel ρ} (hs : s.step maxAttempts l = some s') :
    Grows s s' ↔ s.Current l := by
  cases l with
  | publish outboxId place =>
    simp only [step] at hs
    split at hs
    · cases hs
    · obtain rfl := Option.some.inj hs
      exact iff_of_true (.of_eq rfl) trivial
  | select r =>
    simp only [step] at hs
    split at hs
    · obtain rfl := Option.some.inj hs
      exact iff_of_true (.of_eq rfl) trivial
    · cases hs
  | scan r =>
    simp only [step] at hs
    split at hs
    · obtain rfl := Option.some.inj hs
      exact iff_of_true (.of_eq rfl) trivial
    · split at hs <;> (obtain rfl := Option.some.inj hs; exact iff_of_true (.of_eq rfl) trivial)
    · cases hs
  | handled r error =>
    simp only [step] at hs
    split at hs
    · obtain rfl := Option.some.inj hs
      exact iff_of_true (.of_eq rfl) trivial
    · cases hs
  | crash r =>
    simp only [step] at hs
    split at hs <;> (obtain rfl := Option.some.inj hs; exact iff_of_true (.of_eq rfl) trivial)
  | record r now =>
    simp only [step] at hs
    split at hs
    swap
    · cases hs
    rename_i outboxId attempts error hphase
    simp only [Current, hphase]
    split at hs
    · rename_i row' houtcome
      obtain rfl := Option.some.inj hs
      obtain ⟨hattempts, hstatus⟩ := outcome_eq_some houtcome
      constructor
      · intro hgrows row hrow _
        obtain ⟨row'', hrow'', hle, -⟩ := hgrows outboxId row hrow
        simp only [finish, goTo, Function.update_self, Option.some.injEq] at hrow''
        rwa [← hrow'', hattempts] at hle
      · intro hcurrent id row hrow
        by_cases hid : id = outboxId
        · subst hid
          refine ⟨row', by simp [finish, goTo], ?_, fun hsucceeded => ?_⟩
          · rw [hattempts]
            refine hcurrent row hrow ?_
            obtain ⟨hnone, -⟩ | ⟨-, -, hopen⟩ := hstatus
            · exact .inl hnone
            · exact .inr (hopen row hrow)
          · obtain ⟨-, hrow'⟩ | ⟨-, -, hopen⟩ := hstatus
            · exact hrow'
            · exact absurd hsucceeded (hopen row hrow)
        · exact ⟨row, by simpa [finish, goTo, Function.update_of_ne hid] using hrow, le_rfl,
            fun hsucceeded => hsucceeded⟩
    · rename_i houtcome
      obtain rfl := Option.some.inj hs
      obtain ⟨herror, row, hrow, hsucceeded⟩ := outcome_eq_none houtcome
      refine iff_of_true (.of_eq rfl) (fun row' hrow' hwrites => ?_)
      obtain rfl := Option.some.inj (hrow.symm.trans hrow')
      obtain hnone | hopen := hwrites
      · rw [hnone] at herror
        cases herror
      · exact absurd hsucceeded hopen

/-- What a phase has read: no more attempts than the handler has failed, counting the
failure that is still to be written down. -/
def PhaseCounted (failures : Uuid → ℕ) : ConsumerPhase → Prop
  | .idle => True
  | .scanning rows => ∀ e ∈ rows, e.2 ≤ failures e.1
  | .handling outboxId attempts => attempts ≤ failures outboxId
  | .recording outboxId attempts error => error.isSome → attempts + 1 ≤ failures outboxId

/-- **Every attempt of a delivery that has not succeeded is a failure of the handler**,
and a dead letter has had them all. -/
structure Counted (maxAttempts : ℕ) (s : ProjectionState ρ) : Prop where
  rows : ∀ outboxId row, s.deliveries outboxId = some row → row.status ≠ .succeeded →
    row.attempts ≤ s.failures outboxId
  dead : ∀ outboxId row, s.deliveries outboxId = some row → row.status = .deadLetter →
    maxAttempts ≤ row.attempts
  phases : ∀ r, PhaseCounted s.failures (s.phases r)

/-- More failures. -/
theorem PhaseCounted.mono {failures failures' : Uuid → ℕ} {phase : ConsumerPhase}
    (hle : ∀ outboxId, failures outboxId ≤ failures' outboxId)
    (h : PhaseCounted failures phase) : PhaseCounted failures' phase := by
  cases phase with
  | idle => trivial
  | scanning rows => exact fun e he => (h e he).trans (hle e.1)
  | handling outboxId attempts => exact le_trans h (hle outboxId)
  | recording outboxId attempts error => exact fun herror => (h herror).trans (hle outboxId)

/-- A replica comes to a phase that has read no more than it should. -/
theorem Counted.goTo (h : s.Counted maxAttempts) {phase : ConsumerPhase}
    (hphase : PhaseCounted s.failures phase) : (s.goTo r phase).Counted maxAttempts := by
  refine ⟨h.rows, h.dead, fun q => ?_⟩
  by_cases hq : q = r
  · subst hq
    simpa [ProjectionState.goTo] using hphase
  · simpa [ProjectionState.goTo, Function.update_of_ne hq] using h.phases q

/-- Locks are not counted. -/
theorem Counted.locks (h : s.Counted maxAttempts) (locks : Uuid → Option ρ) :
    Counted maxAttempts { s with locks := locks } :=
  ⟨h.rows, h.dead, h.phases⟩

/-- The handler has failed. -/
theorem Counted.fail (h : s.Counted maxAttempts) (outboxId : Uuid) :
    Counted maxAttempts { s with
      failures := Function.update s.failures outboxId (s.failures outboxId + 1) } := by
  have hle : ∀ q, s.failures q ≤ Function.update s.failures outboxId
      (s.failures outboxId + 1) q := by
    intro q
    by_cases hq : q = outboxId
    · simp [hq]
    · simp [Function.update_of_ne hq]
  exact ⟨fun q row hrow hopen => (h.rows q row hrow hopen).trans (hle q), h.dead,
    fun q => (h.phases q).mono hle⟩

/-- An outcome is written down. -/
theorem Counted.write (h : s.Counted maxAttempts) {outboxId : Uuid} {attempts : ℕ}
    {error : Option String} {now : Timestamp} {row : ProjectionDelivery}
    (houtcome : outcome maxAttempts now attempts (s.deliveries outboxId) error = some row)
    (hread : error.isSome → attempts + 1 ≤ s.failures outboxId) :
    Counted maxAttempts { s with
      deliveries := Function.update s.deliveries outboxId (some row) } := by
  obtain ⟨hattempts, hstatus⟩ := outcome_eq_some houtcome
  refine ⟨fun q row' hrow' hopen => ?_, fun q row' hrow' hdead => ?_, h.phases⟩
  · by_cases hq : q = outboxId
    · subst hq
      simp only [Function.update_self, Option.some.injEq] at hrow'
      subst hrow'
      obtain ⟨-, hsucceeded⟩ | ⟨herror, -, -⟩ := hstatus
      · exact absurd hsucceeded hopen
      · exact hattempts ▸ hread herror
    · simp only [Function.update_of_ne hq] at hrow'
      exact h.rows q row' hrow' hopen
  · by_cases hq : q = outboxId
    · subst hq
      simp only [Function.update_self, Option.some.injEq] at hrow'
      subst hrow'
      obtain ⟨-, hsucceeded⟩ | ⟨-, hfailed, -⟩ := hstatus
      · rw [hsucceeded] at hdead
        cases hdead
      · rw [hfailed, failedStatus] at hdead
        split at hdead
        · rename_i hlast
          exact hattempts ▸ hlast
        · cases hdead
    · simp only [Function.update_of_ne hq] at hrow'
      exact h.dead q row' hrow' hdead

/-- What a snapshot reads of outstanding deliveries. -/
theorem Counted.outstanding_le (h : s.Counted maxAttempts) {outboxId : Uuid}
    (hopen : outstanding maxAttempts (s.deliveries outboxId) = true) :
    attemptsOf (s.deliveries outboxId) ≤ s.failures outboxId := by
  cases hrow : s.deliveries outboxId with
  | none => exact Nat.zero_le _
  | some row =>
    refine h.rows outboxId row hrow (fun hsucceeded => ?_)
    simp [outstanding, hrow, hsucceeded] at hopen

/-- **What a step keeps of the count**, whatever the replicas have read. -/
theorem Counted.step {l : ProjectionLabel ρ} (h : s.Counted maxAttempts)
    (hs : s.step maxAttempts l = some s') : s'.Counted maxAttempts := by
  cases l with
  | publish outboxId place =>
    simp only [ProjectionState.step] at hs
    split at hs
    · cases hs
    · obtain rfl := Option.some.inj hs
      exact ⟨h.rows, h.dead, h.phases⟩
  | select r =>
    simp only [ProjectionState.step] at hs
    split at hs
    · obtain rfl := Option.some.inj hs
      refine h.goTo (fun e he => ?_)
      obtain ⟨outboxId, hid, rfl⟩ := List.mem_map.mp he
      exact h.outstanding_le (List.mem_filter.mp hid).2
    · cases hs
  | scan r =>
    have hread := h.phases r
    simp only [ProjectionState.step] at hs
    split at hs
    · obtain rfl := Option.some.inj hs
      exact h.goTo trivial
    · rename_i outboxId attempts rows hphase
      rw [hphase] at hread
      split at hs
      · obtain rfl := Option.some.inj hs
        exact h.goTo (fun e he => hread e (List.mem_cons_of_mem _ he))
      · obtain rfl := Option.some.inj hs
        exact (h.locks _).goTo (hread _ List.mem_cons_self)
    · cases hs
  | handled r error =>
    have hread := h.phases r
    simp only [ProjectionState.step] at hs
    split at hs
    · rename_i outboxId attempts hphase
      obtain rfl := Option.some.inj hs
      rw [hphase] at hread
      cases error with
      | none => exact h.goTo nofun
      | some error =>
        refine (h.fail outboxId).goTo (fun _ => ?_)
        simpa using Nat.succ_le_succ hread
    · cases hs
  | record r now =>
    have hread := h.phases r
    simp only [ProjectionState.step] at hs
    split at hs
    · rename_i outboxId attempts error hphase
      rw [hphase] at hread
      split at hs
      · rename_i row houtcome
        obtain rfl := Option.some.inj hs
        exact ((h.write houtcome hread).locks _).goTo trivial
      · obtain rfl := Option.some.inj hs
        exact (h.locks _).goTo trivial
    · cases hs
  | crash r =>
    simp only [ProjectionState.step] at hs
    split at hs
    · obtain rfl := Option.some.inj hs
      exact (h.locks _).goTo trivial
    · obtain rfl := Option.some.inj hs
      exact (h.locks _).goTo trivial
    · obtain rfl := Option.some.inj hs
      exact h.goTo trivial

end ProjectionState

section Acknowledgement

variable {ρ : Type} [DecidableEq ρ]

/-- **A dead letter has failed as often as the consumer allows**, in every run. -/
theorem counted_of_reach {maxAttempts : ℕ} {ok : ProjectionState ρ → ProjectionLabel ρ → Prop}
    {s : ProjectionState ρ} (h : (projectionMachine ρ maxAttempts).Reach ok s) :
    s.Counted maxAttempts := by
  refine h.invariant (fun s₀ hinit => ?_) (fun s l s' _ hcounted _ hs => hcounted.step hs)
  subst hinit
  exact ⟨fun _ _ => nofun, fun _ _ => nofun, fun _ => trivial⟩

/-- **The acknowledgement is monotone**: in every run in which at most one attempt is
written down between the snapshot of a replica and what it writes itself, rows stay,
attempts do not decrease, what has succeeded stays so, and a dead letter has failed as
often as the consumer allows. -/
theorem projection_monotone (maxAttempts : ℕ) {s s' : ProjectionState ρ}
    (h : (projectionMachine ρ maxAttempts).Reach ProjectionState.Current s)
    (hs : (projectionMachine ρ maxAttempts).Steps ProjectionState.Current s s') :
    (∀ outboxId row, s.deliveries outboxId = some row →
        ∃ row', s'.deliveries outboxId = some row' ∧ row.attempts ≤ row'.attempts
          ∧ (row.status = .succeeded → row'.status = .succeeded))
      ∧ ∀ outboxId row, s'.deliveries outboxId = some row → row.status = .deadLetter →
          maxAttempts ≤ s'.failures outboxId := by
  constructor
  · exact hs.trans_rel (R := ProjectionState.Grows) (fun _ => .of_eq rfl)
      (fun _ _ _ => ProjectionState.Grows.trans)
      (fun _ _ _ _ hok hstep => (ProjectionState.step_grows_iff hstep).mpr hok) h
  · intro outboxId row hrow hdead
    have hcounted := counted_of_reach (h.steps hs)
    refine (hcounted.dead outboxId row hrow hdead).trans (hcounted.rows outboxId row hrow ?_)
    rw [hdead]
    decide

/-- Nothing is published yet. -/
def noProjections : ProjectionState Bool :=
  ⟨[], fun _ => none, fun _ => none, fun _ => .idle, fun _ => 0⟩

/-- A replica runs the consumer once. -/
def runOnce (r : Bool) (error : Option String) : List (ProjectionLabel Bool) :=
  [.select r, .scan r, .handled r error, .record r 0]

/-- A failure and then a success: the delivery that had one attempt has succeeded with
two. -/
theorem projection_monotone_retry :
    ∃ s s' row', (projectionMachine Bool 8).Reach ProjectionState.Current s
      ∧ (projectionMachine Bool 8).Steps ProjectionState.Current s s'
      ∧ (s.deliveries 1).map ProjectionDelivery.attempts = some 1
      ∧ s'.deliveries 1 = some row' ∧ 1 ≤ row'.attempts ∧ row'.status = .succeeded
      ∧ (row'.status = .deadLetter → 8 ≤ s'.failures 1) := by
  have hrun : ((projectionMachine Bool 8).runIf (fun s l => decide (s.Current l)) noProjections
      (.publish 1 0 :: runOnce false (some "timeout"))).bind
        (fun s => ((projectionMachine Bool 8).runIf (fun s l => decide (s.Current l)) s
          (runOnce true none)).map (fun s' =>
            decide ((s.deliveries 1).map ProjectionDelivery.attempts = some 1
              ∧ (s'.deliveries 1).map ProjectionDelivery.status = some .succeeded)))
      = some true := by decide +kernel
  have hinit : (projectionMachine Bool 8).init noProjections := rfl
  obtain ⟨s, s', hs, hs', hp⟩ := Machine.steps_of_runIf_runIf
    (fun s l h => (of_decide_eq_true h : s.Current l)) hinit hrun
  obtain ⟨hbefore, hafter⟩ := of_decide_eq_true hp
  obtain ⟨row, hrow, hattempts⟩ := Option.map_eq_some_iff.mp hbefore
  obtain ⟨row', hrow', hstatus⟩ := Option.map_eq_some_iff.mp hafter
  obtain ⟨hgrows, hdead⟩ := projection_monotone 8 hs hs'
  obtain ⟨row'', hrow'', hle, -⟩ := hgrows 1 row hrow
  obtain rfl := Option.some.inj (hrow'.symm.trans hrow'')
  exact ⟨s, s', row', hs, hs', hbefore, hrow', hattempts ▸ hle, hstatus, hdead 1 row' hrow'⟩

/-- **Attempts that decrease**: a replica takes its snapshot before another fails twice,
locks the record after that, and fails as well. The delivery goes from two attempts to
one. -/
theorem projection_attempts_decrease :
    ∃ s s' row row', (projectionMachine Bool 8).Reach Machine.anyStep s
      ∧ (projectionMachine Bool 8).Steps Machine.anyStep s s'
      ∧ s.deliveries 1 = some row ∧ s'.deliveries 1 = some row'
      ∧ row'.attempts < row.attempts := by
  have hrun : ((projectionMachine Bool 8).run noProjections
      (.publish 1 0 :: .select true :: (runOnce false (some "timeout")
        ++ runOnce false (some "timeout")))).bind
        (fun s => ((projectionMachine Bool 8).run s
          [.scan true, .handled true (some "timeout"), .record true 0]).map (fun s' =>
            decide ((s.deliveries 1).map ProjectionDelivery.attempts = some 2
              ∧ (s'.deliveries 1).map ProjectionDelivery.attempts = some 1)))
      = some true := by decide +kernel
  have hinit : (projectionMachine Bool 8).init noProjections := rfl
  obtain ⟨s, s', hs, hs', hp⟩ := Machine.steps_of_run_run hinit hrun
  obtain ⟨hbefore, hafter⟩ := of_decide_eq_true hp
  obtain ⟨row, hrow, hattempts⟩ := Option.map_eq_some_iff.mp hbefore
  obtain ⟨row', hrow', hattempts'⟩ := Option.map_eq_some_iff.mp hafter
  exact ⟨s, s', row, row', hs, hs', hrow, hrow', by rw [hattempts, hattempts']; decide⟩

end Acknowledgement
