import AgentPlatform.AgentGateway
import AgentPlatform.TokenBucket

/-!
# What the admission limits promise

Messages are admitted through two token buckets: one in the memory of each
gateway, and one in the database, which all gateways share. Both refill at the
sustained rate up to the burst allowance. Here they are run over exact time –
seconds for the gateway, the timestamps of the database for the other one – and
both keep the envelope of a token bucket (`admission_envelope`).

A transaction that is refused is rolled back by its caller, and with it the
refill; one that is allowed takes its token when it commits. The advisory lock is
held until then, so the transactions come one after another.
-/

open TokenBucket

/-- The burst allowance. -/
def CapacityPolicy.capacity (policy : CapacityPolicy) : ℚ :=
  ((policy.burstPerSecond * policy.burstSeconds : ℤ) : ℚ)

/-! ## The controller of a gateway -/

/-- `AdmissionController`. -/
structure AdmissionController where
  policy : CapacityPolicy := {}
  tokens : Option ℚ := none
  lastRefill : Option ℚ := none

namespace AdmissionController

/-- `_refill`: the tokens at `now`. The first call fills the bucket. -/
def refill (c : AdmissionController) (now : ℚ) : ℚ × AdmissionController :=
  let capacity := c.policy.capacity
  match c.tokens, c.lastRefill with
  | some tokens, some lastRefill =>
    let elapsed := max 0 (now - lastRefill)
    let tokens := min capacity (tokens + elapsed * c.policy.sustainedPerSecond)
    (tokens, { c with
      tokens := some tokens
      lastRefill := some now })
  | _, _ => (capacity, { c with
      tokens := some capacity
      lastRefill := some now })

/-- **`admit`**: raises `AdmissionDenied`, here by its reason, if there is no
token. -/
def admitCall (c : AdmissionController) (now : ℚ) : Except String Unit × AdmissionController :=
  let (tokens, c) := c.refill now
  if tokens < 1 then (.error "RATE_EXCEEDED", c)
  else (.ok (), { c with tokens := some (tokens - 1) })

/-- Calls of `admit`, by what they read from the clock. -/
def admits (c : AdmissionController) : List ℚ → List (Draw ℚ) × AdmissionController
  | [] => ([], c)
  | now :: later =>
    let (r, c) := c.admitCall now
    let (ds, c) := c.admits later
    (⟨now, now, r.isOk⟩ :: ds, c)

end AdmissionController

/-! ## The transactions of the database -/

/-- A timestamp in seconds. -/
def Timestamp.seconds (t : Timestamp) : ℚ := (t : ℚ) / 1000000

/-- A transaction that calls `platform.try_admit_execution`: what it reads from the
clock, what it finds in the other tables, and whether it commits if it is
allowed. -/
structure AdmissionAttempt where
  clock : Timestamp
  clock' : Timestamp
  db : ExecutionDb
  commits : Bool

/-- **The transaction of an attempt**: `submit` raises when it is not allowed, which
rolls the bucket back. -/
def AdmissionAttempt.run (policy : CapacityPolicy) (a : AdmissionAttempt)
    (bucket : AdmissionBucket) : Except PyException Admission × AdmissionBucket :=
  match tryAdmitExecution policy a.clock a.clock' { a.db with bucket := bucket } with
  | .ok (.ALLOWED, bucket') => (.ok .ALLOWED, if a.commits then bucket' else bucket)
  | .ok (admission, _) => (.ok admission, bucket)
  | .error e => (.error e, bucket)

/-- The answer of an attempt admits an execution. -/
def AdmissionAttempt.admitted (a : AdmissionAttempt) : Except PyException Admission → Bool
  | .ok .ALLOWED => a.commits
  | _ => false

/-- Attempts, one after another. -/
def attemptAdmissions (policy : CapacityPolicy) (bucket : AdmissionBucket) :
    List AdmissionAttempt → List (Draw ℚ) × AdmissionBucket
  | [] => ([], bucket)
  | a :: later =>
    let (r, bucket) := a.run policy bucket
    let (ds, bucket) := attemptAdmissions policy bucket later
    (⟨a.clock.seconds, a.clock'.seconds, a.admitted r⟩ :: ds, bucket)

/-- The clock does not run backwards from `last` on. -/
def ClockRuns (last : Timestamp) : List AdmissionAttempt → Prop
  | [] => True
  | a :: later => last ≤ a.clock ∧ a.clock ≤ a.clock' ∧ ClockRuns a.clock' later

/-! ## Both are token buckets -/

section Envelope

variable {policy : CapacityPolicy}

/-- The limits of a policy that the database accepts. -/
def CapacityPolicy.limits (policy : CapacityPolicy) (h : policy.Positive) : Limits ℚ where
  capacity := policy.capacity
  rate := policy.sustainedPerSecond
  capacity_nonneg := by
    obtain ⟨-, -, hburst, hseconds⟩ := h
    exact Int.cast_nonneg (mul_nonneg (by omega) (by omega))
  rate_nonneg := Int.cast_nonneg (by have := h.2.1; omega)

/-- The bucket a controller holds. -/
structure AdmissionController.Holds (c : AdmissionController) (policy : CapacityPolicy)
    (b : Bucket ℚ) : Prop where
  policy : c.policy = policy
  tokens : c.tokens = some b.tokens
  lastRefill : c.lastRefill = some b.lastRefill

/-- **A call of `admit` is a draw.** -/
theorem AdmissionController.Holds.admitCall {c : AdmissionController} {b : Bucket ℚ}
    (h : policy.Positive) (hc : c.Holds policy b) {now : ℚ} (hnow : b.lastRefill ≤ now) :
    ∃ b', Step (policy.limits h) b ⟨now, now, (c.admitCall now).1.isOk⟩ b'
      ∧ (c.admitCall now).2.Holds policy b' ∧ b'.lastRefill = now := by
  have hrate : (0 : ℚ) ≤ policy.sustainedPerSecond := (policy.limits h).rate_nonneg
  have hrefill : c.refill now = ((policy.limits h).refilled b now, { c with
      tokens := some ((policy.limits h).refilled b now)
      lastRefill := some now }) := by
    unfold AdmissionController.refill
    rw [hc.tokens, hc.lastRefill, hc.policy]
    simp only [Limits.refilled, CapacityPolicy.limits, max_mul_of_nonneg _ _ hrate, zero_mul]
  unfold AdmissionController.admitCall
  rw [hrefill]
  dsimp only
  split
  · exact ⟨⟨_, now⟩, .refused hnow le_rfl, ⟨hc.policy, rfl, rfl⟩, rfl⟩
  · rename_i htokens
    exact ⟨⟨_, now⟩, .admitted hnow le_rfl (not_lt.mp htokens), ⟨hc.policy, rfl, rfl⟩, rfl⟩

/-- **Calls of `admit` are a run.** -/
theorem AdmissionController.Holds.admits {c : AdmissionController} {b : Bucket ℚ}
    (h : policy.Positive) (hc : c.Holds policy b) {times : List ℚ}
    (hclock : times.Pairwise (· ≤ ·)) (hnow : ∀ now ∈ times, b.lastRefill ≤ now) :
    ∃ b', Run (policy.limits h) b (c.admits times).1 b' ∧ (c.admits times).2.Holds policy b' := by
  induction times generalizing c b with
  | nil => exact ⟨b, .nil, hc⟩
  | cons now later ih =>
    obtain ⟨hlater, hclock'⟩ := List.pairwise_cons.mp hclock
    obtain ⟨b₁, hstep, hc₁, hwritten⟩ := hc.admitCall h (hnow now List.mem_cons_self)
    obtain ⟨b', hrun, hc'⟩ := ih hc₁ hclock' (fun t ht => hwritten ▸ hlater t ht)
    exact ⟨b', .cons hstep hrun, hc'⟩

/-- The first call fills the bucket. -/
theorem AdmissionController.admits_new (policy : CapacityPolicy) (now : ℚ) (later : List ℚ) :
    ({ policy := policy } : AdmissionController).admits (now :: later)
      = ({ policy := policy
           tokens := some policy.capacity
           lastRefill := some now } : AdmissionController).admits (now :: later) := by
  have hadmit : ({ policy := policy } : AdmissionController).admitCall now
      = ({ policy := policy
           tokens := some policy.capacity
           lastRefill := some now } : AdmissionController).admitCall now := by
    have hrefill : min policy.capacity
        (policy.capacity + max 0 (now - now) * policy.sustainedPerSecond) = policy.capacity := by
      simp
    unfold AdmissionController.admitCall AdmissionController.refill
    dsimp only
    rw [hrefill]
  rw [AdmissionController.admits, AdmissionController.admits, hadmit]

/-- The bucket of the database, in seconds. -/
def AdmissionBucket.bucket (b : AdmissionBucket) : Bucket ℚ := ⟨b.tokens, b.lastRefillAt.seconds⟩

theorem Timestamp.seconds_le {t t' : Timestamp} (h : t ≤ t') : t.seconds ≤ t'.seconds :=
  div_le_div_of_nonneg_right (Int.cast_le.mpr h) (by norm_num)

/-- A refill in the database is that of the bucket. -/
theorem refillTokens_eq (h : policy.Positive) (clock : Timestamp) (b : AdmissionBucket) :
    refillTokens policy clock b = (policy.limits h).refilled b.bucket clock.seconds := by
  unfold refillTokens Limits.refilled CapacityPolicy.limits CapacityPolicy.capacity
    AdmissionBucket.bucket Timestamp.seconds
  simp only [Int.cast_sub, sub_div]

/-- **A transaction is a draw.** -/
theorem AdmissionAttempt.step (h : policy.Positive) (a : AdmissionAttempt) {b : AdmissionBucket}
    (hlast : b.lastRefillAt ≤ a.clock) (hclock : a.clock ≤ a.clock') :
    Step (policy.limits h) b.bucket
        ⟨a.clock.seconds, a.clock'.seconds, a.admitted (a.run policy b).1⟩
        (a.run policy b).2.bucket
      ∧ ((a.run policy b).2.lastRefillAt = a.clock' ∨ (a.run policy b).2 = b) := by
  have hread : b.bucket.lastRefill ≤ a.clock.seconds := Timestamp.seconds_le hlast
  have hwritten := Timestamp.seconds_le hclock
  have htokens : refillTokens policy a.clock { a.db with bucket := b }.bucket
      = (policy.limits h).refilled b.bucket a.clock.seconds := refillTokens_eq h a.clock b
  have hpositive : ¬ (policy.maxInFlight < 1 ∨ policy.sustainedPerSecond < 1
      ∨ policy.burstPerSecond < 1 ∨ policy.burstSeconds < 1) := by
    obtain ⟨h₁, h₂, h₃, h₄⟩ := h
    omega
  unfold AdmissionAttempt.run tryAdmitExecution
  rw [if_neg hpositive, htokens]
  dsimp only
  by_cases hfull : policy.maxInFlight
      ≤ ((a.db.executions.filter (fun e => e.status = .pending)).length : ℤ)
  · rw [if_pos hfull]
    exact ⟨.undone, .inr rfl⟩
  rw [if_neg hfull]
  by_cases hempty : (policy.limits h).refilled b.bucket a.clock.seconds < 1
  · rw [if_pos hempty]
    exact ⟨.undone, .inr rfl⟩
  rw [if_neg hempty]
  cases hcommits : a.commits with
  | true =>
    refine ⟨?_, .inl (by simp only [if_true])⟩
    simp only [AdmissionAttempt.admitted, hcommits, if_true]
    exact .admitted hread hwritten (not_lt.mp hempty)
  | false =>
    refine ⟨?_, .inr (by simp only [Bool.false_eq_true, if_false])⟩
    simp only [AdmissionAttempt.admitted, hcommits, Bool.false_eq_true, if_false]
    exact .undone

/-- **Transactions are a run.** -/
theorem run_attemptAdmissions (h : policy.Positive) {attempts : List AdmissionAttempt}
    {b : AdmissionBucket} {last : Timestamp} (hlast : b.lastRefillAt ≤ last)
    (hclock : ClockRuns last attempts) :
    Run (policy.limits h) b.bucket (attemptAdmissions policy b attempts).1
      (attemptAdmissions policy b attempts).2.bucket := by
  induction attempts generalizing b last with
  | nil => exact .nil
  | cons a later ih =>
    obtain ⟨hread, hwritten, hclock'⟩ := hclock
    obtain ⟨hstep, hnext⟩ := a.step h (hlast.trans hread) hwritten
    refine .cons hstep (ih ?_ hclock')
    rcases hnext with hnext | hnext
    · exact hnext.le
    · rw [hnext]
      exact (hlast.trans hread).trans hwritten

/-- **The envelope of a policy**: no interval sees more admissions than the burst
allowance and the sustained rate over its length. -/
def WithinEnvelope (policy : CapacityPolicy) (draws : List (Draw ℚ)) : Prop :=
  ∀ s t, s ≤ t → (draws.countP (Draw.within s t) : ℚ)
    ≤ policy.capacity + policy.sustainedPerSecond * (t - s)

/-- What the calls of a new controller leave: tokens within the burst allowance, and
admissions within the envelope. -/
theorem admits_envelope (h : policy.Positive) {times : List ℚ}
    (hclock : times.Pairwise (· ≤ ·)) :
    (∀ tokens ∈ (({ policy := policy } : AdmissionController).admits times).2.tokens,
        0 ≤ tokens ∧ tokens ≤ policy.capacity)
      ∧ WithinEnvelope policy (({ policy := policy } : AdmissionController).admits times).1 := by
  cases times with
  | nil =>
    refine ⟨nofun, fun s t hst => ?_⟩
    exact (Run.nil (L := policy.limits h) (b := ⟨0, 0⟩)).count_le hst
  | cons now later =>
    rw [AdmissionController.admits_new]
    have hc : AdmissionController.Holds { policy := policy
                                          tokens := some policy.capacity
                                          lastRefill := some now } policy
        ⟨policy.capacity, now⟩ := ⟨rfl, rfl, rfl⟩
    obtain ⟨b', hrun, hc'⟩ := hc.admits h hclock (fun t ht => by
      rcases List.mem_cons.mp ht with rfl | ht
      · exact le_rfl
      · exact (List.pairwise_cons.mp hclock).1 t ht)
    refine ⟨fun tokens htokens => ?_, fun s t hst => hrun.count_le hst⟩
    rw [hc'.tokens, Option.mem_some_iff] at htokens
    subst htokens
    have hle := hrun.tokens_le
    exact ⟨hrun.tokens_nonneg (policy.limits h).capacity_nonneg, hle.trans (max_self _).le⟩

end Envelope
