import AgentPlatform.ToolInvocation

/-!
# The retry contract of an execution

`_execute_with_contract` asks the backend for one execution after another,
until an answer is not to be tried again or no attempts are left. Against a
backend given by the sequence of its answers, the loop stops at one position
of the sequence: every answer before it was to be tried again, and it is the
first that is not, or the last that is allowed. The outcome is what the
contract makes of the answer there, and so is everything said of the outcome.

An answer leaves the effect of an attempt open when it is a timeout, an
exception, or a failure the backend calls transient. A write is to be reported
as failed only if no attempt left its effect open. The contract looks at the
last attempt only, and does not take every open answer for what it is.
-/

open ToolInvocationService

/-! ## Backends -/

namespace BackendAnswer

/-- The execution succeeded. -/
def isOk : BackendAnswer → Bool
  | .done r => r.ok
  | _ => false

/-- A failure the backend says is transient. -/
def isTransient : BackendAnswer → Bool
  | .done r => !r.ok && r.transient
  | _ => false

/-- A failure that is neither transient, nor a timeout, nor an exception. -/
def isDefinite : BackendAnswer → Bool
  | .done r => !r.ok && !r.transient
  | _ => false

/-- Whether the execution had an effect is open. -/
def isUncertain : BackendAnswer → Bool
  | .done r => !r.ok && r.transient
  | _ => true

theorem isUncertain_iff (a : BackendAnswer) :
    a.isUncertain = true ↔ a.isOk = false ∧ a.isDefinite = false := by
  cases a with
  | done r => cases hok : r.ok <;> simp [isUncertain, isOk, isDefinite, hok]
  | timeout => simp [isUncertain, isOk, isDefinite]
  | failed u => simp [isUncertain, isOk, isDefinite]

/-- A transient failure leaves it open. -/
theorem isUncertain_of_isTransient {a : BackendAnswer} (h : a.isTransient = true) :
    a.isUncertain = true := by
  cases a with
  | done r => exact h
  | timeout => rfl
  | failed u => rfl

end BackendAnswer

/-- A program against a backend: the executions get the answers of the sequence
`b` in turn, from the one at `n` on. The position it ends at is one more for
every execution. Nothing else is answered. -/
def againstBackend {α : Type} (b : ℕ → BackendAnswer) :
    ToolProg α → ℕ → Option (Except ToolException α × ℕ)
  | .ret a, n => some (.ok a, n)
  | .raise e, n => some (.error e, n)
  | .call (.execute _ _) k, n => againstBackend b (k (.ok (b n))) (n + 1)
  | .call _ _, _ => none

namespace RetryContract

variable (P : ToolPlatform) (definition : ToolDefinition) (params : Dict) (key : Option String)
  (b : ℕ → BackendAnswer)

/-- `max_attempts`, where `self._max_read_attempts` is at least one. -/
def maxAttempts : ℕ :=
  if canRetry definition key then (max 1 P.maxReadAttempts).toNat else 1

theorem maxAttempts_of_not_canRetry (h : canRetry definition key = false) :
    maxAttempts P definition key = 1 := by
  rw [maxAttempts, h]
  rfl

theorem triesAgain_eq (retry : Bool) (a : BackendAnswer) :
    triesAgain retry a = (a.isUncertain && retry) := by
  cases a with
  | done r => rfl
  | timeout => rfl
  | failed u => rfl

/-! ## Where the loop stops -/

/-- The loop stops at the position `m`: the answers before it are tried again,
and the one there is not, or is the last of `limit`. -/
structure StopsAt (retry : Bool) (limit m : ℕ) : Prop where
  lt : m < limit
  before : ∀ i < m, triesAgain retry (b i) = true
  last : m + 1 = limit ∨ triesAgain retry (b m) = false

variable {b}

theorem StopsAt.of_succ {retry : Bool} {left m : ℕ} (h0 : triesAgain retry (b 0) = true)
    (h : StopsAt (fun i => b (i + 1)) retry left m) : StopsAt b retry (left + 1) (m + 1) where
  lt := Nat.succ_lt_succ h.lt
  before i hi := by
    cases i with
    | zero => exact h0
    | succ i => exact h.before i (Nat.lt_of_succ_lt_succ hi)
  last := h.last.imp (congrArg (· + 1)) id

/-- The sequence decides where the loop stops. -/
theorem StopsAt.unique {retry : Bool} {limit m m' : ℕ} (h : StopsAt b retry limit m)
    (h' : StopsAt b retry limit m') : m = m' := by
  rcases Nat.lt_trichotomy m m' with hlt | heq | hgt
  · have hagain := h'.before m hlt
    have hend := h.last.resolve_right (by rw [hagain]; exact Bool.noConfusion)
    have hbound := h'.lt
    omega
  · exact heq
  · have hagain := h.before m' hgt
    have hend := h'.last.resolve_right (by rw [hagain]; exact Bool.noConfusion)
    have hbound := h.lt
    omega

/-- Without a retry the loop stops at once. -/
theorem StopsAt.eq_zero {retry : Bool} {limit m : ℕ} (h : StopsAt b retry limit m)
    (hretry : retry = false) : m = 0 := by
  by_contra hm
  have hagain := h.before 0 (Nat.pos_of_ne_zero hm)
  rw [triesAgain_eq, hretry, Bool.and_false] at hagain
  exact Bool.noConfusion hagain

/-- Every answer before the last one left the effect open. -/
theorem StopsAt.uncertain {retry : Bool} {limit m : ℕ} (h : StopsAt b retry limit m) {i : ℕ}
    (hi : i < m) : (b i).isUncertain = true := by
  have hagain := h.before i hi
  rw [triesAgain_eq, Bool.and_eq_true] at hagain
  exact hagain.1

/-- **Loop rule**: the loop stops somewhere, with the outcome of the answer
there and one execution for each attempt. The induction is on the attempts
left. -/
theorem attempt_spec (retry : Bool) (left attempts n : ℕ) :
    ∃ m, StopsAt (fun i => b (n + i)) retry (left + 1) m ∧
      againstBackend b (attempt definition params retry left attempts) n
        = some (.ok (outcomeOf definition retry (attempts + m + 1) (b (n + m))), n + m + 1) := by
  induction left generalizing attempts n with
  | zero =>
    refine ⟨0, ⟨Nat.one_pos, ?_, Or.inl rfl⟩, rfl⟩
    intro i hi
    exact absurd hi (Nat.not_lt_zero i)
  | succ left ih =>
    have hstep : againstBackend b (attempt definition params retry (left + 1) attempts) n
        = againstBackend b (if triesAgain retry (b n) then
            attempt definition params retry left (attempts + 1)
          else pure (outcomeOf definition retry (attempts + 1) (b n))) (n + 1) := rfl
    cases hagain : triesAgain retry (b n) with
    | true =>
      obtain ⟨m, hstops, hrun⟩ := ih (attempts + 1) (n + 1)
      refine ⟨m + 1, StopsAt.of_succ hagain ?_, ?_⟩
      · have hshift : (fun i => b (n + (i + 1))) = fun i => b (n + 1 + i) := by
          funext i
          rw [Nat.add_right_comm, Nat.add_assoc]
        show StopsAt (fun i => b (n + (i + 1))) retry (left + 1) m
        rw [hshift]
        exact hstops
      · rw [hstep, hagain, if_pos rfl, hrun]
        have hattempts : attempts + 1 + m + 1 = attempts + (m + 1) + 1 := by omega
        have hpos : n + 1 + m = n + (m + 1) := by omega
        rw [hattempts, hpos]
    | false =>
      refine ⟨0, ⟨Nat.succ_pos _, ?_, Or.inr hagain⟩, ?_⟩
      · intro i hi
        exact absurd hi (Nat.not_lt_zero i)
      · rw [hstep, hagain, if_neg Bool.false_ne_true]
        rfl

variable (b) in
/-- **What an execution under the contract comes to**: the loop stops at a
position of the sequence, and the outcome is that of the answer there. -/
theorem executeWithContract_spec :
    ∃ m, StopsAt b (canRetry definition key) (maxAttempts P definition key) m ∧
      againstBackend b (executeWithContract P definition params key) 0
        = some (.ok (outcomeOf definition (canRetry definition key) (m + 1) (b m)), m + 1) := by
  have hlimit : maxAttempts P definition key
      = (if canRetry definition key then (max 1 P.maxReadAttempts).toNat - 1 else 0) + 1 := by
    unfold maxAttempts
    split
    · omega
    · rfl
  obtain ⟨m, hstops, hrun⟩ := attempt_spec (b := b) definition params (canRetry definition key)
    (if canRetry definition key then (max 1 P.maxReadAttempts).toNat - 1 else 0) 0 0
  rw [← hlimit] at hstops
  simp only [Nat.zero_add] at hstops hrun
  exact ⟨m, hstops, hrun⟩

/-! ## The outcome -/

theorem outcomeOf_attempts (retry : Bool) (k : ℕ) (a : BackendAnswer) :
    (outcomeOf definition retry k a).2.2.2 = k := by
  cases a with
  | done r => simp only [outcomeOf]; split <;> [rfl; split <;> rfl]
  | timeout => simp only [outcomeOf, writeOutcome]; split <;> rfl
  | failed u => simp only [outcomeOf]; split <;> rfl

/-- Only a successful execution is reported as one. -/
theorem outcomeOf_succeeded (retry : Bool) (k : ℕ) (a : BackendAnswer) :
    (outcomeOf definition retry k a).1 = .SUCCEEDED ↔ a.isOk = true := by
  cases a with
  | done r =>
    cases hok : r.ok with
    | true => simp [outcomeOf, BackendAnswer.isOk, hok]
    | false => cases hend : r.transient && !retry <;>
        simp [outcomeOf, BackendAnswer.isOk, hok, hend]
  | timeout => simp only [outcomeOf, writeOutcome, BackendAnswer.isOk]; split <;> simp
  | failed u => simp only [outcomeOf, BackendAnswer.isOk]; split <;> simp

/-- And its result is the one of the execution. -/
theorem outcomeOf_result (retry : Bool) (k : ℕ) {r : ToolBackendResult} (hok : r.ok = true) :
    (outcomeOf definition retry k (.done r)).2.2.1 = r.result := by
  simp [outcomeOf, hok]

/-- **The retry contract**: what the outcome `o` and the number of executions
`n` have to do with each other and with the answers. -/
structure Kept (P : ToolPlatform) (definition : ToolDefinition) (key : Option String)
    (b : ℕ → BackendAnswer) (o : Outcome) (n : ℕ) : Prop where
  attempts : n = o.2.2.2
  pos : 1 ≤ n
  le : (n : ℤ) ≤ max 1 P.maxReadAttempts
  once : definition.sideEffect = .NON_IDEMPOTENT_WRITE ∨ definition.sideEffect = .HIGH_RISK
      ∨ definition.sideEffect = .IDEMPOTENT_WRITE
        ∧ (key = none ∨ definition.supportsIdempotency = false) → n = 1
  succeeded : o.1 = .SUCCEEDED ↔ (b (n - 1)).isOk = true
  result : ∀ r, b (n - 1) = .done r → r.ok = true → o.2.2.1 = r.result
  first : o.1 = .SUCCEEDED → ∀ i, i < n - 1 → (b i).isOk = false

/-- The side effects the contract never tries again. -/
theorem canRetry_eq_false (h : definition.sideEffect = .NON_IDEMPOTENT_WRITE
      ∨ definition.sideEffect = .HIGH_RISK ∨ definition.sideEffect = .IDEMPOTENT_WRITE
        ∧ (key = none ∨ definition.supportsIdempotency = false)) :
    canRetry definition key = false := by
  obtain hside | hside | ⟨hside, rfl | hsupport⟩ := h
  · simp [canRetry, hside]
  · simp [canRetry, hside]
  · simp [canRetry, hside]
  · simp [canRetry, hside, hsupport]

/-- **Every execution keeps the retry contract.** -/
theorem executeWithContract_kept :
    ∃ o n, againstBackend b (executeWithContract P definition params key) 0 = some (.ok o, n) ∧
      Kept P definition key b o n := by
  obtain ⟨m, hstops, hrun⟩ := executeWithContract_spec P definition params key b
  refine ⟨_, _, hrun, {
    attempts := (outcomeOf_attempts ..).symm
    pos := Nat.succ_pos m
    le := ?_
    once := ?_
    succeeded := outcomeOf_succeeded ..
    result := ?_
    first := ?_ }⟩
  · have hlt := hstops.lt
    unfold maxAttempts at hlt
    split at hlt <;> omega
  · intro hside
    rw [hstops.eq_zero (canRetry_eq_false definition key hside)]
  · intro r hr hok
    rw [Nat.add_sub_cancel] at hr
    rw [hr]
    exact outcomeOf_result _ _ _ hok
  · intro _ i hi
    exact ((BackendAnswer.isUncertain_iff _).mp (hstops.uncertain hi)).1

/-! ## What a failure says of a write -/

/-- **A failure that is reported means no effect**: it is reported only if
every attempt failed definitely, and an attempt that left its effect open is
reported as an unknown outcome, unless a later one succeeded. -/
structure FailsHonestly (b : ℕ → BackendAnswer) (o : Outcome) (n : ℕ) : Prop where
  failed : o.1 = .FAILED → ∀ i, i < n → (b i).isDefinite = true
  uncertain : (∃ i, i < n ∧ (b i).isUncertain = true ∧
    ∀ j, i < j → j < n → (b j).isOk = false) → o.1 = .OUTCOME_UNKNOWN

/-- The answer the loop stops at makes the contract report a failure although
an attempt left its effect open: a definite failure after attempts that were
uncertain, or, at the last attempt allowed, an exception that does not count as
uncertain or a transient failure of a call that may be tried again. -/
def Misreported (retry : Bool) (limit : ℕ) (b : ℕ → BackendAnswer) (m : ℕ) : Prop :=
  (0 < m ∧ (b m).isDefinite = true) ∨
    (m + 1 = limit ∧ (b m = .failed false ∨ (retry = true ∧ (b m).isTransient = true)))

/-- The answers hide an open effect behind a failure: somewhere below the
limit, after uncertain answers only, one is misreported. -/
def HidesEffect (retry : Bool) (limit : ℕ) (b : ℕ → BackendAnswer) : Prop :=
  ∃ m, m < limit ∧ (∀ i, i < m → (b i).isUncertain = true) ∧ Misreported retry limit b m

variable {definition}

/-- The status of a write whose execution did not succeed. -/
theorem outcomeOf_failed (hwrite : definition.sideEffect ≠ .READ_ONLY) (retry : Bool) (k : ℕ)
    (a : BackendAnswer) : (outcomeOf definition retry k a).1 = .FAILED ↔
      a.isDefinite = true ∨ a = .failed false ∨ (retry = true ∧ a.isTransient = true) := by
  cases a with
  | done r =>
    cases hok : r.ok <;> cases ht : r.transient <;> cases retry <;>
      simp [outcomeOf, BackendAnswer.isDefinite, BackendAnswer.isTransient, hok, ht]
  | timeout =>
    simp [outcomeOf, writeOutcome, hwrite, BackendAnswer.isDefinite, BackendAnswer.isTransient]
  | failed u =>
    cases u <;> simp [outcomeOf, hwrite, BackendAnswer.isDefinite, BackendAnswer.isTransient]

/-- An executed call has succeeded, has failed, or has an unknown outcome. -/
theorem outcomeOf_status (retry : Bool) (k : ℕ) (a : BackendAnswer) :
    (outcomeOf definition retry k a).1 = .SUCCEEDED ∨ (outcomeOf definition retry k a).1 = .FAILED
      ∨ (outcomeOf definition retry k a).1 = .OUTCOME_UNKNOWN := by
  cases a with
  | done r => simp only [outcomeOf]; split <;> [simp; split <;> simp]
  | timeout => simp only [outcomeOf, writeOutcome]; split <;> simp
  | failed u => simp only [outcomeOf]; split <;> simp

/-- Where the loop stops decides whether the outcome is honest. -/
theorem failsHonestly_iff (hwrite : definition.sideEffect ≠ .READ_ONLY) {retry : Bool}
    {limit m : ℕ} (hlimit : retry = false → limit = 1) (h : StopsAt b retry limit m) :
    FailsHonestly b (outcomeOf definition retry (m + 1) (b m)) (m + 1)
      ↔ ¬ Misreported retry limit b m := by
  constructor
  · rintro hhonest hmis
    -- In each case the outcome is a failure, and one of the attempts was not definite.
    have hfailed : (outcomeOf definition retry (m + 1) (b m)).1 = .FAILED := by
      rw [outcomeOf_failed hwrite]
      exact hmis.imp (fun hd => hd.2) (fun ht => ht.2)
    obtain ⟨hpos, -⟩ | ⟨-, hexc | ⟨-, htransient⟩⟩ := hmis
    · have hopen := h.uncertain hpos
      have hdefinite := hhonest.failed hfailed 0 (Nat.succ_pos m)
      rw [((BackendAnswer.isUncertain_iff _).mp hopen).2] at hdefinite
      exact Bool.noConfusion hdefinite
    · have hdefinite := hhonest.failed hfailed m (Nat.lt_succ_self m)
      rw [hexc] at hdefinite
      exact Bool.noConfusion hdefinite
    · have hopen := BackendAnswer.isUncertain_of_isTransient htransient
      have hdefinite := hhonest.failed hfailed m (Nat.lt_succ_self m)
      rw [((BackendAnswer.isUncertain_iff _).mp hopen).2] at hdefinite
      exact Bool.noConfusion hdefinite
  · intro hmis
    -- An answer that is misread without being the last allowed one would be tried again.
    have hstatus : (outcomeOf definition retry (m + 1) (b m)).1 = .FAILED →
        m = 0 ∧ (b m).isDefinite = true := by
      rw [outcomeOf_failed hwrite]
      intro hread
      by_cases hdefinite : (b m).isDefinite = true
      · refine ⟨Nat.eq_zero_of_not_pos (fun hpos => hmis (Or.inl ⟨hpos, hdefinite⟩)), hdefinite⟩
      · refine absurd (hread.resolve_left hdefinite) (fun hwrong => ?_)
        have hnotLast : m + 1 ≠ limit := fun hlast => hmis (Or.inr ⟨hlast, hwrong⟩)
        have hend := h.last.resolve_left hnotLast
        cases retry with
        | false => exact hnotLast (by rw [h.eq_zero rfl, hlimit rfl])
        | true =>
          rw [triesAgain_eq, Bool.and_true] at hend
          obtain hexc | ⟨-, htransient⟩ := hwrong
          · rw [hexc] at hend
            exact Bool.noConfusion hend
          · rw [BackendAnswer.isUncertain_of_isTransient htransient] at hend
            exact Bool.noConfusion hend
    refine ⟨?_, ?_⟩
    · intro hfailed i hi
      obtain ⟨rfl, hdefinite⟩ := hstatus hfailed
      rw [Nat.lt_one_iff.mp hi]
      exact hdefinite
    · rintro ⟨i, hi, hopen, hlater⟩
      have hok : (b m).isOk = false := by
        rcases Nat.lt_or_ge i m with hlt | hge
        · exact hlater m hlt (Nat.lt_succ_self m)
        · rw [Nat.le_antisymm hge (Nat.le_of_lt_succ hi)]
          exact ((BackendAnswer.isUncertain_iff _).mp hopen).1
      have hnotSucceeded : (outcomeOf definition retry (m + 1) (b m)).1 ≠ .SUCCEEDED := by
        rw [Ne, outcomeOf_succeeded, hok]
        exact Bool.false_ne_true
      refine ((outcomeOf_status ..).resolve_left hnotSucceeded).resolve_left (fun hfailed => ?_)
      obtain ⟨rfl, hdefinite⟩ := hstatus hfailed
      rw [Nat.lt_one_iff.mp hi] at hopen
      rw [((BackendAnswer.isUncertain_iff _).mp hopen).2] at hdefinite
      exact Bool.noConfusion hdefinite

variable (definition b)

/-- **A write reports its failures honestly exactly when no answer hides its
effect.** -/
theorem failsHonestly_iff_not_hidesEffect (hwrite : definition.sideEffect ≠ .READ_ONLY) :
    (∃ o n, againstBackend b (executeWithContract P definition params key) 0 = some (.ok o, n) ∧
      FailsHonestly b o n)
      ↔ ¬ HidesEffect (canRetry definition key) (maxAttempts P definition key) b := by
  obtain ⟨m, hstops, hrun⟩ := executeWithContract_spec P definition params key b
  have hlimit := maxAttempts_of_not_canRetry P definition key
  have hiff := failsHonestly_iff hwrite hlimit hstops
  have hhides : HidesEffect (canRetry definition key) (maxAttempts P definition key) b
      ↔ Misreported (canRetry definition key) (maxAttempts P definition key) b m := by
    refine ⟨?_, fun hmis => ⟨m, hstops.lt, fun i hi => hstops.uncertain hi, hmis⟩⟩
    rintro ⟨m', hlt, hopen, hmis⟩
    -- A position that is misread is one the loop stops at.
    suffices hstops' : StopsAt b (canRetry definition key) (maxAttempts P definition key) m' by
      rw [hstops.unique hstops']
      exact hmis
    refine ⟨hlt, fun i hi => ?_, ?_⟩
    · rw [triesAgain_eq, hopen i hi]
      cases hretry : canRetry definition key with
      | true => rfl
      | false =>
        rw [hlimit hretry] at hlt
        omega
    · refine hmis.symm.imp (fun hlast => hlast.1) (fun hdefinite => ?_)
      have hnot : (b m').isUncertain = false := by
        cases hu : (b m').isUncertain with
        | false => rfl
        | true =>
          have hd := ((BackendAnswer.isUncertain_iff _).mp hu).2
          rw [hdefinite.2] at hd
          exact Bool.noConfusion hd
      rw [triesAgain_eq, hnot, Bool.false_and]
  rw [hhides, ← hiff]
  constructor
  · rintro ⟨o, n, hrun', hhonest⟩
    rw [hrun] at hrun'
    obtain ⟨⟨⟩, rfl⟩ := Option.some.inj hrun'
    exact hhonest
  · exact fun hhonest => ⟨_, _, hrun, hhonest⟩

/-! ## A write that times out and is refused -/

/-- The tool `book_order`, whose backend takes idempotency keys. -/
def bookOrder : ToolDefinition where
  tenantId := 1
  name := "book_order"
  version := 1
  description := "Book an order"
  sideEffect := .IDEMPOTENT_WRITE
  inputSchema := [("type", .str "object")]
  outputSchema := [("type", .str "object")]
  dataClassification := .INTERNAL
  supportsIdempotency := true

/-- A tool plane that has this tool. -/
def orderPlatform : ToolPlatform where
  kind := .database
  sha256 := id
  catalogue := fun _ _ _ => bookOrder

/-- The first execution times out, and the later ones are refused. -/
def timeoutThenRefused : ℕ → BackendAnswer
  | 0 => .timeout
  | _ + 1 => .done { ok := false, result := none, errorCode := some "ORDER_REFUSED" }

/-- **The timeout is forgotten**: the write is reported as failed, although its
first attempt may have had its effect. -/
theorem timeout_then_refused :
    againstBackend timeoutThenRefused
        (executeWithContract orderPlatform bookOrder [] (some "k")) 0
      = some (.ok (.FAILED, some "ORDER_REFUSED", none, 2), 2) ∧
    ¬ ∃ o n, againstBackend timeoutThenRefused
        (executeWithContract orderPlatform bookOrder [] (some "k")) 0 = some (.ok o, n) ∧
      FailsHonestly timeoutThenRefused o n := by
  have hrun : againstBackend timeoutThenRefused
      (executeWithContract orderPlatform bookOrder [] (some "k")) 0
      = some (.ok (.FAILED, some "ORDER_REFUSED", none, 2), 2) := rfl
  refine ⟨hrun, ?_⟩
  rintro ⟨o, n, hrun', hhonest⟩
  rw [hrun] at hrun'
  obtain ⟨⟨⟩, rfl⟩ := Option.some.inj hrun'
  exact Bool.noConfusion (hhonest.failed rfl 0 Nat.two_pos)

/-- The condition speaks of the position of the refusal. -/
theorem timeout_then_refused_hides :
    bookOrder.sideEffect ≠ .READ_ONLY ∧
      ((∃ o n, againstBackend timeoutThenRefused
          (executeWithContract orderPlatform bookOrder [] (some "k")) 0 = some (.ok o, n) ∧
        FailsHonestly timeoutThenRefused o n)
        ↔ ¬ HidesEffect (canRetry bookOrder (some "k"))
          (maxAttempts orderPlatform bookOrder (some "k")) timeoutThenRefused) :=
  ⟨by decide, failsHonestly_iff_not_hidesEffect orderPlatform bookOrder [] (some "k")
    timeoutThenRefused (by decide)⟩

end RetryContract
