import AgentPlatform.LLMGateway
import AgentPlatform.Typestate

/-!
# The circuit breaker among concurrent calls

A gateway process keeps two dictionaries for the circuits of its profiles: how
often calls have failed, and when a circuit was opened. Calls look at them before
they resolve a secret or call a provider, and write to them afterwards; in
between they wait, and other calls look and write. A call that started before a
circuit was opened may fail or succeed long after.

The log keeps what the dictionaries forget. `recentFailures` reads off it the
failures of a profile since its last success or reset, and the dictionaries are
at every moment a summary of these (`Summarizes`): their number, and the time of
the latest one that reached the threshold. That is the invariant over any
interleaving. That a call has looked before it calls is a matter of its program
alone, and is proved of it as a protocol (`CandidatePhase`).
-/

/-- What has happened to the circuits of a process. -/
inductive BreakerEvent where
  /-- `_record_failure`. -/
  | failed (key : ProfileKey) (now : ℚ)
  /-- `_record_success`. -/
  | succeeded (key : ProfileKey)
  /-- `_circuit_open` has looked, for a call, and said whether the circuit is open. -/
  | checked (pid : ℕ) (key : ProfileKey) (now : ℚ) (isOpen : Bool)
  /-- It has closed a circuit whose time was over. -/
  | reset (key : ProfileKey)
  /-- A call has resolved the secret of a profile, or called its provider. -/
  | called (pid : ℕ) (key : ProfileKey)
  deriving DecidableEq

/-- The key of a profile. -/
def ModelProfile.circuitKey (profile : ModelProfile) : ProfileKey :=
  (profile.tenantId, profile.modelAlias)

/-- **The failures of a key** since its last success or reset, by their times. -/
def recentFailures (key : ProfileKey) (log : List BreakerEvent) : List ℚ :=
  log.foldl (fun times e => match e with
    | .failed k now => if k = key then times ++ [now] else times
    | .succeeded k | .reset k => if k = key then [] else times
    | _ => times) []

/-- The time of the latest failure that reached the threshold. -/
def LLMGateway.latestReaching (g : LLMGateway) (times : List ℚ) : Option ℚ :=
  (times.drop (g.circuitFailureThreshold.toNat - 1)).getLast?

/-- **A call may start**, after `log`, at the time `now`: fewer failures than the
threshold, or the latest one that reached it is long enough ago. Without any
failure the second only concerns a threshold that is not positive. -/
def LLMGateway.mayStart (g : LLMGateway) (log : List BreakerEvent) (key : ProfileKey) (now : ℚ) :
    Prop :=
  ((recentFailures key log).length : ℤ) < g.circuitFailureThreshold
    ∨ match g.latestReaching (recentFailures key log) with
      | some opened => g.circuitResetSeconds ≤ now - opened
      | none => g.circuitFailureThreshold ≤ 0

/-- **The call running as `pid` has passed the circuit of a key**: when it last
looked, it was for this key, and it might start. -/
def LLMGateway.passed (g : LLMGateway) (log : List BreakerEvent) (pid : ℕ) (key : ProfileKey) :
    Prop :=
  ∃ before now after, log = before ++ BreakerEvent.checked pid key now false :: after
    ∧ g.mayStart before key now
    ∧ ∀ key' now' isOpen, BreakerEvent.checked pid key' now' isOpen ∉ after

/-! ## The system -/

/-- **The state of a process**: what its calls share, the profile each of them has
last asked the policy for, and the log. -/
structure BreakerState where
  llm : LlmState
  trying : ℕ → Option ModelProfile
  log : List BreakerEvent

/-- The time an answer carries. -/
def LlmAnswer.time : LlmAnswer → ℚ
  | .clock now => now
  | _ => 0

namespace BreakerState

/-- What a request adds to the log. -/
def events (g : LLMGateway) (s : BreakerState) (pid : ℕ) (a : LlmAnswer) :
    LlmOp → List BreakerEvent
  | .circuitOpen key =>
    let isOpen := (s.llm.memory.circuitOpen g key a.time).1
    .checked pid key a.time isOpen ::
      if !isOpen && (s.llm.memory.openedAt key).isSome then [.reset key] else []
  | .recordFailure key => [.failed key a.time]
  | .recordSuccess key => [.succeeded key]
  | .resolveSecret .. => ((s.trying pid).map (fun p => .called pid p.circuitKey)).toList
  | .post profile .. => [.called pid profile.circuitKey]
  | _ => []

/-- The profile a call is trying, after a request. -/
def tries (s : BreakerState) (pid : ℕ) : LlmOp → ℕ → Option ModelProfile
  | .allows _ profile _ => Function.update s.trying pid (some profile)
  | _ => s.trying

/-- The state after a request. -/
def after (g : LLMGateway) (s : BreakerState) (pid : ℕ) (a : LlmAnswer) (op : LlmOp)
    (llm : LlmState) : BreakerState :=
  ⟨llm, s.tries pid op, s.log ++ s.events g pid a op⟩

end BreakerState

/-- **Any number of calls of `complete` at once.** A call that is cancelled leaves
everything as it is. -/
def gatewayCalls (g : LLMGateway) :
    Pool LlmOp LlmRes PyException LlmAnswer BreakerState GatewayRequest GatewayResult Empty where
  handler pid a op s :=
    (serveLlm g a op s.llm).map (fun x => (x.1, s.after g pid a op x.2))
  body := complete g
  abandon _ s := s
  env e _ := nomatch e

/-- A process that has just started. -/
def breakerStart (s : BreakerState) : Prop :=
  s = ⟨⟨LlmMemory.empty, []⟩, fun _ => none, []⟩

/-! ## The dictionaries sum up the log -/

section Summary

variable {g : LLMGateway} {log : List BreakerEvent} {m : LlmMemory} {key : ProfileKey} {now : ℚ}

/-- **The dictionaries are a summary of the recent failures.** -/
def Summarizes (g : LLMGateway) (m : LlmMemory) (log : List BreakerEvent) : Prop :=
  ∀ key, m.failures key = (recentFailures key log).length
    ∧ m.openedAt key = g.latestReaching (recentFailures key log)

theorem recentFailures_append (es : List BreakerEvent) :
    recentFailures key (log ++ es) = es.foldl (fun times e => match e with
      | .failed k now => if k = key then times ++ [now] else times
      | .succeeded k | .reset k => if k = key then [] else times
      | _ => times) (recentFailures key log) :=
  List.foldl_append

theorem recentFailures_failed (k : ProfileKey) :
    recentFailures key (log ++ [.failed k now])
      = if k = key then recentFailures key log ++ [now] else recentFailures key log :=
  recentFailures_append _

theorem recentFailures_succeeded (k : ProfileKey) :
    recentFailures key (log ++ [.succeeded k]) = if k = key then [] else recentFailures key log :=
  recentFailures_append _

/-- One more failure reaches the threshold, or none has. -/
theorem latestReaching_snoc (times : List ℚ) :
    g.latestReaching (times ++ [now])
      = if g.circuitFailureThreshold ≤ times.length + 1 then some now
        else g.latestReaching times := by
  unfold LLMGateway.latestReaching
  split
  · rw [List.drop_append_of_le_length (by omega), List.getLast?_append]
    rfl
  · rw [List.drop_eq_nil_of_le (by simp; omega), List.drop_eq_nil_of_le (by omega)]

theorem latestReaching_nil : g.latestReaching [] = none := by
  unfold LLMGateway.latestReaching
  rw [List.drop_nil]
  rfl

/-- **A closed circuit** is one that a call may pass. -/
theorem Summarizes.mayStart (h : Summarizes g m log)
    (hclosed : (m.circuitOpen g key now).1 = false) : g.mayStart log key now := by
  obtain ⟨-, hopened⟩ := h key
  unfold LlmMemory.circuitOpen at hclosed
  unfold LLMGateway.mayStart
  rw [hopened] at hclosed
  cases hlatest : g.latestReaching (recentFailures key log) with
  | none =>
    have hfew : (recentFailures key log).length ≤ g.circuitFailureThreshold.toNat - 1 :=
      List.drop_eq_nil_iff.mp (List.getLast?_eq_none_iff.mp hlatest)
    dsimp only
    omega
  | some opened =>
    rw [hlatest] at hclosed
    dsimp only at hclosed ⊢
    split at hclosed
    · cases hclosed
    · rename_i hover
      exact .inr (not_lt.mp hover)

theorem Summarizes.circuitOpen (h : Summarizes g m log) (pid : ℕ) :
    Summarizes g (m.circuitOpen g key now).2 (log ++
      (.checked pid key now (m.circuitOpen g key now).1 ::
        if !(m.circuitOpen g key now).1 && (m.openedAt key).isSome then [.reset key] else [])) := by
  intro k
  rw [recentFailures_append, List.foldl_cons]
  unfold LlmMemory.circuitOpen
  cases hopened : m.openedAt key with
  | none => exact h k
  | some opened =>
    dsimp only
    split
    · exact h k
    · show Function.update _ _ _ k = _ ∧ Function.update _ _ _ k = _
      simp only [Bool.not_false, Option.isSome_some, Bool.and_true, if_true, List.foldl_cons,
        List.foldl_nil, Function.update_apply]
      by_cases hk : key = k
      · simp [hk, latestReaching_nil]
      · rw [if_neg (Ne.symm hk), if_neg (Ne.symm hk), if_neg hk]
        exact h k

theorem Summarizes.recordFailure (h : Summarizes g m log) :
    Summarizes g (m.recordFailure g key now) (log ++ [.failed key now]) := by
  intro k
  rw [recentFailures_failed]
  unfold LlmMemory.recordFailure
  dsimp only
  by_cases hk : key = k
  · subst hk
    obtain ⟨hfailures, hopened⟩ := h key
    rw [if_pos rfl, latestReaching_snoc, hfailures, List.length_append]
    refine ⟨by simp, ?_⟩
    split
    · exact Function.update_self ..
    · exact hopened
  · rw [if_neg hk, Function.update_of_ne (Ne.symm hk)]
    refine ⟨(h k).1, ?_⟩
    split
    · rw [Function.update_of_ne (Ne.symm hk)]
      exact (h k).2
    · exact (h k).2

theorem Summarizes.recordSuccess (h : Summarizes g m log) :
    Summarizes g (m.recordSuccess key) (log ++ [.succeeded key]) := by
  intro k
  rw [recentFailures_succeeded]
  unfold LlmMemory.recordSuccess
  dsimp only
  by_cases hk : key = k
  · subst hk
    rw [if_pos rfl, Function.update_self, Function.update_self, latestReaching_nil]
    exact ⟨rfl, rfl⟩
  · rw [if_neg hk, Function.update_of_ne (Ne.symm hk), Function.update_of_ne (Ne.symm hk)]
    exact h k

end Summary

/-! ## The protocol of a call -/

/-- **Where a call is with its candidates.** -/
inductive CandidatePhase where
  | idle
  /-- The policy has been asked for a profile. -/
  | trying (profile : ModelProfile)
  /-- Its circuit was closed. -/
  | passed (profile : ModelProfile)

namespace CandidatePhase

/-- What a call may ask for. -/
def permits : CandidatePhase → LlmOp → Prop
  | .trying profile, .circuitOpen key => key = profile.circuitKey
  | .passed profile, .resolveSecret tenantId secretRef =>
    tenantId = profile.tenantId ∧ secretRef = profile.secretRef
  | .passed profile, .post called .. => called = profile
  | _, .circuitOpen _ | _, .resolveSecret .. | _, .post .. => False
  | _, _ => True

/-- Where a request leads. -/
def next : CandidatePhase → (op : LlmOp) → Except PyException (LlmRes op) → CandidatePhase
  | _, .allows _ profile _, _ => .trying profile
  | .trying profile, .circuitOpen _, .ok false => .passed profile
  | _, .circuitOpen _, _ => .idle
  | g, _, _ => g

end CandidatePhase

/-- A request that has nothing to do with circuits. -/
def LlmOp.isAside : LlmOp → Bool
  | .allows .. | .circuitOpen _ | .resolveSecret .. | .post .. => false
  | _ => true

section Follows

open CandidatePhase

variable {α β : Type} {P : CandidatePhase} {g : LLMGateway} {c : CallContext}

/-- **A program keeps to the protocol** from a phase on. -/
abbrev KeepsPhase (P : CandidatePhase) (p : LlmProg α) : Prop :=
  Prog.Follows permits next P p (fun _ _ => True)

theorem KeepsPhase.bind {p : LlmProg α} {f : α → LlmProg β} (hp : KeepsPhase P p)
    (hf : ∀ a P', KeepsPhase P' (f a)) : KeepsPhase P (p.bind f) :=
  Prog.Follows.bind hp (fun a P' _ => hf a P') (fun _ _ _ => trivial)

theorem KeepsPhase.capture {X : Type} {f : PyException → Option X} {p : LlmProg α} (hp : KeepsPhase P p) :
    KeepsPhase P (p.capture f) :=
  Prog.Follows.capture hp (fun _ _ _ => trivial) (fun _ _ _ _ _ => trivial)
    (fun _ _ _ _ => trivial)

theorem permits_aside {op : LlmOp} (hop : op.isAside = true) : permits P op := by
  cases op <;> cases P <;> trivial

theorem next_aside {op : LlmOp} (hop : op.isAside = true) (r : Except PyException (LlmRes op)) :
    next P op r = P := by
  cases op <;> cases P <;> first | rfl | cases hop

/-- A request that has nothing to do with circuits leaves the phase alone. -/
theorem follows_aside {op : LlmOp} (hop : op.isAside = true) :
    Prog.Follows permits next P (LlmOp.ask op) (fun _ P' => P' = P) :=
  Prog.follows_perform (permits_aside hop) (fun r => next_aside hop r)

theorem keeps_aside {op : LlmOp} (hop : op.isAside = true) : KeepsPhase P (LlmOp.ask op) :=
  (follows_aside hop).mono (fun _ _ _ => trivial)

theorem keeps_recordEvent (modelAlias : String) (fallbackUsed : Bool) (outcome : String)
    (errorCode responseContentHash : Option String) (completion : Option (List (String × Json))) :
    KeepsPhase P (recordEvent c modelAlias fallbackUsed outcome errorCode responseContentHash
      completion) :=
  (keeps_aside rfl).bind (fun _ _ => keeps_aside rfl)

theorem keeps_candidateLoop (request : GatewayRequest) (fuel : ℕ) (aliases seen : List String)
    (profiles : List ModelProfile) :
    KeepsPhase P (candidateLoop request fuel aliases seen profiles) := by
  induction fuel generalizing aliases seen profiles P with
  | zero => trivial
  | succ fuel ih =>
    unfold candidateLoop
    cases aliases.dropWhile (fun a => a ∈ seen) with
    | nil => trivial
    | cons modelAlias rest =>
      have hlookup : KeepsPhase P (candidateProfile request modelAlias) := by
        unfold candidateProfile
        split
        · trivial
        · split
          · exact keeps_aside rfl
          · trivial
      refine hlookup.bind (fun found P' => ?_)
      cases found with
      | none => exact ih _ _ _
      | some profile =>
        dsimp only
        split
        · exact ih _ _ _
        · exact ih _ _ _

theorem keeps_candidateFailed (profile : ModelProfile) (code : String) (t : Attempts) :
    KeepsPhase P (candidateFailed c profile code t) :=
  (keeps_aside rfl).bind (fun _ _ => (keeps_recordEvent _ _ _ _ _ _).bind (fun _ _ => trivial))

theorem keeps_candidateServed (profile : ModelProfile) (completion : List (String × Json)) :
    KeepsPhase P (candidateServed g c profile completion) := by
  refine (keeps_aside rfl).bind (fun _ _ => ?_)
  dsimp only
  split
  · exact (keeps_aside rfl).bind
      (fun _ _ => (keeps_recordEvent _ _ _ _ _ _).bind (fun _ _ => trivial))
  · exact (keeps_aside rfl).bind
      (fun _ _ => (keeps_recordEvent _ _ _ _ _ _).bind (fun _ _ => trivial))

theorem keeps_readCompletion (response : HttpResponse) : KeepsPhase P (readCompletion response) := by
  unfold readCompletion
  split
  · trivial
  · split <;> trivial

/-- **One candidate**: the policy is asked for it, then its circuit looked at, and
only behind a closed circuit come the secret and the provider. -/
theorem keeps_tryCandidate (profile : ModelProfile) (t : Attempts) :
    KeepsPhase P (tryCandidate g c profile t) := by
  have hallows : Prog.Follows permits next P (allows c profile)
      (fun r P' => r = .ok true → P' = .trying profile) := by
    unfold allows
    split
    · exact Prog.follows_perform (by cases P <;> trivial) (fun r _ => by cases P <;> rfl)
    · intro h
      cases h
  refine hallows.bind (fun allowed P' hallowed => ?_) (fun _ _ _ => trivial)
  cases allowed with
  | false => trivial
  | true =>
    obtain rfl := hallowed rfl
    have hcheck : Prog.Follows permits next (.trying profile)
        (LlmOp.ask (.circuitOpen (profile.tenantId, profile.modelAlias)))
        (fun r P' => r = .ok false → P' = .passed profile) := by
      refine Prog.follows_perform rfl (fun r hr => ?_)
      rw [hr]
      rfl
    refine hcheck.bind (fun isOpen P' hclosed => ?_) (fun _ _ _ => trivial)
    cases isOpen with
    | true => trivial
    | false =>
      obtain rfl := hclosed rfl
      refine (follows_aside rfl).bind (fun within P' hP' => ?_) (fun _ _ _ => trivial)
      obtain rfl := hP'
      cases within with
      | false => trivial
      | true =>
        have hsecret : Prog.Follows permits next (.passed profile)
            ((LlmOp.ask (.resolveSecret profile.tenantId profile.secretRef)).capture
              PyException.caughtByException) (fun _ P' => P' = .passed profile) :=
          Prog.Follows.capture (Q := fun _ P' => P' = .passed profile)
            (Prog.follows_perform ⟨rfl, rfl⟩ (fun _ => rfl)) (fun _ _ h => h) (fun _ _ _ h _ => h)
            (fun _ _ h _ => h)
        refine hsecret.bind (fun credential P' hP' => ?_) (fun _ _ _ => trivial)
        obtain rfl := hP'
        cases credential with
        | error _ => exact (keeps_candidateFailed _ _ _).bind (fun _ _ => trivial)
        | ok credential =>
          have hprovider : KeepsPhase (.passed profile)
              (providerCompletion profile c.request.messages credential) :=
            KeepsPhase.bind (Prog.follows_perform rfl (fun _ => trivial))
              (fun response _ => keeps_readCompletion response)
          refine hprovider.capture.bind (fun completion P' => ?_)
          cases completion with
          | error _ => exact (keeps_candidateFailed _ _ _).bind (fun _ _ => trivial)
          | ok completion => exact (keeps_candidateServed _ _).bind (fun _ _ => trivial)

theorem keeps_tryCandidates (profiles : List ModelProfile) (t : Attempts) :
    KeepsPhase P (tryCandidates g c profiles t) := by
  induction profiles generalizing t P with
  | nil =>
    unfold tryCandidates exhausted
    cases t.failureRecorded with
    | true => trivial
    | false => exact (keeps_recordEvent _ _ _ _ _ _).bind (fun _ _ => trivial)
  | cons profile rest ih =>
    refine (keeps_tryCandidate profile t).bind (fun out _ => ?_)
    cases out with
    | inl t' => exact ih t'
    | inr result => trivial

theorem keeps_completeReserved (bundle : Option BudgetReservationBundle) :
    KeepsPhase P (completeReserved g c bundle) := by
  have hcall : KeepsPhase P (completeWithGuard g c) :=
    (keeps_candidateLoop _ _ _ _ _).bind (fun profiles _ => keeps_tryCandidates profiles _)
  refine hcall.capture.bind (fun out _ => ?_)
  cases out with
  | ok result =>
    cases bundle with
    | none => trivial
    | some bundle => exact (keeps_aside rfl).bind (fun _ _ => trivial)
  | error code =>
    have hrelease : ∀ P, KeepsPhase P (releaseReservation bundle code) := by
      intro P
      cases bundle with
      | none => trivial
      | some bundle =>
        refine (keeps_aside rfl).capture.bind (fun out _ => ?_)
        cases out <;> trivial
    refine (hrelease _).bind (fun _ _ => KeepsPhase.bind ?_ (fun _ _ => trivial))
    unfold recordRestricted
    split
    · exact keeps_aside rfl
    · trivial

/-- **A call keeps to the protocol.** -/
theorem keeps_complete (request : GatewayRequest) : KeepsPhase P (complete g request) := by
  refine (keeps_aside rfl).bind (fun startedAt _ => ?_)
  dsimp only
  split
  · unfold secretDetected
    split
    · refine (keeps_aside rfl).capture.bind (fun out _ => ?_)
      cases out <;> trivial
    · trivial
  · split
    · exact (keeps_aside rfl).bind (fun bundle _ => keeps_completeReserved _)
    · exact keeps_completeReserved _

end Follows

/-! ## One request among others -/

section Steps

variable {g : LLMGateway} {s : BreakerState} {pid : ℕ} {a : LlmAnswer} {op : LlmOp}
  {r : Except PyException (LlmRes op)} {llm : LlmState}

/-- A rate limit has nothing to do with circuits. -/
theorem withinRateLimit_circuits (m : LlmMemory) (key : ProfileKey) (limit : ℤ) (now : ℚ) :
    (m.withinRateLimit key limit now).2.failures = m.failures
      ∧ (m.withinRateLimit key limit now).2.openedAt = m.openedAt := by
  unfold LlmMemory.withinRateLimit
  dsimp only
  split <;> exact ⟨rfl, rfl⟩

/-- A request leaves the dictionaries a summary of the log. -/
theorem Summarizes.step (h : Summarizes g s.llm.memory s.log)
    (hserve : serveLlm g a op s.llm = some (r, llm)) :
    Summarizes g llm.memory (s.log ++ s.events g pid a op) := by
  have haside : s.events g pid a op = [] → llm.memory.failures = s.llm.memory.failures →
      llm.memory.openedAt = s.llm.memory.openedAt →
      Summarizes g llm.memory (s.log ++ s.events g pid a op) := by
    intro hnone hfailures hopened
    unfold Summarizes
    rw [hnone, List.append_nil, hfailures, hopened]
    exact h
  have hcalled : ∀ key, Summarizes g s.llm.memory (s.log ++ [.called pid key]) := by
    intro key k
    rw [recentFailures_append]
    exact h k
  cases op with
  | circuitOpen key =>
    cases a <;> cases hserve
    exact h.circuitOpen pid
  | recordFailure key =>
    cases a <;> cases hserve
    exact h.recordFailure
  | recordSuccess key =>
    cases a <;> cases hserve
    exact h.recordSuccess
  | resolveSecret tenantId secretRef =>
    cases a <;> cases hserve
    show Summarizes g s.llm.memory (s.log ++ ((s.trying pid).map _).toList)
    cases s.trying pid with
    | none =>
      rw [Option.map_none, Option.toList_none, List.append_nil]
      exact h
    | some profile => exact hcalled _
  | post profile headers body =>
    cases a <;> cases hserve
    exact hcalled _
  | withinRateLimit key limit =>
    cases a with
    | clock now =>
      obtain ⟨-, rfl⟩ := Prod.mk.inj (Option.some.inj hserve)
      obtain ⟨hfailures, hopened⟩ := withinRateLimit_circuits s.llm.memory key limit now
      exact haside rfl hfailures hopened
    | _ => cases hserve
  | _ =>
    cases a <;> cases hserve
    all_goals exact haside rfl rfl rfl

/-- What the others add to the log leaves a circuit passed. -/
theorem LLMGateway.passed.append {log es : List BreakerEvent} {key : ProfileKey}
    (h : g.passed log pid key)
    (hes : ∀ key' now' isOpen, BreakerEvent.checked pid key' now' isOpen ∉ es) :
    g.passed (log ++ es) pid key := by
  obtain ⟨before, now, after, hlog, hmay, hlast⟩ := h
  refine ⟨before, now, after ++ es, by rw [hlog, List.append_assoc, List.cons_append], hmay,
    fun key' now' isOpen hmem => ?_⟩
  exact (List.mem_append.mp hmem).elim (hlast key' now' isOpen) (hes key' now' isOpen)

/-- Only a look at a circuit is logged as one. -/
theorem checked_of_mem_events {q : ℕ} {key : ProfileKey} {now : ℚ} {isOpen : Bool}
    (h : BreakerEvent.checked q key now isOpen ∈ s.events g pid a op) :
    q = pid ∧ op = .circuitOpen key := by
  cases op with
  | circuitOpen key' =>
    rcases List.mem_cons.mp h with heq | h
    · cases heq
      exact ⟨rfl, rfl⟩
    · split at h
      · cases List.mem_singleton.mp h
      · cases h
  | resolveSecret tenantId secretRef =>
    obtain ⟨profile, -, heq⟩ := Option.map_eq_some_iff.mp (Option.mem_toList.mp h)
    cases heq
  | recordFailure key' => cases List.mem_singleton.mp h
  | recordSuccess key' => cases List.mem_singleton.mp h
  | post profile headers body => cases List.mem_singleton.mp h
  | _ => cases h

/-- **What holds in every interleaving**, with the phases of the calls. -/
structure BreakerInv (g : LLMGateway) (s : BreakerState) (phase : ℕ → CandidatePhase) : Prop where
  summary : Summarizes g s.llm.memory s.log
  trying : ∀ q profile, phase q = .trying profile ∨ phase q = .passed profile →
    s.trying q = some profile
  passed : ∀ q profile, phase q = .passed profile → g.passed s.log q profile.circuitKey
  called : ∀ before q key after, s.log = before ++ .called q key :: after → g.passed before q key

variable {phase : ℕ → CandidatePhase}

theorem breakerInv_start (hs : breakerStart s) : BreakerInv g s (fun _ => .idle) := by
  obtain rfl := hs
  refine ⟨fun key => ⟨rfl, latestReaching_nil.symm⟩, fun q profile hq => ?_, fun q profile hq => ?_,
    fun before q key after hlog => ?_⟩
  · exact hq.elim (fun h => nomatch h) (fun h => nomatch h)
  · cases hq
  · exact absurd hlog.symm (by simp)

/-- A request for a secret or a provider is made behind a closed circuit. -/
theorem BreakerInv.passed_of_called (h : BreakerInv g s phase)
    (hop : (phase pid).permits op) {q : ℕ} {key : ProfileKey}
    (hmem : BreakerEvent.called q key ∈ s.events g pid a op) :
    q = pid ∧ s.events g pid a op = [.called q key] ∧ g.passed s.log q key := by
  cases op with
  | resolveSecret tenantId secretRef =>
    cases hphase : phase pid with
    | passed profile =>
      have hevents : s.events g pid a (.resolveSecret tenantId secretRef)
          = [.called pid profile.circuitKey] := by
        unfold BreakerState.events
        rw [h.trying pid profile (.inr hphase)]
        rfl
      rw [hevents] at hmem ⊢
      cases List.mem_singleton.mp hmem
      exact ⟨rfl, rfl, h.passed pid profile hphase⟩
    | idle | trying _ =>
      rw [hphase] at hop
      exact False.elim hop
  | post profile headers body =>
    cases List.mem_singleton.mp hmem
    cases hphase : phase pid with
    | passed profile' =>
      obtain rfl : profile = profile' := by
        rw [hphase] at hop
        exact hop
      exact ⟨rfl, rfl, h.passed pid profile hphase⟩
    | idle | trying _ =>
      rw [hphase] at hop
      exact False.elim hop
  | circuitOpen key' =>
    rcases List.mem_cons.mp hmem with heq | hmem
    · cases heq
    · split at hmem
      · cases List.mem_singleton.mp hmem
      · cases hmem
  | recordFailure key' => cases List.mem_singleton.mp hmem
  | recordSuccess key' => cases List.mem_singleton.mp hmem
  | _ => cases hmem

/-- Where a call is with its candidates after a request, if it is trying or has
passed one. -/
theorem next_cases {P : CandidatePhase} {profile : ModelProfile} (q : ℕ)
    (hop : P.permits op) (h : P.next op r = .trying profile ∨ P.next op r = .passed profile) :
    (∃ request effective, op = .allows request profile effective
        ∧ P.next op r = .trying profile)
      ∨ (op = .circuitOpen profile.circuitKey ∧ P = .trying profile
          ∧ P.next op r = .passed profile ∧ ∀ a s llm, serveLlm g a op s = some (r, llm) →
            (s.memory.circuitOpen g profile.circuitKey a.time).1 = false)
      ∨ (s.tries q op = s.trying ∧ (∀ key, op ≠ .circuitOpen key) ∧ P.next op r = P) := by
  cases op with
  | allows request p effective =>
    have hnext : P.next (.allows request p effective) r = .trying p := by cases P <;> rfl
    rw [hnext] at h ⊢
    rcases h with h | h
    · cases h
      exact .inl ⟨request, effective, rfl, rfl⟩
    · cases h
  | circuitOpen key =>
    cases P with
    | idle => exact False.elim hop
    | passed p => exact False.elim hop
    | trying p =>
      obtain rfl : key = p.circuitKey := hop
      cases r with
      | error e => exact h.elim (fun h => (nomatch h)) (fun h => (nomatch h))
      | ok isOpen =>
        cases isOpen with
        | true => exact h.elim (fun h => (nomatch h)) (fun h => (nomatch h))
        | false =>
          rcases h with h | h
          · cases h
          · cases h
            refine .inr (.inl ⟨rfl, rfl, rfl, fun a s llm hserve => ?_⟩)
            cases a <;> try cases hserve
            exact Except.ok.inj (congrArg Prod.fst (Option.some.inj hserve))
  | _ => exact .inr (.inr ⟨rfl, fun key hkey => (nomatch hkey), by cases P <;> rfl⟩)

/-- **One request** of a call keeps it. -/
theorem BreakerInv.step (h : BreakerInv g s phase) (hop : (phase pid).permits op)
    (hserve : serveLlm g a op s.llm = some (r, llm)) :
    BreakerInv g (s.after g pid a op llm)
      (Function.update phase pid ((phase pid).next op r)) where
  summary := h.summary.step hserve
  trying := by
    intro q profile hq
    show s.tries pid op q = some profile
    by_cases hpid : q = pid
    · subst hpid
      rw [Function.update_self] at hq
      rcases next_cases (g := g) (s := s) q hop hq with
        ⟨request, effective, rfl, -⟩ | ⟨rfl, hphase, -⟩ | ⟨htries, -, hnext⟩
      · exact Function.update_self ..
      · exact h.trying q profile (.inl hphase)
      · rw [htries]
        exact h.trying q profile (hnext ▸ hq)
    · rw [Function.update_of_ne hpid] at hq
      have htries : s.tries pid op q = s.trying q := by
        unfold BreakerState.tries
        split
        · exact Function.update_of_ne hpid _ _
        · rfl
      rw [htries]
      exact h.trying q profile hq
  passed := by
    intro q profile hq
    by_cases hpid : q = pid
    · subst hpid
      rw [Function.update_self] at hq
      rcases next_cases (g := g) (s := s) q hop (.inr hq) with
        ⟨request, effective, rfl, htrying⟩ | ⟨rfl, -, -, hclosed⟩ | ⟨-, hne, hnext⟩
      · rw [htrying] at hq
        cases hq
      · -- the circuit was closed, so the call might start
        have hclosed := hclosed a s.llm llm hserve
        have hevents : s.events g q a (.circuitOpen profile.circuitKey)
            = .checked q profile.circuitKey a.time false ::
              if (s.llm.memory.openedAt profile.circuitKey).isSome then
                [.reset profile.circuitKey] else [] := by
          unfold BreakerState.events
          dsimp only
          rw [hclosed]
          rfl
        refine ⟨s.log, a.time, _, congrArg (s.log ++ ·) hevents, h.summary.mayStart hclosed, ?_⟩
        · intro key' now' isOpen hmem
          split at hmem
          · cases List.mem_singleton.mp hmem
          · cases hmem
      · refine (h.passed q profile (hnext ▸ hq)).append (fun key' now' isOpen hmem => ?_)
        exact hne _ (checked_of_mem_events hmem).2
    · rw [Function.update_of_ne hpid] at hq
      refine (h.passed q profile hq).append (fun key' now' isOpen hmem => ?_)
      exact hpid (checked_of_mem_events hmem).1
  called := by
    intro before q key after hlog
    have hlog : s.log ++ s.events g pid a op = before ++ .called q key :: after := hlog
    rcases List.append_eq_append_iff.mp hlog with ⟨mid, rfl, hevents⟩ | ⟨mid, hold, hevents⟩
    · -- the call is the one that has just been logged
      have hmem : BreakerEvent.called q key ∈ s.events g pid a op := by
        rw [hevents]
        simp
      obtain ⟨-, hsingle, hpassed⟩ := h.passed_of_called hop hmem
      rw [hsingle] at hevents
      cases mid with
      | nil => simpa using hpassed
      | cons e mid => simp at hevents
    · cases mid with
      | nil =>
        have hmem : BreakerEvent.called q key ∈ s.events g pid a op := by
          rw [← List.nil_append (s.events g pid a op), ← hevents]
          exact List.mem_cons_self
        obtain ⟨-, -, hpassed⟩ := h.passed_of_called hop hmem
        rw [hold, List.append_nil] at hpassed
        exact hpassed
      | cons e mid =>
        obtain ⟨rfl, -⟩ := List.cons.inj hevents
        exact h.called before q key mid hold

/-- A call that is cancelled is with no candidate. -/
theorem BreakerInv.abandon (h : BreakerInv g s phase) (pid : ℕ) :
    BreakerInv g s (Function.update phase pid .idle) where
  summary := h.summary
  trying := by
    intro q profile hq
    by_cases hpid : q = pid
    · rw [hpid, Function.update_self] at hq
      exact hq.elim (fun h => (nomatch h)) (fun h => (nomatch h))
    · rw [Function.update_of_ne hpid] at hq
      exact h.trying q profile hq
  passed := by
    intro q profile hq
    by_cases hpid : q = pid
    · rw [hpid, Function.update_self] at hq
      cases hq
    · rw [Function.update_of_ne hpid] at hq
      exact h.passed q profile hq
  called := h.called

end Steps

/-- The calls, by their phases. -/
def breakerDiscipline (g : LLMGateway) :
    Pool.Discipline ((gatewayCalls g).phased CandidatePhase.next .idle)
      (fun x => breakerStart x.1 ∧ x.2 = fun _ => .idle) (fun _ _ => True)
      (fun _ _ _ _ => True) (fun _ _ => True) :=
  Pool.Discipline.ofPhases CandidatePhase.permits (fun x => BreakerInv g x.1 x.2)
    (fun _ _ => True) (fun _ => trivial) (fun _ _ _ _ _ => trivial)
    (fun _ hs => breakerInv_start hs) (fun request => keeps_complete request)
    (by
      intro pid a op s phase r s' hinv hop _ hh
      obtain ⟨⟨r', llm⟩, hserve, heq⟩ := Option.map_eq_some_iff.mp hh
      cases heq
      exact ⟨hinv.step hop hserve, trivial⟩)
    (fun pid _ _ hinv => ⟨hinv.abandon pid, trivial⟩)
    (fun e => nomatch e)

/-- A state of the process and its calls. -/
abbrev GatewayPool :=
  Pool.State LlmOp LlmRes PyException BreakerState GatewayRequest GatewayResult

/-- **The circuit breaker holds in every interleaving.** Whatever calls run at
once, and whatever the clock reads and the dependencies answer, a call resolves a
secret or calls a provider only for a profile whose circuit it has passed; and
after a success is recorded, no failures are counted and the circuit is closed. -/
theorem circuitBreaker_holds (g : LLMGateway) {w : GatewayPool}
    (h : ((gatewayCalls g).machine breakerStart).Reach Machine.anyStep w) :
    (∀ before pid key after, w.shared.log = before ++ .called pid key :: after →
        g.passed before pid key)
      ∧ ∀ before key, w.shared.log = before ++ [.succeeded key] →
          w.shared.llm.memory.failures key = 0 ∧ w.shared.llm.memory.openedAt key = none := by
  obtain ⟨w', hreach, rfl⟩ := Pool.reach_observed (Pool.phases CandidatePhase.next)
    (fun pid phase => Function.update phase pid .idle) (fun _ => CandidatePhase.idle) h
  have hinv : BreakerInv g w'.shared.1 w'.shared.2 :=
    (Pool.reach_safe (breakerDiscipline g) (hreach.mono (fun v l _ => by
      cases l <;> first | trivial | exact fun _ _ _ _ => trivial))).inv
  refine ⟨hinv.called, fun before key hlog => ?_⟩
  obtain ⟨hfailures, hopened⟩ := hinv.summary key
  have hlog : w'.shared.1.log = before ++ [.succeeded key] := hlog
  rw [hlog, recentFailures_succeeded, if_pos rfl] at hfailures hopened
  rw [latestReaching_nil] at hopened
  exact ⟨hfailures, hopened⟩

/-- A model of one tenant. -/
def smallModel : ModelProfile where
  tenantId := "t"
  modelAlias := "m"
  providerModel := "m-1"
  endpointUrl := "https://provider"
  secretRef := "vault:m"
  dataClassification := .PUBLIC
  region := "r"
  fallbackAliases := []
  requestsPerMinute := 2

/-- A request for it. -/
def smallRequest : GatewayRequest where
  tenantId := "t"
  modelAlias := "m"
  messages := []
  dataClassification := .PUBLIC
  region := "r"
  profileSnapshots := [smallModel]

/-- A gateway that opens a circuit at the first failure. -/
def strictGateway : LLMGateway where
  circuitFailureThreshold := 1
  budget := false
  policyAudit := false
  search := fun _ _ => false
  contentHash := fun _ => ""

/-- Two calls pass the circuit; the provider refuses the first one, and serves the
second, which has started before the circuit was opened. -/
def lateSuccess : List (Pool.Label LlmAnswer GatewayRequest Empty) :=
  [.spawn smallRequest, .act 0 (.clock 0), .act 0 (.policy (.ok true)), .act 0 (.clock 0),
    .spawn smallRequest, .act 1 (.clock 0), .act 1 (.policy (.ok true)), .act 1 (.clock 0),
    .act 0 (.clock 0), .act 0 (.secrets (.ok "k")), .act 0 (.client (.error .httpx)),
    .act 0 (.clock 1), .act 1 (.clock 1), .act 1 (.secrets (.ok "k")),
    .act 1 (.client (.ok ⟨200, .ok (.obj [])⟩)), .act 1 (.clock 2)]

theorem circuitBreaker_holds_lateSuccess : ∃ w,
    ((gatewayCalls strictGateway).machine breakerStart).Reach Machine.anyStep w
      ∧ w.shared.log.length = 8
      ∧ (∀ before pid key after, w.shared.log = before ++ .called pid key :: after →
          strictGateway.passed before pid key)
      ∧ ∀ before key, w.shared.log = before ++ [.succeeded key] →
          w.shared.llm.memory.failures key = 0 ∧ w.shared.llm.memory.openedAt key = none := by
  have hrun : (((gatewayCalls strictGateway).machine breakerStart).run
      (Pool.idle ⟨⟨LlmMemory.empty, []⟩, fun _ => none, []⟩) lateSuccess).map (fun w =>
        decide (w.shared.log.length = 8)) = some true := by
    decide +kernel
  have hinit : ((gatewayCalls strictGateway).machine breakerStart).init
      (Pool.idle ⟨⟨LlmMemory.empty, []⟩, fun _ => none, []⟩) := ⟨_, rfl, rfl⟩
  obtain ⟨w, hw, hlength⟩ := Machine.reach_of_run hinit hrun
  exact ⟨w, hw, of_decide_eq_true hlength, circuitBreaker_holds strictGateway hw⟩
