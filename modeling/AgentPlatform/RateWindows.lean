import Mathlib.Tactic.Linarith
import AgentPlatform.LLMGateway

/-!
# The sliding window of a rate limit

A gateway process remembers, for each profile, when it admitted requests.
`_within_rate_limit` forgets those older than a minute and admits one more if
there is room. The limit comes with the call, from the release it runs under, so
calls for one profile may bring different limits.

A run is the list of its calls. `admitted` keeps beside the memory of the process
the calls it has admitted, which the memory itself forgets. What carries the
bound is that everything forgotten is at least a minute old (`Remembers`): then a
window of a minute contains nothing that the memory does not.
-/

/-- A call of `_within_rate_limit`, with what the clock reads. -/
structure RateCall where
  key : ProfileKey
  limit : ℤ
  now : ℚ

/-- What a process remembers, and the calls it has admitted. -/
structure RateRun where
  memory : LlmMemory
  admitted : List RateCall

namespace RateRun

/-- A process that has just started. -/
def start : RateRun := ⟨LlmMemory.empty, []⟩

/-- The answer to a call. -/
def admits (s : RateRun) (c : RateCall) : Bool :=
  (s.memory.withinRateLimit c.key c.limit c.now).1

/-- One call. -/
def step (s : RateRun) (c : RateCall) : RateRun where
  memory := (s.memory.withinRateLimit c.key c.limit c.now).2
  admitted := if s.admits c then s.admitted ++ [c] else s.admitted

/-- **A run of calls.** -/
def run (calls : List RateCall) : RateRun := calls.foldl step start

/-- The times at which calls for a key were admitted. -/
def times (s : RateRun) (key : ProfileKey) : List ℚ :=
  (s.admitted.filter (fun c => c.key = key)).map RateCall.now

/-- The calls for a key admitted in the minute up to `now`. -/
def inWindow (s : RateRun) (key : ProfileKey) (now : ℚ) : List RateCall :=
  s.admitted.filter (fun c => c.key = key ∧ now - 60 < c.now ∧ c.now ≤ now)

end RateRun

/-- **What the memory of a key amounts to** at the time `now`: the last
admissions, in order; those before them are at least a minute old. -/
structure Remembers (s : RateRun) (key : ProfileKey) (now : ℚ) : Prop where
  sorted : (s.times key).Pairwise (· ≤ ·)
  past : ∀ t ∈ s.times key, t ≤ now
  forgotten : ∃ older, s.times key = older ++ s.memory.requests key ∧ ∀ t ∈ older, t ≤ now - 60

namespace Remembers

variable {s : RateRun} {key : ProfileKey} {now now' : ℚ}

theorem start (now : ℚ) : Remembers RateRun.start key now where
  sorted := List.Pairwise.nil
  past := fun _ ht => absurd ht List.not_mem_nil
  forgotten := ⟨[], rfl, fun _ ht => absurd ht List.not_mem_nil⟩

/-- Time passes. -/
theorem mono (h : Remembers s key now) (hle : now ≤ now') : Remembers s key now' where
  sorted := h.sorted
  past := fun t ht => (h.past t ht).trans hle
  forgotten := by
    obtain ⟨older, hsplit, hold⟩ := h.forgotten
    exact ⟨older, hsplit, fun t ht => (hold t ht).trans (by linarith)⟩

/-- What is remembered is in order. -/
theorem requests_sorted (h : Remembers s key now) :
    (s.memory.requests key).Pairwise (· ≤ ·) := by
  obtain ⟨older, hsplit, -⟩ := h.forgotten
  exact (List.pairwise_append.mp (hsplit ▸ h.sorted)).2.1

end Remembers

/-! ## One call -/

namespace RateRun

variable {s : RateRun} {key : ProfileKey} {now : ℚ} (c : RateCall)

/-- The recent requests of the key of a call. -/
def recent (s : RateRun) (c : RateCall) : List ℚ :=
  (s.memory.requests c.key).dropWhile (fun t => t ≤ c.now - 60)

theorem admits_iff : s.admits c = true ↔ ((s.recent c).length : ℤ) < c.limit := by
  unfold admits LlmMemory.withinRateLimit recent
  dsimp only
  split
  · rename_i hfull
    exact ⟨fun h => (nomatch h), fun h => absurd hfull (not_le.mpr h)⟩
  · rename_i hroom
    exact ⟨fun _ => not_le.mp hroom, fun _ => rfl⟩

/-- What a call leaves in the memory of its key, and of the others. -/
theorem requests_step (key : ProfileKey) :
    (s.step c).memory.requests key
      = if key = c.key then s.recent c ++ (if s.admits c then [c.now] else [])
        else s.memory.requests key := by
  have hadmits := admits_iff (s := s) c
  have hanswer : (s.step c).memory.requests
      = Function.update s.memory.requests c.key
          (if c.limit ≤ (s.recent c).length then s.recent c else s.recent c ++ [c.now]) := by
    unfold step LlmMemory.withinRateLimit recent
    dsimp only
    split <;> rfl
  rw [hanswer, Function.update_apply]
  refine if_congr Iff.rfl ?_ rfl
  split
  · rename_i hfull
    rw [if_neg (fun hyes => absurd hfull (not_le.mpr (hadmits.mp hyes))), List.append_nil]
  · rename_i hroom
    rw [if_pos (hadmits.mpr (not_le.mp hroom))]

theorem times_step (key : ProfileKey) :
    (s.step c).times key
      = s.times key ++ (if c.key = key ∧ s.admits c then [c.now] else []) := by
  unfold times step
  dsimp only
  split
  · rename_i hyes
    rw [List.filter_append, List.map_append]
    by_cases hkey : c.key = key
    · simp [hkey, hyes]
    · simp [hkey]
  · rename_i hno
    rw [if_neg (fun h => hno h.2), List.append_nil]

end RateRun

/-- **One call** keeps what every key amounts to. -/
theorem Remembers.step {s : RateRun} {key : ProfileKey} {now : ℚ} {c : RateCall}
    (h : Remembers s key now) (hnow : now ≤ c.now) : Remembers (s.step c) key c.now := by
  have h := h.mono hnow
  obtain ⟨older, hsplit, hold⟩ := h.forgotten
  by_cases hkey : key = c.key
  · subst hkey
    refine ⟨?_, ?_, older ++ (s.memory.requests c.key).takeWhile (fun t => t ≤ c.now - 60),
      ?_, ?_⟩
    · rw [RateRun.times_step, List.pairwise_append]
      refine ⟨h.sorted, by split <;> simp, fun t ht t' ht' => ?_⟩
      split at ht'
      · rw [List.mem_singleton.mp ht']
        exact h.past t ht
      · cases ht'
    · intro t ht
      rw [RateRun.times_step] at ht
      rcases List.mem_append.mp ht with ht | ht
      · exact h.past t ht
      · split at ht
        · exact (List.mem_singleton.mp ht).le
        · cases ht
    · rw [RateRun.times_step, RateRun.requests_step, if_pos rfl, hsplit, List.append_assoc,
        List.append_assoc, ← List.append_assoc (List.takeWhile _ _)]
      unfold RateRun.recent
      rw [List.takeWhile_append_dropWhile]
      simp
    · intro t ht
      rcases List.mem_append.mp ht with ht | ht
      · exact hold t ht
      · simpa using List.mem_takeWhile_imp ht
  · -- the memory and the admissions of another key are what they were
    have htimes : (s.step c).times key = s.times key := by
      rw [RateRun.times_step, if_neg (fun hc => hkey hc.1.symm), List.append_nil]
    refine ⟨htimes ▸ h.sorted, htimes ▸ h.past, older, ?_, hold⟩
    rw [htimes, RateRun.requests_step, if_neg hkey]
    exact hsplit

/-- **An admitted call has room**: with it there are no more admissions in the
last minute than its limit. -/
theorem Remembers.window {s : RateRun} {now : ℚ} {c : RateCall}
    (h : Remembers s c.key now) (hnow : now ≤ c.now) (hadmits : s.admits c = true) :
    (((s.step c).inWindow c.key c.now).length : ℤ) ≤ c.limit := by
  have hstep := h.step (c := c) hnow
  obtain ⟨older, hsplit, hold⟩ := hstep.forgotten
  have hcount : ((s.step c).inWindow c.key c.now).length
      = (((s.step c).times c.key).filter (fun t => c.now - 60 < t ∧ t ≤ c.now)).length := by
    unfold RateRun.inWindow RateRun.times
    rw [List.filter_map, List.length_map, List.filter_filter]
    congr 2
    funext a
    simp [Bool.and_comm]
  have hnone : older.filter (fun t => c.now - 60 < t ∧ t ≤ c.now) = [] := by
    rw [List.filter_eq_nil_iff]
    intro t ht hin
    have := hold t ht
    simp only [decide_eq_true_eq] at hin
    linarith [hin.1]
  have hle := List.length_filter_le (fun t => decide (c.now - 60 < t ∧ t ≤ c.now))
    ((s.step c).memory.requests c.key)
  have hroom := (RateRun.admits_iff c).mp hadmits
  rw [hcount, hsplit, List.filter_append, hnone, List.nil_append]
  rw [RateRun.requests_step, if_pos rfl, hadmits, if_pos rfl] at hle ⊢
  rw [List.length_append, List.length_singleton] at hle
  omega

/-! ## A run -/

/-- Calls of a clock that does not go back. -/
def ClockForward (calls : List RateCall) : Prop := calls.Pairwise (fun c c' => c.now ≤ c'.now)

theorem RateRun.run_snoc (calls : List RateCall) (c : RateCall) :
    RateRun.run (calls ++ [c]) = (RateRun.run calls).step c := by
  unfold RateRun.run
  rw [List.foldl_append]
  rfl

theorem exists_latest (calls : List RateCall) : ∃ now, ∀ c ∈ calls, c.now ≤ now := by
  induction calls with
  | nil => exact ⟨0, fun _ hc => absurd hc List.not_mem_nil⟩
  | cons c calls ih =>
    obtain ⟨now, hnow⟩ := ih
    refine ⟨max c.now now, List.forall_mem_cons.mpr ⟨le_max_left _ _, fun a ha => ?_⟩⟩
    exact (hnow a ha).trans (le_max_right _ _)

theorem run_remembers {calls : List RateCall} {now : ℚ} (horder : ClockForward calls)
    (hnow : ∀ c ∈ calls, c.now ≤ now) (key : ProfileKey) :
    Remembers (RateRun.run calls) key now := by
  induction calls using List.reverseRecOn generalizing now with
  | nil => exact Remembers.start now
  | append_singleton calls c ih =>
    obtain ⟨horder', -, hbefore⟩ := List.pairwise_append.mp horder
    rw [RateRun.run_snoc]
    have hcalls : Remembers (RateRun.run calls) key c.now :=
      ih horder' (fun a ha => hbefore a ha c (List.mem_singleton_self c))
    exact (hcalls.step (le_refl _)).mono (hnow c (by simp))

/-- **The limit is kept**: in every run of calls with a clock that does not go
back, whatever limits they bring, the memory of each key is in order, and an
admitted call has, with itself, at most as many admissions of its key in the
minute up to its time as its limit. -/
theorem rateLimit_kept {calls : List RateCall} (horder : ClockForward calls) :
    (∀ key, ((RateRun.run calls).memory.requests key).Pairwise (· ≤ ·))
      ∧ ∀ before c after, calls = before ++ c :: after → (RateRun.run before).admits c = true →
          (((RateRun.run (before ++ [c])).inWindow c.key c.now).length : ℤ) ≤ c.limit := by
  constructor
  · intro key
    obtain ⟨now, hnow⟩ := exists_latest calls
    exact (run_remembers horder hnow key).requests_sorted
  · rintro before c after rfl hadmits
    obtain ⟨hbefore, -, hcross⟩ := List.pairwise_append.mp horder
    rw [RateRun.run_snoc]
    have hpast : Remembers (RateRun.run before) c.key c.now :=
      run_remembers hbefore (fun a ha => hcross a ha c List.mem_cons_self) c.key
    exact hpast.window (le_refl _) hadmits

/-- Two calls for one profile, a second apart, the later one with a smaller
limit. -/
def shrinkingLimit : List RateCall := [⟨("t", "m"), 2, 0⟩, ⟨("t", "m"), 1, 1⟩]

theorem rateLimit_kept_shrinkingLimit :
    (∀ key, ((RateRun.run shrinkingLimit).memory.requests key).Pairwise (· ≤ ·))
      ∧ ∀ before c after, shrinkingLimit = before ++ c :: after →
          (RateRun.run before).admits c = true →
          (((RateRun.run (before ++ [c])).inWindow c.key c.now).length : ℤ) ≤ c.limit :=
  rateLimit_kept (by simp [ClockForward, shrinkingLimit])
