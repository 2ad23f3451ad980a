import AgentPlatform.StreamedSecrets

/-!
# Text that a stream loses

A `WeComStreamSession` takes the pending text out of its batcher and then posts
it. If the post raises, the text is in neither place. What follows is what that
means for a session as a whole: the texts of the posts that went through and the
pending text are everything that was appended, until a post with text raises, and
not from then on.
-/

/-- An operation on a session. -/
inductive StreamOp where
  | append (delta : Text)
  | flush

namespace StreamOp

/-- The text an operation adds. -/
def delta : StreamOp → Text
  | append delta => delta
  | flush => []

end StreamOp

namespace WeComStreamSession

section Batching

variable (settings : StreamSettings) (around : StreamSurroundings)

/-- The session after an operation. -/
def perform (s : WeComStreamSession) : StreamOp → WeComStreamSession
  | .append delta => (s.append settings around delta).2
  | .flush => (s.flush around).2

/-- **A run of operations** on a new session. -/
def performAll (ops : List StreamOp) : WeComStreamSession :=
  ops.foldl (perform settings around) (new around)

/-- The texts of the posts that went through. -/
def delivered (s : WeComStreamSession) : Text :=
  ((s.posts.zipIdx.filter (fun post => (around.postRaises post.2).isNone)).map Prod.fst).flatten

/-- An operation posts: enough is pending for long enough, or anything is. -/
def doesPost (s : WeComStreamSession) : StreamOp → Bool
  | .append delta => (due settings around (s.add delta)).1
  | .flush => !s.pending.isEmpty

/-- **An operation loses text**: it posts some, and the post raises. -/
def Loses (s : WeComStreamSession) (op : StreamOp) : Prop :=
  s.doesPost settings around op = true ∧ (around.postRaises s.posts.length).isSome = true
    ∧ s.pending.flatten ++ op.delta ≠ []

/-- **Nothing is lost** after `ops`: what was delivered and what is pending is what
was appended. -/
def Conserved (ops : List StreamOp) : Prop :=
  (performAll settings around ops).delivered around
      ++ (performAll settings around ops).pending.flatten
    = (ops.map StreamOp.delta).flatten

variable {settings}

/-- A post delivers what is pending, or loses it. -/
theorem postPending_spec (s : WeComStreamSession) :
    (s.postPending around).2.delivered around ++ (s.postPending around).2.pending.flatten
      = if (around.postRaises s.posts.length).isSome then s.delivered around
        else s.delivered around ++ s.pending.flatten := by
  unfold postPending delivered
  dsimp only
  rw [List.zipIdx_append, List.filter_append, List.map_append, List.flatten_append]
  cases hraises : around.postRaises s.posts.length <;> simp [hraises]

variable {around}

/-- **One operation**: what is delivered and pending grows by its text, unless it
posts and the post raises. -/
theorem perform_spec (s : WeComStreamSession) (op : StreamOp) :
    (s.perform settings around op).delivered around
        ++ (s.perform settings around op).pending.flatten
      = if s.doesPost settings around op = true ∧ (around.postRaises s.posts.length).isSome = true
        then s.delivered around
        else s.delivered around ++ (s.pending.flatten ++ op.delta) := by
  cases op with
  | append delta =>
    have hadd : (s.add delta).pending.flatten = s.pending.flatten ++ delta := by
      simp [add]
    have hdue : (due settings around (s.add delta)).2.posts = s.posts
        ∧ (due settings around (s.add delta)).2.pending = (s.add delta).pending := by
      unfold due
      split <;> exact ⟨rfl, rfl⟩
    have hpost := postPending_spec around (due settings around (s.add delta)).2
    unfold delivered at hpost ⊢
    rw [hdue.1, hdue.2, hadd] at hpost
    have hdoes : s.doesPost settings around (.append delta)
        = (due settings around (s.add delta)).1 := rfl
    rw [hdoes]
    unfold perform append
    dsimp only
    by_cases hisDue : (due settings around (s.add delta)).1 = true
    · simp only [hisDue, true_and]
      exact hpost
    · simp only [Bool.not_eq_true _ ▸ hisDue, Bool.false_eq_true, false_and, if_false]
      rw [hdue.1, hdue.2, hadd]
      rfl
  | flush =>
    have hpost := postPending_spec around s
    have hdoes : s.doesPost settings around .flush = !s.pending.isEmpty := rfl
    have hdelta : StreamOp.flush.delta = [] := rfl
    rw [hdoes, hdelta, List.append_nil]
    unfold perform flush
    dsimp only
    by_cases hempty : s.pending.isEmpty = true
    · simp only [hempty, if_true, Bool.not_true, Bool.false_eq_true, false_and, if_false]
    · simp only [Bool.not_eq_true _ ▸ hempty, Bool.not_false, Bool.false_eq_true, if_false,
        true_and]
      exact hpost

theorem performAll_snoc (ops : List StreamOp) (op : StreamOp) :
    performAll settings around (ops ++ [op])
      = (performAll settings around ops).perform settings around op := by
  unfold performAll
  rw [List.foldl_append]
  rfl

/-- What one more operation does to a session that has lost nothing. -/
theorem conserved_snoc {ops : List StreamOp} (h : Conserved settings around ops) (op : StreamOp) :
    Conserved settings around (ops ++ [op])
      ↔ ¬ (performAll settings around ops).Loses settings around op := by
  unfold Conserved at h ⊢
  unfold Loses
  rw [performAll_snoc, perform_spec, List.map_append, List.flatten_append, ← h]
  generalize performAll settings around ops = s
  by_cases hlost : s.doesPost settings around op = true
      ∧ (around.postRaises s.posts.length).isSome = true
  · rw [if_pos hlost]
    simp [hlost, List.append_assoc]
  · rw [if_neg hlost]
    simp only [List.map_cons, List.map_nil, List.flatten_singleton, List.append_assoc, true_iff]
    exact fun hloses => hlost ⟨hloses.1, hloses.2.1⟩

end Batching

end WeComStreamSession

open WeComStreamSession

/-- **When a stream loses no text**: for every run of operations, whatever the
clock and the posts do, nothing is lost at any point of it exactly when no
operation of it loses text. -/
theorem stream_conserved_iff (settings : StreamSettings) (around : StreamSurroundings)
    (ops : List StreamOp) :
    (∀ before after, ops = before ++ after → Conserved settings around before)
      ↔ ∀ before op after, ops = before ++ op :: after →
          ¬ (performAll settings around before).Loses settings around op := by
  constructor
  · intro h before op after hops
    refine (conserved_snoc (h before (op :: after) hops) op).mp (h (before ++ [op]) after ?_)
    rw [hops, List.append_assoc, List.singleton_append]
  · intro h before
    induction before using List.reverseRecOn with
    | nil => exact fun _ _ => rfl
    | append_singleton before op ih =>
      intro after hops
      rw [List.append_assoc, List.singleton_append] at hops
      exact (conserved_snoc (ih (op :: after) hops) op).mpr (h before op after hops)

/-- Posts that all raise, at one moment. -/
def offline : StreamSurroundings where
  clock := fun _ => 0
  postRaises := fun _ => some .httpx
  runnerRaises := none

/-- **A flush whose post raises loses the text**: it is neither delivered nor
pending. -/
theorem stream_loses_flushed : ¬ Conserved {} offline [.append ['h', 'i'], .flush] := by
  unfold Conserved
  decide
