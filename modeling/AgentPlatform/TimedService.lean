import Mathlib.Data.List.Basic
import Mathlib.Order.Basic

/-!
# Components that are called at times

A component keeps a state, is called with an input at a time, and answers. What
it does in a sequence of calls is `answers`, and the state it is left in `after`.

Two components that are called alike answer alike when their states are related
by something that every call keeps and that the passing of time keeps:
`lockstep`. The calls may be asked to meet a condition on the state they find
(`Meets`), so that "on the sequences in which every call is of this kind" can be
said of a component that answers every call.
-/

/-- **A component that is called at times**: the state it starts in, and what a
call answers and leaves. -/
structure TimedService (τ σ ι ο : Type) where
  start : σ
  call : τ → ι → σ → ο × σ

namespace TimedService

variable {τ σ ρ ι ο : Type} (S : TimedService τ σ ι ο)

/-- The state that a sequence of calls leaves. -/
def after : σ → List (τ × ι) → σ
  | s, [] => s
  | s, c :: calls => after (S.call c.1 c.2 s).2 calls

/-- **What a sequence of calls answers.** -/
def answers : σ → List (τ × ι) → List ο
  | _, [] => []
  | s, c :: calls => (S.call c.1 c.2 s).1 :: answers (S.call c.1 c.2 s).2 calls

/-- Every call of the sequence finds a state that meets a condition. -/
def Meets (ok : τ → ι → σ → Prop) : σ → List (τ × ι) → Prop
  | _, [] => True
  | s, c :: calls => ok c.1 c.2 s ∧ Meets ok (S.call c.1 c.2 s).2 calls

/-- **The clock does not go back** in the course of the calls. -/
def Clocked [LE τ] (calls : List (τ × ι)) : Prop := calls.Pairwise (fun a b => a.1 ≤ b.1)

instance [LE τ] [DecidableLE τ] (calls : List (τ × ι)) : Decidable (Clocked calls) :=
  inferInstanceAs (Decidable (calls.Pairwise (fun a b => a.1 ≤ b.1)))

instance decidableMeets {ok : τ → ι → σ → Prop} [∀ t i s, Decidable (ok t i s)] :
    ∀ (s : σ) (calls : List (τ × ι)), Decidable (S.Meets ok s calls)
  | _, [] => inferInstanceAs (Decidable True)
  | s, c :: calls =>
    have : Decidable (S.Meets ok (S.call c.1 c.2 s).2 calls) := decidableMeets _ calls
    inferInstanceAs (Decidable (ok c.1 c.2 s ∧ S.Meets ok (S.call c.1 c.2 s).2 calls))

variable {S}

/-- What a condition says of the call in the middle of a sequence. -/
theorem Meets.call_of_append {ok : τ → ι → σ → Prop} {s : σ} {before later : List (τ × ι)}
    {c : τ × ι} (h : S.Meets ok s (before ++ c :: later)) : ok c.1 c.2 (S.after s before) := by
  induction before generalizing s with
  | nil => exact h.1
  | cons d before ih => exact ih h.2

/-- What meets a condition meets it as far as it has come. -/
theorem Meets.of_append {ok : τ → ι → σ → Prop} {s : σ} {before later : List (τ × ι)}
    (h : S.Meets ok s (before ++ later)) : S.Meets ok s before := by
  induction before generalizing s with
  | nil => trivial
  | cons d before ih => exact ⟨h.1, ih h.2⟩

/-- **The invariant rule**: what every call keeps, with what it answers, holds after
any sequence of calls, and of all its answers. -/
theorem invariant {I : σ → Prop} {A : ο → σ → Prop}
    (hstep : ∀ t i s, I s → I (S.call t i s).2 ∧ A (S.call t i s).1 (S.call t i s).2)
    (hkeep : ∀ t i s o, I s → A o s → A o (S.call t i s).2) {s : σ} (h : I s)
    (calls : List (τ × ι)) :
    I (S.after s calls) ∧ ∀ o ∈ S.answers s calls, A o (S.after s calls) := by
  -- An answer given before holds of the state now; `answered` is what is carried along.
  suffices haux : ∀ answered : List ο, (∀ o ∈ answered, A o s) →
      I (S.after s calls) ∧ ∀ o ∈ answered ++ S.answers s calls, A o (S.after s calls) by
    simpa using haux [] (by simp)
  induction calls generalizing s with
  | nil =>
    intro answered hanswered
    exact ⟨h, by simpa [answers, after] using hanswered⟩
  | cons c calls ih =>
    intro answered hanswered
    obtain ⟨hI, hA⟩ := hstep c.1 c.2 s h
    have hnext : ∀ o ∈ answered ++ [(S.call c.1 c.2 s).1], A o (S.call c.1 c.2 s).2 := by
      intro o ho
      obtain ho | ho := List.mem_append.mp ho
      · exact hkeep c.1 c.2 s o h (hanswered o ho)
      · rw [List.mem_singleton.mp ho]
        exact hA
    obtain ⟨hafter, hall⟩ := ih hI (answered ++ [(S.call c.1 c.2 s).1]) hnext
    refine ⟨hafter, fun o ho => hall o ?_⟩
    rwa [List.append_assoc]

/-- **Two components in lockstep.** A relation between their states that the passing
of time keeps, and under which a call answers the same and keeps the relation, makes
them answer every sequence of calls the same; it holds at the time of any later call. -/
theorem lockstep [Preorder τ] {T : TimedService τ ρ ι ο} {R : τ → σ → ρ → Prop}
    {ok : τ → ι → ρ → Prop}
    (hmono : ∀ t t' s r, t ≤ t' → R t s r → R t' s r)
    (hcall : ∀ t i s r, R t s r → ok t i r →
      (S.call t i s).1 = (T.call t i r).1 ∧ R t (S.call t i s).2 (T.call t i r).2)
    {t : τ} {s : σ} {r : ρ} (h : R t s r) {calls : List (τ × ι)} (hclock : Clocked calls)
    (hlate : ∀ c ∈ calls, t ≤ c.1) (hok : T.Meets ok r calls) :
    S.answers s calls = T.answers r calls
      ∧ ∀ t', t ≤ t' → (∀ c ∈ calls, c.1 ≤ t') → R t' (S.after s calls) (T.after r calls) := by
  induction calls generalizing t s r with
  | nil => exact ⟨rfl, fun t' ht _ => hmono t t' s r ht h⟩
  | cons c calls ih =>
    obtain ⟨hcs, hrest⟩ := List.pairwise_cons.mp hclock
    obtain ⟨hanswer, hR⟩ :=
      hcall c.1 c.2 s r (hmono t c.1 s r (hlate c List.mem_cons_self) h) hok.1
    obtain ⟨hanswers, hafter⟩ := ih hR hrest (fun d hd => hcs d hd) hok.2
    refine ⟨?_, fun t' ht hle => ?_⟩
    · rw [answers, answers, hanswer, hanswers]
    · exact hafter t' (hle c List.mem_cons_self) (fun d hd => hle d (List.mem_cons_of_mem c hd))

/-- Two components in lockstep from the start, whenever the first call is. -/
theorem lockstep_start [Preorder τ] {T : TimedService τ ρ ι ο} {R : τ → σ → ρ → Prop}
    {ok : τ → ι → ρ → Prop}
    (hmono : ∀ t t' s r, t ≤ t' → R t s r → R t' s r)
    (hcall : ∀ t i s r, R t s r → ok t i r →
      (S.call t i s).1 = (T.call t i r).1 ∧ R t (S.call t i s).2 (T.call t i r).2)
    (h : ∀ t, R t S.start T.start) {calls : List (τ × ι)} (hclock : Clocked calls)
    (hok : T.Meets ok T.start calls) :
    S.answers S.start calls = T.answers T.start calls
      ∧ ∀ t, (∀ c ∈ calls, c.1 ≤ t) → R t (S.after S.start calls) (T.after T.start calls) := by
  cases calls with
  | nil => exact ⟨rfl, fun t _ => h t⟩
  | cons c calls =>
    have hlate : ∀ d ∈ c :: calls, c.1 ≤ d.1 := by
      intro d hd
      obtain rfl | hd := List.mem_cons.mp hd
      · exact le_rfl
      · exact (List.pairwise_cons.mp hclock).1 d hd
    obtain ⟨hanswers, hafter⟩ := lockstep hmono hcall (h c.1) hclock hlate hok
    exact ⟨hanswers, fun t hle => hafter t (hle c List.mem_cons_self) hle⟩

end TimedService
