import Mathlib.Logic.Relation

/-!
# Transition systems and what holds along their runs

A component is read as a labelled transition system: a set of initial states
and a partial step, which refuses a label the component cannot take in that
state. Everything said about a component – an invariant, a fact that never
changes once it holds – is said about the states its *runs* visit.

A run may be asked to keep to steps that meet a condition `ok`, evaluated on
the state before the step. With `ok` always true (`anyStep`) the run is
unrestricted; with a proper condition the same vocabulary says "in every run
whose steps all meet the condition".

`Machine.Reach.invariant` is the induction every safety result goes through,
and `Machine.Steps.trans_rel` its counterpart for facts relating two states of
one run. `Machine.steps_of_run` turns an evaluated list of labels into a run,
so that a concrete trace can be checked by computation.
-/

/-- **A labelled transition system**: a set of initial states and a partial
step. `step s l = none` says that the label `l` cannot be taken in `s`. -/
structure Machine (S L : Type) where
  /-- The states a run may start in. -/
  init : S → Prop
  /-- The state a label leads to, when it can be taken. -/
  step : S → L → Option S

namespace Machine

variable {S L : Type} {M : Machine S L} {ok : S → L → Prop}

/-- The condition every step meets. -/
def anyStep : S → L → Prop := fun _ _ => True

/-- `s'` follows `s` by a step that meets `ok`. -/
def Next (M : Machine S L) (ok : S → L → Prop) (s s' : S) : Prop :=
  ∃ l, ok s l ∧ M.step s l = some s'

/-- **A run**: any number of steps, each of which meets `ok`. -/
def Steps (M : Machine S L) (ok : S → L → Prop) : S → S → Prop :=
  Relation.ReflTransGen (M.Next ok)

/-- **The reachable states**: those a run from an initial state visits. -/
def Reach (M : Machine S L) (ok : S → L → Prop) (s : S) : Prop :=
  ∃ s₀, M.init s₀ ∧ M.Steps ok s₀ s

/-- An initial state is reachable. -/
theorem Reach.of_init {s : S} (h : M.init s) : M.Reach ok s :=
  ⟨s, h, Relation.ReflTransGen.refl⟩

/-- What a run visits after a reachable state is reachable. -/
theorem Reach.steps {s s' : S} (h : M.Reach ok s) (hs : M.Steps ok s s') :
    M.Reach ok s' := by
  obtain ⟨s₀, h₀, hr⟩ := h
  exact ⟨s₀, h₀, hr.trans hs⟩

/-- One more step from a reachable state. -/
theorem Reach.next {s s' : S} {l : L} (h : M.Reach ok s) (hok : ok s l)
    (hs : M.step s l = some s') : M.Reach ok s' :=
  h.steps (Relation.ReflTransGen.single ⟨l, hok, hs⟩)

/-- Steps that meet a condition meet a weaker one. -/
theorem Steps.mono {ok' : S → L → Prop} (hok : ∀ s l, ok s l → ok' s l) {s s' : S}
    (h : M.Steps ok s s') : M.Steps ok' s s' := by
  refine Relation.ReflTransGen.mono ?_ _ _ h
  rintro a b ⟨l, hl, hs⟩
  exact ⟨l, hok a l hl, hs⟩

/-- A run that meets a condition meets a weaker one. -/
theorem Reach.mono {ok' : S → L → Prop} (hok : ∀ s l, ok s l → ok' s l) {s : S}
    (h : M.Reach ok s) : M.Reach ok' s := by
  obtain ⟨s₀, h₀, hr⟩ := h
  exact ⟨s₀, h₀, hr.mono hok⟩

/-- **A run meets what its steps are shown to meet**, one after the other: a
condition that every step meets when all steps before it did. -/
theorem Reach.strengthen {ok' : S → L → Prop}
    (hok : ∀ s l, M.Reach ok' s → ok s l → ok' s l) {s : S} (h : M.Reach ok s) :
    M.Reach ok' s := by
  obtain ⟨s₀, h₀, hr⟩ := h
  induction hr with
  | refl => exact Reach.of_init h₀
  | tail _ hnext ih =>
    obtain ⟨l, hl, hs⟩ := hnext
    exact ih.next (hok _ l ih hl) hs

/-- **The invariant rule.** What holds initially and is kept by every step
from a reachable state holds in every reachable state. -/
theorem Reach.invariant {I : S → Prop} (hinit : ∀ s, M.init s → I s)
    (hstep : ∀ s l s', M.Reach ok s → I s → ok s l → M.step s l = some s' → I s')
    {s : S} (h : M.Reach ok s) : I s := by
  obtain ⟨s₀, h₀, hr⟩ := h
  induction hr with
  | refl => exact hinit s₀ h₀
  | tail hpre hnext ih =>
    obtain ⟨l, hok, hs⟩ := hnext
    exact hstep _ l _ ⟨s₀, h₀, hpre⟩ ih hok hs

/-- **The rule for facts about two states of one run.** A reflexive and
transitive relation that every step from a reachable state respects relates
any reachable state to every state a run visits after it. -/
theorem Steps.trans_rel {R : S → S → Prop} (hrefl : ∀ s, R s s)
    (htrans : ∀ s s' s'', R s s' → R s' s'' → R s s'')
    (hstep : ∀ s l s', M.Reach ok s → ok s l → M.step s l = some s' → R s s')
    {s s' : S} (h : M.Reach ok s) (hs : M.Steps ok s s') : R s s' := by
  induction hs with
  | refl => exact hrefl s
  | tail hpre hnext ih =>
    obtain ⟨l, hok, hl⟩ := hnext
    exact htrans _ _ _ ih (hstep _ l _ (h.steps hpre) hok hl)

/-- Run a list of labels, stopping at the first that cannot be taken. -/
def run (M : Machine S L) : S → List L → Option S
  | s, [] => some s
  | s, l :: ls => (M.step s l).bind (M.run · ls)

/-- **An evaluated list of labels is a run.** -/
theorem steps_of_run {s s' : S} {ls : List L} (h : M.run s ls = some s') :
    M.Steps anyStep s s' := by
  induction ls generalizing s with
  | nil =>
    obtain rfl := Option.some.inj h
    exact Relation.ReflTransGen.refl
  | cons l ls ih =>
    obtain ⟨s₁, hs, hr⟩ := Option.bind_eq_some_iff.mp h
    exact (ih hr).head ⟨l, trivial, hs⟩

/-- A state found by evaluating a list of labels from an initial state, in
which a decidable test succeeds, is a reachable state in which it does. -/
theorem reach_of_run {s₀ : S} {ls : List L} {p : S → Bool} (h₀ : M.init s₀)
    (h : (M.run s₀ ls).map p = some true) :
    ∃ s, M.Reach anyStep s ∧ p s = true := by
  obtain ⟨s, hs, hp⟩ := Option.map_eq_some_iff.mp h
  exact ⟨s, (Reach.of_init h₀).steps (steps_of_run hs), hp⟩

/-- Two states of one evaluated list of labels, the second after the first. -/
theorem steps_of_run_run {s₀ : S} {ls ls' : List L} {p : S → S → Bool} (h₀ : M.init s₀)
    (h : (M.run s₀ ls).bind (fun s => (M.run s ls').map (p s)) = some true) :
    ∃ s s', M.Reach anyStep s ∧ M.Steps anyStep s s' ∧ p s s' = true := by
  obtain ⟨s, hs, h'⟩ := Option.bind_eq_some_iff.mp h
  obtain ⟨s', hs', hp⟩ := Option.map_eq_some_iff.mp h'
  exact ⟨s, s', (Reach.of_init h₀).steps (steps_of_run hs), steps_of_run hs', hp⟩

/-- Run a list of labels, stopping at the first that cannot be taken or does
not pass the test. -/
def runIf (M : Machine S L) (test : S → L → Bool) : S → List L → Option S
  | s, [] => some s
  | s, l :: ls => if test s l then (M.step s l).bind (M.runIf test · ls) else none

/-- **An evaluated list of labels that pass a test is a run of them.** -/
theorem steps_of_runIf {test : S → L → Bool} (htest : ∀ s l, test s l = true → ok s l)
    {s s' : S} {ls : List L} (h : M.runIf test s ls = some s') : M.Steps ok s s' := by
  induction ls generalizing s with
  | nil =>
    obtain rfl := Option.some.inj h
    exact Relation.ReflTransGen.refl
  | cons l ls ih =>
    simp only [runIf] at h
    split at h
    · rename_i hl
      obtain ⟨s₁, hs, hr⟩ := Option.bind_eq_some_iff.mp h
      exact (ih hr).head ⟨l, htest s l hl, hs⟩
    · cases h

/-- A state found by evaluating labels that pass a test, in which a decidable
test succeeds, is a reachable state in which it does. -/
theorem reach_of_runIf {test : S → L → Bool} (htest : ∀ s l, test s l = true → ok s l)
    {s₀ : S} {ls : List L} {p : S → Bool} (h₀ : M.init s₀)
    (h : (M.runIf test s₀ ls).map p = some true) : ∃ s, M.Reach ok s ∧ p s = true := by
  obtain ⟨s, hs, hp⟩ := Option.map_eq_some_iff.mp h
  exact ⟨s, (Reach.of_init h₀).steps (steps_of_runIf htest hs), hp⟩

/-- Two states of one evaluated run, the second after the first. -/
theorem steps_of_runIf_runIf {test : S → L → Bool}
    (htest : ∀ s l, test s l = true → ok s l) {s₀ : S} {ls ls' : List L} {p : S → S → Bool}
    (h₀ : M.init s₀)
    (h : (M.runIf test s₀ ls).bind (fun s => (M.runIf test s ls').map (p s)) = some true) :
    ∃ s s', M.Reach ok s ∧ M.Steps ok s s' ∧ p s s' = true := by
  obtain ⟨s, hs, h'⟩ := Option.bind_eq_some_iff.mp h
  obtain ⟨s', hs', hp⟩ := Option.map_eq_some_iff.mp h'
  exact ⟨s, s', (Reach.of_init h₀).steps (steps_of_runIf htest hs),
    steps_of_runIf htest hs', hp⟩

end Machine
