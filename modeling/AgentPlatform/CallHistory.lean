import AgentPlatform.Interleaving

/-!
# What a call asked, and what it was told

`Prog.Safe` follows a call forward and forgets how it got where it is. Some
properties compare the end of a call with what happened on the way – the row
it found, the version it was told of – or the ends of two calls. They are
stated on *histories*: the list of the requests of a call with their outcomes
and the shared states around them.

`Prog.History` is what a program can live through when anything may happen to
the state between two of its requests, and its rules take a history apart
along the program. `Pool.historyOf` reads the history of one call off a run of
a pool. `Pool.history_of_reply` joins them: the history of a call that has
answered is one of its program, and ends with the answer.
-/

/-- **One request of a call**: the shared state before it, its outcome, and the
state it left. -/
structure Asked (Op : Type) (Res : Op → Type) (E S : Type) where
  before : S
  op : Op
  answer : Except E (Res op)
  after : S

namespace Prog

variable {Op : Type} {Res : Op → Type} {E α β S T : Type}

/-- **The histories of a program**: what it can ask and be told before it ends
with `r`. -/
def History (H : (op : Op) → S → Except E (Res op) → S → Prop) :
    Prog Op Res E α → List (Asked Op Res E S) → Except E α → Prop
  | .ret a, h, r => h = [] ∧ r = .ok a
  | .raise e, h, r => h = [] ∧ r = .error e
  | .call op k, h, r =>
    ∃ s x s' rest, H op s x s' ∧ h = ⟨s, op, x, s'⟩ :: rest ∧ History H (k x) rest r

section Rules

variable {H : (op : Op) → S → Except E (Res op) → S → Prop} {h : List (Asked Op Res E S)}

@[simp] theorem history_ret {a : α} {r : Except E α} :
    (ret a : Prog Op Res E α).History H h r ↔ h = [] ∧ r = .ok a := Iff.rfl

/-- **Sequencing**: the first program raises, or its history comes first. -/
theorem history_bind {p : Prog Op Res E α} {f : α → Prog Op Res E β} {r : Except E β} :
    (p.bind f).History H h r ↔
      (∃ e, p.History H h (.error e) ∧ r = .error e) ∨
      ∃ h₁ h₂ a, h = h₁ ++ h₂ ∧ p.History H h₁ (.ok a) ∧ (f a).History H h₂ r := by
  induction p generalizing h with
  | ret a =>
    refine ⟨fun hf => .inr ⟨[], h, a, rfl, ⟨rfl, rfl⟩, hf⟩, ?_⟩
    rintro (⟨e, ⟨-, he⟩, -⟩ | ⟨h₁, h₂, b, rfl, ⟨rfl, hb⟩, hf⟩)
    · cases he
    · obtain rfl := Except.ok.inj hb
      exact hf
  | raise e =>
    refine ⟨fun ⟨hh, hr⟩ => .inl ⟨e, ⟨hh, rfl⟩, hr⟩, ?_⟩
    rintro (⟨e', ⟨hh, he⟩, hr⟩ | ⟨h₁, h₂, b, -, ⟨-, hb⟩, -⟩)
    · obtain rfl := Except.error.inj he
      exact ⟨hh, hr⟩
    · cases hb
  | call op k ih =>
    constructor
    · rintro ⟨s, x, s', rest, hH, rfl, hrest⟩
      rcases (ih x).mp hrest with ⟨e, he, hr⟩ | ⟨h₁, h₂, a, rfl, ha, hf⟩
      · exact .inl ⟨e, ⟨s, x, s', rest, hH, rfl, he⟩, hr⟩
      · exact .inr ⟨_ :: h₁, h₂, a, rfl, ⟨s, x, s', h₁, hH, rfl, ha⟩, hf⟩
    · rintro (⟨e, ⟨s, x, s', rest, hH, rfl, he⟩, hr⟩ |
        ⟨h₁, h₂, a, rfl, ⟨s, x, s', rest, hH, rfl, ha⟩, hf⟩)
      · exact ⟨s, x, s', rest, hH, rfl, (ih x).mpr (.inl ⟨e, he, hr⟩)⟩
      · exact ⟨s, x, s', rest ++ h₂, hH, rfl, (ih x).mpr (.inr ⟨rest, h₂, a, rfl, ha, hf⟩)⟩

/-- One request. -/
theorem history_perform {op : Op} {r : Except E (Res op)} :
    (perform op : Prog Op Res E (Res op)).History H h r ↔
      ∃ s s', H op s r s' ∧ h = [⟨s, op, r, s'⟩] := by
  constructor
  · rintro ⟨s, x, s', rest, hH, rfl, hrest⟩
    cases x with
    | ok a =>
      obtain ⟨rfl, rfl⟩ := hrest
      exact ⟨s, s', hH, rfl⟩
    | error e =>
      obtain ⟨rfl, rfl⟩ := hrest
      exact ⟨s, s', hH, rfl⟩
  · rintro ⟨s, s', hH, rfl⟩
    refine ⟨s, r, s', [], hH, rfl, ?_⟩
    cases r <;> exact ⟨rfl, rfl⟩

/-- **One request and what follows it.** -/
theorem history_perform_bind {op : Op} {f : Res op → Prog Op Res E β} {r : Except E β} :
    ((perform op : Prog Op Res E (Res op)).bind f).History H h r ↔
      (∃ s e s', H op s (.error e) s' ∧ h = [⟨s, op, .error e, s'⟩] ∧ r = .error e) ∨
      ∃ s a s' rest, H op s (.ok a) s' ∧ h = ⟨s, op, .ok a, s'⟩ :: rest
        ∧ (f a).History H rest r := by
  rw [history_bind]
  constructor
  · rintro (⟨e, he, hr⟩ | ⟨h₁, h₂, a, rfl, ha, hf⟩)
    · obtain ⟨s, s', hH, rfl⟩ := history_perform.mp he
      exact .inl ⟨s, e, s', hH, rfl, hr⟩
    · obtain ⟨s, s', hH, rfl⟩ := history_perform.mp ha
      exact .inr ⟨s, a, s', h₂, hH, rfl, hf⟩
  · rintro (⟨s, e, s', hH, rfl, hr⟩ | ⟨s, a, s', rest, hH, rfl, hf⟩)
    · exact .inl ⟨e, history_perform.mpr ⟨s, s', hH, rfl⟩, hr⟩
    · exact .inr ⟨[⟨s, op, .ok a, s'⟩], rest, a, rfl, history_perform.mpr ⟨s, s', hH, rfl⟩, hf⟩

/-- **What a program asks is in its histories**: if all answers satisfy `A`, the
requests and the end are as `Asks` says. -/
theorem Asks.history {P : Op → Prop} {A : (op : Op) → Except E (Res op) → Prop}
    {p : Prog Op Res E α} {Q : Except E α → Prop} (hp : p.Asks P A Q) {r : Except E α}
    (hh : p.History H h r) (hA : ∀ a ∈ h, A a.op a.answer) : (∀ a ∈ h, P a.op) ∧ Q r := by
  induction p generalizing h with
  | ret a =>
    obtain ⟨rfl, rfl⟩ := hh
    exact ⟨fun _ ha => absurd ha List.not_mem_nil, hp⟩
  | raise e =>
    obtain ⟨rfl, rfl⟩ := hh
    exact ⟨fun _ ha => absurd ha List.not_mem_nil, hp⟩
  | call op k ih =>
    obtain ⟨s, x, s', rest, -, rfl, hrest⟩ := hh
    obtain ⟨hops, hQ⟩ := ih x (hp.2 x (hA _ List.mem_cons_self)) hrest
      (fun a ha => hA a (List.mem_cons_of_mem _ ha))
    refine ⟨fun a ha => ?_, hQ⟩
    rcases List.mem_cons.mp ha with rfl | ha
    · exact hp.1
    · exact hops a ha

/-- The requests of a program are those it can issue. -/
theorem Issues.history {P : Op → Prop} {p : Prog Op Res E α} (hp : p.Issues P) {r : Except E α}
    (hh : p.History H h r) : ∀ a ∈ h, P a.op := by
  induction p generalizing h with
  | ret a =>
    rw [hh.1]
    exact fun _ ha => absurd ha List.not_mem_nil
  | raise e =>
    rw [hh.1]
    exact fun _ ha => absurd ha List.not_mem_nil
  | call op k ih =>
    obtain ⟨s, x, s', rest, -, rfl, hrest⟩ := hh
    intro a ha
    rcases List.mem_cons.mp ha with rfl | ha
    · exact hp.1
    · exact ih x (hp.2 x) hrest a ha

end Rules

/-- **A program on its way**: after the history `h` it goes on as `p'`. -/
def Reaches (H : (op : Op) → S → Except E (Res op) → S → Prop) :
    Prog Op Res E α → List (Asked Op Res E S) → Prog Op Res E α → Prop
  | .ret a, h, p' => h = [] ∧ p' = .ret a
  | .raise e, h, p' => h = [] ∧ p' = .raise e
  | .call op k, h, p' =>
    (h = [] ∧ p' = .call op k) ∨
      ∃ s x s' rest, H op s x s' ∧ h = ⟨s, op, x, s'⟩ :: rest ∧ Reaches H (k x) rest p'

section Reaches

variable {H : (op : Op) → S → Except E (Res op) → S → Prop} {h : List (Asked Op Res E S)}

theorem reaches_refl (p : Prog Op Res E α) : p.Reaches H [] p := by
  cases p with
  | ret a => exact ⟨rfl, rfl⟩
  | raise e => exact ⟨rfl, rfl⟩
  | call op k => exact .inl ⟨rfl, rfl⟩

/-- One request more. -/
theorem Reaches.snoc {p : Prog Op Res E α} {op : Op} {k : Except E (Res op) → Prog Op Res E α}
    (hp : p.Reaches H h (.call op k)) {s s' : S} {x : Except E (Res op)} (hx : H op s x s') :
    p.Reaches H (h ++ [⟨s, op, x, s'⟩]) (k x) := by
  induction p generalizing h with
  | ret a => cases hp.2
  | raise e => cases hp.2
  | call op' k' ih =>
    rcases hp with ⟨rfl, hcall⟩ | ⟨s₁, x₁, s₁', rest, hH, rfl, hrest⟩
    · obtain ⟨rfl, hk⟩ := call.inj hcall
      obtain rfl := eq_of_heq hk
      exact .inr ⟨s, x, s', [], hx, rfl, reaches_refl _⟩
    · exact .inr ⟨s₁, x₁, s₁', rest ++ [_], hH, rfl, ih x₁ hrest⟩

/-- A program that has come to its end has lived through its history. -/
theorem Reaches.history {p p' : Prog Op Res E α} {r : Except E α} (hp : p.Reaches H h p')
    (hend : p'.History H [] r) : p.History H h r := by
  induction p generalizing h with
  | ret a =>
    obtain ⟨rfl, rfl⟩ := hp
    exact hend
  | raise e =>
    obtain ⟨rfl, rfl⟩ := hp
    exact hend
  | call op k ih =>
    rcases hp with ⟨rfl, rfl⟩ | ⟨s, x, s', rest, hH, rfl, hrest⟩
    · exact hend
    · exact ⟨s, x, s', rest, hH, rfl, ih x hrest⟩

end Reaches

end Prog

/-- A tagged request, without its tag. -/
def Asked.untag {T Op : Type} {Res : Op → Type} {E S : Type}
    (a : Asked (T × Op) (fun x => Res x.2) E S) : Asked Op Res E S :=
  ⟨a.before, a.op.2, a.answer, a.after⟩

/-- The histories of a tagged program are those of the program. -/
theorem Prog.history_of_tag {T Op : Type} {Res : Op → Type} {E α S : Type}
    {H : (x : T × Op) → S → Except E (Res x.2) → S → Prop} (t : T) {p : Prog Op Res E α}
    {h : List (Asked (T × Op) (fun x => Res x.2) E S)} {r : Except E α}
    (hp : (p.tag t).History H h r) :
    p.History (fun op => H (t, op)) (h.map Asked.untag) r := by
  induction p generalizing h with
  | ret a =>
    obtain ⟨rfl, hr⟩ := hp
    exact ⟨rfl, hr⟩
  | raise e =>
    obtain ⟨rfl, hr⟩ := hp
    exact ⟨rfl, hr⟩
  | call op k ih =>
    obtain ⟨s, x, s', rest, hH, rfl, hrest⟩ := hp
    exact ⟨s, x, s', rest.map Asked.untag, hH, rfl, ih x hrest⟩

/-! ## The history of a call in a run of a pool -/

namespace Pool

variable {Op : Type} {Res : Op → Type} {E C S Call R Env : Type}

section Chronicle

variable (P : Pool Op Res E C S Call R Env)

/-- What the call running as `pid` is served. -/
def serves (pid : ℕ) (op : Op) (s : S) (x : Except E (Res op)) (s' : S) : Prop :=
  ∃ c, P.handler pid c op s = some (x, s')

/-- The request the call `pid` is served by a step. -/
def asked (pid : ℕ) (w : State Op Res E S Call R) :
    Label C Call Env → List (Asked Op Res E S)
  | .act q c =>
    if q = pid then
      match w.threads q with
      | some (_, .call op _) =>
        match P.handler q c op w.shared with
        | some x => [⟨w.shared, op, x.1, x.2⟩]
        | none => []
      | _ => []
    else []
  | _ => []

/-- **The history of the call `pid`** in the run of some labels from a state. -/
def historyOf (pid : ℕ) :
    State Op Res E S Call R → List (Label C Call Env) → List (Asked Op Res E S)
  | _, [] => []
  | w, l :: ls => P.asked pid w l ++ (P.step w l).elim [] (historyOf pid · ls)

/-- **The histories of all calls so far**: those in progress are on their way,
those that have answered have come to their end, and those to come have none. -/
structure Chronicle (w : State Op Res E S Call R) (hist : ℕ → List (Asked Op Res E S)) :
    Prop where
  pending : ∀ pid call p, w.threads pid = some (call, p) →
    (P.body call).Reaches (P.serves pid) (hist pid) p
  answered : ∀ x ∈ w.replies, (P.body x.call).History (P.serves x.pid) (hist x.pid) x.outcome
  unborn : ∀ pid, w.spawned ≤ pid → hist pid = []

variable {P}

theorem chronicle_idle (s : S) : Chronicle P (idle s) (fun _ => []) where
  pending _ _ _ h := nomatch h
  answered _ h := absurd h List.not_mem_nil
  unborn _ _ := rfl

/-- Letting a call continue as far as its history leads. -/
theorem Chronicle.land {w : State Op Res E S Call R} {hist : ℕ → List (Asked Op Res E S)}
    {pid : ℕ} {call : Call} {p : Prog Op Res E R}
    (h : Chronicle P { w with threads := Function.update w.threads pid none } hist)
    (hp : (P.body call).Reaches (P.serves pid) (hist pid) p) :
    Chronicle P (Pool.land w pid call p) hist := by
  have hreply : ∀ r : Except E R, (P.body call).History (P.serves pid) (hist pid) r →
      Chronicle P { w with
        threads := Function.update w.threads pid none
        replies := w.replies ++ [⟨pid, call, r, w.shared⟩] } hist := by
    intro r hr
    refine ⟨h.pending, fun x hx => ?_, h.unborn⟩
    rcases List.mem_append.mp hx with hx | hx
    · exact h.answered x hx
    · rw [List.mem_singleton.mp hx]
      exact hr
  cases p with
  | ret a => exact hreply (.ok a) (hp.history ⟨rfl, rfl⟩)
  | raise e => exact hreply (.error e) (hp.history ⟨rfl, rfl⟩)
  | call op k =>
    refine ⟨fun q call' p' hq => ?_, h.answered, h.unborn⟩
    replace hq : Function.update w.threads pid (some (call, .call op k)) q = some (call', p') := hq
    by_cases hqp : q = pid
    · subst hqp
      rw [Function.update_self] at hq
      obtain ⟨rfl, rfl⟩ := Prod.mk.inj (Option.some.inj hq)
      exact hp
    · rw [Function.update_of_ne hqp] at hq
      exact h.pending q call' p' ((Function.update_of_ne hqp _ _).trans hq)

/-- Taking a call out of the pool. -/
theorem Chronicle.remove {w : State Op Res E S Call R} {hist : ℕ → List (Asked Op Res E S)}
    (h : Chronicle P w hist) (pid : ℕ) :
    Chronicle P { w with threads := Function.update w.threads pid none } hist := by
  refine ⟨fun q call p hq => ?_, h.answered, h.unborn⟩
  by_cases hqp : q = pid
  · subst hqp
    cases (Function.update_self q none w.threads).symm.trans hq
  · exact h.pending q call p ((Function.update_of_ne hqp _ _).symm.trans hq)

/-- A step that asks nothing leaves the histories as they are. -/
theorem Chronicle.silent {w : State Op Res E S Call R} {l : Label C Call Env}
    {hist : ℕ → List (Asked Op Res E S)} {w' : State Op Res E S Call R}
    (hl : ∀ pid, P.asked pid w l = []) (h : Chronicle P w' hist) :
    Chronicle P w' (fun pid => hist pid ++ P.asked pid w l) := by
  have hsame : (fun pid => hist pid ++ P.asked pid w l) = hist := by
    funext pid
    rw [hl pid, List.append_nil]
  rw [hsame]
  exact h

/-- **A step appends what it asks to the history of the call that takes it.** -/
theorem Chronicle.step {w w' : State Op Res E S Call R} {l : Label C Call Env}
    {hist : ℕ → List (Asked Op Res E S)} (h : Chronicle P w hist) (ho : Orderly w)
    (hs : P.step w l = some w') : Chronicle P w' (fun pid => hist pid ++ P.asked pid w l) := by
  cases l with
  | spawn call =>
    refine Chronicle.silent (fun _ => rfl) ?_
    obtain rfl := Option.some.inj hs
    obtain ⟨hpending, hanswered, hunborn⟩ := h.remove w.spawned
    refine Chronicle.land (w := { w with spawned := w.spawned + 1 })
      ⟨hpending, hanswered, fun pid hpid => hunborn pid (Nat.le_of_succ_le hpid)⟩ ?_
    rw [h.unborn w.spawned (Nat.le_refl _)]
    exact Prog.reaches_refl _
  | act pid c =>
    simp only [Pool.step] at hs
    split at hs
    · rename_i call op k hth
      obtain ⟨⟨x, s'⟩, hH, rfl⟩ := Option.map_eq_some_iff.mp hs
      have hself : P.asked pid w (.act pid c) = [⟨w.shared, op, x, s'⟩] := by
        simp only [asked, if_true, hth, hH]
      have hother : ∀ q, q ≠ pid → P.asked q w (.act pid c) = [] :=
        fun q hq => if_neg (fun hpq => hq hpq.symm)
      have hrest : Chronicle P
          { w with
            shared := s'
            threads := Function.update w.threads pid none }
          (fun q => hist q ++ P.asked q w (.act pid c)) := by
        refine ⟨?_, ?_, ?_⟩
        · intro q call' p hq
          have hqp : q ≠ pid := by
            rintro rfl
            cases (Function.update_self q none w.threads).symm.trans hq
          rw [hother q hqp, List.append_nil]
          exact h.pending q call' p ((Function.update_of_ne hqp _ _).symm.trans hq)
        · intro y hy
          -- A call that has answered is not in progress.
          have hyp : y.pid ≠ pid := fun hyp => by
            have hnone := (ho.done y hy).2
            rw [hyp, hth] at hnone
            cases hnone
          rw [hother _ hyp, List.append_nil]
          exact h.answered y hy
        · intro q hq
          have hqp : q ≠ pid := fun hqp => by
            have hlt := ho.arrived pid (by simp [hth])
            exact Nat.not_lt.mpr hq (hqp ▸ hlt)
          rw [hother q hqp, List.append_nil]
          exact h.unborn q hq
      refine Chronicle.land (w := { w with shared := s' }) hrest ?_
      rw [hself]
      exact (h.pending pid call _ hth).snoc ⟨c, hH⟩
    · cases hs
  | crash pid =>
    refine Chronicle.silent (fun _ => rfl) ?_
    simp only [Pool.step] at hs
    split at hs
    · cases hs
    · obtain rfl := Option.some.inj hs
      obtain ⟨hpending, hanswered, hunborn⟩ := h.remove pid
      exact ⟨hpending, hanswered, hunborn⟩
  | env e =>
    refine Chronicle.silent (fun _ => rfl) ?_
    obtain ⟨s', -, rfl⟩ := Option.map_eq_some_iff.mp hs
    exact ⟨h.pending, h.answered, h.unborn⟩

variable {start : S → Prop}

/-- **A run appends to every history what it asks for the call.** -/
theorem Chronicle.run {w w' : State Op Res E S Call R} {ls : List (Label C Call Env)}
    {hist : ℕ → List (Asked Op Res E S)}
    (hreach : (P.machine start).Reach Machine.anyStep w) (h : Chronicle P w hist)
    (hs : (P.machine start).run w ls = some w') :
    Chronicle P w' (fun pid => hist pid ++ P.historyOf pid w ls) := by
  induction ls generalizing w hist with
  | nil =>
    obtain rfl := Option.some.inj hs
    have hsame : (fun pid => hist pid ++ P.historyOf pid w []) = hist :=
      funext (fun pid => List.append_nil _)
    rw [hsame]
    exact h
  | cons l ls ih =>
    obtain ⟨w₁, hl, hrest⟩ := Option.bind_eq_some_iff.mp hs
    have hnext := ih (hreach.next trivial hl) (h.step (reach_orderly hreach) hl) hrest
    have hsame : (fun pid => (hist pid ++ P.asked pid w l) ++ P.historyOf pid w₁ ls)
        = fun pid => hist pid ++ P.historyOf pid w (l :: ls) := by
      funext pid
      have hstep : P.step w l = some w₁ := hl
      rw [historyOf, hstep, List.append_assoc]
      rfl
    exact hsame ▸ hnext

/-- **The history of a call that has answered** is one of its program, and ends
with the answer. -/
theorem history_of_reply {s : S} (hstart : start s) {ls : List (Label C Call Env)}
    {w : State Op Res E S Call R} (hs : (P.machine start).run (idle s) ls = some w) :
    ∀ x ∈ w.replies, (P.body x.call).History (P.serves x.pid) (P.historyOf x.pid (idle s) ls)
      x.outcome :=
  (Chronicle.run (.of_init ⟨s, hstart, rfl⟩) (chronicle_idle s) hs).answered

/-- The history of a call that arrives later begins then. -/
theorem history_of_later_reply {s : S} (hstart : start s) {ls ls' : List (Label C Call Env)}
    {w w' : State Op Res E S Call R} (hs : (P.machine start).run (idle s) ls = some w)
    (hs' : (P.machine start).run w ls' = some w') :
    ∀ x ∈ w'.replies, w.spawned ≤ x.pid →
      (P.body x.call).History (P.serves x.pid) (P.historyOf x.pid w ls') x.outcome := by
  intro x hx hlater
  have hinit : (P.machine start).Reach Machine.anyStep (idle s) := .of_init ⟨s, hstart, rfl⟩
  have hfirst := Chronicle.run hinit (chronicle_idle s) hs
  have hboth := Chronicle.run (hinit.steps (Machine.steps_of_run hs)) hfirst hs'
  have hnone := hfirst.unborn x.pid hlater
  have hh := hboth.answered x hx
  rw [hnone, List.nil_append] at hh
  exact hh

/-- **A request of a history is issued in a state of the run.** -/
theorem mem_historyOf {pid : ℕ} {w w' : State Op Res E S Call R} {ls : List (Label C Call Env)}
    (hs : (P.machine start).run w ls = some w') {a : Asked Op Res E S}
    (ha : a ∈ P.historyOf pid w ls) :
    ∃ v, (P.machine start).Steps Machine.anyStep w v ∧ a.before = v.shared := by
  induction ls generalizing w with
  | nil => exact absurd ha List.not_mem_nil
  | cons l ls ih =>
    obtain ⟨w₁, hl, hrest⟩ := Option.bind_eq_some_iff.mp hs
    have hstep : P.step w l = some w₁ := hl
    rw [historyOf, hstep] at ha
    rcases List.mem_append.mp ha with hnow | hlater
    · refine ⟨w, Relation.ReflTransGen.refl, ?_⟩
      unfold asked at hnow
      split at hnow
      · split at hnow
        · split at hnow
          · split at hnow
            · rw [List.mem_singleton.mp hnow]
            · cases hnow
          · cases hnow
        · cases hnow
      · cases hnow
    · obtain ⟨v, hv, hbefore⟩ := ih hrest hlater
      exact ⟨v, hv.head ⟨l, trivial, hl⟩, hbefore⟩

end Chronicle

end Pool
