import Mathlib.Data.Nat.Notation
import Mathlib.Logic.Function.Basic
import AgentPlatform.Transition
import AgentPlatform.Program

/-!
# Many programs over one shared state

A service answers many calls at once. Each call is a program of
`AgentPlatform.Program`; between two of its requests any other call may issue
requests of its own, new calls may arrive, a call may be abandoned – its
process crashed or was cancelled – and the environment may change the shared
state. `Pool.machine` is the transition system of all these steps, so a run
of it is one interleaving of an unbounded number of calls.

A call that ends leaves the pool at once. What it answered is kept in
`replies`, together with the shared state it left behind, so that a property
of an answer can speak of the state at the moment of the answer.

`Pool.reach_safe` is the rule that makes the interleavings tractable: if each
call is safe on its own under a rely, and each request of a call, each
arrival, each crash and each step of the environment respects the relies of
all the others, then every call stays safe in every reachable state, the
shared invariant holds and every reply met its postcondition.
-/

/-- **A pool of calls over a shared state**: what a request of the call
running as `pid` does under a choice of the environment, the program of each
call, what abandoning a call does, and what the environment can do. -/
structure Pool (Op : Type) (Res : Op → Type) (E C S Call R Env : Type) where
  /-- One request of the call running as `pid`. -/
  handler : ℕ → C → (op : Op) → S → Option (Except E (Res op) × S)
  /-- The program of a call. -/
  body : Call → Prog Op Res E R
  /-- What becomes of the shared state when the call running as `pid` is
  abandoned. -/
  abandon : ℕ → S → S
  /-- A step of the environment. -/
  env : Env → S → Option S

namespace Pool

variable {Op : Type} {Res : Op → Type} {E C S Call R Env : Type}

/-- An answered call: who ran it, the call, its outcome, and the shared state
then. -/
structure Reply (E S Call R : Type) where
  pid : ℕ
  call : Call
  outcome : Except E R
  state : S

/-- **A state of the pool**: the shared state, how many calls have arrived,
those still in progress and the replies given so far. Calls are numbered in
the order of their arrival. -/
structure State (Op : Type) (Res : Op → Type) (E S Call R : Type) where
  shared : S
  spawned : ℕ
  threads : ℕ → Option (Call × Prog Op Res E R)
  replies : List (Reply E S Call R)

/-- What can happen next. -/
inductive Label (C Call Env : Type) where
  | spawn (call : Call)
  | act (pid : ℕ) (c : C)
  | crash (pid : ℕ)
  | env (e : Env)

/-- Let the call running as `pid` continue as `p`, answering if `p` is
finished. -/
def land (w : State Op Res E S Call R) (pid : ℕ) (call : Call)
    (p : Prog Op Res E R) : State Op Res E S Call R :=
  match p with
  | .ret a =>
    { w with
      threads := Function.update w.threads pid none
      replies := w.replies ++ [⟨pid, call, .ok a, w.shared⟩] }
  | .raise e =>
    { w with
      threads := Function.update w.threads pid none
      replies := w.replies ++ [⟨pid, call, .error e, w.shared⟩] }
  | .call op k =>
    { w with threads := Function.update w.threads pid (some (call, .call op k)) }

/-- One step of the pool. -/
def step (P : Pool Op Res E C S Call R Env) (w : State Op Res E S Call R) :
    Label C Call Env → Option (State Op Res E S Call R)
  | .spawn call =>
    some (land { w with spawned := w.spawned + 1 } w.spawned call (P.body call))
  | .act pid c =>
    match w.threads pid with
    | some (call, .call op k) =>
      (P.handler pid c op w.shared).map
        (fun x => land { w with shared := x.2 } pid call (k x.1))
    | _ => none
  | .crash pid =>
    match w.threads pid with
    | none => none
    | some _ =>
      some { w with
        shared := P.abandon pid w.shared
        threads := Function.update w.threads pid none }
  | .env e => (P.env e w.shared).map (fun s => { w with shared := s })

/-- The state with nothing in progress. -/
def idle (s : S) : State Op Res E S Call R := ⟨s, 0, fun _ => none, []⟩

/-- **The transition system of a pool**, starting idle in a shared state that
satisfies `start`. -/
def machine (P : Pool Op Res E C S Call R Env) (start : S → Prop) :
    Machine (State Op Res E S Call R) (Label C Call Env) where
  init w := ∃ s, start s ∧ w = idle s
  step := P.step

@[simp] theorem land_shared (w : State Op Res E S Call R) (pid : ℕ) (call : Call)
    (p : Prog Op Res E R) : (land w pid call p).shared = w.shared := by
  cases p <;> rfl

/-! ## The condition on a request, as a condition on steps -/

/-- **A condition on requests, read as one on the steps of the pool**: an
`act` is admitted when the request it performs is, an arrival when its call
is, a step of the environment when it is. -/
def stepOk (accept : S → Call → Prop) (allow : ℕ → C → Op → S → Prop)
    (envOk : S → Env → Prop) (w : State Op Res E S Call R) :
    Label C Call Env → Prop
  | .spawn call => accept w.shared call
  | .act pid c =>
    ∀ call op k, w.threads pid = some (call, .call op k) →
      allow pid c op w.shared
  | .crash _ => True
  | .env e => envOk w.shared e

/-- Steps that meet a condition meet a weaker one. -/
theorem stepOk.mono {accept accept' : S → Call → Prop} {allow allow' : ℕ → C → Op → S → Prop}
    {envOk envOk' : S → Env → Prop} (haccept : ∀ s call, accept s call → accept' s call)
    (hallow : ∀ pid c op s, allow pid c op s → allow' pid c op s)
    (henv : ∀ s e, envOk s e → envOk' s e) {w : State Op Res E S Call R} {l : Label C Call Env}
    (h : stepOk accept allow envOk w l) : stepOk accept' allow' envOk' w l := by
  cases l with
  | spawn call => exact haccept _ _ h
  | act pid c => exact fun call op k hp => hallow _ _ _ _ (h call op k hp)
  | crash pid => trivial
  | env e => exact henv _ _ h

/-- Nothing is asked of a step. -/
theorem stepOk_any (w : State Op Res E S Call R) (l : Label C Call Env) :
    stepOk (fun _ _ => True) (fun _ _ _ _ => True) (fun _ _ => True) w l := by
  cases l with
  | act pid c => exact fun _ _ _ _ => trivial
  | _ => trivial

/-- A condition on steps can be tested where those on calls, requests and the
environment can. -/
instance stepOk.decidable {accept : S → Call → Prop} {allow : ℕ → C → Op → S → Prop}
    {envOk : S → Env → Prop} [∀ s call, Decidable (accept s call)]
    [∀ pid c op s, Decidable (allow pid c op s)] [∀ s e, Decidable (envOk s e)]
    (w : State Op Res E S Call R) (l : Label C Call Env) :
    Decidable (stepOk accept allow envOk w l) :=
  match l with
  | .spawn call => inferInstanceAs (Decidable (accept w.shared call))
  | .crash _ => isTrue trivial
  | .env e => inferInstanceAs (Decidable (envOk w.shared e))
  | .act pid c =>
    match hth : w.threads pid with
    | some (_, .call op _) => decidable_of_iff (allow pid c op w.shared)
        ⟨fun h _ _ _ hp => by
          cases hth.symm.trans hp
          exact h, fun h => h _ op _ hth⟩
    | some (_, .ret _) => isTrue (fun _ _ _ hp => by cases hth.symm.trans hp)
    | some (_, .raise _) => isTrue (fun _ _ _ hp => by cases hth.symm.trans hp)
    | none => isTrue (fun _ _ _ hp => by cases hth.symm.trans hp)

/-- A test of the requests of a run, as one of its steps. -/
def actTest (test : ℕ → C → Op → S → Bool) (w : State Op Res E S Call R) :
    Label C Call Env → Bool
  | .act pid c =>
    match w.threads pid with
    | some (_, .call op _) => test pid c op w.shared
    | _ => true
  | _ => true

theorem stepOk_of_actTest {test : ℕ → C → Op → S → Bool} {allow : ℕ → C → Op → S → Prop}
    (h : ∀ pid c op s, test pid c op s = true → allow pid c op s)
    (w : State Op Res E S Call R) (l : Label C Call Env) (hl : actTest test w l = true) :
    stepOk (fun _ _ => True) allow (fun _ _ => True) w l := by
  cases l with
  | act pid c =>
    intro call op k hth
    simp only [actTest, hth] at hl
    exact h pid c op w.shared hl
  | _ => trivial

/-! ## The rely-guarantee rule -/

/-- **What a family of relies must satisfy** for `Pool.reach_safe`: they
compose, a call that arrives finds its number unused and meets its
postcondition under its rely, and crashes and the environment respect every
rely and the invariant. -/
structure Discipline (P : Pool Op Res E C S Call R Env) (start : S → Prop)
    (accept : S → Call → Prop) (allow : ℕ → C → Op → S → Prop)
    (envOk : S → Env → Prop) where
  /-- The invariant of the shared state. -/
  inv : S → Prop
  /-- The shared state has not heard of `pid`. -/
  unused : ℕ → S → Prop
  /-- What the call running as `pid` relies on the others to do. -/
  rely : ℕ → S → S → Prop
  /-- What a reply satisfies. -/
  post : ℕ → Call → Except E R → S → Prop
  rely_refl : ∀ pid a, rely pid a a
  rely_trans : ∀ pid a b c, rely pid a b → rely pid b c → rely pid a c
  unused_rely : ∀ pid a b, unused pid a → rely pid a b → unused pid b
  start_ok : ∀ s, start s → inv s ∧ ∀ pid, unused pid s
  safe_body : ∀ pid s call, accept s call → inv s → unused pid s →
    (P.body call).Safe (Prog.Handled (P.handler pid) (allow pid))
      (fun a b => inv b ∧ rely pid a b)
      (fun a b => inv b ∧ ∀ q, q ≠ pid → rely q a b) (post pid call) s
  safe_crash : ∀ pid s, inv s →
    inv (P.abandon pid s) ∧ ∀ q, q ≠ pid → rely q s (P.abandon pid s)
  safe_env : ∀ e s s', envOk s e → inv s → P.env e s = some s' →
    inv s' ∧ ∀ q, rely q s s'

section Rule

variable {P : Pool Op Res E C S Call R Env} {start : S → Prop}
  {accept : S → Call → Prop} {allow : ℕ → C → Op → S → Prop}
  {envOk : S → Env → Prop}

/-- The call running as `pid` is safe for its postcondition. -/
def Discipline.SafeAt (D : Discipline P start accept allow envOk) (pid : ℕ)
    (call : Call) (p : Prog Op Res E R) (s : S) : Prop :=
  p.Safe (Prog.Handled (P.handler pid) (allow pid))
    (fun a b => D.inv b ∧ D.rely pid a b)
    (fun a b => D.inv b ∧ ∀ q, q ≠ pid → D.rely q a b) (D.post pid call) s

/-- **A call in progress is in order**: it has arrived, waits at a request and
is safe. -/
def Discipline.Waiting (D : Discipline P start accept allow envOk)
    (spawned : ℕ) (s : S) (pid : ℕ) (call : Call) (p : Prog Op Res E R) : Prop :=
  pid < spawned ∧ (∃ op k, p = .call op k) ∧ D.SafeAt pid call p s

/-- **What holds of a whole pool**: the invariant, the order of every call in
progress, the postcondition of every reply, and that the numbers of calls to
come are unused. -/
structure Discipline.Good (D : Discipline P start accept allow envOk)
    (w : State Op Res E S Call R) : Prop where
  inv : D.inv w.shared
  unused : ∀ pid, w.spawned ≤ pid → D.unused pid w.shared
  threads : ∀ pid call p, w.threads pid = some (call, p) →
    D.Waiting w.spawned w.shared pid call p
  replies : ∀ x ∈ w.replies, D.post x.pid x.call x.outcome x.state

/-- Interference the others rely on keeps their programs in order. -/
theorem Discipline.waiting_of_rely (D : Discipline P start accept allow envOk)
    {w : State Op Res E S Call R} (h : D.Good w) {s' : S} (hinv : D.inv s')
    {pid : ℕ} (hrely : D.rely pid w.shared s') {call : Call}
    {p : Prog Op Res E R} (hp : w.threads pid = some (call, p)) :
    D.Waiting w.spawned s' pid call p := by
  obtain ⟨hlt, ⟨op, k, rfl⟩, hs⟩ := h.threads pid call p hp
  refine ⟨hlt, ⟨op, k, rfl⟩, Prog.Safe.of_rely ?_ hs ⟨hinv, hrely⟩⟩
  rintro a b c ⟨-, hab⟩ ⟨hc, hbc⟩
  exact ⟨hc, D.rely_trans pid a b c hab hbc⟩

/-- Letting a safe call continue keeps the pool good. -/
theorem Discipline.good_land (D : Discipline P start accept allow envOk)
    {w : State Op Res E S Call R} {pid : ℕ} {call : Call}
    {p : Prog Op Res E R} (hinv : D.inv w.shared)
    (hunused : ∀ q, w.spawned ≤ q → D.unused q w.shared)
    (hothers : ∀ q call' p', q ≠ pid → w.threads q = some (call', p') →
      D.Waiting w.spawned w.shared q call' p')
    (hreplies : ∀ x ∈ w.replies, D.post x.pid x.call x.outcome x.state)
    (hpid : pid < w.spawned) (hp : D.SafeAt pid call p w.shared) :
    D.Good (land w pid call p) := by
  have hupd : ∀ (t : Option (Call × Prog Op Res E R)) q call' p',
      (∀ call'' p'', t = some (call'', p'') →
        D.Waiting w.spawned w.shared pid call'' p'') →
      Function.update w.threads pid t q = some (call', p') →
      D.Waiting w.spawned w.shared q call' p' := by
    intro t q call' p' ht hq
    by_cases hqp : q = pid
    · subst hqp
      rw [Function.update_self] at hq
      exact ht call' p' hq
    · rw [Function.update_of_ne hqp] at hq
      exact hothers q call' p' hqp hq
  have hreply : ∀ r, D.post pid call r w.shared →
      ∀ x ∈ w.replies ++ [Reply.mk pid call r w.shared],
        D.post x.pid x.call x.outcome x.state := by
    intro r hr x hx
    rcases List.mem_append.mp hx with hx | hx
    · exact hreplies x hx
    · obtain rfl := List.mem_singleton.mp hx
      exact hr
  cases p with
  | ret a =>
    exact ⟨hinv, hunused, fun q call' p' hq => hupd none q call' p' (by simp) hq,
      hreply _ hp⟩
  | raise e =>
    exact ⟨hinv, hunused, fun q call' p' hq => hupd none q call' p' (by simp) hq,
      hreply _ hp⟩
  | call op k =>
    refine ⟨hinv, hunused, fun q call' p' hq => hupd _ q call' p' ?_ hq, hreplies⟩
    rintro call'' p'' ht
    obtain ⟨rfl, rfl⟩ := Prod.mk.inj (Option.some.inj ht)
    exact ⟨hpid, ⟨op, k, rfl⟩, hp⟩

/-- **One step of the pool keeps it good.** -/
theorem Discipline.good_step (D : Discipline P start accept allow envOk)
    {w w' : State Op Res E S Call R} {l : Label C Call Env} (h : D.Good w)
    (hok : stepOk accept allow envOk w l) (hs : P.step w l = some w') :
    D.Good w' := by
  cases l with
  | spawn call =>
    obtain rfl := Option.some.inj hs
    refine D.good_land (w := { w with spawned := w.spawned + 1 }) h.inv ?_ ?_
      h.replies (Nat.lt_succ_self _)
      (D.safe_body w.spawned w.shared call hok h.inv (h.unused _ (Nat.le_refl _)))
    · intro q hq
      exact h.unused q (Nat.le_of_succ_le hq)
    · intro q call' p' _ hp
      obtain ⟨hlt, hw⟩ := h.threads q call' p' hp
      exact ⟨Nat.lt_succ_of_lt hlt, hw⟩
  | act pid c =>
    simp only [step] at hs
    split at hs
    · rename_i call op k hth
      obtain ⟨⟨r, s'⟩, hH, rfl⟩ := Option.map_eq_some_iff.mp hs
      obtain ⟨hlt, -, hsafe⟩ := h.threads pid call _ hth
      obtain ⟨⟨hinv, hguar⟩, hnext⟩ := hsafe w.shared
        ⟨h.inv, D.rely_refl pid _⟩ r s' ⟨c, hok call op k hth, hH⟩
      refine D.good_land (w := { w with shared := s' }) hinv ?_
        (fun q call' p' hq hp => D.waiting_of_rely h hinv (hguar q hq) hp)
        h.replies hlt hnext
      intro q hq
      exact D.unused_rely q _ _ (h.unused q hq)
        (hguar q (Nat.ne_of_gt (Nat.lt_of_lt_of_le hlt hq)))
    · cases hs
  | crash pid =>
    simp only [step] at hs
    split at hs
    · cases hs
    · rename_i t hth
      obtain rfl := Option.some.inj hs
      obtain ⟨hinv, hguar⟩ := D.safe_crash pid w.shared h.inv
      have hlt : pid < w.spawned := (h.threads pid t.1 t.2 hth).1
      refine ⟨hinv, fun q hq => ?_, fun q call' p' hq => ?_, h.replies⟩
      · exact D.unused_rely q _ _ (h.unused q hq)
          (hguar q (Nat.ne_of_gt (Nat.lt_of_lt_of_le hlt hq)))
      · by_cases hqp : q = pid
        · subst hqp
          simp at hq
        · simp only [Function.update_of_ne hqp] at hq
          exact D.waiting_of_rely h hinv (hguar q hqp) hq
  | env e =>
    obtain ⟨s', hE, rfl⟩ := Option.map_eq_some_iff.mp hs
    obtain ⟨hinv, hguar⟩ := D.safe_env e w.shared s' hok h.inv hE
    exact ⟨hinv, fun q hq => D.unused_rely q _ _ (h.unused q hq) (hguar q),
      fun q call' p' hq => D.waiting_of_rely h hinv (hguar q) hq, h.replies⟩

/-- Any run will do where nothing is asked of its steps. -/
theorem reach_any {w : State Op Res E S Call R}
    (h : (P.machine start).Reach Machine.anyStep w) : (P.machine start).Reach
      (stepOk (fun _ _ => True) (fun _ _ _ _ => True) (fun _ _ => True)) w :=
  h.mono (fun v l _ => stepOk_any v l)

/-- **The rely-guarantee rule**: every reachable pool is good. -/
theorem reach_safe (D : Discipline P start accept allow envOk)
    {w : State Op Res E S Call R}
    (h : (P.machine start).Reach (stepOk accept allow envOk) w) : D.Good w := by
  refine Machine.Reach.invariant (I := D.Good) ?_ ?_ h
  · rintro _ ⟨s, hs, rfl⟩
    obtain ⟨hinv, hunused⟩ := D.start_ok s hs
    refine ⟨hinv, fun pid _ => hunused pid, ?_, ?_⟩
    · intro pid call p hp
      cases hp
    · intro x hx
      cases hx
  · intro w l w' _ hg hok hs
    exact D.good_step hg hok hs

/-- A step is interference for every call that is not in progress. -/
theorem Discipline.step_rely_of_done (D : Discipline P start accept allow envOk)
    {w w' : State Op Res E S Call R} {l : Label C Call Env} (h : D.Good w)
    (hok : stepOk accept allow envOk w l) (hs : P.step w l = some w') {q : ℕ}
    (hq : w.threads q = none) : D.rely q w.shared w'.shared := by
  cases l with
  | spawn call =>
    obtain rfl := Option.some.inj hs
    simpa using D.rely_refl q w.shared
  | act pid c =>
    simp only [step] at hs
    split at hs
    · rename_i call op k hth
      obtain ⟨⟨r, s'⟩, hH, rfl⟩ := Option.map_eq_some_iff.mp hs
      obtain ⟨-, -, hsafe⟩ := h.threads pid call _ hth
      obtain ⟨⟨-, hguar⟩, -⟩ := hsafe w.shared
        ⟨h.inv, D.rely_refl pid _⟩ r s' ⟨c, hok call op k hth, hH⟩
      have hqp : q ≠ pid := by
        intro hqp
        rw [hqp, hth] at hq
        cases hq
      simpa using hguar q hqp
    · cases hs
  | crash pid =>
    simp only [step] at hs
    split at hs
    · cases hs
    · rename_i t hth
      obtain rfl := Option.some.inj hs
      have hqp : q ≠ pid := by
        intro hqp
        rw [hqp, hth] at hq
        cases hq
      exact (D.safe_crash pid w.shared h.inv).2 q hqp
  | env e =>
    obtain ⟨s', hE, rfl⟩ := Option.map_eq_some_iff.mp hs
    exact (D.safe_env e w.shared s' hok h.inv hE).2 q

/-- Every step of the pool is interference some call could rely on. -/
theorem Discipline.step_rely (D : Discipline P start accept allow envOk)
    {w w' : State Op Res E S Call R} {l : Label C Call Env} (h : D.Good w)
    (hok : stepOk accept allow envOk w l) (hs : P.step w l = some w') :
    ∃ q, D.rely q w.shared w'.shared := by
  -- The next number is not in progress.
  refine ⟨w.spawned, D.step_rely_of_done h hok hs ?_⟩
  cases hth : w.threads w.spawned with
  | none => rfl
  | some t => exact absurd (h.threads _ t.1 t.2 hth).1 (Nat.lt_irrefl _)

/-- Letting a call continue adds at most a reply given in the present state. -/
theorem land_replies (w : State Op Res E S Call R) (pid : ℕ) (call : Call)
    (p : Prog Op Res E R) : ∃ added, (land w pid call p).replies = w.replies ++ added
      ∧ ∀ x ∈ added, x.state = w.shared := by
  cases p with
  | ret a => exact ⟨_, rfl, by simp⟩
  | raise e => exact ⟨_, rfl, by simp⟩
  | call op k => exact ⟨[], (List.append_nil _).symm, by simp⟩

/-- One step keeps the replies, and adds at most one given in the state it leads
to. -/
theorem step_replies {w w' : State Op Res E S Call R} {l : Label C Call Env}
    (hs : P.step w l = some w') : ∃ added, w'.replies = w.replies ++ added
      ∧ ∀ x ∈ added, x.state = w'.shared := by
  cases l with
  | spawn call =>
    obtain rfl := Option.some.inj hs
    simpa using land_replies { w with spawned := w.spawned + 1 } _ call _
  | act pid c =>
    simp only [step] at hs
    split at hs
    · obtain ⟨y, -, rfl⟩ := Option.map_eq_some_iff.mp hs
      simpa using land_replies { w with shared := y.2 } pid _ _
    · cases hs
  | crash pid =>
    simp only [step] at hs
    split at hs
    · cases hs
    · obtain rfl := Option.some.inj hs
      exact ⟨[], (List.append_nil _).symm, by simp⟩
  | env e =>
    obtain ⟨s', -, rfl⟩ := Option.map_eq_some_iff.mp hs
    exact ⟨[], (List.append_nil _).symm, by simp⟩

theorem mem_replies_step {w w' : State Op Res E S Call R} {l : Label C Call Env}
    (hs : P.step w l = some w') {x : Reply E S Call R} (hx : x ∈ w'.replies) :
    x ∈ w.replies ∨ x.state = w'.shared := by
  obtain ⟨added, hadded, hstate⟩ := step_replies hs
  rw [hadded] at hx
  exact (List.mem_append.mp hx).imp_right (hstate x)

/-- Replies are kept, in their order. -/
theorem replies_prefix_step {w w' : State Op Res E S Call R} {l : Label C Call Env}
    (hs : P.step w l = some w') : w.replies <+: w'.replies := by
  obtain ⟨added, hadded, -⟩ := step_replies hs
  exact ⟨added, hadded.symm⟩

/-- **What every rely keeps, holds from a reply on.** -/
theorem Discipline.reply_rel (D : Discipline P start accept allow envOk)
    {G : S → S → Prop} (hrefl : ∀ a, G a a) (htrans : ∀ a b c, G a b → G b c → G a c)
    (hG : ∀ q a b, D.rely q a b → G a b) {w : State Op Res E S Call R}
    (h : (P.machine start).Reach (stepOk accept allow envOk) w) :
    ∀ x ∈ w.replies, G x.state w.shared := by
  refine Machine.Reach.invariant (M := P.machine start)
    (I := fun w => ∀ x ∈ w.replies, G x.state w.shared) ?_ ?_ h
  · rintro _ ⟨s, -, rfl⟩ x hx
    cases hx
  · intro w l w' hreach ih hok hs x hx
    obtain ⟨q, hq⟩ := D.step_rely (reach_safe D hreach) hok hs
    rcases mem_replies_step hs hx with hx | hx
    · exact htrans _ _ _ (ih x hx) (hG q _ _ hq)
    · rw [hx]
      exact hrefl _

/-- **The invariant holds in the state of every reply.** -/
theorem Discipline.reply_inv (D : Discipline P start accept allow envOk)
    {w : State Op Res E S Call R} (h : (P.machine start).Reach (stepOk accept allow envOk) w) :
    ∀ x ∈ w.replies, D.inv x.state := by
  refine Machine.Reach.invariant (M := P.machine start)
    (I := fun w => ∀ x ∈ w.replies, D.inv x.state) ?_ ?_ h
  · rintro _ ⟨s, -, rfl⟩ x hx
    cases hx
  · intro w l w' hreach ih hok hs x hx
    rcases mem_replies_step hs hx with hx | hx
    · exact ih x hx
    · rw [hx]
      exact (D.good_step (reach_safe D hreach) hok hs).inv

/-! ## A call answers once -/

/-- **The order of a pool**: the calls in progress have arrived, and an answered
call is no longer in progress and has answered once. -/
structure Orderly (w : State Op Res E S Call R) : Prop where
  arrived : ∀ pid, w.threads pid ≠ none → pid < w.spawned
  done : ∀ x ∈ w.replies, x.pid < w.spawned ∧ w.threads x.pid = none
  once : (w.replies.map Reply.pid).Nodup

/-- Letting a call continue keeps the order, if it has not answered. -/
theorem Orderly.land {w : State Op Res E S Call R} {pid : ℕ} {call : Call}
    {p : Prog Op Res E R} (h : Orderly { w with threads := Function.update w.threads pid none })
    (hpid : pid < w.spawned) (hnew : ∀ x ∈ w.replies, x.pid ≠ pid) :
    Orderly (Pool.land w pid call p) := by
  have hreply : ∀ r : Except E R, Orderly { w with
      threads := Function.update w.threads pid none
      replies := w.replies ++ [⟨pid, call, r, w.shared⟩] } := by
    intro r
    refine ⟨h.arrived, ?_, ?_⟩
    · intro x hx
      rcases List.mem_append.mp hx with hx | hx
      · exact h.done x hx
      · rw [List.mem_singleton.mp hx]
        exact ⟨hpid, Function.update_self pid none w.threads⟩
    · rw [List.map_append, List.nodup_append]
      refine ⟨h.once, by simp, ?_⟩
      intro a ha b hb
      obtain ⟨x, hx, rfl⟩ := List.mem_map.mp ha
      rw [List.map_singleton, List.mem_singleton] at hb
      rw [hb]
      exact hnew x hx
  cases p with
  | ret a => exact hreply (.ok a)
  | raise e => exact hreply (.error e)
  | call op k =>
    refine ⟨?_, ?_, h.once⟩
    · intro q hq
      by_cases hqp : q = pid
      · rw [hqp]
        exact hpid
      · refine h.arrived q ?_
        show Function.update w.threads pid none q ≠ none
        rw [Function.update_of_ne hqp]
        exact fun hnone => hq ((Function.update_of_ne hqp _ _).trans hnone)
    · intro x hx
      obtain ⟨hlt, hdone⟩ := h.done x hx
      have hxp := hnew x hx
      refine ⟨hlt, ?_⟩
      show Function.update w.threads pid _ x.pid = none
      rw [Function.update_of_ne hxp]
      exact (Function.update_of_ne hxp _ _).symm.trans hdone

/-- Taking a call out of the pool keeps the order. -/
theorem Orderly.remove {w : State Op Res E S Call R} (h : Orderly w) (pid : ℕ) :
    Orderly { w with threads := Function.update w.threads pid none } := by
  have hother : ∀ q, Function.update w.threads pid none q ≠ none → w.threads q ≠ none := by
    intro q hq hnone
    by_cases hqp : q = pid
    · exact hq (by rw [hqp, Function.update_self])
    · exact hq ((Function.update_of_ne hqp _ _).trans hnone)
  refine ⟨fun q hq => h.arrived q (hother q hq), fun x hx => ⟨(h.done x hx).1, ?_⟩, h.once⟩
  by_contra hne
  exact hother x.pid hne (h.done x hx).2

/-- **In every reachable pool a call has answered at most once.** -/
theorem reach_orderly {ok : State Op Res E S Call R → Label C Call Env → Prop}
    {w : State Op Res E S Call R} (h : (P.machine start).Reach ok w) : Orderly w := by
  refine Machine.Reach.invariant (I := Orderly) ?_ ?_ h
  · rintro _ ⟨s, -, rfl⟩
    refine ⟨fun pid hpid => absurd rfl hpid, fun x hx => absurd hx List.not_mem_nil, ?_⟩
    exact List.nodup_nil
  · intro w l w' _ ho _ hs
    cases l with
    | spawn call =>
      obtain rfl := Option.some.inj hs
      refine Orderly.land (w := { w with spawned := w.spawned + 1 }) ?_ (Nat.lt_succ_self _) ?_
      · obtain ⟨harr, hdone, honce⟩ := ho.remove w.spawned
        exact ⟨fun q hq => Nat.lt_succ_of_lt (harr q hq),
          fun x hx => ⟨Nat.lt_succ_of_lt (hdone x hx).1, (hdone x hx).2⟩, honce⟩
      · intro x hx
        exact Nat.ne_of_lt (ho.done x hx).1
    | act pid c =>
      simp only [machine, step] at hs
      split at hs
      · rename_i call op k hth
        obtain ⟨x, -, rfl⟩ := Option.map_eq_some_iff.mp hs
        have hlt := ho.arrived pid (by rw [hth]; simp)
        obtain ⟨harr, hdone, honce⟩ := ho.remove pid
        refine Orderly.land (w := { w with shared := x.2 }) ⟨harr, hdone, honce⟩ hlt ?_
        -- A call that has answered is not in progress.
        intro y hy hyp
        have hnone := (ho.done y hy).2
        rw [hyp, hth] at hnone
        cases hnone
      · cases hs
    | crash pid =>
      simp only [machine, step] at hs
      split at hs
      · cases hs
      · obtain rfl := Option.some.inj hs
        obtain ⟨harr, hdone, honce⟩ := ho.remove pid
        exact ⟨harr, hdone, honce⟩
    | env e =>
      obtain ⟨s', -, rfl⟩ := Option.map_eq_some_iff.mp hs
      exact ⟨ho.arrived, ho.done, ho.once⟩

/-- **What the others respect for a call, holds from its reply on.** -/
theorem Discipline.reply_rely (D : Discipline P start accept allow envOk)
    {w : State Op Res E S Call R} (h : (P.machine start).Reach (stepOk accept allow envOk) w) :
    ∀ x ∈ w.replies, D.rely x.pid x.state w.shared := by
  refine Machine.Reach.invariant (M := P.machine start)
    (I := fun w => ∀ x ∈ w.replies, D.rely x.pid x.state w.shared) ?_ ?_ h
  · rintro _ ⟨s, -, rfl⟩ x hx
    cases hx
  · intro w l w' hreach ih hok hs x hx
    rcases mem_replies_step hs hx with hold | hnew
    · have hdone := ((reach_orderly hreach).done x hold).2
      exact D.rely_trans _ _ _ _ (ih x hold)
        (D.step_rely_of_done (reach_safe D hreach) hok hs hdone)
    · rw [hnew]
      exact D.rely_refl _ _

/-- A call that leaves the pool has answered in the state it left, or was
abandoned. -/
theorem left_of_step {w w' : State Op Res E S Call R} {l : Label C Call Env}
    (hs : P.step w l = some w') {q : ℕ} (hq : w.threads q ≠ none) (hq' : w'.threads q = none) :
    (∃ x ∈ w'.replies, x.pid = q ∧ x.state = w'.shared)
      ∨ (l = .crash q ∧ w'.shared = P.abandon q w.shared) := by
  have hland : ∀ (v : State Op Res E S Call R) (pid : ℕ) (call : Call) (p : Prog Op Res E R),
      v.threads q ≠ none → (land v pid call p).threads q = none →
      ∃ x ∈ (land v pid call p).replies, x.pid = q ∧ x.state = (land v pid call p).shared := by
    intro v pid call p hv hl
    by_cases hqp : q = pid
    · subst hqp
      cases p with
      | ret a => exact ⟨_, List.mem_append_right _ List.mem_cons_self, rfl, rfl⟩
      | raise e => exact ⟨_, List.mem_append_right _ List.mem_cons_self, rfl, rfl⟩
      | call op k => simp [land] at hl
    · cases p with
      | ret a => exact absurd ((Function.update_of_ne hqp _ _).symm.trans hl) hv
      | raise e => exact absurd ((Function.update_of_ne hqp _ _).symm.trans hl) hv
      | call op k => exact absurd ((Function.update_of_ne hqp _ _).symm.trans hl) hv
  cases l with
  | spawn call =>
    obtain rfl := Option.some.inj hs
    exact .inl (hland { w with spawned := w.spawned + 1 } _ _ _ hq hq')
  | act pid c =>
    simp only [step] at hs
    split at hs
    · obtain ⟨x, -, rfl⟩ := Option.map_eq_some_iff.mp hs
      exact .inl (hland { w with shared := x.2 } _ _ _ hq hq')
    · cases hs
  | crash pid =>
    simp only [step] at hs
    split at hs
    · cases hs
    · obtain rfl := Option.some.inj hs
      by_cases hqp : q = pid
      · exact .inr (by rw [hqp]; exact ⟨rfl, rfl⟩)
      · exact absurd ((Function.update_of_ne hqp _ _).symm.trans hq') hq
  | env e =>
    obtain ⟨s', -, rfl⟩ := Option.map_eq_some_iff.mp hs
    exact absurd hq' hq

/-- **A number that is not in progress has let go**: what is true of a number never
used, of a call that has answered and of one that was abandoned by a step the run
admits, and what the others respect, is true of every number that is not in
progress. -/
theorem Discipline.gone_of (D : Discipline P start accept allow envOk)
    {ok : State Op Res E S Call R → Label C Call Env → Prop} {G : ℕ → S → Prop}
    (hle : ∀ w l, ok w l → stepOk accept allow envOk w l)
    (hunused : ∀ q s, D.unused q s → G q s) (hrely : ∀ q a b, G q a → D.rely q a b → G q b)
    (hpost : ∀ q call r s, D.post q call r s → G q s)
    (hcrash : ∀ w q, ok w (.crash q) → D.inv w.shared → G q (P.abandon q w.shared))
    {w : State Op Res E S Call R} (h : (P.machine start).Reach ok w) :
    ∀ q, w.threads q = none → G q w.shared := by
  refine Machine.Reach.invariant (M := P.machine start)
    (I := fun w => ∀ q, w.threads q = none → G q w.shared) ?_ ?_ h
  · rintro _ ⟨s, hs, rfl⟩ q -
    exact hunused q s ((D.start_ok s hs).2 q)
  · intro w l w' hreach ih hok hs q hq'
    have hgood := reach_safe D (hreach.mono hle)
    by_cases hq : w.threads q = none
    · exact hrely q _ _ (ih q hq) (D.step_rely_of_done hgood (hle w l hok) hs hq)
    · rcases left_of_step hs hq hq' with ⟨x, hx, rfl, hstate⟩ | ⟨hl, hcrashed⟩
      · exact hstate ▸ hpost _ _ _ _ ((D.good_step hgood (hle w l hok) hs).replies x hx)
      · exact hcrashed ▸ hcrash w q (hl ▸ hok) hgood.inv

/-- The same where every crash is admitted. -/
theorem Discipline.gone (D : Discipline P start accept allow envOk) {G : ℕ → S → Prop}
    (hunused : ∀ q s, D.unused q s → G q s) (hrely : ∀ q a b, G q a → D.rely q a b → G q b)
    (hpost : ∀ q call r s, D.post q call r s → G q s)
    (hcrash : ∀ q s, D.inv s → G q (P.abandon q s)) {w : State Op Res E S Call R}
    (h : (P.machine start).Reach (stepOk accept allow envOk) w) :
    ∀ q, w.threads q = none → G q w.shared :=
  D.gone_of (fun _ _ hok => hok) hunused hrely hpost (fun w q _ => hcrash q w.shared) h

/-! ## Runs without crashes -/

/-- A step that is no crash. -/
def Label.isLive : Label C Call Env → Prop
  | .crash _ => False
  | _ => True

/-- The pool in which nothing happens to the shared state when a call is
abandoned. -/
def crashless (P : Pool Op Res E C S Call R Env) : Pool Op Res E C S Call R Env :=
  { P with abandon := fun _ s => s }

theorem step_crashless {w : State Op Res E S Call R} {l : Label C Call Env} (hl : l.isLive) :
    P.crashless.step w l = P.step w l := by
  cases l with
  | crash pid => exact hl.elim
  | _ => rfl

/-- **A run without crashes** is one of the pool in which they do nothing, so that
a discipline for it need not care for them. -/
theorem steps_crashless {ok : State Op Res E S Call R → Label C Call Env → Prop}
    {w w' : State Op Res E S Call R}
    (h : (P.machine start).Steps (fun w l => l.isLive ∧ ok w l) w w') :
    (P.crashless.machine start).Steps ok w w' := by
  refine Relation.ReflTransGen.mono ?_ _ _ h
  rintro a b ⟨l, ⟨hl, hok⟩, hs⟩
  exact ⟨l, hok, (step_crashless hl).trans hs⟩

theorem reach_crashless {ok : State Op Res E S Call R → Label C Call Env → Prop}
    {w : State Op Res E S Call R}
    (h : (P.machine start).Reach (fun w l => l.isLive ∧ ok w l) w) :
    (P.crashless.machine start).Reach ok w := by
  obtain ⟨w₀, hinit, hs⟩ := h
  exact ⟨w₀, hinit, steps_crashless hs⟩

/-! ## A call that runs alone -/

/-- **What a program can do alone, a call can do in the pool**: the others wait
while it runs to its end. -/
theorem steps_of_runs (start : S → Prop) (allow : ℕ → C → Op → S → Prop)
    {ok : State Op Res E S Call R → Label C Call Env → Prop} {pid : ℕ} {call : Call}
    (hok : ∀ (w : State Op Res E S Call R) c op k, w.threads pid = some (call, .call op k) →
      allow pid c op w.shared → ok w (.act pid c))
    {p : Prog Op Res E R} {w : State Op Res E S Call R} {r : Except E R} {s' : S}
    (h : p.Runs (Prog.Handled (P.handler pid) (allow pid)) w.shared r s') :
    ∃ w', (P.machine start).Steps ok (land w pid call p) w' ∧ w'.shared = s'
      ∧ w'.threads = Function.update w.threads pid none
      ∧ w'.replies = w.replies ++ [⟨pid, call, r, s'⟩] := by
  induction p generalizing w with
  | ret a =>
    obtain ⟨rfl, rfl⟩ := h
    exact ⟨_, Relation.ReflTransGen.refl, rfl, rfl, rfl⟩
  | raise e =>
    obtain ⟨rfl, rfl⟩ := h
    exact ⟨_, Relation.ReflTransGen.refl, rfl, rfl, rfl⟩
  | call op k ih =>
    obtain ⟨r₁, s₁, ⟨c, hc, hH⟩, hk⟩ := h
    have hth : (land w pid call (.call op k)).threads pid = some (call, .call op k) :=
      Function.update_self ..
    obtain ⟨w', hs, hshared, hthreads, hreplies⟩ :=
      ih r₁ (w := { land w pid call (.call op k) with shared := s₁ }) hk
    refine ⟨w', hs.head ⟨.act pid c, hok _ c op k hth hc, ?_⟩, hshared, ?_, hreplies⟩
    · show (match (land w pid call (.call op k)).threads pid with
        | some (call, .call op k) => _
        | _ => none) = _
      rw [hth]
      show ((P.handler pid c op w.shared).map _) = _
      rw [hH]
      rfl
    · rw [hthreads]
      show Function.update (Function.update w.threads pid _) pid none = _
      rw [Function.update_idem]
/-! ## Following one call -/

/-- **The discipline with a postcondition of its own for one call.** It is not
meant to start from anywhere: the call is already there. -/
def Discipline.following (D : Discipline P start accept allow envOk) (pid : ℕ)
    (Q : Except E R → S → Prop) : Discipline P (fun _ => False) accept allow envOk where
  inv := D.inv
  unused := fun q s => D.unused q s ∧ q ≠ pid
  rely := D.rely
  post := fun q call r s => if q = pid then Q r s else D.post q call r s
  rely_refl := D.rely_refl
  rely_trans := D.rely_trans
  unused_rely := fun q a b h hr => ⟨D.unused_rely q a b h.1 hr, h.2⟩
  start_ok := fun _ h => h.elim
  safe_body := fun q s call haccept hinv hun => by
    simp only [if_neg hun.2]
    exact D.safe_body q s call haccept hinv hun.1
  safe_crash := D.safe_crash
  safe_env := D.safe_env

/-- **A call that arrives in a state where its program is safe for `Q` answers
with `Q`**, whatever the others do meanwhile. -/
theorem Discipline.reply_of_spawn (D : Discipline P start accept allow envOk)
    {w w₁ w' : State Op Res E S Call R} {call : Call} {Q : Except E R → S → Prop}
    (h : (P.machine start).Reach (stepOk accept allow envOk) w)
    (hsafe : (P.body call).Safe (Prog.Handled (P.handler w.spawned) (allow w.spawned))
      (fun a b => D.inv b ∧ D.rely w.spawned a b)
      (fun a b => D.inv b ∧ ∀ q, q ≠ w.spawned → D.rely q a b) Q w.shared)
    (hspawn : P.step w (.spawn call) = some w₁)
    (hs : (P.machine start).Steps (stepOk accept allow envOk) w₁ w') :
    ∀ x ∈ w'.replies, x.pid = w.spawned → Q x.outcome x.state := by
  let F := D.following w.spawned Q
  have hgood := reach_safe D h
  have horder : Orderly w := reach_orderly h
  have hstart : F.Good w₁ := by
    obtain rfl := Option.some.inj hspawn
    refine F.good_land (w := { w with spawned := w.spawned + 1 }) hgood.inv ?_ ?_ ?_
      (Nat.lt_succ_self _) ?_
    · intro q hq
      exact ⟨hgood.unused q (Nat.le_of_succ_le hq), Nat.ne_of_gt hq⟩
    · intro q call' p hne hp
      obtain ⟨hlt, hcall, hq⟩ := hgood.threads q call' p hp
      refine ⟨Nat.lt_succ_of_lt hlt, hcall, ?_⟩
      simp only [Discipline.SafeAt, F, Discipline.following, if_neg hne]
      exact hq
    · intro x hx
      have hlt := (horder.done x hx).1
      simp only [F, Discipline.following, if_neg (Nat.ne_of_lt hlt)]
      exact hgood.replies x hx
    · simp only [Discipline.SafeAt, F, Discipline.following, if_true]
      exact hsafe
  have hend : F.Good w' := by
    induction hs with
    | refl => exact hstart
    | tail _ hnext ih =>
      obtain ⟨l, hok, hl⟩ := hnext
      exact F.good_step ih hok hl
  intro x hx hpid
  have hpost := hend.replies x hx
  simpa only [F, Discipline.following, if_pos hpid] using hpost

end Rule

end Pool
