import AgentPlatform.RowLocks

/-!
# Calls that are watched

What a call has done so far need not show in the database: it has read a
number and not used it yet, it has looked for rows and not changed them yet.
To speak of such a moment, `Pool.observed` lets an observer take notes while
the calls run. The notes are updated with every request and dropped when a call
is abandoned; nothing a call is answered depends on them, so the watched runs
are the runs of the calls.

The rules for statements and transactions are those of `Engine`, with the notes
carried along.
-/

namespace Pool

variable {Op : Type} {Res : Op → Type} {E C S Call R Env G : Type}

/-- **The calls of a pool, watched.** `note` is told who made which request, its
outcome and the states around it. -/
def observed (P : Pool Op Res E C S Call R Env)
    (note : ℕ → (op : Op) → Except E (Res op) → S → S → G → G) (drop : ℕ → G → G) :
    Pool Op Res E C (S × G) Call R Env where
  handler pid c op s :=
    (P.handler pid c op s.1).map (fun x => (x.1, (x.2, note pid op x.1 s.1 x.2 s.2)))
  body := P.body
  abandon pid s := (P.abandon pid s.1, drop pid s.2)
  env e s := (P.env e s.1).map (fun s' => (s', s.2))

/-! ## Watching changes nothing -/

/-- The reply, without the notes. -/
def Reply.forget (x : Reply E (S × G) Call R) : Reply E S Call R :=
  ⟨x.pid, x.call, x.outcome, x.state.1⟩

/-- The pool, without the notes. -/
def State.forget (w : State Op Res E (S × G) Call R) : State Op Res E S Call R :=
  ⟨w.shared.1, w.spawned, w.threads, w.replies.map Reply.forget⟩

theorem forget_land (w : State Op Res E (S × G) Call R) (pid : ℕ) (call : Call)
    (p : Prog Op Res E R) : (land w pid call p).forget = land w.forget pid call p := by
  cases p with
  | call op k => rfl
  | _ => simp [land, State.forget, Reply.forget]

variable {P : Pool Op Res E C S Call R Env}
  {note : ℕ → (op : Op) → Except E (Res op) → S → S → G → G} {drop : ℕ → G → G}

/-- **A step of the calls is a step of the watched calls.** -/
theorem step_observed {w' : State Op Res E (S × G) Call R} {l : Label C Call Env}
    {v : State Op Res E S Call R} (h : P.step w'.forget l = some v) :
    ∃ v', (P.observed note drop).step w' l = some v' ∧ v'.forget = v := by
  cases l with
  | spawn call =>
    obtain rfl := Option.some.inj h
    exact ⟨_, rfl, forget_land _ _ _ _⟩
  | act pid c =>
    have hth : w'.forget.threads = w'.threads := rfl
    simp only [step, hth] at h ⊢
    split at h
    · rename_i call op k hpid
      obtain ⟨⟨r, s'⟩, hh, rfl⟩ := Option.map_eq_some_iff.mp h
      have hh' : P.handler pid c op w'.shared.1 = some (r, s') := hh
      refine ⟨land { w' with shared := (s', note pid op r w'.shared.1 s' w'.shared.2) } pid call
        (k r), ?_, forget_land _ _ _ _⟩
      simp only [observed, hh', Option.map_some]
    · cases h
  | crash pid =>
    have hth : w'.forget.threads = w'.threads := rfl
    simp only [step, hth] at h ⊢
    split at h
    · cases h
    · rename_i t hpid
      obtain rfl := Option.some.inj h
      exact ⟨_, rfl, rfl⟩
  | env e =>
    obtain ⟨s', he, rfl⟩ := Option.map_eq_some_iff.mp h
    have he' : P.env e w'.shared.1 = some s' := he
    refine ⟨{ w' with shared := (s', w'.shared.2) }, ?_, rfl⟩
    simp only [step, observed, he', Option.map_some]

/-- **Every run of the calls is what is left of a watched run.** -/
theorem reach_observed (note : ℕ → (op : Op) → Except E (Res op) → S → S → G → G)
    (drop : ℕ → G → G) (g₀ : G) {start : S → Prop}
    {ok : State Op Res E S Call R → Label C Call Env → Prop} {w : State Op Res E S Call R}
    (h : (P.machine start).Reach ok w) :
    ∃ w', ((P.observed note drop).machine (fun x => start x.1 ∧ x.2 = g₀)).Reach
        (fun v l => ok v.forget l) w' ∧ w'.forget = w := by
  obtain ⟨w₀, ⟨s, hs, rfl⟩, hsteps⟩ := h
  induction hsteps with
  | refl => exact ⟨idle (s, g₀), Machine.Reach.of_init ⟨(s, g₀), ⟨hs, rfl⟩, rfl⟩, rfl⟩
  | tail _ hnext ih =>
    obtain ⟨l, hok, hstep⟩ := hnext
    obtain ⟨w', hreach, rfl⟩ := ih
    obtain ⟨v', hv, rfl⟩ := step_observed hstep
    exact ⟨v', hreach.next hok hv, rfl⟩

/-- **Calls that carry more state run as calls without it**, when each of their
requests and of the steps of the environment is one of those on the part that is
left. -/
theorem reach_forget {C' Env' : Type} {P' : Pool Op Res E C' (S × G) Call R Env'}
    (hbody : P'.body = P.body) (habandon : ∀ pid s, (P'.abandon pid s).1 = P.abandon pid s.1)
    (hact : ∀ pid c op s r s', P'.handler pid c op s = some (r, s') →
      ∃ c', P.handler pid c' op s.1 = some (r, s'.1))
    (henv : ∀ e s s', P'.env e s = some s' → s'.1 = s.1 ∨ ∃ e', P.env e' s.1 = some s'.1)
    {start' : S × G → Prop} {start : S → Prop} (hstart : ∀ s, start' s → start s.1)
    {ok : State Op Res E (S × G) Call R → Label C' Call Env' → Prop}
    {w : State Op Res E (S × G) Call R} (h : (P'.machine start').Reach ok w) :
    (P.machine start).Reach Machine.anyStep w.forget := by
  obtain ⟨w₀, ⟨s, hs, rfl⟩, hsteps⟩ := h
  induction hsteps with
  | refl => exact Machine.Reach.of_init ⟨s.1, hstart s hs, rfl⟩
  | @tail v v' _ hnext ih =>
    obtain ⟨l, -, hstep⟩ := hnext
    cases l with
    | spawn call =>
      refine ih.next (l := .spawn call) trivial ?_
      obtain rfl := Option.some.inj hstep
      rw [forget_land, hbody]
      rfl
    | act pid c =>
      simp only [machine, step] at hstep
      split at hstep
      · rename_i call op k hpid
        obtain ⟨⟨r, s'⟩, hh, rfl⟩ := Option.map_eq_some_iff.mp hstep
        obtain ⟨c', hc'⟩ := hact pid c op _ r s' hh
        refine ih.next (l := .act pid c') trivial ?_
        have hth : v.forget.threads = v.threads := rfl
        have hsh : v.forget.shared = v.shared.1 := rfl
        simp only [machine, step, hth, hpid, hsh, hc', Option.map_some, forget_land]
        rfl
      · cases hstep
    | crash pid =>
      simp only [machine, step] at hstep
      split at hstep
      · cases hstep
      · rename_i t hpid
        refine ih.next (l := .crash pid) trivial ?_
        obtain rfl := Option.some.inj hstep
        simp only [machine, step, hpid, State.forget, habandon]
    | env e =>
      obtain ⟨s', he, rfl⟩ := Option.map_eq_some_iff.mp hstep
      rcases henv e _ s' he with hsame | ⟨e', he'⟩
      · have hw : State.forget { v with shared := s' } = v.forget := by
          simp only [State.forget, hsame]
        rw [hw]
        exact ih
      · refine ih.next (l := .env e') trivial ?_
        have hsh : v.forget.shared = v.shared.1 := rfl
        simp only [machine, step, hsh, he', Option.map_some]
        rfl

end Pool

namespace Engine

variable {Op : Type} {Res : Op → Type} {E A Db W K X Call R G : Type} [DecidableEq K]
variable (N : Engine Op Res E A Db W K X)
  (note : ℕ → (op : TxOp Op) → Except E (TxRes Res op) → TxState Db W K X → TxState Db W K X →
    G → G) (drop : ℕ → G → G)

/-- Any number of watched calls over one database. -/
abbrev watched (body : Call → Prog (TxOp Op) (TxRes Res) E R) :
    Pool (TxOp Op) (TxRes Res) E (Choice A) (TxState Db W K X × G) Call R Empty :=
  (N.pool body).observed note drop

/-- The handler of a watched call. -/
abbrev watchedHandler (pid : ℕ) (c : Choice A) (op : TxOp Op) (s : TxState Db W K X × G) :
    Option (Except E (TxRes Res op) × (TxState Db W K X × G)) :=
  (N.handler pid c op s.1).map (fun x => (x.1, (x.2, note pid op x.1 s.1 x.2 s.2)))

variable {N note} {allow : Choice A → TxOp Op → TxState Db W K X × G → Prop}
  {rely guar : TxState Db W K X × G → TxState Db W K X × G → Prop} {pid : ℕ}

/-- **Statement rule.** -/
theorem watched_stmt {op : Op} {Q : Except E (Res op) → TxState Db W K X × G → Prop}
    {s : TxState Db W K X × G}
    (hfault : ∀ s₁, rely s s₁ → allow .fault (.run op) s₁ →
      guar s₁ (s₁.1, note pid (.run op) (.error N.dbError) s₁.1 s₁.1 s₁.2)
        ∧ Q (.error N.dbError) (s₁.1, note pid (.run op) (.error N.dbError) s₁.1 s₁.1 s₁.2))
    (hserve : ∀ s₁ a, rely s s₁ → allow (.serve a) (.run op) s₁ →
      (N.locks op (free s₁.1 pid) (N.view s₁.1 pid) s₁.1.ext).all (free s₁.1 pid) = true →
      guar s₁ (N.ran pid a op s₁.1,
          note pid (.run op) (N.answer pid a op s₁.1) s₁.1 (N.ran pid a op s₁.1) s₁.2)
        ∧ Q (N.answer pid a op s₁.1) (N.ran pid a op s₁.1,
          note pid (.run op) (N.answer pid a op s₁.1) s₁.1 (N.ran pid a op s₁.1) s₁.2)) :
    (stmt op : Prog (TxOp Op) (TxRes Res) E (Res op)).Safe
      (Prog.Handled (N.watchedHandler note pid) allow) rely guar Q s := by
  refine (Prog.safe_perform _ _ _).mpr (fun s₁ hr r s₂ hH => ?_)
  obtain ⟨c, hc, hh⟩ := hH
  obtain ⟨⟨r', s'⟩, hn, hx⟩ := Option.map_eq_some_iff.mp hh
  obtain ⟨rfl, rfl⟩ := Prod.mk.inj hx
  rcases N.run_cases hn with ⟨rfl, rfl, rfl⟩ | ⟨a, rfl, hfree, rfl, rfl⟩
  · exact hfault s₁ hr hc
  · exact hserve s₁ a hr hc hfree

/-- What must hold when the body of a watched transaction ends. -/
def WatchedEnds {α : Type} (N : Engine Op Res E A Db W K X)
    (note : ℕ → (op : TxOp Op) → Except E (TxRes Res op) → TxState Db W K X → TxState Db W K X →
      G → G) (pid : ℕ) (allow : Choice A → TxOp Op → TxState Db W K X × G → Prop)
    (rely guar : TxState Db W K X × G → TxState Db W K X × G → Prop)
    (Q : Except E α → TxState Db W K X × G → Prop) :
    Except E α → TxState Db W K X × G → Prop
  | .ok a, s => ∀ s₁, rely s s₁ →
      (guar s₁ (N.publish s₁.1 pid, note pid .commit (.ok ()) s₁.1 (N.publish s₁.1 pid) s₁.2)
        ∧ Q (.ok a)
          (N.publish s₁.1 pid, note pid .commit (.ok ()) s₁.1 (N.publish s₁.1 pid) s₁.2))
      ∧ (allow .lost .commit s₁ →
        guar s₁ (N.publish s₁.1 pid,
            note pid .commit (.error N.dbError) s₁.1 (N.publish s₁.1 pid) s₁.2)
          ∧ Q (.error N.dbError) (N.publish s₁.1 pid,
            note pid .commit (.error N.dbError) s₁.1 (N.publish s₁.1 pid) s₁.2))
      ∧ (allow .fault .commit s₁ →
        guar s₁ (close s₁.1 pid, note pid .commit (.error N.dbError) s₁.1 (close s₁.1 pid) s₁.2)
          ∧ Q (.error N.dbError)
            (close s₁.1 pid, note pid .commit (.error N.dbError) s₁.1 (close s₁.1 pid) s₁.2))
  | .error e, s => ∀ s₁, rely s s₁ →
      guar s₁ (close s₁.1 pid, note pid .rollback (.ok ()) s₁.1 (close s₁.1 pid) s₁.2)
        ∧ Q (.error e) (close s₁.1 pid, note pid .rollback (.ok ()) s₁.1 (close s₁.1 pid) s₁.2)

/-- **Transaction rule.** -/
theorem watched_transaction {α : Type} {body : Prog (TxOp Op) (TxRes Res) E α}
    {Q : Except E α → TxState Db W K X × G → Prop} {s : TxState Db W K X × G}
    (hfault : ∀ s₁, rely s s₁ → allow .fault .begin s₁ →
      guar s₁ (s₁.1, note pid .begin (.error N.dbError) s₁.1 s₁.1 s₁.2)
        ∧ Q (.error N.dbError) (s₁.1, note pid .begin (.error N.dbError) s₁.1 s₁.1 s₁.2))
    (hopen : ∀ s₁, rely s s₁ →
      guar s₁ (opened s₁.1 pid, note pid .begin (.ok ()) s₁.1 (opened s₁.1 pid) s₁.2)
        ∧ body.Safe (Prog.Handled (N.watchedHandler note pid) allow) rely guar
          (N.WatchedEnds note pid allow rely guar Q)
          (opened s₁.1 pid, note pid .begin (.ok ()) s₁.1 (opened s₁.1 pid) s₁.2)) :
    (transaction body).Safe (Prog.Handled (N.watchedHandler note pid) allow) rely guar Q s := by
  refine (Prog.safe_bind _ _ _ _).mpr ((Prog.safe_perform _ _ _).mpr ?_)
  rintro s₁ hr r s₂ ⟨c, hc, hh⟩
  obtain ⟨⟨r', s'⟩, hn, hx⟩ := Option.map_eq_some_iff.mp hh
  obtain ⟨rfl, rfl⟩ := Prod.mk.inj hx
  cases c with
  | serve a =>
    cases hn
    obtain ⟨hg, hbody⟩ := hopen s₁ hr
    refine ⟨hg, (Prog.safe_bind _ _ _ _).mpr ((Prog.safe_tryCatch _ _ _ _).mpr ?_)⟩
    refine hbody.mono (fun r s' hend => ?_)
    cases r with
    | ok a => exact safe_commit hend
    | error e => exact safe_rollback hend
  | fault =>
    cases hn
    exact hfault s₁ hr hc
  | lost => cases hn
where
  safe_commit {a : α} {s : TxState Db W K X × G}
      (h : N.WatchedEnds note pid allow rely guar Q (.ok a) s) :
      (Prog.bind (request .commit : Prog (TxOp Op) (TxRes Res) E _)
        (fun _ => .ret a)).Safe (Prog.Handled (N.watchedHandler note pid) allow) rely guar Q s := by
    refine (Prog.safe_bind _ _ _ _).mpr ((Prog.safe_perform _ _ _).mpr ?_)
    rintro s₁ hr r s₂ ⟨c, hc, hh⟩
    obtain ⟨⟨r', s'⟩, hn, hx⟩ := Option.map_eq_some_iff.mp hh
    obtain ⟨rfl, rfl⟩ := Prod.mk.inj hx
    obtain ⟨hok, hlost, hfault⟩ := h s₁ hr
    cases c with
    | serve a => cases hn; exact hok
    | fault => cases hn; exact hfault hc
    | lost => cases hn; exact hlost hc
  safe_rollback {e : E} {s : TxState Db W K X × G}
      (h : N.WatchedEnds note pid allow rely guar Q (.error e : Except E α) s) :
      (Prog.bind (request .rollback : Prog (TxOp Op) (TxRes Res) E _)
        (fun _ => (.raise e : Prog (TxOp Op) (TxRes Res) E α))).Safe
          (Prog.Handled (N.watchedHandler note pid) allow) rely guar
          (Prog.thenSafe (Prog.Handled (N.watchedHandler note pid) allow) rely guar
            (fun r => Prog.bind (request .commit) (fun _ => .ret r)) Q) s := by
    refine (Prog.safe_bind _ _ _ _).mpr ((Prog.safe_perform _ _ _).mpr ?_)
    rintro s₁ hr r s₂ ⟨c, -, hh⟩
    obtain ⟨⟨r', s'⟩, hn, hx⟩ := Option.map_eq_some_iff.mp hh
    obtain ⟨rfl, rfl⟩ := Prod.mk.inj hx
    cases c with
    | serve a => cases hn; exact h s₁ hr
    | fault => cases hn
    | lost => cases hn

end Engine
