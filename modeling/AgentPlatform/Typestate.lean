import AgentPlatform.CommitHistory

/-!
# Programs that keep to a protocol

Where a call stands shows in what it has asked so far and what it was answered.
A protocol makes that explicit: a *phase* that every request moves on, and the
requests that are permitted in each phase. `Prog.Follows` says that a program,
whatever it is answered, makes only requests its phase permits; it is proved of
the program alone, with no state and no other calls in sight.

What the phases are good for is an invariant over the phases of all calls. With
`Prog.Follows.safe` a program that follows the protocol is safe among others as
soon as each permitted request of *any* call keeps that invariant; the programs
themselves need not be looked at again.

`Pool.phased` keeps the phases as notes on watched calls, and
`Pool.Discipline.ofPhases` is the rule for all of them.
-/

/-- **The steps of a run from a reachable state meet what they are shown to meet**,
one after the other. -/
theorem Machine.Steps.strengthen {S L : Type} {M : Machine S L} {ok ok' : S → L → Prop}
    (hok : ∀ s l, M.Reach ok' s → ok s l → ok' s l) {s s' : S} (h : M.Reach ok' s)
    (hs : M.Steps ok s s') : M.Steps ok' s s' := by
  induction hs with
  | refl => exact Relation.ReflTransGen.refl
  | tail _ hnext ih =>
    obtain ⟨l, hl, hstep⟩ := hnext
    exact ih.tail ⟨l, hok _ l (Machine.Reach.steps h ih) hl, hstep⟩

namespace Prog

variable {Op : Type} {Res : Op → Type} {E α β S G : Type}

section Follows

variable (permits : G → Op → Prop) (next : G → (op : Op) → Except E (Res op) → G)

/-- **A program follows a protocol** from a phase on, and ends with `Q`. -/
def Follows : G → Prog Op Res E α → (Except E α → G → Prop) → Prop
  | g, .ret a, Q => Q (.ok a) g
  | g, .raise e, Q => Q (.error e) g
  | g, .call op k, Q => permits g op ∧ ∀ r, Follows (next g op r) (k r) Q

variable {permits next} {g : G}

theorem follows_perform {op : Op} {Q : Except E (Res op) → G → Prop} (hop : permits g op)
    (h : ∀ r, Q r (next g op r)) :
    Follows permits next g (perform op : Prog Op Res E (Res op)) Q := by
  refine ⟨hop, fun r => ?_⟩
  cases r with
  | ok a => exact h _
  | error e => exact h _

theorem Follows.mono {p : Prog Op Res E α} {Q Q' : Except E α → G → Prop}
    (h : Follows permits next g p Q) (hQ : ∀ r g, Q r g → Q' r g) :
    Follows permits next g p Q' := by
  induction p generalizing g with
  | ret a => exact hQ _ _ h
  | raise e => exact hQ _ _ h
  | call op k ih => exact ⟨h.1, fun r => ih r (h.2 r)⟩

theorem Follows.bind {p : Prog Op Res E α} {f : α → Prog Op Res E β} {Q : Except E α → G → Prop}
    {Q' : Except E β → G → Prop} (hp : Follows permits next g p Q)
    (hf : ∀ a g, Q (.ok a) g → Follows permits next g (f a) Q')
    (he : ∀ e g, Q (.error e) g → Q' (.error e) g) : Follows permits next g (p.bind f) Q' := by
  induction p generalizing g with
  | ret a => exact hf a g hp
  | raise e => exact he e g hp
  | call op k ih => exact ⟨hp.1, fun r => ih r (hp.2 r)⟩

theorem Follows.tryCatch {p : Prog Op Res E α} {h : E → Prog Op Res E α}
    {Q Q' : Except E α → G → Prop} (hp : Follows permits next g p Q)
    (ha : ∀ a g, Q (.ok a) g → Q' (.ok a) g)
    (hh : ∀ e g, Q (.error e) g → Follows permits next g (h e) Q') :
    Follows permits next g (p.tryCatch h) Q' := by
  induction p generalizing g with
  | ret a => exact ha a g hp
  | raise e => exact hh e g hp
  | call op k ih => exact ⟨hp.1, fun r => ih r (hp.2 r)⟩

/-- A captured exception is a value. -/
theorem Follows.capture {X : Type} {f : E → Option X} {p : Prog Op Res E α}
    {Q : Except E α → G → Prop} {Q' : Except E (Except X α) → G → Prop}
    (hp : Follows permits next g p Q) (ha : ∀ a g, Q (.ok a) g → Q' (.ok (.ok a)) g)
    (hsome : ∀ e x g, Q (.error e) g → f e = some x → Q' (.ok (.error x)) g)
    (hnone : ∀ e g, Q (.error e) g → f e = none → Q' (.error e) g) :
    Follows permits next g (p.capture f) Q' := by
  induction p generalizing g with
  | ret a => exact ha a g hp
  | raise e =>
    simp only [Prog.capture, Prog.bind, Prog.tryCatch]
    cases hf : f e with
    | some x => exact hsome e x g hp hf
    | none => exact hnone e g hp hf
  | call op k ih => exact ⟨hp.1, fun r => ih r (hp.2 r)⟩

/-- **A program that follows the protocol is safe among others**, if every
permitted request keeps the invariant, does what the others rely on and moves the
phase on; and others leave it where it is. -/
theorem Follows.safe {H : (op : Op) → S → Except E (Res op) → S → Prop}
    {rely guar : S → S → Prop} (phase : S → G) {I : S → Prop}
    (hrely : ∀ a b, I a → rely a b → I b ∧ phase b = phase a)
    (hstep : ∀ op a r b, I a → permits (phase a) op → H op a r b →
      guar a b ∧ I b ∧ phase b = next (phase a) op r)
    {p : Prog Op Res E α} {Q : Except E α → G → Prop} {s : S}
    (hp : Follows permits next (phase s) p Q) (hs : I s) :
    p.Safe H rely guar (fun r s' => Q r (phase s')) s := by
  induction p generalizing s with
  | ret a => exact hp
  | raise e => exact hp
  | call op k ih =>
    intro s₁ hr r s₂ hH
    obtain ⟨hI₁, hphase₁⟩ := hrely s s₁ hs hr
    obtain ⟨hg, hI₂, hphase₂⟩ := hstep op s₁ r s₂ hI₁ (hphase₁ ▸ hp.1) hH
    refine ⟨hg, ih r ?_ hI₂⟩
    rw [hphase₂, hphase₁]
    exact hp.2 r

end Follows

end Prog

namespace Pool

variable {Op : Type} {Res : Op → Type} {E C S Call R Env G : Type}

/-- **The phases of calls, as notes on them**: a request moves on the phase of the
call that makes it. -/
def phases (next : G → (op : Op) → Except E (Res op) → G) (pid : ℕ) (op : Op)
    (r : Except E (Res op)) (_ _ : S) (g : ℕ → G) : ℕ → G :=
  Function.update g pid (next (g pid) op r)

/-- The calls of a pool, each with its phase. A call that is abandoned is back at
rest. -/
abbrev phased (P : Pool Op Res E C S Call R Env) (next : G → (op : Op) → Except E (Res op) → G)
    (rest : G) : Pool Op Res E C (S × (ℕ → G)) Call R Env :=
  P.observed (phases next) (fun pid g => Function.update g pid rest)

/-- **The rely-guarantee rule by phases.** If every call follows the protocol, an
invariant over the state and the phases of all calls holds as soon as every
permitted request of any call keeps it; and what each of them respects, all of
them respect. -/
def Discipline.ofPhases {P : Pool Op Res E C S Call R Env} {start : S → Prop}
    {next : G → (op : Op) → Except E (Res op) → G} {rest : G}
    {allow : ℕ → C → Op → S × (ℕ → G) → Prop} {envOk : S × (ℕ → G) → Env → Prop}
    (permits : G → Op → Prop) (inv : S × (ℕ → G) → Prop) (keeps : S × (ℕ → G) → S × (ℕ → G) → Prop)
    (hrefl : ∀ a, keeps a a) (htrans : ∀ a b c, keeps a b → keeps b c → keeps a c)
    (hstart : ∀ s, start s → inv (s, fun _ => rest))
    (hbody : ∀ call, Prog.Follows permits next rest (P.body call) (fun _ _ => True))
    (hact : ∀ pid c op s g r s', inv (s, g) → permits (g pid) op → allow pid c op (s, g) →
      P.handler pid c op s = some (r, s') →
      inv (s', Function.update g pid (next (g pid) op r))
        ∧ keeps (s, g) (s', Function.update g pid (next (g pid) op r)))
    (hcrash : ∀ pid s g, inv (s, g) → inv (P.abandon pid s, Function.update g pid rest)
      ∧ keeps (s, g) (P.abandon pid s, Function.update g pid rest))
    (henv : ∀ e s g s', inv (s, g) → envOk (s, g) e → P.env e s = some s' →
      inv (s', g) ∧ keeps (s, g) (s', g)) :
    Discipline (P.phased next rest) (fun x => start x.1 ∧ x.2 = fun _ => rest)
      (fun _ _ => True) allow envOk where
  inv := inv
  unused := fun pid s => s.2 pid = rest
  rely := fun pid a b => b.2 pid = a.2 pid ∧ keeps a b
  post := fun _ _ _ _ => True
  rely_refl := fun pid a => ⟨rfl, hrefl a⟩
  rely_trans := fun pid a b c h h' => ⟨h'.1.trans h.1, htrans a b c h.2 h'.2⟩
  unused_rely := fun pid a b h hr => hr.1.trans h
  start_ok := by
    rintro ⟨s, g⟩ ⟨hs, rfl⟩
    exact ⟨hstart s hs, fun _ => rfl⟩
  safe_body := by
    intro pid s call _ hinv hunused
    refine (Prog.Follows.safe (I := inv) (fun s => s.2 pid) ?_ ?_
      (hunused.symm ▸ hbody call) hinv).mono (fun _ _ _ => trivial)
    · rintro a b _ ⟨hb, hphase, -⟩
      exact ⟨hb, hphase⟩
    · rintro op ⟨s, g⟩ r b hI hop ⟨c, hallow, hh⟩
      obtain ⟨⟨r', s'⟩, hh', hx⟩ := Option.map_eq_some_iff.mp hh
      obtain ⟨rfl, rfl⟩ := Prod.mk.inj hx
      obtain ⟨hinv', hkeeps⟩ := hact pid c op s g r' s' hI hop hallow hh'
      refine ⟨⟨hinv', fun q hq => ⟨?_, hkeeps⟩⟩, hinv', ?_⟩
      · exact Function.update_of_ne hq _ _
      · exact Function.update_self ..
  safe_crash := by
    rintro pid ⟨s, g⟩ hinv
    obtain ⟨hinv', hkeeps⟩ := hcrash pid s g hinv
    exact ⟨hinv', fun q hq => ⟨Function.update_of_ne hq _ _, hkeeps⟩⟩
  safe_env := by
    rintro e ⟨s, g⟩ b hok hinv hE
    obtain ⟨s', hE', rfl⟩ := Option.map_eq_some_iff.mp hE
    obtain ⟨hinv', hkeeps⟩ := henv e s g s' hinv hok hE'
    exact ⟨hinv', fun _ => ⟨rfl, hkeeps⟩⟩

end Pool

namespace Engine

variable {Op : Type} {Res : Op → Type} {E G α : Type}
variable {permits : G → TxOp Op → Prop} {next : G → (op : TxOp Op) → Except E (TxRes Res op) → G}
  {g : G}

/-- **A transaction block follows a protocol** when its body does, from the phase
after the begin on; what the body ends with leads to the commit or the
rollback. -/
theorem follows_transaction {body : Prog (TxOp Op) (TxRes Res) E α} {P : α → G → Prop}
    {Q : Except E α → G → Prop}
    (hpermits : permits g .begin ∧ ∀ g', permits g' .rollback)
    (hbody : Prog.Follows permits next (next g .begin (.ok ())) body
      (fun r g' => match r with
        | .ok a => P a g'
        | .error e => Q (.error e) (next g' .rollback (.ok ()))))
    (hbegin : ∀ e, Q (.error e) (next g .begin (.error e)))
    (hrollback : ∀ e e' g', Q (.error e) (next g' .rollback (.ok ())) →
      Q (.error e') (next g' .rollback (.error e')))
    (hcommit : ∀ a g', P a g' → permits g' .commit ∧ Q (.ok a) (next g' .commit (.ok ()))
      ∧ ∀ e, Q (.error e) (next g' .commit (.error e))) :
    Prog.Follows permits next g (transaction body) Q := by
  refine ⟨hpermits.1, fun r => ?_⟩
  cases r with
  | error e => exact hbegin e
  | ok _ =>
    refine Prog.Follows.bind (Q := fun r g' => match r with
        | .ok a => P a g'
        | .error e => Q (.error e) g') ?_ (fun a g' ha => ?_) (fun e g' he => he)
    · refine hbody.tryCatch (fun a g' ha => ha) (fun e g' he => ?_)
      refine ⟨hpermits.2 g', fun r => ?_⟩
      cases r with
      | ok _ => exact he
      | error e' => exact hrollback e e' g' he
    · obtain ⟨hpermitted, hok, herr⟩ := hcommit a g' ha
      refine ⟨hpermitted, fun r => ?_⟩
      cases r with
      | ok _ => exact hok
      | error e => exact herr e

variable {A Db W K X : Type} [DecidableEq K] {N : Engine Op Res E A Db W K X} {pid : ℕ}
  {c : Choice A} {s s' : TxState Db W K X}

/-- **What is pending after a request**, was pending before or was just written. -/
theorem pending_of_handler {op : TxOp Op} {r : Except E (TxRes Res op)}
    (h : N.handler pid c op s = some (r, s')) {ws : List W} (hws : s'.pending pid = some ws) :
    ∀ w ∈ ws, (∃ old, s.pending pid = some old ∧ w ∈ old)
      ∨ ∃ op' a, op = .run op' ∧ w ∈ (N.exec a op' (free s pid) (N.view s pid) s.ext).2.1 := by
  have hclosed : ∀ t : TxState Db W K X, (close t pid).pending pid = none :=
    fun t => Function.update_self ..
  intro w hw
  cases op with
  | begin =>
    cases c with
    | serve a =>
      cases h
      simp only [Function.update_self, Option.some.injEq] at hws
      subst hws
      cases hw
    | fault => cases h; exact .inl ⟨ws, hws, hw⟩
    | lost => cases h
  | commit =>
    cases c with
    | serve a => cases h; exact nomatch (hclosed _).symm.trans hws
    | fault => cases h; exact nomatch (hclosed _).symm.trans hws
    | lost => cases h; exact nomatch (hclosed _).symm.trans hws
  | rollback =>
    cases c with
    | serve a => cases h; exact nomatch (hclosed _).symm.trans hws
    | fault => cases h
    | lost => cases h
  | run op =>
    rcases N.run_cases h with ⟨-, -, rfl⟩ | ⟨a, -, -, -, rfl⟩
    · exact .inl ⟨ws, hws, hw⟩
    · unfold perform at hws
      split at hws
      · rename_i hnone
        exact nomatch hnone.symm.trans hws
      · rename_i old hold
        simp only [Function.update_self, Option.some.injEq] at hws
        subst hws
        rcases List.mem_append.mp hw with hw | hw
        · exact .inl ⟨old, hold, hw⟩
        · exact .inr ⟨op, a, rfl, hw⟩

end Engine
