import AgentPlatform.Transaction

/-!
# A database to itself

What a single call does to a database that nobody else uses can be computed.
A program whose handler always answers has one run, `Prog.within`; and a
transaction alone on its database computes on its *view* – the committed
database under its own writes – and on the external state, and nothing else
matters: `Engine.alone` runs a statement on the two.

The connection may still fail. A body that passes every exception on ends with
the driver's error as soon as one of its statements meets it, so a run either
is the computed one or is a failed one; and the transaction ends in one of the
four ways of `Engine.Ending`. While the connection does not fail, a call that
nobody keeps waiting goes through: `Prog.serving` runs it to its end.
-/

namespace Prog

variable {Op : Type} {Res : Op → Type} {E α β S C : Type}

/-! ## The run of a program -/

/-- **The run of a program** under a handler that always answers. -/
def within (h : (op : Op) → S → Except E (Res op) × S) : Prog Op Res E α → S → Except E α × S
  | .ret a, s => (.ok a, s)
  | .raise e, s => (.error e, s)
  | .call op k, s => within h (k (h op s).1) (h op s).2

section Within

variable {h : (op : Op) → S → Except E (Res op) × S}

@[simp] theorem within_perform (op : Op) (s : S) :
    (perform op : Prog Op Res E (Res op)).within h s = h op s := by
  simp only [perform, within]
  generalize h op s = x
  obtain ⟨r, s'⟩ := x
  cases r with
  | ok a => rfl
  | error e => rfl

/-- What follows runs where the program has returned. -/
theorem within_bind_ok {p : Prog Op Res E α} {s s' : S} {a : α}
    (hp : p.within h s = (.ok a, s')) (f : α → Prog Op Res E β) :
    (p.bind f).within h s = (f a).within h s' := by
  induction p generalizing s with
  | ret b => cases hp; rfl
  | raise e => cases hp
  | call op k ih => exact ih _ hp

/-- And does not where it has raised. -/
theorem within_bind_error {p : Prog Op Res E α} {s s' : S} {e : E}
    (hp : p.within h s = (.error e, s')) (f : α → Prog Op Res E β) :
    (p.bind f).within h s = (.error e, s') := by
  induction p generalizing s with
  | ret b => cases hp
  | raise e' => cases hp; rfl
  | call op k ih => exact ih _ hp

end Within

/-! ## Runs on a list of choices -/

section Eval

variable {h : C → (op : Op) → S → Option (Except E (Res op) × S)}

/-- How a run goes on after a program that came first. -/
def Goes (h : C → (op : Op) → S → Option (Except E (Res op) × S)) (f : α → Prog Op Res E β)
    (cs : List C) (out : Except E β × S) : Except E α → S → Prop
  | .ok a, s => (f a).eval h cs s = some out
  | .error e, s => cs = [] ∧ out = (.error e, s)

/-- **Inversion of a sequence**: the first program has used up a part of the
choices. -/
theorem eval_bind {p : Prog Op Res E α} {f : α → Prog Op Res E β} {cs : List C} {s : S}
    {out : Except E β × S} (hr : (p.bind f).eval h cs s = some out) :
    ∃ cs₁ cs₂ r s₁, cs = cs₁ ++ cs₂ ∧ p.eval h cs₁ s = some (r, s₁) ∧ Goes h f cs₂ out r s₁ := by
  induction p generalizing cs s with
  | ret a => exact ⟨[], cs, .ok a, s, rfl, rfl, hr⟩
  | raise e =>
    cases cs with
    | nil => exact ⟨[], [], .error e, s, rfl, rfl, rfl, (Option.some.inj hr).symm⟩
    | cons c cs => cases hr
  | call op k ih =>
    cases cs with
    | nil => cases hr
    | cons c cs =>
      obtain ⟨⟨r₁, s₁⟩, hh, hk⟩ := Option.bind_eq_some_iff.mp hr
      obtain ⟨cs₁, cs₂, r, s₂, rfl, hp, hgo⟩ := ih r₁ hk
      exact ⟨c :: cs₁, cs₂, r, s₂, rfl, Option.bind_eq_some_iff.mpr ⟨_, hh, hp⟩, hgo⟩

/-- How a run goes on after a program whose exceptions are caught. -/
def Caught (h : C → (op : Op) → S → Option (Except E (Res op) × S)) (f : E → Prog Op Res E α)
    (cs : List C) (out : Except E α × S) : Except E α → S → Prop
  | .ok a, s => cs = [] ∧ out = (.ok a, s)
  | .error e, s => (f e).eval h cs s = some out

/-- **Inversion of a catch.** -/
theorem eval_tryCatch {p : Prog Op Res E α} {f : E → Prog Op Res E α} {cs : List C} {s : S}
    {out : Except E α × S} (hr : (p.tryCatch f).eval h cs s = some out) :
    ∃ cs₁ cs₂ r s₁, cs = cs₁ ++ cs₂ ∧ p.eval h cs₁ s = some (r, s₁)
      ∧ Caught h f cs₂ out r s₁ := by
  induction p generalizing cs s with
  | ret a =>
    cases cs with
    | nil => exact ⟨[], [], .ok a, s, rfl, rfl, rfl, (Option.some.inj hr).symm⟩
    | cons c cs => cases hr
  | raise e => exact ⟨[], cs, .error e, s, rfl, rfl, hr⟩
  | call op k ih =>
    cases cs with
    | nil => cases hr
    | cons c cs =>
      obtain ⟨⟨r₁, s₁⟩, hh, hk⟩ := Option.bind_eq_some_iff.mp hr
      obtain ⟨cs₁, cs₂, r, s₂, rfl, hp, hgo⟩ := ih r₁ hk
      exact ⟨c :: cs₁, cs₂, r, s₂, rfl, Option.bind_eq_some_iff.mpr ⟨_, hh, hp⟩, hgo⟩

/-- A run of a program whose exception is caught, and of what follows. -/
theorem eval_tryCatch_bind {p : Prog Op Res E α} {f : E → Prog Op Res E α}
    {g : α → Prog Op Res E β} {cs₁ cs₂ : List C} {s s₁ : S} {e : E}
    (hp : p.eval h cs₁ s = some (.error e, s₁)) :
    ((p.tryCatch f).bind g).eval h (cs₁ ++ cs₂) s = ((f e).bind g).eval h cs₂ s₁ := by
  induction p generalizing cs₁ s with
  | ret a =>
    cases cs₁ with
    | nil => cases hp
    | cons c cs => cases hp
  | raise e' =>
    cases cs₁ with
    | nil => cases hp; rfl
    | cons c cs => cases hp
  | call op k ih =>
    cases cs₁ with
    | nil => cases hp
    | cons c cs =>
      obtain ⟨⟨r₁, s₂⟩, hh, hk⟩ := Option.bind_eq_some_iff.mp hp
      show (h c op s).bind _ = _
      rw [hh]
      exact ih r₁ hk

/-- A program that has ended uses no choice. -/
theorem eval_raise {e : E} {cs : List C} {s : S} {out : Except E α × S}
    (hr : (Prog.raise e : Prog Op Res E α).eval h cs s = some out) :
    cs = [] ∧ out = (.error e, s) := by
  cases cs with
  | nil => exact ⟨rfl, (Option.some.inj hr).symm⟩
  | cons c cs => cases hr

theorem eval_ret {a : α} {cs : List C} {s : S} {out : Except E α × S}
    (hr : (Prog.ret a : Prog Op Res E α).eval h cs s = some out) :
    cs = [] ∧ out = (.ok a, s) := by
  cases cs with
  | nil => exact ⟨rfl, (Option.some.inj hr).symm⟩
  | cons c cs => cases hr

/-- A request uses one. -/
theorem eval_perform {op : Op} {cs : List C} {s : S} {r : Except E (Res op)} {s' : S}
    (hr : (perform op : Prog Op Res E (Res op)).eval h cs s = some (r, s')) :
    ∃ c, cs = [c] ∧ h c op s = some (r, s') := by
  cases cs with
  | nil => cases hr
  | cons c cs =>
    obtain ⟨⟨r₁, s₁⟩, hh, hk⟩ := Option.bind_eq_some_iff.mp hr
    cases r₁ with
    | ok a =>
      obtain ⟨rfl, hout⟩ := eval_ret hk
      cases hout
      exact ⟨c, rfl, hh⟩
    | error e =>
      obtain ⟨rfl, hout⟩ := eval_raise hk
      cases hout
      exact ⟨c, rfl, hh⟩

end Eval

/-! ## Programs that pass exceptions on -/

/-- Every exception a request raises ends the program. -/
def Propagates : Prog Op Res E α → Prop
  | .ret _ => True
  | .raise _ => True
  | .call _ k => (∀ e, k (.error e) = .raise e) ∧ ∀ r, Propagates (k r)

section Propagates

@[simp] theorem propagates_perform (op : Op) :
    (perform op : Prog Op Res E (Res op)).Propagates := by
  refine ⟨fun e => rfl, fun r => ?_⟩
  cases r with
  | ok a => trivial
  | error e => trivial

theorem Propagates.bind {p : Prog Op Res E α} {f : α → Prog Op Res E β} (hp : p.Propagates)
    (hf : ∀ a, (f a).Propagates) : (p.bind f).Propagates := by
  induction p with
  | ret a => exact hf a
  | raise e => trivial
  | call op k ih =>
    refine ⟨fun e => ?_, fun r => ih r (hp.2 r)⟩
    show (k (.error e)).bind f = .raise e
    rw [hp.1 e]
    rfl

end Propagates

/-! ## A handler that may keep waiting -/

/-- **Run a program to its end** under a handler that may not be able to answer
yet. -/
def serving (h : (op : Op) → S → Option (Except E (Res op) × S)) :
    Prog Op Res E α → S → Option (Except E α × S)
  | .ret a, s => some (.ok a, s)
  | .raise e, s => some (.error e, s)
  | .call op k, s => (h op s).bind (fun x => serving h (k x.1) x.2)

section Serving

variable {h : (op : Op) → S → Option (Except E (Res op) × S)}

theorem serving_bind_ok {p : Prog Op Res E α} {s s' : S} {a : α}
    (hp : p.serving h s = some (.ok a, s')) (f : α → Prog Op Res E β) :
    (p.bind f).serving h s = (f a).serving h s' := by
  induction p generalizing s with
  | ret b => cases hp; rfl
  | raise e => cases hp
  | call op k ih =>
    obtain ⟨x, hh, hk⟩ := Option.bind_eq_some_iff.mp hp
    show (h op s).bind _ = _
    rw [hh]
    exact ih _ hk

theorem serving_bind_error {p : Prog Op Res E α} {s s' : S} {e : E}
    (hp : p.serving h s = some (.error e, s')) (f : α → Prog Op Res E β) :
    (p.bind f).serving h s = some (.error e, s') := by
  induction p generalizing s with
  | ret b => cases hp
  | raise e' => cases hp; rfl
  | call op k ih =>
    obtain ⟨x, hh, hk⟩ := Option.bind_eq_some_iff.mp hp
    show (h op s).bind _ = _
    rw [hh]
    exact ih _ hk

theorem serving_tryCatch_ok {p : Prog Op Res E α} {s s' : S} {a : α}
    (hp : p.serving h s = some (.ok a, s')) (f : E → Prog Op Res E α) :
    (p.tryCatch f).serving h s = some (.ok a, s') := by
  induction p generalizing s with
  | ret b => exact hp
  | raise e => cases hp
  | call op k ih =>
    obtain ⟨x, hh, hk⟩ := Option.bind_eq_some_iff.mp hp
    show (h op s).bind _ = _
    rw [hh]
    exact ih _ hk

theorem serving_tryCatch_error {p : Prog Op Res E α} {s s' : S} {e : E}
    (hp : p.serving h s = some (.error e, s')) (f : E → Prog Op Res E α) :
    (p.tryCatch f).serving h s = (f e).serving h s' := by
  induction p generalizing s with
  | ret b => cases hp
  | raise e' => cases hp; rfl
  | call op k ih =>
    obtain ⟨x, hh, hk⟩ := Option.bind_eq_some_iff.mp hp
    show (h op s).bind _ = _
    rw [hh]
    exact ih _ hk

end Serving

end Prog

namespace Engine

variable {Op : Type} {Res : Op → Type} {E A Db W K X α : Type} [DecidableEq K]
variable (N : Engine Op Res E A Db W K X)

/-! ## A transaction on its view -/

/-- **A statement of a transaction that nobody keeps waiting**, on what the
transaction sees and the external state. -/
def alone (a : A) : (op : TxOp Op) → Db × X → Except E (TxRes Res op) × (Db × X)
  | .run op, v =>
    ((N.exec a op (fun _ => true) v.1 v.2).1,
      N.applyAll (N.exec a op (fun _ => true) v.1 v.2).2.1 v.1,
      (N.exec a op (fun _ => true) v.1 v.2).2.2)
  | .begin, v => (.ok (), v)
  | .commit, v => (.ok (), v)
  | .rollback, v => (.ok (), v)

omit [DecidableEq K] in
@[simp] theorem within_stmt (a : A) (op : Op) (v : Db × X) :
    (stmt op : Prog (TxOp Op) (TxRes Res) E (Res op)).within (N.alone a) v
      = N.alone a (.run op) v :=
  Prog.within_perform _ _

omit [DecidableEq K] in
/-- No statement looks at the locks of others. -/
def Blind : Prop :=
  ∀ a op fr db x, N.exec a op fr db x = N.exec a op (fun _ => true) db x

/-- The requests of the body of a transaction. -/
def Statement : TxOp Op → Prop
  | .run _ => True
  | _ => False

/-- **A body of a transaction**: it runs statements, and passes their exceptions
on. -/
structure Body (p : Prog (TxOp Op) (TxRes Res) E α) : Prop where
  issues : p.Issues Statement
  propagates : p.Propagates

section Body

theorem body_ret (a : α) : Body (.ret a : Prog (TxOp Op) (TxRes Res) E α) := ⟨trivial, trivial⟩

theorem body_raise (e : E) : Body (.raise e : Prog (TxOp Op) (TxRes Res) E α) :=
  ⟨trivial, trivial⟩

theorem body_stmt (op : Op) : Body (stmt op : Prog (TxOp Op) (TxRes Res) E (Res op)) :=
  ⟨Prog.issues_perform trivial, Prog.propagates_perform _⟩

theorem Body.bind {β : Type} {p : Prog (TxOp Op) (TxRes Res) E α}
    {f : α → Prog (TxOp Op) (TxRes Res) E β} (hp : Body p) (hf : ∀ a, Body (f a)) :
    Body (p.bind f) :=
  ⟨hp.issues.bind (fun a => (hf a).issues), hp.propagates.bind (fun a => (hf a).propagates)⟩

theorem body_forEach {β : Type} {f : β → Prog (TxOp Op) (TxRes Res) E Unit}
    (hf : ∀ b, Body (f b)) (bs : List β) : Body (Prog.forEach f bs) := by
  induction bs with
  | nil => exact body_ret ()
  | cons b bs ih => exact (hf b).bind (fun _ => ih)

end Body

/-- The environment serves with `a`, or fails. -/
def ServesWith (a : A) (c : Choice A) : Prop := ∀ a', c = .serve a' → a' = a

section Perform

variable {N} {s : TxState Db W K X} {pid : ℕ} {old : List W} (h : s.pending pid = some old)
  (ls : List K) (ws : List W) (x : X)

include h

theorem pending_perform : (N.perform s pid ls ws x).pending pid = some (old ++ ws) := by
  simp only [Engine.perform, h, Function.update_self]

theorem committed_perform : (N.perform s pid ls ws x).committed = s.committed := by
  simp only [Engine.perform, h]

theorem ext_perform : (N.perform s pid ls ws x).ext = x := by
  simp only [Engine.perform, h]

end Perform

variable {N}

/-- **The body of a transaction runs on its view**, or the connection has
failed and the body has passed the failure on. The induction is on the body. -/
theorem eval_body (hblind : N.Blind) {a : A} {pid : ℕ} {body : Prog (TxOp Op) (TxRes Res) E α}
    (hbody : Body body) {cs : List (Choice A)}
    (hcs : ∀ c ∈ cs, ServesWith a c) {s s' : TxState Db W K X} {ws : List W}
    (hopen : s.pending pid = some ws) {r : Except E α}
    (hrun : body.eval (N.handler pid) cs s = some (r, s')) :
    s'.committed = s.committed ∧ (∃ ws', s'.pending pid = some ws') ∧ .lost ∉ cs ∧
      ((.fault ∉ cs ∧ body.within (N.alone a) (N.view s pid, s.ext) = (r, N.view s' pid, s'.ext))
        ∨ (.fault ∈ cs ∧ r = .error N.dbError)) := by
  obtain ⟨hissues, hprop⟩ := hbody
  induction body generalizing cs s ws with
  | ret b =>
    obtain ⟨rfl, hout⟩ := Prog.eval_ret hrun
    cases hout
    exact ⟨rfl, ⟨ws, hopen⟩, List.not_mem_nil, .inl ⟨List.not_mem_nil, rfl⟩⟩
  | raise e =>
    obtain ⟨rfl, hout⟩ := Prog.eval_raise hrun
    cases hout
    exact ⟨rfl, ⟨ws, hopen⟩, List.not_mem_nil, .inl ⟨List.not_mem_nil, rfl⟩⟩
  | call op k ih =>
    cases cs with
    | nil => cases hrun
    | cons c cs =>
      obtain ⟨⟨r₁, s₁⟩, hh, hk⟩ := Option.bind_eq_some_iff.mp hrun
      cases op with
      | run op =>
        obtain ⟨rfl, rfl, rfl⟩ | ⟨a', rfl, -, rfl, rfl⟩ := N.run_cases hh
        · -- The failure ends the body.
          have hraise : k (.error N.dbError) = .raise N.dbError := hprop.1 N.dbError
          have hk' : (k (.error N.dbError)).eval (N.handler pid) cs s₁ = some (r, s') := hk
          rw [hraise] at hk'
          obtain ⟨rfl, hout⟩ := Prog.eval_raise hk'
          cases hout
          exact ⟨rfl, ⟨ws, hopen⟩, by simp, .inr ⟨List.mem_cons_self, rfl⟩⟩
        · obtain rfl : a' = a := hcs _ List.mem_cons_self a' rfl
          have hk' : (k (N.exec a' op (fun _ => true) (N.view s pid) s.ext).1).eval
              (N.handler pid) cs (N.perform s pid (N.locks op (free s pid) (N.view s pid) s.ext)
                (N.exec a' op (fun _ => true) (N.view s pid) s.ext).2.1
                (N.exec a' op (fun _ => true) (N.view s pid) s.ext).2.2) = some (r, s') := by
            rw [← hblind a' op (free s pid)]
            exact hk
          obtain ⟨hcom, hpend, hlost, hcase⟩ := ih _
            (fun c hc => hcs c (List.mem_cons_of_mem _ hc)) (pending_perform hopen ..) hk'
            (hissues.2 _) (hprop.2 _)
          rw [N.view_perform hopen, ext_perform hopen] at hcase
          refine ⟨hcom.trans (committed_perform hopen ..), hpend, by simpa using hlost, ?_⟩
          exact hcase.imp (fun hok => ⟨by simpa using hok.1, hok.2⟩)
            (fun hbad => ⟨List.mem_cons_of_mem _ hbad.1, hbad.2⟩)
      | begin => exact hissues.1.elim
      | commit => exact hissues.1.elim
      | rollback => exact hissues.1.elim

/-- **How a transaction that was alone ends**, with the outcome and the
committed database: `v` is what its body computes on the database `base`, and
`cs` are the choices of the environment. -/
inductive Ending (dbError : E) (v : Except E α × (Db × X)) (base : Db) (cs : List (Choice A)) :
    Except E α → Db → Prop
  | failed (hfault : .fault ∈ cs) : Ending dbError v base cs (.error dbError) base
  | committed {r : α} (hfault : .fault ∉ cs) (hlost : .lost ∉ cs) (hv : v.1 = .ok r) :
      Ending dbError v base cs (.ok r) v.2.1
  | lost {r : α} (hfault : .fault ∉ cs) (hlost : .lost ∈ cs) (hv : v.1 = .ok r) :
      Ending dbError v base cs (.error dbError) v.2.1
  | raised {e : E} (hfault : .fault ∉ cs) (hlost : .lost ∉ cs) (hv : v.1 = .error e) :
      Ending dbError v base cs (.error e) base

/-- **Inversion of a transaction that is alone.** -/
theorem eval_transaction (hblind : N.Blind) {a : A} {pid : ℕ}
    {body : Prog (TxOp Op) (TxRes Res) E α} (hbody : Body body)
    {cs : List (Choice A)} (hcs : ∀ c ∈ cs, ServesWith a c)
    {s s' : TxState Db W K X} (hidle : s.pending pid = none) {r : Except E α}
    (hrun : (transaction body).eval (N.handler pid) cs s = some (r, s')) :
    s'.pending pid = none ∧
      Ending N.dbError (body.within (N.alone a) (s.committed, s.ext)) s.committed cs r
        s'.committed := by
  obtain ⟨cs₁, cs₂, r₁, s₁, rfl, hbegin, hgo⟩ := Prog.eval_bind hrun
  obtain ⟨c, rfl, hh⟩ := Prog.eval_perform hbegin
  cases c with
  | fault =>
    cases hh
    obtain ⟨rfl, hout⟩ := hgo
    cases hout
    exact ⟨hidle, .failed (by simp)⟩
  | lost => cases hh
  | serve a₁ =>
    cases hh
    obtain ⟨cs₃, cs₄, r₂, s₂, rfl, hcatch, hgo⟩ := Prog.eval_bind hgo
    obtain ⟨cs₅, cs₆, r₃, s₃, rfl, hrun, hend⟩ := Prog.eval_tryCatch hcatch
    have hopened : (opened s pid).pending pid = some [] := Function.update_self ..
    have hview : N.view (opened s pid) pid = s.committed := by
      simp [view, opened]
    obtain ⟨hcommitted, ⟨ws, hpending⟩, hlost, hcase⟩ := eval_body hblind hbody
      (fun c hc => hcs c (by simp [hc])) hopened hrun
    rw [hview] at hcase
    cases r₃ with
    | error e =>
      -- The body has raised, and is rolled back.
      obtain ⟨cs₇, cs₈, r₄, s₄, rfl, hroll, hgo'⟩ := Prog.eval_bind hend
      obtain ⟨c, rfl, hh⟩ := Prog.eval_perform hroll
      cases c with
      | fault => cases hh
      | lost => cases hh
      | serve a₂ =>
        cases hh
        obtain ⟨rfl, hout⟩ := Prog.eval_raise hgo'
        cases hout
        obtain ⟨rfl, hout⟩ := hgo
        cases hout
        refine ⟨Function.update_self .., ?_⟩
        show Ending _ _ _ _ _ s₃.committed
        rw [hcommitted]
        obtain ⟨hfault, hwithin⟩ | ⟨hfault, hbad⟩ := hcase
        · refine .raised (by simpa using hfault) (by simpa using hlost) ?_
          exact congrArg Prod.fst hwithin
        · cases hbad
          exact .failed (by simp [hfault])
    | ok b =>
      obtain ⟨rfl, hout⟩ := hend
      cases hout
      obtain ⟨hfault, hwithin⟩ | ⟨-, hbad⟩ := hcase
      · obtain ⟨cs₇, cs₈, r₄, s₄, rfl, hcommit, hgo'⟩ := Prog.eval_bind hgo
        obtain ⟨c, rfl, hh⟩ := Prog.eval_perform hcommit
        have hv : (body.within (N.alone a) (s.committed, s.ext)).1 = .ok b :=
          congrArg Prod.fst hwithin
        have hdb : N.view s₂ pid = (body.within (N.alone a) (s.committed, s.ext)).2.1 :=
          (congrArg (fun x => x.2.1) hwithin).symm
        cases c with
        | serve a₂ =>
          cases hh
          obtain ⟨rfl, hout⟩ := Prog.eval_ret hgo'
          cases hout
          refine ⟨Function.update_self .., ?_⟩
          show Ending _ _ _ _ _ (N.view s₂ pid)
          rw [hdb]
          exact .committed (by simpa using hfault) (by simpa using hlost) hv
        | fault =>
          cases hh
          obtain ⟨rfl, hout⟩ := hgo'
          cases hout
          refine ⟨Function.update_self .., ?_⟩
          show Ending _ _ _ _ _ s₂.committed
          rw [hcommitted]
          exact .failed (by simp)
        | lost =>
          cases hh
          obtain ⟨rfl, hout⟩ := hgo'
          cases hout
          refine ⟨Function.update_self .., ?_⟩
          show Ending _ _ _ _ _ (N.view s₂ pid)
          rw [hdb]
          exact .lost (by simpa using hfault) (by simp) hv
      · cases hbad

/-! ## A transaction that is served -/

/-- Nobody else holds a row. -/
def Sole (pid : ℕ) (s : TxState Db W K X) : Prop := ∀ k, free s pid k = true

omit [DecidableEq K] in
theorem sole_quiet (pid : ℕ) (db : Db) (x : X) :
    Sole pid (quiet db x : TxState Db W K X) := fun _ => rfl

theorem Sole.perform {pid : ℕ} {s : TxState Db W K X} (h : Sole pid s) (ls : List K)
    (ws : List W) (x : X) : Sole pid (N.perform s pid ls ws x) := by
  intro k
  unfold Engine.perform
  split
  · exact h k
  · unfold free
    dsimp only
    split
    · rfl
    · rename_i q hq
      split at hq
      · rw [← Option.some.inj hq, beq_self_eq_true]
      · have hk := h k
        rw [free, hq] at hk
        exact hk

omit [DecidableEq K] in
theorem Sole.close {pid : ℕ} {s : TxState Db W K X} (h : Sole pid s) : Sole pid (close s pid) := by
  intro k
  unfold free Engine.close
  dsimp only
  split
  · rfl
  · rename_i q hq
    split at hq
    · cases hq
    · have hk := h k
      rw [free, hq] at hk
      exact hk

/-- The body of a transaction goes through. -/
theorem serving_body (hblind : N.Blind) (a : A) {pid : ℕ}
    {body : Prog (TxOp Op) (TxRes Res) E α} (hbody : Body body)
    {s : TxState Db W K X} {ws : List W} (hopen : s.pending pid = some ws) (hsole : Sole pid s) :
    ∃ s', body.serving (N.handler pid (.serve a)) s
        = some ((body.within (N.alone a) (N.view s pid, s.ext)).1, s')
      ∧ (N.view s' pid, s'.ext) = (body.within (N.alone a) (N.view s pid, s.ext)).2
      ∧ s'.committed = s.committed ∧ Sole pid s' := by
  have hissues := hbody.issues
  clear hbody
  induction body generalizing s ws with
  | ret b => exact ⟨s, rfl, rfl, rfl, hsole⟩
  | raise e => exact ⟨s, rfl, rfl, rfl, hsole⟩
  | call op k ih =>
    cases op with
    | run op =>
      have hserved : N.handler pid (.serve a) (.run op) s
          = some ((N.exec a op (fun _ => true) (N.view s pid) s.ext).1,
            N.perform s pid (N.locks op (free s pid) (N.view s pid) s.ext)
              (N.exec a op (fun _ => true) (N.view s pid) s.ext).2.1
              (N.exec a op (fun _ => true) (N.view s pid) s.ext).2.2) := by
        refine (if_pos (List.all_eq_true.mpr (fun k _ => hsole k))).trans ?_
        simp only [hblind a op (free s pid)]
        rfl
      obtain ⟨s', hrun, hview, hcommitted, hsole'⟩ := ih
        (N.exec a op (fun _ => true) (N.view s pid) s.ext).1
        (pending_perform hopen (N.locks op (free s pid) (N.view s pid) s.ext) _ _)
        (Sole.perform hsole _ _ _) (hissues.2 _)
      rw [N.view_perform hopen, ext_perform hopen] at hrun hview
      refine ⟨s', ?_, hview, hcommitted.trans (committed_perform hopen ..), hsole'⟩
      show (N.handler pid (.serve a) (.run op) s).bind _ = _
      rw [hserved]
      exact hrun
    | begin => exact hissues.1.elim
    | commit => exact hissues.1.elim
    | rollback => exact hissues.1.elim

/-- **A transaction that is served goes through**: it commits what its body
computes, or is rolled back. -/
theorem serving_transaction (hblind : N.Blind) (a : A) {pid : ℕ}
    {body : Prog (TxOp Op) (TxRes Res) E α} (hbody : Body body)
    {s : TxState Db W K X} (hsole : Sole pid s) :
    ∃ s', (transaction body).serving (N.handler pid (.serve a)) s
        = some ((body.within (N.alone a) (s.committed, s.ext)).1, s')
      ∧ s'.committed = (match (body.within (N.alone a) (s.committed, s.ext)).1 with
        | .ok _ => (body.within (N.alone a) (s.committed, s.ext)).2.1
        | .error _ => s.committed)
      ∧ Sole pid s'
      ∧ s'.ext = (body.within (N.alone a) (s.committed, s.ext)).2.2 := by
  have hopened : (opened s pid).pending pid = some [] := Function.update_self ..
  have hview : N.view (opened s pid) pid = s.committed := by
    simp [view, opened]
  obtain ⟨s₁, hrun, hview₁, hcommitted, hsole₁⟩ :=
    serving_body hblind a hbody hopened (fun k => hsole k)
  have hext : (opened s pid).ext = s.ext := rfl
  rw [hview, hext] at hrun hview₁
  have hbegin : (request .begin : Prog (TxOp Op) (TxRes Res) E _).serving
      (N.handler pid (.serve a)) s = some (.ok (), opened s pid) := rfl
  have hcommit : ∀ s₂, (request .commit : Prog (TxOp Op) (TxRes Res) E _).serving
      (N.handler pid (.serve a)) s₂ = some (.ok (), N.publish s₂ pid) := fun s₂ => rfl
  have hrollback : ∀ s₂, (request .rollback : Prog (TxOp Op) (TxRes Res) E _).serving
      (N.handler pid (.serve a)) s₂ = some (.ok (), close s₂ pid) := fun s₂ => rfl
  cases hr : (body.within (N.alone a) (s.committed, s.ext)).1 with
  | ok b =>
    rw [hr] at hrun
    refine ⟨N.publish s₁ pid, ?_, ?_, Sole.close (fun k => hsole₁ k), congrArg Prod.snd hview₁⟩
    · refine (Prog.serving_bind_ok hbegin _).trans ?_
      refine (Prog.serving_bind_ok (Prog.serving_tryCatch_ok hrun _) _).trans ?_
      exact Prog.serving_bind_ok (hcommit s₁) _
    · exact congrArg Prod.fst hview₁
  | error e =>
    rw [hr] at hrun
    refine ⟨close s₁ pid, ?_, hcommitted, hsole₁.close, congrArg Prod.snd hview₁⟩
    refine (Prog.serving_bind_ok hbegin _).trans ?_
    refine Prog.serving_bind_error ?_ _
    exact (Prog.serving_tryCatch_error hrun _).trans (Prog.serving_bind_ok (hrollback s₁) _)

end Engine
