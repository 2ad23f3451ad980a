import AgentPlatform.IsolatedRuns

/-!
# A program among the requests of a larger one

A service that calls another runs that one's program as part of its own: each
request of the inner program becomes a request of the outer, and each answer of
the outer an answer of the inner. `Prog.embed` is that translation.

What the inner program keeps of its own state it keeps of the part of the outer
state that is its own (`Prog.safe_embed`). The rest of the outer state is told by
a condition `J`, kept by every request the inner program can issue. Where the
inner program runs alone, so does the embedded one (`Prog.within_embed`), and a
transaction of it is a transaction (`Engine.embed_transaction`).
-/

namespace Prog

variable {Op Op' : Type} {Res : Op → Type} {Res' : Op' → Type} {E α β S S' R : Type}

/-- The requests `ι op`, whose answers are read by `back`. -/
def embed (ι : Op → Op') (back : (op : Op) → Res' (ι op) → Res op) :
    Prog Op Res E α → Prog Op' Res' E α
  | .ret a => .ret a
  | .raise e => .raise e
  | .call op k => .call (ι op) (fun r => (k (r.map (back op))).embed ι back)

variable {ι : Op → Op'} {back : (op : Op) → Res' (ι op) → Res op}

/-- **An embedded program keeps what the program keeps.** `get` finds the inner
state in the outer one, `P` bounds the requests the inner program issues. -/
theorem safe_embed {H : (op : Op) → S → Except E (Res op) → S → Prop}
    {H' : (op : Op') → S' → Except E (Res' op) → S' → Prop} {rely guar : S → S → Prop}
    {rely' guar' : S' → S' → Prop} {P : Op → Prop} (get : S' → S) (J : S' → Prop)
    (hrely : ∀ a b, rely' a b → rely (get a) (get b))
    (hJ : ∀ a b, J a → rely' a b → J b)
    (hstep : ∀ op a r b, P op → J a → H' (ι op) a r b →
      H op (get a) (r.map (back op)) (get b) ∧ (guar (get a) (get b) → J b ∧ guar' a b))
    {p : Prog Op Res E α} (hp : p.Issues P) {Q : Except E α → S → Prop} {s : S'}
    (hs : J s) (h : p.Safe H rely guar Q (get s)) :
    (p.embed ι back).Safe H' rely' guar' (fun r b => Q r (get b) ∧ J b) s := by
  induction p generalizing s with
  | ret a => exact ⟨h, hs⟩
  | raise e => exact ⟨h, hs⟩
  | call op k ih =>
    intro s₁ hs₁ r s₂ hr
    obtain ⟨hH, hguar⟩ := hstep op s₁ r s₂ hp.1 (hJ s s₁ hs hs₁) hr
    obtain ⟨hg, hsafe⟩ := h (get s₁) (hrely s s₁ hs₁) _ _ hH
    obtain ⟨hJ₂, hg₂⟩ := hguar hg
    exact ⟨hg₂, ih _ (hp.2 _) hJ₂ hsafe⟩

theorem embed_bind (p : Prog Op Res E α) (f : α → Prog Op Res E β) :
    (p.bind f).embed ι back = (p.embed ι back).bind (fun a => (f a).embed ι back) := by
  induction p with
  | ret a => rfl
  | raise e => rfl
  | call op k ih => exact congrArg (Prog.call (ι op)) (funext (fun r => ih _))

theorem embed_tryCatch (p : Prog Op Res E α) (f : E → Prog Op Res E α) :
    (p.tryCatch f).embed ι back
      = (p.embed ι back).tryCatch (fun e => (f e).embed ι back) := by
  induction p with
  | ret a => rfl
  | raise e => rfl
  | call op k ih => exact congrArg (Prog.call (ι op)) (funext (fun r => ih _))

theorem Issues.embed {P : Op → Prop} {P' : Op' → Prop} {p : Prog Op Res E α} (hp : p.Issues P)
    (hP : ∀ op, P op → P' (ι op)) : (p.embed ι back).Issues P' := by
  induction p with
  | ret a => trivial
  | raise e => trivial
  | call op k ih => exact ⟨hP op hp.1, fun r => ih _ (hp.2 _)⟩

theorem Propagates.embed {p : Prog Op Res E α} (hp : p.Propagates) :
    (p.embed ι back).Propagates := by
  induction p with
  | ret a => trivial
  | raise e => trivial
  | call op k ih =>
    refine ⟨fun e => ?_, fun r => ih _ (hp.2 _)⟩
    show (k (.error e)).embed ι back = .raise e
    rw [hp.1 e]
    rfl

/-- **An embedded program runs as the program does**, on the part of the state
that is its own; what `rest` reads stays as it was. -/
theorem within_embed {h : (op : Op) → S → Except E (Res op) × S}
    {h' : (op : Op') → S' → Except E (Res' op) × S'} (get : S' → S) (rest : S' → R)
    (hstep : ∀ op s, ((h' (ι op) s).1.map (back op), get (h' (ι op) s).2) = h op (get s)
      ∧ rest (h' (ι op) s).2 = rest s) (p : Prog Op Res E α) (s : S') :
    (((p.embed ι back).within h' s).1, get ((p.embed ι back).within h' s).2)
        = p.within h (get s)
      ∧ rest ((p.embed ι back).within h' s).2 = rest s := by
  induction p generalizing s with
  | ret a => exact ⟨rfl, rfl⟩
  | raise e => exact ⟨rfl, rfl⟩
  | call op k ih =>
    obtain ⟨hrun, hrest⟩ := hstep op s
    obtain ⟨hgo, hgoes⟩ := ih ((h' (ι op) s).1.map (back op)) (h' (ι op) s).2
    refine ⟨hgo.trans ?_, hgoes.trans hrest⟩
    show _ = (k (h op (get s)).1).within h (h op (get s)).2
    rw [← hrun]

end Prog

namespace Engine

variable {Op Op' : Type} {Res : Op → Type} {Res' : Op' → Type} {E α : Type}

/-- The requests of a transaction, with each statement translated. -/
def statements (ι : Op → Op') : TxOp Op → TxOp Op'
  | .run op => .run (ι op)
  | .begin => .begin
  | .commit => .commit
  | .rollback => .rollback

/-- The answers to the translated requests. -/
def answers {ι : Op → Op'} (back : (op : Op) → Res' (ι op) → Res op) :
    (op : TxOp Op) → TxRes Res' (statements ι op) → TxRes Res op
  | .run op, r => back op r
  | .begin, r => r
  | .commit, r => r
  | .rollback, r => r

variable {ι : Op → Op'} {back : (op : Op) → Res' (ι op) → Res op}

theorem embed_transaction (body : Prog (TxOp Op) (TxRes Res) E α) :
    (transaction body).embed (statements ι) (answers back)
      = transaction (body.embed (statements ι) (answers back)) := by
  have hbody : (body.tryCatch (fun e => (request .rollback).bind (fun _ => .raise e))).embed
      (statements ι) (answers back)
      = (body.embed (statements ι) (answers back)).tryCatch
        (fun e => (request .rollback).bind (fun _ => .raise e)) := by
    rw [Prog.embed_tryCatch]
    refine congrArg _ (funext (fun e => congrArg (Prog.call _) (funext (fun r => ?_))))
    cases r with
    | ok u => rfl
    | error e => rfl
  refine congrArg (Prog.call _) (funext (fun r => ?_))
  cases r with
  | error e => rfl
  | ok u =>
    show ((body.tryCatch (fun e => (request .rollback).bind (fun _ => .raise e))).bind
        (fun a => (request .commit).bind (fun _ => .ret a))).embed (statements ι) (answers back)
      = ((body.embed (statements ι) (answers back)).tryCatch
        (fun e => (request .rollback).bind (fun _ => .raise e))).bind
        (fun a => (request .commit).bind (fun _ => .ret a))
    rw [Prog.embed_bind, hbody]
    refine congrArg _ (funext (fun a => congrArg (Prog.call _) (funext (fun r => ?_))))
    cases r with
    | ok u => rfl
    | error e => rfl

variable (back) in
theorem Body.embed {body : Prog (TxOp Op) (TxRes Res) E α} (hbody : Body body) :
    Body (body.embed (statements ι) (answers back)) where
  issues := hbody.issues.embed (fun op hop => by
    cases op with
    | run op => trivial
    | begin => exact hop.elim
    | commit => exact hop.elim
    | rollback => exact hop.elim)
  propagates := hbody.propagates.embed

end Engine
