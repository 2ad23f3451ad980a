import Mathlib.Logic.Relation

/-!
# Programs that issue requests

A service method is straight-line code between requests: it asks a database
for a row, a clock for the time, a provider for an answer, and goes on with
what it is told – or with the exception the request raised. `Prog` is that
shape and nothing else: a finished program, a raised exception, or a request
together with the program that follows each of its outcomes. The operations
`Op`, their answers `Res` and the exceptions `E` are parameters, so a method
is translated by listing the requests it can make.

What a request *does* is left to a handler, a relation between the state
before, the outcome and the state after. One program can thus be read under
several handlers: alone, or with other programs running between its requests.

`Prog.Safe` is the reasoning principle for both. It carries a *rely* – what
the rest of the system may do to the state before each request – and a
*guarantee* – what each request of the program does in return – next to the
postcondition. With nothing interfering it is the weakest precondition
`Prog.wp`, and `Prog.eval` runs a program against a list of choices.
-/

/-- **A program over a request signature.** `call op k` issues `op` and goes
on with `k` applied to its outcome, which is an answer or an exception. -/
inductive Prog (Op : Type) (Res : Op → Type) (E α : Type) : Type where
  | ret : α → Prog Op Res E α
  | raise : E → Prog Op Res E α
  | call : (op : Op) → (Except E (Res op) → Prog Op Res E α) → Prog Op Res E α

namespace Prog

variable {Op : Type} {Res : Op → Type} {E α β S C : Type}

/-- Sequencing: an exception skips what follows. -/
def bind : Prog Op Res E α → (α → Prog Op Res E β) → Prog Op Res E β
  | .ret a, f => f a
  | .raise e, _ => .raise e
  | .call op k, f => .call op (fun r => (k r).bind f)

/-- Catching: a handler takes over where an exception was raised. -/
def tryCatch : Prog Op Res E α → (E → Prog Op Res E α) → Prog Op Res E α
  | .ret a, _ => .ret a
  | .raise e, h => h e
  | .call op k, h => .call op (fun r => (k r).tryCatch h)

instance : Monad (Prog Op Res E) where
  pure := .ret
  bind := .bind

instance : MonadExcept E (Prog Op Res E) where
  throw := .raise
  tryCatch := .tryCatch

/-- Issue one request and return its answer, raising what it raises. -/
def perform (op : Op) : Prog Op Res E (Res op) :=
  .call op (fun r => match r with
    | .ok a => .ret a
    | .error e => .raise e)

/-- Run a program for each element of a list, in order. -/
def forEach (f : β → Prog Op Res E Unit) : List β → Prog Op Res E Unit
  | [] => .ret ()
  | b :: bs => (f b).bind (fun _ => forEach f bs)

/-- Catch the exceptions that `f` recognises, and return what it makes of
them; others pass. -/
def capture {X : Type} (f : E → Option X) (p : Prog Op Res E α) :
    Prog Op Res E (Except X α) :=
  (p.bind (fun a => .ret (.ok a))).tryCatch (fun e => match f e with
    | some x => .ret (.error x)
    | none => .raise e)

/-- Put a label on every request of a program. -/
def tag {T : Type} (t : T) :
    Prog Op Res E α → Prog (T × Op) (fun x => Res x.2) E α
  | .ret a => .ret a
  | .raise e => .raise e
  | .call op k => .call (t, op) (fun r => (k r).tag t)

@[simp] theorem pure_eq (a : α) : (pure a : Prog Op Res E α) = .ret a := rfl

@[simp] theorem throw_eq (e : E) : (throw e : Prog Op Res E α) = .raise e := rfl

@[simp] theorem bind_eq (p : Prog Op Res E α) (f : α → Prog Op Res E β) :
    (p >>= f) = p.bind f := rfl

@[simp] theorem tryCatch_eq (p : Prog Op Res E α) (h : E → Prog Op Res E α) :
    (MonadExcept.tryCatch p h) = p.tryCatch h := rfl

/-! ## Reasoning about a program

The handler is a relation: `H op s r s'` says that `op`, issued in `s`, may
end with the outcome `r` and the state `s'`. -/

section Safe

variable (H : (op : Op) → S → Except E (Res op) → S → Prop)
  (rely guar : S → S → Prop)

/-- **A program is safe** for a postcondition when each of its requests,
issued after any interference the rely allows, does what the guarantee says,
and every way it ends satisfies the postcondition. -/
def Safe : Prog Op Res E α → (Except E α → S → Prop) → S → Prop
  | .ret a, Q, s => Q (.ok a) s
  | .raise e, Q, s => Q (.error e) s
  | .call op k, Q, s => ∀ s₁, rely s s₁ → ∀ r s₂, H op s₁ r s₂ →
      guar s₁ s₂ ∧ Safe (k r) Q s₂

/-- **The weakest precondition**: safety with nothing interfering and nothing
guaranteed. -/
def wp (p : Prog Op Res E α) (Q : Except E α → S → Prop) (s : S) : Prop :=
  p.Safe H Eq (fun _ _ => True) Q s

end Safe

/-- What a sequence must establish after its first program: the second is
safe when the first returned, and the postcondition holds when it raised. -/
def thenSafe (H : (op : Op) → S → Except E (Res op) → S → Prop)
    (rely guar : S → S → Prop) (f : α → Prog Op Res E β)
    (Q : Except E β → S → Prop) : Except E α → S → Prop
  | .ok a, s => (f a).Safe H rely guar Q s
  | .error e, s => Q (.error e) s

/-- What a guarded program must establish: the handler is safe when the
program raised. -/
def catchSafe (H : (op : Op) → S → Except E (Res op) → S → Prop)
    (rely guar : S → S → Prop) (h : E → Prog Op Res E α)
    (Q : Except E α → S → Prop) : Except E α → S → Prop
  | .ok a, s => Q (.ok a) s
  | .error e, s => (h e).Safe H rely guar Q s

section Rules

variable {H : (op : Op) → S → Except E (Res op) → S → Prop}
  {rely guar : S → S → Prop}

@[simp] theorem safe_ret (a : α) (Q : Except E α → S → Prop) (s : S) :
    (Prog.ret a : Prog Op Res E α).Safe H rely guar Q s ↔ Q (.ok a) s := Iff.rfl

@[simp] theorem safe_raise (e : E) (Q : Except E α → S → Prop) (s : S) :
    (Prog.raise e : Prog Op Res E α).Safe H rely guar Q s ↔ Q (.error e) s := Iff.rfl

/-- **Sequencing rule.** -/
theorem safe_bind (p : Prog Op Res E α) (f : α → Prog Op Res E β)
    (Q : Except E β → S → Prop) (s : S) :
    (p.bind f).Safe H rely guar Q s
      ↔ p.Safe H rely guar (thenSafe H rely guar f Q) s := by
  induction p generalizing s with
  | ret a => rfl
  | raise e => rfl
  | call op k ih =>
    refine forall₂_congr (fun s₁ _ => forall₃_congr (fun r s₂ _ => ?_))
    exact and_congr_right (fun _ => ih r s₂)

/-- **Catching rule.** -/
theorem safe_tryCatch (p : Prog Op Res E α) (h : E → Prog Op Res E α)
    (Q : Except E α → S → Prop) (s : S) :
    (p.tryCatch h).Safe H rely guar Q s
      ↔ p.Safe H rely guar (catchSafe H rely guar h Q) s := by
  induction p generalizing s with
  | ret a => rfl
  | raise e => rfl
  | call op k ih =>
    refine forall₂_congr (fun s₁ _ => forall₃_congr (fun r s₂ _ => ?_))
    exact and_congr_right (fun _ => ih r s₂)

/-- What a program must establish for the value its exceptions are captured
in. -/
def captured {X : Type} (f : E → Option X) (Q : Except E (Except X α) → S → Prop) :
    Except E α → S → Prop
  | .ok a, s => Q (.ok (.ok a)) s
  | .error e, s => match f e with
    | some x => Q (.ok (.error x)) s
    | none => Q (.error e) s

theorem captured_of_some {X : Type} {f : E → Option X}
    {Q : Except E (Except X α) → S → Prop} {e : E} {x : X} (he : f e = some x) (s : S) :
    captured f Q (.error e) s = Q (.ok (.error x)) s := by
  show (match f e with
    | some x => Q (.ok (.error x)) s
    | none => Q (.error e) s) = _
  rw [he]

theorem captured_of_none {X : Type} {f : E → Option X}
    {Q : Except E (Except X α) → S → Prop} {e : E} (he : f e = none) (s : S) :
    captured f Q (.error e) s = Q (.error e) s := by
  show (match f e with
    | some x => Q (.ok (.error x)) s
    | none => Q (.error e) s) = _
  rw [he]

/-- **Capturing rule.** -/
theorem safe_capture {X : Type} (f : E → Option X) (p : Prog Op Res E α)
    (Q : Except E (Except X α) → S → Prop) (s : S) :
    (p.capture f).Safe H rely guar Q s ↔ p.Safe H rely guar (captured f Q) s := by
  unfold capture
  rw [safe_tryCatch, safe_bind]
  have hpost : thenSafe H rely guar (fun a => .ret (.ok a)) (catchSafe H rely guar
      (fun e => match f e with
        | some x => .ret (.error x)
        | none => .raise e) Q) = captured f Q := by
    funext r s'
    cases r with
    | ok a => rfl
    | error e =>
      show Prog.Safe H rely guar (match f e with
        | some x => .ret (.error x)
        | none => .raise e) Q s' = _
      cases he : f e with
      | some x => rw [captured_of_some he]; rfl
      | none => rw [captured_of_none he]; rfl
  rw [hpost]

/-- **Request rule.** -/
theorem safe_perform (op : Op) (Q : Except E (Res op) → S → Prop) (s : S) :
    (perform op : Prog Op Res E (Res op)).Safe H rely guar Q s
      ↔ ∀ s₁, rely s s₁ → ∀ r s₂, H op s₁ r s₂ → guar s₁ s₂ ∧ Q r s₂ := by
  refine forall₂_congr (fun s₁ _ => forall₃_congr (fun r s₂ _ => ?_))
  refine and_congr_right (fun _ => ?_)
  cases r <;> rfl

/-- **Consequence rule.** A weaker postcondition is easier to meet. -/
theorem Safe.mono {p : Prog Op Res E α} {Q Q' : Except E α → S → Prop} {s : S}
    (h : p.Safe H rely guar Q s) (hQ : ∀ r s', Q r s' → Q' r s') :
    p.Safe H rely guar Q' s := by
  induction p generalizing s with
  | ret a => exact hQ _ _ h
  | raise e => exact hQ _ _ h
  | call op k ih =>
    intro s₁ hr r s₂ hH
    obtain ⟨hg, hk⟩ := h s₁ hr r s₂ hH
    exact ⟨hg, ih r hk⟩

/-- Sequencing, by a postcondition in between. -/
theorem Safe.bind {p : Prog Op Res E α} {f : α → Prog Op Res E β} {Q : Except E α → S → Prop}
    {Q' : Except E β → S → Prop} {s : S} (h : p.Safe H rely guar Q s)
    (hok : ∀ a s', Q (.ok a) s' → (f a).Safe H rely guar Q' s')
    (herr : ∀ e s', Q (.error e) s' → Q' (.error e) s') : (p.bind f).Safe H rely guar Q' s := by
  refine (safe_bind p f Q' s).mpr (h.mono (fun r s' hr => ?_))
  cases r with
  | ok a => exact hok a s' hr
  | error e => exact herr e s' hr

/-- **Labels do not matter to a program**: it is safe under a handler that sees
them when it is safe under the handler of its own label. -/
theorem safe_tag {T : Type} {H' : (x : T × Op) → S → Except E (Res x.2) → S → Prop} (t : T)
    (p : Prog Op Res E α) (Q : Except E α → S → Prop) (s : S) :
    (p.tag t).Safe H' rely guar Q s
      ↔ p.Safe (fun op => H' (t, op)) rely guar Q s := by
  induction p generalizing s with
  | ret a => rfl
  | raise e => rfl
  | call op k ih =>
    refine forall₂_congr (fun s₁ _ => forall₃_congr (fun r s₂ _ => ?_))
    exact and_congr_right (fun _ => ih r s₂)

/-- What a step must establish for a loop to go on: its invariant when it
returned, and the postcondition of exceptions when it raised. -/
def outcome (P : α → S → Prop) (F : E → S → Prop) : Except E α → S → Prop
  | .ok a, s => P a s
  | .error e, s => F e s

/-- **Loop rule**, with an invariant over what is left to do. -/
theorem safe_forEach {f : β → Prog Op Res E Unit} {I : List β → S → Prop}
    {F : E → S → Prop}
    (hstep : ∀ b bs s, I (b :: bs) s →
      (f b).Safe H rely guar (outcome (fun _ => I bs) F) s)
    {bs : List β} {s : S} (hs : I bs s) :
    (forEach f bs).Safe H rely guar (outcome (fun _ => I []) F) s := by
  induction bs generalizing s with
  | nil => exact hs
  | cons b bs ih =>
    refine (safe_bind _ _ _ _).mpr ((hstep b bs s hs).mono (fun r s' hr => ?_))
    cases r with
    | ok a => exact ih hr
    | error e => exact hr

/-- **Interference rule.** With a transitive rely, a program waiting at a
request stays safe while others act. -/
theorem Safe.of_rely {op : Op} {k : Except E (Res op) → Prog Op Res E α}
    {Q : Except E α → S → Prop} {s s' : S}
    (htrans : ∀ a b c, rely a b → rely b c → rely a c)
    (h : (Prog.call op k).Safe H rely guar Q s) (hr : rely s s') :
    (Prog.call op k).Safe H rely guar Q s' := by
  intro s₁ hs₁
  exact h s₁ (htrans _ _ _ hr hs₁)

/-- Safety under more outcomes is safety under fewer. -/
theorem Safe.of_handler {H' : (op : Op) → S → Except E (Res op) → S → Prop}
    (hH : ∀ op s r s', H' op s r s' → H op s r s') {p : Prog Op Res E α}
    {Q : Except E α → S → Prop} {s : S} (h : p.Safe H rely guar Q s) :
    p.Safe H' rely guar Q s := by
  induction p generalizing s with
  | ret a => exact h
  | raise e => exact h
  | call op k ih =>
    intro s₁ hr r s₂ hop
    obtain ⟨hg, hk⟩ := h s₁ hr r s₂ (hH op s₁ r s₂ hop)
    exact ⟨hg, ih r hk⟩

/-- A program ends in a state related to the one it started from, when
interference and its own requests are. -/
theorem Safe.since {R : S → S → Prop} (hrefl : ∀ a, R a a)
    (htrans : ∀ a b c, R a b → R b c → R a c) (hrely : ∀ a b, rely a b → R a b)
    (hguar : ∀ a b, guar a b → R a b) {p : Prog Op Res E α} {Q : Except E α → S → Prop} {s : S}
    (h : p.Safe H rely guar Q s) : p.Safe H rely guar (fun r b => Q r b ∧ R s b) s := by
  induction p generalizing s with
  | ret a => exact ⟨h, hrefl s⟩
  | raise e => exact ⟨h, hrefl s⟩
  | call op k ih =>
    intro s₁ hs₁ r s₂ hr
    obtain ⟨hg, hsafe⟩ := h s₁ hs₁ r s₂ hr
    refine ⟨hg, (ih r hsafe).mono (fun r' b hb => ⟨hb.1, ?_⟩)⟩
    exact htrans _ _ _ (htrans _ _ _ (hrely _ _ hs₁) (hguar _ _ hg)) hb.2

/-- Two postconditions at once. -/
theorem Safe.and {p : Prog Op Res E α} {Q Q' : Except E α → S → Prop} {s : S}
    (h : p.Safe H rely guar Q s) (h' : p.Safe H rely guar Q' s) :
    p.Safe H rely guar (fun r b => Q r b ∧ Q' r b) s := by
  induction p generalizing s with
  | ret a => exact ⟨h, h'⟩
  | raise e => exact ⟨h, h'⟩
  | call op k ih =>
    intro s₁ hs₁ r s₂ hr
    obtain ⟨hg, hsafe⟩ := h s₁ hs₁ r s₂ hr
    exact ⟨hg, ih r hsafe (h' s₁ hs₁ r s₂ hr).2⟩

/-- **A program that is safe among others is correct alone**: an invariant its
own requests keep is all the interference there is. -/
theorem Safe.alone {I : S → Prop} {p : Prog Op Res E α} {Q : Except E α → S → Prop}
    {s : S} (hrefl : ∀ a, rely a a) (hs : I s)
    (h : p.Safe H (fun a b => I b ∧ rely a b) (fun a b => I b ∧ guar a b) Q s) :
    p.wp H (fun r s' => I s' ∧ Q r s') s := by
  induction p generalizing s with
  | ret a => exact ⟨hs, h⟩
  | raise e => exact ⟨hs, h⟩
  | call op k ih =>
    rintro s₁ rfl r s₂ hH
    obtain ⟨⟨hI, -⟩, hk⟩ := h s ⟨hs, hrefl s⟩ r s₂ hH
    exact ⟨trivial, ih r hI hk⟩

end Rules

/-! ## Programs by the requests they issue

For a property that every request keeps on its own, it is enough to know
*which* requests a program can issue, whatever it is answered. -/

/-- Every request the program can issue satisfies `P`. -/
def Issues (P : Op → Prop) : Prog Op Res E α → Prop
  | .ret _ => True
  | .raise _ => True
  | .call op k => P op ∧ ∀ r, Issues P (k r)

section Issues

variable {P : Op → Prop}

@[simp] theorem issues_ret (a : α) : Issues P (.ret a : Prog Op Res E α) := trivial

@[simp] theorem issues_raise (e : E) : Issues P (.raise e : Prog Op Res E α) := trivial

theorem issues_perform {op : Op} (h : P op) :
    Issues P (perform op : Prog Op Res E (Res op)) := by
  refine ⟨h, fun r => ?_⟩
  cases r <;> trivial

theorem Issues.bind {p : Prog Op Res E α} {f : α → Prog Op Res E β} (hp : p.Issues P)
    (hf : ∀ a, (f a).Issues P) : (p.bind f).Issues P := by
  induction p with
  | ret a => exact hf a
  | raise e => trivial
  | call op k ih => exact ⟨hp.1, fun r => ih r (hp.2 r)⟩

theorem Issues.tryCatch {p : Prog Op Res E α} {h : E → Prog Op Res E α} (hp : p.Issues P)
    (hh : ∀ e, (h e).Issues P) : (p.tryCatch h).Issues P := by
  induction p with
  | ret a => trivial
  | raise e => exact hh e
  | call op k ih => exact ⟨hp.1, fun r => ih r (hp.2 r)⟩

/-- **Safety by the requests issued**: if interference keeps `F`, and every
request that satisfies `P` keeps it too and does what is guaranteed, then so
does a program that issues no other. -/
theorem Issues.safe {H : (op : Op) → S → Except E (Res op) → S → Prop}
    {rely guar : S → S → Prop} {F : S → Prop} (hrely : ∀ a b, F a → rely a b → F b)
    (hstep : ∀ op, P op → ∀ a r b, F a → H op a r b → guar a b ∧ F b)
    {p : Prog Op Res E α} (hp : p.Issues P) {s : S} (hs : F s) :
    p.Safe H rely guar (fun _ _ => True) s := by
  induction p generalizing s with
  | ret a => trivial
  | raise e => trivial
  | call op k ih =>
    intro s₁ hr r s₂ hH
    obtain ⟨hg, hF⟩ := hstep op hp.1 s₁ r s₂ (hrely s s₁ hs hr) hH
    exact ⟨hg, ih r (hp.2 r) hF⟩

end Issues

/-- **A property of programs that their composition keeps**, whatever they
return. -/
structure Closed (H : (α : Type) → Prog Op Res E α → Prop) : Prop where
  ret : ∀ {α : Type} (a : α), H α (.ret a)
  raise : ∀ {α : Type} (e : E), H α (.raise e)
  bind : ∀ {α β : Type} {p : Prog Op Res E α} {f : α → Prog Op Res E β},
    H α p → (∀ a, H β (f a)) → H β (p.bind f)
  tryCatch : ∀ {α : Type} {p : Prog Op Res E α} {h : E → Prog Op Res E α},
    H α p → (∀ e, H α (h e)) → H α (p.tryCatch h)

/-- **A property of whole programs that a prefix with `H` keeps**: the prefix
may raise, or go on with a program that has the property. -/
structure Leads (H : (α : Type) → Prog Op Res E α → Prop) {β : Type}
    (T : Prog Op Res E β → Prop) : Prop where
  raise : ∀ e, T (.raise e)
  bind : ∀ {α : Type} {p : Prog Op Res E α} {f : α → Prog Op Res E β},
    H α p → (∀ a, T (f a)) → T (p.bind f)

theorem Closed.leads {H : (α : Type) → Prog Op Res E α → Prop} (h : Closed H) (β : Type) :
    Leads H (H β) :=
  ⟨h.raise, h.bind⟩

/-- **What a program asks and ends with**: when every answer satisfies `A`,
every request satisfies `P`, and the program ends with `Q`. -/
def Asks (P : Op → Prop) (A : (op : Op) → Except E (Res op) → Prop) :
    Prog Op Res E α → (Except E α → Prop) → Prop
  | .ret a, Q => Q (.ok a)
  | .raise e, Q => Q (.error e)
  | .call op k, Q => P op ∧ ∀ r, A op r → Asks P A (k r) Q

section Asks

variable {P : Op → Prop} {A : (op : Op) → Except E (Res op) → Prop}

theorem asks_perform {op : Op} {Q : Except E (Res op) → Prop} (hop : P op)
    (h : ∀ r, A op r → Q r) : (perform op : Prog Op Res E (Res op)).Asks P A Q := by
  refine ⟨hop, fun r hr => ?_⟩
  cases r with
  | ok a => exact h _ hr
  | error e => exact h _ hr

theorem Asks.mono {p : Prog Op Res E α} {Q Q' : Except E α → Prop} (h : p.Asks P A Q)
    (hQ : ∀ r, Q r → Q' r) : p.Asks P A Q' := by
  induction p with
  | ret a => exact hQ _ h
  | raise e => exact hQ _ h
  | call op k ih => exact ⟨h.1, fun r hr => ih r (h.2 r hr)⟩

theorem Asks.bind {p : Prog Op Res E α} {f : α → Prog Op Res E β} {Q : Except E α → Prop}
    {Q' : Except E β → Prop} (hp : p.Asks P A Q) (hf : ∀ a, Q (.ok a) → (f a).Asks P A Q')
    (he : ∀ e, Q (.error e) → Q' (.error e)) : (p.bind f).Asks P A Q' := by
  induction p with
  | ret a => exact hf a hp
  | raise e => exact he e hp
  | call op k ih => exact ⟨hp.1, fun r hr => ih r (hp.2 r hr)⟩

theorem Asks.tryCatch {p : Prog Op Res E α} {h : E → Prog Op Res E α} {Q Q' : Except E α → Prop}
    (hp : p.Asks P A Q) (ha : ∀ a, Q (.ok a) → Q' (.ok a))
    (hh : ∀ e, Q (.error e) → (h e).Asks P A Q') : (p.tryCatch h).Asks P A Q' := by
  induction p with
  | ret a => exact ha a hp
  | raise e => exact hh e hp
  | call op k ih => exact ⟨hp.1, fun r hr => ih r (hp.2 r hr)⟩

/-- Capturing changes the outcome, not what is asked. -/
theorem Asks.capture {X : Type} {f : E → Option X} {p : Prog Op Res E α}
    (hp : p.Asks P A (fun _ => True)) : (p.capture f).Asks P A (fun _ => True) := by
  have hbind : (p.bind (fun a => (.ret (.ok a) : Prog Op Res E (Except X α)))).Asks P A
      (fun _ => True) := hp.bind (fun _ _ => trivial) (fun _ _ => trivial)
  refine hbind.tryCatch (fun _ _ => trivial) (fun e _ => ?_)
  cases f e with
  | some x => trivial
  | none => trivial

/-- Fewer answers, fewer ways to go. -/
theorem Asks.of_answers {A' : (op : Op) → Except E (Res op) → Prop}
    (hA : ∀ op r, A' op r → A op r) {p : Prog Op Res E α} {Q : Except E α → Prop}
    (h : p.Asks P A Q) : p.Asks P A' Q := by
  induction p with
  | ret a => exact h
  | raise e => exact h
  | call op k ih => exact ⟨h.1, fun r hr => ih r (h.2 r (hA op r hr))⟩

/-- **Safety by what is asked**, with what is kept: interference keeps `F`, and
a request that satisfies `P` keeps it too, does what is guaranteed and is
answered with `A`. -/
theorem Asks.safe_keeping {H : (op : Op) → S → Except E (Res op) → S → Prop}
    {rely guar : S → S → Prop} {F : S → Prop} (hrely : ∀ a b, F a → rely a b → F b)
    (hstep : ∀ op, P op → ∀ a r b, F a → H op a r b → guar a b ∧ F b ∧ A op r)
    {p : Prog Op Res E α} {Q : Except E α → Prop} (hp : p.Asks P A Q) {s : S} (hs : F s) :
    p.Safe H rely guar (fun r b => Q r ∧ F b) s := by
  induction p generalizing s with
  | ret a => exact ⟨hp, hs⟩
  | raise e => exact ⟨hp, hs⟩
  | call op k ih =>
    intro s₁ hr r s₂ hH
    obtain ⟨hg, hF, hA⟩ := hstep op hp.1 s₁ r s₂ (hrely s s₁ hs hr) hH
    exact ⟨hg, ih r (hp.2 r hA) hF⟩

end Asks

section Wp

variable {H : (op : Op) → S → Except E (Res op) → S → Prop}

@[simp] theorem wp_perform (op : Op) (Q : Except E (Res op) → S → Prop) (s : S) :
    (perform op : Prog Op Res E (Res op)).wp H Q s
      ↔ ∀ r s', H op s r s' → Q r s' := by
  refine (safe_perform op Q s).trans ⟨fun h r s' hH => (h s rfl r s' hH).2, ?_⟩
  rintro h s₁ rfl r s₂ hH
  exact ⟨trivial, h r s₂ hH⟩

/-- Sequencing, with nothing interfering. -/
theorem wp_bind (p : Prog Op Res E α) (f : α → Prog Op Res E β)
    (Q : Except E β → S → Prop) (s : S) :
    (p.bind f).wp H Q s ↔ p.wp H (thenSafe H Eq (fun _ _ => True) f Q) s :=
  safe_bind p f Q s

/-- Consequence, with nothing interfering. -/
theorem wp_mono {p : Prog Op Res E α} {Q Q' : Except E α → S → Prop} {s : S}
    (h : p.wp H Q s) (hQ : ∀ r s', Q r s' → Q' r s') : p.wp H Q' s :=
  Safe.mono h hQ

end Wp

/-! ## What a program can end with

`Safe` speaks of every way a program can go; `Runs` says that it can go one
way, with nothing interfering. A safety property is refuted by a run. -/

/-- **A run of a program**: from `s` it can end with the outcome `r` in `s'`. -/
def Runs (H : (op : Op) → S → Except E (Res op) → S → Prop) :
    Prog Op Res E α → S → Except E α → S → Prop
  | .ret a, s, r, s' => r = .ok a ∧ s' = s
  | .raise e, s, r, s' => r = .error e ∧ s' = s
  | .call op k, s, r, s' => ∃ r₁ s₁, H op s r₁ s₁ ∧ Runs H (k r₁) s₁ r s'

section Runs

variable {H : (op : Op) → S → Except E (Res op) → S → Prop}

theorem runs_ret (a : α) (s : S) : (Prog.ret a : Prog Op Res E α).Runs H s (.ok a) s :=
  ⟨rfl, rfl⟩

theorem runs_raise (e : E) (s : S) :
    (Prog.raise e : Prog Op Res E α).Runs H s (.error e) s :=
  ⟨rfl, rfl⟩

theorem runs_perform {op : Op} {s s' : S} {r : Except E (Res op)} (h : H op s r s') :
    (perform op : Prog Op Res E (Res op)).Runs H s r s' := by
  refine ⟨r, s', h, ?_⟩
  cases r with
  | ok a => exact ⟨rfl, rfl⟩
  | error e => exact ⟨rfl, rfl⟩

theorem Runs.bind {p : Prog Op Res E α} {f : α → Prog Op Res E β} {s s₁ s' : S} {a : α}
    {r : Except E β} (hp : p.Runs H s (.ok a) s₁) (hf : (f a).Runs H s₁ r s') :
    (p.bind f).Runs H s r s' := by
  induction p generalizing s with
  | ret b =>
    obtain ⟨hb, rfl⟩ := hp
    cases hb
    exact hf
  | raise e => cases hp.1
  | call op k ih =>
    obtain ⟨r₁, s₂, hop, hk⟩ := hp
    exact ⟨r₁, s₂, hop, ih r₁ hk⟩

theorem Runs.bind_error {p : Prog Op Res E α} (f : α → Prog Op Res E β) {s s' : S} {e : E}
    (hp : p.Runs H s (.error e) s') : (p.bind f).Runs H s (.error e) s' := by
  induction p generalizing s with
  | ret b => cases hp.1
  | raise e' =>
    obtain ⟨he, rfl⟩ := hp
    cases he
    exact ⟨rfl, rfl⟩
  | call op k ih =>
    obtain ⟨r₁, s₂, hop, hk⟩ := hp
    exact ⟨r₁, s₂, hop, ih r₁ hk⟩

theorem Runs.tryCatch_ok {p : Prog Op Res E α} (h : E → Prog Op Res E α) {s s' : S} {a : α}
    (hp : p.Runs H s (.ok a) s') : (p.tryCatch h).Runs H s (.ok a) s' := by
  induction p generalizing s with
  | ret b => exact hp
  | raise e => cases hp.1
  | call op k ih =>
    obtain ⟨r₁, s₂, hop, hk⟩ := hp
    exact ⟨r₁, s₂, hop, ih r₁ hk⟩

theorem Runs.tryCatch {p : Prog Op Res E α} {h : E → Prog Op Res E α} {s s₁ s' : S} {e : E}
    {r : Except E α} (hp : p.Runs H s (.error e) s₁) (hh : (h e).Runs H s₁ r s') :
    (p.tryCatch h).Runs H s r s' := by
  induction p generalizing s with
  | ret b => cases hp.1
  | raise e' =>
    obtain ⟨he, rfl⟩ := hp
    cases he
    exact hh
  | call op k ih =>
    obtain ⟨r₁, s₂, hop, hk⟩ := hp
    exact ⟨r₁, s₂, hop, ih r₁ hk⟩

/-- **What is safe holds of every run.** -/
theorem Safe.runs {rely guar : S → S → Prop} (hrefl : ∀ a, rely a a) {p : Prog Op Res E α}
    {Q : Except E α → S → Prop} {s s' : S} {r : Except E α} (hp : p.Safe H rely guar Q s)
    (hr : p.Runs H s r s') : Q r s' := by
  induction p generalizing s with
  | ret a =>
    obtain ⟨rfl, rfl⟩ := hr
    exact hp
  | raise e =>
    obtain ⟨rfl, rfl⟩ := hr
    exact hp
  | call op k ih =>
    obtain ⟨r₁, s₁, hop, hk⟩ := hr
    exact ih r₁ (hp s (hrefl s) r₁ s₁ hop).2 hk

/-- **What a program asks, a run has asked**, under a handler that logs the
requests and answers within `A`. -/
theorem Asks.runs (log : S → List Op) {P : Op → Prop}
    {A : (op : Op) → Except E (Res op) → Prop}
    (hH : ∀ op s r s', H op s r s' → A op r ∧ log s' = log s ++ [op]) {p : Prog Op Res E α}
    {Q : Except E α → Prop} {s s' : S} {r : Except E α} (hp : p.Asks P A Q)
    (hr : p.Runs H s r s') (hs : ∀ op ∈ log s, P op) : Q r ∧ ∀ op ∈ log s', P op := by
  induction p generalizing s with
  | ret a =>
    obtain ⟨rfl, rfl⟩ := hr
    exact ⟨hp, hs⟩
  | raise e =>
    obtain ⟨rfl, rfl⟩ := hr
    exact ⟨hp, hs⟩
  | call op k ih =>
    obtain ⟨r₁, s₁, hop, hk⟩ := hr
    obtain ⟨hA, hlog⟩ := hH op s r₁ s₁ hop
    refine ih r₁ (hp.2 r₁ hA) hk (fun op' hop' => ?_)
    rw [hlog] at hop'
    rcases List.mem_append.mp hop' with hop' | hop'
    · exact hs op' hop'
    · rw [List.mem_singleton.mp hop']
      exact hp.1

theorem Runs.capture_ok {X : Type} (f : E → Option X) {p : Prog Op Res E α} {s s' : S} {a : α}
    (hp : p.Runs H s (.ok a) s') : (p.capture f).Runs H s (.ok (.ok a)) s' :=
  (hp.bind (runs_ret (Except.ok a) s')).tryCatch_ok _

/-- An exception that is not recognised passes. -/
theorem Runs.capture_raise {X : Type} {f : E → Option X} {p : Prog Op Res E α} {s s' : S} {e : E}
    (hp : p.Runs H s (.error e) s') (he : f e = none) :
    (p.capture f).Runs H s (.error e) s' := by
  refine (Runs.bind_error _ hp).tryCatch ?_
  rw [he]
  exact runs_raise e s'

end Runs

/-! ## Running a program

A handler that can be evaluated takes the environment's choice as an
argument and may refuse it. -/

/-- The handler relation of an evaluated handler, restricted to the choices
`allow` admits. -/
def Handled (h : C → (op : Op) → S → Option (Except E (Res op) × S))
    (allow : C → Op → S → Prop) (op : Op) (s : S) (r : Except E (Res op))
    (s' : S) : Prop :=
  ∃ c, allow c op s ∧ h c op s = some (r, s')

/-- **Run a program** on a list of choices, one per request; the list must be
used up exactly. -/
def eval (h : C → (op : Op) → S → Option (Except E (Res op) × S)) :
    List C → Prog Op Res E α → S → Option (Except E α × S)
  | [], .ret a, s => some (.ok a, s)
  | [], .raise e, s => some (.error e, s)
  | c :: cs, .call op k, s => (h c op s).bind (fun x => eval h cs (k x.1) x.2)
  | [], .call _ _, _ => none
  | _ :: _, .ret _, _ => none
  | _ :: _, .raise _, _ => none

/-- A handler that keeps a log of the requests served. -/
def logged (h : C → (op : Op) → S → Option (Except E (Res op) × S)) (c : C) (op : Op)
    (s : S × List Op) : Option (Except E (Res op) × (S × List Op)) :=
  (h c op s.1).map (fun x => (x.1, (x.2, s.2 ++ [op])))

/-- **What the weakest precondition promises, a run delivers.** -/
theorem wp_eval {h : C → (op : Op) → S → Option (Except E (Res op) × S)}
    {p : Prog Op Res E α} {Q : Except E α → S → Prop} {s s' : S} {cs : List C}
    {r : Except E α} (hp : p.wp (Handled h (fun _ _ _ => True)) Q s)
    (hr : p.eval h cs s = some (r, s')) : Q r s' := by
  induction cs generalizing p s with
  | nil =>
    cases p with
    | ret a => cases hr; exact hp
    | raise e => cases hr; exact hp
    | call op k => cases hr
  | cons c cs ih =>
    cases p with
    | ret a => cases hr
    | raise e => cases hr
    | call op k =>
      obtain ⟨⟨r₁, s₁⟩, hh, hk⟩ := Option.bind_eq_some_iff.mp hr
      exact ih (hp s rfl r₁ s₁ ⟨c, trivial, hh⟩).2 hk

/-- A handler that keeps a record of the choices made. -/
def recorded (h : C → (op : Op) → S → Option (Except E (Res op) × S)) (c : C) (op : Op)
    (s : S × List C) : Option (Except E (Res op) × (S × List C)) :=
  (h c op s.1).map (fun x => (x.1, (x.2, s.2 ++ [c])))

/-- Keeping the record changes nothing, and it holds the choices of the run. -/
theorem eval_recorded {h : C → (op : Op) → S → Option (Except E (Res op) × S)}
    {p : Prog Op Res E α} {s s' : S} {cs : List C} {r : Except E α} (l : List C)
    (hr : p.eval h cs s = some (r, s')) :
    p.eval (recorded h) cs (s, l) = some (r, (s', l ++ cs)) := by
  induction cs generalizing p s l with
  | nil =>
    cases p with
    | ret a => cases hr; simp [eval]
    | raise e => cases hr; simp [eval]
    | call op k => cases hr
  | cons c cs ih =>
    cases p with
    | ret a => cases hr
    | raise e => cases hr
    | call op k =>
      obtain ⟨⟨r₁, s₁⟩, hh, hk⟩ := Option.bind_eq_some_iff.mp hr
      have hrest := ih (l ++ [c]) hk
      rw [List.append_assoc] at hrest
      simpa [eval, recorded, hh] using hrest

end Prog
