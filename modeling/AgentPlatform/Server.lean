import AgentPlatform.Program
import AgentPlatform.Transition

/-!
# A process that calls one program over and over

A background worker runs one program in a loop. The program's requests change
a state that outlives the process – a broker, a database – and a part that
does not, the memory of the process. The process may stop at any moment,
between two requests or through an exception it does not survive; it is then
started again, and `restart` says what is left.

`Server.machine` is the transition system of such a process. The rule for it
asks for two invariants: `idle`, which holds whenever the program may be
called, and the weaker `torn`, which holds after each of its requests and is
all that a restart can count on (`Server.Keeps`).
-/

/-- **A process that calls one program in a loop**: what a request does under
a choice of the environment, the program, the exceptions that end the
process, and what a restart makes of the state. -/
structure Server (Op : Type) (Res : Op → Type) (E C S R : Type) where
  handler : C → (op : Op) → S → Option (Except E (Res op) × S)
  body : Prog Op Res E R
  fatal : E → Bool
  restart : S → S

namespace Server

variable {Op : Type} {Res : Op → Type} {E C S R : Type}

/-- The state of the process: the shared state, and what is left of the call
in progress. -/
structure State (Op : Type) (Res : Op → Type) (E S R : Type) where
  shared : S
  running : Option (Prog Op Res E R)

/-- What can happen next. -/
inductive Label (C : Type) where
  | call
  | act (c : C)
  | crash

/-- Let the call continue as `p`; an exception the process does not survive
restarts it. -/
def land (V : Server Op Res E C S R) (s : S) : Prog Op Res E R → State Op Res E S R
  | .ret _ => ⟨s, none⟩
  | .raise e => ⟨if V.fatal e then V.restart s else s, none⟩
  | .call op k => ⟨s, some (.call op k)⟩

/-- One step of the process. -/
def step (V : Server Op Res E C S R) (w : State Op Res E S R) :
    Label C → Option (State Op Res E S R)
  | .call => match w.running with
    | none => some (V.land w.shared V.body)
    | some _ => none
  | .act c => match w.running with
    | some (.call op k) => (V.handler c op w.shared).map (fun x => V.land x.2 (k x.1))
    | _ => none
  | .crash => some ⟨V.restart w.shared, none⟩

/-- **The transition system of a process**, idle at first. -/
def machine (V : Server Op Res E C S R) (start : S → Prop) :
    Machine (State Op Res E S R) (Label C) where
  init w := start w.shared ∧ w.running = none
  step := V.step

/-- What must hold when a call has ended. -/
def Ends (V : Server Op Res E C S R) (idle torn : S → Prop) : Except E R → S → Prop
  | .ok _, s => idle s
  | .error e, s => if V.fatal e then torn s else idle s

/-- **What the loop must keep**: the program takes an idle state to an idle
state through torn ones, and a restart finds an idle state in a torn one. `G`
is what every step does to the shared state. -/
structure Keeps (V : Server Op Res E C S R) (idle torn : S → Prop) (G : S → S → Prop) :
    Prop where
  refl : ∀ s, G s s
  trans : ∀ a b c, G a b → G b c → G a c
  torn_of_idle : ∀ s, idle s → torn s
  restart : ∀ s, torn s → idle (V.restart s) ∧ G s (V.restart s)
  body : ∀ s, idle s → V.body.Safe (Prog.Handled V.handler (fun _ _ _ => True)) Eq
    (fun a b => torn b ∧ G a b) (V.Ends idle torn) s

section Rules

variable {V : Server Op Res E C S R} {idle torn : S → Prop} {G : S → S → Prop}

/-- The state of a process whose calls are all safe. -/
def Good (V : Server Op Res E C S R) (idle torn : S → Prop) (G : S → S → Prop)
    (w : State Op Res E S R) : Prop :=
  torn w.shared ∧ match w.running with
    | none => idle w.shared
    | some p => p.Safe (Prog.Handled V.handler (fun _ _ _ => True)) Eq
        (fun a b => torn b ∧ G a b) (V.Ends idle torn) w.shared

/-- Landing in a safe program is good, and does no more than a restart. -/
theorem Keeps.land (hV : V.Keeps idle torn G) {s : S} {p : Prog Op Res E R}
    (ht : torn s)
    (hp : p.Safe (Prog.Handled V.handler (fun _ _ _ => True)) Eq
      (fun a b => torn b ∧ G a b) (V.Ends idle torn) s) :
    V.Good idle torn G (V.land s p) ∧ G s (V.land s p).shared := by
  cases p with
  | ret a => exact ⟨⟨ht, hp⟩, hV.refl s⟩
  | raise e =>
    have hend : V.Ends idle torn (.error e) s := hp
    unfold Server.land Ends at *
    by_cases he : V.fatal e = true
    · obtain ⟨hidle, hG⟩ := hV.restart s ht
      simp only [he, if_true]
      exact ⟨⟨hV.torn_of_idle _ hidle, hidle⟩, hG⟩
    · simp only [he] at hend ⊢
      exact ⟨⟨ht, hend⟩, hV.refl s⟩
  | call op k => exact ⟨⟨ht, hp⟩, hV.refl s⟩

/-- **One step** keeps a good state good. -/
theorem Keeps.step (hV : V.Keeps idle torn G) {w w' : State Op Res E S R} {l : Label C}
    (hw : V.Good idle torn G w) (h : V.step w l = some w') :
    V.Good idle torn G w' ∧ G w.shared w'.shared := by
  obtain ⟨s, running⟩ := w
  obtain ⟨ht, hrun⟩ := hw
  cases l with
  | call =>
    cases running with
    | some p => cases h
    | none =>
      cases h
      exact hV.land ht (hV.body s hrun)
  | act c =>
    cases running with
    | none => cases h
    | some p =>
      cases p with
      | ret a => cases h
      | raise e => cases h
      | call op k =>
        obtain ⟨⟨r, s₁⟩, hh, rfl⟩ := Option.map_eq_some_iff.mp h
        obtain ⟨⟨ht₁, hG⟩, hk⟩ := hrun s rfl r s₁ ⟨c, trivial, hh⟩
        obtain ⟨hgood, hG'⟩ := hV.land ht₁ hk
        exact ⟨hgood, hV.trans _ _ _ hG hG'⟩
  | crash =>
    cases h
    obtain ⟨hidle, hG⟩ := hV.restart s ht
    exact ⟨⟨hV.torn_of_idle _ hidle, hidle⟩, hG⟩

/-- **Every reachable state of the process is good.** -/
theorem Keeps.reach (hV : V.Keeps idle torn G) {start : S → Prop}
    (hstart : ∀ s, start s → idle s) {w : State Op Res E S R}
    (h : (V.machine start).Reach Machine.anyStep w) : V.Good idle torn G w := by
  refine Machine.Reach.invariant (I := V.Good idle torn G) (fun w₀ hw₀ => ?_)
    (fun w l w' _ hw _ hs => (hV.step hw hs).1) h
  obtain ⟨s, running⟩ := w₀
  obtain ⟨hs, hrun⟩ := hw₀
  cases hrun
  exact ⟨hV.torn_of_idle s (hstart s hs), hstart s hs⟩

/-- **What every step does, a run does.** -/
theorem Keeps.steps (hV : V.Keeps idle torn G) {start : S → Prop}
    (hstart : ∀ s, start s → idle s) {w w' : State Op Res E S R}
    (h : (V.machine start).Reach Machine.anyStep w)
    (hs : (V.machine start).Steps Machine.anyStep w w') : G w.shared w'.shared := by
  refine Machine.Steps.trans_rel (R := fun w w' => G w.shared w'.shared)
    (fun w => hV.refl w.shared) (fun a b c => hV.trans a.shared b.shared c.shared)
    (fun a l b ha _ hstep => ?_) h hs
  exact (hV.step (hV.reach hstart ha) hstep).2

end Rules

end Server
