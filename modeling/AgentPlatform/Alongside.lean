import AgentPlatform.Transition
import AgentPlatform.Program

/-!
# One program in a changing environment

`Prog.alongside` is the transition system of a single program: at each step the
program issues its next request, or the environment changes the state. A run of
it is one way to interleave the two.
-/

namespace Prog

variable {Op : Type} {Res : Op → Type} {E α S Env : Type}

/-- **A program among steps of the environment.** -/
def alongside (handler : (op : Op) → S → Except E (Res op) × S) (env : Env → S → S)
    (start : S → Prop) (p : Prog Op Res E α) : Machine (S × Prog Op Res E α) (Option Env) where
  init x := start x.1 ∧ x.2 = p
  step x l :=
    match l with
    | some e => some (env e x.1, x.2)
    | none =>
      match x.2 with
      | .call op k => some ((handler op x.1).2, k (handler op x.1).1)
      | _ => none

/-- **The rule**: what is left of a program that is safe under the steps of the
environment stays safe, for a postcondition they do not disturb. -/
theorem alongside_safe {handler : (op : Op) → S → Except E (Res op) × S} {env : Env → S → S}
    {start : S → Prop} {p : Prog Op Res E α} {rely : S → S → Prop}
    {Q : Except E α → S → Prop} {ok : S × Prog Op Res E α → Option Env → Prop}
    (hrefl : ∀ s, rely s s) (htrans : ∀ a b c, rely a b → rely b c → rely a c)
    (henv : ∀ e s, rely s (env e s)) (hQ : ∀ r s s', Q r s → rely s s' → Q r s')
    (hp : ∀ s, start s →
      p.Safe (fun op s r s' => handler op s = (r, s')) rely (fun _ _ => True) Q s)
    {x : S × Prog Op Res E α} (h : (alongside handler env start p).Reach ok x) :
    x.2.Safe (fun op s r s' => handler op s = (r, s')) rely (fun _ _ => True) Q x.1 := by
  refine Machine.Reach.invariant (M := alongside handler env start p)
    (I := fun x => x.2.Safe (fun op s r s' => handler op s = (r, s')) rely (fun _ _ => True) Q x.1)
    ?_ ?_ h
  · rintro ⟨s, q⟩ ⟨hs, rfl⟩
    exact hp s hs
  · rintro ⟨s, q⟩ l y - hq - hstep
    cases l with
    | some e =>
      obtain rfl := Option.some.inj hstep
      cases q with
      | ret a => exact hQ _ _ _ hq (henv e s)
      | raise e' => exact hQ _ _ _ hq (henv e s)
      | call op k => exact Safe.of_rely htrans hq (henv e s)
    | none =>
      cases q with
      | ret a => cases hstep
      | raise e => cases hstep
      | call op k =>
        obtain rfl := Option.some.inj hstep
        exact (hq s (hrefl s) _ _ rfl).2

end Prog
