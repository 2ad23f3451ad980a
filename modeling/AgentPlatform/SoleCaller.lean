import AgentPlatform.Program
import AgentPlatform.Transition

/-!
# A worker that makes one call after the other

A single worker makes calls of a service, each only when the one before has
ended. A call may be interrupted at any of its requests – the worker died, or was
cancelled – and then leaves the state as it is. `SoleCaller.machine` is the transition
system of such a worker, so that a run of it is a history of calls.

The rule asks for two invariants: `idle`, which holds between two calls, and the
weaker `torn`, which holds after each request of a call. Where calls may be
interrupted the two have to agree (`SoleCaller.Keeps`).
-/

/-- **A worker**: what a request does under a choice of the environment, and the
program of each call. -/
structure SoleCaller (Op : Type) (Res : Op → Type) (E C S Call R : Type) where
  /-- One request. -/
  handler : C → (op : Op) → S → Option (Except E (Res op) × S)
  /-- The program of a call. -/
  body : Call → Prog Op Res E R

namespace SoleCaller

variable {Op : Type} {Res : Op → Type} {E C S Call R : Type}

/-- The shared state, with the call in progress and what is left of it. -/
structure State (Op : Type) (Res : Op → Type) (E S Call R : Type) where
  shared : S
  running : Option (Call × Prog Op Res E R)

/-- What can happen next. -/
inductive Label (C Call : Type) where
  | call (call : Call)
  | act (c : C)
  | interrupt

/-- Let a call go on as `p`. -/
def land (s : S) (call : Call) : Prog Op Res E R → State Op Res E S Call R
  | .ret _ | .raise _ => ⟨s, none⟩
  | .call op k => ⟨s, some (call, .call op k)⟩

/-- One step of the worker. -/
def step (V : SoleCaller Op Res E C S Call R) (w : State Op Res E S Call R) :
    Label C Call → Option (State Op Res E S Call R)
  | .call call =>
    match w.running with
    | none => some (land w.shared call (V.body call))
    | some _ => none
  | .act c =>
    match w.running with
    | some (call, .call op k) =>
      (V.handler c op w.shared).map (fun x => land x.2 call (k x.1))
    | _ => none
  | .interrupt =>
    match w.running with
    | some _ => some ⟨w.shared, none⟩
    | none => none

/-- **The transition system of a worker**, idle at first. -/
def machine (V : SoleCaller Op Res E C S Call R) (start : S → Prop) :
    Machine (State Op Res E S Call R) (Label C Call) where
  init w := start w.shared ∧ w.running = none
  step := V.step

@[simp]
theorem land_shared (s : S) (call : Call) (p : Prog Op Res E R) :
    (land s call p : State Op Res E S Call R).shared = s := by
  cases p <;> rfl

/-- **A condition on calls, requests and interruptions**, as one on steps. -/
def stepOk (accept : S → Call → Prop) (allow : C → Op → S → Prop) (stops : Prop)
    (w : State Op Res E S Call R) : Label C Call → Prop
  | .call call => accept w.shared call
  | .act c => ∀ call op k, w.running = some (call, .call op k) → allow c op w.shared
  | .interrupt => stops

/-- It can be tested where the conditions on calls and requests can. -/
instance stepOk.decidable {accept : S → Call → Prop} {allow : C → Op → S → Prop} {stops : Prop}
    [∀ s call, Decidable (accept s call)] [∀ c op s, Decidable (allow c op s)] [Decidable stops]
    (w : State Op Res E S Call R) (l : Label C Call) : Decidable (stepOk accept allow stops w l) :=
  match l with
  | .call call => inferInstanceAs (Decidable (accept w.shared call))
  | .interrupt => inferInstanceAs (Decidable stops)
  | .act c =>
    match hrun : w.running with
    | some (_, .call op _) => decidable_of_iff (allow c op w.shared)
        ⟨fun h _ _ _ hp => by
          cases hrun.symm.trans hp
          exact h, fun h => h _ op _ hrun⟩
    | some (_, .ret _) => isTrue (fun _ _ _ hp => by cases hrun.symm.trans hp)
    | some (_, .raise _) => isTrue (fun _ _ _ hp => by cases hrun.symm.trans hp)
    | none => isTrue (fun _ _ _ hp => by cases hrun.symm.trans hp)

/-- **What the calls must keep**: each takes an idle state to an idle state through
torn ones, doing with each request what `G` says of the call. -/
structure Keeps (V : SoleCaller Op Res E C S Call R) (accept : S → Call → Prop)
    (allow : C → Op → S → Prop) (stops : Prop) (idle torn : S → Prop)
    (G : Call → S → S → Prop) : Prop where
  torn_of_idle : ∀ s, idle s → torn s
  stop : stops → ∀ s, torn s → idle s
  body : ∀ s call, accept s call → idle s →
    (V.body call).Safe (Prog.Handled V.handler allow) Eq (fun a b => torn b ∧ G call a b)
      (fun _ s' => idle s') s

section Rules

variable {V : SoleCaller Op Res E C S Call R} {start : S → Prop} {accept : S → Call → Prop}
  {allow : C → Op → S → Prop} {stops : Prop} {idle torn : S → Prop} {G : Call → S → S → Prop}

/-- A worker whose calls are all safe. -/
structure Good (V : SoleCaller Op Res E C S Call R) (allow : C → Op → S → Prop) (idle torn : S → Prop)
    (G : Call → S → S → Prop) (w : State Op Res E S Call R) : Prop where
  between : torn w.shared
  rest : w.running = none → idle w.shared
  safe : ∀ call p, w.running = some (call, p) →
    p.Safe (Prog.Handled V.handler allow) Eq (fun a b => torn b ∧ G call a b)
      (fun _ s' => idle s') w.shared

/-- A safe program lands well. -/
theorem good_land {s : S} {call : Call} {p : Prog Op Res E R} (ht : torn s)
    (hp : p.Safe (Prog.Handled V.handler allow) Eq (fun a b => torn b ∧ G call a b)
      (fun _ s' => idle s') s) : Good V allow idle torn G (land s call p) := by
  cases p with
  | ret a => exact ⟨ht, fun _ => hp, (fun _ _ h => nomatch h)⟩
  | raise e => exact ⟨ht, fun _ => hp, (fun _ _ h => nomatch h)⟩
  | call op k =>
    refine ⟨ht, (fun h => nomatch h), fun call' p' h => ?_⟩
    obtain ⟨rfl, rfl⟩ := Prod.mk.inj (Option.some.inj h)
    exact hp

/-- **One step.** A request does what its call promises; nothing else touches the
shared state. -/
theorem Keeps.step (hV : V.Keeps accept allow stops idle torn G)
    {w w' : State Op Res E S Call R} {l : Label C Call} (hw : Good V allow idle torn G w)
    (hok : stepOk accept allow stops w l) (h : V.step w l = some w') :
    Good V allow idle torn G w' ∧
      (w'.shared = w.shared ∨ ∃ call p, w.running = some (call, p) ∧ G call w.shared w'.shared) := by
  cases l with
  | call call =>
    cases hrun : w.running with
    | some x => simp only [SoleCaller.step, hrun] at h; cases h
    | none =>
      simp only [SoleCaller.step, hrun] at h
      obtain rfl := Option.some.inj h
      have hidle := hw.rest hrun
      exact ⟨good_land hw.between (hV.body _ _ hok hidle), .inl (land_shared ..)⟩
  | act c =>
    cases hrun : w.running with
    | none => simp only [SoleCaller.step, hrun] at h; cases h
    | some x =>
      obtain ⟨call, p⟩ := x
      cases p with
      | ret a => simp only [SoleCaller.step, hrun] at h; cases h
      | raise e => simp only [SoleCaller.step, hrun] at h; cases h
      | call op k =>
        simp only [SoleCaller.step, hrun] at h
        obtain ⟨⟨r, s'⟩, hH, rfl⟩ := Option.map_eq_some_iff.mp h
        obtain ⟨⟨htorn, hG⟩, hk⟩ := hw.safe call _ hrun w.shared rfl r s'
          ⟨c, hok call op k hrun, hH⟩
        refine ⟨good_land htorn hk, .inr ⟨call, _, rfl, ?_⟩⟩
        rw [land_shared]
        exact hG
  | interrupt =>
    cases hrun : w.running with
    | none => simp only [SoleCaller.step, hrun] at h; cases h
    | some x =>
      simp only [SoleCaller.step, hrun] at h
      obtain rfl := Option.some.inj h
      exact ⟨⟨hw.between, fun _ => hV.stop hok _ hw.between, (fun _ _ h => nomatch h)⟩, .inl rfl⟩

/-- **Every reachable state is good.** -/
theorem Keeps.reach (hV : V.Keeps accept allow stops idle torn G) (hstart : ∀ s, start s → idle s)
    {w : State Op Res E S Call R}
    (h : (V.machine start).Reach (stepOk accept allow stops) w) : Good V allow idle torn G w := by
  refine Machine.Reach.invariant (M := V.machine start) ?_ ?_ h
  · rintro w ⟨hs, hrun⟩
    have hidle := hstart _ hs
    refine ⟨hV.torn_of_idle _ hidle, fun _ => hidle, fun call p hp => ?_⟩
    rw [hrun] at hp
    cases hp
  · intro w l w' _ hw hok hs
    exact (hV.step hw hok hs).1

/-- **What every request does, a run does**, when it composes. -/
theorem Keeps.steps_rel (hV : V.Keeps accept allow stops idle torn G)
    (hstart : ∀ s, start s → idle s) {T : S → S → Prop} (hrefl : ∀ a, T a a)
    (htrans : ∀ a b c, T a b → T b c → T a c) (hG : ∀ call a b, G call a b → T a b)
    {w w' : State Op Res E S Call R}
    (h : (V.machine start).Reach (stepOk accept allow stops) w)
    (hs : (V.machine start).Steps (stepOk accept allow stops) w w') : T w.shared w'.shared := by
  refine Machine.Steps.trans_rel (M := V.machine start) (R := fun w w' => T w.shared w'.shared)
    (fun w => hrefl _) (fun a b c => htrans _ _ _) ?_ h hs
  intro w l w' hreach hok hstep
  rcases (hV.step (hV.reach hstart hreach) hok hstep).2 with heq | ⟨call, p, -, hg⟩
  · rw [heq]
    exact hrefl _
  · exact hG _ _ _ hg

end Rules

end SoleCaller
