import AgentPlatform.ToolServices

/-!
# The services of the tool plane, piece by piece

Whatever is shown of all calls of the tool plane is shown along the same
lines: the pieces a service is made of have a property, and their composition
keeps it. Here the composition is done once, for any property of programs that
is closed under it. A development about one part of the state then only looks
at the pieces that touch this part.

Where a call as a whole has to end with something, the property of the whole
is a second one, which a prefix with the first leads to. The property that all
developments use is safety among the other calls, and the pieces that are of no
interest keep a fact that the others keep too.
-/

open Prog

/-! ## One call among others -/

section Safety

variable (P : ToolPlatform) (inv : ToolPlane → Prop) (rely : ℕ → ToolPlane → ToolPlane → Prop)
  (allow : ℕ → ToolChoice → ToolCall × ToolOp → ToolPlane → Prop) (pid : ℕ) (call : ToolCall)

/-- **A program of the call running as `pid` is safe among others**: it keeps
the invariant, and does to the others what they rely on. -/
abbrev ToolSafe {α : Type} (p : ToolProg α) (Q : Except ToolException α → ToolPlane → Prop)
    (s : ToolPlane) : Prop :=
  p.Safe (fun op => Prog.Handled ((toolPool P).handler pid) (allow pid) (call, op))
    (fun a b => inv b ∧ rely pid a b) (fun a b => inv b ∧ ∀ q, q ≠ pid → rely q a b) Q s

/-- A program that is safe wherever `F` holds, and keeps it. -/
def Framed (F : ToolPlane → Prop) {α : Type} (p : ToolProg α) : Prop :=
  ∀ s, F s → ToolSafe P inv rely allow pid call p (fun _ s' => F s') s

variable {P inv rely allow pid call}

/-- **Request rule** among the calls of the tool plane. -/
theorem toolSafe_ask {s : ToolPlane} {op : ToolOp}
    {Q : Except ToolException (ToolRes op) → ToolPlane → Prop}
    (h : ∀ s₁ c r s₂, inv s₁ → rely pid s s₁ → allow pid c (call, op) s₁ →
      serveTool P ⟨pid, call⟩ c s₁ op = some (r, s₂) →
      inv s₂ ∧ (∀ q, q ≠ pid → rely q s₁ s₂) ∧ Q r s₂) :
    ToolSafe P inv rely allow pid call op.ask Q s := by
  refine (Prog.safe_perform op Q s).mpr ?_
  rintro s₁ ⟨hinv, hrely⟩ r s₂ ⟨c, hallow, hserve⟩
  obtain ⟨hinv₂, hguar, hQ⟩ := h s₁ c r s₂ hinv hrely hallow hserve
  exact ⟨⟨hinv₂, hguar⟩, hQ⟩

theorem framed_closed (P : ToolPlatform) (inv : ToolPlane → Prop)
    (rely : ℕ → ToolPlane → ToolPlane → Prop)
    (allow : ℕ → ToolChoice → ToolCall × ToolOp → ToolPlane → Prop) (pid : ℕ) (call : ToolCall)
    (F : ToolPlane → Prop) :
    Prog.Closed (fun _ p => Framed P inv rely allow pid call F p) where
  ret _ _ hs := hs
  raise _ _ hs := hs
  bind hp hf s hs := (hp s hs).bind (fun a s' ha => hf a s' ha) (fun _ _ h => h)
  tryCatch hp hh s hs := by
    refine (Prog.safe_tryCatch _ _ _ _).mpr ((hp s hs).mono (fun r s' hr => ?_))
    cases r with
    | ok a => exact hr
    | error e => exact hh e s' hr

/-- A request that keeps the invariant, what the others rely on, and the
fact. -/
theorem framed_ask {F : ToolPlane → Prop} {op : ToolOp} (hF : ∀ a b, F a → rely pid a b → F b)
    (h : ∀ c s₁ r s₂, inv s₁ → F s₁ → allow pid c (call, op) s₁ →
      serveTool P ⟨pid, call⟩ c s₁ op = some (r, s₂) →
      inv s₂ ∧ (∀ q, q ≠ pid → rely q s₁ s₂) ∧ F s₂) :
    Framed P inv rely allow pid call F op.ask := by
  intro s hs
  refine toolSafe_ask (fun s₁ c r s₂ hinv hrely hallow hserve => ?_)
  exact h c s₁ r s₂ hinv (hF s s₁ hs hrely) hallow hserve

end Safety

section Rules

variable {P : ToolPlatform} {H : (α : Type) → ToolProg α → Prop}

/-! ## Approvals -/

section Approvals

open ApprovalService

variable (hc : Closed H) (hread : ∀ op : ToolOp, op.reads = true → H _ op.ask)

include hc hread

theorem closed_create (huuid : H _ ToolOp.uuid4.ask)
    (hupsert : ∀ r, H _ (ToolOp.upsertApproval r).ask) (intent : ApprovalIntent) :
    H _ (create P intent) := by
  refine hc.bind (hread .now rfl) (fun now => ?_)
  refine hc.bind huuid (fun id => ?_)
  exact hc.bind (hupsert _) (fun _ => hc.ret _)

theorem closed_get (hmove : ∀ t id fromStatuses toStatus decidedBy decidedAt,
      H _ (ToolOp.transition t id fromStatuses toStatus decidedBy decidedAt).ask)
    (t id : Uuid) : H _ (get t id) := by
  refine hc.bind (hread (.getApproval t id) rfl) (fun o => ?_)
  cases o with
  | none => exact hc.raise _
  | some request =>
    show H _ (if _ then _ else _)
    split
    · refine hc.bind (hread .now rfl) (fun now => ?_)
      show H _ (if _ then _ else _)
      split
      · refine hc.bind (hmove ..) (fun moved => ?_)
        cases moved with
        | none => exact hc.ret _
        | some expired => exact hc.ret _
      · exact hc.ret _
    · exact hc.ret _

theorem closed_decide (hmove : ∀ t id fromStatuses toStatus decidedBy decidedAt,
      H _ (ToolOp.transition t id fromStatuses toStatus decidedBy decidedAt).ask)
    (t id : Uuid) (decision : ApprovalDecision) (decidedBy role : String) :
    H _ (decide t id decision decidedBy role) := by
  refine hc.bind (closed_get hc hread hmove t id) (fun request => ?_)
  show H _ (if _ then _ else _)
  split
  · exact hc.raise _
  · show H _ (if _ then _ else _)
    split
    · exact hc.raise _
    · cases decisionError request decidedBy role with
      | some e => exact hc.raise e
      | none =>
        refine hc.bind (hread .now rfl) (fun now => ?_)
        refine hc.bind (hmove ..) (fun moved => ?_)
        cases moved with
        | none => exact hc.raise _
        | some decided => exact hc.ret _

theorem closed_consume (hmove : ∀ t id fromStatuses toStatus decidedBy decidedAt,
      H _ (ToolOp.transition t id fromStatuses toStatus decidedBy decidedAt).ask)
    (t id : Uuid) (b : ApprovalBinding) : H _ (consume t id b) := by
  refine hc.bind (closed_get hc hread hmove t id) (fun request => ?_)
  show H _ (if _ then _ else _)
  split
  · exact hc.raise _
  · show H _ (if _ then _ else _)
    split
    · exact hc.raise _
    · show H _ (if _ then _ else _)
      split
      · exact hc.raise _
      · refine hc.bind (hmove ..) (fun moved => ?_)
        cases moved with
        | none => exact hc.raise _
        | some consumed => exact hc.ret _

theorem closed_findUnexpired (hupsert : ∀ r, H _ (ToolOp.upsertApproval r).ask)
    (status : ApprovalStatus) (t : Uuid) (q : ApprovalQuery) :
    H _ (findUnexpired status t q) := by
  refine hc.bind (hread (.findOpen t q [status]) rfl) (fun o => ?_)
  cases o with
  | none => exact hc.ret _
  | some request =>
    refine hc.bind (hread .now rfl) (fun now => ?_)
    show H _ (if _ then _ else _)
    split
    · exact hc.bind (hupsert _) (fun _ => hc.ret _)
    · exact hc.ret _

end Approvals

/-! ## Invocations -/

section Invocations

open ToolInvocationService

variable {T : ToolProg ToolInvocationResult → Prop} (hc : Closed H) (ht : Leads H T)
  (hblocked : ∀ b, H _ (recordBlocked P b))

include hc hblocked in
theorem closed_gate (hfind : ∀ status t q, H _ (ApprovalService.findUnexpired status t q))
    (hconsume : ∀ t id b, H _ (ApprovalService.consume t id b))
    (hcreate : ∀ intent, H _ (ApprovalService.create P intent)) (d : ToolDefinition)
    (i : Invocation) (params : Dict) (hash : String) :
    H _ (gateWriteSideEffect P d i params hash) := by
  unfold gateWriteSideEffect
  split
  · refine hc.bind (hfind ..) (fun approved => ?_)
    cases approved with
    | some a => exact hc.bind (hconsume ..) (fun _ => hc.ret _)
    | none =>
      refine hc.bind (hfind ..) (fun pending => ?_)
      cases pending with
      | some p => exact hc.ret _
      | none => exact hc.bind (hcreate _) (fun _ => hc.ret _)
  · split
    · exact hc.ret _
    · exact hc.bind (hblocked _) (fun _ => hc.raise _)

include ht hblocked

theorem leads_replayOrExecute
    (hreplay : ∀ t key, H _ (ToolOp.findReplay t key).ask) (hret : ∀ r, T (.ret r))
    {d : ToolDefinition} {i : Invocation} {params : Dict} {hash : String}
    (hrun : T (executeAndRecord P d i params hash)) : T (replayOrExecute P d i params hash) := by
  unfold ToolInvocationService.replayOrExecute
  cases i.idempotencyKey with
  | none => exact hrun
  | some key =>
    refine ht.bind (hreplay _ key) (fun o => ?_)
    cases o with
    | none => exact hrun
    | some replayed =>
      show T (if _ then _ else _)
      split
      · exact ht.bind (hblocked _) (fun _ => ht.raise _)
      · exact hret _

theorem leads_gateAndExecute
    (hgate : ∀ d i params hash, H _ (gateWriteSideEffect P d i params hash))
    {d : ToolDefinition} {i : Invocation} {params : Dict}
    (hrun : ∀ hash, T (ToolInvocationService.replayOrExecute P d i params hash)) :
    T (gateAndExecute P d i params) := by
  unfold ToolInvocationService.gateAndExecute
  show T (if _ then _ else _)
  split
  · exact hrun _
  · refine ht.bind (hgate ..) (fun o => ?_)
    cases o with
    | none => exact hrun _
    | some approvalId => exact ht.bind (hblocked _) (fun _ => ht.raise _)

include hc in
/-- **`invoke`, from its pieces**: what precedes the gate is recorded as
blocked, or leads to it. -/
theorem leads_invoke (hread : ∀ op : ToolOp, op.reads = true → H _ op.ask) {i : Invocation}
    (hrun : ∀ d params, T (ToolInvocationService.gateAndExecute P d i params)) :
    T (invoke P i) := by
  unfold ToolInvocationService.invoke
  refine ht.bind (hread (.resolveTool ..) rfl) (fun o => ?_)
  cases o with
  | none =>
    show T (notFound P i)
    unfold ToolInvocationService.notFound
    split
    · exact ht.bind (hread (.hasName _) rfl) (fun b => ht.bind (hblocked _) (fun _ => ht.raise _))
    · exact ht.bind (p := .ret false) (hc.ret false)
        (fun b => ht.bind (hblocked _) (fun _ => ht.raise _))
  | some d =>
    show T (if _ then _ else _)
    split
    · cases validateParams d i.params with
      | ok params => exact hrun d params
      | error e =>
        cases e with
        | toolInvocation => exact ht.bind (hblocked _) (fun _ => ht.raise _)
        | _ => exact ht.raise _
    · exact ht.bind (hblocked _) (fun _ => ht.raise _)

end Invocations

/-! ## Checkpoints and reconciliations -/

section Checkpoints

variable (hc : Closed H) (hread : ∀ op : ToolOp, op.reads = true → H _ op.ask)

include hc hread

theorem closed_park (huuid : H _ ToolOp.uuid4.ask)
    (hupsert : ∀ c, H _ (ToolOp.upsertCheckpoint c).ask) (p : Parking) :
    H _ (CheckpointService.park p) := by
  refine hc.bind huuid (fun id => ?_)
  refine hc.bind (hread .now rfl) (fun now => ?_)
  refine hc.bind (hupsert _) (fun _ => ?_)
  exact hc.bind (hread (.releaseLease ..) rfl) (fun _ => hc.ret _)

theorem closed_resume (hconsume : ∀ t id b, H _ (ApprovalService.consume t id b))
    (hupsert : ∀ c, H _ (ToolOp.upsertCheckpoint c).ask) (t id : Uuid) (resumedBy : String) :
    H _ (CheckpointService.resume t id resumedBy) := by
  refine hc.bind (hread (.getCheckpoint t id) rfl) (fun o => ?_)
  cases o with
  | none => exact hc.raise _
  | some cp =>
    show H _ (if _ then _ else _)
    split
    · exact hc.raise _
    · refine hc.bind (hread (.acquireLease ..) rfl) (fun grant => ?_)
      refine hc.bind (hc.tryCatch ?_ ?_) (fun _ => ?_)
      · exact hc.bind (hconsume ..) (fun _ => hc.ret _)
      · intro e
        show H _ (if _ then _ else _)
        split
        · exact hc.bind (hread (.releaseLease ..) rfl) (fun _ => hc.raise _)
        · exact hc.raise e
      · exact hc.bind (hread .now rfl) (fun now => hc.bind (hupsert _) (fun _ => hc.ret _))

theorem closed_resolve (hcheck : ∀ t id, H _ (ToolOp.getReconciliation t id).ask)
    (hupsert : ∀ r, H _ (ToolOp.upsertReconciliation r).ask) (t id : Uuid)
    (d : ReconciliationDecision) (resolvedBy : String) (note : Option String) :
    H _ (ReconciliationService.resolve t id d resolvedBy note) := by
  refine hc.bind (hread (.getCall t id) rfl) (fun o => ?_)
  cases o with
  | none => exact hc.raise _
  | some record =>
    show H _ (if _ then _ else _)
    split
    · exact hc.raise _
    · refine hc.bind (hcheck t id) (fun found => ?_)
      cases found with
      | some r => exact hc.raise _
      | none => exact hc.bind (hread .now rfl) (fun now => hc.bind (hupsert _) (fun _ => hc.ret _))

end Checkpoints

end Rules
