import AgentPlatform.ApprovalTrail

/-!
# Decisions are permanent, unless a stale copy is written back

A compare-and-swap moves only a request that is still open, so what `get`,
`decide` and `consume` write never undoes a decision. What `find_approved` and
`find_pending` write back is a copy they read before they looked at the clock.
If the request was decided or consumed in between, the copy overwrites it: a
consumed request becomes `EXPIRED`, and who decided it is forgotten.

That is the only way. As long as every copy that is written back finds the
request unmoved, a request keeps its final status and its decision for
ever.
-/

open History ToolPlane

/-- The statuses a request ends in. -/
def ApprovalStatus.isFinal : ApprovalStatus → Bool
  | .DENIED => true
  | .CONSUMED => true
  | .EXPIRED => true
  | _ => false

/-- **What a request keeps for ever**: its final status, and its decision. -/
structure ApprovalRequest.Keeps (r r' : ApprovalRequest) : Prop where
  status : r.status.isFinal = true → r'.status = r.status
  decidedBy : ∀ x, r.decidedBy = some x → r'.decidedBy = some x
  decidedAt : ∀ x, r.decidedAt = some x → r'.decidedAt = some x

namespace ApprovalRequest.Keeps

variable {r r' r'' : ApprovalRequest}

theorem refl (r : ApprovalRequest) : r.Keeps r := ⟨fun _ => rfl, fun _ h => h, fun _ h => h⟩

theorem trans (h : r.Keeps r') (h' : r'.Keeps r'') : r.Keeps r'' := by
  refine ⟨fun hf => ?_, fun x hx => h'.decidedBy x (h.decidedBy x hx),
    fun x hx => h'.decidedAt x (h.decidedAt x hx)⟩
  have hstatus := h.status hf
  exact (h'.status (hstatus ▸ hf)).trans hstatus

end ApprovalRequest.Keeps

/-- **A write that undoes nothing**: the row keeps what it must, and a pending
row is undecided. -/
structure Permanent (w : Write Caller ApprovalRequest) : Prop where
  keeps : ∀ r, w.before = some r → r.Keeps w.after
  undecided : w.after.status = .PENDING → w.after.decidedBy = none ∧ w.after.decidedAt = none

/-- **The copy finds the request unmoved**: it has been neither denied nor
consumed, and its decision is still the copy's. -/
def Unmoved (copy row : ApprovalRequest) : Prop :=
  row.status ≠ .DENIED ∧ row.status ≠ .CONSUMED ∧ row.decidedBy = copy.decidedBy
    ∧ row.decidedAt = copy.decidedAt

instance (copy row : ApprovalRequest) : Decidable (Unmoved copy row) := by
  unfold Unmoved
  infer_instance

/-- **The condition on requests**: a copy that is written back over a stored
request finds it unmoved. -/
def unmovedCopies : ℕ → ToolChoice → ToolCall × ToolOp → ToolPlane → Prop
  | _, c, (_, .upsertApproval copy), s =>
    (∀ e, c ≠ .fault e) → ∀ row, s.approval? copy.key = some row → Unmoved copy row
  | _, _, _, _ => True

/-! ## Every write undoes nothing -/

/-- A stored request that is pending is undecided. -/
theorem TrailInv.undecided {s : ToolPlane} (h : TrailInv Permanent s) {k : ApprovalKey}
    {r : ApprovalRequest} (hr : s.approval? k = some r) (hst : r.status = .PENDING) :
    r.decidedBy = none ∧ r.decidedAt = none := by
  rw [h.stored] at hr
  obtain ⟨pre, w, post, hsplit, rfl, -⟩ := exists_of_current _ hr
  exact (h.lawful w (by simp [hsplit])).2.undecided hst

/-- A move of a request that is still open undoes nothing. -/
theorem permanent_of_moves {s : ToolPlane} {w : Write Caller ApprovalRequest}
    (h : TrailInv Permanent s) (hbefore : s.approval? w.after.key = w.before) (hw : Moves w) :
    Permanent w := by
  cases hw with
  | created hstatus hopen => exact ⟨fun r hr => absurd hr (by simp), fun _ => hopen⟩
  | @decided _ r decision _ _ _ hstatus =>
    obtain ⟨hby, hat⟩ := h.undecided hbefore hstatus
    refine ⟨fun r' hr => ?_, fun hp => ?_⟩
    · obtain rfl := Option.some.inj hr
      refine ⟨fun hf => ?_, fun x hx => ?_, fun x hx => ?_⟩
      · rw [hstatus] at hf
        cases hf
      · rw [hby] at hx
        cases hx
      · rw [hat] at hx
        cases hx
    · cases decision <;> cases hp
  | @expired _ r hstatus =>
    refine ⟨fun r' hr => ?_, fun hp => by cases hp⟩
    obtain rfl := Option.some.inj hr
    refine ⟨fun hf => ?_, fun _ hx => hx, fun _ hx => hx⟩
    rcases hstatus with hstatus | hstatus <;> rw [hstatus] at hf <;> cases hf
  | @consumed _ r hstatus =>
    refine ⟨fun r' hr => ?_, fun hp => by cases hp⟩
    obtain rfl := Option.some.inj hr
    refine ⟨fun hf => ?_, fun _ hx => hx, fun _ hx => hx⟩
    rw [hstatus] at hf
    cases hf

/-- A copy that finds the request unmoved undoes nothing. -/
theorem permanent_of_unmoved {kind : StoreKind} {who : Caller} {r row : ApprovalRequest}
    (hst : r.status = .EXPIRED) (h : Unmoved r row) :
    Permanent ⟨who, some row, overwriteApproval kind r row⟩ := by
  obtain ⟨hdenied, hconsumed, hby, hat⟩ := h
  refine ⟨fun row' hrow => ?_, fun hp => ?_⟩
  · obtain rfl := Option.some.inj hrow
    refine ⟨fun hf => ?_, fun x hx => ?_, fun x hx => ?_⟩
    · rw [overwriteApproval_status, hst]
      cases hs : row.status with
      | EXPIRED => rfl
      | DENIED => exact absurd hs hdenied
      | CONSUMED => exact absurd hs hconsumed
      | PENDING => rw [hs] at hf; cases hf
      | APPROVED => rw [hs] at hf; cases hf
    · rw [overwriteApproval_decidedBy, ← hby]
      exact hx
    · rw [overwriteApproval_decidedAt, ← hat]
      exact hx
  · rw [overwriteApproval_status, hst] at hp
    cases hp

theorem admits_permanent (P : ToolPlatform) : Admits P Permanent unmovedCopies where
  moved _ _ h hbefore hw := permanent_of_moves h hbefore hw
  overwritten _ _ _ _ _ row hallow hc _ hrow _ hst :=
    permanent_of_unmoved hst (hallow hc row hrow)

/-! ## Every run -/

/-- A history of permanent writes keeps what is stored. -/
theorem TrailInv.keeps {a b : ToolPlane} (ha : TrailInv Permanent a) (hb : TrailInv Permanent b)
    (ht : a.trail <+: b.trail) {k : ApprovalKey} {r : ApprovalRequest}
    (hr : a.approval? k = some r) : ∃ r', b.approval? k = some r' ∧ r.Keeps r' := by
  obtain ⟨later, hlater⟩ := ht
  have hchained : Chained ApprovalRequest.key (a.trail ++ later) := hlater ▸ hb.chained
  have hnow : ∃ x, current ApprovalRequest.key a.trail k = some x ∧ r.Keeps x :=
    ⟨r, (ha.stored k).symm.trans hr, .refl r⟩
  have hwrites : ∀ w ∈ later, ∀ x, w.before = some x → r.Keeps x → r.Keeps w.after := by
    intro w hw x hx hk
    have hmem : w ∈ b.trail := hlater ▸ List.mem_append_right _ hw
    exact hk.trans ((hb.lawful w hmem).2.keeps x hx)
  obtain ⟨x, hx, hkeeps⟩ := current_absorbed hchained hwrites hnow
  exact ⟨x, by rw [hb.stored, ← hlater]; exact hx, hkeeps⟩

/-- **Decisions are permanent.** In every run whose write-backs find their
requests unmoved, a stored request keeps its final status and its decision
from then on. -/
theorem decisions_permanent (P : ToolPlatform)
    {w w' : Pool.State (ToolCall × ToolOp) (fun x => ToolRes x.2) ToolException ToolPlane ToolCall
      ToolReply}
    (h : (toolMachine P).Reach
      (Pool.stepOk (fun _ _ => True) unmovedCopies (fun _ _ => True)) w)
    (hs : (toolMachine P).Steps
      (Pool.stepOk (fun _ _ => True) unmovedCopies (fun _ _ => True)) w w')
    (k : ApprovalKey) (r : ApprovalRequest) (hr : w.shared.approval? k = some r) :
    ∃ r', w'.shared.approval? k = some r' ∧ r.Keeps r' := by
  let D := approvalDiscipline (admits_permanent P)
  have hgrow : w.shared.trail <+: w'.shared.trail := by
    refine Machine.Steps.trans_rel (M := toolMachine P)
      (R := fun a b => a.shared.trail <+: b.shared.trail) (fun _ => List.prefix_refl _)
      (fun _ _ _ hab hbc => hab.trans hbc) (fun a l b ha hok hstep => ?_) h hs
    obtain ⟨q, hq⟩ := D.step_rely (Pool.reach_safe D ha) hok hstep
    exact hq.trail
  have hinv : TrailInv Permanent w.shared := (Pool.reach_safe D h).inv
  have hinv' : TrailInv Permanent w'.shared := (Pool.reach_safe D (h.steps hs)).inv
  exact hinv.keeps hinv' hgrow hr

/-! ## A copy that is written back too late -/

/-- Ada asks, and `find_pending` reads the request. -/
def pendingRead : List (Pool.Label ToolChoice ToolCall ToolEnv) :=
  [.spawn (.create mailIntent), .act 0 .ok, .act 0 (.drawn 7), .act 0 .ok,
   .spawn (.findPending 1 mailIntent.binding.toApprovalQuery), .act 1 (.pick 0)]

/-- Bob grants the request, and it is consumed. -/
def grantAndConsume : List (Pool.Label ToolChoice ToolCall ToolEnv) :=
  [.spawn (.decide 1 7 .APPROVE "bob" "TENANT_ADMIN"), .act 2 .ok, .act 2 .ok, .act 2 .ok,
   .act 2 .ok,
   .spawn (.consume 1 7 mailIntent.binding), .act 3 .ok, .act 3 .ok, .act 3 .ok]

/-- The request expires, and `find_pending` writes its copy back. -/
def lateWriteBack : List (Pool.Label ToolChoice ToolCall ToolEnv) :=
  [.env (.tick 900000000), .act 1 .ok, .act 1 .ok]

/-- The status and the decision of a request. -/
def decisionOf (s : ToolPlane) : Option (ApprovalStatus × Option String × Option Timestamp) :=
  (s.approval? (1, 7)).map (fun r => (r.status, r.decidedBy, r.decidedAt))

theorem mailPlatform_init : (toolMachine mailPlatform).init (Pool.idle (ToolPlane.start 0)) :=
  ⟨_, ⟨0, rfl⟩, rfl⟩

/-- Test for the condition of `decisions_permanent`. -/
def unmovedTest (_ : ℕ) (c : ToolChoice) (op : ToolCall × ToolOp) (s : ToolPlane) : Bool :=
  match c, op.2 with
  | .fault _, _ => true
  | _, .upsertApproval copy => (s.approval? copy.key).all (fun row => Unmoved copy row)
  | _, _ => true

theorem unmoved_of_test (pid : ℕ) (c : ToolChoice) (op : ToolCall × ToolOp) (s : ToolPlane)
    (h : unmovedTest pid c op s = true) : unmovedCopies pid c op s := by
  unfold unmovedCopies
  split
  · rename_i call copy
    intro hc row hrow
    unfold unmovedTest at h
    split at h
    · exact absurd rfl (hc _)
    · rename_i heq
      obtain rfl := ToolOp.upsertApproval.inj heq
      rw [hrow] at h
      exact of_decide_eq_true h
    · rename_i hne
      exact absurd rfl (hne _)
  · trivial

/-- Without a late write-back, the consumed request stays consumed. -/
theorem decisions_permanent_granted :
    ∃ w w', (toolMachine mailPlatform).Reach
        (Pool.stepOk (fun _ _ => True) unmovedCopies (fun _ _ => True)) w
      ∧ (toolMachine mailPlatform).Steps
        (Pool.stepOk (fun _ _ => True) unmovedCopies (fun _ _ => True)) w w'
      ∧ decisionOf w.shared = some (.CONSUMED, some "bob", some 0)
      ∧ ∃ r r', w.shared.approval? (1, 7) = some r ∧ w'.shared.approval? (1, 7) = some r'
        ∧ r.Keeps r' := by
  have hrun : ((toolMachine mailPlatform).runIf (Pool.actTest unmovedTest)
      (Pool.idle (ToolPlane.start 0)) (pendingRead ++ grantAndConsume)).bind (fun s =>
        ((toolMachine mailPlatform).runIf (Pool.actTest unmovedTest) s
          [.env (.tick 900000000), .act 1 .ok]).map
          (fun _ => decide (decisionOf s.shared = some (.CONSUMED, some "bob", some 0))))
        = some true := by
    decide +kernel
  obtain ⟨w, w', hw, hs, htest⟩ := Machine.steps_of_runIf_runIf
    (Pool.stepOk_of_actTest unmoved_of_test) mailPlatform_init hrun
  have hdec := of_decide_eq_true htest
  obtain ⟨r, hr, -⟩ := Option.map_eq_some_iff.mp hdec
  obtain ⟨r', hr', hkeeps⟩ := decisions_permanent mailPlatform hw hs (1, 7) r hr
  exact ⟨w, w', hw, hs, hdec, r, r', hr, hr', hkeeps⟩

/-- A consumed request becomes expired, and its decision is forgotten. -/
theorem decisions_forgotten :
    ¬ ∀ w w', (toolMachine mailPlatform).Reach Machine.anyStep w →
      (toolMachine mailPlatform).Steps Machine.anyStep w w' →
      ∀ k r, w.shared.approval? k = some r →
        ∃ r', w'.shared.approval? k = some r' ∧ r.Keeps r' := by
  have hrun : ((toolMachine mailPlatform).run (Pool.idle (ToolPlane.start 0))
      (pendingRead ++ grantAndConsume)).bind (fun s =>
        ((toolMachine mailPlatform).run s lateWriteBack).map
          (fun s' => decide (decisionOf s.shared = some (.CONSUMED, some "bob", some 0)
            ∧ decisionOf s'.shared = some (.EXPIRED, none, none))))
        = some true := by
    decide +kernel
  obtain ⟨w, w', hw, hs, htest⟩ := Machine.steps_of_run_run mailPlatform_init hrun
  obtain ⟨hbefore, hafter⟩ := of_decide_eq_true htest
  intro hclaim
  obtain ⟨r, hr, hdec⟩ := Option.map_eq_some_iff.mp hbefore
  obtain ⟨r', hr', hkeeps⟩ := hclaim w w' hw hs (1, 7) r hr
  have hdec' : (r'.status, r'.decidedBy, r'.decidedAt) = (.EXPIRED, none, none) := by
    unfold decisionOf at hafter
    rw [hr'] at hafter
    exact Option.some.inj hafter
  have hby := hkeeps.decidedBy "bob" (congrArg (fun x => x.2.1) hdec)
  have hgone : r'.decidedBy = none := congrArg (fun x => x.2.1) hdec'
  rw [hby] at hgone
  cases hgone
