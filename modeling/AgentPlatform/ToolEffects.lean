import AgentPlatform.ToolPlane

/-!
# What a request of the tool plane can do

One inversion lemma for each request of `serveTool`: with what it can end, and
what becomes of the state. Everything said about runs of the tool plane rests
on these and never unfolds the handler again.
-/

section Store

variable {α : Type} {kind : StoreKind} {c : ToolChoice} {x : α} {s s' s'' : ToolPlane}
  {r : Except ToolException α}

/-- **What a statement can end with.** -/
theorem storeReply_cases (h : storeReply kind c x s s' = some (r, s'')) :
    (r = .ok x ∧ s'' = s') ∨ ∃ e, r = .error (.py e) ∧ (s'' = s ∨ s'' = s') := by
  cases kind <;> cases c <;> simp only [storeReply, Option.some.injEq, Prod.mk.injEq,
    reduceCtorEq] at h
  all_goals obtain ⟨rfl, rfl⟩ := h
  · exact .inl ⟨rfl, rfl⟩
  · exact .inl ⟨rfl, rfl⟩
  · exact .inr ⟨_, rfl, .inl rfl⟩
  · exact .inr ⟨_, rfl, .inr rfl⟩

/-- Only a statement that is served returns. -/
theorem storeReply_ok {y : α} (h : storeReply kind c x s s' = some (.ok y, s'')) : c = .ok := by
  cases kind <;> cases c <;> simp [storeReply] at h ⊢

/-- A statement that fails before it took effect leaves the state as it is. -/
theorem storeReply_fault {e : PyException} (h : storeReply kind (.fault e) x s s' = some (r, s'')) :
    r = .error (.py e) ∧ s'' = s := by
  cases kind with
  | memory => cases h
  | database =>
    obtain ⟨rfl, rfl⟩ := Prod.mk.inj (Option.some.inj h)
    exact ⟨rfl, rfl⟩

/-- A statement that only reads leaves the state as it is. -/
theorem storeReply_read (h : storeReply kind c x s s = some (r, s')) :
    s' = s ∧ ∀ y, r = .ok y → y = x := by
  rcases storeReply_cases h with ⟨rfl, rfl⟩ | ⟨e, rfl, hs⟩
  · exact ⟨rfl, fun y hy => (Except.ok.inj hy).symm⟩
  · exact ⟨hs.elim id id, fun y hy => by cases hy⟩

end Store

/-- The request leaves the whole state as it is. -/
def ToolOp.reads : ToolOp → Bool
  | .now => true
  | .getApproval .. => true
  | .findOpen .. => true
  | .resolveTool .. => true
  | .hasName _ => true
  | .getCall .. => true
  | .getCheckpoint .. => true
  | .acquireLease .. => true
  | .releaseLease .. => true
  | _ => false

section Serve

variable {P : ToolPlatform} {who : Caller} {c : ToolChoice} {s s' : ToolPlane}

theorem serve_read {op : ToolOp} {r : Except ToolException (ToolRes op)} (hop : op.reads = true)
    (h : serveTool P who c s op = some (r, s')) : s' = s := by
  cases op with
  | now =>
    simp only [serveTool] at h
    split at h
    · exact (congrArg Prod.snd (Option.some.inj h)).symm
    · cases h
  | getApproval => exact (storeReply_read h).1
  | findOpen =>
    simp only [serveTool] at h
    split at h
    · exact (storeReply_read h).1
    · obtain ⟨x, -, hx⟩ := Option.map_eq_some_iff.mp h
      exact (congrArg Prod.snd hx).symm
  | resolveTool =>
    simp only [serveTool] at h
    split at h
    · split at h
      · exact (congrArg Prod.snd (Option.some.inj h)).symm
      · cases h
    · exact (congrArg Prod.snd (Option.some.inj h)).symm
    · exact (congrArg Prod.snd (Option.some.inj h)).symm
    · cases h
  | hasName =>
    simp only [serveTool] at h
    split at h
    · exact (congrArg Prod.snd (Option.some.inj h)).symm
    · cases h
  | getCall => exact (storeReply_read h).1
  | getCheckpoint => exact (storeReply_read h).1
  | acquireLease =>
    simp only [serveTool] at h
    split at h
    · exact (congrArg Prod.snd (Option.some.inj h)).symm
    · exact (congrArg Prod.snd (Option.some.inj h)).symm
    · cases h
  | releaseLease =>
    simp only [serveTool] at h
    split at h
    · exact (congrArg Prod.snd (Option.some.inj h)).symm
    · exact (congrArg Prod.snd (Option.some.inj h)).symm
    · cases h
  | _ => cases hop

/-- What is read is what is stored. -/
theorem serve_getApproval {t id : Uuid} {x : Option ApprovalRequest}
    (h : serveTool P who c s (.getApproval t id) = some (.ok x, s')) :
    x = s.getApproval P.kind t id :=
  (storeReply_read h).2 x rfl

/-- `find_open` finds a row that is open. -/
theorem serve_findOpen {t : Uuid} {q : ApprovalQuery} {statuses : List ApprovalStatus}
    {x : ApprovalRequest}
    (h : serveTool P who c s (.findOpen t q statuses) = some (.ok (some x), s')) :
    x ∈ s.approvals ∧ ToolPlane.isOpen t q statuses x = true := by
  simp only [serveTool] at h
  split at h
  · have hnone := (storeReply_read h).2 (some x) rfl
    cases hnone
  · obtain ⟨y, hy, hx⟩ := Option.map_eq_some_iff.mp h
    obtain rfl : y = some x := Except.ok.inj (congrArg Prod.fst hx)
    unfold ToolPlane.findOpen at hy
    split at hy
    · have hfind := Option.some.inj hy
      exact ⟨List.mem_of_find?_eq_some hfind, List.find?_some hfind⟩
    · split at hy
      · cases hy
      · cases hy
    · obtain ⟨z, hz, hzx⟩ := Option.map_eq_some_iff.mp hy
      obtain rfl := Option.some.inj hzx
      obtain ⟨hmem, -⟩ := List.mem_filter.mp (List.mem_of_getElem? hz)
      exact List.mem_filter.mp hmem
    · cases hy

theorem serve_uuid4 {r : Except ToolException Uuid}
    (h : serveTool P who c s .uuid4 = some (r, s')) :
    ∃ id, id ∉ s.issued.map Prod.snd ∧ r = .ok id
      ∧ s' = { s with issued := s.issued ++ [(who.pid, id)] } := by
  simp only [serveTool] at h
  split at h
  · rename_i id
    split at h
    · cases h
    · rename_i hid
      obtain ⟨rfl, rfl⟩ := Prod.mk.inj (Option.some.inj h)
      exact ⟨id, hid, rfl, rfl⟩
  · cases h

theorem serve_upsertApproval {a : ApprovalRequest} {r : Except ToolException Unit}
    (h : serveTool P who c s (.upsertApproval a) = some (r, s')) :
    (s' = s.upsertApproval P.kind who a ∧ ∀ e, c ≠ .fault e)
      ∨ (∃ e, r = .error (.py e)) ∧ s' = s := by
  by_cases hc : ∃ e, c = .fault e
  · obtain ⟨e, rfl⟩ := hc
    simp only [serveTool] at h
    obtain ⟨rfl, rfl⟩ := storeReply_fault h
    exact .inr ⟨⟨e, rfl⟩, rfl⟩
  · have hne : ∀ e, c ≠ .fault e := fun e he => hc ⟨e, he⟩
    rcases storeReply_cases h with ⟨-, rfl⟩ | ⟨e, rfl, rfl | rfl⟩
    · exact .inl ⟨rfl, hne⟩
    · exact .inr ⟨⟨e, rfl⟩, rfl⟩
    · exact .inl ⟨rfl, hne⟩

theorem serve_transition {t id : Uuid} {fromStatuses : List ApprovalStatus}
    {toStatus : ApprovalStatus} {decidedBy : Option String} {decidedAt : Option Timestamp}
    {r : Except ToolException (Option ApprovalRequest)}
    (h : serveTool P who c s (.transition t id fromStatuses toStatus decidedBy decidedAt)
      = some (r, s')) :
    (s' = (s.transition P.kind who t id fromStatuses toStatus decidedBy decidedAt).2
        ∧ ∀ x, r = .ok x →
          x = (s.transition P.kind who t id fromStatuses toStatus decidedBy decidedAt).1)
      ∨ (∃ e, r = .error (.py e)) ∧ s' = s := by
  rcases storeReply_cases h with ⟨rfl, rfl⟩ | ⟨e, rfl, rfl | rfl⟩
  · exact .inl ⟨rfl, fun x hx => (Except.ok.inj hx).symm⟩
  · exact .inr ⟨⟨e, rfl⟩, rfl⟩
  · exact .inl ⟨rfl, fun x hx => by cases hx⟩

/-- The registry answers with a version of the tool asked for. -/
theorem serve_resolveTool {t : Uuid} {name : String} {version : Option ℤ} {d : ToolDefinition}
    (h : serveTool P who c s (.resolveTool t name version) = some (.ok (some d), s')) :
    ∃ v, (version = none ∨ version = some v)
      ∧ d = { P.catalogue t name v with tenantId := t, name := name, version := v } := by
  simp only [serveTool] at h
  split at h
  · rename_i v
    split at h
    · rename_i hv
      obtain ⟨hd, -⟩ := Prod.mk.inj (Option.some.inj h)
      exact ⟨v, hv, (Option.some.inj (Except.ok.inj hd)).symm⟩
    · cases h
  · obtain ⟨hd, -⟩ := Prod.mk.inj (Option.some.inj h)
    cases hd
  · obtain ⟨hd, -⟩ := Prod.mk.inj (Option.some.inj h)
    cases hd
  · cases h

theorem serve_findReplay {t : Uuid} {key : String}
    {r : Except ToolException (Option ToolInvocationRecord)}
    (h : serveTool P who c s (.findReplay t key) = some (r, s')) :
    (∃ x, r = .ok (some x) ∧ s.findReplay t key = some x ∧ s' = s)
    ∨ (r = .ok none ∧ s.findReplay t key = none
        ∧ s' = { s with unreplayed := s.unreplayed ++ [(who.pid, t, key)] })
    ∨ (∃ e, r = .error (.py e)) ∧ s' = s := by
  simp only [serveTool] at h
  split at h
  · split at h
    · rename_i x hx
      obtain ⟨rfl, rfl⟩ := Prod.mk.inj (Option.some.inj h)
      exact .inl ⟨x, rfl, hx, rfl⟩
    · rename_i hx
      obtain ⟨rfl, rfl⟩ := Prod.mk.inj (Option.some.inj h)
      exact .inr (.inl ⟨rfl, hx, rfl⟩)
  · rename_i e
    obtain ⟨rfl, rfl⟩ := Prod.mk.inj (Option.some.inj h)
    exact .inr (.inr ⟨⟨e, rfl⟩, rfl⟩)
  · cases h

theorem serve_record {a : ToolInvocationRecord} {r : Except ToolException Unit}
    (h : serveTool P who c s (.record a) = some (r, s')) :
    (∃ s₁, s.record who a = some s₁ ∧ s' = s₁ ∧ (r = .ok () ∨ ∃ e, c = .lost e))
    ∨ (∃ e, r = .error (.py e)) ∧ s' = s
        ∧ (s.record who a = none ∨ ∃ e, c = .fault e) := by
  simp only [serveTool] at h
  split at h
  · rename_i hrec
    obtain ⟨rfl, rfl⟩ := Prod.mk.inj (Option.some.inj h)
    exact .inr ⟨⟨_, rfl⟩, rfl, .inl hrec⟩
  · rename_i s₁ hrec
    cases c <;> simp only [storeReply, Option.some.injEq, Prod.mk.injEq, reduceCtorEq] at h
    all_goals obtain ⟨rfl, rfl⟩ := h
    · exact .inl ⟨s₁, hrec, rfl, .inl rfl⟩
    · rename_i e
      exact .inr ⟨⟨e, rfl⟩, rfl, .inr ⟨e, rfl⟩⟩
    · rename_i e
      exact .inl ⟨s₁, hrec, rfl, .inr ⟨e, rfl⟩⟩

theorem serve_execute {d : ToolDefinition} {params : Dict} {r : Except ToolException BackendAnswer}
    (h : serveTool P who c s (.execute d params) = some (r, s')) :
    ∃ a, r = .ok a ∧ s' = { s with log := s.log ++ [.executed who d params a] } := by
  simp only [serveTool] at h
  split at h
  · rename_i a
    obtain ⟨rfl, rfl⟩ := Prod.mk.inj (Option.some.inj h)
    exact ⟨a, rfl, rfl⟩
  · cases h

theorem serve_upsertCheckpoint {cp : ExecutionCheckpoint} {r : Except ToolException Unit}
    (h : serveTool P who c s (.upsertCheckpoint cp) = some (r, s')) :
    s' = s.upsertCheckpoint P.kind cp ∨ (∃ e, r = .error (.py e)) ∧ s' = s := by
  rcases storeReply_cases h with ⟨-, rfl⟩ | ⟨e, rfl, rfl | rfl⟩
  · exact .inl rfl
  · exact .inr ⟨⟨e, rfl⟩, rfl⟩
  · exact .inl rfl

/-- The checks the call `pid` has made are no longer open. -/
def ToolPlane.closeChecks (pid : ℕ) (s : ToolPlane) : ToolPlane :=
  { s with unresolved := s.unresolved.filter (fun u => u.1 ≠ pid) }

theorem serve_upsertReconciliation {a : Reconciliation} {r : Except ToolException Unit}
    (h : serveTool P who c s (.upsertReconciliation a) = some (r, s')) :
    (s' = (s.upsertReconciliation P.kind who a).closeChecks who.pid)
    ∨ (∃ e, r = .error (.py e)) ∧ s' = s.closeChecks who.pid := by
  obtain ⟨⟨r', s₁⟩, h₁, hx⟩ := Option.map_eq_some_iff.mp h
  obtain ⟨rfl, rfl⟩ := Prod.mk.inj hx
  rcases storeReply_cases h₁ with ⟨-, rfl⟩ | ⟨e, rfl, rfl | rfl⟩
  · exact .inl rfl
  · exact .inr ⟨⟨e, rfl⟩, rfl⟩
  · exact .inl rfl

theorem serve_getReconciliation {t id : Uuid}
    {r : Except ToolException (Option Reconciliation)}
    (h : serveTool P who c s (.getReconciliation t id) = some (r, s')) :
    (r = .ok none ∧ s.getReconciliation P.kind t id = none
        ∧ s' = { s with unresolved := s.unresolved ++ [(who.pid, t, id)] })
    ∨ r ≠ .ok none ∧ s' = s := by
  simp only [serveTool] at h
  split at h
  · rename_i hnone
    obtain ⟨rfl, rfl⟩ := Prod.mk.inj (Option.some.inj h)
    exact .inl ⟨rfl, hnone, rfl⟩
  · rename_i hno
    obtain ⟨rfl, hr⟩ := storeReply_read h
    refine .inr ⟨?_, rfl⟩
    rintro rfl
    exact hno (storeReply_ok h) (hr none rfl).symm

end Serve
