import AgentPlatform.ToolRules

/-!
# The records of tool calls

`tenant.tool_call` is append-only: a call draws an identifier of its own and
writes one row under it. The primary key would absorb a second row with the
same identifier, which the draw excludes, and a partial unique index keeps a
second successful row from any idempotency key. So an invocation that returns
a record has it in the table, where it stays, and it is the only one a lookup
of its key can find.
-/

open ToolInvocationService

/-- **Two successful records under one key of a tenant.** -/
structure SameKey (r r' : ToolInvocationRecord) : Prop where
  tenantId : r.tenantId = r'.tenantId
  key : r.idempotencyKey = r'.idempotencyKey
  keyed : r.idempotencyKey.isSome = true
  left : r.status = .SUCCEEDED
  right : r'.status = .SUCCEEDED

/-- **The invariant of the call records**: identifiers are drawn once, records
have drawn identifiers, and a key has one successful record. -/
structure RecordsInv (s : ToolPlane) : Prop where
  fresh : (s.issued.map Prod.snd).Nodup
  drawn : ∀ r ∈ s.calls, r.callId ∈ s.issued.map Prod.snd
  pinned : ∀ r ∈ s.calls, ∀ r' ∈ s.calls, SameKey r r' → r = r'

/-- **What the call running as `pid` relies on**: records stay, and an identifier
it has drawn stays its own and unused. -/
structure RecordsRely (pid : ℕ) (a b : ToolPlane) : Prop where
  calls : a.calls <+: b.calls
  drawn : ∀ id, (pid, id) ∈ a.issued → (pid, id) ∈ b.issued
  unused : ∀ id, (pid, id) ∈ a.issued → (∀ r ∈ a.calls, r.callId ≠ id) →
    ∀ r ∈ b.calls, r.callId ≠ id

theorem RecordsRely.refl (pid : ℕ) (a : ToolPlane) : RecordsRely pid a a :=
  ⟨List.prefix_refl _, fun _ h => h, fun _ _ h => h⟩

theorem RecordsRely.trans {pid : ℕ} {a b c : ToolPlane} (hab : RecordsRely pid a b)
    (hbc : RecordsRely pid b c) : RecordsRely pid a c :=
  ⟨hab.calls.trans hbc.calls, fun id h => hbc.drawn id (hab.drawn id h),
    fun id h hu => hbc.unused id (hab.drawn id h) (hab.unused id h hu)⟩

/-- The identifier is drawn by `pid`, and no record has it. -/
def OwnId (pid : ℕ) (id : Uuid) (s : ToolPlane) : Prop :=
  (pid, id) ∈ s.issued ∧ ∀ r ∈ s.calls, r.callId ≠ id

theorem OwnId.rely {pid : ℕ} {id : Uuid} {a b : ToolPlane} (h : OwnId pid id a)
    (hr : RecordsRely pid a b) : OwnId pid id b :=
  ⟨hr.drawn id h.1, hr.unused id h.1 h.2⟩

/-! ## What the requests of a call do -/

/-- The request neither draws an identifier nor writes a record. -/
def ToolOp.sparesRecords : ToolOp → Bool
  | .uuid4 => false
  | .record _ => false
  | _ => true

section Steps

variable {P : ToolPlatform} {who : Caller} {c : ToolChoice} {s s' : ToolPlane}

theorem upsertApproval_records (kind : StoreKind) (r : ApprovalRequest) :
    (s.upsertApproval kind who r).calls = s.calls
      ∧ (s.upsertApproval kind who r).issued = s.issued := by
  unfold ToolPlane.upsertApproval
  split <;> exact ⟨rfl, rfl⟩

theorem transition_records (kind : StoreKind) (t id : Uuid) (fromStatuses : List ApprovalStatus)
    (toStatus : ApprovalStatus) (decidedBy : Option String) (decidedAt : Option Timestamp) :
    (s.transition kind who t id fromStatuses toStatus decidedBy decidedAt).2.calls = s.calls
      ∧ (s.transition kind who t id fromStatuses toStatus decidedBy decidedAt).2.issued
        = s.issued := by
  unfold ToolPlane.transition
  split
  · exact ⟨rfl, rfl⟩
  · split <;> exact ⟨rfl, rfl⟩

/-- **A request that spares the records leaves them as they are.** -/
theorem serve_sparing {op : ToolOp} {r : Except ToolException (ToolRes op)}
    (hop : op.sparesRecords = true) (h : serveTool P who c s op = some (r, s')) :
    s'.calls = s.calls ∧ s'.issued = s.issued := by
  cases op with
  | uuid4 => cases hop
  | record => cases hop
  | upsertApproval a =>
    rcases serve_upsertApproval h with ⟨rfl, -⟩ | ⟨-, rfl⟩
    · exact upsertApproval_records ..
    · exact ⟨rfl, rfl⟩
  | transition =>
    rcases serve_transition h with ⟨rfl, -⟩ | ⟨-, rfl⟩
    · exact transition_records ..
    · exact ⟨rfl, rfl⟩
  | findReplay =>
    rcases serve_findReplay h with ⟨x, -, -, rfl⟩ | ⟨-, -, rfl⟩ | ⟨-, rfl⟩
    all_goals exact ⟨rfl, rfl⟩
  | execute =>
    obtain ⟨a, -, rfl⟩ := serve_execute h
    exact ⟨rfl, rfl⟩
  | upsertCheckpoint =>
    rcases serve_upsertCheckpoint h with rfl | ⟨-, rfl⟩
    · unfold ToolPlane.upsertCheckpoint
      split <;> exact ⟨rfl, rfl⟩
    · exact ⟨rfl, rfl⟩
  | upsertReconciliation =>
    rcases serve_upsertReconciliation h with rfl | ⟨-, rfl⟩
    all_goals exact ⟨rfl, rfl⟩
  | getReconciliation =>
    rcases serve_getReconciliation h with ⟨-, -, rfl⟩ | ⟨-, rfl⟩
    all_goals exact ⟨rfl, rfl⟩
  | now => rw [serve_read rfl h]; exact ⟨rfl, rfl⟩
  | getApproval => rw [serve_read rfl h]; exact ⟨rfl, rfl⟩
  | findOpen => rw [serve_read rfl h]; exact ⟨rfl, rfl⟩
  | resolveTool => rw [serve_read rfl h]; exact ⟨rfl, rfl⟩
  | hasName => rw [serve_read rfl h]; exact ⟨rfl, rfl⟩
  | getCall => rw [serve_read rfl h]; exact ⟨rfl, rfl⟩
  | getCheckpoint => rw [serve_read rfl h]; exact ⟨rfl, rfl⟩
  | acquireLease => rw [serve_read rfl h]; exact ⟨rfl, rfl⟩
  | releaseLease => rw [serve_read rfl h]; exact ⟨rfl, rfl⟩

/-- States with the same records and identifiers. -/
theorem RecordsInv.same (h : RecordsInv s) (hcalls : s'.calls = s.calls)
    (hissued : s'.issued = s.issued) : RecordsInv s' ∧ ∀ q, RecordsRely q s s' := by
  refine ⟨⟨hissued ▸ h.fresh, ?_, hcalls ▸ h.pinned⟩, fun q => ⟨?_, ?_, ?_⟩⟩
  · rw [hcalls, hissued]
    exact h.drawn
  · exact hcalls ▸ List.prefix_refl _
  · rw [hissued]
    exact fun _ hid => hid
  · rw [hcalls]
    exact fun _ _ hu => hu

/-- **Drawing an identifier.** -/
theorem RecordsInv.draw {pid : ℕ} {id : Uuid} (h : RecordsInv s)
    (hid : id ∉ s.issued.map Prod.snd) :
    RecordsInv { s with issued := s.issued ++ [(pid, id)] }
      ∧ (∀ q, RecordsRely q s { s with issued := s.issued ++ [(pid, id)] })
      ∧ OwnId pid id { s with issued := s.issued ++ [(pid, id)] } := by
  refine ⟨⟨?_, fun r hr => ?_, h.pinned⟩, fun q => ⟨List.prefix_refl _,
    fun _ hq => List.mem_append_left _ hq, fun _ _ hu => hu⟩,
    List.mem_append_right _ (List.mem_singleton_self _), fun r hr hrid => ?_⟩
  · rw [List.map_append]
    exact h.fresh.append (List.nodup_singleton _) (List.disjoint_singleton.mpr hid)
  · rw [List.map_append]
    exact List.mem_append_left _ (h.drawn r hr)
  · exact hid (hrid ▸ h.drawn r hr)

/-- The state a record is added to. -/
def ToolPlane.withRecord (who : Caller) (r : ToolInvocationRecord) (s : ToolPlane) : ToolPlane :=
  { s with
    calls := s.calls ++ [r]
    log := s.log ++ [.recorded who r]
    unreplayed := s.unreplayed.filter (fun x => x.1 ≠ who.pid) }

/-- **A record under an identifier of the call's own is appended, or refused by
the unique index.** -/
theorem record_of_ownId {r : ToolInvocationRecord} (hown : OwnId who.pid r.callId s) :
    s.record who r = if s.replayTaken r then none else some (s.withRecord who r) := by
  have habsent : s.calls.any (fun x => x.tenantId = r.tenantId && x.callId = r.callId) = false := by
    refine List.any_eq_false.mpr (fun x hx => ?_)
    simp [hown.2 x hx]
  unfold ToolPlane.record
  rw [habsent]
  rfl

/-- The unique index refuses what would share a key. -/
theorem replayTaken_of_sameKey {r x : ToolInvocationRecord} (hx : x ∈ s.calls)
    (hsame : SameKey x r) : s.replayTaken r = true := by
  unfold ToolPlane.replayTaken
  have hany : s.calls.any (fun y => y.tenantId = r.tenantId
      && y.idempotencyKey = r.idempotencyKey && y.status = .SUCCEEDED) = true :=
    List.any_eq_true.mpr ⟨x, hx, by simp [hsame.tenantId, hsame.key, hsame.left]⟩
  rw [hany, hsame.right, ← hsame.key, hsame.keyed]
  rfl

/-- **Adding a record** under an identifier of the call's own. -/
theorem RecordsInv.add {r : ToolInvocationRecord} (h : RecordsInv s)
    (hown : OwnId who.pid r.callId s) (htaken : s.replayTaken r = false) :
    RecordsInv (s.withRecord who r)
      ∧ ∀ q, q ≠ who.pid → RecordsRely q s (s.withRecord who r) := by
  refine ⟨⟨h.fresh, fun x hx => ?_, fun x hx y hy hsame => ?_⟩, fun q hq =>
    ⟨List.prefix_append _ _, fun _ hid => hid, fun id hid hu x hx => ?_⟩⟩
  · rcases List.mem_append.mp hx with hx | hx
    · exact h.drawn x hx
    · rw [List.mem_singleton.mp hx]
      exact List.mem_map_of_mem hown.1
  · have hnew : ∀ z ∈ s.calls, ¬SameKey z r := fun z hz hz' => by
      rw [replayTaken_of_sameKey hz hz'] at htaken
      cases htaken
    rcases List.mem_append.mp hx with hx | hx
    · rcases List.mem_append.mp hy with hy | hy
      · exact h.pinned x hx y hy hsame
      · rw [List.mem_singleton.mp hy] at hsame
        exact absurd hsame (hnew x hx)
    · rcases List.mem_append.mp hy with hy | hy
      · rw [List.mem_singleton.mp hx] at hsame
        exact absurd ⟨hsame.tenantId.symm, hsame.key.symm, hsame.key ▸ hsame.keyed, hsame.right,
          hsame.left⟩ (hnew y hy)
      · rw [List.mem_singleton.mp hx, List.mem_singleton.mp hy]
  · rcases List.mem_append.mp hx with hx | hx
    · exact hu x hx
    · -- The identifier would be drawn by two calls.
      rw [List.mem_singleton.mp hx]
      rintro rfl
      exact hq (congrArg Prod.fst (List.inj_on_of_nodup_map h.fresh hid hown.1 rfl))

end Steps

/-! ## Every call keeps the records -/

section Services

variable {P : ToolPlatform} {pid : ℕ} {call : ToolCall} {α β : Type} {s : ToolPlane}

/-- Safety with respect to the records. -/
abbrev RecordsSafe (P : ToolPlatform) (pid : ℕ) (call : ToolCall) (p : ToolProg α)
    (Q : Except ToolException α → ToolPlane → Prop) (s : ToolPlane) : Prop :=
  ToolSafe P RecordsInv RecordsRely (fun _ _ _ _ => True) pid call p Q s

/-- A program that may run anywhere, with nothing promised of its end. -/
abbrev KeepsRecords (P : ToolPlatform) (pid : ℕ) (call : ToolCall) (p : ToolProg α) : Prop :=
  Framed P RecordsInv RecordsRely (fun _ _ _ _ => True) pid call (fun _ => True) p

theorem keepsRecords_closed (P : ToolPlatform) (pid : ℕ) (call : ToolCall) :
    Prog.Closed (fun _ p => KeepsRecords P pid call p) :=
  framed_closed P RecordsInv RecordsRely (fun _ _ _ _ => True) pid call (fun _ => True)

theorem keepsRecords_sparing {op : ToolOp} (hop : op.sparesRecords = true) :
    KeepsRecords P pid call op.ask := by
  refine framed_ask (fun _ _ _ _ => trivial) (fun c s₁ r s₂ hinv _ _ hserve => ?_)
  obtain ⟨hcalls, hissued⟩ := serve_sparing hop hserve
  obtain ⟨hinv₂, hguar⟩ := hinv.same hcalls hissued
  exact ⟨hinv₂, fun q _ => hguar q, trivial⟩

theorem keepsRecords_read (op : ToolOp) (hop : op.reads = true) :
    KeepsRecords P pid call op.ask := by
  refine keepsRecords_sparing ?_
  cases op <;> first | rfl | cases hop

/-- A drawn identifier is the call's own. -/
theorem recordsSafe_uuid4 : RecordsSafe P pid call ToolOp.uuid4.ask
    (fun r s' => ∀ id, r = .ok id → OwnId pid id s') s := by
  refine toolSafe_ask (fun s₁ c r s₂ hinv _ _ hserve => ?_)
  obtain ⟨id, hid, rfl, rfl⟩ := serve_uuid4 hserve
  obtain ⟨hinv₂, hguar, hown⟩ := hinv.draw hid
  exact ⟨hinv₂, fun q _ => hguar q, fun x hx => Except.ok.inj hx ▸ hown⟩

theorem keepsRecords_uuid4 : KeepsRecords P pid call ToolOp.uuid4.ask :=
  fun _ _ => recordsSafe_uuid4.mono (fun _ _ _ => trivial)

/-- **A record that is written is in the table.** -/
theorem recordsSafe_record {r : ToolInvocationRecord} (hown : OwnId pid r.callId s) :
    RecordsSafe P pid call (ToolOp.record r).ask
      (fun x s' => x = .ok () → r ∈ s'.calls) s := by
  refine toolSafe_ask (fun s₁ c x s₂ hinv hrely _ hserve => ?_)
  have hrecord : s₁.record ⟨pid, call⟩ r
      = if s₁.replayTaken r then none else some (s₁.withRecord ⟨pid, call⟩ r) :=
    record_of_ownId (hown.rely hrely)
  rcases serve_record hserve with ⟨s₃, hs₃, rfl, -⟩ | ⟨⟨e, rfl⟩, rfl, -⟩
  · rw [hrecord] at hs₃
    cases htaken : s₁.replayTaken r with
    | true =>
      rw [htaken, if_pos rfl] at hs₃
      cases hs₃
    | false =>
      rw [htaken, if_neg (by simp)] at hs₃
      obtain rfl := Option.some.inj hs₃
      have hadd : RecordsInv (s₁.withRecord ⟨pid, call⟩ r)
          ∧ ∀ q, q ≠ pid → RecordsRely q s₁ (s₁.withRecord ⟨pid, call⟩ r) :=
        hinv.add (hown.rely hrely) htaken
      obtain ⟨hinv₂, hguar⟩ := hadd
      exact ⟨hinv₂, hguar, fun _ => List.mem_append_right _ (List.mem_singleton_self _)⟩
  · exact ⟨hinv, fun q _ => .refl q s₂, fun hx => by cases hx⟩

theorem keepsRecords_blocked (b : Blocked) : KeepsRecords P pid call (recordBlocked P b) :=
  fun _ _ => recordsSafe_uuid4.bind
    (fun id _ hown => (recordsSafe_record (r := blockedRecord P b id) (hown id rfl)).mono
      (fun _ _ _ => trivial))
    (fun _ _ _ => trivial)

theorem keepsRecords_attempt (d : ToolDefinition) (params : Dict) (retry : Bool) (left n : ℕ) :
    KeepsRecords P pid call (attempt d params retry left n) := by
  have hc := keepsRecords_closed P pid call
  induction left generalizing n with
  | zero => exact hc.bind (keepsRecords_sparing rfl) (fun _ => hc.ret _)
  | succ left ih =>
    refine hc.bind (keepsRecords_sparing rfl) (fun a => ?_)
    show KeepsRecords P pid call (if _ then _ else _)
    split
    · exact ih (n + 1)
    · exact hc.ret _

theorem keepsRecords_gate (d : ToolDefinition) (i : Invocation) (params : Dict) (hash : String) :
    KeepsRecords P pid call (gateWriteSideEffect P d i params hash) :=
  have hc := keepsRecords_closed P pid call
  closed_gate hc keepsRecords_blocked
    (closed_findUnexpired hc keepsRecords_read (fun _ => keepsRecords_sparing rfl))
    (closed_consume hc keepsRecords_read (fun _ _ _ _ _ _ => keepsRecords_sparing rfl))
    (closed_create hc keepsRecords_read keepsRecords_uuid4 (fun _ => keepsRecords_sparing rfl))
    d i params hash

/-- **What an invocation returns is in the table**: a record of its tenant and
its key, with the status it reports. -/
structure HasRecord (i : Invocation) (res : ToolInvocationResult) (s : ToolPlane) : Prop where
  stored : res.record ∈ s.calls
  tenantId : res.record.tenantId = i.tenantId
  key : res.record.idempotencyKey = i.idempotencyKey
  status : res.record.status = res.status

/-- The invocation returns what is recorded. -/
def ReturnsRecorded (P : ToolPlatform) (pid : ℕ) (call : ToolCall) (i : Invocation)
    (p : ToolProg ToolInvocationResult) : Prop :=
  ∀ s, RecordsSafe P pid call p (fun r s' => ∀ res, r = .ok res → HasRecord i res s') s

theorem returnsRecorded_leads (i : Invocation) :
    Prog.Leads (fun _ p => KeepsRecords P pid call p) (ReturnsRecorded P pid call i) where
  raise e s := fun _ hr => by cases hr
  bind hp hf s := (hp s trivial).bind (fun a s' _ => hf a s')
    (fun e s' _ => fun _ hr => by cases hr)

theorem returnsRecorded_execute (d : ToolDefinition) (i : Invocation) (params : Dict)
    (hash : String) : ReturnsRecorded P pid call i (executeAndRecord P d i params hash) := by
  refine (returnsRecorded_leads i).bind (keepsRecords_attempt d params _ _ 0) (fun o s => ?_)
  refine recordsSafe_uuid4.bind (fun id s' hown => ?_) (fun e s' _ => fun _ hr => by cases hr)
  refine (recordsSafe_record (r := executedRecord d i params hash id o) (hown id rfl)).bind
    (fun u s'' hstored res hr => ?_) (fun e s' _ => fun _ hr => by cases hr)
  obtain rfl := Except.ok.inj hr
  exact ⟨hstored rfl, rfl, rfl, rfl⟩

theorem returnsRecorded_replay (d : ToolDefinition) (i : Invocation) (params : Dict)
    (hash : String) : ReturnsRecorded P pid call i (replayOrExecute P d i params hash) := by
  intro s
  unfold ToolInvocationService.replayOrExecute
  cases hkey : i.idempotencyKey with
  | none => exact returnsRecorded_execute d i params hash s
  | some key =>
    have hfind : RecordsSafe P pid call (ToolOp.findReplay i.tenantId key).ask
        (fun r s' => ∀ x, r = .ok (some x) → x ∈ s'.calls ∧ x.tenantId = i.tenantId ∧
          x.idempotencyKey = some key) s := by
      refine toolSafe_ask (fun s₁ c r s₂ hinv _ _ hserve => ?_)
      obtain ⟨hcalls, hissued⟩ := serve_sparing rfl hserve
      obtain ⟨hinv₂, hguar⟩ := hinv.same hcalls hissued
      refine ⟨hinv₂, fun q _ => hguar q, ?_⟩
      rintro x rfl
      rcases serve_findReplay hserve with ⟨y, hy, hfound, -⟩ | ⟨hnone, -⟩ | ⟨⟨e, he⟩, -⟩
      · obtain rfl := Option.some.inj (Except.ok.inj hy)
        have hmatch := List.find?_some hfound
        simp only [Bool.and_eq_true, decide_eq_true_eq] at hmatch
        exact ⟨hcalls ▸ List.mem_of_find?_eq_some hfound, hmatch.1.1, hmatch.1.2⟩
      · cases hnone
      · cases he
    refine hfind.bind (fun o s' hfound => ?_) (fun e s' _ => fun _ hr => by cases hr)
    cases o with
    | none => exact returnsRecorded_execute d i params hash s'
    | some x =>
      show RecordsSafe P pid call (if _ then _ else _) _ _
      split
      · exact (returnsRecorded_leads i).bind (keepsRecords_blocked _)
          (fun _ => (returnsRecorded_leads i).raise _) s'
      · intro res hr
        obtain rfl := Except.ok.inj hr
        obtain ⟨hstored, htenant, hkey'⟩ := hfound x rfl
        exact ⟨hstored, htenant, hkey'.trans hkey.symm, rfl⟩

/-- **An invocation returns what is recorded.** -/
theorem returnsRecorded_invoke (i : Invocation) :
    ReturnsRecorded P pid call i (invoke P i) := by
  have hc := keepsRecords_closed P pid call
  refine leads_invoke hc (returnsRecorded_leads i) keepsRecords_blocked keepsRecords_read
    (fun d params => ?_)
  exact leads_gateAndExecute (returnsRecorded_leads i) keepsRecords_blocked keepsRecords_gate
    (fun hash => returnsRecorded_replay d i params hash)

end Services

/-! ## Every interleaving -/

section Discipline

variable (P : ToolPlatform)

/-- **What an answered invocation has recorded.** -/
def RecordsPost (_ : ℕ) (call : ToolCall) (r : Except ToolException ToolReply) (s : ToolPlane) :
    Prop :=
  ∀ i res, call = .invoke i → r = .ok (.invoked res) → HasRecord i res s

theorem recordsSafe_program (pid : ℕ) (call : ToolCall) (s : ToolPlane) :
    RecordsSafe P pid call (call.program P) (RecordsPost pid call) s := by
  have hc := keepsRecords_closed P pid call
  have hother : (∀ i, call ≠ .invoke i) → KeepsRecords P pid call (call.program P) →
      RecordsSafe P pid call (call.program P) (RecordsPost pid call) s := by
    intro hne hp
    exact (hp s trivial).mono (fun r s' _ i _ hcall => absurd hcall (hne i))
  have hget : ∀ t id, KeepsRecords P pid call (ApprovalService.get t id) :=
    closed_get hc keepsRecords_read (fun _ _ _ _ _ _ => keepsRecords_sparing rfl)
  have hconsume : ∀ t id b, KeepsRecords P pid call (ApprovalService.consume t id b) :=
    closed_consume hc keepsRecords_read (fun _ _ _ _ _ _ => keepsRecords_sparing rfl)
  have hfind : ∀ st t q, KeepsRecords P pid call (ApprovalService.findUnexpired st t q) :=
    closed_findUnexpired hc keepsRecords_read (fun _ => keepsRecords_sparing rfl)
  cases call with
  | invoke i =>
    refine (returnsRecorded_invoke i s).bind (fun res s' hres => ?_) (fun e s' _ => ?_)
    · intro i' res' hcall hr
      obtain rfl := ToolCall.invoke.inj hcall
      obtain rfl := ToolReply.invoked.inj (Except.ok.inj hr)
      exact hres res rfl
    · exact fun _ _ _ hr => by cases hr
  | create intent =>
    refine hother (by simp) (hc.bind ?_ (fun _ => hc.ret _))
    exact closed_create hc keepsRecords_read keepsRecords_uuid4 (fun _ => keepsRecords_sparing rfl)
      intent
  | get t id => exact hother (by simp) (hc.bind (hget t id) (fun _ => hc.ret _))
  | decide t id d by' role =>
    refine hother (by simp) (hc.bind ?_ (fun _ => hc.ret _))
    exact closed_decide hc keepsRecords_read (fun _ _ _ _ _ _ => keepsRecords_sparing rfl)
      t id d by' role
  | consume t id b => exact hother (by simp) (hc.bind (hconsume t id b) (fun _ => hc.ret _))
  | findApproved t q => exact hother (by simp) (hc.bind (hfind _ t q) (fun _ => hc.ret _))
  | findPending t q => exact hother (by simp) (hc.bind (hfind _ t q) (fun _ => hc.ret _))
  | park p =>
    refine hother (by simp) (hc.bind ?_ (fun _ => hc.ret _))
    exact closed_park hc keepsRecords_read keepsRecords_uuid4 (fun _ => keepsRecords_sparing rfl) p
  | resume t id by' =>
    refine hother (by simp) (hc.bind ?_ (fun _ => hc.ret _))
    exact closed_resume hc keepsRecords_read hconsume (fun _ => keepsRecords_sparing rfl) t id by'
  | resolve t id d by' note =>
    refine hother (by simp) (hc.bind ?_ (fun _ => hc.ret _))
    exact closed_resolve hc keepsRecords_read (fun _ _ => keepsRecords_sparing rfl)
      (fun _ => keepsRecords_sparing rfl) t id d by' note

/-- **The discipline of the call records.** -/
def recordsDiscipline :
    Pool.Discipline (toolPool P) (fun s => ∃ clock, s = ToolPlane.start clock)
      (fun _ _ => True) (fun _ _ _ _ => True) (fun _ _ => True) where
  inv := RecordsInv
  unused _ _ := True
  rely := RecordsRely
  post := RecordsPost
  rely_refl := RecordsRely.refl
  rely_trans _ _ _ _ := RecordsRely.trans
  unused_rely _ _ _ _ _ := trivial
  start_ok := by
    rintro _ ⟨clock, rfl⟩
    refine ⟨⟨List.nodup_nil, ?_, ?_⟩, fun _ => trivial⟩
    · exact fun r hr => absurd hr List.not_mem_nil
    · exact fun r hr => absurd hr List.not_mem_nil
  safe_body := by
    intro pid s call _ _ _
    exact (Prog.safe_tag call (call.program P) _ s).mpr (recordsSafe_program P pid call s)
  safe_crash := by
    intro pid s hs
    have habandon : RecordsInv ((toolPool P).abandon pid s)
        ∧ ∀ q, RecordsRely q s ((toolPool P).abandon pid s) := hs.same rfl rfl
    exact ⟨habandon.1, fun q _ => habandon.2 q⟩
  safe_env := by
    rintro ⟨now⟩ s s' _ hs henv
    simp only [toolPool] at henv
    split at henv
    · obtain rfl := Option.some.inj henv
      exact hs.same rfl rfl
    · cases henv

end Discipline

/-! ## What a lookup finds -/

section Lookup

variable {P : ToolPlatform}

/-- **Records are append-only.** -/
theorem calls_append {w v} (h : (toolMachine P).Reach Machine.anyStep w)
    (hs : (toolMachine P).Steps Machine.anyStep w v) : w.shared.calls <+: v.shared.calls := by
  refine Machine.Steps.trans_rel (M := toolMachine P)
    (R := fun a b => a.shared.calls <+: b.shared.calls) (fun _ => List.prefix_refl _)
    (fun _ _ _ hab hbc => hab.trans hbc) (fun a l b ha _ hstep => ?_) h hs
  obtain ⟨q, hq⟩ := (recordsDiscipline P).step_rely (Pool.reach_safe _ (Pool.reach_any ha))
    (Pool.stepOk_any a l) hstep
  exact hq.calls

/-- **A successful record stays the one its key finds**, from the answer of the
invocation that returned it on. -/
theorem findReplay_of_recorded
    {w v} (h : (toolMachine P).Reach Machine.anyStep w)
    (hs : (toolMachine P).Steps Machine.anyStep w v)
    {x : Pool.Reply ToolException ToolPlane ToolCall ToolReply} (hx : x ∈ w.replies)
    {i : Invocation} (hcall : x.call = .invoke i) {res : ToolInvocationResult}
    (hout : x.outcome = .ok (.invoked res)) (hstatus : res.status = .SUCCEEDED) {key : String}
    (hkey : i.idempotencyKey = some key) :
    v.shared.findReplay i.tenantId key = some res.record := by
  let D := recordsDiscipline P
  have hw := Pool.reach_any h
  have hv := Pool.reach_any (h.steps hs)
  have hrecorded : HasRecord i res x.state :=
    (Pool.reach_safe D hw).replies x hx i res hcall hout
  have hmem : res.record ∈ v.shared.calls :=
    (calls_append h hs).subset ((D.reply_rely hw x hx).calls.subset hrecorded.stored)
  have hmatch : (res.record.tenantId = i.tenantId && res.record.idempotencyKey = some key
      && res.record.status = .SUCCEEDED) = true := by
    simp [hrecorded.tenantId, hrecorded.key.trans hkey, hrecorded.status.trans hstatus]
  have hsome : (v.shared.findReplay i.tenantId key).isSome = true :=
    List.find?_isSome.mpr ⟨res.record, hmem, hmatch⟩
  obtain ⟨y, hy⟩ := Option.isSome_iff_exists.mp hsome
  have hymatch := List.find?_some hy
  simp only [Bool.and_eq_true, decide_eq_true_eq] at hymatch
  have hsame : SameKey y res.record :=
    ⟨hymatch.1.1.trans hrecorded.tenantId.symm,
      hymatch.1.2.trans (hrecorded.key.trans hkey).symm, by simp [hymatch.1.2], hymatch.2,
      hrecorded.status.trans hstatus⟩
  rw [hy, (Pool.reach_safe D hv).inv.pinned y (List.mem_of_find?_eq_some hy) _ hmem hsame]

end Lookup
