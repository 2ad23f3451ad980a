import AgentPlatform.CallHistory
import AgentPlatform.ToolRules

/-!
# Where an invocation ends

The histories of `invoke`, taken apart along the source: an invocation resolves
its tool and either ends there, or passes the gate and comes to the replay
check, where it fails, is refused, is answered with a record, or executes. The
properties of replays are about which record the check found, which version
the registry resolved, and what the call was answered in the end, and all of
this is in its history.
-/

open ToolInvocationService

/-- A request of the tool plane, as it happened. -/
abbrev ToolAsked := Asked ToolOp ToolRes ToolException ToolPlane

/-- What the requests of a call can be answered. -/
def ToolPlatform.serves (P : ToolPlatform) (who : Caller) (op : ToolOp) (s : ToolPlane)
    (x : Except ToolException (ToolRes op)) (s' : ToolPlane) : Prop :=
  ∃ c, serveTool P who c s op = some (x, s')

/-- A step of the tool plane. -/
abbrev ToolLabel := Pool.Label ToolChoice ToolCall ToolEnv

/-- A state of the tool plane with the calls in progress. -/
abbrev ToolState :=
  Pool.State (ToolCall × ToolOp) (fun x => ToolRes x.2) ToolException ToolPlane ToolCall ToolReply

/-- **The history of the call `pid`** in the run of some steps from a state. -/
def toolHistory (P : ToolPlatform) (pid : ℕ) (w : ToolState) (ls : List ToolLabel) :
    List ToolAsked :=
  ((toolPool P).historyOf pid w ls).map Asked.untag

/-- The version of the tool a request was told of. -/
def Asked.resolution : ToolAsked → Option ToolDefinition
  | ⟨_, .resolveTool .., .ok d, _⟩ => d
  | _ => none

/-- The record a request found for a key. -/
def Asked.replay : ToolAsked → Option ToolInvocationRecord
  | ⟨_, .findReplay .., .ok r, _⟩ => r
  | _ => none

/-- **The tool an invocation resolved**, with its first request. -/
def resolvedIn (h : List ToolAsked) : Option ToolDefinition := h.head?.bind Asked.resolution

/-- **The record the replay check of an invocation found.** -/
def replayIn (h : List ToolAsked) : Option ToolInvocationRecord := h.findSome? Asked.replay

/-! ## Requests that look for no replay -/

/-- The request does not look for a replay. -/
def ToolOp.isQuiet : ToolOp → Bool
  | .findReplay .. => false
  | _ => true

theorem Asked.replay_of_quiet {a : ToolAsked} (ha : a.op.isQuiet = true) : a.replay = none := by
  obtain ⟨s, op, x, s'⟩ := a
  cases op with
  | findReplay => cases ha
  | _ => rfl

theorem replayIn_of_quiet {h : List ToolAsked} (hq : ∀ a ∈ h, a.op.isQuiet = true) :
    replayIn h = none :=
  List.findSome?_eq_none_iff.mpr (fun a ha => Asked.replay_of_quiet (hq a ha))

theorem replayIn_append {h h' : List ToolAsked} (hq : ∀ a ∈ h, a.op.isQuiet = true) :
    replayIn (h ++ h') = replayIn h' := by
  unfold replayIn
  rw [List.findSome?_append, show h.findSome? Asked.replay = none from replayIn_of_quiet hq]
  rfl

/-- A program that ends here: its requests are quiet, and it raises. -/
abbrev Refuses {α : Type} (p : ToolProg α) : Prop :=
  p.Asks (fun op => op.isQuiet = true) (fun _ _ => True) (fun r => ∃ e, r = .error e)

/-- A program of quiet requests. -/
abbrev IssuesQuiet {α : Type} (p : ToolProg α) : Prop := p.Issues (fun op => op.isQuiet = true)

theorem quiet_closed : Prog.Closed (fun _ (p : ToolProg _) => IssuesQuiet p) where
  ret _ := trivial
  raise _ := trivial
  bind hp hf := hp.bind hf
  tryCatch hp hh := hp.tryCatch hh

theorem refuses_leads {α : Type} :
    Prog.Leads (fun _ (p : ToolProg _) => IssuesQuiet p) (Refuses (α := α)) where
  raise e := ⟨e, rfl⟩
  bind {_ p _} hp hf := by
    induction p with
    | ret a => exact hf a
    | raise e => exact ⟨e, rfl⟩
    | call op k ih => exact ⟨hp.1, fun x _ => ih x (hp.2 x)⟩

section IssuesQuiet

variable (P : ToolPlatform)

theorem quiet_ask {op : ToolOp} (hop : op.isQuiet = true) : IssuesQuiet op.ask :=
  Prog.issues_perform hop

theorem quiet_read (op : ToolOp) (hop : op.reads = true) : IssuesQuiet op.ask := by
  refine quiet_ask ?_
  cases op with
  | findReplay => cases hop
  | _ => rfl

theorem quiet_recordBlocked (b : Blocked) : IssuesQuiet (recordBlocked P b) :=
  (quiet_ask rfl).bind (fun _ => quiet_ask rfl)

theorem refuses_recordBlocked {α : Type} (b : Blocked) (e : ToolException) :
    Refuses ((recordBlocked P b).bind (fun _ => (.raise e : ToolProg α))) :=
  refuses_leads.bind (quiet_recordBlocked P b) (fun _ => refuses_leads.raise e)

theorem refuses_notFound (i : Invocation) : Refuses (notFound P i) := by
  unfold notFound
  split
  · exact refuses_leads.bind (quiet_ask rfl) (fun _ => refuses_recordBlocked P _ _)
  · exact refuses_recordBlocked P _ _

theorem quiet_gate (d : ToolDefinition) (i : Invocation) (params : Dict) (hash : String) :
    IssuesQuiet (gateWriteSideEffect P d i params hash) :=
  closed_gate (P := P) quiet_closed (quiet_recordBlocked P)
    (fun status t q => closed_findUnexpired quiet_closed quiet_read
      (fun _ => quiet_ask rfl) status t q)
    (fun t id b => closed_consume quiet_closed quiet_read (fun _ _ _ _ _ _ => quiet_ask rfl) t id b)
    (fun intent => closed_create quiet_closed quiet_read (quiet_ask rfl)
      (fun _ => quiet_ask rfl) intent) d i params hash

theorem quiet_attempt (d : ToolDefinition) (params : Dict) (retry : Bool) (left n : ℕ) :
    IssuesQuiet (attempt d params retry left n) := by
  induction left generalizing n with
  | zero => exact (quiet_ask rfl).bind (fun _ => trivial)
  | succ left ih =>
    refine (quiet_ask rfl).bind (fun a => ?_)
    show IssuesQuiet (if _ then _ else _)
    split
    · exact ih (n + 1)
    · trivial

theorem quiet_executeAndRecord (d : ToolDefinition) (i : Invocation) (params : Dict)
    (hash : String) : IssuesQuiet (executeAndRecord P d i params hash) := by
  refine (quiet_attempt ..).bind (fun o => ?_)
  exact (quiet_ask rfl).bind (fun _ => (quiet_ask rfl).bind (fun _ => trivial))

end IssuesQuiet

/-- The parameters are validated, not changed. -/
theorem validateParams_eq {d : ToolDefinition} {params params' : Dict}
    (h : validateParams d params = .ok params') : params' = params := by
  have hbind : ∀ {α β : Type} {x : Except ToolException α} {f : α → Except ToolException β}
      {b : β}, (x >>= f) = .ok b → ∃ a, f a = .ok b := by
    intro α β x f b hx
    cases x with
    | error e => cases hx
    | ok a => exact ⟨a, hx⟩
  have hchecks : ∀ properties : Dict, (if params.any
      (fun f => !properties.any (fun p => p.1 = f.1)) then .error ValidateParams.invalid
      else do
        let required ← ValidateParams.requiredKeys (d.inputSchema.get? "required")
        required.forM (ValidateParams.requiredKey params)
        params.forM (fun f => do
          ValidateParams.checkType f.2 (← ValidateParams.declaredType properties f.1))
        .ok params) = .ok params' → params' = params := by
    intro properties hc
    split at hc
    · cases hc
    · obtain ⟨required, hc⟩ := hbind hc
      obtain ⟨_, hc⟩ := hbind hc
      obtain ⟨_, hc⟩ := hbind hc
      exact (Except.ok.inj hc).symm
  unfold validateParams at h
  split at h
  · exact hchecks _ h
  · exact hchecks _ h
  · cases h

/-! ## The end of an invocation -/

section Ends

variable {P : ToolPlatform} {who : Caller} {d : ToolDefinition} {i : Invocation} {params : Dict}
  {hash : String} {h : List ToolAsked} {r : Except ToolException ToolInvocationResult}

/-- **What an execution returns** is what it has recorded. -/
theorem executeAndRecord_ends
    (hh : (executeAndRecord P d i params hash).History (P.serves who) h r)
    {res : ToolInvocationResult} (hr : r = .ok res) :
    ∃ (o : Outcome) (id : Uuid), res = {
      status := o.1
      record := executedRecord d i params hash id o
      errorCode := o.2.1 } := by
  rcases Prog.history_bind.mp hh with ⟨e, -, he⟩ | ⟨h₁, h₂, o, -, -, hrest⟩
  · rw [hr] at he
    cases he
  · rcases Prog.history_perform_bind.mp hrest with ⟨s, e, s', -, -, he⟩ |
      ⟨s, id, s', rest, -, -, hrecord⟩
    · rw [hr] at he
      cases he
    · rcases Prog.history_perform_bind.mp hrecord with ⟨s, e, s', -, -, he⟩ |
        ⟨s, u, s', rest', -, -, -, hend⟩
      · rw [hr] at he
        cases he
      · rw [hr] at hend
        exact ⟨o, id, Except.ok.inj hend⟩

/-- What a call is answered that is answered with a record. -/
def replayedResult (x : ToolInvocationRecord) : ToolInvocationResult where
  status := x.status
  record := x
  replayed := true
  errorCode := x.errorCode

/-- **What the replay check of an invocation comes to.** -/
inductive CheckEnds (P : ToolPlatform) (who : Caller) (d : ToolDefinition) (i : Invocation)
    (params : Dict) (hash : String) :
    List ToolAsked → Except ToolException ToolInvocationResult → Prop where
  /-- There is no key. -/
  | unkeyed {h : List ToolAsked} {r : Except ToolException ToolInvocationResult} :
      i.idempotencyKey = none → (executeAndRecord P d i params hash).History (P.serves who) h r →
      CheckEnds P who d i params hash h r
  /-- The lookup fails. -/
  | failed {s s' key e} : i.idempotencyKey = some key →
      P.serves who (.findReplay i.tenantId key) s (.error e) s' →
      CheckEnds P who d i params hash [⟨s, .findReplay i.tenantId key, .error e, s'⟩] (.error e)
  /-- Nothing is recorded under the key. -/
  | fresh {s s' key rest} {r : Except ToolException ToolInvocationResult} : i.idempotencyKey
    = some key →
      P.serves who (.findReplay i.tenantId key) s (.ok none) s' →
      (executeAndRecord P d i params hash).History (P.serves who) rest r →
      CheckEnds P who d i params hash
        (⟨s, .findReplay i.tenantId key, .ok none, s'⟩ :: rest) r
  /-- A record with other parameters is: the call is refused. -/
  | refused {s s' key x rest} {r : Except ToolException ToolInvocationResult} : i.idempotencyKey
    = some key →
      P.serves who (.findReplay i.tenantId key) s (.ok (some x)) s' → x.paramsHash ≠ hash →
      ((recordBlocked P (blocked d i params "TOOL_IDEMPOTENCY_CONFLICT")).bind (fun _ =>
        .raise (.toolInvocation "TOOL_IDEMPOTENCY_CONFLICT"))).History (P.serves who) rest r →
      CheckEnds P who d i params hash
        (⟨s, .findReplay i.tenantId key, .ok (some x), s'⟩ :: rest) r
  /-- A record with the parameters of the call is: it is the answer. -/
  | replayed {s s' key x} : i.idempotencyKey = some key →
      P.serves who (.findReplay i.tenantId key) s (.ok (some x)) s' → x.paramsHash = hash →
      CheckEnds P who d i params hash [⟨s, .findReplay i.tenantId key, .ok (some x), s'⟩]
        (.ok (replayedResult x))

theorem replayOrExecute_ends
    (hh : (ToolInvocationService.replayOrExecute P d i params hash).History (P.serves who) h r) :
    CheckEnds P who d i params hash h r := by
  unfold ToolInvocationService.replayOrExecute at hh
  cases hkey : i.idempotencyKey with
  | none =>
    rw [hkey] at hh
    exact .unkeyed hkey hh
  | some key =>
    rw [hkey] at hh
    rcases Prog.history_perform_bind.mp hh with ⟨s, e, s', hs, rfl, rfl⟩ |
      ⟨s, o, s', rest, hs, rfl, hrest⟩
    · exact .failed hkey hs
    · cases o with
      | none => exact .fresh hkey hs hrest
      | some x =>
        by_cases hx : x.paramsHash = hash
        · have hret : rest = [] ∧ r = .ok (replayedResult x) := by
            simpa [hx, replayedResult] using hrest
          obtain ⟨rfl, rfl⟩ := hret
          exact .replayed hkey hs hx
        · refine .refused hkey hs hx ?_
          simpa [hx] using hrest

/-- **What an invocation comes to once its parameters are accepted**: the gate
lets it pass to the replay check, or ends it. -/
theorem gateAndExecute_ends
    (hh : (ToolInvocationService.gateAndExecute P d i params).History (P.serves who) h r) :
    (d.sideEffect ∈ autoExecutableSideEffects ∧
      CheckEnds P who d i params (canonicalParamsHash P.sha256 params) h r) ∨
    (d.sideEffect ∉ autoExecutableSideEffects ∧ ∃ gate rest o, h = gate ++ rest ∧
      (gateWriteSideEffect P d i params (canonicalParamsHash P.sha256 params)).History
        (P.serves who) gate o ∧
      match o with
      | .ok none => CheckEnds P who d i params (canonicalParamsHash P.sha256 params) rest r
      | _ => (∃ e, r = .error e) ∧ ∀ a ∈ rest, a.op.isQuiet = true) := by
  unfold ToolInvocationService.gateAndExecute at hh
  by_cases hauto : d.sideEffect ∈ autoExecutableSideEffects
  · simp only [if_pos hauto] at hh
    exact .inl ⟨hauto, replayOrExecute_ends hh⟩
  · simp only [if_neg hauto, Prog.bind_eq] at hh
    refine .inr ⟨hauto, ?_⟩
    rcases Prog.history_bind.mp hh with ⟨e, he, rfl⟩ | ⟨gate, rest, o, rfl, hgate, hrest⟩
    · exact ⟨h, [], .error e, (List.append_nil h).symm, he, ⟨e, rfl⟩,
        fun _ ha => absurd ha List.not_mem_nil⟩
    · cases o with
      | none => exact ⟨gate, rest, .ok none, rfl, hgate, replayOrExecute_ends hrest⟩
      | some approvalId =>
        obtain ⟨hquiet, hend⟩ := (refuses_recordBlocked P _ _).history hrest (fun _ _ => trivial)
        exact ⟨gate, rest, .ok (some approvalId), rfl, hgate, hend, hquiet⟩

/-- The hash of the parameters of an invocation. -/
def paramsHashOf (P : ToolPlatform) (i : Invocation) : String :=
  canonicalParamsHash P.sha256 i.params

/-- **What the gate of an invocation comes to**: nothing has to be decided, or
the gate has let the call pass, or it ends the call. -/
inductive GateEnds (P : ToolPlatform) (who : Caller) (d : ToolDefinition) (i : Invocation) :
    List ToolAsked → Except ToolException ToolInvocationResult → Prop where
  /-- The side effect needs no approval. -/
  | auto {h : List ToolAsked} {r : Except ToolException ToolInvocationResult} :
      d.sideEffect ∈ autoExecutableSideEffects →
      CheckEnds P who d i i.params (paramsHashOf P i) h r → GateEnds P who d i h r
  /-- The gate lets the call pass. -/
  | passed {gate h : List ToolAsked} {r : Except ToolException ToolInvocationResult} :
      d.sideEffect ∉ autoExecutableSideEffects →
      (gateWriteSideEffect P d i i.params (paramsHashOf P i)).History (P.serves who) gate
        (.ok none) →
      CheckEnds P who d i i.params (paramsHashOf P i) h r → GateEnds P who d i (gate ++ h) r
  /-- The gate ends the call. -/
  | held {gate h : List ToolAsked} {o : Except ToolException (Option Uuid)} {e : ToolException} :
      d.sideEffect ∉ autoExecutableSideEffects →
      (gateWriteSideEffect P d i i.params (paramsHashOf P i)).History (P.serves who) gate o →
      o ≠ .ok none → (∀ a ∈ h, a.op.isQuiet = true) → GateEnds P who d i (gate ++ h) (.error e)

/-- **What an invocation comes to**: the registry fails or does not know the
tool, the scopes or the parameters are refused, or it comes to the gate. -/
inductive InvokeEnds (P : ToolPlatform) (who : Caller) (i : Invocation) :
    List ToolAsked → Except ToolException ToolInvocationResult → Prop where
  | unresolved {s s' rest e} {x : Except ToolException (Option ToolDefinition)} :
      (∀ d, x ≠ .ok (some d)) → (∀ a ∈ rest, a.op.isQuiet = true) →
      InvokeEnds P who i (⟨s, .resolveTool i.tenantId i.toolName i.version, x, s'⟩ :: rest)
        (.error e)
  | unaccepted {s s' rest e} (d : ToolDefinition) :
      P.serves who (.resolveTool i.tenantId i.toolName i.version) s (.ok (some d)) s' →
      ¬(inScope d i = true ∧ validateParams d i.params = .ok i.params) →
      (∀ a ∈ rest, a.op.isQuiet = true) →
      InvokeEnds P who i
        (⟨s, .resolveTool i.tenantId i.toolName i.version, .ok (some d), s'⟩ :: rest) (.error e)
  | accepted {s s' rest} {r : Except ToolException ToolInvocationResult} (d : ToolDefinition) :
      P.serves who (.resolveTool i.tenantId i.toolName i.version) s (.ok (some d)) s' →
      inScope d i = true → validateParams d i.params = .ok i.params →
      GateEnds P who d i rest r →
      InvokeEnds P who i
        (⟨s, .resolveTool i.tenantId i.toolName i.version, .ok (some d), s'⟩ :: rest) r

theorem gate_ends
    (hh : (ToolInvocationService.gateAndExecute P d i i.params).History (P.serves who) h r) :
    GateEnds P who d i h r := by
  rcases gateAndExecute_ends hh with ⟨hauto, hcheck⟩ | ⟨hauto, gate, rest, o, rfl, hgate, hend⟩
  · exact .auto hauto hcheck
  · match o, hgate, hend with
    | .ok none, hgate, hcheck => exact .passed hauto hgate hcheck
    | .ok (some _), hgate, ⟨⟨e, he⟩, hrest⟩ =>
      rw [he]
      exact .held hauto hgate (fun hnone => by cases hnone) hrest
    | .error _, hgate, ⟨⟨e, he⟩, hrest⟩ =>
      rw [he]
      exact .held hauto hgate (fun hnone => by cases hnone) hrest

/-- **Every invocation comes to one of these ends.** -/
theorem invoke_ends
    (hh : (ToolInvocationService.invoke P i).History (P.serves who) h r) :
    InvokeEnds P who i h r := by
  have hrefuses : ∀ {p : ToolProg ToolInvocationResult} {rest : List ToolAsked}, Refuses p →
      p.History (P.serves who) rest r →
        (∀ a ∈ rest, a.op.isQuiet = true) ∧ ∃ e, r = .error e := fun hp hr =>
    hp.history hr (fun _ _ => trivial)
  unfold ToolInvocationService.invoke at hh
  rcases Prog.history_perform_bind.mp hh with ⟨s, e, s', -, rfl, rfl⟩ |
    ⟨s, o, s', rest, hs, rfl, hrest⟩
  · exact .unresolved (fun _ he => by cases he) (fun _ ha => absurd ha List.not_mem_nil)
  · cases o with
    | none =>
      obtain ⟨hquiet, e, rfl⟩ := hrefuses (refuses_notFound P i) hrest
      exact .unresolved (fun _ he => by cases he) hquiet
    | some d =>
      by_cases hscope : inScope d i = true
      · simp only [if_pos hscope] at hrest
        cases hvalid : validateParams d i.params with
        | ok params =>
          rw [hvalid] at hrest
          obtain rfl := validateParams_eq hvalid
          exact .accepted d hs hscope hvalid (gate_ends hrest)
        | error e =>
          rw [hvalid] at hrest
          have hno : ¬(inScope d i = true ∧ validateParams d i.params = .ok i.params) := by
            rintro ⟨-, hok⟩
            rw [hvalid] at hok
            cases hok
          cases e with
          | toolInvocation code approvalId =>
            obtain ⟨hquiet, e, rfl⟩ := hrefuses (refuses_recordBlocked P _ _) hrest
            exact .unaccepted d hs hno hquiet
          | _ =>
            obtain ⟨rfl, rfl⟩ := hrest
            exact .unaccepted d hs hno (fun _ ha => absurd ha List.not_mem_nil)
      · simp only [if_neg hscope] at hrest
        obtain ⟨hquiet, e, rfl⟩ := hrefuses (refuses_recordBlocked P _ _) hrest
        exact .unaccepted d hs (fun hno => hscope hno.1) hquiet

end Ends

/-! ## Invocations of a run -/

/-- **A history of an invocation** is one of `invoke`, and ends as it ends. -/
theorem invoke_ends_of_history {P : ToolPlatform} {pid : ℕ} {call : ToolCall} {i : Invocation}
    (hcall : call = .invoke i)
    {h : List (Asked (ToolCall × ToolOp) (fun x => ToolRes x.2) ToolException ToolPlane)}
    {outcome : Except ToolException ToolReply}
    (hh : ((toolPool P).body call).History ((toolPool P).serves pid) h outcome) :
    ∃ r : Except ToolException ToolInvocationResult, outcome = r.map .invoked ∧
      InvokeEnds P ⟨pid, .invoke i⟩ i (h.map Asked.untag) r := by
  rw [hcall] at hh
  have huntagged := Prog.history_of_tag _ hh
  rcases Prog.history_bind.mp huntagged with ⟨e, he, hr⟩ | ⟨h₁, h₂, a, happ, ha, hend⟩
  · exact ⟨.error e, hr, invoke_ends he⟩
  · obtain ⟨rfl, hr⟩ := hend
    refine ⟨.ok a, hr, ?_⟩
    rw [happ, List.append_nil]
    exact invoke_ends ha

/-- **An invocation that has answered** came to one of the ends. -/
theorem invoke_history {P : ToolPlatform} {clock : Timestamp} {ls : List ToolLabel}
    {w : ToolState}
    (hrun : (toolMachine P).run (Pool.idle (ToolPlane.start clock)) ls = some w)
    {x : Pool.Reply ToolException ToolPlane ToolCall ToolReply} (hx : x ∈ w.replies)
    {i : Invocation} (hcall : x.call = .invoke i) :
    ∃ r : Except ToolException ToolInvocationResult, x.outcome = r.map .invoked ∧
      InvokeEnds P ⟨x.pid, .invoke i⟩ i
        (toolHistory P x.pid (Pool.idle (ToolPlane.start clock)) ls) r :=
  invoke_ends_of_history hcall (Pool.history_of_reply (P := toolPool P)
    ⟨clock, rfl⟩ hrun x hx)

/-- So did one that arrived in the middle of the run. -/
theorem later_invoke_history {P : ToolPlatform} {clock : Timestamp} {ls ls' : List ToolLabel}
    {w w' : ToolState}
    (hrun : (toolMachine P).run (Pool.idle (ToolPlane.start clock)) ls = some w)
    (hrun' : (toolMachine P).run w ls' = some w')
    {x : Pool.Reply ToolException ToolPlane ToolCall ToolReply} (hx : x ∈ w'.replies)
    (hlater : w.spawned ≤ x.pid) {i : Invocation} (hcall : x.call = .invoke i) :
    ∃ r : Except ToolException ToolInvocationResult, x.outcome = r.map .invoked ∧
      InvokeEnds P ⟨x.pid, .invoke i⟩ i (toolHistory P x.pid w ls') r :=
  invoke_ends_of_history hcall (Pool.history_of_later_reply (P := toolPool P)
    ⟨clock, rfl⟩ hrun hrun' x hx hlater)
