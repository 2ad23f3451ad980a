import AgentPlatform.CallRecords
import AgentPlatform.ReplayIdentity

/-!
# An invocation that is repeated

A caller that has lost an answer calls again under the same idempotency key. If
the first call succeeded, its record pins the key, and a repeat that comes to
the replay check is answered with it. What lies before the check is the
approval gate. It knows nothing of keys: it asks for an approval of the repeat
as it did for the first call, and the approval of the first call is spent.

So the repeats of tools that need no approval are replays, and those of tools
that do are not: they consume another approval, or wait for one.
-/

open ToolInvocationService

/-- **The same invocation again**: whatever decides what is called, for whom and
under which key. -/
structure SameInvocation (i i' : Invocation) : Prop where
  tenantId : i'.tenantId = i.tenantId
  toolName : i'.toolName = i.toolName
  version : i'.version = i.version
  params : i'.params = i.params
  scopes : i'.scopes = i.scopes
  requestedBy : i'.requestedBy = i.requestedBy
  idempotencyKey : i'.idempotencyKey = i.idempotencyKey
  releaseId : i'.releaseId = i.releaseId
  mode : i'.mode = i.mode

/-- **The repeat is a replay**: it returns the record of the first call, and has
executed nothing, created no approval request and consumed none. -/
structure RepeatReplays (res : ToolInvocationResult) (h : List ToolAsked)
    (outcome : Except ToolException ToolReply) : Prop where
  answered : outcome = .ok (.invoked (replayedResult res.record))
  unexecuted : ∀ a ∈ h, ∀ d params, a.op ≠ .execute d params
  uncreated : ∀ a ∈ h, ∀ r, a.op = .upsertApproval r → r.status ≠ .PENDING
  unconsumed : ∀ a ∈ h, ∀ t id fromStatuses decidedBy decidedAt,
    a.op ≠ .transition t id fromStatuses .CONSUMED decidedBy decidedAt

/-! ## The gate -/

section Gate

variable {P : ToolPlatform} {who : Caller} {d : ToolDefinition} {i i' : Invocation}
  {h : List ToolAsked} {params : Dict} {hash : String}

/-- **Who consumes an approval** has asked for its move to `CONSUMED`. -/
theorem consume_asks {t id : Uuid} {b : ApprovalBinding} {r : ApprovalRequest}
    (hh : (ApprovalService.consume t id b).History (P.serves who) h (.ok r)) :
    ∃ a ∈ h, a.op = .transition t id [.APPROVED] .CONSUMED none none := by
  rcases Prog.history_bind.mp hh with ⟨e, -, he⟩ | ⟨h₁, h₂, request, rfl, -, hrest⟩
  · cases he
  · split at hrest
    · cases hrest.2
    · split at hrest
      · cases hrest.2
      · split at hrest
        · cases hrest.2
        · rcases Prog.history_perform_bind.mp hrest with ⟨s, e, s', -, -, he⟩ |
            ⟨s, o, s', rest, -, rfl, -⟩
          · cases he
          · exact ⟨_, List.mem_append_right _ List.mem_cons_self, rfl⟩

/-- **With an approval service, the gate lets a call pass only by consuming an
approval.** -/
theorem gate_consumes (happrovals : P.approvals = true)
    (hh : (gateWriteSideEffect P d i params hash).History (P.serves who) h (.ok none)) :
    ∃ a ∈ h, ∃ t id, a.op = .transition t id [.APPROVED] .CONSUMED none none := by
  unfold gateWriteSideEffect at hh
  rw [if_pos happrovals] at hh
  rcases Prog.history_bind.mp hh with ⟨e, -, he⟩ | ⟨h₁, h₂, o, rfl, -, hrest⟩
  · cases he
  · cases o with
    | some approved =>
      rcases Prog.history_bind.mp hrest with ⟨e, -, he⟩ | ⟨h₃, h₄, request, rfl, hconsume, -⟩
      · cases he
      · obtain ⟨a, ha, hop⟩ := consume_asks hconsume
        exact ⟨a, List.mem_append_right _ (List.mem_append_left _ ha), _, _, hop⟩
    | none =>
      rcases Prog.history_bind.mp hrest with ⟨e, -, he⟩ | ⟨h₃, h₄, o, rfl, -, hwaits⟩
      · cases he
      · cases o with
        | some pending => cases hwaits.2
        | none =>
          rcases Prog.history_bind.mp hwaits with ⟨e, -, he⟩ | ⟨h₅, h₆, created, -, -, hend⟩
          · cases he
          · cases hend.2

/-- **Without one, it asks nobody.** -/
theorem gate_open (happrovals : P.approvals = false) (hmode : i.mode ≠ "conversation")
    (hrisk : d.sideEffect ≠ .HIGH_RISK) :
    gateWriteSideEffect P d i params hash = .ret none := by
  unfold gateWriteSideEffect
  rw [happrovals, if_neg (by simp), if_pos ⟨hmode, hrisk⟩]
  rfl

/-- It has let pass direct calls of a lower risk only. -/
theorem passed_direct (happrovals : P.approvals = false)
    (hh : (gateWriteSideEffect P d i params hash).History (P.serves who) h (.ok none)) :
    i.mode ≠ "conversation" ∧ d.sideEffect ≠ .HIGH_RISK := by
  by_contra hno
  unfold gateWriteSideEffect at hh
  rw [happrovals, if_neg (by simp), if_neg hno] at hh
  rcases Prog.history_bind.mp hh with ⟨e, -, he⟩ | ⟨h₁, h₂, u, -, -, hend⟩
  · cases he
  · cases hend.2

end Gate

/-! ## The first call and the repeat -/

section Repeat

variable {P : ToolPlatform} {who : Caller} {d : ToolDefinition} {i i' : Invocation}
  {h : List ToolAsked} {r : Except ToolException ToolInvocationResult}

/-- The record an invocation returns has the hash of its parameters. -/
theorem CheckEnds.paramsHash {params : Dict} {hash : String}
    (hh : CheckEnds P who d i params hash h r) {res : ToolInvocationResult} (hr : r = .ok res) :
    res.record.paramsHash = hash := by
  cases hh with
  | unkeyed _ hrest =>
    obtain ⟨o, id, rfl⟩ := executeAndRecord_ends hrest hr
    rfl
  | failed => cases hr
  | fresh _ _ hrest =>
    obtain ⟨o, id, rfl⟩ := executeAndRecord_ends hrest hr
    rfl
  | refused _ _ _ hrest =>
    rcases recordBlocked_ends hrest with hend | ⟨_, _, e, _, hend⟩
    · cases hr.symm.trans hend
    · cases hr.symm.trans hend
  | replayed _ _ hx =>
    obtain rfl := Except.ok.inj hr
    exact hx

/-- **What a successful call tells of its repeats**: the tool it resolved was in
scope and took the parameters, the record has their hash, and the gate has let
the call pass. -/
structure FirstCall (P : ToolPlatform) (who : Caller) (i : Invocation) (h : List ToolAsked)
    (res : ToolInvocationResult) (d : ToolDefinition) : Prop where
  resolved : ∃ s s', P.serves who (.resolveTool i.tenantId i.toolName i.version) s
    (.ok (some d)) s'
  scopes : inScope d i = true
  params : validateParams d i.params = .ok i.params
  hash : res.record.paramsHash = paramsHashOf P i
  passed : d.sideEffect ∉ autoExecutableSideEffects → ∃ gate,
    (gateWriteSideEffect P d i i.params (paramsHashOf P i)).History (P.serves who) gate (.ok none)

theorem InvokeEnds.firstCall (hh : InvokeEnds P who i h r) {res : ToolInvocationResult}
    (hr : r = .ok res) : ∃ d, resolvedIn h = some d ∧ FirstCall P who i h res d := by
  cases hh with
  | unresolved => cases hr
  | unaccepted => cases hr
  | accepted d hs hscope hparams hgate =>
    refine ⟨d, rfl, ⟨_, _, hs⟩, hscope, hparams, ?_, ?_⟩
    · cases hgate with
      | auto _ hcheck => exact hcheck.paramsHash hr
      | passed _ _ hcheck => exact hcheck.paramsHash hr
      | held => cases hr
    · intro hauto
      cases hgate with
      | auto hin _ => exact absurd hin hauto
      | passed _ hpassed _ => exact ⟨_, hpassed⟩
      | held => cases hr

/-- A version of a tool is one definition. -/
theorem eq_of_resolved {who' : Caller} {t : Uuid} {name : String} {version : Option ℤ}
    {d d' : ToolDefinition} {s₁ s₁' s₂ s₂' : ToolPlane}
    (hd : P.serves who (.resolveTool t name version) s₁ (.ok (some d)) s₁')
    (hd' : P.serves who' (.resolveTool t name version) s₂ (.ok (some d')) s₂')
    (hversion : d'.version = d.version) : d' = d := by
  obtain ⟨c, hc⟩ := hd
  obtain ⟨c', hc'⟩ := hd'
  obtain ⟨v, -, rfl⟩ := serve_resolveTool hc
  obtain ⟨v', -, rfl⟩ := serve_resolveTool hc'
  obtain rfl : v' = v := hversion
  rfl

/-- What the lookups of a call find under its key, once the first call has
answered. -/
def Pins (i : Invocation) (x : ToolInvocationRecord) (h : List ToolAsked) : Prop :=
  ∀ a ∈ h, ∀ key, i.idempotencyKey = some key →
    a.before.findReplay i.tenantId key = some x

/-- **The replay check of a repeat**: if no request fails, it is answered with the
record its key is pinned to, and asks nothing else. -/
theorem CheckEnds.pinned {x : ToolInvocationRecord} {params : Dict} {hash : String}
    (hh : CheckEnds P who d i params hash h r) (hkey : i.idempotencyKey.isSome = true)
    (hpins : Pins i x h) (hhash : x.paramsHash = hash)
    (hserved : ∀ a ∈ h, ∀ e, a.answer ≠ .error e) :
    r = .ok (replayedResult x) ∧ ∀ a ∈ h, ∃ t key, a.op = .findReplay t key := by
  cases hh with
  | unkeyed hnone =>
    rw [hnone] at hkey
    cases hkey
  | failed => exact absurd rfl (hserved _ List.mem_cons_self _)
  | fresh hk hs =>
    obtain ⟨c, hc⟩ := hs
    have hfound := hpins _ List.mem_cons_self _ hk
    rcases serve_findReplay hc with ⟨y, hy, -⟩ | ⟨-, hnone, -⟩ | ⟨⟨e, he⟩, -⟩
    · cases hy
    · cases hnone.symm.trans hfound
    · cases he
  | refused hk hs hne =>
    obtain ⟨c, hc⟩ := hs
    have hfound := hpins _ List.mem_cons_self _ hk
    rcases serve_findReplay hc with ⟨y, hy, hsome, -⟩ | ⟨hnone, -⟩ | ⟨⟨e, he⟩, -⟩
    · obtain rfl := Option.some.inj (Except.ok.inj hy)
      obtain rfl := Option.some.inj (hsome.symm.trans hfound)
      exact absurd hhash hne
    · cases hnone
    · cases he
  | replayed hk hs _ =>
    obtain ⟨c, hc⟩ := hs
    have hfound := hpins _ List.mem_cons_self _ hk
    rcases serve_findReplay hc with ⟨y, hy, hsome, -⟩ | ⟨hnone, -⟩ | ⟨⟨e, he⟩, -⟩
    · obtain rfl := Option.some.inj (Except.ok.inj hy)
      obtain rfl := Option.some.inj (hsome.symm.trans hfound)
      refine ⟨rfl, fun a ha => ?_⟩
      rw [List.mem_singleton.mp ha]
      exact ⟨_, _, rfl⟩
    · cases hnone
    · cases he

/-- Where no approval is needed, or nobody grants any, a repeat of a successful
call comes to the replay check without asking anything. -/
theorem GateEnds.unasked {who' : Caller} (hh : GateEnds P who' d i' h r)
    (hopen : d.sideEffect ∈ autoExecutableSideEffects ∨ P.approvals = false)
    (hmode : d.sideEffect ∉ autoExecutableSideEffects → P.approvals = false →
      i'.mode ≠ "conversation" ∧ d.sideEffect ≠ .HIGH_RISK) :
    CheckEnds P who' d i' i'.params (paramsHashOf P i') h r := by
  cases hh with
  | auto _ hcheck => exact hcheck
  | @passed gate h r hauto hgate hcheck =>
    have happrovals := hopen.resolve_left hauto
    obtain ⟨hm, hr⟩ := hmode hauto happrovals
    rw [gate_open happrovals hm hr] at hgate
    obtain ⟨rfl, -⟩ := hgate
    exact hcheck
  | @held gate h o e hauto hgate hne _ =>
    have happrovals := hopen.resolve_left hauto
    obtain ⟨hm, hr⟩ := hmode hauto happrovals
    rw [gate_open happrovals hm hr] at hgate
    exact absurd hgate.2 hne

/-- A gate that asks for approvals lets no repeat be a replay. -/
theorem GateEnds.not_replays {res : ToolInvocationResult} {h' : List ToolAsked}
    (hh : GateEnds P who d i h r) (hauto : d.sideEffect ∉ autoExecutableSideEffects)
    (happrovals : P.approvals = true) (hsub : ∀ a ∈ h, a ∈ h') :
    ¬RepeatReplays res h' (r.map .invoked) := by
  intro hreplays
  cases hh with
  | auto hin _ => exact hauto hin
  | passed _ hgate _ =>
    obtain ⟨a, ha, t, id, hop⟩ := gate_consumes happrovals hgate
    exact hreplays.unconsumed a (hsub a (List.mem_append_left _ ha)) t id _ _ _ hop
  | held => cases hreplays.answered

/-- **The repeat of a successful call**, taken by itself. -/
theorem InvokeEnds.repeats {who' : Caller} {h' : List ToolAsked}
    {r' : Except ToolException ToolInvocationResult} {res : ToolInvocationResult}
    (hfirst : FirstCall P who i h res d) (hh : InvokeEnds P who' i' h' r')
    (hsame : SameInvocation i i') (hkey : i.idempotencyKey.isSome = true)
    (hpins : Pins i res.record h') {d' : ToolDefinition} (hd : resolvedIn h' = some d')
    (hversion : d'.version = d.version) (hserved : ∀ a ∈ h', ∀ e, a.answer ≠ .error e) :
    RepeatReplays res h' (r'.map .invoked) ↔
      d.sideEffect ∈ autoExecutableSideEffects ∨ P.approvals = false := by
  have hscope : inScope d i' = true := by
    unfold inScope
    rw [hsame.scopes]
    exact hfirst.scopes
  have hparams : validateParams d i'.params = .ok i'.params := by
    rw [hsame.params]
    exact hfirst.params
  have hhash : res.record.paramsHash = paramsHashOf P i' := by
    unfold paramsHashOf
    rw [hsame.params]
    exact hfirst.hash
  have hpins' : Pins i' res.record h' := by
    intro a ha key hk
    rw [hsame.tenantId]
    exact hpins a ha key (hsame.idempotencyKey ▸ hk)
  have hkey' : i'.idempotencyKey.isSome = true := by
    rw [hsame.idempotencyKey]
    exact hkey
  obtain ⟨s, s', hresolved⟩ := hfirst.resolved
  rw [← hsame.tenantId, ← hsame.toolName, ← hsame.version] at hresolved
  cases hh with
  | @unresolved s s' rest e x hx _ =>
    exfalso
    cases x with
    | error e => cases hd
    | ok o =>
      obtain rfl : o = some d' := hd
      exact hx d' rfl
  | @unaccepted s₁ s₁' rest e d₁ hs hno _ =>
    obtain rfl : d₁ = d' := Option.some.inj hd
    obtain rfl := eq_of_resolved hresolved hs hversion
    exact absurd ⟨hscope, hparams⟩ hno
  | @accepted s₁ s₁' rest r' d₁ hs _ _ hgate =>
    obtain rfl : d₁ = d' := Option.some.inj hd
    obtain rfl := eq_of_resolved hresolved hs hversion
    constructor
    · intro hreplays
      by_contra hno
      obtain ⟨hauto, happrovals⟩ := not_or.mp hno
      exact hgate.not_replays hauto (by simpa using happrovals)
        (fun a ha => List.mem_cons_of_mem _ ha) hreplays
    · intro hopen
      have hcheck := hgate.unasked hopen (fun hauto happrovals => by
        obtain ⟨gate, hpassed⟩ := hfirst.passed hauto
        rw [hsame.mode]
        exact passed_direct happrovals hpassed)
      obtain ⟨rfl, hops⟩ := hcheck.pinned hkey' (fun a ha => hpins' a (List.mem_cons_of_mem _ ha))
        hhash (fun a ha => hserved a (List.mem_cons_of_mem _ ha))
      have hall : ∀ a ∈ (⟨s₁, .resolveTool i'.tenantId i'.toolName i'.version, .ok (some d₁), s₁'⟩
          :: rest : List ToolAsked), (∃ t name v, a.op = .resolveTool t name v) ∨
            ∃ t key, a.op = .findReplay t key := by
        intro a ha
        rcases List.mem_cons.mp ha with rfl | ha
        · exact .inl ⟨_, _, _, rfl⟩
        · exact .inr (hops a ha)
      refine ⟨rfl, fun a ha d params hop => ?_, fun a ha r hop => ?_,
        fun a ha t id _ _ _ hop => ?_⟩
      all_goals
        rcases hall a ha with ⟨_, _, _, hfind⟩ | ⟨_, _, hfind⟩
        · cases hop.symm.trans hfind
        · cases hop.symm.trans hfind

end Repeat

/-- Test for an invocation as `call`, of a tool without parameters. -/
def isCall (call i : Invocation) : Bool :=
  i.tenantId = call.tenantId && i.toolName = call.toolName && i.version = call.version
    && i.params.isEmpty && i.scopes = call.scopes && i.requestedBy = call.requestedBy
    && i.idempotencyKey = call.idempotencyKey && i.releaseId = call.releaseId && i.mode = call.mode

theorem sameInvocation_of_isCall {call i i' : Invocation} (h : isCall call i = true)
    (h' : isCall call i' = true) : SameInvocation i i' := by
  simp only [isCall, Bool.and_eq_true, decide_eq_true_eq, List.isEmpty_iff] at h h'
  obtain ⟨⟨⟨⟨⟨⟨⟨⟨h₁, h₂⟩, h₃⟩, h₄⟩, h₅⟩, h₆⟩, h₇⟩, h₈⟩, h₉⟩ := h
  obtain ⟨⟨⟨⟨⟨⟨⟨⟨k₁, k₂⟩, k₃⟩, k₄⟩, k₅⟩, k₆⟩, k₇⟩, k₈⟩, k₉⟩ := h'
  exact ⟨k₁.trans h₁.symm, k₂.trans h₂.symm, k₃.trans h₃.symm, k₄.trans h₄.symm,
    k₅.trans h₅.symm, k₆.trans h₆.symm, k₇.trans h₇.symm, k₈.trans h₈.symm, k₉.trans h₉.symm⟩

/-- The reply of the call `pid`, if it is one to `call`. -/
def replyOf (pid : ℕ) (call : Invocation) (w : ToolState) :
    Option (Pool.Reply ToolException ToolPlane ToolCall ToolReply × Invocation) :=
  w.replies.findSome? (fun x =>
    match x.call with
    | .invoke i => if x.pid = pid && isCall call i then some (x, i) else none
    | _ => none)

theorem of_replyOf {pid : ℕ} {call : Invocation} {w : ToolState}
    {x : Pool.Reply ToolException ToolPlane ToolCall ToolReply} {i : Invocation}
    (h : replyOf pid call w = some (x, i)) :
    x ∈ w.replies ∧ x.pid = pid ∧ x.call = .invoke i ∧ isCall call i = true := by
  obtain ⟨y, hy, hfound⟩ := List.exists_of_findSome?_eq_some h
  split at hfound
  · rename_i i' hcall
    split at hfound
    · rename_i hmatch
      obtain ⟨rfl, rfl⟩ := Prod.mk.inj (Option.some.inj hfound)
      obtain ⟨hpid, hi⟩ := Bool.and_eq_true_iff.mp hmatch
      exact ⟨hy, of_decide_eq_true hpid, hcall, hi⟩
    · cases hfound
  · cases hfound

/-- What a reply says of a successful invocation. -/
def success? (x : Pool.Reply ToolException ToolPlane ToolCall ToolReply) :
    Option ToolInvocationResult :=
  match x.outcome with
  | .ok (.invoked res) => if res.status = .SUCCEEDED then some res else none
  | _ => none

/-- **A call that succeeds under a key, and its repeat.** -/
structure Repeated (P : ToolPlatform) (ls ls' : List ToolLabel) (w w' : ToolState)
    (x y : Pool.Reply ToolException ToolPlane ToolCall ToolReply) (i i' : Invocation)
    (res : ToolInvocationResult) (d d' : ToolDefinition) : Prop where
  run : (toolMachine P).run (Pool.idle (ToolPlane.start 0)) ls = some w
  again : (toolMachine P).run w ls' = some w'
  first : x ∈ w.replies
  call : x.call = .invoke i
  keyed : i.idempotencyKey.isSome = true
  succeeded : x.outcome = .ok (.invoked res) ∧ res.status = .SUCCEEDED
  second : y ∈ w'.replies
  later : w.spawned ≤ y.pid
  call' : y.call = .invoke i'
  same : SameInvocation i i'
  resolved : resolvedIn (toolHistory P x.pid (Pool.idle (ToolPlane.start 0)) ls) = some d
  resolved' : resolvedIn (toolHistory P y.pid w ls') = some d'
  version : d'.version = d.version
  served : ∀ a ∈ toolHistory P y.pid w ls', ∀ e, a.answer ≠ .error e

/-- Test for two runs in which the call `first` succeeds and `second` repeats it,
with a test of the tool and of the answer of the repeat. -/
def repeatTest (P : ToolPlatform) (call : Invocation) (first second : ℕ) (ls ls' : List ToolLabel)
    (test : ToolDefinition → Pool.Reply ToolException ToolPlane ToolCall ToolReply → Bool) :
    Bool :=
  match (toolMachine P).run (Pool.idle (ToolPlane.start 0)) ls with
  | none => false
  | some w =>
    match (toolMachine P).run w ls' with
    | none => false
    | some w' =>
      match replyOf first call w, replyOf second call w',
        resolvedIn (toolHistory P first (Pool.idle (ToolPlane.start 0)) ls),
        resolvedIn (toolHistory P second w ls') with
      | some (x, _), some (y, _), some d, some d' =>
        (success? x).isSome && w.spawned ≤ second && d'.version = d.version
          && (toolHistory P second w ls').all (fun a => a.answer.isOk) && test d y
      | _, _, _, _ => false

theorem repeated_of_test {P : ToolPlatform} {call : Invocation} {first second : ℕ}
    {ls ls' : List ToolLabel}
    {test : ToolDefinition → Pool.Reply ToolException ToolPlane ToolCall ToolReply → Bool}
    (hcall : call.idempotencyKey.isSome = true)
    (h : repeatTest P call first second ls ls' test = true) :
    ∃ w w' x y i i' res d d', Repeated P ls ls' w w' x y i i' res d d' ∧ test d y = true := by
  unfold repeatTest at h
  split at h
  · cases h
  · rename_i w hrun
    split at h
    · cases h
    · rename_i w' hrun'
      split at h
      · rename_i x i y i' d d' hx hy hd hd'
        obtain ⟨hfirst, rfl, hxcall, hi⟩ := of_replyOf hx
        obtain ⟨hsecond, rfl, hycall, hi'⟩ := of_replyOf hy
        simp only [Bool.and_eq_true, decide_eq_true_eq, List.all_eq_true] at h
        obtain ⟨⟨⟨⟨hsuccess, hlater⟩, hversion⟩, hserved⟩, htest⟩ := h
        obtain ⟨res, hres⟩ := Option.isSome_iff_exists.mp hsuccess
        have hsucceeded : x.outcome = .ok (.invoked res) ∧ res.status = .SUCCEEDED := by
          unfold success? at hres
          split at hres
          · rename_i res' hout
            split at hres
            · rename_i hst
              obtain rfl := Option.some.inj hres
              exact ⟨hout, hst⟩
            · cases hres
          · cases hres
        have hkeyed : i.idempotencyKey.isSome = true := by
          simp only [isCall, Bool.and_eq_true, decide_eq_true_eq] at hi
          rw [hi.1.1.2]
          exact hcall
        refine ⟨w, w', x, y, i, i', res, d, d', ⟨hrun, hrun', hfirst, hxcall, hkeyed, hsucceeded,
          hsecond, hlater, hycall, sameInvocation_of_isCall hi hi', hd, hd', hversion, ?_⟩, htest⟩
        intro a ha e he
        have hok := hserved a ha
        rw [he] at hok
        cases hok
      · cases h

/-- A tool plane whose tool sends mails: each mail needs an approval. -/
def approvedMailPlatform : ToolPlatform where
  kind := .database
  sha256 := id
  catalogue t name v := { tagTool t name v with sideEffect := .NON_IDEMPOTENT_WRITE }

/-- Ada sends a mail under the key `k`. -/
def mailCall : Invocation := { tagCall "send_mail" with releaseId := some "r1" }

/-- The mail Ada wants to send, as it is asked to be approved. -/
def mailApproval : ApprovalIntent :=
  approvalIntent (approvedMailPlatform.catalogue 1 "send_mail" 1) mailCall [] "{}"

/-- The mail is approved and sent. -/
def sentMail : List ToolLabel :=
  [.spawn (.create mailApproval), .act 0 .ok, .act 0 (.drawn 7), .act 0 .ok,
   .spawn (.decide 1 7 .APPROVE "bob" "TENANT_ADMIN"), .act 1 .ok, .act 1 .ok, .act 1 .ok,
   .act 1 .ok,
   .spawn (.invoke mailCall), .act 2 (.version 1), .act 2 (.pick 0), .act 2 .ok, .act 2 .ok,
   .act 2 .ok, .act 2 .ok, .act 2 .ok, .act 2 (.answer tagDone), .act 2 (.drawn 8), .act 2 .ok]

/-- The call is repeated. -/
def sentAgain : List ToolLabel :=
  [.spawn (.invoke mailCall), .act 3 (.version 1), .act 3 .ok, .act 3 .ok, .act 3 .ok,
   .act 3 (.drawn 9), .act 3 .ok, .act 3 (.drawn 10), .act 3 .ok]

/-- The reply is an error. -/
def failed? (x : Pool.Reply ToolException ToolPlane ToolCall ToolReply) : Bool :=
  match x.outcome with
  | .error _ => true
  | .ok _ => false
