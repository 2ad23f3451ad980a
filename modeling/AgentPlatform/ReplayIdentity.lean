import AgentPlatform.ReplayHistories

/-!
# Whose record a replay returns

An invocation that finds its idempotency key taken is answered with the record
stored under it, if the parameters are the same. The store is asked by tenant
and key, and the check compares hashes of parameters; the tool and its version,
which the registry resolves, are compared nowhere. A record therefore answers
every call of the tenant with its key and its parameters, of whatever tool.

`ReplaysOwn` is what a replay is for, read off the history of an invocation,
and `replay_identity_iff` says when it holds: exactly when the key was not
taken, with the same parameters, by another tool or version.
-/

open ToolInvocationService

/-- **The record is one of the call**: of its tool, its version and its
parameters. -/
structure SameCall (P : ToolPlatform) (i : Invocation) (d : ToolDefinition)
    (x : ToolInvocationRecord) : Prop where
  toolName : x.toolName = i.toolName
  toolVersion : x.toolVersion = some d.version
  paramsHash : x.paramsHash = paramsHashOf P i

/-- The call was refused for the reuse of its key, or could not be: a request it
made failed, and it ended with this failure. -/
def RefusedReuse (h : List ToolAsked) (outcome : Except ToolException ToolReply) : Prop :=
  outcome = .error (.toolInvocation "TOOL_IDEMPOTENCY_CONFLICT") ∨
    ∃ a ∈ h, ∃ e, a.answer = .error e ∧ outcome = .error e

/-- **An invocation replays its own calls only**: a record it is answered with
is one of the call, and a key that is taken by another tool or version is
refused. -/
structure ReplaysOwn (P : ToolPlatform) (i : Invocation) (h : List ToolAsked)
    (outcome : Except ToolException ToolReply) : Prop where
  identity : ∀ res, outcome = .ok (.invoked res) → res.replayed = true →
    ∃ d, resolvedIn h = some d ∧ SameCall P i d res.record
  refused : ∀ d x, resolvedIn h = some d → replayIn h = some x →
    (x.toolName ≠ i.toolName ∨ x.toolVersion ≠ some d.version) → RefusedReuse h outcome

/-- **The key is the tool's own**: a record the store has under it, with the
parameters of the call, is of the tool and the version of the call. -/
def OwnKey (P : ToolPlatform) (i : Invocation) (h : List ToolAsked) : Prop :=
  ∀ d x, resolvedIn h = some d → replayIn h = some x → x.paramsHash = paramsHashOf P i →
    x.toolName = i.toolName ∧ x.toolVersion = some d.version

section Identity

variable {P : ToolPlatform} {who : Caller} {d : ToolDefinition} {i : Invocation}
  {h : List ToolAsked} {r : Except ToolException ToolInvocationResult}

/-- A blocked call is recorded and ends with its error, or with that of a
request that failed. -/
theorem recordBlocked_ends {b : Blocked} {e : ToolException}
    (hh : ((recordBlocked P b).bind (fun _ => (.raise e : ToolProg ToolInvocationResult))).History
      (P.serves who) h r) :
    r = .error e ∨ ∃ a ∈ h, ∃ e', a.answer = .error e' ∧ r = .error e' := by
  rcases Prog.history_bind.mp hh with ⟨e', he, rfl⟩ | ⟨h₁, h₂, u, rfl, -, -, hr⟩
  · refine .inr ?_
    rcases Prog.history_perform_bind.mp he with ⟨s, e₁, s', -, rfl, he₁⟩ |
      ⟨s, id, s', rest, -, rfl, hrest⟩
    · obtain rfl := Except.error.inj he₁
      exact ⟨_, List.mem_cons_self, e', rfl, rfl⟩
    · obtain ⟨s₁, s₁', -, rfl⟩ := Prog.history_perform.mp hrest
      exact ⟨_, List.mem_cons_of_mem _ List.mem_cons_self, e', rfl, rfl⟩
  · exact .inl hr

/-- A call that executes is not answered with a record of another. -/
theorem executed_not_replayed {params : Dict} {hash : String}
    (hh : (executeAndRecord P d i params hash).History (P.serves who) h r)
    {res : ToolInvocationResult} (hr : r = .ok res) : res.replayed = false := by
  obtain ⟨o, id, rfl⟩ := executeAndRecord_ends hh hr
  rfl

/-- **What the replay check says of the answer**: the record it found is the
answer if its parameters are those of the call, and refuses it otherwise. -/
structure CheckAnswers (hash : String) (h : List ToolAsked)
    (r : Except ToolException ToolInvocationResult) : Prop where
  replayed : ∀ res, r = .ok res → res.replayed = true →
    replayIn h = some res.record ∧ res.record.paramsHash = hash
  same : ∀ x, replayIn h = some x → x.paramsHash = hash → r = .ok (replayedResult x)
  other : ∀ x, replayIn h = some x → x.paramsHash ≠ hash →
    r = .error (.toolInvocation "TOOL_IDEMPOTENCY_CONFLICT") ∨
      ∃ a ∈ h, ∃ e, a.answer = .error e ∧ r = .error e

/-- Where no record was found, none is the answer. -/
theorem checkAnswers_of_none {hash : String} (hnone : replayIn h = none)
    (hr : ∀ res, r = .ok res → res.replayed = false) : CheckAnswers hash h r where
  replayed res hres hreplayed := absurd hreplayed (by simp [hr res hres])
  same x hx := absurd (hnone.symm.trans hx) (by simp)
  other x hx := absurd (hnone.symm.trans hx) (by simp)

theorem CheckEnds.answers {params : Dict} {hash : String}
    (hh : CheckEnds P who d i params hash h r) : CheckAnswers hash h r := by
  cases hh with
  | unkeyed _ hrest =>
    exact checkAnswers_of_none (replayIn_of_quiet ((quiet_executeAndRecord ..).history hrest))
      (fun res hr => executed_not_replayed hrest hr)
  | failed => exact checkAnswers_of_none rfl (fun res hr => by cases hr)
  | @fresh s s' key rest r _ _ hrest =>
    have hnone : replayIn rest = none :=
      replayIn_of_quiet ((quiet_executeAndRecord ..).history hrest)
    exact checkAnswers_of_none hnone (fun res hr => executed_not_replayed hrest hr)
  | @refused s s' key x rest r _ _ hne hrest =>
    have hends := recordBlocked_ends hrest
    refine ⟨fun res hr _ => ?_, fun y hy heq => ?_, fun _ _ _ => hends.imp_right ?_⟩
    · rcases hends with hend | ⟨_, _, e, _, hend⟩
      · cases hr.symm.trans hend
      · cases hr.symm.trans hend
    · obtain rfl := Option.some.inj hy
      exact absurd heq hne
    · rintro ⟨a, ha, hend⟩
      exact ⟨a, List.mem_cons_of_mem _ ha, hend⟩
  | @replayed s s' key x _ _ heq =>
    refine ⟨fun res hr _ => ?_, fun y hy _ => ?_, fun y hy hne => ?_⟩
    · rw [← Except.ok.inj hr]
      exact ⟨rfl, heq⟩
    · rw [Option.some.inj hy]
    · obtain rfl := Option.some.inj hy
      exact absurd heq hne

/-- What precedes the replay check does not change what it says. -/
theorem CheckAnswers.prepend {hash : String} (hh : CheckAnswers hash h r) {h' : List ToolAsked}
    (hpre : ∀ a ∈ h', a.op.isQuiet = true) : CheckAnswers hash (h' ++ h) r := by
  have hsame : replayIn (h' ++ h) = replayIn h := replayIn_append hpre
  refine ⟨?_, ?_, fun x hx hne => ?_⟩
  · rw [hsame]
    exact hh.replayed
  · rw [hsame]
    exact hh.same
  · rw [hsame] at hx
    refine (hh.other x hx hne).imp_right ?_
    rintro ⟨a, ha, hend⟩
    exact ⟨a, List.mem_append_right _ ha, hend⟩

theorem GateEnds.answers (hh : GateEnds P who d i h r) : CheckAnswers (paramsHashOf P i) h r := by
  cases hh with
  | auto _ hcheck => exact hcheck.answers
  | passed _ hgate hcheck => exact hcheck.answers.prepend ((quiet_gate ..).history hgate)
  | held _ hgate _ hquiet =>
    exact checkAnswers_of_none (replayIn_of_quiet (List.forall_mem_append.mpr
      ⟨(quiet_gate ..).history hgate, hquiet⟩)) (fun res hr => by cases hr)

/-- **What the replay check says of the answer of an invocation**, which has
resolved its tool before. -/
theorem InvokeEnds.answers (hh : InvokeEnds P who i h r) :
    CheckAnswers (paramsHashOf P i) h r ∧
      ∀ x, replayIn h = some x → ∃ d, resolvedIn h = some d := by
  cases hh with
  | @unresolved s s' rest e o _ hrest =>
    have hnone : replayIn rest = none := replayIn_of_quiet hrest
    exact ⟨checkAnswers_of_none hnone (fun res hr => by cases hr),
      fun x hx => absurd (hnone.symm.trans hx) (by simp)⟩
  | @unaccepted s s' rest e d _ _ hrest =>
    have hnone : replayIn rest = none := replayIn_of_quiet hrest
    exact ⟨checkAnswers_of_none hnone (fun res hr => by cases hr), fun x _ => ⟨d, rfl⟩⟩
  | accepted d _ _ _ hgate =>
    refine ⟨?_, fun x _ => ⟨d, rfl⟩⟩
    have hone := fun (a : ToolAsked) (ha : a.op.isQuiet = true) =>
      hgate.answers.prepend (List.forall_mem_singleton.mpr ha)
    exact hone _ rfl

end Identity

/-- **Replay identity.** In every run of the tool plane, an invocation is
answered with records of its own calls only, and refused where its key is
another's, if and only if the record the store has under its key, with its
parameters, is of its own tool and version. -/
theorem replay_identity_iff (P : ToolPlatform) {clock : Timestamp} {ls : List ToolLabel}
    {w : ToolState}
    (hrun : (toolMachine P).run (Pool.idle (ToolPlane.start clock)) ls = some w)
    {x : Pool.Reply ToolException ToolPlane ToolCall ToolReply} (hx : x ∈ w.replies)
    {i : Invocation} (hcall : x.call = .invoke i) :
    ReplaysOwn P i (toolHistory P x.pid (Pool.idle (ToolPlane.start clock)) ls) x.outcome ↔
      OwnKey P i (toolHistory P x.pid (Pool.idle (ToolPlane.start clock)) ls) := by
  obtain ⟨r, hr, hends⟩ := invoke_history hrun hx hcall
  obtain ⟨hanswers, hresolved⟩ := hends.answers
  rw [hr]
  constructor
  · intro hown d y hd hy hhash
    have hreply := hanswers.same y hy hhash
    obtain ⟨d', hd', hsame⟩ := hown.identity _ (congrArg (Except.map ToolReply.invoked) hreply) rfl
    obtain rfl := Option.some.inj (hd.symm.trans hd')
    exact ⟨hsame.toolName, hsame.toolVersion⟩
  · intro hkey
    constructor
    · intro res hres hreplayed
      have hok : r = .ok res := by
        cases r with
        | error e => cases hres
        | ok res' => rw [ToolReply.invoked.inj (Except.ok.inj hres)]
      obtain ⟨hfound, hhash⟩ := hanswers.replayed res hok hreplayed
      obtain ⟨d, hd⟩ := hresolved _ hfound
      obtain ⟨hname, hversion⟩ := hkey d _ hd hfound hhash
      exact ⟨d, hd, hname, hversion, hhash⟩
    · intro d y hd hy hother
      have hne : y.paramsHash ≠ paramsHashOf P i := fun hhash => by
        obtain ⟨hname, hversion⟩ := hkey d y hd hy hhash
        exact hother.elim (fun h => h hname) (fun h => h hversion)
      rcases hanswers.other y hy hne with hend | ⟨a, ha, e, he, hend⟩
      · exact .inl (by rw [hend]; rfl)
      · exact .inr ⟨a, ha, e, he, by rw [hend]; rfl⟩

/-! ## A key that two tools share -/

/-- A tool that tags a contact, or takes its tag away: both are written twice
without harm, and take the same parameters. -/
def tagTool (tenantId : Uuid) (name : String) (version : ℤ) : ToolDefinition where
  tenantId := tenantId
  name := name
  version := version
  description := "Tag a contact"
  sideEffect := .IDEMPOTENT_WRITE
  inputSchema := [("type", .str "object")]
  outputSchema := [("type", .str "object")]
  dataClassification := .INTERNAL
  supportsIdempotency := true

/-- A tool plane over the database. -/
def tagPlatform : ToolPlatform where
  kind := .database
  sha256 := id
  catalogue := tagTool

/-- Ada calls a tool under the key `k`. -/
def tagCall (name : String) : Invocation where
  tenantId := 1
  toolName := name
  params := []
  scopes := none
  requestedBy := "ada"
  idempotencyKey := some "k"
  version := some 1

/-- The backend has done what it was asked. -/
def tagDone : BackendAnswer := .done ⟨true, some [], none, false⟩

/-- One tool is called under the key, and then another. -/
def sharedKeyRun (first second : String) : List ToolLabel :=
  [.spawn (.invoke (tagCall first)), .act 0 (.version 1), .act 0 .ok, .act 0 (.answer tagDone),
   .act 0 (.drawn 7), .act 0 .ok,
   .spawn (.invoke (tagCall second)), .act 1 (.version 1), .act 1 .ok]

/-- The tool whose record a call of `crm_untag` was answered with. -/
def untagReplay? (x : Pool.Reply ToolException ToolPlane ToolCall ToolReply) : Option String :=
  match x.call, x.outcome with
  | .invoke i, .ok (.invoked res) =>
    if i.toolName = "crm_untag" ∧ res.replayed then some res.record.toolName else none
  | _, _ => none

theorem of_untagReplay? {x : Pool.Reply ToolException ToolPlane ToolCall ToolReply}
    {name : String} (h : untagReplay? x = some name) :
    ∃ i res, x.call = .invoke i ∧ x.outcome = .ok (.invoked res) ∧ i.toolName = "crm_untag" ∧
      res.replayed = true ∧ res.record.toolName = name := by
  unfold untagReplay? at h
  split at h
  · rename_i i res hcall hout
    split at h
    · rename_i hi
      exact ⟨i, res, hcall, hout, hi.1, hi.2, Option.some.inj h⟩
    · cases h
  · cases h

/-- The second call of one tool replays the first. -/
theorem replay_identity_repeated :
    ∃ w, (toolMachine tagPlatform).run (Pool.idle (ToolPlane.start 0))
        (sharedKeyRun "crm_untag" "crm_untag") = some w ∧
      ∃ x ∈ w.replies, untagReplay? x = some "crm_untag" ∧ ∃ i, x.call = .invoke i ∧
        (ReplaysOwn tagPlatform i (toolHistory tagPlatform x.pid
            (Pool.idle (ToolPlane.start 0)) (sharedKeyRun "crm_untag" "crm_untag")) x.outcome ↔
          OwnKey tagPlatform i (toolHistory tagPlatform x.pid
            (Pool.idle (ToolPlane.start 0)) (sharedKeyRun "crm_untag" "crm_untag"))) := by
  have htest : ((toolMachine tagPlatform).run (Pool.idle (ToolPlane.start 0))
      (sharedKeyRun "crm_untag" "crm_untag")).map
        (fun w => w.replies.any (fun x => untagReplay? x = some "crm_untag")) = some true := by
    decide +kernel
  obtain ⟨w, hrun, hp⟩ := Option.map_eq_some_iff.mp htest
  obtain ⟨x, hx, hreplay⟩ := List.any_eq_true.mp hp
  obtain ⟨i, res, hcall, -⟩ := of_untagReplay? (of_decide_eq_true hreplay)
  exact ⟨w, hrun, x, hx, of_decide_eq_true hreplay, i, hcall,
    replay_identity_iff tagPlatform hrun hx hcall⟩

/-- A call that takes a tag away is answered with the record of the call that
set it. -/
theorem replay_of_another_tool :
    ¬ ∀ w, (toolMachine tagPlatform).Reach Machine.anyStep w → ∀ x ∈ w.replies, ∀ i res,
      x.call = .invoke i → x.outcome = .ok (.invoked res) → res.replayed = true →
      res.record.toolName = i.toolName := by
  have htest : ((toolMachine tagPlatform).run (Pool.idle (ToolPlane.start 0))
      (sharedKeyRun "crm_tag" "crm_untag")).map
        (fun w => w.replies.any (fun x => untagReplay? x = some "crm_tag")) = some true := by
    decide +kernel
  have hinit : (toolMachine tagPlatform).init (Pool.idle (ToolPlane.start 0)) :=
    ⟨_, ⟨0, rfl⟩, rfl⟩
  obtain ⟨w, hreach, hp⟩ := Machine.reach_of_run hinit htest
  obtain ⟨x, hx, hreplay⟩ := List.any_eq_true.mp hp
  obtain ⟨i, res, hcall, hout, hname, hreplayed, hrecord⟩ :=
    of_untagReplay? (of_decide_eq_true hreplay)
  intro hclaim
  have hsame := hclaim w hreach x hx i res hcall hout hreplayed
  rw [hrecord, hname] at hsame
  exact absurd hsame (by decide)
