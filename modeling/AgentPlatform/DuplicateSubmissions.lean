import AgentPlatform.Deployments
import AgentPlatform.JsonCanonical
import AgentPlatform.Observed
import AgentPlatform.Submission

/-!
# What a duplicate submission reports

A submission first resolves the deployment of its application to a release, then
looks for an earlier submission of its message. When there is one,
`_deduplicated_submission` answers with the execution that is stored – but with
the release the deployment routes to *now* and the Session of the submission
itself. This module compares the answer with the stored row.

`gateways` is the pool `submitters` with the resolver in place: the deployments
may be changed in any way between two requests, each gateway has a resolver with
the routes it remembers, and what the resolver went by is noted for each call.
Leaving all of that out gives a run of `submitters` (`reach_submitters`), so an
accepted message is stored as the execution its reply names. Two invariants of
the new pool give the rest. The release in a reply is the one the resolver sent
the Session to (`Reported`), and a row is stored with the Session its payload
hash covers (`Sealed`), so that the Session in a reply is that of the row. The
release is that of the row exactly when the resolver still sends the Session
there: `duplicate_reports_iff`.
-/

/-! ## Gateways and their resolvers -/

/-- What a resolver goes by: the deployments it reads, if it can, and the routes
it remembers. -/
structure Consultation where
  read : Except PyException DeploymentDb
  routes : RouteCache

namespace Consultation

/-- The release the resolver answers with. -/
def release (sha256Head : String → ℕ) (seen : Consultation) (scope : DeploymentScope)
    (sessionId : String) : Option Uuid :=
  match (resolveDeployment sha256Head seen.read seen.routes scope sessionId).1 with
  | .ok releaseId => releaseId
  | .error _ => none

/-- **The resolver sends a submission to a release**: by the route of the current
deployment, or by a remembered one. -/
def Sends (sha256Head : String → ℕ) (seen : Consultation) (sub : AgentExecutionSubmission)
    (releaseId : Uuid) : Prop :=
  ∃ route, resolvedRoute seen.read seen.routes
      ⟨sub.tenantId, sub.applicationId, sub.environment⟩ = .ok (some route)
    ∧ route.releaseFor sha256Head sub.sessionId = releaseId

/-- A resolver sends a submission to one release at most. -/
theorem Sends.unique {sha256Head : String → ℕ} {seen : Consultation}
    {sub : AgentExecutionSubmission} {r r' : Uuid} (h : seen.Sends sha256Head sub r)
    (h' : seen.Sends sha256Head sub r') : r = r' := by
  obtain ⟨route, hroute, rfl⟩ := h
  obtain ⟨route', hroute', rfl⟩ := h'
  rw [hroute] at hroute'
  obtain rfl := Option.some.inj (Except.ok.inj hroute')
  rfl

/-- The release the resolver answers with is the one it sends to. -/
theorem sends_of_release {sha256Head : String → ℕ} {seen : Consultation}
    {sub : AgentExecutionSubmission} {r : Uuid}
    (h : seen.release sha256Head ⟨sub.tenantId, sub.applicationId, sub.environment⟩ sub.sessionId
      = some r) : seen.Sends sha256Head sub r := by
  unfold release resolveDeployment at h
  split at h
  · rename_i releaseId hout
    subst h
    split at hout
    · cases hout
    · cases hout
    · rename_i route hroute
      exact ⟨route, hroute, Option.some.inj (Except.ok.inj hout)⟩
  · cases h

end Consultation

/-- **The state of the resolvers**: the deployments as they are committed, the
routes each gateway remembers, and what was consulted for each call. -/
structure Routing where
  deployments : DeploymentDb
  routes : ℕ → RouteCache
  consulted : ℕ → Option Consultation

/-- What happens to a request: which gateway runs the call, and what becomes of
the statement. -/
structure GatewayChoice where
  gateway : ℕ := 0
  choice : Choice GatewayAnswer

namespace Routing

/-- What the resolver of a call sees. A statement that is not served leaves it
with what it remembers. -/
def seen (g : Routing) (c : GatewayChoice) : Consultation where
  read := match c.choice with
    | .serve _ => .ok g.deployments
    | _ => .error gatewayEngine.dbError
  routes := g.routes c.gateway

/-- What becomes of a request: the resolver answers from what it sees, and all
other statements go to the database. -/
def serve (sha256Head : String → ℕ) (g : Routing) (c : GatewayChoice) :
    TxOp SubmitOp → Choice GatewayAnswer
  | .run (.resolveDeployment tenantId applicationId environment sessionId) =>
    .serve { deployment :=
      (g.seen c).release sha256Head ⟨tenantId, applicationId, environment⟩ sessionId }
  | _ => c.choice

/-- The resolvers after a request: the one asked remembers the route it went
by. -/
def note (sha256Head : String → ℕ) (g : Routing) (pid : ℕ) (c : GatewayChoice) :
    TxOp SubmitOp → Routing
  | .run (.resolveDeployment tenantId applicationId environment sessionId) =>
    { g with
      routes := Function.update g.routes c.gateway
        (resolveDeployment sha256Head (g.seen c).read (g.seen c).routes
          ⟨tenantId, applicationId, environment⟩ sessionId).2
      consulted := Function.update g.consulted pid (some (g.seen c)) }
  | _ => g

end Routing

/-- The database of the gateways with their resolvers. -/
abbrev RoutedState := GatewayState × Routing

/-- What changes around the gateways: the status of an execution, or the
deployments. -/
inductive RoutingEvent where
  | status (u : StatusUpdate)
  | deploy (db : DeploymentDb)

/-- **Any number of submissions at any number of gateways**, while deployments
change. -/
def gateways (sha256 : String → String) (sha256Head : String → ℕ) (policy : CapacityPolicy) :
    Pool (TxOp SubmitOp) (TxRes SubmitRes) PyException GatewayChoice RoutedState
      AgentExecutionSubmission AgentExecutionAccepted RoutingEvent where
  handler := fun pid c op s =>
    (gatewayEngine.handler pid (s.2.serve sha256Head c op) op s.1).map
      (fun x => (x.1, (x.2, s.2.note sha256Head pid c op)))
  body := submit sha256 policy
  abandon := fun pid s => (Engine.close s.1 pid, s.2)
  env := fun e s => match e with
    | .status u => some ({ s.1 with committed := setExecutionStatus u s.1.committed }, s.2)
    | .deploy db => some (s.1, { s.2 with deployments := db })

/-- The gateways start on an empty database. -/
def gatewaysStart (s : RoutedState) : Prop := gatewayStart s.1

/-- A state of the gateways with their submissions. -/
abbrev GatewaysState :=
  Pool.State (TxOp SubmitOp) (TxRes SubmitRes) PyException RoutedState
    AgentExecutionSubmission AgentExecutionAccepted

/-- The gateways as a transition system. -/
abbrev gatewaysMachine (sha256 : String → String) (sha256Head : String → ℕ)
    (policy : CapacityPolicy) :
    Machine GatewaysState (Pool.Label GatewayChoice AgentExecutionSubmission RoutingEvent) :=
  (gateways sha256 sha256Head policy).machine gatewaysStart

/-- **A request of a gateway**, as one to the database and one to the notes. -/
theorem gateways_handler {sha256 : String → String} {sha256Head : String → ℕ}
    {policy : CapacityPolicy} {pid : ℕ} {c : GatewayChoice} {op : TxOp SubmitOp}
    {s s' : RoutedState} {r : Except PyException (TxRes SubmitRes op)}
    (h : (gateways sha256 sha256Head policy).handler pid c op s = some (r, s')) :
    gatewayEngine.handler pid (s.2.serve sha256Head c op) op s.1 = some (r, s'.1)
      ∧ s'.2 = s.2.note sha256Head pid c op := by
  obtain ⟨⟨r', g⟩, hn, hx⟩ := Option.map_eq_some_iff.mp h
  obtain ⟨rfl, rfl⟩ := Prod.mk.inj hx
  exact ⟨hn, rfl⟩

/-- **What the gateways do, submitters do.** -/
theorem reach_submitters {sha256 : String → String} {sha256Head : String → ℕ}
    {policy : CapacityPolicy} {w : GatewaysState}
    (h : (gatewaysMachine sha256 sha256Head policy).Reach Machine.anyStep w) :
    (submittersMachine sha256 policy).Reach Machine.anyStep w.forget := by
  refine Pool.reach_forget (P := submitters sha256 policy) rfl (fun _ _ => rfl) ?_ ?_
    (fun _ hs => hs) h
  · intro pid c op s r s' hh
    exact ⟨_, (gateways_handler hh).1⟩
  · intro e s s' he
    cases e with
    | status u =>
      obtain rfl := Option.some.inj he
      exact .inr ⟨u, rfl⟩
    | deploy db =>
      obtain rfl := Option.some.inj he
      exact .inl rfl

/-! ## What the payload hash covers -/

/-- The document that `_payload_hash` hashes. -/
def payloadFields (sub : AgentExecutionSubmission) : List (String × Json) :=
  [("tenant_id", .str sub.tenantId.str),
   ("application_id", .str sub.applicationId.str),
   ("environment", .str sub.environment.str),
   ("session_id", .str sub.sessionId),
   ("subject_id", Json.ofOption sub.subjectId),
   ("memory_policy_version", .str sub.memoryPolicyVersion),
   ("messages", .arr (sub.messages.map Json.ofDict)),
   ("channel_context", (sub.channelContext.map Json.ofDict).getD .null)]

theorem payloadHash_eq_fields (sha256 : String → String) (sub : AgentExecutionSubmission) :
    payloadHash sha256 sub = sha256 (Json.dumps (.obj (payloadFields sub))) := rfl

theorem payloadFields_wellFormed (sub : AgentExecutionSubmission) :
    (Json.obj (payloadFields sub)).WellFormed := by
  have hoption : ∀ o : Option String, (Json.ofOption o).WellFormed := by
    intro o
    cases o <;> trivial
  have hdict : ∀ d : List (String × String), (Json.ofDict d).WellFormed := by
    intro d
    refine Json.wellFormedFields_iff.mpr (fun f hf => ?_)
    obtain ⟨x, -, rfl⟩ := List.mem_map.mp hf
    trivial
  have hmessages : ∀ ms : List ChatMessage, Json.WellFormedItems (ms.map Json.ofDict) := by
    intro ms
    induction ms with
    | nil => trivial
    | cons d ms ih => exact ⟨hdict d, ih⟩
  have hcontext : ((sub.channelContext.map Json.ofDict).getD Json.null).WellFormed := by
    cases sub.channelContext with
    | none => trivial
    | some d => exact hdict d
  exact ⟨trivial, trivial, trivial, trivial, hoption _, trivial, hmessages _, hcontext, trivial⟩

/-- **Submissions with one payload hash go to one Session.** -/
theorem sessionId_eq_of_payloadHash {sha256 : String → String} (hsha : Function.Injective sha256)
    {sub sub' : AgentExecutionSubmission} (h : payloadHash sha256 sub = payloadHash sha256 sub') :
    sub.sessionId = sub'.sessionId := by
  rw [payloadHash_eq_fields, payloadHash_eq_fields] at h
  have hcanon := Json.canon_eq_of_dumps (payloadFields_wellFormed sub)
    (payloadFields_wellFormed sub') (hsha h)
  have hfield : ("session_id", Json.str sub.sessionId)
      ∈ Json.canonFields (payloadFields sub) := by
    simp [payloadFields, Json.canonFields, Json.canon]
  have hfield' := Json.mem_canonFields_of_canon hcanon hfield
  simpa [payloadFields, Json.canonFields, Json.canon] using hfield'

/-- **A row is sealed**: it has the Session of a submission with its payload
hash. -/
def Sealed (sha256 : String → String) (row : AgentExecution) : Prop :=
  ∃ sub, row.payloadHash = payloadHash sha256 sub ∧ row.sessionId = sub.sessionId

/-- The write leaves sealed rows. -/
def GatewayWrite.Seals (sha256 : String → String) : GatewayWrite → Prop
  | .insertExecution row => Sealed sha256 row
  | _ => True

/-- The request leaves sealed rows and does not consult a resolver. -/
def SealsOnly (sha256 : String → String) : TxOp SubmitOp → Prop
  | .run (.insertExecution row) => Sealed sha256 row
  | .run (.resolveDeployment ..) => False
  | _ => True

/-- All rows are sealed, and remain so when the open transactions commit. -/
def AllSealed (sha256 : String → String) (s : GatewayState) : Prop :=
  (∀ q ws, s.pending q = some ws → ∀ w ∈ ws, w.Seals sha256)
    ∧ ∀ row ∈ s.committed.executions, Sealed sha256 row

/-! ## What a submission writes and answers -/

section Submission

variable {sha256 : String → String} {sha256Head : String → ℕ} {policy : CapacityPolicy}
  {sub : AgentExecutionSubmission}

/-- An answer that reports a release and the Session of the submission. -/
def Reports (sub : AgentExecutionSubmission) (releaseId : Uuid) :
    Except PyException AgentExecutionAccepted → Prop
  | .ok accepted => accepted.releaseId = releaseId ∧ accepted.sessionId = sub.sessionId
  | .error _ => True

/-- A program that writes sealed rows and ends with `Q`, whatever it is
answered. -/
abbrev AsksSealed {α : Type} (sha256 : String → String) (p : SubmitProg α)
    (Q : Except PyException α → Prop) : Prop :=
  p.Asks (SealsOnly sha256) (fun _ _ => True) Q

/-- A duplicate is reported with the release that was resolved. -/
theorem asks_deduplicated (m hash : String) (releaseId : Uuid) :
    AsksSealed sha256 (deduplicatedSubmission sub m hash releaseId)
      (fun r => ∀ accepted, r = .ok (some accepted) → Reports sub releaseId (.ok accepted)) := by
  refine (Prog.asks_perform (Q := fun _ => True) trivial (fun _ _ => trivial)).bind
    (fun found _ => ?_) (fun e _ accepted h => nomatch h)
  cases found with
  | none => exact fun accepted h => nomatch h
  | some x =>
    obtain ⟨id, storedHash⟩ := x
    by_cases hne : storedHash ≠ hash
    · simp only [hne, ne_eq, not_false_eq_true, if_true]
      exact fun accepted h => nomatch h
    · simp only [hne, if_false]
      intro accepted h
      obtain rfl := Option.some.inj (Except.ok.inj h)
      exact ⟨rfl, rfl⟩

/-- What follows a look for a duplicate: it is answered, or the program goes
on. -/
theorem asks_unless_duplicate (m hash : String) (releaseId : Uuid)
    {p : SubmitProg AgentExecutionAccepted} (hp : AsksSealed sha256 p (Reports sub releaseId)) :
    AsksSealed sha256 (do
      match ← deduplicatedSubmission sub m hash releaseId with
      | some duplicate => return duplicate
      | none => p) (Reports sub releaseId) := by
  refine (asks_deduplicated m hash releaseId).bind (fun found hfound => ?_) (fun _ _ => trivial)
  cases found with
  | none => exact hp
  | some accepted => exact hfound accepted rfl

theorem asks_insertRequested (m : String) (releaseId : Uuid)
    (classification : Option DataClassification) :
    AsksSealed sha256 (insertRequested sub m (payloadHash sha256 sub) releaseId classification)
      (Reports sub releaseId) := by
  refine (Prog.asks_perform (Q := fun _ => True) trivial (fun _ _ => trivial)).bind
    (fun id _ => ?_) (fun _ _ => trivial)
  have hsealed : SealsOnly sha256 (.run (.insertExecution
      (newExecution sub releaseId id m (payloadHash sha256 sub)))) := ⟨sub, rfl, rfl⟩
  refine (Prog.asks_perform (Q := fun _ => True) hsealed (fun _ _ => trivial)).bind
    (fun inserted _ => ?_) (fun _ _ => trivial)
  cases inserted with
  | none => exact asks_unless_duplicate m _ releaseId trivial
  | some executionId =>
    refine (Prog.asks_perform (Q := fun _ => True) trivial (fun _ _ => trivial)).bind
      (fun outboxId _ => ?_) (fun _ _ => trivial)
    exact (Prog.asks_perform (Q := fun _ => True) trivial (fun _ _ => trivial)).bind
      (fun _ _ => ⟨rfl, rfl⟩) (fun _ _ => trivial)

theorem asks_submitTransaction (m : String) (releaseId : Uuid) :
    AsksSealed sha256 (submitTransaction policy sub m (payloadHash sha256 sub) releaseId)
      (Reports sub releaseId) := by
  refine (Prog.asks_perform (Q := fun _ => True) trivial (fun _ _ => trivial)).bind
    (fun release _ => ?_) (fun _ _ => trivial)
  cases release with
  | none => trivial
  | some classification =>
    refine asks_unless_duplicate m _ releaseId ?_
    refine (Prog.asks_perform (Q := fun _ => True) trivial (fun _ _ => trivial)).bind
      (fun (admission : Admission) _ => ?_) (fun _ _ => trivial)
    split
    · exact asks_unless_duplicate m _ releaseId trivial
    · refine Prog.Asks.bind (Q := fun _ => True) ?_
        (fun _ _ => asks_insertRequested m releaseId classification) (fun _ _ => trivial)
      unfold createSessionIfMissing
      split
      · trivial
      · exact Prog.asks_perform trivial (fun _ _ => trivial)

/-- **A submission reports the release it resolved**, and writes sealed rows
only. -/
theorem asks_resolved (releaseId : Uuid) :
    AsksSealed sha256 (do
      let messageId ← submissionMessageId sub
      Engine.transaction
        (submitTransaction policy sub messageId (payloadHash sha256 sub) releaseId))
      (Reports sub releaseId) := by
  have hdrawn : AsksSealed sha256 submissionMessageId.drawn (fun _ => True) :=
    (Prog.asks_perform (Q := fun _ => True) trivial (fun _ _ => trivial)).bind
      (fun _ _ => trivial) (fun _ _ => trivial)
  have hmessage : AsksSealed sha256 (submissionMessageId sub) (fun _ => True) := by
    unfold submissionMessageId
    split
    · split
      · exact hdrawn
      · trivial
    · exact hdrawn
  refine hmessage.bind (fun m _ => ?_) (fun _ _ => trivial)
  refine (Prog.asks_perform (Q := fun _ => True) trivial (fun _ _ => trivial)).bind
    (fun _ _ => ?_) (fun _ _ => trivial)
  refine Prog.Asks.bind (Q := Reports sub releaseId) ?_ (fun accepted haccepted => ?_)
    (fun _ _ => trivial)
  · refine (asks_submitTransaction m releaseId).tryCatch (fun _ h => h) (fun e _ => ?_)
    exact (Prog.asks_perform (Q := fun _ => True) trivial (fun _ _ => trivial)).bind
      (fun _ _ => trivial) (fun _ _ => trivial)
  · exact (Prog.asks_perform (Q := fun _ => True) trivial (fun _ _ => trivial)).bind
      (fun _ _ => haccepted) (fun _ _ => trivial)

end Submission

/-! ## What the gateways keep -/

section Gateways

variable {sha256 : String → String} {sha256Head : String → ℕ} {policy : CapacityPolicy}

/-- A status update leaves sealed rows sealed. -/
theorem AllSealed.status {s : GatewayState} (h : AllSealed sha256 s) (u : StatusUpdate) :
    AllSealed sha256 { s with committed := setExecutionStatus u s.committed } := by
  refine ⟨h.1, fun row hrow => ?_⟩
  obtain ⟨row', hrow', rfl⟩ := List.mem_map.mp hrow
  obtain ⟨sub, hhash, hsession⟩ := h.2 row' hrow'
  refine ⟨sub, ?_, ?_⟩
  · split <;> exact hhash
  · split <;> exact hsession

/-- A call that is abandoned leaves sealed rows. -/
theorem AllSealed.close {s : GatewayState} (h : AllSealed sha256 s) (pid : ℕ) :
    AllSealed sha256 (Engine.close s pid) := by
  refine ⟨fun q ws hq => ?_, h.2⟩
  by_cases hqp : q = pid
  · subst hqp
    simp [Engine.close] at hq
  · simp only [Engine.close, Function.update_of_ne hqp] at hq
    exact h.1 q ws hq

/-- **A request leaves sealed rows**, when the row it inserts is. -/
theorem AllSealed.request {s s' : GatewayState} {pid : ℕ} {c : Choice GatewayAnswer}
    {op : TxOp SubmitOp} {r : Except PyException (TxRes SubmitRes op)} (h : AllSealed sha256 s)
    (hop : ∀ row, op = .run (.insertExecution row) → Sealed sha256 row)
    (hh : gatewayEngine.handler pid c op s = some (r, s')) : AllSealed sha256 s' := by
  refine Engine.writes_of_handler (F := fun w => w.Seals sha256)
    (C := fun db => ∀ row ∈ db.executions, Sealed sha256 row) ?_ ?_ h.1 h.2 hh
  · intro o ho a fr db x w hw
    cases o with
    | insertExecution row =>
      simp only [gatewayEngine, SubmitOp.exec] at hw
      split at hw
      · cases hw
      · split at hw
        · cases hw
        · obtain rfl := List.mem_singleton.mp hw
          exact hop row ho
    | insertOutbox rec =>
      simp only [gatewayEngine, SubmitOp.exec] at hw
      split at hw
      · obtain rfl := List.mem_singleton.mp hw
        trivial
      · cases hw
    | tryAdmit policy =>
      simp only [gatewayEngine, SubmitOp.exec] at hw
      split at hw
      · cases hw
      · obtain rfl := List.mem_singleton.mp hw
        trivial
    | insertSession tenantId applicationId sessionId =>
      simp only [gatewayEngine, SubmitOp.exec, sessionWrites] at hw
      split at hw
      · cases hw
      · obtain rfl := List.mem_singleton.mp hw
        trivial
    | resolveDeployment t app env n => cases hw
    | uuid7 => cases hw
    | selectRelease t r => cases hw
    | selectExecution t n => cases hw
  · intro w db hw hdb
    cases w with
    | insertExecution row =>
      intro e he
      rcases List.mem_append.mp he with he | he
      · exact hdb e he
      · obtain rfl := List.mem_singleton.mp he
        exact hw
    | insertOutbox rec => exact hdb
    | setBucket b => exact hdb
    | insertSession row => exact hdb

/-- **A statement of a gateway** leaves sealed rows and the resolvers as they
are. -/
theorem gateways_statement {pid : ℕ} {c : GatewayChoice} {op : TxOp SubmitOp}
    (hop : SealsOnly sha256 op) {s s' : RoutedState} {r : Except PyException (TxRes SubmitRes op)}
    (h : AllSealed sha256 s.1)
    (hh : (gateways sha256 sha256Head policy).handler pid c op s = some (r, s')) :
    AllSealed sha256 s'.1 ∧ s'.2 = s.2 := by
  obtain ⟨hn, hnote⟩ := gateways_handler hh
  refine ⟨h.request (fun row hrow => ?_) hn, ?_⟩
  · subst hrow
    exact hop
  · rw [hnote]
    unfold Routing.note
    split
    · exact hop.elim
    · rfl

/-- **The resolver of a gateway** answers from what it sees, and that is noted. -/
theorem gateways_resolve {pid : ℕ} {c : GatewayChoice} {t app : Uuid} {env : Environment}
    {n : String} {s s' : RoutedState}
    {r : Except PyException (TxRes SubmitRes (.run (.resolveDeployment t app env n)))}
    (h : AllSealed sha256 s.1)
    (hh : (gateways sha256 sha256Head policy).handler pid c
      (.run (.resolveDeployment t app env n)) s = some (r, s')) :
    AllSealed sha256 s'.1 ∧ r = .ok ((s.2.seen c).release sha256Head ⟨t, app, env⟩ n)
      ∧ s'.2.consulted = Function.update s.2.consulted pid (some (s.2.seen c)) := by
  obtain ⟨hn, hnote⟩ := gateways_handler hh
  refine ⟨h.request (fun row hrow => by cases hrow) hn, ?_, by rw [hnote]; rfl⟩
  rcases gatewayEngine.run_cases hn with ⟨hc, -⟩ | ⟨a, hc, -, hr, -⟩
  · cases hc
  · cases hc
    exact hr

/-- **What a reply reports**: the Session of the submission, and the release the
resolver of its call sent it to. -/
def Reported (sha256Head : String → ℕ) (pid : ℕ) (sub : AgentExecutionSubmission)
    (r : Except PyException AgentExecutionAccepted) (s : RoutedState) : Prop :=
  ∀ accepted, r = .ok accepted → accepted.sessionId = sub.sessionId
    ∧ ∃ seen, s.2.consulted pid = some seen ∧ seen.Sends sha256Head sub accepted.releaseId

/-- **A submission reports what it was sent to**, whatever happens between its
requests. -/
theorem safe_reported (pid : ℕ) (s : RoutedState) (sub : AgentExecutionSubmission) :
    (submit sha256 policy sub).Safe
      (Prog.Handled ((gateways sha256 sha256Head policy).handler pid) (fun _ _ _ => True))
      (fun a b => AllSealed sha256 b.1 ∧ b.2.consulted pid = a.2.consulted pid)
      (fun a b => AllSealed sha256 b.1
        ∧ ∀ q, q ≠ pid → b.2.consulted q = a.2.consulted q)
      (Reported sha256Head pid sub) s := by
  refine (Prog.safe_bind _ _ _ _).mpr ((Prog.safe_perform _ _ _).mpr ?_)
  rintro s₁ ⟨h₁, -⟩ r s₂ ⟨c, -, hh⟩
  obtain ⟨h₂, rfl, hnoted⟩ := gateways_resolve h₁ hh
  refine ⟨⟨h₂, fun q hq => ?_⟩, ?_⟩
  · rw [hnoted, Function.update_of_ne hq]
  have hseen : s₂.2.consulted pid = some (s₁.2.seen c) := by
    rw [hnoted, Function.update_self]
  cases hrel : (s₁.2.seen c).release sha256Head
      ⟨sub.tenantId, sub.applicationId, sub.environment⟩ sub.sessionId with
  | none => exact fun accepted hacc => nomatch hacc
  | some releaseId =>
    -- What follows reports `releaseId` and leaves the note as it is.
    refine Prog.Safe.mono (Prog.Asks.safe_keeping
      (F := fun a => AllSealed sha256 a.1 ∧ a.2.consulted pid = some (s₁.2.seen c))
      (fun a b ha hab => ⟨hab.1, hab.2.trans ha.2⟩) ?_ (asks_resolved releaseId)
      ⟨h₂, hseen⟩) (fun r b hb accepted hacc => ?_)
    · rintro op hop a r b ⟨ha, hcons⟩ ⟨c', -, hh'⟩
      obtain ⟨hb, hsame⟩ := gateways_statement hop ha hh'
      exact ⟨⟨hb, fun q _ => by rw [hsame]⟩, ⟨hb, by rw [hsame, hcons]⟩, trivial⟩
    · subst hacc
      obtain ⟨⟨hrelease, hsession⟩, -, hnote⟩ := hb
      exact ⟨hsession, _, hnote, hrelease ▸ Consultation.sends_of_release hrel⟩

/-- **The gateways are disciplined**: rows stay sealed, and nobody touches the
notes on another call. -/
def gatewaysDiscipline (sha256 : String → String) (sha256Head : String → ℕ)
    (policy : CapacityPolicy) :
    Pool.Discipline (gateways sha256 sha256Head policy) gatewaysStart (fun _ _ => True)
      (fun _ _ _ _ => True) (fun _ _ => True) where
  inv s := AllSealed sha256 s.1
  unused _ _ := True
  rely pid a b := b.2.consulted pid = a.2.consulted pid
  post pid := Reported sha256Head pid
  rely_refl _ _ := rfl
  rely_trans _ _ _ _ h h' := h'.trans h
  unused_rely _ _ _ _ _ := trivial
  start_ok := by
    rintro ⟨s, g⟩ ⟨now, rfl⟩
    refine ⟨⟨fun q ws hq => ?_, fun row hrow => ?_⟩, fun _ => trivial⟩
    · cases hq
    · cases hrow
  safe_body pid s call _ _ _ := safe_reported pid s call
  safe_crash _ _ h := ⟨h.close _, fun _ _ => rfl⟩
  safe_env e s s' _ h he := by
    cases e with
    | status u =>
      obtain rfl := Option.some.inj he
      exact ⟨h.status u, fun _ => rfl⟩
    | deploy db =>
      obtain rfl := Option.some.inj he
      exact ⟨h, fun _ => rfl⟩

end Gateways

/-! ## The duplicate and its row -/

/-- The row of a message of the submission. -/
def AgentExecutionSubmission.Owns (sub : AgentExecutionSubmission) (m : String)
    (row : AgentExecution) : Prop :=
  row.tenantId = sub.tenantId ∧ row.messageId = m

/-- **The answer reports the execution, the release and the Session of a row.** -/
def AgentExecutionAccepted.ReportsRow (accepted : AgentExecutionAccepted)
    (row : AgentExecution) : Prop :=
  accepted.executionId = row.id ∧ accepted.releaseId = row.releaseId
    ∧ accepted.sessionId = row.sessionId

/-- **A duplicate reports the original execution exactly when the resolver still
sends its Session to the original release.** In every run, the message of a
duplicate has one row; the answer names its execution and its Session, and its
release exactly if the route the resolver went by when the duplicate arrived
sends the Session there. -/
theorem duplicate_reports_iff {sha256 : String → String} (hsha : Function.Injective sha256)
    (sha256Head : String → ℕ) (policy : CapacityPolicy) {w : GatewaysState}
    (h : (gatewaysMachine sha256 sha256Head policy).Reach Machine.anyStep w) :
    ∀ x ∈ w.replies, ∀ accepted, x.outcome = .ok accepted → accepted.deduplicated = true →
      ∃ m, x.call.UsesMessage m ∧ ∃ row ∈ w.shared.1.committed.executions, x.call.Owns m row
        ∧ (∀ row' ∈ w.shared.1.committed.executions, x.call.Owns m row' → row' = row)
        ∧ accepted.executionId = row.id ∧ accepted.sessionId = row.sessionId
        ∧ ∃ seen, x.state.2.consulted x.pid = some seen
          ∧ (accepted.ReportsRow row ↔ seen.Sends sha256Head x.call row.releaseId) := by
  intro x hx accepted hout _
  have hgood := Pool.reach_safe (gatewaysDiscipline sha256 sha256Head policy)
    (h.mono (fun _ l _ => by
      cases l with
      | act pid c => exact fun _ _ _ _ => trivial
      | _ => trivial))
  have hsealed : AllSealed sha256 w.shared.1 := hgood.inv
  obtain ⟨hsession, seen, hseen, hsends⟩ := hgood.replies x hx accepted hout
  have hreach : (submittersMachine sha256 policy).Reach (servesWell (fun _ => False)) w.forget :=
    (reach_submitters h).mono (fun _ l _ => by
      cases l with
      | act pid c => exact fun _ _ _ _ hfalse => hfalse.elim
      | _ => trivial)
  obtain ⟨hunique, -, hreplies⟩ := submit_idempotent sha256 policy (fun _ => False) hreach
  obtain ⟨m, hm, hstored, -⟩ := hreplies x.forget (List.mem_map_of_mem hx)
  obtain ⟨row, hrow, htenant, hmessage, hid, hhash⟩ := hstored accepted hout
  obtain ⟨sub, hsub, hrowsession⟩ := hsealed.2 row hrow
  have hsame : accepted.sessionId = row.sessionId := by
    rw [hsession, hrowsession]
    exact sessionId_eq_of_payloadHash hsha (hhash.symm.trans hsub)
  refine ⟨m, hm, row, hrow, ⟨htenant, hmessage⟩, fun row' hrow' hown => ?_, hid.symm, hsame, seen,
    hseen, fun hreports => hreports.2.1 ▸ hsends, fun hsends' =>
      ⟨hid.symm, hsends.unique hsends', hsame⟩⟩
  exact List.inj_on_of_nodup_map hunique hrow' hrow
    (Prod.ext (hown.1.trans htenant.symm) (hown.2.trans hmessage.symm))

/-! ### A deployment between the original and the duplicate -/

/-- The first deployment of an application, as it is approved. -/
def firstDeployment : AgentDeployment where
  tenantId := 1
  id := 70
  applicationId := 10
  environment := .production
  releaseId := 7
  previousReleaseId := none
  previousDeploymentId := none
  previousDeploymentVersion := none
  rolloutPercentage := 100
  status := .ACTIVE
  initiator := "dev"
  approver := some "ops"
  version := 2
  activatedAt := some 1
  haltedAt := none

/-- The deployment of the next release. -/
def secondDeployment : AgentDeployment :=
  { firstDeployment with
    id := 80
    releaseId := 8
    previousReleaseId := some 7
    previousDeploymentId := some 70
    previousDeploymentVersion := some 2
    version := 4
    activatedAt := some 2 }

/-- The tables with these deployments. -/
def deployedTables (rows : List AgentDeployment) : DeploymentDb where
  applications := [(1, 10)]
  releases := [⟨1, 7, 10⟩, ⟨1, 8, 10⟩]
  suites := []
  deployments := rows
  runs := []

/-- The gateways before their first submission. -/
def gatewaysIdle : GatewaysState :=
  Pool.idle (Engine.quiet (ExecutionDb.empty 0) (),
    ⟨deployedTables [firstDeployment], fun _ _ => none, fun _ => none⟩)

theorem gatewaysIdle_init (sha256 : String → String) (sha256Head : String → ℕ)
    (policy : CapacityPolicy) : (gatewaysMachine sha256 sha256Head policy).init gatewaysIdle :=
  ⟨_, ⟨0, rfl⟩, rfl⟩

/-- A step of the submitters, at the first gateway. -/
def atGateway : SubmittersLabel →
    Pool.Label GatewayChoice AgentExecutionSubmission RoutingEvent
  | .spawn sub => .spawn sub
  | .act pid c => .act pid ⟨0, c⟩
  | .crash pid => .crash pid
  | .env u => .env (.status u)

/-- A message is accepted and, after `events`, submitted again. -/
def redeliveredRun (events : List RoutingEvent) :
    List (Pool.Label GatewayChoice AgentExecutionSubmission RoutingEvent) :=
  (acceptedRun 0 greeting 100).map atGateway ++ events.map Pool.Label.env
    ++ ((acceptedRun 1 greeting 200).take 6).map atGateway

/-- What the duplicate is answered, with the deployment moved in between and
without. -/
theorem duplicate_runs :
    ((gatewaysMachine id String.length {}).run gatewaysIdle
      (redeliveredRun [.deploy (deployedTables [firstDeployment, secondDeployment])])).map
        (fun w => w.replies.any (fun x => x.call.messageId = some "m" ∧ x.call.tenantId = 1
          ∧ x.outcome.toOption = some ⟨100, 8, "s", true⟩)
          && w.shared.1.committed.executions.all (fun row => row.releaseId = 7)) = some true
    ∧ ((gatewaysMachine id String.length {}).run gatewaysIdle (redeliveredRun [])).map
        (fun w => w.replies.any (fun x => x.outcome.toOption = some ⟨100, 7, "s", true⟩)
          && w.shared.1.committed.executions.all (fun row => row.releaseId = 7)) = some true := by
  decide +kernel

/-- The reply with an answer. -/
theorem outcome_of_toOption {α : Type} {r : Except PyException α} {a : α}
    (h : r.toOption = some a) : r = .ok a := by
  cases r with
  | ok b => exact congrArg _ (Option.some.inj h)
  | error e => cases h

/-- **A duplicate reports another release.** The message is entered for release
7; release 8 is deployed; the redelivered message is answered with the first
execution and release 8. -/
theorem duplicate_reports_moved_release :
    ¬ ∀ w, (gatewaysMachine id String.length {}).Reach Machine.anyStep w →
      ∀ x ∈ w.replies, ∀ accepted, x.outcome = .ok accepted → accepted.deduplicated = true →
        ∀ m, x.call.messageId = some m → ∃ row ∈ w.shared.1.committed.executions,
          x.call.Owns m row ∧ accepted.ReportsRow row := by
  intro hall
  have hrun := duplicate_runs.1
  obtain ⟨w, hw, htest⟩ := Machine.reach_of_run (gatewaysIdle_init id String.length {}) hrun
  obtain ⟨hany, hrows⟩ := (Bool.and_eq_true _ _).mp htest
  obtain ⟨x, hx, hxt⟩ := List.any_eq_true.mp hany
  obtain ⟨hm, -, hout⟩ := of_decide_eq_true hxt
  obtain ⟨row, hrow, -, -, hrelease, -⟩ := hall w hw x hx _ (outcome_of_toOption hout) rfl "m" hm
  have hseven : row.releaseId = 7 := of_decide_eq_true (List.all_eq_true.mp hrows row hrow)
  rw [hseven] at hrelease
  exact absurd hrelease (by decide)

/-- A duplicate that arrives while the first deployment is active reports the
row. -/
theorem duplicate_reports_same_release :
    ∃ w, (gatewaysMachine id String.length {}).Reach Machine.anyStep w
      ∧ ∃ x ∈ w.replies, x.outcome = .ok ⟨100, 7, "s", true⟩
        ∧ ∃ row ∈ w.shared.1.committed.executions, row.releaseId = 7 ∧ row.sessionId = "s"
          ∧ ∃ seen, x.state.2.consulted x.pid = some seen
            ∧ seen.Sends String.length x.call row.releaseId := by
  have hrun := duplicate_runs.2
  obtain ⟨w, hw, htest⟩ := Machine.reach_of_run (gatewaysIdle_init id String.length {}) hrun
  obtain ⟨hany, hrows⟩ := (Bool.and_eq_true _ _).mp htest
  obtain ⟨x, hx, hxt⟩ := List.any_eq_true.mp hany
  have hout := outcome_of_toOption (of_decide_eq_true hxt)
  obtain ⟨m, -, row, hrow, -, -, hid, hsession, seen, hseen, hiff⟩ :=
    duplicate_reports_iff Function.injective_id String.length {} hw x hx _ hout rfl
  have hseven : row.releaseId = 7 := of_decide_eq_true (List.all_eq_true.mp hrows row hrow)
  exact ⟨w, hw, x, hx, hout, row, hrow, hseven, hsession.symm, seen, hseen,
    hiff.mp ⟨hid, hseven.symm, hsession⟩⟩
