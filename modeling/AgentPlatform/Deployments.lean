import AgentPlatform.ExecutionStore
import AgentPlatform.CommitHistory

/-!
# Agent Deployments

The embedding of the deployment endpoints of `admin_api/agents.py`, of the
evaluation endpoints of `admin_api/evals.py` and of the resolver of
`agent_worker.py`, over the tables of `0009_agent_deployments.py` and
`0029_eval_suites.sql`. A deployment routes the Sessions of an application in an
environment to a release. Outside PRODUCTION it is active at once; in PRODUCTION
it is requested, and a second person activates it. A canary observation that
misses its thresholds halts it.

No active row is ever retired: the *current* deployment is the active row with
the latest `activated_at`, and that is the time its transaction started.

The ledger of idempotency keys is answered by the environment: `replay_for` may
find a response, or raise, at any time.
-/

/-! ## Evidence -/

/-- A value in the evidence of an evaluation. -/
inductive EvidenceValue where
  | bool (b : Bool)
  | number (q : ℚ)
  | other
  deriving DecidableEq

/-- `_number`. A boolean is not a number. -/
def EvidenceValue.number? : EvidenceValue → Option ℚ
  | .number q => some q
  | _ => none

/-- A mapping by names. -/
abbrev EvidenceMap := List (String × EvidenceValue)

/-- The number under a name. -/
def EvidenceMap.numberAt (m : EvidenceMap) (name : String) : Option ℚ :=
  (m.lookup name).bind EvidenceValue.number?

/-- `_threshold`. -/
def threshold (thresholds : EvidenceMap) (name : String) : ℚ :=
  match thresholds.numberAt name with
  | some q => if 0 ≤ q then q else 0
  | none => 0

/-- `evidence`: its two mappings, where they are mappings. -/
structure EvalEvidence where
  assertions : Option EvidenceMap
  metrics : Option EvidenceMap

/-- `eval_run.status`. -/
inductive EvalStatus where
  | PASSED
  | FAILED
  deriving DecidableEq

/-- What `evaluate_evidence` returns. -/
structure EvalResults where
  failedAssertions : List String
  failedThresholds : List String
  quality : Option ℚ
  latencyMs : Option ℚ
  costMicros : Option ℚ
  status : EvalStatus
  deriving DecidableEq

/-- **`evaluate_evidence`.** A missing number and a missing assertion fail. -/
def evaluateEvidence (thresholds : EvidenceMap) (deterministicAssertions : List String)
    (evidence : EvalEvidence) : EvalResults :=
  let assertionValues := evidence.assertions.getD []
  let metricValues := evidence.metrics.getD []
  let failedAssertions := deterministicAssertions.filter
    (fun assertion => assertionValues.lookup assertion ≠ some (.bool true))
  let quality := metricValues.numberAt "quality"
  let latencyMs := metricValues.numberAt "latency_ms"
  let costMicros := metricValues.numberAt "cost_micros"
  let thresholdFailures :=
    (if quality.all (fun q => q < threshold thresholds "quality_min") then ["QUALITY_THRESHOLD"]
      else [])
    ++ (if latencyMs.all (fun q => threshold thresholds "latency_ms_max" < q)
      then ["LATENCY_THRESHOLD"] else [])
    ++ (if costMicros.all (fun q => threshold thresholds "cost_micros_max" < q)
      then ["COST_THRESHOLD"] else [])
  { failedAssertions := failedAssertions
    failedThresholds := thresholdFailures
    quality := quality
    latencyMs := latencyMs
    costMicros := costMicros
    status := if failedAssertions.isEmpty ∧ thresholdFailures.isEmpty then .PASSED else .FAILED }

/-! ## The tables -/

/-- `agent_deployment.status`. -/
inductive DeploymentStatus where
  | PENDING_APPROVAL
  | ACTIVE
  | HALTED
  deriving DecidableEq

/-- A row of `tenant.agent_deployment`. -/
structure AgentDeployment where
  tenantId : Uuid
  id : Uuid
  applicationId : Uuid
  environment : Environment
  releaseId : Uuid
  previousReleaseId : Option Uuid
  previousDeploymentId : Option Uuid
  previousDeploymentVersion : Option ℤ
  rolloutPercentage : ℤ
  status : DeploymentStatus
  initiator : String
  approver : Option String
  version : ℤ
  activatedAt : Option Timestamp
  haltedAt : Option Timestamp
  deriving DecidableEq

/-- The primary key. -/
def AgentDeployment.key (d : AgentDeployment) : Uuid × Uuid := (d.tenantId, d.id)

/-- What a deployment routes: an application of a tenant in an environment. -/
structure DeploymentScope where
  tenantId : Uuid
  applicationId : Uuid
  environment : Environment
  deriving DecidableEq

/-- The scope of a deployment. -/
def AgentDeployment.scope (d : AgentDeployment) : DeploymentScope :=
  ⟨d.tenantId, d.applicationId, d.environment⟩

/-- `ORDER BY activated_at, id`: a null comes last. -/
def AgentDeployment.precedes (d d' : AgentDeployment) : Bool :=
  match d.activatedAt, d'.activatedAt with
  | some t, some t' => t < t' || (t = t' && d.id < d'.id)
  | some _, none => true
  | none, some _ => false
  | none, none => d.id < d'.id

/-- A row of `tenant.eval_suite`. -/
structure EvalSuite where
  tenantId : Uuid
  id : Uuid
  applicationId : Uuid
  thresholds : EvidenceMap
  deterministicAssertions : List String

/-- A row of `tenant.eval_run`. -/
structure EvalRun where
  tenantId : Uuid
  id : Uuid
  applicationId : Uuid
  suiteId : Uuid
  releaseId : Uuid
  environment : Environment
  results : EvalResults
  status : EvalStatus
  createdBy : String
  createdAt : Timestamp

/-- `ORDER BY created_at, id`. -/
def EvalRun.precedes (r r' : EvalRun) : Bool :=
  r.createdAt < r'.createdAt || (r.createdAt = r'.createdAt && r.id < r'.id)

/-- The last of some rows in an order: `ORDER BY … DESC LIMIT 1`. -/
def lastBy {α : Type} (precedes : α → α → Bool) : List α → Option α
  | [] => none
  | a :: rows =>
    match lastBy precedes rows with
    | none => some a
    | some b => if precedes a b then some b else some a

/-- A row of `tenant.agent_release`: its tenant, its identifier and its
application. -/
structure AgentReleaseKey where
  tenantId : Uuid
  id : Uuid
  applicationId : Uuid
  deriving DecidableEq

/-- The tables. Applications, releases and suites are never removed. -/
structure DeploymentDb where
  applications : List (Uuid × Uuid)
  releases : List AgentReleaseKey
  suites : List EvalSuite
  deployments : List AgentDeployment
  runs : List EvalRun

namespace DeploymentDb

/-- The active rows of a scope. -/
def active (db : DeploymentDb) (scope : DeploymentScope) : List AgentDeployment :=
  db.deployments.filter (fun d => d.scope = scope ∧ d.status = .ACTIVE)

/-- **The current deployment**: `WHERE status='ACTIVE' ORDER BY activated_at DESC,
id DESC LIMIT 1`. -/
def current (db : DeploymentDb) (scope : DeploymentScope) : Option AgentDeployment :=
  lastBy AgentDeployment.precedes (db.active scope)

/-- The row of a deployment of an application. -/
def find (db : DeploymentDb) (tenantId id applicationId : Uuid) : Option AgentDeployment :=
  db.deployments.find? (fun d => d.key = (tenantId, id) ∧ d.applicationId = applicationId)

/-- The PRODUCTION runs of a release. -/
def productionRuns (db : DeploymentDb) (tenantId applicationId releaseId : Uuid) : List EvalRun :=
  db.runs.filter (fun r => r.tenantId = tenantId ∧ r.applicationId = applicationId
    ∧ r.releaseId = releaseId ∧ r.environment = .production)

/-- The most recent PRODUCTION run of a release. -/
def latestRun (db : DeploymentDb) (tenantId applicationId releaseId : Uuid) : Option EvalRun :=
  lastBy EvalRun.precedes (db.productionRuns tenantId applicationId releaseId)

/-- The suite of an application. -/
def suite (db : DeploymentDb) (tenantId id applicationId : Uuid) : Option EvalSuite :=
  db.suites.find? (fun s => s.tenantId = tenantId ∧ s.id = id ∧ s.applicationId = applicationId)

/-- The thresholds of a run of PRODUCTION that has passed, joined with its suite. -/
def passedRun (db : DeploymentDb) (tenantId runId applicationId releaseId : Uuid) :
    Option EvidenceMap :=
  ((db.productionRuns tenantId applicationId releaseId).find?
    (fun r => r.id = runId ∧ r.status = .PASSED)).bind (fun r =>
      (db.suites.find? (fun s => s.tenantId = r.tenantId ∧ s.id = r.suiteId)).map
        EvalSuite.thresholds)

end DeploymentDb

/-! ## Statements -/

/-- What a handler returns: a deployment, an evaluation run, or the decision on a
canary. -/
inductive DeploymentReply where
  | deployment (row : AgentDeployment)
  | run (row : EvalRun)
  | observation (halted : Bool)

/-- What the environment supplies to a statement: the clock of the server, and
what the ledger of idempotency keys answers. -/
structure DeploymentSupply where
  clock : Timestamp
  replayed : Except PyException (Option DeploymentReply) := .ok none

/-- The statements of the handlers. -/
inductive DeploymentOp where
  | setTenant (tenantId : Uuid)
  | replayFor
  | lockApplication (tenantId applicationId : Uuid)
  | selectRelease (release : AgentReleaseKey)
  | lockCurrent (scope : DeploymentScope)
  | lockDeployment (tenantId id applicationId : Uuid)
  | selectDeployment (tenantId id applicationId : Uuid)
  | latestRun (tenantId applicationId releaseId : Uuid)
  | insertDeployment (row : AgentDeployment)
  | activate (tenantId id applicationId : Uuid) (approver : String) (now : Timestamp)
  | halt (tenantId id : Uuid) (now : Timestamp)
  | selectSuite (tenantId id applicationId : Uuid)
  | insertRun (row : EvalRun)
  | passedRun (tenantId runId applicationId releaseId : Uuid)
  | insertObservation
  | insertAudit
  | remember

/-- What a statement answers. `set_config` is the first statement of a
transaction; it answers what `now()` is there. -/
abbrev DeploymentRes : DeploymentOp → Type
  | .setTenant _ => Timestamp
  | .replayFor => Option DeploymentReply
  | .lockApplication .. => Bool
  | .selectRelease _ => Bool
  | .lockCurrent _ => Option AgentDeployment
  | .lockDeployment .. => Option AgentDeployment
  | .selectDeployment .. => Option AgentDeployment
  | .latestRun .. => Option EvalRun
  | .insertDeployment _ => AgentDeployment
  | .activate .. => Option AgentDeployment
  | .selectSuite .. => Option EvalSuite
  | .insertRun _ => EvalRun
  | .passedRun .. => Option EvidenceMap
  | _ => Unit

/-- The row writes. -/
inductive DeploymentWrite where
  | insert (row : AgentDeployment)
  | activate (tenantId id : Uuid) (approver : String) (now : Timestamp)
  | halt (tenantId id : Uuid) (now : Timestamp)
  | run (row : EvalRun)

/-- The rows that can be locked. -/
inductive DeploymentRow where
  | application (tenantId applicationId : Uuid)
  | deployment (tenantId id : Uuid)
  | run (tenantId id : Uuid)
  deriving DecidableEq

/-- `SET status='ACTIVE',approver=$4,version=version+1,activated_at=now()`. -/
def AgentDeployment.activated (d : AgentDeployment) (approver : String) (now : Timestamp) :
    AgentDeployment :=
  { d with
    status := .ACTIVE
    approver := some approver
    version := d.version + 1
    activatedAt := some now }

/-- `SET status='HALTED',halted_at=now(),…,version=version+1`. -/
def AgentDeployment.halted (d : AgentDeployment) (now : Timestamp) : AgentDeployment :=
  { d with
    status := .HALTED
    haltedAt := some now
    version := d.version + 1 }

/-- Change the row under a key. -/
def DeploymentDb.update (db : DeploymentDb) (key : Uuid × Uuid)
    (f : AgentDeployment → AgentDeployment) : DeploymentDb :=
  { db with deployments := db.deployments.map (fun d => if d.key = key then f d else d) }

namespace DeploymentWrite

/-- The effect of a write. -/
def apply : DeploymentWrite → DeploymentDb → DeploymentDb
  | .insert row, db => { db with deployments := db.deployments ++ [row] }
  | .activate t id approver now, db => db.update (t, id) (fun d => d.activated approver now)
  | .halt t id now, db => db.update (t, id) (fun d => d.halted now)
  | .run row, db => { db with runs := db.runs ++ [row] }

/-- The row a write touches. -/
def key : DeploymentWrite → DeploymentRow
  | .insert row => .deployment row.tenantId row.id
  | .activate t id _ _ => .deployment t id
  | .halt t id _ => .deployment t id
  | .run row => .run row.tenantId row.id

end DeploymentWrite

/-- The `CHECK` constraints of a deployment. -/
def AgentDeployment.WellFormed (d : AgentDeployment) : Prop :=
  (1 ≤ d.rolloutPercentage ∧ d.rolloutPercentage ≤ 100)
    ∧ ((d.previousDeploymentId = none ∧ d.previousDeploymentVersion = none)
      ∨ (d.previousDeploymentId.isSome ∧ d.previousDeploymentVersion.any (fun v => 1 ≤ v)))

instance (d : AgentDeployment) : Decidable d.WellFormed := by
  unfold AgentDeployment.WellFormed
  infer_instance

namespace DeploymentOp

/-- The rows a statement locks. -/
def locks (db : DeploymentDb) : DeploymentOp → List DeploymentRow
  | .lockApplication t a => if (t, a) ∈ db.applications then [.application t a] else []
  | .lockCurrent scope =>
    match db.current scope with
    | some d => [.deployment d.tenantId d.id]
    | none => []
  | .lockDeployment t id a => if (db.find t id a).isSome then [.deployment t id] else []
  | .insertDeployment row => [.deployment row.tenantId row.id]
  | .activate t id _ _ _ => [.deployment t id]
  | .halt t id _ => [.deployment t id]
  | .insertRun row => [.run row.tenantId row.id]
  | _ => []

/-- The answer of a statement, its writes and the clock after it. -/
def exec (supply : DeploymentSupply) (db : DeploymentDb) (clock : Timestamp) :
    (op : DeploymentOp) → Except PyException (DeploymentRes op) × List DeploymentWrite × Timestamp
  | .setTenant _ => (.ok (max clock supply.clock), [], max clock supply.clock)
  | .replayFor => (supply.replayed, [], clock)
  | .lockApplication t a => (.ok (decide ((t, a) ∈ db.applications)), [], clock)
  | .selectRelease release => (.ok (decide (release ∈ db.releases)), [], clock)
  | .lockCurrent scope => (.ok (db.current scope), [], clock)
  | .lockDeployment t id a => (.ok (db.find t id a), [], clock)
  | .selectDeployment t id a => (.ok (db.find t id a), [], clock)
  | .latestRun t a release => (.ok (db.latestRun t a release), [], clock)
  | .insertDeployment row =>
    if row.WellFormed ∧ row.key ∉ db.deployments.map AgentDeployment.key
    then (.ok row, [.insert row], clock)
    else (.error .sqlAlchemy, [], clock)
  | .activate t id a approver now =>
    match db.find t id a with
    | some d => (.ok (some (d.activated approver now)), [.activate t id approver now], clock)
    | none => (.ok none, [], clock)
  | .halt t id now => (.ok (), [.halt t id now], clock)
  | .selectSuite t id a => (.ok (db.suite t id a), [], clock)
  | .insertRun row =>
    if (row.tenantId, row.id) ∈ db.runs.map (fun r => (r.tenantId, r.id))
    then (.error .sqlAlchemy, [], clock)
    else (.ok row, [.run row], clock)
  | .passedRun t run a release => (.ok (db.passedRun t run a release), [], clock)
  | .insertObservation => (.ok (), [], clock)
  | .insertAudit => (.ok (), [], clock)
  | .remember => (.ok (), [], clock)

end DeploymentOp

/-- **The tables under transactions.** The external state is the clock of the
server. -/
def deploymentEngine : Engine DeploymentOp DeploymentRes PyException DeploymentSupply DeploymentDb
    DeploymentWrite DeploymentRow Timestamp where
  apply := DeploymentWrite.apply
  key := DeploymentWrite.key
  locks op _ db _ := op.locks db
  exec supply op _ db clock := op.exec supply db clock
  dbError := .sqlAlchemy

/-- A program of the handlers. -/
abbrev DeploymentProg := Prog (TxOp DeploymentOp) (TxRes DeploymentRes) PyException

/-- A statement of the handlers. -/
abbrev deployment (op : DeploymentOp) : DeploymentProg (DeploymentRes op) := Engine.stmt op

/-! ## The handlers -/

/-- `tenant_transaction`: the body is told what `now()` is. -/
def tenantTransaction {α : Type} (tenantId : Uuid) (body : Timestamp → DeploymentProg α) :
    DeploymentProg α :=
  Engine.transaction (do
    let now ← deployment (.setTenant tenantId)
    body now)

/-- `replay_for` before the work of a handler, `insert_audit` and `remember` after
it. -/
def recorded (work : DeploymentProg DeploymentReply) : DeploymentProg DeploymentReply := do
  let replayed ← deployment .replayFor
  match replayed with
  | some reply => return reply
  | none => do
    let reply ← work
    let _ ← deployment .insertAudit
    let _ ← deployment .remember
    return reply

/-- `AgentDeploymentCreate`. -/
structure AgentDeploymentCreate where
  environment : Environment
  releaseId : Uuid
  rolloutPercentage : ℤ

/-- The status of a new deployment. -/
def initialStatus (environment : Environment) : DeploymentStatus :=
  if environment = .production then .PENDING_APPROVAL else .ACTIVE

/-- The row `create_deployment` inserts, after the checks on the current
deployment. -/
def newDeployment (tenantId applicationId deploymentId : Uuid) (payload : AgentDeploymentCreate)
    (expectedVersion : Option ℤ) (subject : String) (now : Timestamp)
    (current : Option AgentDeployment) : Except PyException AgentDeployment :=
  let pending := payload.environment = .production
  if current.isSome ∧ ¬ pending ∧ expectedVersion = none then
    .error (httpException 428 "If-Match is required to replace an active Deployment")
  else if ¬ pending ∧ current.any (fun c => expectedVersion ≠ some c.version) then
    .error (httpException 412 "Agent Deployment pointer changed")
  else if current.any (fun c => c.releaseId = payload.releaseId) then
    .error (httpException 409 "Agent Release is already active")
  else if current = none ∧ payload.rolloutPercentage ≠ 100 then
    .error (httpException 409 "initial Deployment must route 100 percent of Sessions")
  else .ok
    { tenantId := tenantId
      id := deploymentId
      applicationId := applicationId
      environment := payload.environment
      releaseId := payload.releaseId
      previousReleaseId := current.map AgentDeployment.releaseId
      previousDeploymentId := current.map AgentDeployment.id
      previousDeploymentVersion := current.map AgentDeployment.version
      rolloutPercentage := payload.rolloutPercentage
      status := initialStatus payload.environment
      initiator := subject
      approver := none
      version := current.elim 1 (fun c => c.version + 1)
      activatedAt := if initialStatus payload.environment = .ACTIVE then some now else none
      haltedAt := none }

/-- **`create_deployment`.** -/
def createDeployment (tenantId applicationId deploymentId : Uuid) (payload : AgentDeploymentCreate)
    (expectedVersion : Option ℤ) (subject : String) : DeploymentProg DeploymentReply :=
  tenantTransaction tenantId (fun now => recorded (do
    let application ← deployment (.lockApplication tenantId applicationId)
    if application then do
      let release ← deployment (.selectRelease ⟨tenantId, payload.releaseId, applicationId⟩)
      if release then do
        let current ← deployment (.lockCurrent ⟨tenantId, applicationId, payload.environment⟩)
        match newDeployment tenantId applicationId deploymentId payload expectedVersion subject now
            current with
        | .error e => throw e
        | .ok row => do
          let row ← deployment (.insertDeployment row)
          return .deployment row
      else throw (httpException 404 "Agent Release not found")
    else throw (httpException 404 "Agent application not found")))

/-- **`production_eval_gate_error`**, on the run it finds. -/
def productionEvalGateError : Option EvalRun → Option String
  | none => some "EVAL_RUN_REQUIRED"
  | some run => if run.status = .PASSED then none else some "EVAL_RUN_FAILED"

/-- The checks of `approve_deployment` on the row of the request. -/
def approvalError (request : AgentDeployment) (expectedVersion : ℤ) (subject : String) :
    Option PyException :=
  if request.version ≠ expectedVersion then
    some (httpException 412 "Agent Deployment version changed")
  else if request.status ≠ .PENDING_APPROVAL then
    some (httpException 409 "Agent Deployment is not pending approval")
  else if request.initiator = subject then
    some (httpException 409 "Deployment initiator cannot approve it")
  else none

/-- The pointer to the current deployment. -/
def pointer (current : Option AgentDeployment) : Option Uuid × Option ℤ :=
  (current.map AgentDeployment.id, current.map AgentDeployment.version)

/-- The pointer a request was made on. -/
def AgentDeployment.expectedPointer (d : AgentDeployment) : Option Uuid × Option ℤ :=
  (d.previousDeploymentId, d.previousDeploymentVersion)

/-- **`approve_deployment`.** -/
def approveDeployment (tenantId applicationId deploymentId : Uuid) (expectedVersion : ℤ)
    (subject : String) : DeploymentProg DeploymentReply :=
  tenantTransaction tenantId (fun now => recorded (do
    let application ← deployment (.lockApplication tenantId applicationId)
    if application then do
      let request ← deployment (.lockDeployment tenantId deploymentId applicationId)
      match request with
      | none => throw (httpException 404 "Agent Deployment not found")
      | some request =>
        match approvalError request expectedVersion subject with
        | some e => throw e
        | none => do
          let run ← deployment (.latestRun tenantId applicationId request.releaseId)
          match productionEvalGateError run with
          | some gateError => throw (httpException 409 gateError)
          | none => do
            let current ← deployment (.lockCurrent ⟨tenantId, applicationId, .production⟩)
            if pointer current = request.expectedPointer then do
              let row ← deployment (.activate tenantId deploymentId applicationId subject now)
              match row with
              | none => throw (.other "AssertionError")
              | some row => return .deployment row
            else throw (httpException 412 "Agent Deployment pointer changed")
    else throw (httpException 404 "Agent application not found")))

/-- The row `rollback_deployment` inserts, on top of the current deployment. -/
def rollbackTo (tenantId applicationId rollbackId releaseId : Uuid) (environment : Environment)
    (subject : String) (now : Timestamp) (current : AgentDeployment) : AgentDeployment where
  tenantId := tenantId
  id := rollbackId
  applicationId := applicationId
  environment := environment
  releaseId := releaseId
  previousReleaseId := some current.releaseId
  previousDeploymentId := some current.id
  previousDeploymentVersion := some current.version
  rolloutPercentage := 100
  status := initialStatus environment
  initiator := subject
  approver := none
  version := current.version + 1
  activatedAt := if initialStatus environment = .ACTIVE then some now else none
  haltedAt := none

/-- **`rollback_deployment`.** -/
def rollbackDeployment (tenantId applicationId deploymentId rollbackId releaseId : Uuid)
    (expectedVersion : ℤ) (subject : String) : DeploymentProg DeploymentReply :=
  tenantTransaction tenantId (fun now => recorded (do
    let application ← deployment (.lockApplication tenantId applicationId)
    if application then do
      let source ← deployment (.selectDeployment tenantId deploymentId applicationId)
      match source with
      | none => throw (httpException 404 "Agent Deployment not found")
      | some source => do
        let release ← deployment (.selectRelease ⟨tenantId, releaseId, applicationId⟩)
        if release then do
          let current ← deployment (.lockCurrent ⟨tenantId, applicationId, source.environment⟩)
          match current with
          | none => throw (httpException 412 "Agent Deployment pointer changed")
          | some current =>
            if current.id = deploymentId ∧ current.version = expectedVersion then do
              let row ← deployment (.insertDeployment (rollbackTo tenantId applicationId rollbackId
                releaseId source.environment subject now current))
              return .deployment row
            else throw (httpException 412 "Agent Deployment pointer changed")
        else throw (httpException 404 "Agent Release not found")
    else throw (httpException 404 "Agent application not found")))

/-- `EvalRunCreate`. -/
structure EvalRunCreate where
  suiteId : Uuid
  releaseId : Uuid
  environment : Environment
  evidence : EvalEvidence

/-- **`create_eval_run`.** -/
def createEvalRun (tenantId applicationId runId : Uuid) (payload : EvalRunCreate)
    (subject : String) : DeploymentProg DeploymentReply :=
  tenantTransaction tenantId (fun now => recorded (do
    let suite ← deployment (.selectSuite tenantId payload.suiteId applicationId)
    match suite with
    | none => throw (httpException 404 "Eval Suite not found")
    | some suite => do
      let release ← deployment (.selectRelease ⟨tenantId, payload.releaseId, applicationId⟩)
      if release then do
        let results := evaluateEvidence suite.thresholds suite.deterministicAssertions
          payload.evidence
        let row ← deployment (.insertRun
          { tenantId := tenantId
            id := runId
            applicationId := applicationId
            suiteId := payload.suiteId
            releaseId := payload.releaseId
            environment := payload.environment
            results := results
            status := results.status
            createdBy := subject
            createdAt := now })
        return .run row
      else throw (httpException 404 "Agent Release not found")))

/-- **`record_eval_canary_observation`.** -/
def recordEvalCanaryObservation (tenantId applicationId deploymentId evalRunId : Uuid)
    (metrics : EvidenceMap) : DeploymentProg DeploymentReply :=
  tenantTransaction tenantId (fun now => recorded (do
    let row ← deployment (.lockDeployment tenantId deploymentId applicationId)
    match row.filter (fun d => d.environment = .production) with
    | none => throw (httpException 404 "Agent Deployment not found")
    | some d =>
      if d.status = .ACTIVE then do
        let run ← deployment (.passedRun tenantId evalRunId applicationId d.releaseId)
        match run with
        | none => throw (httpException 409 "EVAL_RUN_REQUIRED")
        | some thresholds => do
          let result := evaluateEvidence thresholds [] ⟨none, some metrics⟩
          if result.status = .FAILED then do
            let _ ← deployment (.halt tenantId deploymentId now)
            let _ ← deployment .insertObservation
            return .observation true
          else do
            let _ ← deployment .insertObservation
            return .observation false
      else throw (httpException 409 "Agent Deployment is not active")))

/-- The calls of the handlers. -/
inductive DeploymentCall where
  | create (tenantId applicationId deploymentId : Uuid) (payload : AgentDeploymentCreate)
      (expectedVersion : Option ℤ) (subject : String)
  | approve (tenantId applicationId deploymentId : Uuid) (expectedVersion : ℤ) (subject : String)
  | rollback (tenantId applicationId deploymentId rollbackId releaseId : Uuid)
      (expectedVersion : ℤ) (subject : String)
  | evalRun (tenantId applicationId runId : Uuid) (payload : EvalRunCreate) (subject : String)
  | observe (tenantId applicationId deploymentId evalRunId : Uuid) (metrics : EvidenceMap)

/-- The program of a call. -/
def DeploymentCall.program : DeploymentCall → DeploymentProg DeploymentReply
  | .create t a id payload expected subject => createDeployment t a id payload expected subject
  | .approve t a id expected subject => approveDeployment t a id expected subject
  | .rollback t a id rollbackId release expected subject =>
    rollbackDeployment t a id rollbackId release expected subject
  | .evalRun t a runId payload subject => createEvalRun t a runId payload subject
  | .observe t a id evalRunId metrics => recordEvalCanaryObservation t a id evalRunId metrics

/-- The tables and the open transactions. -/
abbrev DeploymentState := TxState DeploymentDb DeploymentWrite DeploymentRow Timestamp

/-- The tables to begin with: nothing is deployed. -/
def deploymentStart (s : DeploymentState) : Prop :=
  ∃ db clock, db.deployments = [] ∧ db.runs = [] ∧ s = Engine.quiet db clock

/-- **Any number of requests at once.** -/
def deploymentPool := deploymentEngine.pool DeploymentCall.program

/-- A state of the requests. -/
abbrev DeploymentsState := Pool.State (TxOp DeploymentOp) (TxRes DeploymentRes) PyException
  DeploymentState DeploymentCall DeploymentReply

/-! ## The resolver -/

/-- `DeploymentRoute`. -/
structure DeploymentRoute where
  releaseId : Uuid
  previousReleaseId : Option Uuid
  rolloutPercentage : ℤ
  deriving DecidableEq

/-- The route of a deployment. -/
def AgentDeployment.route (d : AgentDeployment) : DeploymentRoute :=
  ⟨d.releaseId, d.previousReleaseId, d.rolloutPercentage⟩

/-- **`_session_rollout_bucket`**; `sha256Head` is the number in the first eight
bytes of a digest. -/
def sessionRolloutBucket (sha256Head : String → ℕ) (sessionId : String) : ℤ :=
  (sha256Head sessionId % 100 : ℕ)

/-- The release a route sends a Session to. -/
def DeploymentRoute.releaseFor (sha256Head : String → ℕ) (route : DeploymentRoute)
    (sessionId : String) : Uuid :=
  match route.previousReleaseId with
  | some previous =>
    if route.rolloutPercentage < 100
        ∧ route.rolloutPercentage ≤ sessionRolloutBucket sha256Head sessionId then previous
    else route.releaseId
  | none => route.releaseId

/-- The routes a `DatabaseDeploymentRouteResolver` remembers. -/
abbrev RouteCache := DeploymentScope → Option DeploymentRoute

/-- The route a resolver goes by: that of the current deployment, or the
remembered one when the database cannot be read. -/
def resolvedRoute (read : Except PyException DeploymentDb) (routes : RouteCache)
    (scope : DeploymentScope) : Except PyException (Option DeploymentRoute) :=
  match read with
  | .ok db => .ok ((db.current scope).map AgentDeployment.route)
  | .error .sqlAlchemy => .ok (routes scope)
  | .error e => .error e

/-- **`DatabaseDeploymentRouteResolver.resolve`**, on what it reads; a route that
was read is remembered. -/
def resolveDeployment (sha256Head : String → ℕ) (read : Except PyException DeploymentDb)
    (routes : RouteCache) (scope : DeploymentScope) (sessionId : String) :
    Except PyException (Option Uuid) × RouteCache :=
  match resolvedRoute read routes scope with
  | .error e => (.error e, routes)
  | .ok none => (.ok none, routes)
  | .ok (some route) =>
    (.ok (some (route.releaseFor sha256Head sessionId)),
      Function.update routes scope (some route))
