import Mathlib.Data.List.Sort
import AgentPlatform.ExecutionStore
import AgentPlatform.Observed

/-!
# Signed policy bundles

The embedding of `policy_bundles.py` and of the signing half of `governance.py`
over the table of `0012_policy_bundles.sql`. A version of a tenant's governance
rules is created as a draft, signed together with its number, and activated:
as the stable version, or as a canary that gets a share of the decisions.

A statement at READ COMMITTED that updates several rows does so one by one: it
looks for them in a snapshot taken when it starts, and then, row by row, waits
for the row's lock and checks its condition again on what it finds. The update
that retires the other versions is therefore a scan followed by one `retire`
for each version found.
-/

/-- The value of a classification. -/
def DataClassification.value : DataClassification → String
  | .PUBLIC => "PUBLIC"
  | .INTERNAL => "INTERNAL"
  | .CONFIDENTIAL => "CONFIDENTIAL"
  | .RESTRICTED => "RESTRICTED"

/-- `MaskPattern`. -/
structure MaskPattern where
  name : String
  regex : String
  replacement : String
  deriving DecidableEq

/-- `MaskPattern.model_dump`. -/
def MaskPattern.modelDump (p : MaskPattern) : Json :=
  .obj [("name", .str p.name), ("regex", .str p.regex), ("replacement", .str p.replacement)]

/-- `GovernanceRules`. -/
structure GovernanceRules where
  maxOutboundClassification : DataClassification := .CONFIDENTIAL
  allowRestrictedToPrivateEndpoints : Bool := false
  requireApprovalAbove : Option DataClassification := none
  secretDetectionEnabled : Bool := true
  maskPatterns : List MaskPattern := []
  deriving DecidableEq

/-- `GovernanceRules.model_dump(mode="json")`. -/
def GovernanceRules.modelDump (rules : GovernanceRules) : Json :=
  .obj
    [("max_outbound_classification", .str rules.maxOutboundClassification.value),
     ("allow_restricted_to_private_endpoints", .bool rules.allowRestrictedToPrivateEndpoints),
     ("require_approval_above",
       Json.ofOption (rules.requireApprovalAbove.map DataClassification.value)),
     ("secret_detection_enabled", .bool rules.secretDetectionEnabled),
     ("mask_patterns", .arr (rules.maskPatterns.map MaskPattern.modelDump))]

/-- **`compile_bundle`.** -/
def compileBundle (rules : GovernanceRules) (version : ℤ) : Json :=
  .obj [("version", .num (Int.repr version)), ("governance", rules.modelDump)]

/-- The primitives of bundle signing and canary assignment: `sha256Head` is the
number in the first eight bytes of a digest. -/
structure PolicyHashing where
  hmacSha256 : String → String → String
  sha256Head : String → ℕ

/-- **`sign_bundle`.** -/
def signBundle (P : PolicyHashing) (rules : GovernanceRules) (version : ℤ) (signingKey : String) :
    String :=
  P.hmacSha256 signingKey (Json.dumps (.obj
    [("rules", rules.modelDump),
     ("version", .num (Int.repr version)),
     ("bundle", compileBundle rules version)]))

/-- **`verify_bundle`.** -/
def verifyBundle (P : PolicyHashing) (rules : GovernanceRules) (version : ℤ)
    (signature signingKey : String) : Bool :=
  signBundle P rules version signingKey = signature

/-- **`canary_bucket`.** -/
def canaryBucket (P : PolicyHashing) (decisionKey : String) : ℕ := P.sha256Head decisionKey % 100

/-! ## The table -/

/-- `policy_bundle.status`. -/
inductive BundleStatus where
  | DRAFT
  | ACTIVE
  | CANARY
  | RETIRED
  deriving DecidableEq

/-- A row of `tenant.policy_bundle`. -/
structure PolicyBundle where
  tenantId : Uuid
  version : ℤ
  rules : GovernanceRules
  signature : String
  status : BundleStatus
  canaryPercentage : ℤ
  createdBy : String
  activatedAt : Option Timestamp
  deriving DecidableEq

/-- The policy bundles of all tenants. -/
structure PolicyDb where
  bundles : List PolicyBundle

namespace PolicyDb

/-- The row of a version. -/
def find (db : PolicyDb) (tenantId : Uuid) (version : ℤ) : Option PolicyBundle :=
  db.bundles.find? (fun b => b.tenantId = tenantId ∧ b.version = version)

/-- The versions of a tenant, in the order of their creation. -/
def versions (db : PolicyDb) (tenantId : Uuid) : List ℤ :=
  (db.bundles.filter (fun b => b.tenantId = tenantId)).map PolicyBundle.version

/-- `coalesce(max(version),0)+1`. -/
def nextVersion (db : PolicyDb) (tenantId : Uuid) : ℤ := ((db.versions tenantId).max?).getD 0 + 1

/-- The versions in one of these statuses, other than one. -/
def others (db : PolicyDb) (tenantId : Uuid) (version : ℤ) (statuses : List BundleStatus) :
    List ℤ :=
  (db.bundles.filter (fun b => b.tenantId = tenantId ∧ b.status ∈ statuses
    ∧ b.version ≠ version)).map PolicyBundle.version

end PolicyDb

/-- The statuses an activation retires: a canary takes the place of the previous
canary, a stable version that of everything. -/
def BundleStatus.retires : BundleStatus → List BundleStatus
  | .CANARY => [.CANARY]
  | _ => [.ACTIVE, .CANARY]

/-! ## Statements -/

/-- The statements of the service. -/
inductive PolicyOp where
  | advisoryLock (tenantId : Uuid)
  | nextVersion (tenantId : Uuid)
  | insertBundle (row : PolicyBundle)
  | selectBundle (tenantId : Uuid) (version : ℤ)
  | scanOthers (tenantId : Uuid) (version : ℤ) (status : BundleStatus)
  | retire (tenantId : Uuid) (version : ℤ) (status : BundleStatus) (other : ℤ)
  | promote (tenantId : Uuid) (version : ℤ) (status : BundleStatus) (canaryPercentage : ℤ)

/-- What a statement answers. -/
abbrev PolicyRes : PolicyOp → Type
  | .nextVersion _ => ℤ
  | .insertBundle _ => PolicyBundle
  | .selectBundle .. => Option PolicyBundle
  | .scanOthers .. => List ℤ
  | .promote .. => Option PolicyBundle
  | _ => Unit

/-- The row writes. -/
inductive PolicyWrite where
  | insert (row : PolicyBundle)
  | setStatus (tenantId : Uuid) (version : ℤ) (status : BundleStatus) (canaryPercentage : ℤ)
      (activatedAt : Option Timestamp)

/-- The rows that can be locked, and the advisory lock of a tenant. -/
inductive PolicyRow where
  | bundle (tenantId : Uuid) (version : ℤ)
  | advisory (tenantId : Uuid)
  deriving DecidableEq

/-- The row with another status. The time of activation is kept where none is
given. -/
def PolicyBundle.withStatus (b : PolicyBundle) (status : BundleStatus) (canaryPercentage : ℤ)
    (activatedAt : Option Timestamp) : PolicyBundle :=
  { b with
    status := status
    canaryPercentage := canaryPercentage
    activatedAt := activatedAt.or b.activatedAt }

namespace PolicyWrite

/-- The effect of a write. -/
def apply : PolicyWrite → PolicyDb → PolicyDb
  | .insert row, db => ⟨db.bundles ++ [row]⟩
  | .setStatus t v status pct activatedAt, db =>
    ⟨db.bundles.map (fun b =>
      if b.tenantId = t ∧ b.version = v then b.withStatus status pct activatedAt else b)⟩

/-- The row a write touches. -/
def key : PolicyWrite → PolicyRow
  | .insert row => .bundle row.tenantId row.version
  | .setStatus t v _ _ _ => .bundle t v

end PolicyWrite

namespace PolicyOp

/-- The rows a statement locks. -/
def locks (db : PolicyDb) : PolicyOp → List PolicyRow
  | .advisoryLock t => [.advisory t]
  | .insertBundle row => [.bundle row.tenantId row.version]
  | .selectBundle t v => if (db.find t v).isSome then [.bundle t v] else []
  | .retire t _ _ other => if (db.find t other).isSome then [.bundle t other] else []
  | .promote t v _ _ => if (db.find t v).isSome then [.bundle t v] else []
  | _ => []

/-- The answer of a statement and its writes; `now` is the time its transaction
started. -/
def exec (now : Timestamp) :
    (op : PolicyOp) → PolicyDb → Except PyException (PolicyRes op) × List PolicyWrite
  | .advisoryLock _, _ => (.ok (), [])
  | .nextVersion t, db => (.ok (db.nextVersion t), [])
  | .insertBundle row, db =>
    if row.version < 1 ∨ (db.find row.tenantId row.version).isSome then (.error .sqlAlchemy, [])
    else (.ok row, [.insert row])
  | .selectBundle t v, db => (.ok (db.find t v), [])
  | .scanOthers t v status, db => (.ok (db.others t v status.retires), [])
  | .retire t v status other, db =>
    (.ok (),
      if other ∈ db.others t v status.retires then [.setStatus t other .RETIRED 0 none] else [])
  | .promote t v status pct, db =>
    match db.find t v with
    | none => (.ok none, [])
    | some b =>
      if pct < 0 ∨ 100 < pct then (.error .sqlAlchemy, [])
      else (.ok (some (b.withStatus status pct (some now))), [.setStatus t v status pct (some now)])

end PolicyOp

/-- **The table under transactions.** -/
def policyEngine :
    Engine PolicyOp PolicyRes PyException Timestamp PolicyDb PolicyWrite PolicyRow Unit where
  apply := PolicyWrite.apply
  key := PolicyWrite.key
  locks op _ db _ := op.locks db
  exec now op _ db x := ((op.exec now db).1, (op.exec now db).2, x)
  dbError := .sqlAlchemy

/-- A program of the service. -/
abbrev PolicyProg := Prog (TxOp PolicyOp) (TxRes PolicyRes) PyException

/-- A statement of the service. -/
abbrev policy (op : PolicyOp) : PolicyProg (PolicyRes op) := Engine.stmt op

/-! ## The service -/

/-- A `PolicyBundleService`: its primitives and its signing key. -/
structure PolicyBundleService where
  hashing : PolicyHashing
  signingKey : String

namespace PolicyBundleService

variable (S : PolicyBundleService)

/-- **`_next_version`.** The number is read in a transaction of its own, which
ends with the advisory lock. -/
def nextVersion (tenantId : Uuid) : PolicyProg ℤ :=
  Engine.transaction (do
    let _ ← policy (.advisoryLock tenantId)
    policy (.nextVersion tenantId))

/-- The row of a new version. -/
def draft (tenantId : Uuid) (rules : GovernanceRules) (actor : String) (version : ℤ) :
    PolicyBundle where
  tenantId := tenantId
  version := version
  rules := rules
  signature := signBundle S.hashing rules version S.signingKey
  status := .DRAFT
  canaryPercentage := 0
  createdBy := actor
  activatedAt := none

/-- **`create_version`.** -/
def createVersion (tenantId : Uuid) (rules : GovernanceRules) (actor : String) :
    PolicyProg PolicyBundle := do
  let version ← nextVersion tenantId
  Engine.transaction (policy (.insertBundle (S.draft tenantId rules actor version)))

/-- The status an activation gives. -/
def activationStatus (canaryPercentage : ℤ) : BundleStatus :=
  if 0 < canaryPercentage then .CANARY else .ACTIVE

/-- **`activate`.** -/
def activate (tenantId : Uuid) (version canaryPercentage : ℤ) : PolicyProg PolicyBundle :=
  Engine.transaction (do
    let row ← policy (.selectBundle tenantId version)
    match row with
    | none => throw (.other "POLICY_BUNDLE_NOT_FOUND")
    | some row =>
      if verifyBundle S.hashing row.rules version row.signature S.signingKey then do
        let status := activationStatus canaryPercentage
        let others ← policy (.scanOthers tenantId version status)
        let _ ← Prog.forEach (fun other => policy (.retire tenantId version status other)) others
        let updated ← policy (.promote tenantId version status canaryPercentage)
        match updated with
        | none => throw (.other "AssertionError")
        | some updated => return updated
      else throw (.other "POLICY_BUNDLE_SIGNATURE_INVALID"))

/-- `ResolvedPolicy`. -/
structure ResolvedPolicy where
  version : ℤ
  rules : GovernanceRules
  canary : Bool
  deriving DecidableEq

/-- The rows that govern a tenant, in the order of their version. -/
def governing (db : PolicyDb) (tenantId : Uuid) : List PolicyBundle :=
  (db.bundles.filter (fun b => b.tenantId = tenantId
    ∧ (b.status = .ACTIVE ∨ b.status = .CANARY))).insertionSort (fun a b => a.version ≤ b.version)

/-- **`resolve`**, on the rows it reads. -/
def resolve (tenantId : Uuid) (decisionKey : String) (db : PolicyDb) :
    Except PyException (Option ResolvedPolicy) :=
  let rows := governing db tenantId
  let stable := rows.find? (fun b => b.status = .ACTIVE)
  let canary := rows.find? (fun b => b.status = .CANARY)
  if rows.isEmpty then .ok none
  else if canary.isSome ∧ stable.isNone then .error (.other "POLICY_BUNDLE_UNAVAILABLE")
  else
    let canaryUsed := canary.any (fun c => 0 < c.canaryPercentage
      && (canaryBucket S.hashing decisionKey : ℤ) < c.canaryPercentage)
    match if canaryUsed then canary else stable with
    | none => .ok none
    | some chosen =>
      if verifyBundle S.hashing chosen.rules chosen.version chosen.signature S.signingKey then
        .ok (some ⟨chosen.version, chosen.rules, canaryUsed⟩)
      else .error (.other "POLICY_BUNDLE_SIGNATURE_INVALID")

end PolicyBundleService

/-- The calls of the service that write. -/
inductive PolicyCall where
  | create (tenantId : Uuid) (rules : GovernanceRules) (actor : String)
  | activate (tenantId : Uuid) (version canaryPercentage : ℤ)

/-- The program of a call. -/
def PolicyCall.program (S : PolicyBundleService) : PolicyCall → PolicyProg PolicyBundle
  | .create tenantId rules actor => S.createVersion tenantId rules actor
  | .activate tenantId version canaryPercentage => S.activate tenantId version canaryPercentage

/-- The table and its open transactions. -/
abbrev PolicyState := TxState PolicyDb PolicyWrite PolicyRow Unit

/-! ## Rows and locks -/

/-- What a row lock protects. -/
abbrev PolicyLook : PolicyRow → Type
  | .bundle .. => List PolicyBundle
  | .advisory _ => Unit

/-- The rows of the table. -/
def policyLook : (k : PolicyRow) → PolicyDb → PolicyLook k
  | .bundle t v, db => db.bundles.filter (fun b => b.tenantId = t ∧ b.version = v)
  | .advisory _, _ => ()

@[simp] theorem PolicyBundle.withStatus_tenantId (b : PolicyBundle) (status : BundleStatus)
    (pct : ℤ)
    (at_ : Option Timestamp) : (b.withStatus status pct at_).tenantId = b.tenantId := rfl

@[simp] theorem PolicyBundle.withStatus_version (b : PolicyBundle) (status : BundleStatus) (pct : ℤ)
    (at_ : Option Timestamp) : (b.withStatus status pct at_).version = b.version := rfl

@[simp] theorem PolicyBundle.withStatus_status (b : PolicyBundle) (status : BundleStatus) (pct : ℤ)
    (at_ : Option Timestamp) : (b.withStatus status pct at_).status = status := rfl

/-- A change of status moves no row to another version. -/
theorem policyLook_setStatus (db : PolicyDb) (t : Uuid) (v : ℤ) (status : BundleStatus) (pct : ℤ)
    (at_ : Option Timestamp) (t' : Uuid) (v' : ℤ) :
    policyLook (.bundle t' v') (PolicyWrite.apply (.setStatus t v status pct at_) db)
      = (policyLook (.bundle t' v') db).map (fun b =>
        if b.tenantId = t ∧ b.version = v then b.withStatus status pct at_ else b) := by
  show (db.bundles.map _).filter _ = (db.bundles.filter _).map _
  rw [List.filter_map]
  congr 1
  refine List.filter_congr (fun b _ => ?_)
  by_cases h : b.tenantId = t ∧ b.version = v <;> simp [h]

/-- **The statements of the service lock what they write.** -/
theorem policyEngine_lawful : policyEngine.Lawful policyLook where
  look_apply w db k hk := by
    cases k with
    | advisory t => rfl
    | bundle t v =>
      cases w with
      | insert row =>
        have hne : ¬ (row.tenantId = t ∧ row.version = v) := by
          rintro ⟨rfl, rfl⟩
          exact hk rfl
        show (db.bundles ++ [row]).filter _ = db.bundles.filter _
        rw [List.filter_append]
        simp [hne]
      | setStatus t' v' status pct at_ =>
        refine (policyLook_setStatus db t' v' status pct at_ t v).trans ?_
        refine (List.map_congr_left (fun b hb => ?_)).trans (List.map_id _)
        have hb' : b.tenantId = t ∧ b.version = v := by simpa using (List.mem_filter.mp hb).2
        refine if_neg ?_
        rintro ⟨rfl, rfl⟩
        exact hk (by rw [← hb'.1, ← hb'.2]; rfl)
  look_congr w db db' k hk := by
    cases k with
    | advisory t => rfl
    | bundle t v =>
      cases w with
      | insert row =>
        show (db.bundles ++ [row]).filter _ = (db'.bundles ++ [row]).filter _
        rw [List.filter_append, List.filter_append]
        exact congrArg (· ++ _) hk
      | setStatus t' v' status pct at_ =>
        refine (policyLook_setStatus db t' v' status pct at_ t v).trans ?_
        rw [hk]
        exact (policyLook_setStatus db' t' v' status pct at_ t v).symm
  exec_locked now op _ db _ w hw := by
    have hw' : w ∈ (op.exec now db).2 := hw
    cases op with
    | insertBundle row =>
      simp only [PolicyOp.exec] at hw'
      split at hw'
      · cases hw'
      · rw [List.mem_singleton.mp hw']
        exact List.mem_singleton.mpr rfl
    | retire t v status other =>
      simp only [PolicyOp.exec] at hw'
      split at hw'
      · rename_i hother
        rw [List.mem_singleton.mp hw']
        have hsome : (db.find t other).isSome := by
          obtain ⟨b, hb, hbv⟩ := List.mem_map.mp hother
          obtain ⟨hmem, hcond⟩ := List.mem_filter.mp hb
          have hcond' := of_decide_eq_true hcond
          refine List.find?_isSome.mpr ⟨b, hmem, ?_⟩
          simp [hcond'.1, hbv]
        show PolicyRow.bundle t other ∈ (if _ then _ else _)
        rw [if_pos hsome]
        exact List.mem_singleton.mpr rfl
      · cases hw'
    | promote t v status pct =>
      simp only [PolicyOp.exec] at hw'
      split at hw'
      · cases hw'
      · rename_i b hb
        split at hw'
        · cases hw'
        · rw [List.mem_singleton.mp hw']
          show PolicyRow.bundle t v ∈ (if _ then _ else _)
          rw [if_pos (by rw [hb]; rfl)]
          exact List.mem_singleton.mpr rfl
    | _ => cases hw'

/-! ## What a statement did when it succeeded -/

theorem exec_insertBundle {now : Timestamp} {row r : PolicyBundle} {db : PolicyDb}
    (h : (PolicyOp.exec now (.insertBundle row) db).1 = .ok r) :
    1 ≤ row.version ∧ db.find row.tenantId row.version = none ∧ r = row
      ∧ (PolicyOp.exec now (.insertBundle row) db).2 = [.insert row] := by
  by_cases hbad : row.version < 1 ∨ (db.find row.tenantId row.version).isSome
  · have herror : (PolicyOp.exec now (.insertBundle row) db).1 = .error .sqlAlchemy := by
      simp only [PolicyOp.exec, if_pos hbad]
    rw [herror] at h
    cases h
  · have hok : PolicyOp.exec now (.insertBundle row) db = (.ok row, [.insert row]) := by
      simp only [PolicyOp.exec, if_neg hbad]
    rw [hok] at h ⊢
    obtain ⟨hver, hfind⟩ := not_or.mp hbad
    exact ⟨Int.not_lt.mp hver, by simpa using hfind, (Except.ok.inj h).symm, rfl⟩

theorem exec_promote {now : Timestamp} {t : Uuid} {v pct : ℤ} {status : BundleStatus}
    {db : PolicyDb} {r : Option PolicyBundle}
    (h : (PolicyOp.exec now (.promote t v status pct) db).1 = .ok r) :
    (r = none ∧ (PolicyOp.exec now (.promote t v status pct) db).2 = [])
      ∨ (0 ≤ pct ∧ pct ≤ 100 ∧ (∃ b, db.find t v = some b
          ∧ r = some (b.withStatus status pct (some now)))
        ∧ (PolicyOp.exec now (.promote t v status pct) db).2
          = [.setStatus t v status pct (some now)]) := by
  cases hb : db.find t v with
  | none =>
    have hok : PolicyOp.exec now (.promote t v status pct) db = (.ok none, []) := by
      simp only [PolicyOp.exec, hb]
    rw [hok] at h ⊢
    exact .inl ⟨(Except.ok.inj h).symm, rfl⟩
  | some b =>
    by_cases hbad : pct < 0 ∨ 100 < pct
    · have herror : (PolicyOp.exec now (.promote t v status pct) db).1 = .error .sqlAlchemy := by
        simp only [PolicyOp.exec, hb, if_pos hbad]
      rw [herror] at h
      cases h
    · have hok : PolicyOp.exec now (.promote t v status pct) db
          = (.ok (some (b.withStatus status pct (some now))),
            [.setStatus t v status pct (some now)]) := by
        simp only [PolicyOp.exec, hb, if_neg hbad]
      rw [hok] at h ⊢
      obtain ⟨hlow, hhigh⟩ := not_or.mp hbad
      exact .inr ⟨Int.not_lt.mp hlow, Int.not_lt.mp hhigh, ⟨b, rfl, (Except.ok.inj h).symm⟩, rfl⟩
