import Mathlib
import AgentPlatform.AdaptiveReply
import AgentPlatform.Cursors
import AgentPlatform.StorageAdapters
import AgentPlatform.ChannelInbound

/-!
# Grants for artifacts

`ArtifactService.issue_access_token` and `download` of `artifacts.py`. A grant is
a payload – artifact, tenant, subject and a second it expires in – as canonical
JSON in base64, and after a dot the HMAC of that text under the key of the
service. `download` looks the artifact up, checks its owner and its expiry, then
the grant, and hands the content out once the audit sink has taken the access.

The store, the clock and the audit sink are what a call meets: two lookups, which
may differ, a clock reading at each point that asks for one, and whether the sink
takes an event. `hmac` and `json.loads` are parameters. `json.loads` fails with a
`ValueError` – or with a `RecursionError`, on a text that is nested too deep.
-/

/-! ## The text of a payload -/

namespace Json

/-- Four hexadecimal digits. -/
def hex4 (n : ℕ) : List Char :=
  [hexDigit (n / 4096 % 16), hexDigit (n / 256 % 16), hexDigit (n / 16 % 16), hexDigit (n % 16)]

/-- What `ensure_ascii` makes of a character: from `DEL` on it is escaped, in two
halves beyond the sixteen bits of an escape. -/
def asciiChar (c : Char) : List Char :=
  let n := c.toNat
  if n < 127 then [c]
  else if n < 65536 then '\\' :: 'u' :: hex4 n
  else '\\' :: 'u' :: hex4 (55296 + (n - 65536) / 1024)
    ++ '\\' :: 'u' :: hex4 (56320 + (n - 65536) % 1024)

/-- `json.dumps(…, sort_keys=True, separators=(",", ":"))`: the canonical text, in
ASCII. -/
def dumpsAscii (j : Json) : List Char := j.dumps.toList.flatMap asciiChar

/-- `isinstance(value, int)`, and the integer. -/
def asInt : Option Json → Option ℤ
  | some (.num literal) => literal.toInt?
  | some (.bool b) => some (if b then 1 else 0)
  | _ => none

end Json

/-- `text.encode()`. -/
def encodeUtf8 (text : List Char) : Bytes := (String.ofList text).toUTF8.toList

/-! ## The service -/

/-- What the grants read of an artifact. -/
structure Artifact where
  artifactId : String
  tenantId : String
  subjectId : String
  expiresAt : Timestamp
  deriving DecidableEq

/-- `ArtifactAuditEvent`. -/
structure ArtifactAuditEvent where
  action : String
  tenantId : String
  artifactId : String
  subjectId : String
  occurredAt : Timestamp
  outcome : String
  deriving DecidableEq

/-- The exceptions of the service: `ArtifactAccessError`, the built-in ones, and
what the audit sink raised. -/
inductive ArtifactException where
  | access (code : String)
  | value
  | type
  | attribute
  | recursion
  | audit (e : PyException)

namespace ArtifactException

/-- `except ArtifactAccessError` catches it. -/
def isAccess : ArtifactException → Bool
  | .access _ => true
  | _ => false

/-- `except (TypeError, ValueError, json.JSONDecodeError, UnicodeDecodeError)`
catches it: the last two are `ValueError`s. -/
def isMalformed : ArtifactException → Bool
  | .type => true
  | .value => true
  | _ => false

end ArtifactException

/-- What `json.loads` raises. -/
inductive JsonFailure where
  | malformed
  | tooDeep
  deriving DecidableEq

/-- The exception of a failure. -/
def JsonFailure.exception : JsonFailure → ArtifactException
  | .malformed => .value
  | .tooDeep => .recursion

/-- **`ArtifactService`**, with the functions it calls and the ids its store can
look up: a column of the database takes the text of a UUID only. -/
structure ArtifactService where
  accessKey : Bytes
  hmac : Bytes → Bytes → Bytes
  loads : Bytes → Except JsonFailure Json
  takes : String → String → Bool

/-- **What a call meets**: the answers of the store, the readings of the clock and
the audit sink. -/
structure ArtifactWorld where
  found : Option (Artifact × Bytes)
  foundLater : Option (Artifact × Bytes)
  clock : ℕ → Timestamp
  sink : ArtifactAuditEvent → Option PyException

/-- `DEFAULT_ACCESS_TTL`. -/
def defaultAccessTtl : Timestamp := 15 * 60 * 1000000

/-- `int(moment.timestamp())`. -/
def Timestamp.wholeSecond (moment : Timestamp) : ℤ := Int.tdiv moment 1000000

namespace ArtifactService

variable (S : ArtifactService)

/-- `_owned`. -/
def owned (w : ArtifactWorld) (tenantId artifactId subjectId : String) :
    Except ArtifactException (Artifact × Bytes) :=
  if S.takes tenantId artifactId then
    match w.found with
    | none => .error (.access "ARTIFACT_NOT_FOUND")
    | some (artifact, content) =>
      if artifact.tenantId ≠ tenantId then .error (.access "ARTIFACT_TENANT_FORBIDDEN")
      else if artifact.expiresAt ≤ w.clock 0 then .error (.access "ARTIFACT_EXPIRED")
      else if artifact.subjectId ≠ subjectId then .error (.access "ARTIFACT_SUBJECT_FORBIDDEN")
      else .ok (artifact, content)
  else .error .value

/-- The signature of an encoded payload. -/
def signature (encoded : Text) : Text :=
  Base64.encodeUrl (S.hmac S.accessKey (encodeUtf8 encoded))

/-- `_sign`. -/
def sign (payload : Json) : Text :=
  let encoded := Base64.encodeUrl (encodeUtf8 payload.dumpsAscii)
  encoded ++ '.' :: S.signature encoded

/-- `hmac.compare_digest` of two texts, which have to be ASCII. -/
def compareDigest (a b : Text) : Except ArtifactException Bool :=
  if a.all (fun c => c.toNat < 128) && b.all (fun c => c.toNat < 128) then .ok (a = b)
  else .error .type

/-- The conditions on a payload, from `payload.get("artifact_id")` on. -/
def names (payload : Json) (artifact : Artifact) (subjectId : String) (now : Timestamp) :
    Except ArtifactException Bool :=
  match payload with
  | .obj _ =>
    .ok (Json.asStr (payload.field "artifact_id") = some artifact.artifactId
      && Json.asStr (payload.field "subject_id") = some subjectId
      && Json.asStr (payload.field "tenant_id") = some artifact.tenantId
      && match Json.asInt (payload.field "expires_at") with
        | some expiry => expiry ≤ artifact.expiresAt.wholeSecond && now.wholeSecond ≤ expiry
        | none => false)
  | _ => .error .attribute

/-- What `_verify` computes inside its `try`. The payload is read before the
signature counts. -/
def valid (token : Text) (artifact : Artifact) (subjectId : String) (now : Timestamp) :
    Except ArtifactException Bool :=
  match splitOnce '.' token with
  | none => .error .value
  | some (encoded, suppliedSignature) =>
    match Base64.decodeUrl encoded with
    | none => .error .value
    | some bytes =>
      match S.loads bytes with
      | .error failure => .error failure.exception
      | .ok payload =>
        match compareDigest suppliedSignature (S.signature encoded) with
        | .error e => .error e
        | .ok false => .ok false
        | .ok true => names payload artifact subjectId now

/-- `_verify`. -/
def verify (token : Text) (artifact : Artifact) (subjectId : String) (now : Timestamp) :
    Except ArtifactException Unit :=
  match S.valid token artifact subjectId now with
  | .ok true => .ok ()
  | .ok false => .error (.access "ARTIFACT_ACCESS_TOKEN_INVALID")
  | .error e =>
    if e.isMalformed then .error (.access "ARTIFACT_ACCESS_TOKEN_INVALID") else .error e

/-- `_audit`: the event is recorded, then the sink takes it, or not. -/
def audit {α : Type} (w : ArtifactWorld) (action : String) (artifact : Artifact)
    (subjectId outcome : String) (result : Except ArtifactException α) :
    Except ArtifactException α × List ArtifactAuditEvent :=
  let event : ArtifactAuditEvent :=
    ⟨action, artifact.tenantId, artifact.artifactId, subjectId, w.clock 2, outcome⟩
  match w.sink event with
  | none => (result, [event])
  | some e => (.error (.audit e), [event])

/-- The payload of a grant. -/
def grantPayload (artifact : Artifact) (tenantId subjectId : String) (expiry : Timestamp) : Json :=
  .obj [("artifact_id", .str artifact.artifactId),
    ("expires_at", .num expiry.wholeSecond.repr),
    ("subject_id", .str subjectId),
    ("tenant_id", .str tenantId)]

/-- When a grant for an artifact expires. -/
def grantExpiry (w : ArtifactWorld) (artifact : Artifact) : Timestamp :=
  min artifact.expiresAt (w.clock 1 + defaultAccessTtl)

/-- **`issue_access_token`.** -/
def issueAccessToken (w : ArtifactWorld) (tenantId artifactId subjectId : String) :
    Except ArtifactException Text × List ArtifactAuditEvent :=
  match S.owned w tenantId artifactId subjectId with
  | .error e => (.error e, [])
  | .ok (artifact, _) =>
    let token := S.sign (grantPayload artifact tenantId subjectId (grantExpiry w artifact))
    audit w "artifact.access_issued" artifact subjectId "ALLOW" (.ok token)

/-- **`download`.** -/
def download (w : ArtifactWorld) (tenantId artifactId subjectId : String) (accessToken : Text) :
    Except ArtifactException Bytes × List ArtifactAuditEvent :=
  let admitted : Except ArtifactException (Artifact × Bytes) := do
    let (artifact, content) ← S.owned w tenantId artifactId subjectId
    S.verify accessToken artifact subjectId (w.clock 1)
    return (artifact, content)
  match admitted with
  | .ok (artifact, content) =>
    audit w "artifact.accessed" artifact subjectId "ALLOW" (.ok content)
  | .error (.access code) =>
    match w.foundLater with
    | some (stored, _) =>
      audit w "artifact.access_denied" stored subjectId "DENY" (.error (.access code))
    | none => (.error (.access code), [])
  | .error e => (.error e, [])

end ArtifactService

/-! ## Calls -/

/-- A call of `issue_access_token`, and what it meets. -/
structure IssueCall where
  tenantId : String
  artifactId : String
  subjectId : String
  world : ArtifactWorld

/-- The payload the call signs for an artifact. -/
def IssueCall.payload (c : IssueCall) (artifact : Artifact) : Json :=
  ArtifactService.grantPayload artifact c.tenantId c.subjectId
    (ArtifactService.grantExpiry c.world artifact)

/-- A call of `download`, and what it meets. -/
structure DownloadCall where
  tenantId : String
  artifactId : String
  subjectId : String
  accessToken : Text
  world : ArtifactWorld

/-- The event of a content handed out. -/
def DownloadCall.accessed (d : DownloadCall) (artifact : Artifact) : ArtifactAuditEvent :=
  ⟨"artifact.accessed", artifact.tenantId, artifact.artifactId, d.subjectId, d.world.clock 2,
    "ALLOW"⟩

namespace ArtifactService

variable (S : ArtifactService)

/-- What a call of `issue_access_token` comes to. -/
def issue (c : IssueCall) : Except ArtifactException Text × List ArtifactAuditEvent :=
  S.issueAccessToken c.world c.tenantId c.artifactId c.subjectId

/-- What a call of `download` comes to. -/
def fetch (d : DownloadCall) : Except ArtifactException Bytes × List ArtifactAuditEvent :=
  S.download d.world d.tenantId d.artifactId d.subjectId d.accessToken

/-- `json.loads` reads back the payload of a call. -/
def ReadsBack (c : IssueCall) : Prop :=
  ∀ artifact content, c.world.found = some (artifact, content) →
    S.loads (encodeUtf8 (c.payload artifact).dumpsAscii) = .ok (c.payload artifact)

/-- **No forgery**: a text that comes with its signature was signed for a grant that
one of the calls handed out. -/
def Unforged (calls : List IssueCall) (token : Text) : Prop :=
  ∀ encoded, splitOnce '.' token = some (encoded, S.signature encoded) →
    ∃ c ∈ calls, ∃ issued rest, (S.issue c).1 = .ok issued
      ∧ splitOnce '.' issued = some (encoded, rest)

/-- **The content of an artifact may be handed out**: to its owner, before it expires,
for a grant that one of the calls handed out for the same tenant, artifact and subject
and that has not expired, and once the sink has taken the event. -/
structure Granted (calls : List IssueCall) (d : DownloadCall) (artifact : Artifact) : Prop where
  tenant : artifact.tenantId = d.tenantId
  subject : artifact.subjectId = d.subjectId
  lasts : d.world.clock 0 < artifact.expiresAt
  grant : ∃ c ∈ calls, ∃ granted content, c.world.found = some (granted, content)
    ∧ (S.issue c).1 = .ok d.accessToken
    ∧ c.tenantId = d.tenantId ∧ granted.artifactId = artifact.artifactId
    ∧ c.subjectId = d.subjectId
    ∧ (d.world.clock 1).wholeSecond ≤ (grantExpiry c.world granted).wholeSecond
  audited : d.world.sink (d.accessed artifact) = none ∧ (S.fetch d).2 = [d.accessed artifact]

/-- **A call goes by the grants**: it returns content that may be handed out, or raises
`ArtifactAccessError` – or what the audit sink raised. -/
def GoesByGrants (calls : List IssueCall) (d : DownloadCall) : Prop :=
  match (S.fetch d).1 with
  | .ok content => ∃ artifact, d.world.found = some (artifact, content) ∧ S.Granted calls d artifact
  | .error e => e.isAccess = true
    ∨ ∃ event ∈ (S.fetch d).2, ∃ e', d.world.sink event = some e' ∧ e = .audit e'

/-- The artifact is there for the caller, and has not expired. -/
def Owns (d : DownloadCall) : Prop :=
  ∃ artifact content, d.world.found = some (artifact, content) ∧ artifact.tenantId = d.tenantId
    ∧ d.world.clock 0 < artifact.expiresAt ∧ artifact.subjectId = d.subjectId

/-- The first part of the token holds JSON that is nested too deep for `json.loads`. -/
def TooDeep (token : Text) : Prop :=
  ∃ encoded rest bytes, splitOnce '.' token = some (encoded, rest)
    ∧ Base64.decodeUrl encoded = some bytes ∧ S.loads bytes = .error .tooDeep

end ArtifactService

/-! ## Grants -/

theorem splitOnce_append {sep : Char} {l : List Char} (h : sep ∉ l) (r : List Char) :
    splitOnce sep (l ++ sep :: r) = some (l, r) := by
  induction l with
  | nil => exact if_pos rfl
  | cons c cs ih =>
    obtain ⟨hc, hcs⟩ := List.ne_and_not_mem_of_not_mem_cons h
    rw [List.cons_append, splitOnce, if_neg (Ne.symm hc), ih hcs]
    rfl

theorem eq_append_of_splitOnce {sep : Char} {text l r : List Char}
    (h : splitOnce sep text = some (l, r)) : text = l ++ sep :: r := by
  induction text generalizing l with
  | nil => cases h
  | cons c cs ih =>
    rw [splitOnce] at h
    by_cases hc : c = sep
    · rw [if_pos hc] at h
      cases h
      rw [hc, List.nil_append]
    · rw [if_neg hc] at h
      obtain ⟨⟨l', r'⟩, hparts, heq⟩ := Option.map_eq_some_iff.mp h
      cases heq
      rw [ih hparts, List.cons_append]

namespace Base64

/-- Base64 has no dot. -/
theorem dot_not_mem_encodeUrl (bytes : List UInt8) : '.' ∉ encodeUrl bytes := by
  have hdigit : ∀ n : Fin 64, urlDigit (digit n.val) ≠ '.' := by decide +kernel
  obtain ⟨ns, k, -, hns, -, heq⟩ := encode_eq_append bytes
  intro h
  have hmem := (List.rdropWhile_prefix _ _).subset h
  rw [heq, List.map_append, List.map_map, List.map_replicate] at hmem
  rcases List.mem_append.mp hmem with hmem | hmem
  · obtain ⟨n, hn, hdot⟩ := List.mem_map.mp hmem
    exact hdigit ⟨n, hns n hn⟩ hdot
  · have hpad := List.eq_of_mem_replicate hmem
    revert hpad
    decide

end Base64

namespace ArtifactService

variable {S : ArtifactService} {w : ArtifactWorld} {calls : List IssueCall} {d : DownloadCall}
  {token : Text} {artifact : Artifact} {content : Bytes} {subjectId : String} {now : Timestamp}

theorem owned_ok {tenantId artifactId : String}
    (h : S.owned w tenantId artifactId subjectId = .ok (artifact, content)) :
    w.found = some (artifact, content) ∧ artifact.tenantId = tenantId
      ∧ w.clock 0 < artifact.expiresAt ∧ artifact.subjectId = subjectId := by
  unfold owned at h
  split_ifs at h
  cases hfound : w.found with
  | none => rw [hfound] at h; cases h
  | some x =>
    simp only [hfound] at h
    split_ifs at h with htenant hexpired hsubject
    cases h
    exact ⟨rfl, not_not.mp htenant, not_le.mp hexpired, not_not.mp hsubject⟩

theorem owned_of_owns (ht : S.takes d.tenantId d.artifactId = true)
    (hfound : d.world.found = some (artifact, content)) (htenant : artifact.tenantId = d.tenantId)
    (hlasts : d.world.clock 0 < artifact.expiresAt) (hsubject : artifact.subjectId = d.subjectId) :
    S.owned d.world d.tenantId d.artifactId d.subjectId = .ok (artifact, content) := by
  unfold owned
  rw [if_pos ht, hfound]
  simp only [htenant, hsubject, ne_eq, not_true_eq_false, if_false, not_le.mpr hlasts]

theorem owned_error {tenantId artifactId : String} {e : ArtifactException}
    (ht : S.takes tenantId artifactId = true)
    (h : S.owned w tenantId artifactId subjectId = .error e) : e.isAccess = true := by
  unfold owned at h
  rw [if_pos ht] at h
  cases hfound : w.found with
  | none => rw [hfound] at h; cases h; rfl
  | some x =>
    simp only [hfound] at h
    split_ifs at h <;> cases h <;> rfl

/-- **What an audited result comes to**: the sink took the event, or the call raises
what the sink raised. -/
theorem audit_cases {α : Type} (w : ArtifactWorld) (action : String) (artifact : Artifact)
    (subjectId outcome : String) (result : Except ArtifactException α) :
    ∃ event : ArtifactAuditEvent,
      event = ⟨action, artifact.tenantId, artifact.artifactId, subjectId, w.clock 2, outcome⟩
      ∧ ((w.sink event = none
          ∧ audit w action artifact subjectId outcome result = (result, [event]))
        ∨ ∃ e, w.sink event = some e
          ∧ audit w action artifact subjectId outcome result = (.error (.audit e), [event])) := by
  refine ⟨_, rfl, ?_⟩
  unfold audit
  cases h : w.sink ⟨action, artifact.tenantId, artifact.artifactId, subjectId, w.clock 2, outcome⟩
    with
  | none => exact .inl ⟨rfl, by simp only [h]⟩
  | some e => exact .inr ⟨e, rfl, by simp only [h]⟩

/-- **A token that was handed out is the signature of its payload.** -/
theorem issue_ok {c : IssueCall} (h : (S.issue c).1 = .ok token) :
    ∃ artifact content, c.world.found = some (artifact, content)
      ∧ token = S.sign (c.payload artifact) := by
  unfold issue issueAccessToken at h
  cases howned : S.owned c.world c.tenantId c.artifactId c.subjectId with
  | error e => rw [howned] at h; cases h
  | ok x =>
    obtain ⟨artifact, content⟩ := x
    simp only [howned] at h
    refine ⟨artifact, content, (owned_ok howned).1, ?_⟩
    obtain ⟨event, -, ⟨-, heq⟩ | ⟨e, -, heq⟩⟩ := audit_cases c.world "artifact.access_issued"
      artifact c.subjectId "ALLOW" (.ok (S.sign (c.payload artifact)))
    · exact (Except.ok.inj ((congrArg Prod.fst heq).symm.trans h)).symm
    · cases (congrArg Prod.fst heq).symm.trans h

theorem splitOnce_sign (payload : Json) : splitOnce '.' (S.sign payload)
    = some (Base64.encodeUrl (encodeUtf8 payload.dumpsAscii),
        S.signature (Base64.encodeUrl (encodeUtf8 payload.dumpsAscii))) :=
  splitOnce_append (Base64.dot_not_mem_encodeUrl _) _

theorem compareDigest_true {a b : Text} (h : compareDigest a b = .ok true) : a = b := by
  unfold compareDigest at h
  split_ifs at h
  exact of_decide_eq_true (Except.ok.inj h)

/-- **A token with the right signature is one that was handed out**, and what is read
from it is the payload that was signed. -/
theorem Unforged.issued {encoded supplied : Text} {bytes : Bytes} {payload : Json}
    (hunforged : S.Unforged calls token) (hreads : ∀ c ∈ calls, S.ReadsBack c)
    (hsplit : splitOnce '.' token = some (encoded, supplied))
    (hbytes : Base64.decodeUrl encoded = some bytes) (hloads : S.loads bytes = .ok payload)
    (hdigest : compareDigest supplied (S.signature encoded) = .ok true) :
    ∃ c ∈ calls, ∃ granted content, c.world.found = some (granted, content)
      ∧ (S.issue c).1 = .ok token ∧ payload = c.payload granted := by
  obtain rfl := compareDigest_true hdigest
  obtain ⟨c, hc, issued, rest, hissue, hparts⟩ := hunforged encoded hsplit
  obtain ⟨granted, content, hfound, rfl⟩ := issue_ok hissue
  rw [splitOnce_sign] at hparts
  obtain ⟨rfl, -⟩ := Prod.mk.inj (Option.some.inj hparts)
  rw [Base64.decodeUrl_encodeUrl] at hbytes
  obtain rfl := Option.some.inj hbytes
  rw [hreads c hc granted content hfound] at hloads
  refine ⟨c, hc, granted, content, hfound, ?_, (Except.ok.inj hloads).symm⟩
  rw [hissue, eq_append_of_splitOnce hsplit]
  rfl

/-- **What a payload that passes says.** -/
theorem names_grantPayload {granted : Artifact} {tenantId subject : String} {expiry : Timestamp}
    (h : names (grantPayload granted tenantId subject expiry) artifact subjectId now = .ok true) :
    granted.artifactId = artifact.artifactId ∧ subject = subjectId ∧ tenantId = artifact.tenantId
      ∧ now.wholeSecond ≤ expiry.wholeSecond := by
  simp only [names, grantPayload, Json.field, Json.asStr, Json.asInt, Except.ok.injEq] at h
  simp at h
  exact ⟨h.1.1.1, h.1.1.2, h.1.2, h.2.2⟩

/-- **What the check comes to**: a failure that counts as an invalid token, too much
nesting, another signature, or the conditions on the payload. -/
theorem valid_cases (S : ArtifactService) (token : Text) (artifact : Artifact) (subjectId : String)
    (now : Timestamp) :
    (∃ e, S.valid token artifact subjectId now = .error e ∧ e.isMalformed = true)
    ∨ (S.TooDeep token ∧ S.valid token artifact subjectId now = .error .recursion)
    ∨ S.valid token artifact subjectId now = .ok false
    ∨ ∃ encoded supplied bytes payload, splitOnce '.' token = some (encoded, supplied)
      ∧ Base64.decodeUrl encoded = some bytes ∧ S.loads bytes = .ok payload
      ∧ compareDigest supplied (S.signature encoded) = .ok true
      ∧ S.valid token artifact subjectId now = names payload artifact subjectId now := by
  unfold valid
  cases hsplit : splitOnce '.' token with
  | none => exact .inl ⟨_, rfl, rfl⟩
  | some parts =>
    obtain ⟨encoded, supplied⟩ := parts
    dsimp only
    cases hbytes : Base64.decodeUrl encoded with
    | none => exact .inl ⟨_, rfl, rfl⟩
    | some bytes =>
      dsimp only
      cases hloads : S.loads bytes with
      | error failure =>
        cases failure with
        | malformed => exact .inl ⟨_, rfl, rfl⟩
        | tooDeep => exact .inr (.inl ⟨⟨encoded, supplied, bytes, hsplit, hbytes, hloads⟩, rfl⟩)
      | ok payload =>
        dsimp only
        cases hdigest : compareDigest supplied (S.signature encoded) with
        | error e =>
          refine .inl ⟨_, rfl, ?_⟩
          unfold compareDigest at hdigest
          split_ifs at hdigest
          cases hdigest
          rfl
        | ok same =>
          cases same with
          | false => exact .inr (.inr (.inl rfl))
          | true =>
            exact .inr (.inr (.inr ⟨encoded, supplied, bytes, payload, rfl, hbytes, hloads, hdigest,
              rfl⟩))

/-- **`_verify` accepts grants that were handed out**, and have not expired. -/
theorem verify_ok (hunforged : S.Unforged calls token) (hreads : ∀ c ∈ calls, S.ReadsBack c)
    (h : S.verify token artifact subjectId now = .ok ()) :
    ∃ c ∈ calls, ∃ granted content, c.world.found = some (granted, content)
      ∧ (S.issue c).1 = .ok token ∧ c.tenantId = artifact.tenantId
      ∧ granted.artifactId = artifact.artifactId ∧ c.subjectId = subjectId
      ∧ now.wholeSecond ≤ (grantExpiry c.world granted).wholeSecond := by
  have hvalid : S.valid token artifact subjectId now = .ok true := by
    unfold verify at h
    cases hvalid : S.valid token artifact subjectId now with
    | error e =>
      rw [hvalid] at h
      dsimp only at h
      split_ifs at h
    | ok verdict =>
      cases verdict with
      | false => rw [hvalid] at h; cases h
      | true => rfl
  obtain ⟨e, he, -⟩ | ⟨-, he⟩ | he | ⟨encoded, supplied, bytes, payload, hsplit, hbytes, hloads,
    hdigest, hnames⟩ := valid_cases S token artifact subjectId now
  · rw [hvalid] at he; cases he
  · rw [hvalid] at he; cases he
  · rw [hvalid] at he; cases he
  · obtain ⟨c, hc, granted, content, hfound, hissue, rfl⟩ :=
      hunforged.issued hreads hsplit hbytes hloads hdigest
    obtain ⟨hid, hsubject, htenant, hlasts⟩ := names_grantPayload (hnames.symm.trans hvalid)
    exact ⟨c, hc, granted, content, hfound, hissue, htenant, hid, hsubject, hlasts⟩

/-- **`_verify` raises `ArtifactAccessError`**, unless the text is nested too deep. -/
theorem verify_error {e : ArtifactException} (hunforged : S.Unforged calls token)
    (hreads : ∀ c ∈ calls, S.ReadsBack c)
    (h : S.verify token artifact subjectId now = .error e) :
    e.isAccess = true ∨ S.TooDeep token := by
  unfold verify at h
  obtain ⟨e', he, hmalformed⟩ | ⟨hdeep, -⟩ | he | ⟨encoded, supplied, bytes, payload, hsplit,
    hbytes, hloads, hdigest, hnames⟩ := valid_cases S token artifact subjectId now
  · simp only [he, hmalformed, if_true] at h
    cases h
    exact .inl rfl
  · exact .inr hdeep
  · rw [he] at h
    cases h
    exact .inl rfl
  · -- The payload is one that was signed, so it is an object.
    obtain ⟨c, -, granted, content, -, -, rfl⟩ :=
      hunforged.issued hreads hsplit hbytes hloads hdigest
    obtain ⟨verdict, hverdict⟩ : ∃ verdict,
        names (c.payload granted) artifact subjectId now = .ok verdict := ⟨_, rfl⟩
    rw [hnames, hverdict] at h
    cases verdict with
    | false => cases h; exact .inl rfl
    | true => cases h

/-- A denied call raises `ArtifactAccessError`, or what the sink raised. -/
theorem denied (code : String)
    (h : S.fetch d = match d.world.foundLater with
      | some (stored, _) => audit d.world "artifact.access_denied" stored d.subjectId "DENY"
          (.error (.access code))
      | none => (.error (.access code), [])) :
    S.GoesByGrants calls d := by
  cases hlater : d.world.foundLater with
  | none =>
    rw [hlater] at h
    simp only [GoesByGrants, h]
    exact .inl rfl
  | some x =>
    obtain ⟨stored, content⟩ := x
    simp only [hlater] at h
    obtain ⟨event, -, ⟨-, heq⟩ | ⟨e, hsink, heq⟩⟩ := audit_cases d.world "artifact.access_denied"
      stored d.subjectId "DENY" (.error (.access code) : Except ArtifactException Bytes)
    · rw [heq] at h
      simp only [GoesByGrants, h]
      exact .inl rfl
    · rw [heq] at h
      simp only [GoesByGrants, h]
      exact .inr ⟨event, List.mem_singleton_self event, e, hsink, rfl⟩

/-- **An admitted call** returns the content once the sink has taken the event. -/
theorem admitted (hreads : ∀ c ∈ calls, S.ReadsBack c) (hunforged : S.Unforged calls d.accessToken)
    (howned : S.owned d.world d.tenantId d.artifactId d.subjectId = .ok (artifact, content))
    (hverify : S.verify d.accessToken artifact d.subjectId (d.world.clock 1) = .ok ()) :
    S.GoesByGrants calls d := by
  have hfetch : S.fetch d
      = audit d.world "artifact.accessed" artifact d.subjectId "ALLOW" (.ok content) := by
    simp only [fetch, download, howned, bind, Except.bind, hverify, pure, Except.pure]
  obtain ⟨hfound, htenant, hlasts, hsubject⟩ := owned_ok howned
  obtain ⟨event, rfl, ⟨hsink, heq⟩ | ⟨e, hsink, heq⟩⟩ := audit_cases d.world "artifact.accessed"
    artifact d.subjectId "ALLOW" (.ok content)
  · obtain ⟨c, hc, granted, found, hc', hissue, htenant', hid, hsubject', hunexpired⟩ :=
      verify_ok hunforged hreads hverify
    rw [heq] at hfetch
    simp only [GoesByGrants, hfetch]
    refine ⟨artifact, hfound, htenant, hsubject, hlasts, ?_, hsink, by rw [hfetch]; rfl⟩
    exact ⟨c, hc, granted, found, hc', hissue, htenant'.trans htenant, hid, hsubject', hunexpired⟩
  · rw [heq] at hfetch
    simp only [GoesByGrants, hfetch]
    exact .inr ⟨_, List.mem_singleton_self _, e, hsink, rfl⟩

/-- **Too much nesting escapes**, from the owner of an artifact that lasts. -/
theorem not_goesByGrants (htakes : S.takes d.tenantId d.artifactId = true) (howns : Owns d)
    (hdeep : S.TooDeep d.accessToken) : ¬ S.GoesByGrants calls d := by
  intro h
  obtain ⟨artifact, content, hfound, htenant, hlasts, hsubject⟩ := howns
  obtain ⟨encoded, rest, bytes, hsplit, hbytes, hloads⟩ := hdeep
  have hverify : S.verify d.accessToken artifact d.subjectId (d.world.clock 1)
      = .error .recursion := by
    simp [verify, valid, hsplit, hbytes, hloads, JsonFailure.exception,
      ArtifactException.isMalformed]
  have hfetch : S.fetch d = (.error .recursion, []) := by
    simp only [fetch, download, owned_of_owns htakes hfound htenant hlasts hsubject, hverify, bind,
      Except.bind]
  simp only [GoesByGrants, hfetch, ArtifactException.isAccess] at h
  simp at h

end ArtifactService

/-! ## A grant, and a text nested too deep -/

/-- An artifact of a sample tenant. -/
def sampleArtifact : Artifact := ⟨"artifact", "tenant", "alice", 90 * 60 * 1000000⟩

/-- What a call meets right after the artifact was stored. -/
def sampleWorld : ArtifactWorld where
  found := some (sampleArtifact, [1, 2, 3])
  foundLater := some (sampleArtifact, [1, 2, 3])
  clock := fun _ => 0
  sink := fun _ => none

/-- Alice asks for a grant. -/
def sampleIssue : IssueCall := ⟨"tenant", "artifact", "alice", sampleWorld⟩

/-- A service whose `json.loads` gives up on a text with more than ten thousand opening
brackets, and reads the payload of that grant. -/
def sampleArtifacts : ArtifactService where
  accessKey := List.replicate 16 7
  hmac := fun key message => key ++ message
  loads := fun bytes =>
    if 10000 < bytes.count 91 then .error .tooDeep
    else if bytes = encodeUtf8 (sampleIssue.payload sampleArtifact).dumpsAscii then
      .ok (sampleIssue.payload sampleArtifact)
    else .error .malformed
  takes := fun _ _ => true

/-- Alice downloads the artifact with the grant. -/
def sampleDownload : DownloadCall :=
  ⟨"tenant", "artifact", "alice",
    sampleArtifacts.sign (sampleIssue.payload sampleArtifact), sampleWorld⟩

theorem sampleIssue_issue : (sampleArtifacts.issue sampleIssue).1
    = .ok (sampleArtifacts.sign (sampleIssue.payload sampleArtifact)) := by
  have howned : sampleArtifacts.owned sampleWorld "tenant" "artifact" "alice"
      = .ok (sampleArtifact, [1, 2, 3]) := rfl
  simp only [ArtifactService.issue, ArtifactService.issueAccessToken, sampleIssue, howned]
  rfl

theorem sampleIssue_readsBack : sampleArtifacts.ReadsBack sampleIssue := by
  intro artifact content hfound
  cases hfound
  have hshallow :
      ¬ 10000 < (encodeUtf8 (sampleIssue.payload sampleArtifact).dumpsAscii).count 91 := by
    decide +kernel
  exact (if_neg hshallow).trans (if_pos rfl)

theorem loads_brackets {n : ℕ} (h : 10000 < n) :
    sampleArtifacts.loads (List.replicate n 91) = .error .tooDeep := by
  refine if_pos ?_
  rw [List.count_replicate_self]
  exact h

/-- Alice comes with another text, and a dot for its signature. -/
def unsignedDownload (bytes : Bytes) : DownloadCall :=
  { sampleDownload with accessToken := Base64.encodeUrl bytes ++ ['.', '.'] }

theorem unsignedDownload_split (bytes : Bytes) :
    splitOnce '.' (unsignedDownload bytes).accessToken = some (Base64.encodeUrl bytes, ['.']) :=
  splitOnce_append (Base64.dot_not_mem_encodeUrl bytes) ['.']

theorem unsignedDownload_escapes {bytes : Bytes}
    (hdeep : sampleArtifacts.loads bytes = .error .tooDeep) :
    sampleArtifacts.Unforged [] (unsignedDownload bytes).accessToken
      ∧ ¬ sampleArtifacts.GoesByGrants [] (unsignedDownload bytes) := by
  constructor
  · intro encoded h
    obtain ⟨-, hdot⟩ := Prod.mk.inj (Option.some.inj ((unsignedDownload_split bytes).symm.trans h))
    have hmem : '.' ∈ sampleArtifacts.signature encoded := hdot ▸ List.mem_singleton_self '.'
    exact absurd hmem (Base64.dot_not_mem_encodeUrl _)
  · refine ArtifactService.not_goesByGrants rfl ?_ ?_
    · have hlasts : sampleWorld.clock 0 < sampleArtifact.expiresAt := by decide
      exact ⟨sampleArtifact, [1, 2, 3], rfl, rfl, hlasts, rfl⟩
    · exact ⟨_, _, bytes, unsignedDownload_split bytes, Base64.decodeUrl_encodeUrl bytes, hdeep⟩
