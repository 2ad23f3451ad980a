import Mathlib.Algebra.Order.Ring.Rat
import Mathlib.Data.List.DropRight
import AgentPlatform.Json

/-!
# The tables of the execution plane

The gateway, the workers and the outbox dispatcher share one PostgreSQL
database: Agent Sessions and their append-only events, the leases on
Sessions, Agent Executions and the transactional Outbox, all declared in
`0010_execution_bus_sessions.sql`, and the admission bucket of
`0032_execution_capacity.sql`. This module has the rows, the payloads that
travel on the execution bus, and the exceptions the services raise.

A table with a primary key that is only looked up by that key is a function
of the key, which makes the key unique by construction. A table that is
scanned, counted or read in order of insertion is a list; its unique
constraints are checked by the statements that insert into it, which raise
`PyException.sqlAlchemy` when one is violated.
-/

/-- An identifier. Application-generated identifiers are UUIDv7 values. -/
abbrev Uuid := ℕ

/-- A point in time of the database clock, in microseconds. -/
abbrev Timestamp := ℤ

namespace Uuid

/-- The last `n` hexadecimal digits of a number. -/
def hexDigits : ℕ → ℕ → List Char
  | 0, _ => []
  | n + 1, v => hexDigits n (v / 16) ++ [Json.hexDigit (v % 16)]

/-- The canonical 8-4-4-4-12 text of a UUID. -/
def str (id : Uuid) : String :=
  String.ofList (hexDigits 8 (id / 16 ^ 24) ++ ['-'] ++ hexDigits 4 (id / 16 ^ 20) ++ ['-']
    ++ hexDigits 4 (id / 16 ^ 16) ++ ['-'] ++ hexDigits 4 (id / 16 ^ 12) ++ ['-']
    ++ hexDigits 12 id)

/-- A digit says which number below 16 it is. -/
theorem hexDigit_inj {n m : ℕ} (hn : n < 16) (hm : m < 16)
    (h : Json.hexDigit n = Json.hexDigit m) : n = m := by
  have hall : ∀ i j : Fin 16, Json.hexDigit i.1 = Json.hexDigit j.1 → i.1 = j.1 := by decide
  exact hall ⟨n, hn⟩ ⟨m, hm⟩ h

@[simp] theorem length_hexDigits (n v : ℕ) : (hexDigits n v).length = n := by
  induction n generalizing v with
  | zero => rfl
  | succ n ih => rw [hexDigits, List.length_append, ih, List.length_singleton]

/-- `n` digits say what a number is modulo `16 ^ n`. -/
theorem mod_eq_of_hexDigits_eq {n v v' : ℕ} (h : hexDigits n v = hexDigits n v') :
    v % 16 ^ n = v' % 16 ^ n := by
  induction n generalizing v v' with
  | zero => rw [pow_zero, Nat.mod_one, Nat.mod_one]
  | succ n ih =>
    obtain ⟨hhigh, hlow⟩ := List.append_inj h (by rw [length_hexDigits, length_hexDigits])
    have hdigit : v % 16 = v' % 16 := hexDigit_inj (Nat.mod_lt v (by decide))
      (Nat.mod_lt v' (by decide)) (List.singleton_inj.mp hlow)
    rw [pow_succ', Nat.mod_mul, Nat.mod_mul, ih hhigh, hdigit]

/-- A number is put together from its high and its low digits. -/
theorem div_eq_of_mod_eq {v v' b a : ℕ} (hhigh : v / (b * a) = v' / (b * a))
    (hlow : v / b % a = v' / b % a) : v / b = v' / b := by
  rw [← Nat.div_add_mod (v / b) a, ← Nat.div_add_mod (v' / b) a, Nat.div_div_eq_div_mul,
    Nat.div_div_eq_div_mul, hhigh, hlow]

/-- **The text of a UUID says which one it is.** -/
theorem str_inj {t t' : Uuid} (ht : t < 2 ^ 128) (ht' : t' < 2 ^ 128)
    (h : Uuid.str t = Uuid.str t') : t = t' := by
  have hlist := String.ofList_injective h
  simp only [List.append_assoc] at hlist
  obtain ⟨h₁, hlist⟩ := List.append_inj hlist (by rw [length_hexDigits, length_hexDigits])
  obtain ⟨-, hlist⟩ := List.append_inj hlist rfl
  obtain ⟨h₂, hlist⟩ := List.append_inj hlist (by rw [length_hexDigits, length_hexDigits])
  obtain ⟨-, hlist⟩ := List.append_inj hlist rfl
  obtain ⟨h₃, hlist⟩ := List.append_inj hlist (by rw [length_hexDigits, length_hexDigits])
  obtain ⟨-, hlist⟩ := List.append_inj hlist rfl
  obtain ⟨h₄, hlist⟩ := List.append_inj hlist (by rw [length_hexDigits, length_hexDigits])
  obtain ⟨-, h₅⟩ := List.append_inj hlist rfl
  -- The groups are joined from the first, which has the highest digits, on.
  have hdiv : t / (16 ^ 24 * 16 ^ 8) = t' / (16 ^ 24 * 16 ^ 8) := by
    rw [Nat.div_eq_of_lt (by simpa using ht), Nat.div_eq_of_lt (by simpa using ht')]
  have e₁ := div_eq_of_mod_eq hdiv (mod_eq_of_hexDigits_eq h₁)
  have e₂ : t / 16 ^ 20 = t' / 16 ^ 20 := div_eq_of_mod_eq e₁ (mod_eq_of_hexDigits_eq h₂)
  have e₃ : t / 16 ^ 16 = t' / 16 ^ 16 := div_eq_of_mod_eq e₂ (mod_eq_of_hexDigits_eq h₃)
  have e₄ : t / 16 ^ 12 = t' / 16 ^ 12 := div_eq_of_mod_eq e₃ (mod_eq_of_hexDigits_eq h₄)
  rw [← Nat.div_add_mod t (16 ^ 12), e₄, mod_eq_of_hexDigits_eq h₅, Nat.div_add_mod]

example : str 0x0192 = "00000000-0000-0000-0000-000000000192" := by decide +kernel

/-- A text without the occurrences of another; `skip` counts the characters of
the one just found. -/
def without (pattern : List Char) : ℕ → List Char → List Char
  | _, [] => []
  | skip + 1, _ :: cs => without pattern skip cs
  | 0, c :: cs =>
    if pattern.isPrefixOf (c :: cs) then without pattern (pattern.length - 1) cs
    else c :: without pattern 0 cs

/-- The value of a hexadecimal digit. -/
def hexValue (c : Char) : Option ℕ :=
  if '0' ≤ c ∧ c ≤ '9' then some (c.toNat - 48)
  else if 'a' ≤ c ∧ c ≤ 'f' then some (c.toNat - 87)
  else if 'A' ≤ c ∧ c ≤ 'F' then some (c.toNat - 55)
  else none

/-- The number of a list of hexadecimal digits. -/
def ofHex (digits : List Char) : Option ℕ :=
  digits.foldlM (fun n c => (hexValue c).map (fun d => 16 * n + d)) 0

/-- `UUID(text)`: 32 hexadecimal digits, with an optional URN prefix, braces
and hyphens. -/
@[irreducible] def parse (text : String) : Option Uuid :=
  let bare := without "uuid:".toList 0 (without "urn:".toList 0 text.toList)
  let isBrace := fun c => c = Char.ofNat 123 || c = Char.ofNat 125
  let digits := ((bare.dropWhile isBrace).rdropWhile isBrace).filter (fun c => c ≠ '-')
  if digits.length = 32 then ofHex digits else none

example : parse "00000000-0000-0000-0000-000000000192" = some 0x0192 := by decide +kernel

/-- A pattern whose first character does not occur is not found. -/
theorem without_of_notMem {p : Char} {ps cs : List Char} (h : p ∉ cs) :
    without (p :: ps) 0 cs = cs := by
  induction cs with
  | nil => rfl
  | cons c cs ih =>
    have hne : (p == c) = false := beq_eq_false_iff_ne.mpr (fun heq => h (heq ▸ List.mem_cons_self))
    rw [without, List.isPrefixOf_cons_cons, hne, Bool.false_and, if_neg (by decide),
      ih (fun hmem => h (List.mem_cons_of_mem c hmem))]

/-- Digits have the value they stand for, and are none of the characters that
`UUID(text)` looks for. -/
theorem hexDigit_spec {n : ℕ} (h : n < 16) :
    hexValue (Json.hexDigit n) = some n ∧ Json.hexDigit n ≠ 'u' ∧ Json.hexDigit n ≠ '-'
      ∧ Json.hexDigit n ≠ Char.ofNat 123 ∧ Json.hexDigit n ≠ Char.ofNat 125 := by
  have hall : ∀ i : Fin 16, hexValue (Json.hexDigit i.1) = some i.1 ∧ Json.hexDigit i.1 ≠ 'u'
      ∧ Json.hexDigit i.1 ≠ '-' ∧ Json.hexDigit i.1 ≠ Char.ofNat 123
      ∧ Json.hexDigit i.1 ≠ Char.ofNat 125 := by decide
  exact hall ⟨n, h⟩

theorem mem_hexDigits {n v : ℕ} {c : Char} (h : c ∈ hexDigits n v) :
    ∃ d, d < 16 ∧ c = Json.hexDigit d := by
  induction n generalizing v with
  | zero => cases h
  | succ n ih =>
    rcases List.mem_append.mp h with h | h
    · exact ih h
    · exact ⟨v % 16, Nat.mod_lt v (by decide), List.mem_singleton.mp h⟩

/-- Digits in a row add up. -/
theorem foldlM_hexDigits (n v acc : ℕ) :
    (hexDigits n v).foldlM (fun n c => (hexValue c).map (fun d => 16 * n + d)) acc
      = some (acc * 16 ^ n + v % 16 ^ n) := by
  induction n generalizing v with
  | zero => simp [hexDigits, Nat.mod_one]
  | succ n ih =>
    rw [hexDigits, List.foldlM_append, ih]
    simp only [Option.bind_eq_bind, Option.bind_some, List.foldlM_cons, List.foldlM_nil,
      (hexDigit_spec (Nat.mod_lt v (by decide : 0 < 16))).1, Option.map_some, Option.pure_def]
    rw [pow_succ', Nat.mod_mul]
    have hshift : 16 * (acc * 16 ^ n) = acc * (16 * 16 ^ n) := Nat.mul_left_comm _ _ _
    congr 1
    omega

theorem filter_hexDigits (n v : ℕ) : (hexDigits n v).filter (fun c => c ≠ '-') = hexDigits n v := by
  refine List.filter_eq_self.mpr (fun c hc => ?_)
  obtain ⟨d, hd, rfl⟩ := mem_hexDigits hc
  exact decide_eq_true (hexDigit_spec hd).2.2.1

/-- A canonical text has 36 characters. -/
theorem length_str (id : Uuid) : (str id).toList.length = 36 := by
  simp [str]

/-- A number is made of its high digits and the next ones. -/
theorem div_mul_add_mod (v : ℕ) {b a c : ℕ} (hc : b * a = c) : v / c * a + v / b % a = v / b := by
  rw [← hc, ← Nat.div_div_eq_div_mul, Nat.mul_comm, Nat.div_add_mod]

/-- **The text of a UUID is read back.** -/
theorem parse_str {id : Uuid} (h : id < 2 ^ 128) : parse (str id) = some id := by
  have hplain : ∀ c ∈ (str id).toList, c ≠ 'u' ∧ c ≠ Char.ofNat 123 ∧ c ≠ Char.ofNat 125 := by
    intro c hc
    simp only [str, String.toList_ofList, List.mem_append, List.mem_singleton] at hc
    have hdash : c = '-' → c ≠ 'u' ∧ c ≠ Char.ofNat 123 ∧ c ≠ Char.ofNat 125 := by
      rintro rfl
      decide
    have hdigit : ∀ n v, c ∈ hexDigits n v →
        c ≠ 'u' ∧ c ≠ Char.ofNat 123 ∧ c ≠ Char.ofNat 125 := by
      intro n v hmem
      obtain ⟨d, hd, rfl⟩ := mem_hexDigits hmem
      obtain ⟨-, hu, -, hopen, hclose⟩ := hexDigit_spec hd
      exact ⟨hu, hopen, hclose⟩
    rcases hc with (((((((hc | hc) | hc) | hc) | hc) | hc) | hc) | hc) | hc
    all_goals first | exact hdash hc | exact hdigit _ _ hc
  have hbare : without "uuid:".toList 0 (without "urn:".toList 0 (str id).toList)
      = (str id).toList := by
    have hu : 'u' ∉ (str id).toList := fun hmem => (hplain 'u' hmem).1 rfl
    have h₁ : without "urn:".toList 0 (str id).toList = (str id).toList := without_of_notMem hu
    rw [h₁]
    exact without_of_notMem hu
  have hbrace : ∀ c ∈ (str id).toList,
      ¬ (c = Char.ofNat 123 || c = Char.ofNat 125) = true := by
    intro c hc hor
    obtain ⟨-, hopen, hclose⟩ := hplain c hc
    simp [hopen, hclose] at hor
  have hdigits : (str id).toList.filter (fun c => c ≠ '-')
      = hexDigits 8 (id / 16 ^ 24) ++ hexDigits 4 (id / 16 ^ 20) ++ hexDigits 4 (id / 16 ^ 16)
        ++ hexDigits 4 (id / 16 ^ 12) ++ hexDigits 12 id := by
    simp only [str, String.toList_ofList, List.filter_append, filter_hexDigits]
    simp
  have hdrop : ((str id).toList.dropWhile (fun c => c = Char.ofNat 123 || c = Char.ofNat 125))
      = (str id).toList := by
    cases hl : (str id).toList with
    | nil => rfl
    | cons c cs =>
      exact List.dropWhile_cons_of_neg (hbrace c (hl ▸ List.mem_cons_self))
  have hrdrop : (str id).toList.rdropWhile (fun c => c = Char.ofNat 123 || c = Char.ofNat 125)
      = (str id).toList :=
    List.rdropWhile_eq_self_iff.mpr (fun hne => hbrace _ (List.getLast_mem hne))
  unfold parse
  simp only [hbare, hdrop, hrdrop, hdigits]
  rw [if_pos (by simp)]
  have hval : (((id / 16 ^ 24 % 16 ^ 8 * 16 ^ 4 + id / 16 ^ 20 % 16 ^ 4) * 16 ^ 4
      + id / 16 ^ 16 % 16 ^ 4) * 16 ^ 4 + id / 16 ^ 12 % 16 ^ 4) * 16 ^ 12 + id % 16 ^ 12 = id := by
    have hhigh : id / 16 ^ 24 % 16 ^ 8 = id / 16 ^ 24 :=
      Nat.mod_eq_of_lt (Nat.div_lt_of_lt_mul (by simpa using h))
    rw [hhigh]
    have e₁ : id / 16 ^ 24 * 16 ^ 4 + id / 16 ^ 20 % 16 ^ 4 = id / 16 ^ 20 :=
      div_mul_add_mod id (pow_add 16 20 4).symm
    have e₂ : id / 16 ^ 20 * 16 ^ 4 + id / 16 ^ 16 % 16 ^ 4 = id / 16 ^ 16 :=
      div_mul_add_mod id (pow_add 16 16 4).symm
    have e₃ : id / 16 ^ 16 * 16 ^ 4 + id / 16 ^ 12 % 16 ^ 4 = id / 16 ^ 12 :=
      div_mul_add_mod id (pow_add 16 12 4).symm
    rw [e₁, e₂, e₃, Nat.mul_comm, Nat.div_add_mod]
  simp only [ofHex, List.foldlM_append, foldlM_hexDigits, Option.bind_eq_bind, Option.bind_some]
  rw [Nat.zero_mul, Nat.zero_add, hval]

end Uuid

/-- **The exceptions of the services**, by class, with the stable code or
message they carry. `sqlAlchemy` is every `SQLAlchemyError` – a lost
connection, a violated constraint – and `httpx` every `httpx.HTTPError`;
`other` is any further `Exception`, and `cancelled` the
`asyncio.CancelledError`, which is a `BaseException` only. -/
inductive PyException where
  | value (message : String)
  | sessionLease (code : String)
  | sessionVersionConflict (code : String)
  | agentGateway (code : String)
  | modelGateway (code : String)
  | budgetExceeded (code : String)
  | budgetStateUnknown (code : String)
  | sqlAlchemy
  | httpx
  | other (name : String)
  | cancelled
  deriving DecidableEq, Repr

/-- `HTTPException`. -/
def httpException (statusCode : ℕ) (detail : String) : PyException :=
  .other (toString statusCode ++ " " ++ detail)

namespace PyException

/-- `except Exception` catches it. -/
def isException : PyException → Bool
  | .cancelled => false
  | _ => true

/-- `except ModelGatewayError` catches it. -/
def isModelGatewayError : PyException → Bool
  | .modelGateway _ => true
  | _ => false

/-- The outcome of a call is the exception `e`. -/
def raisedBy {α : Type} (e : PyException) : Except PyException α → Bool
  | .error e' => e' = e
  | .ok _ => false

@[simp] theorem raisedBy_iff {α : Type} {e : PyException} {r : Except PyException α} :
    e.raisedBy r = true ↔ r = .error e := by
  cases r <;> simp [raisedBy]

end PyException

/-! ## Rows -/

/-- A row of `tenant.agent_session`. -/
structure AgentSession where
  tenantId : Uuid
  applicationId : Uuid
  id : String
  version : ℕ
  deriving DecidableEq, Repr

/-- A row of `tenant.session_lease`. -/
structure SessionLease where
  tenantId : Uuid
  sessionId : String
  ownerId : String
  fencingToken : ℕ
  expiresAt : Timestamp
  deriving DecidableEq, Repr

/-- A row of `tenant.session_event`. -/
structure SessionEventRow where
  tenantId : Uuid
  sessionId : String
  sequence : ℕ
  executionId : Uuid
  kind : String
  payload : Json

/-- The status of an Agent Execution. -/
inductive ExecutionStatus where
  | pending
  | succeeded
  | failed
  deriving DecidableEq, Repr

/-- A deployment environment. -/
inductive Environment where
  | development
  | staging
  | production
  deriving DecidableEq, Repr

/-- The text of an environment. -/
def Environment.str : Environment → String
  | .development => "DEVELOPMENT"
  | .staging => "STAGING"
  | .production => "PRODUCTION"

/-- The classification of data, from the least to the most sensitive. -/
inductive DataClassification where
  | PUBLIC
  | INTERNAL
  | CONFIDENTIAL
  | RESTRICTED
  deriving DecidableEq, Repr

/-- The place of a classification in `CLASSIFICATION_ORDER`. -/
def DataClassification.rank : DataClassification → ℕ
  | .PUBLIC => 0
  | .INTERNAL => 1
  | .CONFIDENTIAL => 2
  | .RESTRICTED => 3

/-- A row of `tenant.agent_execution`. -/
structure AgentExecution where
  tenantId : Uuid
  id : Uuid
  applicationId : Uuid
  releaseId : Uuid
  environment : Environment
  sessionId : String
  subjectId : Option String
  memoryPolicyVersion : String
  messageId : String
  payloadHash : String
  status : ExecutionStatus
  knowledgeRevisionIds : List String
  deriving DecidableEq, Repr

/-- A chat message: a dictionary of strings. -/
abbrev ChatMessage := List (String × String)

/-! ## Payloads of the execution bus -/

/-- The type of a domain event on the bus. -/
inductive EventType where
  | executionRequested
  | executionCompleted
  | sessionEventsCommitted
  | memoryInvalidated
  | other (name : String)
  deriving DecidableEq, Repr

/-- The name of an event type. -/
def EventType.str : EventType → String
  | .executionRequested => "platform.agent-execution.requested.v1"
  | .executionCompleted => "platform.agent-execution.completed.v1"
  | .sessionEventsCommitted => "platform.session.events.committed.v1"
  | .memoryInvalidated => "platform.memory.invalidated.v1"
  | .other name => name

/-- The payload of `platform.agent-execution.requested.v1`. -/
structure ExecutionRequestedData where
  tenantId : Uuid
  applicationId : Uuid
  executionId : Uuid
  releaseId : Uuid
  environment : Environment
  sessionId : String
  messages : List ChatMessage
  channelContext : Option (List (String × String))
  traceParent : Option String
  deriving DecidableEq, Repr

/-- The payload of `platform.agent-execution.completed.v1`. -/
structure ExecutionCompletedData where
  tenantId : Uuid
  executionId : Uuid
  releaseId : Uuid
  sessionId : String
  completion : List (String × Json)
  channelContext : Option (List (String × String))
  traceParent : Option String

/-- The payload of `platform.session.events.committed.v1`: the committed range
`(fromVersion, toVersion]` of a Session. -/
structure SessionEventsCommittedData where
  tenantId : Uuid
  sessionId : String
  executionId : Uuid
  fromVersion : ℕ
  toVersion : ℕ
  eventKinds : List String
  deriving DecidableEq, Repr

/-- The payload of an Outbox record. -/
inductive OutboxPayload where
  | executionRequested (data : ExecutionRequestedData)
  | executionCompleted (data : ExecutionCompletedData)
  | sessionEventsCommitted (data : SessionEventsCommittedData)
  | other (data : Json)

/-- The status of an Outbox record. -/
inductive OutboxStatus where
  | pending
  | published
  deriving DecidableEq, Repr

/-- A row of `platform.outbox_record`. -/
structure OutboxRecord where
  tenantId : Uuid
  id : Uuid
  messageId : String
  source : String
  eventType : EventType
  partitionKey : String
  causationId : Option String
  correlationId : Option String
  dataClassification : Option DataClassification
  payload : OutboxPayload
  status : OutboxStatus
  attempts : ℕ
  createdAt : Timestamp

/-- `GATEWAY_SOURCE`. -/
def gatewaySource : String := "trpc-agent-platform://agent-gateway"

/-- `WORKER_SOURCE`. -/
def workerSource : String := "trpc-agent-platform://agent-worker"

/-- The partition key of a Session, `f"{tenant_id}:{session_id}"`. -/
def sessionPartitionKey (tenantId : Uuid) (sessionId : String) : String :=
  tenantId.str ++ ":" ++ sessionId

/-- The single row of `platform.execution_admission_bucket`. -/
structure AdmissionBucket where
  tokens : ℚ
  lastRefillAt : Timestamp
  deriving DecidableEq, Repr

/-! ## The database -/

/-- **The tables of the execution plane.** -/
structure ExecutionDb where
  sessions : Uuid → String → Option AgentSession
  leases : Uuid → String → Option SessionLease
  events : List SessionEventRow
  executions : List AgentExecution
  outbox : List OutboxRecord
  bucket : AdmissionBucket

namespace ExecutionDb

/-- The database after the migrations, before any request. -/
def empty (now : Timestamp) : ExecutionDb where
  sessions := fun _ _ => none
  leases := fun _ _ => none
  events := []
  executions := []
  outbox := []
  bucket := ⟨180000, now⟩

/-- Replace one entry of a table keyed by tenant and name. -/
def setEntry {α : Type} (table : Uuid → String → Option α) (tenantId : Uuid) (name : String)
    (row : α) : Uuid → String → Option α :=
  fun t n => if t = tenantId ∧ n = name then some row else table t n

@[simp] theorem setEntry_self {α : Type} (table : Uuid → String → Option α) (t : Uuid)
    (n : String) (row : α) : setEntry table t n row t n = some row := by
  simp [setEntry]

theorem setEntry_of_ne {α : Type} (table : Uuid → String → Option α) {t t' : Uuid}
    {n n' : String} (row : α) (h : ¬ (t' = t ∧ n' = n)) :
    setEntry table t n row t' n' = table t' n' := by
  simp [setEntry, h]

/-- The execution a message of a tenant was accepted as. -/
def executionByMessage (db : ExecutionDb) (tenantId : Uuid) (messageId : String) :
    Option AgentExecution :=
  db.executions.find? (fun e => e.tenantId = tenantId ∧ e.messageId = messageId)

/-- An Outbox record may be inserted: `id` and `(tenant_id, message_id)` are
unique. -/
def outboxFresh (db : ExecutionDb) (rec : OutboxRecord) : Bool :=
  db.outbox.all (fun r => r.id ≠ rec.id
    ∧ ¬ (r.tenantId = rec.tenantId ∧ r.messageId = rec.messageId))

/-- The events of a Session, in the order they were appended. -/
def eventsOf (db : ExecutionDb) (tenantId : Uuid) (sessionId : String) :
    List SessionEventRow :=
  db.events.filter (fun e => e.tenantId = tenantId ∧ e.sessionId = sessionId)

end ExecutionDb
