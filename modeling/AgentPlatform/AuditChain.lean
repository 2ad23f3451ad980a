import Mathlib
import AgentPlatform.HashChain
import AgentPlatform.JsonCanonical
import AgentPlatform.ExecutionStore

/-!
# The audit hash chain and its verification

The embedding of `audit_chain/chain.py`. An audit event is hashed as the
canonical text of nine of its fields, and the hash is mixed into the head of
its tenant's chain. `verify_tenant_chain` recomputes the chain from the rows of
`platform.audit_event` and compares it with the hashes stored in them.

`sha256` and the conversion of a time to microseconds are parameters. The
conversion goes through floating point, and only its being a function matters:
the two writers and the verifier call it on the same time.

The head of a valid chain determines the fingerprints of all its events, as
far as `sha256` is free of collisions: an event is read back from its
canonical text, and the history from the head.
-/

/-- The primitives the chain is computed with. -/
structure AuditHashing where
  sha256 : String → String
  /-- `int(occurred_at.timestamp() * 1_000_000)`. -/
  occurredEpochMicros : Timestamp → ℤ

/-- `GENESIS_HASH`. -/
def genesisHash : String := String.ofList (List.replicate 64 '0')

/-- **The fields hashed into the chain.** -/
structure Fingerprint where
  id : String
  occurredAt : ℤ
  actor : String
  authMethod : String
  action : String
  decision : String
  targetType : Option String
  targetId : Option String
  details : JsonDoc

namespace Fingerprint

/-- The dictionary `fingerprint` returns. -/
def json (f : Fingerprint) : Json :=
  .obj
    [("id", .str f.id),
     ("occurred_at", .num (Int.repr f.occurredAt)),
     ("actor", .str f.actor),
     ("auth_method", .str f.authMethod),
     ("action", .str f.action),
     ("decision", .str f.decision),
     ("target_type", Json.ofOption f.targetType),
     ("target_id", Json.ofOption f.targetId),
     ("details", f.details.1)]

/-- `canonical_event_json`. -/
def canonicalEventJson (f : Fingerprint) : String := f.json.dumps

/-- **`event_hash`.** -/
def eventHash (A : AuditHashing) (f : Fingerprint) : String := A.sha256 f.canonicalEventJson

/-- **Two fingerprints are equal** as dictionaries are: field by field, and the
details without regard to the order of their keys. -/
def Same (f g : Fingerprint) : Prop :=
  { f with details := ⟨.null, trivial⟩ } = { g with details := ⟨.null, trivial⟩ }
    ∧ f.details.1.canon = g.details.1.canon

end Fingerprint

/-- **`chain_hash`.** -/
def chainHash (A : AuditHashing) (previousHash currentEventHash : String) : String :=
  A.sha256 (previousHash ++ ":" ++ currentEventHash)

/-! ## Rows -/

/-- A row of `platform.audit_event`. -/
structure AuditEvent where
  id : Uuid
  tenantId : Option Uuid
  occurredAt : Timestamp
  actor : String
  authMethod : String
  action : String
  decision : String
  targetType : Option String
  targetId : Option String
  details : JsonDoc
  traceId : Option String
  chainIndex : Option ℤ
  eventHash : Option String
  prevEventHash : Option String

/-- `str` of a nullable text. -/
def strOrNone : Option String → String
  | none => "None"
  | some s => s

namespace Json

/-- The value counts as false in a condition. -/
def isFalsy : Json → Bool
  | .null => true
  | .bool b => !b
  | .num literal => (literal.toList.takeWhile (fun c => c ≠ 'e' && c ≠ 'E')).all
      (fun c => !c.isDigit || c = '0')
  | .str s => s = ""
  | .arr items => items.isEmpty
  | .obj fields => fields.isEmpty

end Json

/-- An empty dictionary. -/
def emptyDict : JsonDoc := ⟨.obj [], trivial⟩

/-- `details or {}`. -/
def orEmpty (details : JsonDoc) : JsonDoc := if details.1.isFalsy then emptyDict else details

namespace AuditEvent

/-- The fingerprint `verify_tenant_chain` computes from a stored row. -/
def storedFingerprint (A : AuditHashing) (e : AuditEvent) : Fingerprint where
  id := e.id.str
  occurredAt := A.occurredEpochMicros e.occurredAt
  actor := e.actor
  authMethod := e.authMethod
  action := e.action
  decision := e.decision
  targetType := e.targetType
  targetId := e.targetId
  details := orEmpty e.details

/-- The hash recomputed from a stored row. -/
def recomputed (A : AuditHashing) (e : AuditEvent) : String := (e.storedFingerprint A).eventHash A

/-- The hash stored in a row. -/
def storedHash (e : AuditEvent) : String := strOrNone e.eventHash

/-- The head stored in a row. -/
def storedPrev (e : AuditEvent) : String := strOrNone e.prevEventHash

end AuditEvent

/-- What `verify_tenant_chain` returns. -/
inductive ChainReport where
  | valid (events : ℕ) (chainHead : String)
  | broken (index : ℤ) (expectedPrev : String) (storedPrev : Option String)
  deriving DecidableEq

/-- The chained rows of a tenant, in the order of their index. -/
def chainRows (tenantId : Uuid) (rows : List AuditEvent) : List AuditEvent :=
  (rows.filter (fun e => e.tenantId = some tenantId && e.chainIndex.isSome)).insertionSort
    (fun a b => a.chainIndex.getD 0 ≤ b.chainIndex.getD 0)

/-- The loop of `verify_tenant_chain`. -/
def verifyRows (A : AuditHashing) (previous : String) (count : ℕ) : List AuditEvent → ChainReport
  | [] => .valid count previous
  | row :: rows =>
    if row.recomputed A ≠ row.storedHash ∨ previous ≠ row.storedPrev then
      .broken (row.chainIndex.getD 0) previous row.prevEventHash
    else verifyRows A (chainHash A previous (row.recomputed A)) (count + 1) rows

/-- **`verify_tenant_chain`.** -/
def verifyTenantChain (A : AuditHashing) (tenantId : Uuid) (rows : List AuditEvent) :
    ChainReport :=
  verifyRows A genesisHash 0 (chainRows tenantId rows)

/-! ## What a valid report means -/

open HashChain

/-- The rows are a chain from a head on: each stored hash is that of its row,
and each stored head the head of the rows before it. -/
abbrev AuditLinked (A : AuditHashing) (rows : List AuditEvent) : Prop :=
  Linked (chainHash A) genesisHash (fun e => e.recomputed A) AuditEvent.storedHash
    AuditEvent.storedPrev rows

/-- The head of the events of rows. -/
abbrev auditHead (A : AuditHashing) (rows : List AuditEvent) : String :=
  head (chainHash A) genesisHash (rows.map (fun e => e.recomputed A))

section Verify

variable {A : AuditHashing}

/-- **The loop accepts exactly the chains**, and reports their length and
head. -/
theorem verifyRows_valid_iff {previous : String} {count n : ℕ} {h : String}
    {rows : List AuditEvent} :
    verifyRows A previous count rows = .valid n h
      ↔ LinkedFrom (chainHash A) (fun e => e.recomputed A) AuditEvent.storedHash
          AuditEvent.storedPrev previous rows
        ∧ n = count + rows.length
        ∧ h = head (chainHash A) previous (rows.map (fun e => e.recomputed A)) := by
  induction rows generalizing previous count with
  | nil =>
    simp only [verifyRows, ChainReport.valid.injEq, LinkedFrom, true_and, List.length_nil,
      Nat.add_zero, List.map_nil, head_nil]
    exact and_congr eq_comm eq_comm
  | cons row rows ih =>
    unfold verifyRows
    by_cases hbad : row.recomputed A ≠ row.storedHash ∨ previous ≠ row.storedPrev
    · rw [if_pos hbad]
      refine ⟨fun hreport => absurd hreport (by simp), ?_⟩
      rintro ⟨⟨⟨hhash, hprev⟩, -⟩, -⟩
      exact absurd hbad (by simp [hhash, hprev])
    · rw [if_neg hbad, ih]
      obtain ⟨hhash, hprev⟩ := not_or.mp hbad
      rw [not_not] at hhash hprev
      simp only [LinkedFrom, hhash, hprev, List.length_cons, List.map_cons, head_cons, and_self,
        true_and]
      rw [Nat.add_right_comm, Nat.add_assoc]

theorem verifyTenantChain_valid_iff {t : Uuid} {rows : List AuditEvent} {n : ℕ} {h : String} :
    verifyTenantChain A t rows = .valid n h
      ↔ AuditLinked A (chainRows t rows) ∧ n = (chainRows t rows).length
        ∧ h = auditHead A (chainRows t rows) := by
  unfold verifyTenantChain
  rw [verifyRows_valid_iff, Nat.zero_add]
  rfl

end Verify

/-! ## The encoding of an event -/

section Encoding

theorem isNumber_repr (n : ℤ) : Json.isNumber (Int.repr n) = true := by
  have hdigits : ∀ m : ℕ, (Nat.repr m).toList.all Json.isNumberChar = true := by
    intro m
    refine List.all_eq_true.mpr (fun c hc => ?_)
    rw [Nat.toList_repr] at hc
    have hd : c.isDigit = true := Nat.isDigit_of_mem_toDigits (by decide) (by decide) hc
    simp [Json.isNumberChar, hd]
  unfold Json.isNumber
  cases n with
  | ofNat m =>
    show (!(Nat.repr m).toList.isEmpty && (Nat.repr m).toList.all Json.isNumberChar) = true
    rw [hdigits m, Nat.toList_repr]
    simp [Nat.toDigits_ne_nil]
  | negSucc m =>
    show (!("-" ++ Nat.repr (m + 1)).toList.isEmpty
      && ("-" ++ Nat.repr (m + 1)).toList.all Json.isNumberChar) = true
    rw [String.toList_append, List.all_append, hdigits]
    simp [Json.isNumberChar]

theorem Fingerprint.json_wellFormed (f : Fingerprint) : f.json.WellFormed := by
  have hoption : ∀ o : Option String, (Json.ofOption o).WellFormed := by
    intro o
    cases o <;> exact trivial
  exact ⟨trivial, isNumber_repr _, trivial, trivial, trivial, trivial, hoption _, hoption _,
    f.details.2, trivial⟩

theorem ofOption_canon (o : Option String) : (Json.ofOption o).canon = Json.ofOption o := by
  cases o <;> rfl

theorem ofOption_injective : Function.Injective Json.ofOption := by
  intro o p h
  cases o <;> cases p <;> simp_all [Json.ofOption]

/-- The keys of a fingerprint are sorted once and for all. -/
theorem Fingerprint.json_canon (f : Fingerprint) :
    f.json.canon = .obj
      [("action", .str f.action),
       ("actor", .str f.actor),
       ("auth_method", .str f.authMethod),
       ("decision", .str f.decision),
       ("details", f.details.1.canon),
       ("id", .str f.id),
       ("occurred_at", .num (Int.repr f.occurredAt)),
       ("target_id", Json.ofOption f.targetId),
       ("target_type", Json.ofOption f.targetType)] := by
  have hsorted : f.json.canon = .obj (List.insertionSort (fun a b => a.1 ≤ b.1)
      [("id", .str f.id),
       ("occurred_at", .num (Int.repr f.occurredAt)),
       ("actor", .str f.actor),
       ("auth_method", .str f.authMethod),
       ("action", .str f.action),
       ("decision", .str f.decision),
       ("target_type", (Json.ofOption f.targetType).canon),
       ("target_id", (Json.ofOption f.targetId).canon),
       ("details", f.details.1.canon)]) := rfl
  rw [hsorted, ofOption_canon, ofOption_canon]
  simp [List.insertionSort, List.orderedInsert]

/-- **An event is read back from its canonical text.** -/
theorem Fingerprint.same_of_canonicalEventJson {f g : Fingerprint}
    (h : f.canonicalEventJson = g.canonicalEventJson) : f.Same g := by
  have hcanon := Json.canon_eq_of_dumps f.json_wellFormed g.json_wellFormed h
  rw [f.json_canon, g.json_canon] at hcanon
  simp only [Json.obj.injEq, List.cons.injEq, Prod.mk.injEq, Json.str.injEq, Json.num.injEq,
    true_and, and_true] at hcanon
  obtain ⟨haction, hactor, hmethod, hdecision, hdetails, hid, htime, htarget, htype⟩ := hcanon
  refine ⟨?_, hdetails⟩
  rw [Fingerprint.mk.injEq]
  exact ⟨hid, Int.repr_injective htime, hactor, hmethod, haction, hdecision,
    ofOption_injective htype, ofOption_injective htarget, rfl⟩

end Encoding

/-! ## The head binds the history -/

/-- **`sha256` as an ideal hash**: no two texts have one digest, digests are
written in hexadecimal, and none of them is the genesis hash. -/
structure AuditHashing.CollisionFree (A : AuditHashing) : Prop where
  injective : Function.Injective A.sha256
  hexadecimal : ∀ text, ∀ c ∈ (A.sha256 text).toList, c ∈ "0123456789abcdef".toList
  genesis : ∀ text, A.sha256 text ≠ genesisHash

/-- A text without a separator ends at the first separator. -/
theorem separator_inj {c : Char} {p q x y : List Char} (hp : c ∉ p) (hq : c ∉ q)
    (h : p ++ c :: x = q ++ c :: y) : p = q ∧ x = y := by
  induction p generalizing q with
  | nil =>
    cases q with
    | nil => exact ⟨rfl, (List.cons.inj h).2⟩
    | cons d q => exact absurd (List.cons.inj h).1 (fun hd => hq (by simp [← hd]))
  | cons c p ih =>
    cases q with
    | nil => exact absurd (List.cons.inj h).1 (fun hc => hp (by simp [hc]))
    | cons d q =>
      obtain ⟨rfl, hrest⟩ := List.cons.inj h
      obtain ⟨rfl, rfl⟩ := ih (fun hm => hp (by simp [hm])) (fun hm => hq (by simp [hm])) hrest
      exact ⟨rfl, rfl⟩

section Binding

variable {A : AuditHashing}

theorem toList_genesisHash : genesisHash.toList = List.replicate 64 '0' := String.toList_ofList

/-- A head is written without a colon. -/
theorem AuditHashing.CollisionFree.head_colon (hA : A.CollisionFree) (es : List String) :
    ':' ∉ (head (chainHash A) genesisHash es).toList := by
  have hzero : ':' ∉ genesisHash.toList := by
    rw [toList_genesisHash]
    simp
  refine head_of_step (G := fun h : String => ':' ∉ h.toList) hzero (fun h e _ => ?_) es
  · intro hcolon
    have hhex := hA.hexadecimal _ ':' hcolon
    revert hhex
    decide

theorem AuditHashing.CollisionFree.chainHash_inj (hA : A.CollisionFree) {p e p' e' : String}
    (hp : ':' ∉ p.toList) (hp' : ':' ∉ p'.toList) (h : chainHash A p e = chainHash A p' e') :
    p = p' ∧ e = e' := by
  have htext := congrArg String.toList (hA.injective h)
  rw [String.toList_append, String.toList_append, String.toList_append, String.toList_append,
    List.append_assoc, List.append_assoc] at htext
  obtain ⟨hpp, hee⟩ := separator_inj hp hp' htext
  exact ⟨String.toList_inj.mp hpp, String.toList_inj.mp hee⟩

/-- **The head determines the hashes of the events.** -/
theorem AuditHashing.CollisionFree.head_injective (hA : A.CollisionFree) :
    Function.Injective (head (chainHash A) genesisHash) :=
  HashChain.head_injective (G := fun h : String => ':' ∉ h.toList) hA.head_colon
    (fun _ _ _ _ hp hp' h => hA.chainHash_inj hp hp' h) (fun _ _ => hA.genesis _)

/-- **The head of a valid chain binds the history**: two tables whose chains
verify with one head hold the same events, one by one. -/
theorem chain_head_binds (hA : A.CollisionFree) {t t' : Uuid} {rows rows' : List AuditEvent}
    {n n' : ℕ} {h : String} (hrows : verifyTenantChain A t rows = .valid n h)
    (hrows' : verifyTenantChain A t' rows' = .valid n' h) :
    n = n' ∧ (chainRows t rows).length = (chainRows t' rows').length
      ∧ List.Forall₂ (fun e e' => (e.storedFingerprint A).Same (e'.storedFingerprint A))
        (chainRows t rows) (chainRows t' rows') := by
  obtain ⟨-, hn, hh⟩ := verifyTenantChain_valid_iff.mp hrows
  obtain ⟨-, hn', hh'⟩ := verifyTenantChain_valid_iff.mp hrows'
  have hhashes := hA.head_injective (hh.symm.trans hh')
  have hlength : (chainRows t rows).length = (chainRows t' rows').length := by
    have hlen := congrArg List.length hhashes
    rwa [List.length_map, List.length_map] at hlen
  refine ⟨by rw [hn, hn', hlength], hlength, ?_⟩
  rw [← List.forall₂_eq_eq_eq, List.forall₂_map_left_iff, List.forall₂_map_right_iff] at hhashes
  exact hhashes.imp (fun _ _ hash =>
    Fingerprint.same_of_canonicalEventJson (hA.injective hash))

end Binding

/-! ## A sample -/

/-- The details of an event, with the keys in either order. -/
def sampleDetails : Bool → JsonDoc
  | true => ⟨.obj [("b", .num "1"), ("a", .str "x")], isNumber_repr 1, trivial, trivial⟩
  | false => ⟨.obj [("a", .str "x"), ("b", .num "1")], trivial, isNumber_repr 1, trivial⟩

/-- One event of a tenant, as it is stored. -/
def sampleEvent (swap : Bool) (traceId : Option String) : AuditEvent where
  id := 1
  tenantId := some 7
  occurredAt := 5
  actor := "ops"
  authMethod := "oidc"
  action := "agent.create"
  decision := "ALLOW"
  targetType := some "agent"
  targetId := none
  details := sampleDetails swap
  traceId := traceId
  chainIndex := some 1
  eventHash := some "b72b4798fbcc24e1e804410777237a37b58186c608c9d61a45d830db2ce0c8f8"
  prevEventHash := some genesisHash

/-- An injective code in two letters. -/
def unaryCode (text : String) : String :=
  String.ofList (text.toList.flatMap (fun c => List.replicate c.toNat 'a' ++ ['b']))

theorem unaryCode_injective : Function.Injective unaryCode := by
  intro s t h
  have hflat : s.toList.flatMap (fun c => List.replicate c.toNat 'a' ++ ['b'])
      = t.toList.flatMap (fun c => List.replicate c.toNat 'a' ++ ['b']) := by
    simpa [unaryCode] using congrArg String.toList h
  refine String.toList_inj.mp ?_
  generalize s.toList = us at hflat ⊢
  generalize t.toList = vs at hflat ⊢
  have hnot : ∀ n : ℕ, 'b' ∉ List.replicate n 'a' := by
    intro n hb
    exact absurd (List.eq_of_mem_replicate hb) (by decide)
  induction us generalizing vs with
  | nil =>
    cases vs with
    | nil => rfl
    | cons v vs => simp at hflat
  | cons u us ih =>
    cases vs with
    | nil => simp at hflat
    | cons v vs =>
      rw [List.flatMap_cons, List.flatMap_cons, List.append_assoc, List.append_assoc] at hflat
      obtain ⟨huv, hrest⟩ := separator_inj (hnot _) (hnot _) hflat
      have hlen := congrArg List.length huv
      rw [List.length_replicate, List.length_replicate] at hlen
      rw [ih vs hrest, ← Char.ofNat_toNat u, hlen, Char.ofNat_toNat]

theorem mem_unaryCode {text : String} {c : Char} (h : c ∈ (unaryCode text).toList) :
    c = 'a' ∨ c = 'b' := by
  rw [unaryCode, String.toList_ofList, List.mem_flatMap] at h
  obtain ⟨d, -, hc⟩ := h
  rcases List.mem_append.mp hc with hc | hc
  · exact .inl (List.eq_of_mem_replicate hc)
  · exact .inr (List.mem_singleton.mp hc)

/-- The text of the event, and of its chain. -/
def sampleText : String := ((sampleEvent false none).storedFingerprint ⟨id, id⟩).canonicalEventJson

/-- The digests of the sample, and a code for every other text. -/
def sampleHashing : AuditHashing where
  sha256 text :=
    if text = sampleText then
      "b72b4798fbcc24e1e804410777237a37b58186c608c9d61a45d830db2ce0c8f8"
    else if text = genesisHash ++ ":"
        ++ "b72b4798fbcc24e1e804410777237a37b58186c608c9d61a45d830db2ce0c8f8" then
      "fd75767ad1703aff879ce2ffe35fa1026d146520335bc644438118ee2a45c15e"
    else unaryCode text
  occurredEpochMicros := id

theorem sampleHashing_collisionFree : sampleHashing.CollisionFree := by
  have hcode : ∀ text : String, ∀ c ∈ ['0', '7'], c ∉ (unaryCode text).toList := by
    intro text c hc hmem
    rcases mem_unaryCode hmem with rfl | rfl <;> simp at hc
  have hne : ∀ (text : String) {digest : String} {c : Char}, c ∈ ['0', '7'] →
      c ∈ digest.toList → unaryCode text ≠ digest := by
    rintro text digest c hc hmem rfl
    exact hcode text c hc hmem
  refine ⟨?_, ?_, ?_⟩
  · intro s t h
    simp only [sampleHashing] at h
    split at h
    · split at h
      · simp_all
      · split at h
        · exact absurd h (by decide)
        · exact absurd h.symm (hne t (c := '7') (by decide) (by decide))
    · split at h
      · split at h
        · exact absurd h (by decide)
        · split at h
          · simp_all
          · exact absurd h.symm (hne t (c := '7') (by decide) (by decide))
      · split at h
        · exact absurd h (hne s (c := '7') (by decide) (by decide))
        · split at h
          · exact absurd h (hne s (c := '7') (by decide) (by decide))
          · exact unaryCode_injective h
  · have hdigests : ("b72b4798fbcc24e1e804410777237a37b58186c608c9d61a45d830db2ce0c8f8".toList.all
          (fun c => "0123456789abcdef".toList.contains c)) = true
        ∧ ("fd75767ad1703aff879ce2ffe35fa1026d146520335bc644438118ee2a45c15e".toList.all
          (fun c => "0123456789abcdef".toList.contains c)) = true := by
      decide +kernel
    intro text c hc
    simp only [sampleHashing] at hc
    split at hc
    · exact List.contains_iff_mem.mp (List.all_eq_true.mp hdigests.1 c hc)
    · split at hc
      · exact List.contains_iff_mem.mp (List.all_eq_true.mp hdigests.2 c hc)
      · rcases mem_unaryCode hc with rfl | rfl <;> decide +kernel
  · intro text
    simp only [sampleHashing]
    split
    · decide +kernel
    · split
      · decide +kernel
      · exact hne text (c := '0') (by decide) (by decide +kernel)

/-- Two tables with one head: the keys of the details come in another order,
and the trace, which is no part of the chain, differs. -/
theorem chain_head_binds_sample :
    sampleHashing.CollisionFree
      ∧ verifyTenantChain sampleHashing 7 [sampleEvent false none]
        = .valid 1 "fd75767ad1703aff879ce2ffe35fa1026d146520335bc644438118ee2a45c15e"
      ∧ List.Forall₂ (fun e e' => (e.storedFingerprint sampleHashing).Same
          (e'.storedFingerprint sampleHashing))
        (chainRows 7 [sampleEvent false none]) (chainRows 7 [sampleEvent true (some "trace")]) := by
  have hone : verifyTenantChain sampleHashing 7 [sampleEvent false none]
      = .valid 1 "fd75767ad1703aff879ce2ffe35fa1026d146520335bc644438118ee2a45c15e" := by
    decide +kernel
  have htwo : verifyTenantChain sampleHashing 7 [sampleEvent true (some "trace")]
      = .valid 1 "fd75767ad1703aff879ce2ffe35fa1026d146520335bc644438118ee2a45c15e" := by
    decide +kernel
  exact ⟨sampleHashing_collisionFree, hone,
    (chain_head_binds sampleHashing_collisionFree hone htwo).2.2⟩
