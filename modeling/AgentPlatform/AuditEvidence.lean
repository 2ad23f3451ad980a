import AgentPlatform.AuditPlane

/-!
# What the audit trail proves

Every committed state has sound chains: they verify, and the state row of a
tenant is the length and head of its chain. Two writers append to a chain, but
whoever appends holds its lock from the moment it reads the head to the end of
its transaction. In between the chain and its state row disagree by the one
event that has a place and is not yet inserted (`Placing`).

What the verifier recomputes from a stored row is what the writer hashed
(`storedFingerprint_same`): the details have been through a `jsonb` column,
which may have changed the order of their keys and nothing else.

The verification of a tenant's evidence compares chain and manifests each with
itself and not with one another. Manifests are signed when they are inserted
and stay so, so tampering is noticed exactly when the rows that are left are no
chain.
-/

open HashChain

/-! ## Rows -/

/-- What a row lock protects. -/
abbrev AuditLook : AuditRow → Type
  | .chain _ => Option ChainState × List AuditEvent
  | .event _ => List AuditEvent
  | .outbox _ => List AuditOutboxRow
  | .manifest .. => List AuditManifest

/-- The rows of the audit tables. -/
def auditLook : (k : AuditRow) → AuditDb → AuditLook k
  | .chain t, db => (db.chainState t, db.chained t)
  | .event id, db => db.events.filter (fun e => e.row = .event id)
  | .outbox id, db => db.outbox.filter (fun r => r.id = id)
  | .manifest t i, db => db.manifests.filter (fun m => m.tenantId = t ∧ m.manifestIndex = i)

theorem AuditEvent.row_eq_chain {e : AuditEvent} {t : Uuid} : e.row = .chain t ↔ e.chain
    = some t := by
  unfold AuditEvent.row
  cases e.chain <;> simp

/-- Marking rows as dispatched moves no row to another id. -/
theorem outbox_filter_map (id id' : Uuid) (rows : List AuditOutboxRow) :
    (rows.map (fun r => if r.id = id then { r with dispatched := true } else r)).filter
        (fun r => r.id = id')
      = (rows.filter (fun r => r.id = id')).map
        (fun r => if r.id = id then { r with dispatched := true } else r) := by
  rw [List.filter_map]
  congr 1
  refine List.filter_congr (fun r _ => ?_)
  by_cases h : r.id = id <;> simp [h]

theorem auditLook_apply (w : AuditWrite) (db : AuditDb) (k : AuditRow) (h : w.key ≠ k) :
    auditLook k (w.apply db) = auditLook k db := by
  cases w with
  | setChainState t row =>
    cases k with
    | chain t' =>
      have hne : t' ≠ t := fun ht => h (by rw [ht]; rfl)
      show (Function.update db.chainState t _ t', _) = _
      rw [Function.update_of_ne hne]
      rfl
    | _ => rfl
  | insertEvent e =>
    cases k with
    | chain t =>
      have hne : e.chain ≠ some t := fun ht => h (AuditEvent.row_eq_chain.mpr ht)
      simp [auditLook, AuditWrite.apply, AuditDb.chained, hne]
    | event id =>
      have hne : e.row ≠ .event id := h
      simp [auditLook, AuditWrite.apply, hne]
    | _ => rfl
  | insertOutbox row =>
    cases k with
    | outbox id =>
      have hne : row.id ≠ id := fun hid => h (by rw [← hid]; rfl)
      simp [auditLook, AuditWrite.apply, hne]
    | _ => rfl
  | setDispatched id =>
    cases k with
    | outbox id' =>
      have hne : id' ≠ id := fun hid => h (by rw [hid]; rfl)
      show (db.outbox.map _).filter _ = db.outbox.filter _
      rw [outbox_filter_map]
      refine (List.map_congr_left (fun r hr => ?_)).trans (List.map_id _)
      have hid : r.id = id' := of_decide_eq_true (List.mem_filter.mp hr).2
      exact if_neg (fun hr' => hne (hid.symm.trans hr'))
    | _ => rfl
  | insertManifest m =>
    cases k with
    | manifest t i =>
      have hne : ¬ (m.tenantId = t ∧ m.manifestIndex = i) := by
        rintro ⟨rfl, rfl⟩
        exact h rfl
      simp [auditLook, AuditWrite.apply, hne]
    | _ => rfl

theorem auditLook_congr (w : AuditWrite) (db db' : AuditDb) (k : AuditRow)
    (h : auditLook k db = auditLook k db') :
    auditLook k (w.apply db) = auditLook k (w.apply db') := by
  cases w with
  | setChainState t row =>
    cases k with
    | chain t' =>
      obtain ⟨hstate, hevents⟩ := Prod.mk.inj h
      show (Function.update db.chainState t _ t', db.chained t')
        = (Function.update db'.chainState t _ t', db'.chained t')
      rw [hevents]
      by_cases ht : t' = t
      · rw [ht, Function.update_self, Function.update_self]
      · rw [Function.update_of_ne ht, Function.update_of_ne ht, hstate]
    | _ => exact h
  | insertEvent e =>
    cases k with
    | chain t =>
      obtain ⟨hstate, hevents⟩ := Prod.mk.inj h
      show (db.chainState t, (db.events ++ [e]).filter _)
        = (db'.chainState t, (db'.events ++ [e]).filter _)
      rw [List.filter_append, List.filter_append, hstate]
      exact congrArg (fun l => (db'.chainState t, l ++ _)) hevents
    | event id =>
      show (db.events ++ [e]).filter _ = (db'.events ++ [e]).filter _
      rw [List.filter_append, List.filter_append]
      exact congrArg (· ++ _) h
    | _ => exact h
  | insertOutbox row =>
    cases k with
    | outbox id =>
      show (db.outbox ++ [row]).filter _ = (db'.outbox ++ [row]).filter _
      rw [List.filter_append, List.filter_append]
      exact congrArg (· ++ _) h
    | _ => exact h
  | setDispatched id =>
    cases k with
    | outbox id' =>
      show (db.outbox.map _).filter _ = (db'.outbox.map _).filter _
      rw [outbox_filter_map, outbox_filter_map]
      exact congrArg _ h
    | _ => exact h
  | insertManifest m =>
    cases k with
    | manifest t i =>
      show (db.manifests ++ [m]).filter _ = (db'.manifests ++ [m]).filter _
      rw [List.filter_append, List.filter_append]
      exact congrArg (· ++ _) h
    | _ => exact h

/-- The writes of a statement are behind its locks. -/
theorem AuditOp.exec_locked (P : AuditPlatform) (a : AuditAnswer) (op : AuditOp) (db : AuditDb)
    (x : List WormObject) : ∀ w ∈ (op.exec P a db x).2.1, w.key ∈ op.locks db := by
  intro w hw
  cases op with
  | insertChainState t =>
    simp only [AuditOp.exec] at hw
    split at hw
    · cases hw
    · rename_i hnone
      rw [List.mem_singleton.mp hw]
      simp [AuditOp.locks, AuditWrite.key, hnone]
  | updateChainState t i h =>
    simp only [AuditOp.exec] at hw
    split at hw
    · rename_i hsome
      rw [List.mem_singleton.mp hw]
      simp [AuditOp.locks, AuditWrite.key, hsome]
    · cases hw
  | insertAuditEvent e =>
    simp only [AuditOp.exec] at hw
    split at hw
    · cases hw
    · rw [List.mem_singleton.mp hw]
      exact List.mem_cons_of_mem _ List.mem_cons_self
  | insertAuditOutbox row =>
    simp only [AuditOp.exec] at hw
    split at hw
    · cases hw
    · rw [List.mem_singleton.mp hw]
      exact List.mem_singleton.mpr rfl
  | markDispatched id =>
    rw [List.mem_singleton.mp hw]
    exact List.mem_singleton.mpr rfl
  | insertManifest m =>
    simp only [AuditOp.exec] at hw
    split at hw
    · cases hw
    · rw [List.mem_singleton.mp hw]
      exact List.mem_singleton.mpr rfl
  | wormPut b k c r =>
    simp only [AuditOp.exec] at hw
    split at hw <;> cases hw
  | _ => cases hw

/-- **The statements of the audit writers lock what they write.** -/
theorem auditEngine_lawful (P : AuditPlatform) : (auditEngine P).Lawful auditLook where
  look_apply := auditLook_apply
  look_congr := auditLook_congr
  exec_locked a op _ db x := op.exec_locked P a db x

/-! ## What is stored is what was hashed -/

section Stored

/-- Fingerprints that are the same have one canonical text. -/
theorem Fingerprint.Same.canonicalEventJson {f g : Fingerprint} (h : f.Same g) :
    f.canonicalEventJson = g.canonicalEventJson := by
  have hfields := h.1
  rw [Fingerprint.mk.injEq] at hfields
  obtain ⟨hid, htime, hactor, hmethod, haction, hdecision, htype, htarget, -⟩ := hfields
  refine String.toList_inj.mp ?_
  unfold Fingerprint.canonicalEventJson
  rw [Json.toList_dumps, Json.toList_dumps, f.json_canon, g.json_canon]
  rw [hid, htime, hactor, hmethod, haction, hdecision, htype, htarget, h.2]

/-- Sorting keys keeps what counts as false. -/
theorem Json.isFalsy_canon (j : Json) : j.canon.isFalsy = j.isFalsy := by
  have hitems : ∀ items : List Json, (Json.canonItems items).isEmpty = items.isEmpty := by
    intro items
    cases items <;> rfl
  have hfields : ∀ fields : List (String × Json),
      ((Json.canonFields fields).insertionSort (fun a b => a.1 ≤ b.1)).isEmpty
        = fields.isEmpty := by
    intro fields
    rw [Bool.eq_iff_iff, List.isEmpty_iff_length_eq_zero, List.length_insertionSort,
      ← List.isEmpty_iff_length_eq_zero]
    cases fields <;> simp [Json.canonFields]
  cases j with
  | arr items => exact hitems items
  | obj fields => exact hfields fields
  | _ => rfl

theorem orEmpty_canon {d d' : JsonDoc} (h : d.1.canon = d'.1.canon) :
    (orEmpty d).1.canon = (orEmpty d').1.canon := by
  have hfalsy : d.1.isFalsy = d'.1.isFalsy := by
    rw [← Json.isFalsy_canon, h, Json.isFalsy_canon]
  unfold orEmpty
  rw [hfalsy]
  split
  · rfl
  · exact h

theorem orEmpty_orEmpty (d : JsonDoc) : orEmpty (orEmpty d) = orEmpty d := by
  by_cases h : d.1.isFalsy = true
  · simp [orEmpty, h, emptyDict]
  · simp [orEmpty, h]

variable (P : AuditPlatform)

/-- Details that are never false come back from a column as they were. -/
theorem orEmpty_jsonb (d : JsonDoc) :
    (orEmpty (P.jsonb (orEmpty d))).1.canon = (orEmpty d).1.canon := by
  rw [orEmpty_canon (P.jsonb_canon (orEmpty d)), orEmpty_orEmpty]

/-- The row of an event as it is stored. -/
def AuditEvent.stored (e : AuditEvent) : AuditEvent := { e with details := P.jsonb e.details }

/-- An event is stored as what a fingerprint says. -/
def AuditEvent.StandsFor (e : AuditEvent) (f : Fingerprint) : Prop :=
  ((e.stored P).storedFingerprint P.toAuditHashing).Same f

variable {P}

/-- **What the verifier recomputes is what the writer hashed.** -/
theorem AuditEvent.StandsFor.recomputed {e : AuditEvent} {f : Fingerprint} (h : e.StandsFor P f) :
    (e.stored P).recomputed P.toAuditHashing = f.eventHash P.toAuditHashing := by
  show P.sha256 _ = P.sha256 _
  rw [Fingerprint.Same.canonicalEventJson h]

theorem AuditIntent.standsFor (i : AuditIntent) (eventId : Uuid) (at_ : Timestamp)
    (slot : ℤ × String × String) :
    ((i.event eventId at_).placed slot).StandsFor P
      (i.fingerprint P.toAuditHashing eventId at_) := by
  refine ⟨rfl, ?_⟩
  show (orEmpty (P.jsonb i.payload)).1.canon = i.payload.1.canon
  have hpayload : i.payload = orEmpty (i.details.getD emptyDict) := by
    unfold AuditIntent.payload
    cases i.details <;> rfl
  rw [hpayload, orEmpty_jsonb]

theorem AuditOutboxRow.standsFor (r : AuditOutboxRow) (tenantId eventId : Uuid)
    (slot : ℤ × String × String) :
    ((r.event tenantId eventId).placed slot).StandsFor P
      (r.fingerprint P.toAuditHashing eventId) :=
  ⟨rfl, orEmpty_jsonb P r.details⟩

end Stored

/-! ## The invariant -/

/-- **A chain is sound**: its events are numbered from one on, they are a chain,
and the state row has their number and head. -/
structure ChainOk (A : AuditHashing) (row : Option ChainState × List AuditEvent) : Prop where
  indexed : row.2.map AuditEvent.chainIndex
    = (List.range row.2.length).map (fun n : ℕ => some ((n : ℤ) + 1))
  linked : AuditLinked A row.2
  state : row.1.getD ⟨0, genesisHash⟩ = ⟨row.2.length, auditHead A row.2⟩

/-- **A place in a chain has been reserved** for an event with this hash: the
state row is one event ahead. -/
structure Placing (A : AuditHashing) (hash : String) (slot : ℤ × String × String)
    (row : Option ChainState × List AuditEvent) : Prop where
  indexed : row.2.map AuditEvent.chainIndex
    = (List.range row.2.length).map (fun n : ℕ => some ((n : ℤ) + 1))
  linked : AuditLinked A row.2
  slot_eq : slot = ((row.2.length : ℤ) + 1, hash, auditHead A row.2)
  state : row.1 = some ⟨(row.2.length : ℤ) + 1, chainHash A (auditHead A row.2) hash⟩

/-- The manifest carries the signature of its own document. -/
def AuditManifest.Signed (P : AuditPlatform) (settings : ManifestSettings) (m : AuditManifest) :
    Prop :=
  m.signature = signManifest P (m.document P) settings.signingKey

/-- **What the rows of the audit tables must look like.** -/
def auditOk (P : AuditPlatform) (settings : ManifestSettings) : (k : AuditRow) → AuditLook k → Prop
  | .chain _, row => ChainOk P.toAuditHashing row
  | .manifest .., ms => ∀ m ∈ ms, m.Signed P settings
  | _, _ => True

section Chain

variable {A : AuditHashing}

/-- A chain without a state row may get one. -/
theorem ChainOk.created {events : List AuditEvent} (h : ChainOk A (none, events)) :
    ChainOk A (some ⟨0, genesisHash⟩, events) :=
  ⟨h.indexed, h.linked, h.state⟩

/-- A row of a sound chain whose event has been reserved a place. -/
theorem ChainOk.placing {row : Option ChainState × List AuditEvent} {state : ChainState}
    (h : ChainOk A row) (hs : row.1 = some state) (hash : String) :
    Placing A hash (state.lastIndex + 1, hash, state.lastHash)
      (some ⟨state.lastIndex + 1, chainHash A state.lastHash hash⟩, row.2) := by
  have hstate : state = ⟨row.2.length, auditHead A row.2⟩ := by
    have heq := h.state
    rwa [hs, Option.getD_some] at heq
  refine ⟨h.indexed, h.linked, ?_, ?_⟩ <;> rw [hstate]

/-- **The event takes its place.** -/
theorem Placing.insert {row : Option ChainState × List AuditEvent} {hash : String}
    {slot : ℤ × String × String} (h : Placing A hash slot row) {e : AuditEvent}
    (hhash : e.recomputed A = hash) (hindex : e.chainIndex = some slot.1)
    (hstored : e.eventHash = some slot.2.1) (hprev : e.prevEventHash = some slot.2.2) :
    ChainOk A (row.1, row.2 ++ [e]) := by
  rw [h.slot_eq] at hindex hstored hprev
  refine ⟨?_, ?_, ?_⟩
  · show (row.2 ++ [e]).map _ = (List.range (row.2 ++ [e]).length).map _
    rw [List.length_append, List.length_singleton, List.range_succ, List.map_append,
      List.map_append, h.indexed, List.map_singleton, List.map_singleton, hindex]
  · refine (linked_snoc _ _ _ _ _ _ _).mpr ⟨h.linked, ?_, ?_⟩
    · rw [hhash]
      simp [AuditEvent.storedHash, hstored, strOrNone]
    · simp [AuditEvent.storedPrev, hprev, strOrNone]
  · rw [h.state, Option.getD_some]
    show _ = (⟨((row.2 ++ [e]).length : ℕ), auditHead A (row.2 ++ [e])⟩ : ChainState)
    simp [auditHead, hhash]

end Chain

/-! ## The programs keep the chains sound -/

section Programs

/-- A condition on each row of the audit tables. -/
abbrev AuditRows := (k : AuditRow) → AuditLook k → Prop

variable (P : AuditPlatform) (settings : ManifestSettings)

/-- The rows are in order, but for one chain, of which something else is
known. -/
def atChain (t : Uuid) (R : Option ChainState × List AuditEvent → Prop) : AuditRows
  | .chain t', row => if t' = t then R row else ChainOk P.toAuditHashing row
  | k, row => auditOk P settings k row

/-- A program of `pid` keeps the audit tables in order. -/
abbrev AuditKeeps (pid : ℕ) {α : Type} (p : AuditProg α)
    (Q : Except PyException α → AuditState → Prop) (s : AuditState) : Prop :=
  (auditEngine P).KeepsRows auditLook (auditOk P settings) (fun _ _ _ => True) pid p Q s

/-- What a transaction of `pid` sees of the audit tables. -/
abbrev AuditSees (R : AuditRows) (pid : ℕ) (s : AuditState) : Prop :=
  (auditEngine P).Sees auditLook (auditOk P settings) R pid s

/-- The program leaves the rows like this, if it returns. -/
abbrev Leaves {α : Type} (R : α → AuditRows) (pid : ℕ) : Except PyException α → AuditState → Prop :=
  Prog.outcome (fun a => AuditSees P settings (R a) pid) (fun _ _ => True)

variable {P settings} {pid : ℕ} {s : AuditState} {R : AuditRows} {t : Uuid}

theorem atChain_self {R : Option ChainState × List AuditEvent → Prop}
    {row : Option ChainState × List AuditEvent} :
    atChain P settings t R (.chain t) row ↔ R row := by
  simp [atChain]

theorem atChain_of_ne {R : Option ChainState × List AuditEvent → Prop} {k : AuditRow}
    (hk : k ≠ .chain t) (row : AuditLook k) :
    atChain P settings t R k row ↔ auditOk P settings k row := by
  cases k with
  | chain t' =>
    have hne : t' ≠ t := fun h => hk (by rw [h])
    simp [atChain, auditOk, hne]
  | _ => exact Iff.rfl

/-- **The rule for statements of the audit writers.** -/
theorem keeps_audit {op : AuditOp} {R' : AuditRes op → AuditRows}
    (hs : AuditSees P settings R pid s)
    (h : ∀ a db x r, (∀ k, R k (auditLook k db)) → (op.exec P a db x).1 = .ok r →
      (∀ k, R' r k (auditLook k ((auditEngine P).applyAll (op.exec P a db x).2.1 db)))
        ∧ ∀ k, k ∈ op.locks db ∨ ∀ row, R k row → R' r k row) :
    AuditKeeps P settings pid (audit op) (Leaves P settings R' pid) s :=
  Engine.keeps_rows (auditEngine_lawful P) hs (fun a _ db x r => h a db x r)

/-- Statements that only read. -/
theorem keeps_audit_read {op : AuditOp} (hread : ∀ a db x, (op.exec P a db x).2.1 = [])
    (hs : AuditSees P settings R pid s) :
    AuditKeeps P settings pid (audit op) (Leaves P settings (fun _ => R) pid) s := by
  refine keeps_audit hs (fun a db x r hrows _ => ⟨?_, fun k => .inr (fun _ h => h)⟩)
  rw [hread]
  exact hrows

/-- What one write makes of the rows. -/
theorem rows_write {R' : AuditRows} {w : AuditWrite} {db : AuditDb}
    (hrows : ∀ k, R k (auditLook k db)) (hkey : R' w.key (auditLook w.key (w.apply db)))
    (hother : ∀ k row, k ≠ w.key → R k row → R' k row) : ∀ k, R' k (auditLook k (w.apply db)) := by
  intro k
  by_cases hk : k = w.key
  · subst hk
    exact hkey
  · rw [auditLook_apply w db k (Ne.symm hk)]
    exact hother k _ hk (hrows k)

/-- **Locking the state row**: if it is there, it stays as it was read. -/
theorem keeps_selectChainState (hs : AuditSees P settings (auditOk P settings) pid s) :
    AuditKeeps P settings pid (audit (.selectChainState t)) (Leaves P settings (fun r =>
      match r with
      | none => auditOk P settings
      | some state => atChain P settings t
          (fun row => ChainOk P.toAuditHashing row ∧ row.1 = some state)) pid) s := by
  refine keeps_audit hs (fun a db x r hrows hr => ?_)
  have hr' : db.chainState t = r := Except.ok.inj hr
  cases r with
  | none => exact ⟨hrows, fun k => .inr (fun _ h => h)⟩
  | some state =>
    have hlock : (AuditRow.chain t) ∈ (AuditOp.selectChainState t).locks db := by
      simp [AuditOp.locks, hr']
    refine ⟨fun k => ?_, fun k => ?_⟩
    · by_cases hk : k = .chain t
      · subst hk
        exact atChain_self.mpr ⟨hrows (.chain t), hr'⟩
      · exact (atChain_of_ne hk _).mpr (hrows k)
    · by_cases hk : k = .chain t
      · exact .inl (hk ▸ hlock)
      · exact .inr (fun row hrow => (atChain_of_ne hk row).mpr hrow)

/-- Creating the state row leaves the chain sound. -/
theorem keeps_insertChainState (hs : AuditSees P settings (auditOk P settings) pid s) :
    AuditKeeps P settings pid (audit (.insertChainState t))
      (Leaves P settings (fun _ => auditOk P settings) pid) s := by
  refine keeps_audit hs (fun a db x r hrows _ => ⟨?_, fun k => .inr (fun _ h => h)⟩)
  by_cases hsome : (db.chainState t).isSome
  · simpa [AuditOp.exec, hsome] using hrows
  · have hnone : db.chainState t = none := by simpa using hsome
    simp only [AuditOp.exec, hsome, Bool.false_eq_true, if_false]
    refine rows_write (w := .setChainState t ⟨0, genesisHash⟩) hrows ?_ (fun _ _ _ h => h)
    have hok : ChainOk P.toAuditHashing (db.chainState t, db.chained t) := hrows (.chain t)
    rw [hnone] at hok
    show ChainOk P.toAuditHashing (Function.update db.chainState t _ t, db.chained t)
    rw [Function.update_self]
    exact hok.created

/-- **Advancing the state row reserves a place.** -/
theorem keeps_updateChainState {state : ChainState} (hash : String)
    (hs : AuditSees P settings (atChain P settings t
      (fun row => ChainOk P.toAuditHashing row ∧ row.1 = some state)) pid s) :
    AuditKeeps P settings pid
      (audit (.updateChainState t (state.lastIndex + 1)
        (chainHash P.toAuditHashing state.lastHash hash)))
      (Leaves P settings (fun _ => atChain P settings t (Placing P.toAuditHashing hash
        (state.lastIndex + 1, hash, state.lastHash))) pid) s := by
  refine keeps_audit hs (fun a db x r hrows _ => ?_)
  obtain ⟨hok, hstate⟩ := atChain_self.mp (hrows (.chain t))
  have hrow : db.chainState t = some state := hstate
  have hother : ∀ (k : AuditRow) (row : AuditLook k), k ≠ .chain t →
      atChain P settings t (fun row => ChainOk P.toAuditHashing row ∧ row.1 = some state) k row →
      atChain P settings t (Placing P.toAuditHashing hash
        (state.lastIndex + 1, hash, state.lastHash)) k row :=
    fun k row hk h => (atChain_of_ne hk row).mpr ((atChain_of_ne hk row).mp h)
  refine ⟨?_, fun k => ?_⟩
  · simp only [AuditOp.exec, hrow, Option.isSome_some, if_true]
    refine rows_write (w := .setChainState t _) hrows (atChain_self.mpr ?_) hother
    have hplacing := hok.placing hstate hash
    show Placing _ _ _ (Function.update db.chainState t _ t, _)
    rw [Function.update_self]
    exact hplacing
  · by_cases hk : k = .chain t
    · exact .inl (by rw [hk]; simp [AuditOp.locks, hrow])
    · exact .inr (fun row => hother k row hk)

/-- **`append_to_chain` reserves a place for the event.** -/
theorem keeps_appendToChain (f : Fingerprint)
    (hs : AuditSees P settings (auditOk P settings) pid s) :
    AuditKeeps P settings pid (appendToChain P.toAuditHashing t f)
      (Leaves P settings (fun slot => atChain P settings t
        (Placing P.toAuditHashing (f.eventHash P.toAuditHashing) slot)) pid) s := by
  have hlocked : ∀ (state : ChainState) (s : AuditState), AuditSees P settings
      (atChain P settings t (fun row => ChainOk P.toAuditHashing row ∧ row.1 = some state)) pid s →
      AuditKeeps P settings pid
        ((audit (.updateChainState t (state.lastIndex + 1)
          (chainHash P.toAuditHashing state.lastHash (f.eventHash P.toAuditHashing)))).bind
          (fun _ => .ret (state.lastIndex + 1, f.eventHash P.toAuditHashing, state.lastHash)))
        (Leaves P settings (fun slot => atChain P settings t
          (Placing P.toAuditHashing (f.eventHash P.toAuditHashing) slot)) pid) s := by
    intro state s hs
    exact (keeps_updateChainState (f.eventHash P.toAuditHashing) hs).bind (fun _ _ h => h)
      (fun _ _ _ => trivial)
  unfold appendToChain
  refine (keeps_selectChainState hs).bind (fun r s₁ hs₁ => ?_) (fun _ _ _ => trivial)
  cases r with
  | some state => exact hlocked state s₁ hs₁
  | none =>
    refine (keeps_insertChainState hs₁).bind (fun _ s₂ hs₂ => ?_) (fun _ _ _ => trivial)
    refine (keeps_selectChainState hs₂).bind (fun r s₃ hs₃ => ?_) (fun _ _ _ => trivial)
    cases r with
    | some state => exact hlocked state s₃ hs₃
    | none => trivial

/-- **The event takes the place reserved for it.** -/
theorem keeps_insertPlaced {e : AuditEvent} {f : Fingerprint} {slot : ℤ × String × String}
    (ht : e.tenantId = some t) (hf : (e.placed slot).StandsFor P f)
    (hs : AuditSees P settings (atChain P settings t
      (Placing P.toAuditHashing (f.eventHash P.toAuditHashing) slot)) pid s) :
    AuditKeeps P settings pid (audit (.insertAuditEvent (e.placed slot)))
      (Leaves P settings (fun _ => auditOk P settings) pid) s := by
  have hchain : (e.placed slot).chain = some t := by
    simp [AuditEvent.chain, AuditEvent.placed, ht]
  have hrow : (e.placed slot).row = .chain t := AuditEvent.row_eq_chain.mpr hchain
  have hother : ∀ (k : AuditRow) (row : AuditLook k), k ≠ .chain t →
      atChain P settings t (Placing P.toAuditHashing (f.eventHash P.toAuditHashing) slot) k row →
      auditOk P settings k row := fun k row hk h => (atChain_of_ne hk row).mp h
  refine keeps_audit hs (fun a db x r hrows hr => ⟨?_, fun k => ?_⟩)
  · simp only [AuditOp.exec] at hr ⊢
    split at hr
    · cases hr
    · rename_i hfresh
      rw [if_neg hfresh]
      have hkey : (AuditWrite.insertEvent ((e.placed slot).stored P)).key = .chain t := hrow
      refine rows_write (w := .insertEvent ((e.placed slot).stored P)) hrows ?_
        (fun k row hk => hother k row (hkey ▸ hk))
      rw [hkey]
      have hplace := atChain_self.mp (hrows (.chain t))
      have hsound := hplace.insert (e := (e.placed slot).stored P) hf.recomputed rfl rfl rfl
      have hlast : [(e.placed slot).stored P].filter (fun e => e.chain = some t)
          = [(e.placed slot).stored P] := by
        have hmem : ((e.placed slot).stored P).chain = some t := hchain
        simp [hmem]
      show ChainOk P.toAuditHashing
        (db.chainState t, (db.events ++ [(e.placed slot).stored P]).filter _)
      rw [List.filter_append, hlast]
      exact hsound
  · by_cases hk : k = .chain t
    · refine .inl ?_
      rw [hk, ← hrow]
      exact List.mem_cons_of_mem _ List.mem_cons_self
    · exact .inr (fun row => hother k row hk)

/-- Writes to rows nothing is said about. -/
theorem keeps_audit_other {op : AuditOp} (row : AuditRow)
    (hrow : ∀ r : AuditLook row, auditOk P settings row r)
    (hwrites : ∀ a db x r, (op.exec P a db x).1 = .ok r →
      ∃ w : AuditWrite, w.key = row ∧ (op.exec P a db x).2.1 = [w])
    (hs : AuditSees P settings (auditOk P settings) pid s) :
    AuditKeeps P settings pid (audit op) (Leaves P settings (fun _ => auditOk P settings) pid)
      s := by
  refine keeps_audit hs (fun a db x r hrows hr => ⟨?_, fun k => .inr (fun _ h => h)⟩)
  obtain ⟨w, rfl, hw⟩ := hwrites a db x r hr
  rw [hw]
  exact rows_write hrows (hrow _) (fun _ _ _ h => h)

/-- **`insert_audit` leaves the chains sound.** -/
theorem keeps_insertAudit (i : AuditIntent) (hs : AuditSees P settings (auditOk P settings) pid s) :
    AuditKeeps P settings pid (insertAudit P.toAuditHashing i)
      (Leaves P settings (fun _ => auditOk P settings) pid) s := by
  unfold insertAudit
  refine (keeps_audit_read (fun _ _ _ => rfl) hs).bind (fun eventId s₁ hs₁ => ?_)
    (fun _ _ _ => trivial)
  refine (keeps_audit_read (fun _ _ _ => rfl) hs₁).bind (fun occurredAt s₂ hs₂ => ?_)
    (fun _ _ _ => trivial)
  cases ht : i.tenantId with
  | none =>
    have hkey : (AuditWrite.insertEvent ((i.event eventId occurredAt).stored P)).key
        = .event eventId := by
      simp [AuditWrite.key, AuditEvent.row, AuditEvent.chain, AuditEvent.stored, AuditIntent.event]
    refine keeps_audit_other (.event eventId) (fun _ => trivial) (fun a db x r hr => ?_) hs₂
    simp only [AuditOp.exec] at hr ⊢
    split at hr
    · cases hr
    · rename_i hfresh
      rw [if_neg hfresh]
      exact ⟨_, hkey, rfl⟩
  | some t =>
    refine (keeps_appendToChain _ hs₂).bind (fun slot s₃ hs₃ => ?_) (fun _ _ _ => trivial)
    exact keeps_insertPlaced ht (i.standsFor eventId occurredAt slot) hs₃

theorem keeps_enqueueAudit (q : AuditEnqueue)
    (hs : AuditSees P settings (auditOk P settings) pid s) :
    AuditKeeps P settings pid (enqueueAudit q)
      (Leaves P settings (fun _ => auditOk P settings) pid) s := by
  unfold enqueueAudit
  refine (keeps_audit_read (fun _ _ _ => rfl) hs).bind (fun outboxId s₁ hs₁ => ?_)
    (fun _ _ _ => trivial)
  refine keeps_audit_other (.outbox outboxId) (fun _ => trivial) (fun a db x r hr => ?_) hs₁
  simp only [AuditOp.exec] at hr ⊢
  split at hr
  · cases hr
  · rename_i hfresh
    rw [if_neg hfresh]
    exact ⟨_, rfl, rfl⟩

/-- One turn of the dispatcher leaves the chains sound. -/
theorem keeps_dispatchRow (row : AuditOutboxRow)
    (hs : AuditSees P settings (auditOk P settings) pid s) :
    AuditKeeps P settings pid (AuditOutboxDispatcher.dispatchRow P.toAuditHashing t row)
      (Leaves P settings (fun _ => auditOk P settings) pid) s := by
  unfold AuditOutboxDispatcher.dispatchRow
  refine (keeps_audit_read (fun _ _ _ => rfl) hs).bind (fun eventId s₁ hs₁ => ?_)
    (fun _ _ _ => trivial)
  refine (keeps_appendToChain _ hs₁).bind (fun slot s₂ hs₂ => ?_) (fun _ _ _ => trivial)
  refine (keeps_insertPlaced rfl (row.standsFor t eventId slot) hs₂).bind (fun _ s₃ hs₃ => ?_)
    (fun _ _ _ => trivial)
  exact keeps_audit_other (.outbox row.id) (fun _ => trivial)
    (fun _ _ _ _ _ => ⟨_, rfl, rfl⟩) hs₃

/-- **`dispatch_pending` keeps the chains sound.** -/
theorem keeps_dispatchPending (batchSize : ℕ) :
    AuditKeeps P settings pid (AuditOutboxDispatcher.dispatchPending P.toAuditHashing t batchSize)
      (fun _ _ => True) s := by
  refine Engine.keeps_transaction_rows (auditEngine_lawful P) (fun s₁ hs₁ => ?_)
  refine (keeps_audit_read (fun _ _ _ => rfl) hs₁).bind (fun rows s₂ hs₂ => ?_)
    (fun _ _ _ => trivial)
  refine Prog.Safe.bind (Prog.safe_forEach (I := fun _ => AuditSees P settings
    (auditOk P settings) pid) (F := fun _ _ => True) (fun row _ s hs => ?_) hs₂)
    (fun _ _ h => h) (fun _ _ _ => trivial)
  exact keeps_dispatchRow row hs

/-- A manifest that signs its own document leaves the manifests signed. -/
theorem keeps_insertManifest {m : AuditManifest} (hm : m.Signed P settings)
    (hs : AuditSees P settings (auditOk P settings) pid s) :
    AuditKeeps P settings pid (audit (.insertManifest m))
      (Leaves P settings (fun _ => auditOk P settings) pid) s := by
  refine keeps_audit hs (fun a db x r hrows hr => ⟨?_, fun k => .inr (fun _ h => h)⟩)
  simp only [AuditOp.exec] at hr ⊢
  split at hr
  · cases hr
  · rename_i hfresh
    rw [if_neg hfresh]
    refine rows_write (w := .insertManifest m) hrows ?_ (fun _ _ _ h => h)
    intro m' hm'
    obtain ⟨hmem, hkey⟩ := List.mem_filter.mp hm'
    rcases List.mem_append.mp hmem with hmem | hmem
    · exact hrows (.manifest m.tenantId m.manifestIndex) m' (List.mem_filter.mpr ⟨hmem, hkey⟩)
    · rw [List.mem_singleton.mp hmem]
      exact hm

/-- **`build_and_archive` signs what it inserts.** -/
theorem keeps_buildAndArchive :
    AuditKeeps P settings pid (AuditManifestService.buildAndArchive P settings t)
      (fun _ _ => True) s := by
  refine Engine.keeps_transaction_rows (auditEngine_lawful P) (fun s₁ hs₁ => ?_)
  refine (keeps_audit_read (fun _ _ _ => rfl) hs₁).bind (fun lastArchived s₂ hs₂ => ?_)
    (fun _ _ _ => trivial)
  refine (keeps_audit_read (fun _ _ _ => rfl) hs₂).bind (fun rows s₃ hs₃ => ?_)
    (fun _ _ _ => trivial)
  cases rows with
  | nil => exact hs₃
  | cons first rest =>
    refine (keeps_audit_read (fun _ _ _ => rfl) hs₃).bind (fun createdAt s₄ hs₄ => ?_)
      (fun _ _ _ => trivial)
    refine (keeps_audit_read (fun _ _ _ => rfl) hs₄).bind (fun manifestIndex s₅ hs₅ => ?_)
      (fun _ _ _ => trivial)
    refine (keeps_audit_read (fun _ _ _ => rfl) hs₅).bind (fun archivedAt s₆ hs₆ => ?_)
      (fun _ _ _ => trivial)
    have hput : ∀ (b k : String) (c : Json) (r : Timestamp) (a : AuditAnswer) (db : AuditDb)
        (x : List WormObject), ((AuditOp.wormPut b k c r).exec P a db x).2.1 = [] := by
      intro b k c r a db x
      simp only [AuditOp.exec]
      split <;> rfl
    refine (keeps_audit_read (hput _ _ _ _) hs₆).bind (fun location s₇ hs₇ => ?_)
      (fun _ _ _ => trivial)
    refine Prog.Safe.bind (keeps_insertManifest ?_ hs₇) (fun _ _ h => h) (fun _ _ _ => trivial)
    exact rfl

theorem keeps_step (step : AuditStep) (hs : AuditSees P settings (auditOk P settings) pid s) :
    AuditKeeps P settings pid (step.program P.toAuditHashing)
      (Leaves P settings (fun _ => auditOk P settings) pid) s := by
  cases step with
  | insert i => exact keeps_insertAudit i hs
  | enqueue q => exact keeps_enqueueAudit q hs
  | fail e => trivial

/-- **Every call keeps the audit tables in order.** -/
theorem keeps_auditCall (call : AuditCall) :
    AuditKeeps P settings pid (call.program P settings) (fun _ _ => True) s := by
  cases call with
  | business steps =>
    refine Prog.Safe.bind (Engine.keeps_transaction_rows (auditEngine_lawful P) (fun s₁ hs₁ => ?_))
      (fun _ _ _ => trivial) (fun _ _ _ => trivial)
    exact Prog.safe_forEach (I := fun _ => AuditSees P settings (auditOk P settings) pid)
      (F := fun _ _ => True) (fun step _ s hs => keeps_step step hs) hs₁
  | dispatch t batchSize =>
    exact (keeps_dispatchPending batchSize).bind (fun _ _ _ => trivial) (fun _ _ _ => trivial)
  | archive t =>
    exact keeps_buildAndArchive.bind (fun _ _ _ => trivial) (fun _ _ _ => trivial)

end Programs

/-! ## What every run keeps -/

section Runs

variable (P : AuditPlatform) (settings : ManifestSettings)

/-- The audit tables are in order to begin with. -/
theorem auditStart_ok (s : AuditState) (h : auditStart s) :
    ∃ db x, s = Engine.quiet db x ∧ ∀ k, auditOk P settings k (auditLook k db) := by
  obtain ⟨legacy, hlegacy, rfl⟩ := h
  refine ⟨_, _, rfl, fun k => ?_⟩
  cases k with
  | chain t =>
    have hnone : (AuditDb.mk legacy (fun _ => none) [] []).chained t = [] := by
      refine List.filter_eq_nil_iff.mpr (fun e he => ?_)
      simp [AuditEvent.chain, hlegacy e he]
    show ChainOk _ (none, _)
    rw [hnone]
    exact ⟨rfl, trivial, rfl⟩
  | manifest t i => exact fun m hm => absurd hm List.not_mem_nil
  | _ => trivial

/-- The discipline of the audit tables. -/
def auditDiscipline : Pool.Discipline ((auditEngine P).pool (AuditCall.program P settings))
    auditStart (fun _ _ => True) (fun _ _ _ _ => True) (fun _ _ => True) :=
  Engine.rowDiscipline (auditEngine_lawful P) (fun _ _ _ _ => True) (auditStart_ok P settings)
    (fun _ _ call _ _ _ => keeps_auditCall call)

variable {P settings}

/-- In every reachable state the rows of the audit tables are in order. -/
theorem audit_ordered {w : Pool.State (TxOp AuditOp) (TxRes AuditRes) PyException AuditState
      AuditCall AuditReturn} (h : (auditMachine P settings).Reach Machine.anyStep w)
        (k : AuditRow) :
    auditOk P settings k (auditLook k w.shared.committed) :=
  (Pool.reach_safe (auditDiscipline P settings) (Pool.reach_any h)).inv.rows k

/-- The rows a verifier reads are the events of the chain. -/
theorem chainRows_eq {db : AuditDb} {t : Uuid}
    (h : ChainOk P.toAuditHashing (db.chainState t, db.chained t)) :
    chainRows t db.events = db.chained t := by
  have hfilter : db.events.filter (fun e => e.tenantId = some t && e.chainIndex.isSome)
      = db.chained t := by
    refine List.filter_congr (fun e _ => ?_)
    cases hi : e.chainIndex <;> simp [AuditEvent.chain, hi]
  unfold chainRows
  rw [hfilter]
  refine List.Pairwise.insertionSort_eq ?_
  -- the indexes ascend, and so do the rows
  have hasc : ((db.chained t).map AuditEvent.chainIndex).Pairwise
      (fun i j => i.getD 0 ≤ j.getD 0) := by
    rw [h.indexed, List.pairwise_map]
    refine List.pairwise_lt_range.imp (fun hlt => ?_)
    simpa using hlt.le
  rw [List.pairwise_map] at hasc
  exact hasc

/-- **The audit chains are sound**: in every committed state the chain of every
tenant verifies, its state row has its length and head, and its events are
numbered from one to the last. -/
theorem audit_chains_sound {w : Pool.State (TxOp AuditOp) (TxRes AuditRes) PyException AuditState
      AuditCall AuditReturn} (h : (auditMachine P settings).Reach Machine.anyStep w) (t : Uuid) :
    ∃ n : ℕ, ∃ head : String,
      verifyTenantChain P.toAuditHashing t w.shared.committed.events = .valid n head
        ∧ (w.shared.committed.chainState t).getD ⟨0, genesisHash⟩ = ⟨n, head⟩
        ∧ (chainRows t w.shared.committed.events).map AuditEvent.chainIndex
          = (List.range n).map (fun i : ℕ => some ((i : ℤ) + 1)) := by
  have hok : ChainOk P.toAuditHashing (w.shared.committed.chainState t,
      w.shared.committed.chained t) := audit_ordered h (.chain t)
  refine ⟨(w.shared.committed.chained t).length,
    auditHead P.toAuditHashing (w.shared.committed.chained t), ?_, hok.state, ?_⟩
  · rw [verifyTenantChain_valid_iff, chainRows_eq hok]
    exact ⟨hok.linked, rfl, rfl⟩
  · rw [chainRows_eq hok]
    exact hok.indexed

/-- Honest manifests carry valid signatures. -/
theorem manifests_valid {w : Pool.State (TxOp AuditOp) (TxRes AuditRes) PyException AuditState
      AuditCall AuditReturn} (h : (auditMachine P settings).Reach Machine.anyStep w)
    {m : AuditManifest} (hm : m ∈ w.shared.committed.manifests) : m.Signed P settings := by
  refine audit_ordered h (.manifest m.tenantId m.manifestIndex) m ?_
  exact List.mem_filter.mpr ⟨hm, by simp⟩

/-- A chain breaks at a row that does not fit. -/
theorem not_linkedFrom_iff {A : AuditHashing} {previous : String} {rows : List AuditEvent} :
    ¬ LinkedFrom (chainHash A) (fun e => e.recomputed A) AuditEvent.storedHash
        AuditEvent.storedPrev previous rows
      ↔ ∃ pre, ∃ e : AuditEvent, ∃ post, rows = pre ++ e :: post ∧ (e.storedHash ≠ e.recomputed A
        ∨ e.storedPrev ≠ head (chainHash A) previous (pre.map (fun e => e.recomputed A))) := by
  induction rows generalizing previous with
  | nil => simp [LinkedFrom]
  | cons row rows ih =>
    constructor
    · intro h
      by_cases hfit : row.recomputed A = row.storedHash ∧ previous = row.storedPrev
      · obtain ⟨pre, e, post, hrows, hbad⟩ := ih.mp (fun hlinked => h ⟨hfit, hlinked⟩)
        exact ⟨row :: pre, e, post, by rw [hrows]; rfl, hbad⟩
      · refine ⟨[], row, rows, rfl, ?_⟩
        by_cases hhash : row.storedHash = row.recomputed A
        · exact .inr (fun hprev => hfit ⟨hhash.symm, hprev.symm⟩)
        · exact .inl hhash
    · rintro ⟨pre, e, post, hrows, hbad⟩ ⟨⟨hhash, hprev⟩, hlinked⟩
      cases pre with
      | nil =>
        obtain ⟨rfl, -⟩ := List.cons.inj hrows
        rcases hbad with hbad | hbad
        · exact hbad hhash.symm
        · exact hbad hprev.symm
      | cons e' pre =>
        obtain ⟨rfl, hrest⟩ := List.cons.inj hrows
        exact ih.mpr ⟨pre, e, post, hrest, hbad⟩ hlinked

/-- From an honest state, with any rows in place of the events and the chain
states, the verification of evidence comes down to that of the chain. -/
theorem tamperDetected_eq {w : Pool.State (TxOp AuditOp) (TxRes AuditRes) PyException AuditState
      AuditCall AuditReturn} (h : (auditMachine P settings).Reach Machine.anyStep w) (t : Uuid)
    (events : List AuditEvent) (chainState : Uuid → Option ChainState) :
    (AuditManifestService.verifyTenantEvidence P settings t
        { w.shared.committed with events := events, chainState := chainState }).tamperDetected
      = !(verifyTenantChain P.toAuditHashing t events).isValid := by
  have hvalid : ((w.shared.committed.manifestsOf t).insertionSort
      (fun a b => a.manifestIndex ≤ b.manifestIndex)).all (fun m =>
        verifyManifestSignature P (m.document P) m.signature settings.signingKey) = true := by
    refine List.all_eq_true.mpr (fun m hm => ?_)
    rw [List.mem_insertionSort] at hm
    have hsigned : m.Signed P settings := manifests_valid h (List.mem_filter.mp hm).1
    exact decide_eq_true hsigned.symm
  show (!(verifyTenantChain P.toAuditHashing t events).isValid
    || !((w.shared.committed.manifestsOf t).insertionSort
      (fun a b => a.manifestIndex ≤ b.manifestIndex)).all _) = _
  rw [hvalid, Bool.not_true, Bool.or_false]

end Runs

/-! ## A sample run -/

/-- The text of the document of the sample manifest. -/
def sampleDocument : String :=
  "\x7b\"chain_head\":\"fd75767ad1703aff879ce2ffe35fa1026d146520335bc644438118ee2a45c15e\",\"created_at\":\"1970-01-01T00:00:00.000009+00:00\",\"event_count\":1,\"first_chain_index\":1,\"last_chain_index\":1,\"manifest_index\":1,\"tenant_id\":\"00000000-0000-0000-0000-000000000007\"\x7d"

/-- A platform on which the sample event is hashed and its manifest signed. -/
def samplePlatform : AuditPlatform where
  toAuditHashing := sampleHashing
  hmacSha256 key text :=
    if key = "signing-key" ∧ text = sampleDocument then
      "b465f1c0ad2b8e9659d6537c72a6b88ebe219f7a92a636025f00738dcbe9f63e"
    else unaryCode (key ++ text)
  isoformat := fun _ => "1970-01-01T00:00:00.000009+00:00"
  jsonb := id
  jsonb_canon := fun _ => rfl

/-- The settings of the sample archive. -/
def sampleSettings : ManifestSettings := ⟨"signing-key", "trpc-audit-worm", 2555⟩

/-- The intent of the sample event. -/
def sampleIntent : AuditIntent where
  principal := some ⟨"ops", "oidc"⟩
  action := "agent.create"
  decision := "ALLOW"
  targetType := some "agent"
  targetId := none
  tenantId := some 7
  details := some (sampleDetails false)
  traceId := none

/-- A call writes the event, and another one archives it. -/
def sampleRun : List (Pool.Label (Choice AuditAnswer) AuditCall Empty) :=
  [Pool.Label.spawn (AuditCall.business [.insert sampleIntent])]
    ++ List.replicate 9 (Pool.Label.act 0 (Choice.serve ⟨1, 5, none⟩))
    ++ [Pool.Label.spawn (AuditCall.archive 7)]
    ++ List.replicate 9 (Pool.Label.act 1 (Choice.serve
      ⟨2, 9, some "s3://trpc-audit-worm/manifest"⟩))

/-- The audit trail before the first event. -/
def sampleIdle : Pool.State (TxOp AuditOp) (TxRes AuditRes) PyException AuditState AuditCall
    AuditReturn :=
  Pool.idle (Engine.quiet ⟨[], fun _ => none, [], []⟩ [])

theorem sampleIdle_init : (auditMachine samplePlatform sampleSettings).init sampleIdle :=
  ⟨_, ⟨[], fun _ he => absurd he List.not_mem_nil, rfl⟩, rfl⟩

theorem sampleRun_archived :
    ((auditMachine samplePlatform sampleSettings).run sampleIdle sampleRun).map (fun w =>
      w.shared.committed.events.map (fun e => (e.chain, e.chainIndex)) = [(some 7, some 1)]
        && (w.shared.committed.manifestsOf 7).map (fun m => (m.lastChainIndex, m.signature))
          = [(1, "b465f1c0ad2b8e9659d6537c72a6b88ebe219f7a92a636025f00738dcbe9f63e")])
      = some true := by
  decide +kernel

/-- A chain of one event is sound. -/
theorem audit_chains_sound_sample :
    ∃ w, (auditMachine samplePlatform sampleSettings).Reach Machine.anyStep w
      ∧ w.shared.committed.events.length = 1
      ∧ ∃ n : ℕ, ∃ head : String,
        verifyTenantChain samplePlatform.toAuditHashing 7 w.shared.committed.events = .valid n head
          ∧ (w.shared.committed.chainState 7).getD ⟨0, genesisHash⟩ = ⟨n, head⟩
          ∧ (chainRows 7 w.shared.committed.events).map AuditEvent.chainIndex
            = (List.range n).map (fun i : ℕ => some ((i : ℤ) + 1)) := by
  obtain ⟨w, hw, htest⟩ := Machine.reach_of_run sampleIdle_init sampleRun_archived
  refine ⟨w, hw, ?_, audit_chains_sound hw 7⟩
  have hevents := of_decide_eq_true ((Bool.and_eq_true _ _).mp htest).1
  rw [← List.length_map (fun e : AuditEvent => (e.chain, e.chainIndex)), hevents]
  rfl

/-- **An archived event of the tenant has been changed or removed.** -/
def Tampered (db : AuditDb) (t : Uuid) (events : List AuditEvent) : Prop :=
  ∃ m ∈ db.manifestsOf t, ∃ e ∈ db.chained t, e.chainIndex.getD 0 ≤ m.lastChainIndex ∧ e ∉ events
