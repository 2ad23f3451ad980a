import AgentPlatform.Sessions
import AgentPlatform.Transition

/-!
# Fencing

Any number of owners acquire, renew and release the lease of a Session and
try to commit under it, in any order, each transaction at whatever time the
database clock shows. `fencingMachine` is that system; next to the database it
keeps, per Session, the history of its successful acquisitions. Everything
else the platform does to the database – it writes neither leases nor Session
events – is one label, `elsewhere`.

The lease row *is* the last acquisition: release and renewal move its expiry
only, so that the token survives them (`Fenced.current`). Tokens then increase
along the history, a commit that appends carries the last of them, and a token
that is not the last stays so for ever.
-/

/-- A successful acquisition: who, and with which token. -/
structure Acquisition where
  ownerId : String
  fencingToken : ℕ
  deriving DecidableEq, Repr

/-- **The database and the history of acquisitions** of each Session, the
oldest first. -/
structure FencingState where
  db : ExecutionDb
  history : Uuid → String → List Acquisition

/-- What can happen: a call of one of the four operations, whether it succeeds
or not, or a change of the tables other than leases and events. -/
inductive FencingLabel where
  | acquire (ttl now : Timestamp) (tenantId : Uuid) (sessionId ownerId : String)
  | renew (now : Timestamp) (tenantId : Uuid) (sessionId ownerId : String) (fencingToken : ℕ)
  | release (now : Timestamp) (tenantId : Uuid) (sessionId ownerId : String)
  | commit (now : Timestamp) (ids : OutboxIds) (c : SessionCommit)
  | elsewhere (tables : ExecutionDb)

/-- The history after one more acquisition. -/
def recordAcquisition (history : Uuid → String → List Acquisition) (tenantId : Uuid)
    (sessionId : String) (a : Acquisition) : Uuid → String → List Acquisition :=
  fun t n => if t = tenantId ∧ n = sessionId then history t n ++ [a] else history t n

/-- One step. -/
def fencingStep (w : FencingState) : FencingLabel → FencingState
  | .acquire ttl now tenantId sessionId ownerId =>
    match (acquire ttl now tenantId sessionId ownerId).run w.db with
    | .ok (grant, db') =>
      { db := db'
        history := recordAcquisition w.history tenantId sessionId
          ⟨ownerId, grant.fencingToken⟩ }
    | .error _ => w
  | .renew now tenantId sessionId ownerId fencingToken =>
    { w with db := (renew now tenantId sessionId ownerId fencingToken).after w.db }
  | .release now tenantId sessionId ownerId =>
    { w with db := (release now tenantId sessionId ownerId).after w.db }
  | .commit now ids c => { w with db := (commitSessionEvents now ids c).after w.db }
  | .elsewhere tables =>
    { w with db := { tables with leases := w.db.leases, events := w.db.events } }

/-- **The runs of the four operations**, from a database without leases. -/
def fencingMachine : Machine FencingState FencingLabel where
  init w := (∀ t n, w.db.leases t n = none) ∧ ∀ t n, w.history t n = []
  step w l := some (fencingStep w l)

/-! ## The invariant -/

/-- What a lease row says of the acquisitions. -/
def SessionLease.acquisition (lease : SessionLease) : Acquisition :=
  ⟨lease.ownerId, lease.fencingToken⟩

/-- **The lease row is the last acquisition**, and tokens increase. -/
structure Fenced (w : FencingState) : Prop where
  current : ∀ t n, (w.db.leases t n).map SessionLease.acquisition = (w.history t n).getLast?
  increasing : ∀ t n, (w.history t n).Pairwise (fun a b => a.fencingToken < b.fencingToken)

/-- A step that keeps the owner and the token of every lease keeps the
invariant. -/
theorem Fenced.of_leases {w w' : FencingState} (h : Fenced w) (hh : w'.history = w.history)
    (hl : ∀ t n, (w'.db.leases t n).map SessionLease.acquisition
      = (w.db.leases t n).map SessionLease.acquisition) : Fenced w' := by
  refine ⟨fun t n => ?_, fun t n => ?_⟩
  · rw [hl, hh]
    exact h.current t n
  · rw [hh]
    exact h.increasing t n

/-- Moving the expiry of a lease keeps owners and tokens. -/
theorem acquisition_setEntry {leases : Uuid → String → Option SessionLease} {t : Uuid}
    {n : String} {lease : SessionLease} (hl : leases t n = some lease) (expiresAt : Timestamp)
    (t' : Uuid) (n' : String) :
    (ExecutionDb.setEntry leases t n { lease with expiresAt := expiresAt } t' n').map
      SessionLease.acquisition = (leases t' n').map SessionLease.acquisition := by
  by_cases htn : t' = t ∧ n' = n
  · obtain ⟨rfl, rfl⟩ := htn
    rw [ExecutionDb.setEntry_self, hl]
    rfl
  · rw [ExecutionDb.setEntry_of_ne _ _ htn]

/-- A commit leaves the leases alone. -/
theorem leases_commit (now : Timestamp) (ids : OutboxIds) (c : SessionCommit)
    (db : ExecutionDb) : ((commitSessionEvents now ids c).after db).leases = db.leases := by
  unfold Tx.after
  split
  · rename_i r db' h
    obtain ⟨_, -, ⟨-, rfl, -⟩ | ⟨-, -, -, -, _, -, -, rfl⟩⟩ := commitSessionEvents_ok h
    · rfl
    · rfl
  · rfl

/-- Every earlier token is below the one a lease grants next. -/
theorem Fenced.lt_next {w : FencingState} (h : Fenced w) (t : Uuid) (n : String) :
    ∀ a ∈ w.history t n,
      a.fencingToken < (w.db.leases t n).elim 1 (·.fencingToken + 1) := by
  intro a ha
  obtain ⟨init, last, hsplit⟩ : ∃ init last, w.history t n = init ++ [last] :=
    ⟨_, _, (List.dropLast_append_getLast (List.ne_nil_of_mem ha)).symm⟩
  have hcur := h.current t n
  rw [hsplit, List.getLast?_concat] at hcur
  obtain ⟨lease, hlease, hacq⟩ := Option.map_eq_some_iff.mp hcur
  rw [hlease]
  have htoken : lease.fencingToken = last.fencingToken := congrArg (·.fencingToken) hacq
  have hinc := h.increasing t n
  rw [hsplit, List.pairwise_append] at hinc
  rw [hsplit] at ha
  simp only [Option.elim_some, htoken]
  rcases List.mem_append.mp ha with ha | ha
  · exact Nat.lt_succ_of_lt (hinc.2.2 a ha last (List.mem_singleton_self last))
  · rw [List.mem_singleton.mp ha]
    exact Nat.lt_succ_self _

/-- **A successful acquisition keeps the invariant.** -/
theorem Fenced.acquire {w : FencingState} (h : Fenced w) {ttl now : Timestamp} {t : Uuid}
    {n owner : String} {grant : LeaseGrant} {db' : ExecutionDb}
    (hok : (acquire ttl now t n owner).run w.db = .ok (grant, db')) :
    Fenced ⟨db', recordAcquisition w.history t n ⟨owner, grant.fencingToken⟩⟩ := by
  obtain ⟨-, htoken, -, lease, howner, hlt, -, rfl⟩ := acquire_ok hok
  refine ⟨fun t' n' => ?_, fun t' n' => ?_⟩
  · by_cases htn : t' = t ∧ n' = n
    · obtain ⟨rfl, rfl⟩ := htn
      simp [recordAcquisition, SessionLease.acquisition, howner, hlt]
    · simp only [recordAcquisition, htn, if_false, ExecutionDb.setEntry_of_ne _ _ htn]
      exact h.current t' n'
  · by_cases htn : t' = t ∧ n' = n
    · obtain ⟨rfl, rfl⟩ := htn
      simp only [recordAcquisition, and_self, if_true]
      refine List.pairwise_append.mpr ⟨h.increasing t' n', List.pairwise_singleton _ _, ?_⟩
      intro a ha b hb
      rw [List.mem_singleton.mp hb, htoken]
      exact h.lt_next t' n' a ha
    · simp only [recordAcquisition, htn, if_false]
      exact h.increasing t' n'

/-- **Every step keeps the invariant.** -/
theorem Fenced.step {w : FencingState} (h : Fenced w) (l : FencingLabel) :
    Fenced (fencingStep w l) := by
  cases l with
  | acquire ttl now t n owner =>
    simp only [fencingStep]
    split
    · rename_i grant db' hok
      exact h.acquire hok
    · exact h
  | renew now t n owner token =>
    refine h.of_leases rfl (fun t' n' => ?_)
    simp only [fencingStep, Tx.after]
    split
    · rename_i u db' hok
      obtain ⟨lease, hl, -, -, -, rfl⟩ := renew_ok hok
      exact acquisition_setEntry hl _ t' n'
    · rfl
  | release now t n owner =>
    refine h.of_leases rfl (fun t' n' => ?_)
    simp only [fencingStep, Tx.after]
    split
    · rename_i u db' hok
      rcases release_ok hok with rfl | ⟨lease, hl, -, rfl⟩
      · rfl
      · exact acquisition_setEntry hl _ t' n'
    · rfl
  | commit now ids c =>
    refine h.of_leases rfl (fun t' n' => ?_)
    simp only [fencingStep, leases_commit]
  | elsewhere tables => exact h.of_leases rfl (fun _ _ => rfl)

theorem fenced_of_reach {w : FencingState} (h : fencingMachine.Reach Machine.anyStep w) :
    Fenced w := by
  refine Machine.Reach.invariant (I := Fenced) ?_ ?_ h
  · rintro w ⟨hl, hh⟩
    refine ⟨fun t n => ?_, fun t n => ?_⟩
    · rw [hl, hh]
      rfl
    · rw [hh]
      exact List.Pairwise.nil
  · intro w l w' _ hI _ hs
    obtain rfl := Option.some.inj hs
    exact hI.step l

/-! ## Histories only grow -/

/-- The history of each Session in `w` begins the one in `w'`. -/
def HistoryGrows (w w' : FencingState) : Prop :=
  ∀ t n, w.history t n <+: w'.history t n

theorem historyGrows_step (w : FencingState) (l : FencingLabel) :
    HistoryGrows w (fencingStep w l) := by
  intro t n
  cases l with
  | acquire ttl now t' n' owner =>
    simp only [fencingStep]
    split
    · simp only [recordAcquisition]
      split
      · exact List.prefix_append _ _
      · exact List.prefix_rfl
    · exact List.prefix_rfl
  | _ => exact List.prefix_rfl

theorem historyGrows_of_steps {w w' : FencingState}
    (h : fencingMachine.Reach Machine.anyStep w)
    (hs : fencingMachine.Steps Machine.anyStep w w') : HistoryGrows w w' := by
  refine Machine.Steps.trans_rel (R := HistoryGrows) (fun _ _ _ => List.prefix_rfl)
    (fun _ _ _ h h' t n => (h t n).trans (h' t n)) ?_ h hs
  intro w l w' _ _ hl
  obtain rfl := Option.some.inj hl
  exact historyGrows_step w l

/-! ## What fencing guarantees -/

/-- The commit appended Session events. -/
def CommitAppends (now : Timestamp) (ids : OutboxIds) (c : SessionCommit) (db : ExecutionDb) :
    Prop :=
  ((commitSessionEvents now ids c).after db).events ≠ db.events

/-- **A commit that appends holds the last acquisition**, unexpired. -/
theorem Fenced.current_of_appends {w : FencingState} (h : Fenced w) {now : Timestamp}
    {ids : OutboxIds} {c : SessionCommit} (happ : CommitAppends now ids c w.db) :
    (w.history c.tenantId c.sessionId).getLast? = some ⟨c.ownerId, c.fencingToken⟩
      ∧ ∃ lease, w.db.leases c.tenantId c.sessionId = some lease
        ∧ lease.ownerId = c.ownerId ∧ lease.fencingToken = c.fencingToken
        ∧ now < lease.expiresAt := by
  unfold CommitAppends Tx.after at happ
  split at happ
  · rename_i r db' hok
    obtain ⟨_, -, ⟨-, rfl, -⟩ | ⟨-, -, -, hchecks, -⟩⟩ := commitSessionEvents_ok hok
    · exact absurd rfl happ
    · obtain ⟨lease, hlease, howner, htoken, hexp⟩ := hchecks.lease
      refine ⟨?_, lease, hlease, howner, htoken, hexp⟩
      rw [← h.current, hlease, Option.map_some, SessionLease.acquisition, howner, htoken]
  · exact absurd rfl happ

/-- A token that is not the last of a growing history is not the last later. -/
theorem Fenced.superseded {w w' : FencingState} (hf : Fenced w') (hg : HistoryGrows w w')
    {t : Uuid} {n : String} {a : Acquisition} (ha : a ∈ (w.history t n).dropLast)
    {b : Acquisition} (hb : (w'.history t n).getLast? = some b) :
    a.fencingToken ≠ b.fencingToken := by
  obtain ⟨rest, hrest⟩ := hg t n
  have hne : w.history t n ≠ [] := by
    intro hnil
    rw [hnil] at ha
    cases ha
  -- `a` stands before the last element of `w`, so before the last of `w'`
  obtain ⟨front, last, hlast⟩ : ∃ front last, w'.history t n = front ++ [last] := by
    refine ⟨_, _, (List.dropLast_append_getLast ?_).symm⟩
    rw [← hrest]
    exact List.append_ne_nil_of_left_ne_nil hne rest
  have hblast : b = last := by
    rw [hlast, List.getLast?_concat] at hb
    exact (Option.some.inj hb).symm
  have hfront : a ∈ front := by
    have hdrop : (w'.history t n).dropLast = front := by
      rw [hlast, List.dropLast_concat]
    rw [← hdrop, ← hrest]
    by_cases hr : rest = []
    · rw [hr, List.append_nil]
      exact ha
    · rw [List.dropLast_append_of_ne_nil hr]
      exact List.mem_append_left _ (List.dropLast_subset _ ha)
  have hinc := hf.increasing t n
  rw [hlast, List.pairwise_append] at hinc
  rw [hblast]
  exact Nat.ne_of_lt (hinc.2.2 a hfront last (List.mem_singleton_self last))

/-- **Fencing.** In every reachable state and for every Session: the tokens of
the successful acquisitions increase; an acquisition fails while the lease of
another owner is unexpired; a commit that appends events carries the owner and
the token of the last acquisition, whose lease is unexpired; and a token that
has been superseded appends nothing in any later state either. -/
theorem session_fencing {w : FencingState} (h : fencingMachine.Reach Machine.anyStep w)
    (t : Uuid) (n : String) :
    (w.history t n).Pairwise (fun a b => a.fencingToken < b.fencingToken)
      ∧ (∀ lease, w.db.leases t n = some lease →
          (w.history t n).getLast? = some ⟨lease.ownerId, lease.fencingToken⟩)
      ∧ (∀ ttl now owner lease, w.db.leases t n = some lease → lease.ownerId ≠ owner →
          now < lease.expiresAt →
          ∀ grant db', (acquire ttl now t n owner).run w.db ≠ .ok (grant, db'))
      ∧ (∀ now ids c, c.tenantId = t → c.sessionId = n → CommitAppends now ids c w.db →
          (w.history t n).getLast? = some ⟨c.ownerId, c.fencingToken⟩
            ∧ ∃ lease, w.db.leases t n = some lease ∧ now < lease.expiresAt)
      ∧ (∀ a ∈ (w.history t n).dropLast, ∀ w', fencingMachine.Steps Machine.anyStep w w' →
          ∀ now ids c, c.tenantId = t → c.sessionId = n → c.fencingToken = a.fencingToken →
            ¬ CommitAppends now ids c w'.db) := by
  have hf := fenced_of_reach h
  refine ⟨hf.increasing t n, ?_, ?_, ?_, ?_⟩
  · intro lease hlease
    rw [← hf.current, hlease]
    rfl
  · intro ttl now owner lease hlease howner hexp grant db' hok
    rcases (acquire_ok hok).1 lease hlease with hle | heq
    · exact absurd hexp (not_lt.mpr hle)
    · exact howner heq
  · rintro now ids c rfl rfl happ
    obtain ⟨hlast, lease, hlease, -, -, hexp⟩ := hf.current_of_appends happ
    exact ⟨hlast, lease, hlease, hexp⟩
  · rintro a ha w' hs now ids c rfl rfl htoken happ
    have hf' := fenced_of_reach (h.steps hs)
    obtain ⟨hlast, -⟩ := hf'.current_of_appends happ
    exact hf'.superseded (historyGrows_of_steps h hs) ha hlast htoken.symm

/-- A Session of tenant 1. -/
def oneSession : ExecutionDb :=
  { ExecutionDb.empty 0 with
    sessions := ExecutionDb.setEntry (fun _ _ => none) 1 "s" ⟨1, 10, "s", 0⟩ }

/-- A takeover: the lease of `a` expires and `b` acquires it, after which the
token of `a` appends nothing any more. -/
theorem session_fencing_takeover :
    ∃ w, fencingMachine.Reach Machine.anyStep w
      ∧ w.history 1 "s" = [⟨"a", 1⟩, ⟨"b", 2⟩]
      ∧ ∀ w', fencingMachine.Steps Machine.anyStep w w' →
          ∀ now ids c, c.tenantId = 1 → c.sessionId = "s" → c.fencingToken = 1 →
            ¬ CommitAppends now ids c w'.db := by
  have hrun : (fencingMachine.run ⟨ExecutionDb.empty 0, fun _ _ => []⟩
      [.elsewhere oneSession, .acquire defaultLeaseTtl 0 1 "s" "a",
        .acquire defaultLeaseTtl 10000000 1 "s" "b",
        .acquire defaultLeaseTtl 30000000 1 "s" "b"]).map
      (fun w => decide (w.history 1 "s" = [⟨"a", 1⟩, ⟨"b", 2⟩])) = some true := by
    decide
  have hinit : fencingMachine.init ⟨ExecutionDb.empty 0, fun _ _ => []⟩ :=
    ⟨fun _ _ => rfl, fun _ _ => rfl⟩
  obtain ⟨w, hw, htest⟩ := Machine.reach_of_run hinit hrun
  have hhist : w.history 1 "s" = [⟨"a", 1⟩, ⟨"b", 2⟩] := of_decide_eq_true htest
  obtain ⟨-, -, -, -, hsup⟩ := session_fencing hw 1 "s"
  refine ⟨w, hw, hhist, fun w' hs now ids c ht hn htoken => ?_⟩
  exact hsup ⟨"a", 1⟩ (by rw [hhist]; simp) w' hs now ids c ht hn htoken
