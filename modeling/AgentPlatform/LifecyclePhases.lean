import AgentPlatform.ContentLifecycle
import AgentPlatform.Typestate

/-!
# Where a lifecycle worker stands

A worker's requests follow a fixed order: it finds its tenant without a hold,
claims, erases, records – or sweeps, or lists and deletes. Where it stands in that
order is its *phase*, which its requests and their answers move on, and each
destructive request is permitted in one phase only: a backend erases what was
claimed and committed, a proof is stored for what is being recorded, a request is
completed when there is a proof of every backend.

That every worker keeps to this order, whatever it is answered, is proved once
(`follows_lifecycleCall`). What the phases say about the database is another
matter, and differs with what one wants to know of it.
-/

/-- **Where a worker stands.** -/
inductive LifecyclePhase where
  /-- It has found nothing to destroy yet, or nothing any more. -/
  | idle
  /-- It has begun a transaction. -/
  | opened
  /-- It has found an active hold of the tenant. -/
  | held (tenantId : Uuid)
  /-- It has found the tenant without an active hold. -/
  | checked (tenantId : Uuid)
  /-- It has claimed the request, in the same transaction. -/
  | claimed (key : RequestKey)
  /-- It has the backends erase the content; those it has reached. -/
  | executing (key : RequestKey) (reached : List ContentBackend)
  /-- A backend failed, and no other will be reached. -/
  | executed (key : RequestKey)
  /-- It writes down the outcome; the backends with a proof so far. -/
  | recording (key : RequestKey) (proven : List ContentBackend)
  /-- It removes what expired, in the transaction that found no hold. -/
  | sweeping (tenantId : Uuid)
  /-- It has committed the transaction that found no hold, to delete artifacts. -/
  | listing (tenantId : Uuid)
  /-- It goes on to delete artifacts; how many are left to delete. -/
  | purging (tenantId : Uuid) (left : ℕ)
  /-- It deletes an artifact, in a transaction. -/
  | deleting (tenantId : Uuid) (left : ℕ)
  /-- A statement of its transaction failed. -/
  | failing
  deriving DecidableEq

namespace LifecyclePhase

/-- A transaction is open. -/
def inTx : LifecyclePhase → Bool
  | .opened | .held _ | .checked _ | .claimed _ | .recording .. | .sweeping _ | .deleting .. => true
  | .failing => true
  | _ => false

/-- The phase after a transaction has begun. -/
def begun : LifecyclePhase → LifecyclePhase
  | .executing key _ => .recording key []
  | .executed key => .recording key []
  | .listing tenantId => .listing tenantId
  | .purging tenantId left => .deleting tenantId left
  | _ => .opened

/-- The phase after a commit. -/
def committed : LifecyclePhase → LifecyclePhase
  | .checked tenantId => .listing tenantId
  | .claimed key => .executing key []
  | .purging tenantId left => .purging tenantId left
  | .deleting _ 0 => .idle
  | .deleting tenantId (n + 1) => .purging tenantId (n + 1)
  | _ => .idle

/-- The phase after a backend was asked to erase. -/
def reach (backend : ContentBackend) : LifecyclePhase → LifecyclePhase
  | .executing key reached => .executing key (reached ++ [backend])
  | g => g

/-- The phase after a proof was stored. -/
def prove (backend : ContentBackend) : LifecyclePhase → LifecyclePhase
  | .recording key proven => .recording key (proven ++ [backend])
  | g => g

/-- The phase after an artifact was deleted. -/
def deleted : LifecyclePhase → LifecyclePhase
  | .deleting tenantId (n + 1) => .deleting tenantId n
  | g => g

/-- The phase after a statement failed. A backend that fails ends the execution, and
any other failure what the worker is at. -/
def failed : LifecyclePhase → LifecyclePhase
  | .executing key _ => .executed key
  | g => if g.inTx = true then .failing else .idle

/-- The phase after a statement. -/
def stated (g : LifecyclePhase) :
    (op : LifecycleOp) → Except LifecycleException (LifecycleRes op) → LifecyclePhase
  | _, .error _ => g.failed
  | .erase backend _, .ok _ => g.reach backend
  | .verifyErased _ _, .ok verified => if verified = true then g else g.failed
  | .selectHeld tenantId, .ok active =>
    if active = true then .held tenantId else .checked tenantId
  | .claim key _, .ok granted => if granted = true then .claimed key else .opened
  | .upsertProof _ backend _, .ok _ => g.prove backend
  | .selectPolicy tenantId, .ok _ => .sweeping tenantId
  | .listExpired tenantId _, .ok ids =>
    if List.length ids = 0 then .idle else .purging tenantId (List.length ids)
  | .deleteArtifact _ _, .ok _ => g.deleted
  | _, .ok _ => g

theorem stated_error (g : LifecyclePhase) (op : LifecycleOp) (e : LifecycleException) :
    g.stated op (.error e) = g.failed := by
  cases op <;> rfl

/-- **How requests move a worker on.** -/
def next (g : LifecyclePhase) :
    (op : TxOp LifecycleOp) → Except LifecycleException (TxRes LifecycleRes op) → LifecyclePhase
  | .begin, .ok _ => g.begun
  | .commit, .ok _ => g.committed
  | .run op, r => g.stated op r
  | _, _ => .idle

/-- **The requests permitted in a phase.** What failed is not committed. A proof is
of a verified erasure, with the digest of its own fields. -/
def permits (H : ProofHashing) (g : LifecyclePhase) : TxOp LifecycleOp → Prop
  | .begin => g.inTx = false
  | .commit => g ≠ .failing
  | .run (.selectHeld _) => g = .opened
  | .run (.block key) => g = .held key.1
  | .run (.claim key _) => g = .checked key.1
  | .run (.erase backend tenantId) =>
    ∃ key reached, g = .executing key reached ∧ key.1 = tenantId ∧ backend ∉ reached
  | .run (.upsertProof key backend row) => (∃ proven, g = .recording key proven)
      ∧ row.verified = true ∧ row.evidenceDigest
        = H.digest key.2 backend row.deletedCount row.verified row.completedAt
  | .run (.setRetryable key _ _) => ∃ proven, g = .recording key proven
  | .run (.setCompleted key _) => ∃ proven, g = .recording key proven ∧ ∀ b, b ∈ proven
  | .run (.selectPolicy tenantId) => g = .checked tenantId
  | .run (.expire _ tenantId _) => g = .sweeping tenantId
  | .run (.listExpired tenantId _) => g = .listing tenantId
  | .run (.deleteArtifact tenantId _) => ∃ n, g = .deleting tenantId (n + 1)
  | _ => True

end LifecyclePhase

/-! ## Programs by their phases -/

section Programs

variable (H : ProofHashing)

/-- A program keeps to the order of the phases, from `g` on. -/
abbrev FollowsPhases (g : LifecyclePhase) {α : Type} (p : LifecycleProg α)
    (Q : Except LifecycleException α → LifecyclePhase → Prop) : Prop :=
  Prog.Follows (LifecyclePhase.permits H) LifecyclePhase.next g p Q

/-- What holds where a program in a transaction ends; if it raises, a rollback
follows. -/
abbrev EndsInside {α : Type} (P : α → LifecyclePhase → Prop) :
    Except LifecycleException α → LifecyclePhase → Prop :=
  Prog.outcome P (fun _ _ => True)

/-- What holds where a program ends; if it raises, the worker is at rest. -/
abbrev EndsOutside {α : Type} (P : α → LifecyclePhase → Prop) :
    Except LifecycleException α → LifecyclePhase → Prop :=
  Prog.outcome P (fun _ g => g = .idle)

variable {H} {α β : Type} {g : LifecyclePhase} {P : α → LifecyclePhase → Prop}
  {P' : β → LifecyclePhase → Prop}

theorem EndsInside.bind {p : LifecycleProg α} {f : α → LifecycleProg β}
    (hp : FollowsPhases H g p (EndsInside P))
    (hf : ∀ a g', P a g' → FollowsPhases H g' (f a) (EndsInside P')) :
    FollowsPhases H g (p.bind f) (EndsInside P') :=
  Prog.Follows.bind hp hf (fun _ _ h => h)

theorem EndsOutside.bind {p : LifecycleProg α} {f : α → LifecycleProg β}
    (hp : FollowsPhases H g p (EndsOutside P))
    (hf : ∀ a g', P a g' → FollowsPhases H g' (f a) (EndsOutside P')) :
    FollowsPhases H g (p.bind f) (EndsOutside P') :=
  Prog.Follows.bind hp hf (fun _ _ h => h)

/-- A statement. -/
theorem follows_stmt {op : LifecycleOp}
    {Q : Except LifecycleException (LifecycleRes op) → LifecyclePhase → Prop}
    (hop : LifecyclePhase.permits H g (.run op)) (hQ : ∀ r, Q r (g.stated op r)) :
    FollowsPhases H g (Engine.stmt op) Q :=
  Prog.follows_perform hop hQ

/-- A statement in a transaction. -/
theorem inside_stmt (op : LifecycleOp) {P : LifecycleRes op → LifecyclePhase → Prop}
    (hop : LifecyclePhase.permits H g (.run op)) (hP : ∀ a, P a (g.stated op (.ok a))) :
    FollowsPhases H g (Engine.stmt op) (EndsInside P) := by
  refine follows_stmt hop (fun r => ?_)
  cases r with
  | ok a => exact hP a
  | error e => trivial

/-- A statement that leaves the worker at rest if it fails. -/
theorem outside_stmt (op : LifecycleOp) {P : LifecycleRes op → LifecyclePhase → Prop}
    (hop : LifecyclePhase.permits H g (.run op)) (hP : ∀ a, P a (g.stated op (.ok a)))
    (herror : ∀ e, g.stated op (.error e) = .idle) :
    FollowsPhases H g (Engine.stmt op) (EndsOutside P) := by
  refine follows_stmt hop (fun r => ?_)
  cases r with
  | ok a => exact hP a
  | error e => exact herror e

/-- **A transaction of a worker.** Whatever fails, it comes to rest. -/
theorem outside_transaction {body : LifecycleProg α} {Q : α → LifecyclePhase → Prop}
    (hg : g.inTx = false) (hbody : FollowsPhases H g.begun body (EndsInside P))
    (hcommit : ∀ a g', P a g' → g' ≠ .failing ∧ Q a g'.committed) :
    FollowsPhases H g (Engine.transaction body) (EndsOutside Q) := by
  refine Engine.follows_transaction (P := P) ⟨hg, fun _ => trivial⟩ ?_
    (fun _ => rfl) (fun _ _ _ _ => rfl)
    (fun a g' ha => ⟨(hcommit a g' ha).1, (hcommit a g' ha).2, fun _ => rfl⟩)
  refine hbody.mono (fun r g' hr => ?_)
  cases r with
  | ok a => exact hr
  | error e => exact rfl

variable (H) in
/-- **A program of a worker that rests before and after.** -/
def RestsAround (p : LifecycleProg α) : Prop :=
  FollowsPhases H .idle p (EndsOutside (fun _ g => g = .idle))

theorem RestsAround.ret (a : α) : RestsAround H (.ret a : LifecycleProg α) := rfl

theorem RestsAround.bind {p : LifecycleProg α} {f : α → LifecycleProg β}
    (hp : RestsAround H p) (hf : ∀ a, RestsAround H (f a)) : RestsAround H (p.bind f) := by
  refine EndsOutside.bind hp (fun a g hg => ?_)
  subst hg
  exact hf a

theorem RestsAround.sumOver {f : β → LifecycleProg ℕ}
    (hf : ∀ b, RestsAround H (f b)) (bs : List β) : RestsAround H (sumOver f bs) := by
  induction bs with
  | nil => exact .ret 0
  | cons b bs ih => exact (hf b).bind (fun n => ih.bind (fun m => .ret (n + m)))

/-- A transaction that only reads, at rest. -/
theorem restsAround_read (op : LifecycleOp) (hop : LifecyclePhase.permits H .opened (.run op))
    (hrest : ∀ a, LifecyclePhase.opened.stated op (.ok a) = .opened) :
    RestsAround H (Engine.transaction (Engine.stmt op)) := by
  refine outside_transaction (P := fun _ g => g = .opened) rfl (inside_stmt op hop hrest) ?_
  rintro a g rfl
  exact ⟨nofun, rfl⟩

theorem restsAround_orClock (now : Option Timestamp) : RestsAround H (orClock now) := by
  cases now with
  | some t => exact .ret t
  | none => exact outside_stmt .clock trivial (fun _ => rfl) (fun _ => rfl)

/-! ## The deletion worker -/

/-- What a claim leads to. -/
def ClaimEnds (key : RequestKey) (claimed : Bool) (g : LifecyclePhase) : Prop :=
  g ≠ .failing ∧ g.committed = if claimed = true then .executing key [] else .idle

theorem inside_claimRequest (key : RequestKey) (current : Timestamp) :
    FollowsPhases H .opened (ContentDeletionWorker.claimRequest key current)
      (EndsInside (ClaimEnds key)) := by
  refine EndsInside.bind (P := fun active g => g = if active = true then .held key.1 else
    .checked key.1)
    (inside_stmt (.selectHeld key.1) rfl (fun _ => rfl)) ?_
  intro active g hg
  cases active with
  | true =>
    subst hg
    refine EndsInside.bind (P := fun _ g => g = .held key.1)
      (inside_stmt (.block key) rfl (fun _ => rfl)) ?_
    rintro u g rfl
    exact ⟨nofun, rfl⟩
  | false =>
    subst hg
    refine EndsInside.bind (P := ClaimEnds key)
      (inside_stmt (.claim key current) rfl (fun claimed => ?_)) (fun _ _ hg => hg)
    cases claimed with
    | true => exact ⟨nofun, rfl⟩
    | false => exact ⟨nofun, rfl⟩

/-- The execution is over. -/
def ExecutionOver (key : RequestKey) (g : LifecyclePhase) : Prop :=
  (∃ reached, g = .executing key reached) ∨ g = .executed key

/-- What a step of the execution ends with. It raises nothing but errors of its
own. -/
def Executing {γ : Type} (key : RequestKey) (P : γ → LifecyclePhase → Prop) :
    Except LifecycleException γ → LifecyclePhase → Prop :=
  Prog.outcome P (fun e g => ExecutionOver key g ∧ ∃ code, e = .lifecycle code)

/-- Asking a backend: what it raises is not raised again, unless it is an error of
the lifecycle. -/
theorem executing_ask {key : RequestKey} (op : LifecycleOp)
    {P : LifecycleRes op → LifecyclePhase → Prop}
    (hop : LifecyclePhase.permits H g (.run op)) (hP : ∀ a, P a (g.stated op (.ok a)))
    (herror : ∀ e, g.stated op (.error e) = .executed key) :
    FollowsPhases H g
      (Prog.capture DeletionExecutor.retryableError (Engine.stmt op))
      (Executing key (fun r g' => match r with
        | .ok a => P a g'
        | .error _ => ExecutionOver key g')) := by
  refine Prog.Follows.capture (Q := Prog.outcome P (fun _ g' => g' = .executed key))
    (follows_stmt hop ?_) (fun _ _ h => h) (fun _ _ _ h _ => .inr h) ?_
  · intro r
    cases r with
    | ok a => exact hP a
    | error e => exact herror e
  · intro e g' hg' he
    refine ⟨.inr hg', ?_⟩
    cases e with
    | lifecycle code => exact ⟨code, rfl⟩
    | backend => cases he
    | database => cases he

theorem Executing.bind {key : RequestKey} {p : LifecycleProg α} {f : α → LifecycleProg β}
    (hp : FollowsPhases H g p (Executing key P))
    (hf : ∀ a g', P a g' → FollowsPhases H g' (f a) (Executing key P')) :
    FollowsPhases H g (p.bind f) (Executing key P') :=
  Prog.Follows.bind hp hf (fun _ _ h => h)

/-- What the loop over the backends ends with: proofs of verified erasures, of every
backend if it came to its end. -/
def BackendsErased (key : RequestKey) (backends : List ContentBackend)
    (out : List DeletionProof × Bool) (g : LifecyclePhase) : Prop :=
  ExecutionOver key g ∧ (∀ p ∈ out.1, p.verified = true)
    ∧ (out.2 = true → out.1.map DeletionProof.backend = backends)

theorem executing_eraseBackends {key : RequestKey} {startedAt : Timestamp}
    {backends done : List ContentBackend} (proofs : List DeletionProof)
    (hnodup : (done ++ backends).Nodup) (hdone : proofs.map DeletionProof.backend = done)
    (hproofs : ∀ p ∈ proofs, p.verified = true) :
    FollowsPhases H (.executing key done)
      (DeletionExecutor.eraseBackends key.1 startedAt backends proofs)
      (Executing key (BackendsErased key (done ++ backends))) := by
  induction backends generalizing done proofs with
  | nil =>
    refine ⟨.inl ⟨done, rfl⟩, hproofs, fun _ => ?_⟩
    rw [List.append_nil]
    exact hdone
  | cons backend backends ih =>
    have hnew : backend ∉ done :=
      fun hmem => (List.nodup_append.mp hnodup).2.2 _ hmem _ List.mem_cons_self rfl
    have hcons : done ++ backend :: backends = done ++ [backend] ++ backends := by
      rw [List.append_assoc]
      rfl
    rw [hcons] at hnodup ⊢
    -- A backend that fails ends the loop with the proofs so far.
    have hstop : ∀ g, ExecutionOver key g →
        BackendsErased key (done ++ [backend] ++ backends) (proofs, false) g :=
      fun g hg => ⟨hg, hproofs, fun h => absurd h Bool.false_ne_true⟩
    refine Executing.bind (executing_ask (.erase backend key.1)
      (P := fun _ g => g = .executing key (done ++ [backend])) ⟨key, done, rfl, rfl, hnew⟩
      (fun _ => rfl) (fun _ => rfl)) ?_
    rintro (e | deletedCount) g hg
    · exact hstop g hg
    · subst hg
      refine Executing.bind (executing_ask (.verifyErased backend key.1)
        (P := fun verified g => g = if verified = true then .executing key (done ++ [backend])
          else .executed key) trivial (fun _ => rfl) (fun _ => rfl)) ?_
      rintro (e | verified) g hg
      · exact hstop g hg
      · cases verified with
        | false => exact ⟨.inr hg, _, rfl⟩
        | true =>
          subst hg
          refine ih _ hnodup ?_ (fun p hp => ?_)
          · rw [List.map_append, hdone]
            rfl
          · rcases List.mem_append.mp hp with hp | hp
            · exact hproofs p hp
            · rw [List.mem_singleton.mp hp]

/-- **What an execution ends with**: proofs of verified erasures, of every backend
if there is nothing to retry. -/
def OutcomeProven (o : DeletionOutcome) : Prop :=
  (∀ p ∈ o.proofs, p.verified = true)
    ∧ (o.retryable = false → ∀ b, b ∈ o.proofs.map DeletionProof.backend)

theorem follows_runExecutor (W : ContentDeletionWorker) (key : RequestKey)
    (current : Timestamp) :
    FollowsPhases H (.executing key []) (W.runExecutor key current)
      (Prog.outcome (fun o g => ExecutionOver key g ∧ OutcomeProven o) (fun _ _ => False)) := by
  refine Prog.Follows.tryCatch
    (Q := Executing key (fun o g => ExecutionOver key g ∧ OutcomeProven o)) ?_
    (fun _ _ h => h) ?_
  · refine Executing.bind
      (P := fun t g => t = current ∧ g = .executing key []) ⟨rfl, rfl⟩ ?_
    rintro t g ⟨rfl, rfl⟩
    refine Executing.bind (executing_eraseBackends [] W.executor.nodup rfl
      (fun _ hp => absurd hp List.not_mem_nil)) ?_
    rintro ⟨proofs, finished⟩ g ⟨hover, hproofs, hall⟩
    cases finished with
    | false => exact ⟨hover, hproofs, fun h => absurd h (by simp)⟩
    | true =>
      refine ⟨hover, hproofs, fun _ b => ?_⟩
      rw [hall rfl]
      exact W.executor.complete b
  · rintro e g ⟨hover, code, rfl⟩
    exact ⟨hover, fun _ hp => absurd hp List.not_mem_nil, fun h => absurd h (by simp)⟩

/-- The proofs of an outcome are stored one after the other. -/
theorem inside_upsertProofs {key : RequestKey} (proofs : List DeletionProof)
    (proven : List ContentBackend) (hproofs : ∀ p ∈ proofs, p.verified = true) :
    FollowsPhases H (.recording key proven)
      (Prog.forEach (fun proof : DeletionProof =>
        Engine.stmt (LifecycleOp.upsertProof key proof.backend (H.row key.2 proof))) proofs)
      (EndsInside (fun _ g => g = .recording key
       (proven ++ proofs.map DeletionProof.backend))) := by
  induction proofs generalizing proven with
  | nil =>
    rw [List.map_nil, List.append_nil]
    exact rfl
  | cons p proofs ih =>
    refine EndsInside.bind (P := fun _ g => g = .recording key (proven ++ [p.backend]))
      (inside_stmt (.upsertProof key p.backend (H.row key.2 p))
        ⟨⟨proven, rfl⟩, hproofs p List.mem_cons_self, rfl⟩ (fun _ => rfl)) ?_
    rintro u g rfl
    have hrest := ih (proven ++ [p.backend]) (fun q hq => hproofs q (List.mem_cons_of_mem _ hq))
    rw [List.append_assoc] at hrest
    exact hrest

theorem inside_recordOutcome {key : RequestKey} (current : Timestamp) {o : DeletionOutcome}
    (ho : OutcomeProven o) :
    FollowsPhases H (.recording key []) (ContentDeletionWorker.recordOutcome H key current o)
      (EndsInside (fun _ g => ∃ proven, g = .recording key proven)) := by
  refine EndsInside.bind (inside_upsertProofs o.proofs [] ho.1) ?_
  rintro u g rfl
  cases hretry : o.retryable with
  | true =>
    simp only [if_true]
    exact EndsInside.bind (inside_stmt (.setRetryable key _ _) ⟨_, rfl⟩ (fun _ => ⟨_, rfl⟩))
      (fun _ _ hg => hg)
  | false =>
    simp only [Bool.false_eq_true, if_false]
    exact EndsInside.bind (inside_stmt (.setCompleted key current) ⟨_, rfl, ho.2 hretry⟩
      (fun _ => ⟨_, rfl⟩)) (fun _ _ hg => hg)

/-- **`process` rests before and after.** -/
theorem restsAround_process (W : ContentDeletionWorker) (key : RequestKey)
    (now : Option Timestamp) : RestsAround H (W.process H key now) := by
  refine (restsAround_orClock now).bind (fun current => ?_)
  refine EndsOutside.bind (P := fun claimed g => g = if claimed = true then .executing key
    [] else .idle)
    (outside_transaction rfl (inside_claimRequest key current) ?_) ?_
  · exact fun _ _ hg => hg
  · intro claimed g hg
    cases claimed with
    | false =>
      subst hg
      exact RestsAround.ret (H := H) false
    | true =>
      subst hg
      refine Prog.Follows.bind (follows_runExecutor W key current) ?_ (fun _ _ h => h.elim)
      rintro o g ⟨hover, ho⟩
      have hbegun : g.inTx = false ∧ g.begun = .recording key [] := by
        rcases hover with ⟨reached, rfl⟩ | rfl
        · exact ⟨rfl, rfl⟩
        · exact ⟨rfl, rfl⟩
      refine outside_transaction hbegun.1 (hbegun.2.symm ▸ inside_recordOutcome current ho) ?_
      rintro completed g ⟨proven, rfl⟩
      exact ⟨nofun, rfl⟩

theorem restsAround_runDeletions (W : ContentDeletionWorker) (now : Option Timestamp) :
    RestsAround H (W.runOnce H now) := by
  refine (restsAround_orClock now).bind (fun current => ?_)
  refine (restsAround_read .selectTenants trivial (fun _ => rfl)).bind (fun tenants => ?_)
  refine RestsAround.sumOver (fun tenantId => ?_) tenants
  refine (restsAround_read (.selectDue tenantId current) trivial (fun _ => rfl)).bind
    (fun requests => ?_)
  refine RestsAround.sumOver (fun requestId => ?_) requests
  exact (restsAround_process W _ _).bind (fun completed => .ret _)

/-! ## The sweep and the artifact worker -/

theorem inside_expireTables {tenantId : Uuid} {current : Timestamp}
    (es : List (RetentionTable × ℕ)) :
    FollowsPhases H (.sweeping tenantId)
      (sumOver (fun e => Engine.stmt (LifecycleOp.expire e.1 tenantId (current - days e.2))) es)
      (EndsInside (fun _ g => g = .sweeping tenantId)) := by
  induction es with
  | nil => exact rfl
  | cons e es ih =>
    refine EndsInside.bind (P := fun _ g => g = .sweeping tenantId)
      (inside_stmt (.expire e.1 tenantId (current - days e.2)) rfl (fun _ => rfl)) ?_
    rintro n g rfl
    exact EndsInside.bind ih (fun _ _ hg => hg)

theorem restsAround_sweepTenant (current : Timestamp) (tenantId : Uuid) :
    RestsAround H (Engine.transaction (RetentionSweep.sweepTenant current tenantId)) := by
  refine outside_transaction (P := fun _ g => g = .held tenantId ∨ g = .sweeping tenantId) rfl ?_ ?_
  · refine EndsInside.bind
      (P := fun active g => g = if active = true then .held tenantId else .checked tenantId)
      (inside_stmt (.selectHeld tenantId) rfl (fun _ => rfl)) ?_
    intro active g hg
    cases active with
    | true => exact .inl hg
    | false =>
      subst hg
      refine EndsInside.bind (P := fun _ g => g = .sweeping tenantId)
        (inside_stmt (.selectPolicy tenantId) rfl (fun _ => rfl)) ?_
      rintro row g rfl
      refine (inside_expireTables _).mono (fun r g hr => ?_)
      cases r with
      | ok n => exact .inr hr
      | error e => trivial
  · rintro n g (rfl | rfl)
    · exact ⟨nofun, rfl⟩
    · exact ⟨nofun, rfl⟩

theorem restsAround_sweep (now : Option Timestamp) :
    RestsAround H (RetentionSweep.runOnce now) := by
  refine (restsAround_orClock now).bind (fun current => ?_)
  refine (restsAround_read .selectTenants trivial (fun _ => rfl)).bind (fun tenants => ?_)
  exact RestsAround.sumOver (restsAround_sweepTenant current) tenants

/-- The phase with these artifacts left to delete. -/
def LifecyclePhase.afterListing (tenantId : Uuid) (ids : List Uuid) : LifecyclePhase :=
  if ids.length = 0 then .idle else .purging tenantId ids.length

theorem outside_deleteArtifacts {tenantId : Uuid} (ids : List Uuid) :
    FollowsPhases H (.afterListing tenantId ids)
      (Prog.forEach (fun id => do
        let _ ← Engine.transaction (Engine.stmt (LifecycleOp.deleteArtifact tenantId id))
        Engine.stmt (LifecycleOp.emitAudit tenantId id)) ids)
      (EndsOutside (fun _ g => g = .idle)) := by
  induction ids with
  | nil => exact rfl
  | cons id ids ih =>
    refine EndsOutside.bind (P := fun _ g => g = .afterListing tenantId ids) ?_ ?_
    · refine EndsOutside.bind (P := fun _ g => g = .afterListing tenantId ids)
        (outside_transaction (P := fun _ g => g = .deleting tenantId ids.length) rfl
          (inside_stmt (.deleteArtifact tenantId id) ⟨ids.length, rfl⟩ (fun _ => rfl)) ?_) ?_
      · rintro u g rfl
        cases ids with
        | nil => exact ⟨nofun, rfl⟩
        | cons id' ids => exact ⟨nofun, rfl⟩
      · rintro u g rfl
        refine outside_stmt (.emitAudit tenantId id) trivial (fun _ => rfl) (fun _ => ?_)
        cases ids with
        | nil => rfl
        | cons id' ids => rfl
    · rintro u g rfl
      exact ih

theorem outside_purge (tenantId : Uuid) :
    FollowsPhases H (.listing tenantId) (ArtifactLifecycleWorker.purge tenantId)
      (EndsOutside (fun _ g => g = .idle)) := by
  refine EndsOutside.bind (P := fun _ g => g = .listing tenantId)
    (outside_stmt .clock trivial (fun _ => rfl) (fun _ => rfl)) ?_
  rintro now g rfl
  refine EndsOutside.bind (P := fun ids g => g = .afterListing tenantId ids)
    (outside_transaction (P := fun (ids : List Uuid) g => g = .afterListing tenantId ids) rfl
      (inside_stmt (.listExpired tenantId now) rfl (fun _ => rfl)) ?_) ?_
  · rintro ids g rfl
    cases ids with
    | nil => exact ⟨nofun, rfl⟩
    | cons id ids => exact ⟨nofun, rfl⟩
  · rintro ids g rfl
    exact EndsOutside.bind (outside_deleteArtifacts ids) (fun _ _ hg => hg)

theorem restsAround_purgeArtifacts : RestsAround H ArtifactLifecycleWorker.runOnce := by
  refine (restsAround_read .selectTenants trivial (fun _ => rfl)).bind (fun tenants => ?_)
  refine RestsAround.sumOver (fun tenantId => ?_) tenants
  refine EndsOutside.bind (P := fun active g => g = if active = true then .idle else
    .listing tenantId)
    (outside_transaction
      (P := fun (active : Bool) g => g = if active = true then .held tenantId else
       .checked tenantId)
      rfl (inside_stmt (.selectHeld tenantId) rfl (fun _ => rfl)) ?_) ?_
  · rintro active g rfl
    cases active with
    | true => exact ⟨nofun, rfl⟩
    | false => exact ⟨nofun, rfl⟩
  · intro active g hg
    cases active with
    | true => exact hg
    | false =>
      subst hg
      exact outside_purge tenantId

/-- **Every worker keeps to the order of its phases.** -/
theorem follows_lifecycleCall (call : LifecycleCall) : RestsAround H (call.body H) := by
  cases call with
  | process W key now => exact (restsAround_process W key now).bind (fun _ => .ret _)
  | runDeletions W now => exact (restsAround_runDeletions W now).bind (fun _ => .ret _)
  | sweep now => exact (restsAround_sweep now).bind (fun _ => .ret _)
  | purgeArtifacts => exact restsAround_purgeArtifacts.bind (fun _ => .ret _)

end Programs
