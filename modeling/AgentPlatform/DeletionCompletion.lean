import AgentPlatform.DeletionProofs

/-!
# Whether a completed erasure stays completed

Two branches of `process` write to a request without looking at its status. The
hold branch blocks whatever request the call was given, also one that another
worker has completed since it was listed. And an outcome is recorded by whoever
executed, also by a worker whose lease has been taken over and whose request the
other has completed.

Where neither happens – no call finds a hold for a completed request, and no
request is claimed while another call is at it – a call that is at a request is
the only one, the request is not completed while it is, and a completed request
is never written again.
-/

/-- The request is completed. -/
def LifecycleDb.Done (db : LifecycleDb) (key : RequestKey) : Prop :=
  ∃ row, db.requests.get key = some row ∧ row.status = .completed

/-- **The worker is at the request**: it has claimed it, and has not recorded an
outcome yet. -/
def LifecyclePhase.At (key : RequestKey) : LifecyclePhase → Prop
  | .claimed k => k = key
  | .executing k _ => k = key
  | .executed k => k = key
  | .recording k _ => k = key
  | _ => False

/-- **No call finds a hold for a completed request, and a request is claimed only
when no other call is at it.** -/
def SparesCompleted (pid : ℕ) (_ : Choice LifecycleAnswer) (op : TxOp LifecycleOp)
    (x : PhasedState) : Prop :=
  match op with
  | .run (.block key) => ¬ (lifecycleEngine.view x.1 pid).Done key
  | .run (.claim key current) => (lifecycleEngine.view x.1 pid).claimable key current = true →
      ∀ q, q ≠ pid → ¬ (x.2 q).At key
  | _ => True

/-- The steps of the workers that meet the condition. -/
abbrev sparingStep (w : PhasedPool)
    (l : Pool.Label (Choice LifecycleAnswer) LifecycleCall LifecycleEvent) : Prop :=
  Pool.stepOk (fun _ _ => True) SparesCompleted (fun _ _ => True) w l

/-- **Who is at a request, and who may still block it.** -/
structure RequestsGuarded (s : LifecycleState) (g : ℕ → LifecyclePhase) : Prop where
  alone : ∀ p q key, (g p).At key → (g q).At key → p = q
  running : ∀ p key, (g p).At key → ¬ s.committed.Done key
  blocking : ∀ p tenantId ws, g p = .held tenantId → s.pending p = some ws →
    ∀ key row, .setRequest key row ∈ ws → ¬ s.committed.Done key

/-- **Completed requests and their proofs are as they were.** -/
def CompletedKept (db db' : LifecycleDb) : Prop :=
  ∀ key row, db.requests.get key = some row → row.status = .completed →
    db'.requests.get key = some row
      ∧ ∀ backend, db'.proofs.get (key, backend) = db.proofs.get (key, backend)

theorem CompletedKept.refl (db : LifecycleDb) : CompletedKept db db :=
  fun _ _ hrow _ => ⟨hrow, fun _ => rfl⟩

theorem CompletedKept.trans {a b c : LifecycleDb} (h : CompletedKept a b)
    (h' : CompletedKept b c) : CompletedKept a c := by
  intro key row hrow hcompleted
  obtain ⟨hrow', hproofs⟩ := h key row hrow hcompleted
  obtain ⟨hrow'', hproofs'⟩ := h' key row hrow' hcompleted
  exact ⟨hrow'', fun b => (hproofs' b).trans (hproofs b)⟩

/-! ## How phases move on -/

section Steps

variable {H : ProofHashing} {s s' : LifecycleState} {g : ℕ → LifecyclePhase} {pid : ℕ}
  {key : RequestKey}

/-- A failure puts no worker at a request. -/
theorem LifecyclePhase.At.of_failed {g : LifecyclePhase} (h : g.failed.At key) : g.At key := by
  cases g with
  | executing k reached => exact h
  | _ => exact h.elim

/-- Nor does any statement but a claim. -/
theorem LifecyclePhase.At.of_stated {g : LifecyclePhase} {op : LifecycleOp}
    {r : Except LifecycleException (LifecycleRes op)}
    (hop : ∀ current, op ≠ .claim key current) (h : (g.stated op r).At key) : g.At key := by
  cases r with
  | error e =>
    rw [LifecyclePhase.stated_error] at h
    exact h.of_failed
  | ok a =>
    cases op with
    | claim k current =>
      have h' : (if a = true then LifecyclePhase.claimed k else .opened).At key := h
      split at h'
      · obtain rfl : k = key := h'
        exact absurd rfl (hop current)
      · exact h'.elim
    | erase backend tenantId =>
      cases g with
      | executing k reached => exact h
      | _ => exact h
    | verifyErased backend tenantId =>
      have h' : (if a = true then g else g.failed).At key := h
      split at h'
      · exact h'
      · exact h'.of_failed
    | selectHeld tenantId =>
      have h' : (if a = true then LifecyclePhase.held tenantId else .checked tenantId).At key := h
      split at h'
      · exact h'.elim
      · exact h'.elim
    | upsertProof k backend row =>
      cases g with
      | recording k' proven => exact h
      | _ => exact h
    | selectPolicy tenantId => exact h.elim
    | listExpired tenantId now =>
      have h' : (if List.length a = 0 then LifecyclePhase.idle
        else .purging tenantId (List.length a)).At key := h
      split at h'
      · exact h'.elim
      · exact h'.elim
    | deleteArtifact tenantId id =>
      cases g with
      | deleting t left =>
        cases left with
        | zero => exact h.elim
        | succ n => exact h.elim
      | _ => exact h
    | _ => exact h

/-- **Only a claim puts a worker at a request.** -/
theorem LifecyclePhase.At.of_next {g : LifecyclePhase} {op : TxOp LifecycleOp}
    {r : Except LifecycleException (TxRes LifecycleRes op)}
    (hop : ∀ current, op ≠ .run (.claim key current)) (h : (g.next op r).At key) : g.At key := by
  cases op with
  | run op => exact LifecyclePhase.At.of_stated (fun current heq => hop current (heq ▸ rfl)) h
  | begin =>
    cases r with
    | error e => exact h.elim
    | ok u =>
      cases g with
      | executing k reached => exact h
      | executed k => exact h
      | _ => exact h.elim
  | commit =>
    cases r with
    | error e => exact h.elim
    | ok u =>
      cases g with
      | claimed k => exact h
      | deleting t left =>
        cases left with
        | zero => exact h.elim
        | succ n => exact h.elim
      | _ => exact h.elim
  | rollback => exact h.elim

theorem LifecyclePhase.held_of_stated {g : LifecyclePhase} {op : LifecycleOp}
    {r : Except LifecycleException (LifecycleRes op)} {tenantId : Uuid}
    (hop : g.permits H (.run op)) (h : g.stated op r = .held tenantId) :
    g = .held tenantId ∨ g = .opened := by
  have hfailed : g.failed = .held tenantId → g = .held tenantId := by
    intro h
    cases g <;> cases h
  cases r with
  | error e =>
    rw [LifecyclePhase.stated_error] at h
    exact .inl (hfailed h)
  | ok a =>
    cases op with
    | selectHeld t => exact .inr hop
    | claim k current =>
      have h' : (if a = true then LifecyclePhase.claimed k else .opened : LifecyclePhase)
          = .held tenantId := h
      split at h' <;> cases h'
    | erase backend t =>
      obtain ⟨k, reached, rfl, -, -⟩ := hop
      cases h
    | verifyErased backend t =>
      have h' : (if a = true then g else g.failed : LifecyclePhase) = .held tenantId := h
      split at h'
      · exact .inl h'
      · exact .inl (hfailed h')
    | upsertProof k backend row =>
      obtain ⟨⟨proven, rfl⟩, -⟩ := hop
      cases h
    | selectPolicy t => cases h
    | listExpired t now =>
      have h' : (if List.length a = 0 then LifecyclePhase.idle
        else .purging t (List.length a) : LifecyclePhase) = .held tenantId := h
      split at h' <;> cases h'
    | deleteArtifact t id =>
      obtain ⟨n, rfl⟩ := hop
      cases h
    | _ => exact .inl h

/-- A worker that has found a hold had found it before, or finds it now. -/
theorem LifecyclePhase.held_of_next {g : LifecyclePhase} {op : TxOp LifecycleOp}
    {r : Except LifecycleException (TxRes LifecycleRes op)} {tenantId : Uuid}
    (hop : g.permits H op) (h : g.next op r = .held tenantId) :
    g = .held tenantId ∨ g = .opened := by
  cases op with
  | begin =>
    cases r with
    | error e => cases h
    | ok u => cases g <;> cases h
  | commit =>
    cases r with
    | error e => cases h
    | ok u =>
      cases g with
      | deleting t left => cases left <;> cases h
      | _ => cases h
  | rollback => cases h
  | run op => exact LifecyclePhase.held_of_stated hop h

/-! ## The step -/

theorem LifecycleDb.Done.of_applyAll {ws : List LifecycleWrite} {db : LifecycleDb}
    (h : (lifecycleEngine.applyAll ws db).Done key) :
    db.Done key ∨ ∃ row, .setRequest key row ∈ ws ∧ row.status = .completed := by
  obtain ⟨row, hrow, hcompleted⟩ := h
  rcases requests_applyAll ws db key with hsame | ⟨row', hw, hnew⟩
  · exact .inl ⟨row, hsame.symm.trans hrow, hcompleted⟩
  · obtain rfl := Option.some.inj (hnew.symm.trans hrow)
    exact .inr ⟨row', hw, hcompleted⟩

/-- A worker that has not written to a completed request sees it completed. -/
theorem view_done (hws : ∀ ws, s.pending pid = some ws → ∀ row, .setRequest key row ∈ ws →
      ¬ s.committed.Done key) (h : s.committed.Done key) :
    (lifecycleEngine.view s pid).Done key := by
  unfold Engine.view
  cases hp : s.pending pid with
  | none => exact h
  | some ws =>
    obtain ⟨row, hrow, hcompleted⟩ := id h
    rcases requests_applyAll ws s.committed key with hsame | ⟨row', hw, -⟩
    · exact ⟨row, hsame.trans hrow, hcompleted⟩
    · exact absurd h (hws ws hp row' hw)

theorem exec_claim_refused {db : LifecycleDb} {current : Timestamp}
    (h : ¬ db.claimable key current = true) (a : LifecycleAnswer) (free : LifecycleKey → Bool)
    (x : List Erasure) : (lifecycleEngine.exec a (.claim key current) free db x).1 = .ok false := by
  show (if db.claimable key current = true then _ else _ : _ × _ × _).1 = _
  rw [if_neg h]

/-- **A worker that comes to be at a request is alone at it, and it is not
completed.** -/
theorem RequestsGuarded.at_next (h : RequestsGuarded s g) (hwrites : WritesInPhase H s g)
    {op : TxOp LifecycleOp} {c : Choice LifecycleAnswer}
    {r : Except LifecycleException (TxRes LifecycleRes op)} (hop : (g pid).permits H op)
    (hok : SparesCompleted pid c op (s, g))
    (hh : lifecycleEngine.handler pid c op s = some (r, s'))
    (hat : ((g pid).next op r).At key) :
    ¬ s.committed.Done key ∧ ∀ q, q ≠ pid → ¬ (g q).At key := by
  by_cases hclaim : ∃ current, op = .run (.claim key current)
  · obtain ⟨current, rfl⟩ := hclaim
    have hchecked : g pid = .checked key.1 := hop
    rcases lifecycleEngine.run_cases hh with ⟨-, rfl, -⟩ | ⟨a, -, -, rfl, -⟩
    · have hat' : (g pid).failed.At key := hat
      rw [hchecked] at hat'
      exact hat'.elim
    · by_cases hclaimable : (lifecycleEngine.view s pid).claimable key current = true
      · refine ⟨fun hdone => ?_, hok hclaimable⟩
        have hnothing : ∀ ws, s.pending pid = some ws → ∀ row, .setRequest key row ∈ ws →
            ¬ s.committed.Done key := by
          intro ws hp row hw
          have hnil : ws = [] := by
            have hwrote := hwrites.wrote pid ws hp
            rw [hchecked] at hwrote
            exact hwrote
          rw [hnil] at hw
          cases hw
        obtain ⟨row, hrow, hcompleted⟩ := view_done hnothing hdone
        unfold LifecycleDb.claimable at hclaimable
        rw [hrow] at hclaimable
        simp [DeletionRequest.claimable, hcompleted] at hclaimable
      · have hat' : ((g pid).stated (.claim key current) (lifecycleEngine.exec a
            (.claim key current) (Engine.free s pid)
              (lifecycleEngine.view s pid) s.ext).1).At key :=
          hat
        rw [exec_claim_refused hclaimable] at hat'
        exact hat'.elim
  · have hat' := hat.of_next (fun current heq => hclaim ⟨current, heq⟩)
    exact ⟨h.running pid key hat', fun q hq hatq => hq (h.alone q pid key hatq hat')⟩

/-- **What a worker is about to block is not completed.** -/
theorem RequestsGuarded.blocking_next (h : RequestsGuarded s g) (hwrites : WritesInPhase H s g)
    {op : TxOp LifecycleOp} {c : Choice LifecycleAnswer}
    {r : Except LifecycleException (TxRes LifecycleRes op)} (hop : (g pid).permits H op)
    (hok : SparesCompleted pid c op (s, g))
    (hh : lifecycleEngine.handler pid c op s = some (r, s')) {tenantId : Uuid}
    (hheld : (g pid).next op r = .held tenantId) {ws : List LifecycleWrite}
    (hws : s'.pending pid = some ws) {row : DeletionRequest} (hw : .setRequest key row ∈ ws) :
    ¬ s.committed.Done key := by
  have hphase := LifecyclePhase.held_of_next hop hheld
  have hold : ∀ old, s.pending pid = some old → ∀ key row, .setRequest key row ∈ old →
      ¬ s.committed.Done key := by
    intro old hp key row hw
    rcases hphase with hg | hg
    · exact h.blocking pid tenantId old hg hp key row hw
    · have hwrote := hwrites.wrote pid old hp
      rw [hg] at hwrote
      obtain rfl : old = [] := hwrote
      cases hw
  rcases Engine.pending_of_handler hh hws _ hw with ⟨old, hp, hw⟩ | ⟨op', a, rfl, hw⟩
  · exact hold old hp key row hw
  · cases op' with
    | block key' =>
      obtain ⟨row', -, heq⟩ := mem_updateRequest hw
      obtain ⟨rfl, -⟩ := LifecycleWrite.setRequest.inj heq
      exact fun hdone => hok (view_done (fun old hp row hw => hold old hp _ row hw) hdone)
    | claim key' current =>
      have hg : g pid = .checked key'.1 := hop
      rcases hphase with hg' | hg' <;> exact nomatch hg.symm.trans hg'
    | setRetryable key' next error =>
      obtain ⟨proven, hg⟩ := hop
      rcases hphase with hg' | hg' <;> exact nomatch hg.symm.trans hg'
    | setCompleted key' current =>
      obtain ⟨proven, hg, -⟩ := hop
      rcases hphase with hg' | hg' <;> exact nomatch hg.symm.trans hg'
    | upsertProof key' backend row' =>
      obtain ⟨⟨proven, hg⟩, -⟩ := hop
      rcases hphase with hg' | hg' <;> exact nomatch hg.symm.trans hg'
    | expire table t cutoff =>
      have hg : g pid = .sweeping t := hop
      rcases hphase with hg' | hg' <;> exact nomatch hg.symm.trans hg'
    | deleteArtifact t id =>
      obtain ⟨n, hg⟩ := hop
      rcases hphase with hg' | hg' <;> exact nomatch hg.symm.trans hg'
    | _ => cases hw

/-- **What a commit completes was at no other worker, and what was completed it
leaves alone.** -/
theorem RequestsGuarded.published (h : RequestsGuarded s g) (hwrites : WritesInPhase H s g)
    {ws : List LifecycleWrite} (hp : s.pending pid = some ws) (hg : g pid ≠ .failing) :
    CompletedKept s.committed (lifecycleEngine.applyAll ws s.committed)
      ∧ ∀ key, (lifecycleEngine.applyAll ws s.committed).Done key →
        s.committed.Done key ∨ (∃ proven, g pid = .recording key proven)
          ∧ s.holder (.request key) = some pid := by
  have hwrote := hwrites.wrote pid ws hp
  refine ⟨fun key row hrow hcompleted => ?_, fun key hdone => ?_⟩
  · have hdone : s.committed.Done key := ⟨row, hrow, hcompleted⟩
    constructor
    · rcases requests_applyAll ws s.committed key with hsame | ⟨row', hw, -⟩
      · exact hsame.trans hrow
      · refine absurd hdone ?_
        generalize hphase : g pid = phase at hwrote hg
        cases hwrote.writes hg hw with
        | block => exact h.blocking pid key.1 ws hphase hp key row' hw
        | claim => exact h.running pid key (hphase ▸ rfl)
        | outcome => exact h.running pid key (hphase ▸ rfl)
    · intro backend
      rcases proofs_applyAll ws s.committed key backend with ⟨-, hsame⟩ | ⟨row', hw, -⟩
      · exact hsame
      · refine absurd hdone ?_
        generalize hphase : g pid = phase at hwrote hg
        cases hwrote.writes hg hw with
        | proof => exact h.running pid key (hphase ▸ rfl)
  · rcases hdone.of_applyAll with hdone | ⟨row, hw, hcompleted⟩
    · exact .inl hdone
    · refine .inr ⟨?_, hwrites.owned pid ws hp _ hw⟩
      generalize g pid = phase at hwrote hg ⊢
      cases hwrote.writes hg hw with
      | block _ _ hstatus => exact nomatch hstatus.symm.trans hcompleted
      | claim _ _ hstatus => exact nomatch hstatus.symm.trans hcompleted
      | outcome _ proven => exact ⟨proven, rfl⟩

/-- **The step**: requests stay guarded, and completed ones as they were. -/
theorem RequestsGuarded.step (h : RequestsGuarded s g) (hwrites : WritesInPhase H s g)
    {op : TxOp LifecycleOp} {c : Choice LifecycleAnswer}
    {r : Except LifecycleException (TxRes LifecycleRes op)} (hop : (g pid).permits H op)
    (hok : SparesCompleted pid c op (s, g))
    (hh : lifecycleEngine.handler pid c op s = some (r, s')) :
    RequestsGuarded s' (Function.update g pid ((g pid).next op r))
      ∧ CompletedKept s.committed s'.committed := by
  have hmoves := lifecycleEngine.moves_of_handler hh
  obtain ⟨-, heffect⟩ := phased_step hwrites hop hh
  -- Whatever is done after the step was done before, or a commit of this worker did it.
  have hdone : CompletedKept s.committed s'.committed
      ∧ ∀ key, s'.committed.Done key → s.committed.Done key
        ∨ (∃ proven, g pid = .recording key proven) ∧ op = .commit
          ∧ s.holder (.request key) = some pid := by
    cases heffect with
    | still hcommitted =>
      rw [hcommitted]
      exact ⟨.refl _, fun _ => .inl⟩
    | erased key reached backend hg hnew hcommitted =>
      rw [hcommitted]
      exact ⟨.refl _, fun _ => .inl⟩
    | published ws hp hcommit hg hs =>
      obtain ⟨hkept, hdone⟩ := h.published hwrites hp hg
      have hcommitted : s'.committed = lifecycleEngine.applyAll ws s.committed := by
        subst hs
        show lifecycleEngine.view s pid = _
        rw [Engine.view, hp]
      rw [hcommitted]
      exact ⟨hkept, fun key hkey => (hdone key hkey).imp_right (fun h => ⟨h.1, hcommit, h.2⟩)⟩
  obtain ⟨hkept, hdone⟩ := hdone
  have hsame : ∀ q, q ≠ pid → Function.update g pid ((g pid).next op r) q = g q :=
    fun q hq => Function.update_of_ne hq _ _
  have hself : Function.update g pid ((g pid).next op r) pid = (g pid).next op r :=
    Function.update_self ..
  refine ⟨⟨fun p q key hp hq => ?_, fun p key hp hdone' => ?_,
    fun p tenantId ws hp hws key row hw hdone' => ?_⟩, hkept⟩
  · by_cases hpp : p = pid
    · by_cases hqp : q = pid
      · exact hpp.trans hqp.symm
      · rw [hpp, hself] at hp
        rw [hsame q hqp] at hq
        exact absurd hq ((h.at_next hwrites hop hok hh hp).2 q hqp)
    · rw [hsame p hpp] at hp
      by_cases hqp : q = pid
      · rw [hqp, hself] at hq
        exact absurd hp ((h.at_next hwrites hop hok hh hq).2 p hpp)
      · rw [hsame q hqp] at hq
        exact h.alone p q key hp hq
  · rcases hdone key hdone' with hold | ⟨⟨proven, hrecording⟩, rfl, -⟩
    · by_cases hpp : p = pid
      · rw [hpp, hself] at hp
        exact (h.at_next hwrites hop hok hh hp).1 hold
      · rw [hsame p hpp] at hp
        exact h.running p key hp hold
    · by_cases hpp : p = pid
      · rw [hpp, hself, hrecording] at hp
        cases r with
        | ok u => exact hp.elim
        | error e => exact hp.elim
      · rw [hsame p hpp] at hp
        refine hpp (h.alone p pid key hp ?_)
        rw [hrecording]
        exact rfl
  · by_cases hpp : p = pid
    · rw [hpp] at hp hws
      rw [hself] at hp
      rcases hdone key hdone' with hold | ⟨⟨proven, hrecording⟩, rfl, -⟩
      · exact h.blocking_next hwrites hop hok hh hp hws hw hold
      · rw [hrecording] at hp
        cases r with
        | ok u => cases hp
        | error e => cases hp
    · rw [hsame p hpp] at hp
      rw [(hmoves.apart hpp).pending] at hws
      rcases hdone key hdone' with hold | ⟨-, -, hheld⟩
      · exact h.blocking p tenantId ws hp hws key row hw hold
      · have hother := hwrites.owned p ws hws _ hw
        exact hpp (Option.some.inj (hother.symm.trans hheld))

/-- A worker that is abandoned is at no request. -/
theorem RequestsGuarded.abandon (h : RequestsGuarded s g) (pid : ℕ) :
    RequestsGuarded (Engine.close s pid) (Function.update g pid .idle) := by
  have hother : ∀ {q : ℕ} {P : LifecyclePhase → Prop}, ¬ P .idle →
      P (Function.update g pid .idle q) → q ≠ pid ∧ P (g q) := by
    intro q P hidle hq
    by_cases hqp : q = pid
    · rw [hqp, Function.update_self] at hq
      exact absurd hq hidle
    · rw [Function.update_of_ne hqp] at hq
      exact ⟨hqp, hq⟩
  have hat : ∀ {q : ℕ} {key : RequestKey}, (Function.update g pid .idle q).At key → (g q).At key :=
    fun {_ key} hq => (hother (P := LifecyclePhase.At key) (fun h => h) hq).2
  refine ⟨fun p q key hp hq => h.alone p q key (hat hp) (hat hq),
    fun p key hp => h.running p key (hat hp), fun p tenantId ws hp hws => ?_⟩
  obtain ⟨hpp, hp'⟩ := hother (P := fun x => x = .held tenantId) nofun hp
  exact h.blocking p tenantId ws hp' ((Function.update_of_ne hpp _ _).symm.trans hws)

/-- What happens besides completes no request. -/
theorem RequestsGuarded.event (h : RequestsGuarded s g) {e : LifecycleEvent} {db : LifecycleDb}
    (he : EventKeeps e s.committed db) :
    RequestsGuarded { s with committed := db } g ∧ CompletedKept s.committed db := by
  have hold : ∀ {key}, db.Done key → s.committed.Done key := by
    rintro key ⟨row, hrow, hcompleted⟩
    rcases he.pending key row hrow with hrow | hpending
    · exact ⟨row, hrow, hcompleted⟩
    · exact nomatch hpending.symm.trans hcompleted
  refine ⟨⟨h.alone, fun p key hp hdone => h.running p key hp (hold hdone), ?_⟩,
    fun key row hrow _ => ⟨he.requests key row hrow, fun backend => ?_⟩⟩
  · exact fun p tenantId ws hp hws key row hw hdone =>
      h.blocking p tenantId ws hp hws key row hw (hold hdone)
  · rw [he.proofs]

end Steps

/-- Workers that meet the condition keep completed requests. -/
def completionDiscipline (H : ProofHashing) :
    Pool.Discipline (phasedWorkers H) (fun x => lifecycleStart x.1 ∧ x.2 = fun _ => .idle)
      (fun _ _ => True) SparesCompleted (fun _ _ => True) :=
  Pool.Discipline.ofPhases (LifecyclePhase.permits H)
    (fun x => WritesInPhase H x.1 x.2 ∧ RequestsGuarded x.1 x.2)
    (fun x y => CompletedKept x.1.committed y.1.committed)
    (fun _ => .refl _) (fun _ _ _ => .trans)
    (by
      rintro s rfl
      exact ⟨writesInPhase_start H rfl, fun _ _ _ hp => hp.elim, fun _ _ hp => hp.elim,
        fun _ _ _ hp => (nomatch hp)⟩)
    (phasedWorkers_follow H)
    (by
      intro pid c op s g r s' ⟨hwrites, hguarded⟩ hop hok hh
      obtain ⟨hguarded', hkept⟩ := hguarded.step hwrites hop hok hh
      exact ⟨⟨(phased_step hwrites hop hh).1, hguarded'⟩, hkept⟩)
    (fun pid s g h => ⟨⟨h.1.abandon pid, h.2.abandon pid⟩, .refl _⟩)
    (by
      rintro e s g s' ⟨hwrites, hguarded⟩ - hE
      obtain ⟨db, hdb, rfl⟩ := Option.map_eq_some_iff.mp hE
      obtain ⟨hguarded', hkept⟩ := hguarded.event (eventKeeps hdb)
      exact ⟨⟨hwrites.event db, hguarded'⟩, hkept⟩)

/-- **A completed erasure stays completed**, where no call finds a hold for a
completed request and no request is claimed while another call is at it. -/
theorem completed_erasure_stays (H : ProofHashing) {w w' : PhasedPool}
    (h : (phasedMachine H).Reach sparingStep w) (hs : (phasedMachine H).Steps sparingStep w w')
    {key : RequestKey} {row : DeletionRequest}
    (hrow : w.shared.1.committed.requests.get key = some row)
    (hcompleted : row.status = .completed) :
    w'.shared.1.committed.requests.get key = some row
      ∧ ∀ backend, w'.shared.1.committed.proofs.get (key, backend)
        = w.shared.1.committed.proofs.get (key, backend) := by
  have hkept : CompletedKept w.shared.1.committed w'.shared.1.committed := by
    refine Machine.Steps.trans_rel (M := phasedMachine H)
      (R := fun w w' => CompletedKept w.shared.1.committed w'.shared.1.committed)
      (fun _ => .refl _) (fun _ _ _ => .trans) (fun w l w' hreach hok hstep => ?_) h hs
    obtain ⟨q, -, hkept⟩ := (completionDiscipline H).step_rely
      (Pool.reach_safe (completionDiscipline H) hreach) hok hstep
    exact hkept
  exact hkept key row hrow hcompleted

/-! ## Runs -/

instance (key : RequestKey) : DecidablePred (LifecyclePhase.At key)
  | .claimed k => inferInstanceAs (Decidable (k = key))
  | .executing k _ => inferInstanceAs (Decidable (k = key))
  | .executed k => inferInstanceAs (Decidable (k = key))
  | .recording k _ => inferInstanceAs (Decidable (k = key))
  | .idle => isFalse id
  | .opened => isFalse id
  | .held _ => isFalse id
  | .checked _ => isFalse id
  | .sweeping _ => isFalse id
  | .listing _ => isFalse id
  | .purging .. => isFalse id
  | .deleting .. => isFalse id
  | .failing => isFalse id

/-- A test of the condition, for the calls that have arrived. -/
def sparingTest (w : PhasedPool) :
    Pool.Label (Choice LifecycleAnswer) LifecycleCall LifecycleEvent → Bool
  | .act pid _ =>
    match w.threads pid with
    | some (_, .call (.run (.block key)) _) =>
      !((lifecycleEngine.view w.shared.1 pid).requests.get key).any (fun r => r.status = .completed)
    | some (_, .call (.run (.claim key _)) _) =>
      (List.range w.spawned).all (fun q => q = pid || !decide ((w.shared.2 q).At key))
    | _ => true
  | _ => true

/-- Calls that have not arrived are at rest. -/
theorem sparingStep_of_test {H : ProofHashing} {w : PhasedPool}
    {l : Pool.Label (Choice LifecycleAnswer) LifecycleCall LifecycleEvent}
    (h : (phasedMachine H).Reach sparingStep w) (hl : sparingTest w l = true) :
    sparingStep w l := by
  cases l with
  | act pid c =>
    intro call op k hth
    simp only [sparingTest, hth] at hl
    cases op with
    | run op =>
      cases op with
      | block key =>
        rintro ⟨row, hrow, hcompleted⟩
        have hrow' : (lifecycleEngine.view w.shared.1 pid).requests.get key = some row := hrow
        have hl' : (!((lifecycleEngine.view w.shared.1 pid).requests.get key).any
          (fun r => r.status = .completed)) = true := hl
        rw [hrow'] at hl'
        simp [hcompleted] at hl'
      | claim key current =>
        rintro - q hq hat
        by_cases hlt : q < w.spawned
        · have hq' := List.all_eq_true.mp hl q (List.mem_range.mpr hlt)
          have hat' : decide (LifecyclePhase.At key (w.shared.2 q)) = true := decide_eq_true hat
          rw [hat'] at hq'
          simp [hq] at hq'
        · have hrest : w.shared.2 q = .idle :=
            (Pool.reach_safe (completionDiscipline H) h).unused q (Nat.le_of_not_lt hlt)
          have hat' : LifecyclePhase.At key (w.shared.2 q) := hat
          rw [hrest] at hat'
          exact hat'
      | _ => trivial
    | _ => trivial
  | _ => trivial

/-- After the erasure, another call for the same request. -/
def erasureAgain : List (Pool.Label (Choice LifecycleAnswer) LifecycleCall LifecycleEvent) :=
  [Pool.Label.spawn (LifecycleCall.process ⟨everyBackend⟩ (1, 7) (some 200))] ++ List.replicate 4
    (lifecycleAct 1)

/-- It finds nothing to claim. -/
theorem completed_erasure_stays_again : ∃ w w', (phasedMachine ⟨id, toString⟩).Reach sparingStep w
    ∧ (phasedMachine ⟨id, toString⟩).Steps sparingStep w w'
    ∧ ∃ row, w.shared.1.committed.requests.get (1, 7) = some row ∧ row.status = .completed
      ∧ w'.replies.length = 2
      ∧ w'.shared.1.committed.requests.get (1, 7) = some row
      ∧ ∀ backend, w'.shared.1.committed.proofs.get ((1, 7), backend)
        = w.shared.1.committed.proofs.get ((1, 7), backend) := by
  have hinit : (phasedMachine ⟨id, toString⟩).init
      (Pool.idle (emptyLifecycle, fun _ => LifecyclePhase.idle)) :=
    ⟨(emptyLifecycle, fun _ => LifecyclePhase.idle), ⟨rfl, rfl⟩, rfl⟩
  have hrun : ((phasedMachine ⟨id, toString⟩).runIf sparingTest
      (Pool.idle (emptyLifecycle, fun _ => LifecyclePhase.idle)) erasureRun).bind (fun w =>
      ((phasedMachine ⟨id, toString⟩).runIf sparingTest w erasureAgain).map (fun w' =>
        decide ((w.shared.1.committed.requests.get (1, 7)).map DeletionRequest.status
          = some .completed) && decide (w'.replies.length = 2))) = some true := by
    decide +kernel
  obtain ⟨w, w', hw, hs, htest⟩ := Machine.steps_of_runIf_runIf
    (fun w l (h : sparingTest w l = true) => h) hinit hrun
  have hw' := Machine.Reach.strengthen (M := phasedMachine ⟨id, toString⟩)
    (fun _ _ hreach hl => sparingStep_of_test hreach hl) hw
  have hs' := Machine.Steps.strengthen (M := phasedMachine ⟨id, toString⟩)
    (fun _ _ hreach hl => sparingStep_of_test hreach hl) hw' hs
  simp only [Bool.and_eq_true, decide_eq_true_eq] at htest
  obtain ⟨row, hrow, hcompleted⟩ := Option.map_eq_some_iff.mp htest.1
  obtain ⟨hrow', hproofs⟩ := completed_erasure_stays ⟨id, toString⟩ hw' hs' hrow hcompleted
  exact ⟨w, w', hw', hs', row, hrow, hcompleted, htest.2, hrow', hproofs⟩

/-- Two runs of the worker have listed the same request, and the second has
completed it. -/
def listedTwice : List (Pool.Label (Choice LifecycleAnswer) LifecycleCall LifecycleEvent) :=
  [Pool.Label.env (LifecycleEvent.createTenant 1), Pool.Label.env
    (LifecycleEvent.createRequest (1, 7) 90),
    Pool.Label.spawn (LifecycleCall.runDeletions ⟨everyBackend⟩ (some 100))] ++ List.replicate 6
      (lifecycleAct 0)
    ++ [Pool.Label.spawn (LifecycleCall.runDeletions ⟨everyBackend⟩ (some 100))] ++ List.replicate
      31 (lifecycleAct 1)

/-- Then a legal hold is activated, and the first goes on. -/
def heldAfterwards : List (Pool.Label (Choice LifecycleAnswer) LifecycleCall LifecycleEvent) :=
  [Pool.Label.env (LifecycleEvent.createHold 1 9 "a"), Pool.Label.env
    (LifecycleEvent.approveHold 1 9 "b")] ++ List.replicate 4 (lifecycleAct 0)

/-- **A completed erasure does not stay completed** in every run: a request that was
listed before it was completed is blocked when a legal hold is active by then. -/
theorem completed_erasure_blocked : ¬ ∀ (H : ProofHashing)
    (w w' : Pool.State (TxOp LifecycleOp) (TxRes LifecycleRes) LifecycleException LifecycleState
      LifecycleCall LifecycleResult), (lifecycleMachine H).Reach Machine.anyStep w →
    (lifecycleMachine H).Steps Machine.anyStep w w' →
    ∀ key row, w.shared.committed.requests.get key = some row → row.status = .completed →
      ∃ row', w'.shared.committed.requests.get key = some row' ∧ row'.status = row.status
        ∧ row'.completedAt = row.completedAt
        ∧ ∀ backend, w'.shared.committed.proofs.get (key, backend)
          = w.shared.committed.proofs.get (key, backend) := by
  intro hall
  have hrun : ((lifecycleMachine ⟨id, toString⟩).run (Pool.idle emptyLifecycle) listedTwice).bind
      (fun w =>
      ((lifecycleMachine ⟨id, toString⟩).run w heldAfterwards).map (fun w' =>
        decide ((w.shared.committed.requests.get (1, 7)).map DeletionRequest.status
          = some .completed)
        && decide ((w'.shared.committed.requests.get (1, 7)).map DeletionRequest.status
          = some .blockedLegalHold))) = some true := by
    decide +kernel
  have hinit : (lifecycleMachine ⟨id, toString⟩).init (Pool.idle emptyLifecycle) :=
    ⟨_, rfl, rfl⟩
  obtain ⟨w, w', hw, hs, htest⟩ := Machine.steps_of_run_run hinit hrun
  simp only [Bool.and_eq_true, decide_eq_true_eq] at htest
  obtain ⟨row, hrow, hcompleted⟩ := Option.map_eq_some_iff.mp htest.1
  obtain ⟨row', hrow', hstatus, -⟩ := hall _ w w' hw hs (1, 7) row hrow hcompleted
  have hblocked := htest.2
  rw [hrow'] at hblocked
  have hboth := (Option.some.inj hblocked).symm.trans (hstatus.trans hcompleted)
  cases hboth
