import AgentPlatform.LifecycleWrites

/-!
# Completion is proven

A request is completed in the transaction that has stored a proof of every
backend, and proofs are overwritten but never removed. Several executions of one
request may overlap, fail and be retried, and the proofs they leave may come from
different ones; but each is of a verified erasure, and none is ever missing once
the request is completed.
-/

/-- **Every stored proof attests, and a completed request has one of every
backend.** -/
structure CompletionProven (H : ProofHashing) (db : LifecycleDb) : Prop where
  attests : ∀ key backend row, db.proofs.get (key, backend) = some row →
    H.Attests key backend row
  complete : ∀ key row, db.requests.get key = some row → row.status = .completed →
    ∀ backend, ∃ p, db.proofs.get (key, backend) = some p

variable {H : ProofHashing}

/-- **The writes of a phase keep completion proven.** -/
theorem CompletionProven.applyAll {db : LifecycleDb} (h : CompletionProven H db)
    {g : LifecyclePhase} {ws : List LifecycleWrite} (hws : g.Wrote H ws) (hg : g ≠ .failing) :
    CompletionProven H (lifecycleEngine.applyAll ws db) := by
  have hproof : ∀ key backend, ∀ p, db.proofs.get (key, backend) = some p →
      ∃ p', (lifecycleEngine.applyAll ws db).proofs.get (key, backend) = some p' := by
    intro key backend p hp
    rcases proofs_applyAll ws db key backend with ⟨-, hsame⟩ | ⟨row, -, hnew⟩
    · exact ⟨p, hsame.trans hp⟩
    · exact ⟨row, hnew⟩
  refine ⟨fun key backend row hrow => ?_, fun key row hrow hcompleted backend => ?_⟩
  · rcases proofs_applyAll ws db key backend with ⟨-, hsame⟩ | ⟨row', hw, hnew⟩
    · exact h.attests key backend row (hsame.symm.trans hrow)
    · obtain rfl := Option.some.inj (hnew.symm.trans hrow)
      cases hws.writes hg hw with
      | proof _ _ _ _ hattests => exact hattests
  · rcases requests_applyAll ws db key with hsame | ⟨row', hw, hnew⟩
    · obtain ⟨p, hp⟩ := h.complete key row (hsame.symm.trans hrow) hcompleted backend
      exact hproof key backend p hp
    · obtain rfl := Option.some.inj (hnew.symm.trans hrow)
      -- Only an outcome completes a request, and next to it stand the proofs.
      cases hws.writes hg hw with
      | block _ _ hstatus => exact nomatch hstatus.symm.trans hcompleted
      | claim _ _ hstatus => exact nomatch hstatus.symm.trans hcompleted
      | outcome _ _ _ hall =>
        obtain ⟨p, hp⟩ := hall hcompleted backend
        rcases proofs_applyAll ws db key backend with ⟨hnone, -⟩ | ⟨p', -, hnew'⟩
        · exact absurd hp (hnone p)
        · exact ⟨p', hnew'⟩

/-- What happens besides touches no completed request. -/
theorem CompletionProven.event {db db' : LifecycleDb} (h : CompletionProven H db)
    {e : LifecycleEvent} (he : EventKeeps e db db') : CompletionProven H db' := by
  refine ⟨fun key backend row hrow => ?_, fun key row hrow hcompleted backend => ?_⟩
  · rw [he.proofs] at hrow
    exact h.attests key backend row hrow
  · rw [he.proofs]
    rcases he.pending key row hrow with hold | hpending
    · exact h.complete key row hold hcompleted backend
    · exact nomatch hpending.symm.trans hcompleted

/-- Workers keep completion proven. -/
def proofDiscipline (H : ProofHashing) :
    Pool.Discipline (phasedWorkers H) (fun x => lifecycleStart x.1 ∧ x.2 = fun _ => .idle)
      (fun _ _ => True) (fun _ _ _ _ => True) (fun _ _ => True) :=
  Pool.Discipline.ofPhases (LifecyclePhase.permits H)
    (fun x => WritesInPhase H x.1 x.2 ∧ CompletionProven H x.1.committed) (fun _ _ => True)
    (fun _ => trivial) (fun _ _ _ _ _ => trivial)
    (by
      rintro s rfl
      exact ⟨writesInPhase_start H rfl,
        ⟨fun _ _ _ hrow => (nomatch hrow), fun _ _ hrow => (nomatch hrow)⟩⟩)
    (phasedWorkers_follow H)
    (by
      intro pid c op s g r s' ⟨hwrites, hproven⟩ hop _ hh
      obtain ⟨hwrites', heffect⟩ := phased_step hwrites hop hh
      refine ⟨⟨hwrites', ?_⟩, trivial⟩
      cases heffect with
      | still hcommitted => exact hcommitted ▸ hproven
      | erased key reached backend hg hnew hcommitted => exact hcommitted ▸ hproven
      | published ws hpending _ hg hs =>
        subst hs
        show CompletionProven H (lifecycleEngine.view s pid)
        rw [Engine.view, hpending]
        exact hproven.applyAll (hwrites.wrote pid ws hpending) hg)
    (fun pid s g h => ⟨⟨h.1.abandon pid, h.2⟩, trivial⟩)
    (by
      rintro e s g s' ⟨hwrites, hproven⟩ - hE
      obtain ⟨db, hdb, rfl⟩ := Option.map_eq_some_iff.mp hE
      exact ⟨⟨hwrites.event db, hproven.event (eventKeeps hdb)⟩, trivial⟩)

/-- **Completion is proven.** In every reachable state, a completed request has
exactly one stored proof for each backend, and every proof stored for it is of a
verified erasure and has the digest of its own fields. -/
theorem completion_proven (H : ProofHashing)
    {w : Pool.State (TxOp LifecycleOp) (TxRes LifecycleRes) LifecycleException LifecycleState
      LifecycleCall LifecycleResult} (h : (lifecycleMachine H).Reach Machine.anyStep w)
    {key : RequestKey} {row : DeletionRequest}
    (hrow : w.shared.committed.requests.get key = some row) (hcompleted : row.status = .completed) :
    (∀ backend, ∃! e, e ∈ w.shared.committed.proofs.items ∧ e.1 = (key, backend))
      ∧ ∀ e ∈ w.shared.committed.proofs.items, e.1.1 = key → e.2.verified = true
        ∧ e.2.evidenceDigest
          = H.digest key.2 e.1.2 e.2.deletedCount e.2.verified e.2.completedAt := by
  obtain ⟨w', hreach, rfl⟩ := Pool.reach_observed (Pool.phases LifecyclePhase.next)
    (fun pid g => Function.update g pid .idle) (fun _ => LifecyclePhase.idle) h
  have hreach' : (phasedMachine H).Reach
      (Pool.stepOk (fun _ _ => True) (fun _ _ _ _ => True) (fun _ _ => True)) w' := by
    refine Machine.Reach.mono (M := phasedMachine H) (fun w l _ => ?_) hreach
    cases l with
    | act pid c => exact fun _ _ _ _ => trivial
    | _ => trivial
  obtain ⟨-, hproven⟩ := (Pool.reach_safe (proofDiscipline H) hreach').inv
  refine ⟨fun backend => ?_, ?_⟩
  · obtain ⟨p, hp⟩ := hproven.complete key row hrow hcompleted backend
    refine ⟨((key, backend), p), ⟨Dictionary.get_eq_some_iff.mp hp, rfl⟩, ?_⟩
    rintro ⟨k, p'⟩ ⟨hmem, rfl⟩
    have hp' := Dictionary.get_eq_some_iff.mpr hmem
    rw [Option.some.inj (hp'.symm.trans hp)]
  · rintro ⟨⟨key', backend⟩, p⟩ hmem rfl
    exact hproven.attests key' backend p (Dictionary.get_eq_some_iff.mpr hmem)

/-- An executor with every backend. -/
def everyBackend : DeletionExecutor where
  backends := [.sql, .redis, .vector, .object, .derived, .backup]
  nodup := by decide
  complete := by
    intro b
    cases b <;> decide

/-- A request that is served: erasures succeed and are verified. -/
def lifecycleAct (pid : ℕ) : Pool.Label (Choice LifecycleAnswer) LifecycleCall LifecycleEvent :=
  .act pid (.serve ⟨100, .ok 3, .ok true, .ok ()⟩)

/-- A request for deletion and its processing, from the claim to the outcome. -/
def erasureRun : List (Pool.Label (Choice LifecycleAnswer) LifecycleCall LifecycleEvent) :=
  [Pool.Label.env (LifecycleEvent.createTenant 1), Pool.Label.env
    (LifecycleEvent.createRequest (1, 7) 90),
    Pool.Label.spawn (LifecycleCall.process ⟨everyBackend⟩ (1, 7) (some 100))] ++ List.replicate 25
      (lifecycleAct 0)

theorem completion_proven_erasure : ∃ w, (lifecycleMachine ⟨id, toString⟩).Reach Machine.anyStep w
    ∧ ∃ row, w.shared.committed.requests.get (1, 7) = some row ∧ row.status = .completed
      ∧ (∀ backend, ∃! e, e ∈ w.shared.committed.proofs.items ∧ e.1 = ((1, 7), backend))
      ∧ ∀ e ∈ w.shared.committed.proofs.items, e.1.1 = (1, 7) → e.2.verified = true
        ∧ e.2.evidenceDigest = ProofHashing.digest ⟨id, toString⟩ 7 e.1.2 e.2.deletedCount
          e.2.verified e.2.completedAt := by
  have hrun : ((lifecycleMachine ⟨id, toString⟩).run
      (Pool.idle emptyLifecycle) erasureRun).map
        (fun w => decide ((w.shared.committed.requests.get (1, 7)).map
        DeletionRequest.status = some .completed)) = some true := by
    decide +kernel
  have hinit : (lifecycleMachine ⟨id, toString⟩).init (Pool.idle emptyLifecycle) :=
    ⟨_, rfl, rfl⟩
  obtain ⟨w, hw, htest⟩ := Machine.reach_of_run hinit hrun
  obtain ⟨row, hrow, hcompleted⟩ := Option.map_eq_some_iff.mp (of_decide_eq_true htest)
  obtain ⟨hone, hall⟩ := completion_proven ⟨id, toString⟩ hw hrow hcompleted
  exact ⟨w, hw, row, hrow, hcompleted, hone, hall⟩
