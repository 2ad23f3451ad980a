import AgentPlatform.DeletionCompletion

/-!
# Whether a legal hold wins

Each worker asks for an active hold before it destroys, and between its question
and its last destructive step lies a *window*: for the sweep the rest of one
transaction, for the deletion worker the whole way over the backends, for the
artifact worker one transaction after the other. A hold that is activated in the
window comes too late for it.

Where no hold of a tenant is activated in the window of a worker that is about to
destroy its content, a hold wins: no backend erases a held tenant, and no commit
destroys content or artifacts of a tenant that is held at that moment.
-/

/-- **The window**: the worker has found the tenant without a hold, and may still
destroy what belongs to it. -/
def LifecyclePhase.MayDestroy (tenantId : Uuid) : LifecyclePhase → Prop
  | .checked t => t = tenantId
  | .claimed key => key.1 = tenantId
  | .executing key reached => key.1 = tenantId ∧ ∃ b, b ∉ reached
  | .sweeping t => t = tenantId
  | .listing t => t = tenantId
  | .purging t _ => t = tenantId
  | .deleting t _ => t = tenantId
  | _ => False

/-- **No hold is activated in a window of its tenant.** -/
def HoldsInTime (x : PhasedState) : LifecycleEvent → Prop
  | .approveHold tenantId _ _ => ∀ pid, ¬ (x.2 pid).MayDestroy tenantId
  | _ => True

/-- The steps of the workers and of the environment that meet the condition. -/
abbrev timelyStep (w : PhasedPool)
    (l : Pool.Label (Choice LifecycleAnswer) LifecycleCall LifecycleEvent) : Prop :=
  Pool.stepOk (fun _ _ => True) (fun _ _ _ _ => True) HoldsInTime w l

/-- **A change that destroys nothing of a held tenant.** -/
structure DestroysUnheld (before after : LifecycleDb) : Prop where
  content : ∀ id row, before.content.get id = some row → after.content.get id ≠ some row →
    before.held row.tenantId = false
  artifacts : ∀ tenantId id expiresAt, before.artifacts.get (tenantId, id) = some expiresAt →
    after.artifacts.get (tenantId, id) ≠ some expiresAt → before.held tenantId = false

theorem DestroysUnheld.refl (db : LifecycleDb) : DestroysUnheld db db :=
  ⟨fun _ _ h hne => absurd h hne, fun _ _ _ h hne => absurd h hne⟩

/-- **Holds are respected**, and no window is open for a held tenant. A row that is
about to go belongs to the tenant it is removed for. -/
structure HoldsRespected (s : LifecycleState) (g : ℕ → LifecyclePhase) : Prop where
  window : ∀ p tenantId, (g p).MayDestroy tenantId → s.committed.held tenantId = false
  erasures : ∀ e ∈ s.ext, e.held = false
  commits : ∀ c ∈ s.log, DestroysUnheld c.before c.after
  content : ∀ p ws tenantId id row, s.pending p = some ws → .expire tenantId id row ∈ ws →
    ∃ r, s.committed.content.get id = some r ∧ r.tenantId = tenantId

section Steps

variable {H : ProofHashing} {s s' : LifecycleState} {g : ℕ → LifecyclePhase} {pid : ℕ}
  {tenantId : Uuid}

theorem LifecyclePhase.not_mayDestroy_failed {g : LifecyclePhase} :
    ¬ g.failed.MayDestroy tenantId := by
  cases g <;> exact id

/-- **Only the question for a hold opens a window.** -/
theorem LifecyclePhase.MayDestroy.of_stated {g : LifecyclePhase} {op : LifecycleOp}
    {r : Except LifecycleException (LifecycleRes op)} (hop : g.permits H (.run op))
    (hne : op ≠ .selectHeld tenantId) (h : (g.stated op r).MayDestroy tenantId) :
    g.MayDestroy tenantId := by
  cases r with
  | error e =>
    rw [LifecyclePhase.stated_error] at h
    exact absurd h LifecyclePhase.not_mayDestroy_failed
  | ok a =>
    cases op with
    | selectHeld t =>
      have h' : (if a = true then LifecyclePhase.held t else .checked t).MayDestroy tenantId := h
      split at h'
      · exact h'.elim
      · obtain rfl : t = tenantId := h'
        exact absurd rfl hne
    | claim key current =>
      obtain rfl : g = .checked key.1 := hop
      have h' : (if a = true then LifecyclePhase.claimed key else .opened).MayDestroy tenantId := h
      split at h'
      · exact h'
      · exact h'.elim
    | erase backend t =>
      obtain ⟨key, reached, rfl, -, -⟩ := hop
      obtain ⟨hkey, b, hb⟩ := h
      exact ⟨hkey, b, fun hmem => hb (List.mem_append_left _ hmem)⟩
    | verifyErased backend t =>
      have h' : (if a = true then g else g.failed).MayDestroy tenantId := h
      split at h'
      · exact h'
      · exact absurd h' LifecyclePhase.not_mayDestroy_failed
    | upsertProof key backend row =>
      obtain ⟨⟨proven, rfl⟩, -⟩ := hop
      exact h
    | selectPolicy t =>
      obtain rfl : g = .checked t := hop
      exact h
    | listExpired t now =>
      obtain rfl : g = .listing t := hop
      have h' : (if List.length a = 0 then LifecyclePhase.idle
        else .purging t (List.length a)).MayDestroy tenantId := h
      split at h'
      · exact h'.elim
      · exact h'
    | deleteArtifact t id =>
      obtain ⟨n, rfl⟩ := hop
      exact h
    | _ => exact h

theorem LifecyclePhase.MayDestroy.of_next {g : LifecyclePhase} {op : TxOp LifecycleOp}
    {r : Except LifecycleException (TxRes LifecycleRes op)} (hop : g.permits H op)
    (hne : op ≠ .run (.selectHeld tenantId)) (h : (g.next op r).MayDestroy tenantId) :
    g.MayDestroy tenantId := by
  cases op with
  | run op => exact LifecyclePhase.MayDestroy.of_stated hop (fun heq => hne (heq ▸ rfl)) h
  | begin =>
    cases r with
    | error e => exact h.elim
    | ok u =>
      cases g with
      | listing t => exact h
      | purging t left => exact h
      | _ => exact h.elim
  | commit =>
    cases r with
    | error e => exact h.elim
    | ok u =>
      cases g with
      | checked t => exact h
      | claimed key => exact h.1
      | purging t left => exact h
      | deleting t left =>
        cases left with
        | zero => exact h.elim
        | succ n => exact h
      | _ => exact h.elim
  | rollback => exact h.elim

/-- **A window is open for a tenant without a hold only.** -/
theorem HoldsRespected.window_next (h : HoldsRespected s g) {op : TxOp LifecycleOp}
    {c : Choice LifecycleAnswer} {r : Except LifecycleException (TxRes LifecycleRes op)}
    (hop : (g pid).permits H op) (hh : lifecycleEngine.handler pid c op s = some (r, s'))
    (hopen : ((g pid).next op r).MayDestroy tenantId) : s.committed.held tenantId = false := by
  by_cases hselect : op = .run (.selectHeld tenantId)
  · subst hselect
    rcases lifecycleEngine.run_cases hh with ⟨-, rfl, -⟩ | ⟨a, -, -, rfl, -⟩
    · exact absurd hopen LifecyclePhase.not_mayDestroy_failed
    · have hopen' : (if (lifecycleEngine.view s pid).held tenantId = true
          then LifecyclePhase.held tenantId else .checked tenantId).MayDestroy tenantId := hopen
      rw [view_held] at hopen'
      split at hopen'
      · exact hopen'.elim
      · rename_i hfree
        exact eq_false_of_ne_true hfree
  · exact h.window pid tenantId (hopen.of_next hop hselect)

/-- **A commit destroys nothing of a held tenant.** -/
theorem HoldsRespected.published (h : HoldsRespected s g) (hwrites : WritesInPhase H s g)
    {ws : List LifecycleWrite} (hp : s.pending pid = some ws) (hg : g pid ≠ .failing) :
    DestroysUnheld s.committed (lifecycleEngine.applyAll ws s.committed) := by
  have hwrote := hwrites.wrote pid ws hp
  refine ⟨fun id row hrow hgone => ?_, fun t id expiresAt hrow hgone => ?_⟩
  · rcases content_applyAll ws s.committed id with hsame | ⟨t, row', hw⟩
    · exact absurd (hsame.trans hrow) hgone
    · obtain ⟨r, hr, rfl⟩ := h.content pid ws t id row' hp hw
      obtain rfl := Option.some.inj (hr.symm.trans hrow)
      generalize hphase : g pid = phase at hwrote hg
      cases hwrote.writes hg hw with
      | expire => exact h.window pid _ (hphase ▸ rfl)
  · rcases artifacts_applyAll ws s.committed t id with hsame | hw
    · exact absurd (hsame.trans hrow) hgone
    · generalize hphase : g pid = phase at hwrote hg
      cases hwrote.writes hg hw with
      | artifact => exact h.window pid _ (hphase ▸ rfl)

/-- **What is about to go belongs to the tenant it is removed for.** -/
theorem HoldsRespected.content_next (h : HoldsRespected s g) (hwrites : WritesInPhase H s g)
    {op : TxOp LifecycleOp} {c : Choice LifecycleAnswer}
    {r : Except LifecycleException (TxRes LifecycleRes op)} (hop : (g pid).permits H op)
    (hh : lifecycleEngine.handler pid c op s = some (r, s')) {ws : List LifecycleWrite} {id : Uuid}
    {row : ContentRow} (hws : s'.pending pid = some ws) (hw : .expire tenantId id row ∈ ws) :
    ∃ r, s.committed.content.get id = some r ∧ r.tenantId = tenantId := by
  rcases Engine.pending_of_handler hh hws _ hw with ⟨old, hp, hw⟩ | ⟨op', a, rfl, hw⟩
  · exact h.content pid old tenantId id row hp hw
  · cases op' with
    | expire table t cutoff =>
      have hg : g pid = .sweeping t := hop
      obtain ⟨e, he, heq⟩ := List.mem_map.mp hw
      obtain ⟨rfl, rfl, rfl⟩ := LifecycleWrite.expire.inj heq
      obtain ⟨hmem, hexpired⟩ := List.mem_filter.mp he
      have hseen := Dictionary.get_eq_some_iff.mpr hmem
      have htenant : e.2.tenantId = t := by
        simp only [ContentRow.expired, Bool.and_eq_true, decide_eq_true_eq] at hexpired
        exact hexpired.1.1.1
      unfold Engine.view at hseen
      cases hp : s.pending pid with
      | none =>
        rw [hp] at hseen
        exact ⟨e.2, hseen, htenant⟩
      | some old =>
        rw [hp] at hseen
        rcases content_applyAll old s.committed e.1 with hsame | ⟨t', row', hw'⟩
        · exact ⟨e.2, hsame.symm.trans hseen, htenant⟩
        · obtain ⟨r, hr, hrt⟩ := h.content pid old t' e.1 row' hp hw'
          have hwrote := hwrites.wrote pid old hp
          rw [hg] at hwrote
          have hidle : LifecyclePhase.sweeping t ≠ .failing := by
            intro hfailing
            cases hfailing
          cases hwrote.writes hidle hw' with
          | expire => exact ⟨r, hr, hrt⟩
    | upsertProof key backend row' =>
      simp only [lifecycleEngine] at hw
      split at hw
      · have heq := List.mem_singleton.mp hw
        cases heq
      · cases hw
    | claim key current =>
      simp only [lifecycleEngine] at hw
      split at hw
      · obtain ⟨row', -, heq⟩ := mem_updateRequest hw
        cases heq
      · cases hw
    | block key =>
      obtain ⟨row', -, heq⟩ := mem_updateRequest hw
      cases heq
    | setRetryable key next error =>
      obtain ⟨row', -, heq⟩ := mem_updateRequest hw
      cases heq
    | setCompleted key current =>
      obtain ⟨row', -, heq⟩ := mem_updateRequest hw
      cases heq
    | deleteArtifact t id' =>
      obtain ⟨e, -, heq⟩ := List.mem_map.mp hw
      cases heq
    | _ => cases hw

/-- **The step**: holds stay respected. -/
theorem HoldsRespected.step (h : HoldsRespected s g) (hwrites : WritesInPhase H s g)
    {op : TxOp LifecycleOp} {c : Choice LifecycleAnswer}
    {r : Except LifecycleException (TxRes LifecycleRes op)} (hop : (g pid).permits H op)
    (hh : lifecycleEngine.handler pid c op s = some (r, s')) :
    HoldsRespected s' (Function.update g pid ((g pid).next op r)) := by
  have hmoves := lifecycleEngine.moves_of_handler hh
  obtain ⟨-, heffect⟩ := phased_step hwrites hop hh
  have hsame : ∀ q, q ≠ pid → Function.update g pid ((g pid).next op r) q = g q :=
    fun q hq => Function.update_of_ne hq _ _
  have hself : Function.update g pid ((g pid).next op r) pid = (g pid).next op r :=
    Function.update_self ..
  -- The holds, the rows others are about to remove and the history.
  have hchange : (∀ t, s'.committed.held t = s.committed.held t)
      ∧ (∀ q, q ≠ pid → ∀ ws t id row, s.pending q = some ws → .expire t id row ∈ ws →
          s'.committed.content.get id = s.committed.content.get id)
      ∧ (op ≠ .commit → s'.committed = s.committed)
      ∧ ∀ c ∈ s'.log, DestroysUnheld c.before c.after := by
    have hlog : (∀ c ∈ s'.log, c ∈ s.log ∨ c.after = c.before) →
        ∀ c ∈ s'.log, DestroysUnheld c.before c.after := by
      intro hlog c hc
      rcases hlog c hc with hc | hc
      · exact h.commits c hc
      · exact hc ▸ .refl _
    cases heffect with
    | still hcommitted _ hl =>
      rw [hcommitted]
      exact ⟨fun _ => rfl, fun _ _ _ _ _ _ _ _ => rfl, fun _ => rfl, hlog hl⟩
    | erased key reached backend hg hnew hcommitted _ hl =>
      rw [hcommitted]
      exact ⟨fun _ => rfl, fun _ _ _ _ _ _ _ _ => rfl, fun _ => rfl, hlog hl⟩
    | published ws hp hcommit hg hs =>
      have hcommitted : s'.committed = lifecycleEngine.applyAll ws s.committed := by
        subst hs
        show lifecycleEngine.view s pid = _
        rw [Engine.view, hp]
      have hlog' : s'.log = s.log ++ [⟨pid, s.committed, s'.committed⟩] := by
        subst hs
        rfl
      refine ⟨fun t => ?_, fun q hq ws' t id row hq' hw => ?_, fun hne => absurd hcommit hne, ?_⟩
      · unfold LifecycleDb.held
        rw [hcommitted, holds_applyAll]
      · rw [hcommitted]
        rcases content_applyAll ws s.committed id with hsame | ⟨t', row', hw'⟩
        · exact hsame
        · have hmine := hwrites.owned pid ws hp _ hw'
          have htheirs := hwrites.owned q ws' hq' _ hw
          exact absurd (Option.some.inj (htheirs.symm.trans hmine)) hq
      · rw [hlog']
        intro c hc
        rcases List.mem_append.mp hc with hc | hc
        · exact h.commits c hc
        · rw [List.mem_singleton.mp hc, hcommitted]
          exact h.published hwrites hp hg
  obtain ⟨hholds, hrows, hkept, hlog⟩ := hchange
  refine ⟨fun p t hp => ?_, ?_, hlog, fun p ws t id row hp hw => ?_⟩
  · rw [hholds]
    by_cases hpp : p = pid
    · rw [hpp, hself] at hp
      exact h.window_next hop hh hp
    · rw [hsame p hpp] at hp
      exact h.window p t hp
  · cases heffect with
    | still _ hext => exact hext ▸ h.erasures
    | erased key reached backend hg hnew _ hext =>
      rw [hext]
      intro e he
      rcases List.mem_append.mp he with he | he
      · exact h.erasures e he
      · rw [List.mem_singleton.mp he]
        exact h.window pid key.1 (hg ▸ ⟨rfl, backend, hnew⟩)
    | published ws _ _ _ hs =>
      subst hs
      exact h.erasures
  · by_cases hpp : p = pid
    · rw [hpp] at hp
      have hcommit : op ≠ .commit := by
        rintro rfl
        have hnone : s'.pending pid = none := by
          cases c with
          | serve a => cases hh; exact Function.update_self ..
          | fault => cases hh; exact Function.update_self ..
          | lost => cases hh; exact Function.update_self ..
        exact nomatch hnone.symm.trans hp
      rw [hkept hcommit]
      exact h.content_next hwrites hop hh hp hw
    · have hp' : s.pending p = some ws := (hmoves.apart hpp).pending.symm.trans hp
      rw [hrows p hpp ws t id row hp' hw]
      exact h.content p ws t id row hp' hw

/-- A worker that is abandoned is in no window. -/
theorem HoldsRespected.abandon (h : HoldsRespected s g) (pid : ℕ) :
    HoldsRespected (Engine.close s pid) (Function.update g pid .idle) := by
  refine ⟨fun p t hp => ?_, h.erasures, h.commits, fun p ws t id row hp hw => ?_⟩
  · by_cases hpp : p = pid
    · rw [hpp, Function.update_self] at hp
      exact hp.elim
    · rw [Function.update_of_ne hpp] at hp
      exact h.window p t hp
  · by_cases hpp : p = pid
    · rw [hpp] at hp
      exact nomatch (Function.update_self ..).symm.trans hp
    · exact h.content p ws t id row ((Function.update_of_ne hpp _ _).symm.trans hp) hw

/-- What happens besides activates no hold in a window. -/
theorem HoldsRespected.event (h : HoldsRespected s g) {e : LifecycleEvent} {db : LifecycleDb}
    (hok : HoldsInTime (s, g) e) (he : EventKeeps e s.committed db) :
    HoldsRespected { s with committed := db } g := by
  refine ⟨fun p t hp => ?_, h.erasures, h.commits, fun p ws t id row hp hw => ?_⟩
  · refine eq_false_of_ne_true (fun hheld => ?_)
    rcases he.held t hheld with hold | ⟨id, subject, rfl⟩
    · exact nomatch (h.window p t hp).symm.trans hold
    · exact hok p hp
  · obtain ⟨r, hr, hrt⟩ := h.content p ws t id row hp hw
    exact ⟨r, he.content id r hr, hrt⟩

end Steps

/-- Workers respect the holds that are activated in time. -/
def holdDiscipline (H : ProofHashing) :
    Pool.Discipline (phasedWorkers H) (fun x => lifecycleStart x.1 ∧ x.2 = fun _ => .idle)
      (fun _ _ => True) (fun _ _ _ _ => True) HoldsInTime :=
  Pool.Discipline.ofPhases (LifecyclePhase.permits H)
    (fun x => WritesInPhase H x.1 x.2 ∧ HoldsRespected x.1 x.2) (fun _ _ => True)
    (fun _ => trivial) (fun _ _ _ _ _ => trivial)
    (by
      rintro s rfl
      exact ⟨writesInPhase_start H rfl, fun _ _ hp => hp.elim, fun _ he => (nomatch he),
        fun _ hc => (nomatch hc), fun _ _ _ _ _ hp => (nomatch hp)⟩)
    (phasedWorkers_follow H)
    (by
      intro pid c op s g r s' ⟨hwrites, hholds⟩ hop _ hh
      exact ⟨⟨(phased_step hwrites hop hh).1, hholds.step hwrites hop hh⟩, trivial⟩)
    (fun pid s g h => ⟨⟨h.1.abandon pid, h.2.abandon pid⟩, trivial⟩)
    (by
      rintro e s g s' ⟨hwrites, hholds⟩ hok hE
      obtain ⟨db, hdb, rfl⟩ := Option.map_eq_some_iff.mp hE
      exact ⟨⟨hwrites.event db, hholds.event hok (eventKeeps hdb)⟩, trivial⟩)

/-- **A legal hold wins**, where none is activated in the window of a worker: no
backend has erased the content of a tenant that was held then, and no commit has
destroyed content or artifacts of a tenant that was held then. -/
theorem legal_hold_wins (H : ProofHashing) {w : PhasedPool}
    (h : (phasedMachine H).Reach timelyStep w) :
    (∀ e ∈ w.shared.1.ext, e.held = false)
      ∧ ∀ c ∈ w.shared.1.log, DestroysUnheld c.before c.after := by
  obtain ⟨-, hholds⟩ := (Pool.reach_safe (holdDiscipline H) h).inv
  exact ⟨hholds.erasures, hholds.commits⟩

/-! ## Runs -/

/-- A test of the condition: nobody is at work when a hold is activated. -/
def timelyTest (w : PhasedPool) :
    Pool.Label (Choice LifecycleAnswer) LifecycleCall LifecycleEvent → Bool
  | .env (.approveHold ..) => (List.range w.spawned).all (fun q => w.shared.2 q = .idle)
  | _ => true

theorem timelyStep_of_test {H : ProofHashing} {w : PhasedPool}
    {l : Pool.Label (Choice LifecycleAnswer) LifecycleCall LifecycleEvent}
    (h : (phasedMachine H).Reach timelyStep w) (hl : timelyTest w l = true) : timelyStep w l := by
  cases l with
  | act pid c => exact fun _ _ _ _ => trivial
  | env e =>
    cases e with
    | approveHold tenantId id subject =>
      intro q hopen
      have hidle : w.shared.2 q = .idle := by
        by_cases hlt : q < w.spawned
        · exact of_decide_eq_true (List.all_eq_true.mp hl q (List.mem_range.mpr hlt))
        · exact (Pool.reach_safe (holdDiscipline H) h).unused q (Nat.le_of_not_lt hlt)
      have hopen' : (w.shared.2 q).MayDestroy tenantId := hopen
      rw [hidle] at hopen'
      exact hopen'
    | _ => trivial
  | _ => trivial

/-- After an erasure a sweep removes an old reply; then a hold is activated, and the
next sweep leaves another alone. -/
def sweepAndHold : List (Pool.Label (Choice LifecycleAnswer) LifecycleCall LifecycleEvent) :=
  erasureRun ++ [Pool.Label.env (LifecycleEvent.addContent 50 ⟨1, .replyDelivery, 0, false⟩),
    Pool.Label.spawn (LifecycleCall.sweep (some (days 8)))] ++ List.replicate 12 (lifecycleAct 1)
  ++ [Pool.Label.env (LifecycleEvent.createHold 1 9 "a"), Pool.Label.env
    (LifecycleEvent.approveHold 1 9 "b"),
    Pool.Label.env (LifecycleEvent.addContent 51 ⟨1, .replyDelivery, 0, false⟩), Pool.Label.spawn
      (LifecycleCall.sweep (some (days 8)))]
  ++ List.replicate 6 (lifecycleAct 2)

theorem legal_hold_wins_sweep : ∃ w, (phasedMachine ⟨id, toString⟩).Reach timelyStep w
    ∧ w.shared.1.ext.length = 6 ∧ w.shared.1.committed.held 1 = true
    ∧ (w.shared.1.committed.content.get 50).map ContentRow.erased = some true
    ∧ (w.shared.1.committed.content.get 51).map ContentRow.erased = some false
    ∧ (∀ e ∈ w.shared.1.ext, e.held = false)
    ∧ ∀ c ∈ w.shared.1.log, DestroysUnheld c.before c.after := by
  have hinit : (phasedMachine ⟨id, toString⟩).init
      (Pool.idle (emptyLifecycle, fun _ => LifecyclePhase.idle)) :=
    ⟨(emptyLifecycle, fun _ => LifecyclePhase.idle), ⟨rfl, rfl⟩, rfl⟩
  have hrun : ((phasedMachine ⟨id, toString⟩).runIf timelyTest
      (Pool.idle (emptyLifecycle, fun _ => LifecyclePhase.idle)) sweepAndHold).map (fun w =>
        decide (w.shared.1.ext.length = 6) && w.shared.1.committed.held 1
        && decide ((w.shared.1.committed.content.get 50).map ContentRow.erased = some true)
        && decide ((w.shared.1.committed.content.get 51).map ContentRow.erased = some false))
      = some true := by
    decide +kernel
  obtain ⟨w, hw, htest⟩ := Machine.reach_of_runIf
    (fun w l (h : timelyTest w l = true) => h) hinit hrun
  have hw' := Machine.Reach.strengthen (M := phasedMachine ⟨id, toString⟩)
    (fun _ _ hreach hl => timelyStep_of_test hreach hl) hw
  simp only [Bool.and_eq_true, decide_eq_true_eq] at htest
  obtain ⟨⟨⟨hlength, hheld⟩, hgone⟩, hkept⟩ := htest
  obtain ⟨herasures, hcommits⟩ := legal_hold_wins ⟨id, toString⟩ hw'
  exact ⟨w, hw', hlength, hheld, hgone, hkept, herasures, hcommits⟩

/-- A deletion worker has claimed a request when a hold of the tenant is activated,
and goes on to erase. -/
def heldInBetween : List (Pool.Label (Choice LifecycleAnswer) LifecycleCall LifecycleEvent) :=
  [Pool.Label.env (LifecycleEvent.createTenant 1), Pool.Label.env
    (LifecycleEvent.createRequest (1, 7) 90),
    Pool.Label.spawn (LifecycleCall.process ⟨everyBackend⟩ (1, 7) (some 100))] ++ List.replicate 4
      (lifecycleAct 0)
  ++ [Pool.Label.env (LifecycleEvent.createHold 1 9 "a"), Pool.Label.env
    (LifecycleEvent.approveHold 1 9 "b"), lifecycleAct 0]

/-- **A legal hold does not win** in every run. -/
theorem legal_hold_too_late : ¬ ∀ (H : ProofHashing)
    (w : Pool.State (TxOp LifecycleOp) (TxRes LifecycleRes) LifecycleException LifecycleState
      LifecycleCall LifecycleResult), (lifecycleMachine H).Reach Machine.anyStep w →
    (∀ e ∈ w.shared.ext, e.held = false) ∧ ∀ c ∈ w.shared.log, DestroysUnheld c.before c.after := by
  intro hall
  have hrun : ((lifecycleMachine ⟨id, toString⟩).run (Pool.idle emptyLifecycle) heldInBetween).map
      (fun w => decide (w.shared.ext = [⟨.sql, 1, true⟩])) = some true := by
    decide +kernel
  have hinit : (lifecycleMachine ⟨id, toString⟩).init (Pool.idle emptyLifecycle) :=
    ⟨_, rfl, rfl⟩
  obtain ⟨w, hw, htest⟩ := Machine.reach_of_run hinit hrun
  have herased := (hall _ w hw).1 ⟨.sql, 1, true⟩ (by
    rw [of_decide_eq_true htest]
    exact List.mem_singleton.mpr rfl)
  cases herased
