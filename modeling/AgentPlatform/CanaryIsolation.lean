import AgentPlatform.DeploymentDiscipline

/-!
# What a canary does to the Sessions outside it

A deployment with a rollout percentage `p` takes the Sessions with a bucket below
`p`; the others go to `previous_release_id`, the release of the deployment it was
placed on. When that deployment routes every Session to its own release, nothing
changes for them. When it is a canary itself, the Sessions outside *it* have been
on the release before, and are moved: the resolver looks one step back.

`canary_isolated_iff` says exactly this of every run of the endpoints: a Session
outside the new canary keeps its release just when the deployment that was current
before, and is current no more, had the Session inside.
-/

/-- **A commit makes a deployment active.** -/
structure TxCommit.Activates (c : TxCommit DeploymentDb) (d : AgentDeployment) : Prop where
  after : d ∈ c.after.deployments
  active : d.status = .ACTIVE
  before : ∀ b ∈ c.before.deployments, b.key = d.key → b.status ≠ .ACTIVE

/-- The release of a Session by the deployments of a table. -/
def DeploymentDb.releaseFor (sha256Head : String → ℕ) (db : DeploymentDb) (scope : DeploymentScope)
    (sessionId : String) : Option Uuid :=
  (db.current scope).map (fun d => d.route.releaseFor sha256Head sessionId)

/-- A resolver that can read the table remembers nothing else. -/
theorem resolveDeployment_read (sha256Head : String → ℕ) (db : DeploymentDb) (routes : RouteCache)
    (scope : DeploymentScope) (sessionId : String) :
    (resolveDeployment sha256Head (.ok db) routes scope sessionId).1
      = .ok (db.releaseFor sha256Head scope sessionId) := by
  have hroute : resolvedRoute (.ok db) routes scope
      = .ok ((db.current scope).map AgentDeployment.route) := rfl
  unfold resolveDeployment DeploymentDb.releaseFor
  rw [hroute]
  cases db.current scope <;> rfl

theorem sessionRolloutBucket_lt (sha256Head : String → ℕ) (sessionId : String) :
    sessionRolloutBucket sha256Head sessionId < 100 := by
  unfold sessionRolloutBucket
  exact_mod_cast Nat.mod_lt _ (by decide)

/-! ## One activation -/

/-- **A deployment joins the active ones of its scope**, on top of the current one. -/
structure Joins (db db' : DeploymentDb) (d : AgentDeployment) : Prop where
  ok : DeploymentsOk db
  ok' : DeploymentsOk db'
  active : ∀ b, b ∈ db'.active d.scope ↔ b = d ∨ b ∈ db.active d.scope
  previous : d.previousReleaseId = (db.current d.scope).map AgentDeployment.releaseId
  first : db.current d.scope = none → d.rolloutPercentage = 100

section Joins

variable {db db' : DeploymentDb} {d : AgentDeployment}

/-- What is placed on the current deployment joins it. -/
theorem joins_of_placed (h : DeploymentsOk db) (hstatus : d.status = .ACTIVE)
    (hplaced : d.PlacedOn (db.current d.scope))
    (hok : DeploymentsOk { db with deployments := db.deployments ++ [d] }) :
    Joins db { db with deployments := db.deployments ++ [d] } d := by
  refine ⟨h, hok, fun b => ?_, hplaced.release, hplaced.first⟩
  unfold DeploymentDb.active
  rw [List.filter_append, List.mem_append, or_comm]
  refine or_congr ?_ Iff.rfl
  simp [hstatus]

/-- The request that is approved was placed on the deployment that is current. -/
theorem joins_of_activated (h : DeploymentsOk db) {request : AgentDeployment} {approver : String}
    {now : Timestamp} (hrequest : request ∈ db.deployments)
    (hpending : request.status = .PENDING_APPROVAL)
    (hpointer : pointer (db.current request.scope) = request.expectedPointer)
    (hok : DeploymentsOk (db.update request.key (fun d => d.activated approver now))) :
    Joins db (db.update request.key (fun d => d.activated approver now))
      (request.activated approver now) := by
  have hid : (db.current request.scope).map AgentDeployment.id = request.previousDeploymentId :=
    congrArg Prod.fst hpointer
  refine ⟨h, hok, fun b => ?_, ?_, fun hnone => ?_⟩
  · constructor
    · intro hb
      obtain ⟨hmem, hactive⟩ := List.mem_filter.mp hb
      obtain ⟨e, he, rfl⟩ := List.mem_map.mp hmem
      by_cases hkey : e.key = request.key
      · rw [if_pos hkey, h.unique he hrequest hkey]
        exact .inl rfl
      · rw [if_neg hkey] at hactive ⊢
        exact .inr (List.mem_filter.mpr ⟨he, hactive⟩)
    · rintro (rfl | hb)
      · refine List.mem_filter.mpr ⟨List.mem_map.mpr ⟨request, hrequest, if_pos rfl⟩, ?_⟩
        exact decide_eq_true ⟨rfl, rfl⟩
      · obtain ⟨hmem, hactive⟩ := List.mem_filter.mp hb
        refine List.mem_filter.mpr ⟨List.mem_map.mpr ⟨b, hmem, if_neg (fun hkey => ?_)⟩, hactive⟩
        rw [h.unique hmem hrequest hkey] at hactive
        rw [(of_decide_eq_true hactive).2] at hpending
        cases hpending
  · show request.previousReleaseId = (db.current request.scope).map AgentDeployment.releaseId
    rcases h.linked request hrequest with ⟨hdep, hrel, -⟩ | ⟨e, he, het, hdep, hrel, -⟩
    · rw [hdep, Option.map_eq_none_iff] at hid
      rw [hid, hrel]
      rfl
    · rw [hdep] at hid
      obtain ⟨cur, hcur, hcid⟩ := Option.map_eq_some_iff.mp hid
      obtain ⟨hmem, hscope, -⟩ := DeploymentDb.mem_of_current hcur
      have hsame : cur = e := h.unique hmem he
        (Prod.ext ((congrArg DeploymentScope.tenantId hscope).trans het.symm) hcid)
      rw [hcur, hsame, hrel]
      rfl
  · have hnone' : db.current request.scope = none := hnone
    rw [hnone'] at hid
    rcases h.linked request hrequest with ⟨-, -, hp⟩ | ⟨e, -, -, hdep, -⟩
    · exact hp
    · rw [hdep] at hid
      cases hid

/-- **An activation is a deployment that joins.** -/
theorem joins_of_change (h : DeploymentsOk db) (hc : DeploymentChange db db')
    (hafter : d ∈ db'.deployments) (hactive : d.status = .ACTIVE)
    (hbefore : ∀ b ∈ db.deployments, b.key = d.key → b.status ≠ .ACTIVE) : Joins db db' d := by
  have hold : d ∉ db.deployments := fun hmem => hbefore d hmem rfl hactive
  have hok : DeploymentsOk db' := h.change hc
  cases hc with
  | same hsame => exact absurd (hsame ▸ hafter) hold
  | placed row hfresh hplaced =>
    obtain rfl : d = row := by
      rcases List.mem_append.mp hafter with hmem | hmem
      · exact absurd hmem hold
      · exact List.mem_singleton.mp hmem
    exact joins_of_placed h hactive hplaced hok
  | activated request approver now hrequest hpending hpointer =>
    obtain ⟨e, he, rfl⟩ := List.mem_map.mp hafter
    by_cases hkey : e.key = request.key
    · obtain rfl := h.unique he hrequest hkey
      rw [if_pos rfl]
      exact joins_of_activated h hrequest hpending hpointer hok
    · rw [if_neg hkey] at hold
      exact absurd he hold
  | halted key now =>
    obtain ⟨e, he, rfl⟩ := List.mem_map.mp hafter
    by_cases hkey : e.key = key
    · rw [if_pos hkey] at hactive
      cases hactive
    · rw [if_neg hkey] at hold
      exact absurd he hold

/-- A Session outside a canary goes to the release before it. -/
theorem releaseFor_outside {sha256Head : String → ℕ} {sessionId : String} {release : Uuid}
    (hprevious : d.previousReleaseId = some release)
    (hbucket : d.rolloutPercentage ≤ sessionRolloutBucket sha256Head sessionId) :
    d.route.releaseFor sha256Head sessionId = release := by
  have hlt := sessionRolloutBucket_lt sha256Head sessionId
  have hroute : d.route.previousReleaseId = some release := hprevious
  unfold DeploymentRoute.releaseFor
  rw [hroute]
  exact if_pos ⟨lt_of_le_of_lt hbucket hlt, hbucket⟩

/-- **A deployment sends to its own release the Sessions inside it**, and no
others. -/
theorem releaseFor_eq_own_iff (hlinked : db.Linked d) (sha256Head : String → ℕ)
    (sessionId : String) :
    d.route.releaseFor sha256Head sessionId = d.releaseId
      ↔ sessionRolloutBucket sha256Head sessionId < d.rolloutPercentage := by
  have hlt := sessionRolloutBucket_lt sha256Head sessionId
  rcases hlinked with ⟨-, hprevious, hpercentage⟩ | ⟨e, -, -, -, hprevious, hne⟩
  · have hroute : d.route.previousReleaseId = none := hprevious
    have hown : d.route.releaseFor sha256Head sessionId = d.releaseId := by
      unfold DeploymentRoute.releaseFor
      rw [hroute]
      rfl
    rw [hpercentage]
    exact iff_of_true hown hlt
  · constructor
    · intro hown
      by_contra hout
      have hbucket := not_lt.mp hout
      rw [releaseFor_outside hprevious hbucket] at hown
      exact hne (lt_of_le_of_lt hbucket hlt) hown
    · intro hin
      have hroute : d.route.previousReleaseId = some e.releaseId := hprevious
      unfold DeploymentRoute.releaseFor
      rw [hroute]
      exact if_neg (fun h => absurd h.2 (not_le.mpr hin))

/-- **A Session outside the deployment that joins** keeps its release just when the
deployment that gives way had it inside. -/
theorem Joins.same_release_iff (h : Joins db db' d) (sha256Head : String → ℕ) (sessionId : String)
    (hbucket : d.rolloutPercentage ≤ sessionRolloutBucket sha256Head sessionId) :
    db.releaseFor sha256Head d.scope sessionId = db'.releaseFor sha256Head d.scope sessionId
      ↔ ∀ e ∈ db.current d.scope, e.precedes d = true →
        sessionRolloutBucket sha256Head sessionId < e.rolloutPercentage := by
  have hlt := sessionRolloutBucket_lt sha256Head sessionId
  cases hcur : db.current d.scope with
  | none =>
    rw [h.first hcur] at hbucket
    exact absurd hbucket (not_le.mpr hlt)
  | some e =>
    obtain ⟨he, hlast⟩ := h.ok.current_eq_some_iff.mp hcur
    have hbefore : db.releaseFor sha256Head d.scope sessionId
        = some (e.route.releaseFor sha256Head sessionId) := by
      unfold DeploymentDb.releaseFor
      rw [hcur]
      rfl
    by_cases horder : e.precedes d = true
    · -- The new deployment takes the place of `e`.
      have hrank : e.rank < d.rank := (AgentDeployment.precedes_iff e d).mp horder
      have hnew : db'.current d.scope = some d := by
        refine h.ok'.current_eq_some_iff.mpr ⟨(h.active d).mpr (.inl rfl), fun b hb => ?_⟩
        rcases (h.active b).mp hb with rfl | hb
        · exact le_rfl
        · exact (hlast b hb).trans hrank.le
      have hafter : db'.releaseFor sha256Head d.scope sessionId = some e.releaseId := by
        have hprevious : d.previousReleaseId = some e.releaseId := by rw [h.previous, hcur]; rfl
        unfold DeploymentDb.releaseFor
        rw [hnew, Option.map_some, releaseFor_outside hprevious hbucket]
      rw [hbefore, hafter, Option.some.injEq]
      have hlinked := h.ok.linked e (List.mem_filter.mp he).1
      refine (releaseFor_eq_own_iff hlinked sha256Head sessionId).trans ⟨fun hin f hf _ => ?_,
        fun hall => hall e rfl horder⟩
      obtain rfl := Option.some.inj hf
      exact hin
    · -- The new deployment started earlier than `e` and does not become current.
      have hrank : d.rank ≤ e.rank :=
        not_lt.mp (fun hlt' => horder ((AgentDeployment.precedes_iff e d).mpr hlt'))
      have hstill : db'.current d.scope = some e := by
        refine h.ok'.current_eq_some_iff.mpr ⟨(h.active e).mpr (.inr he), fun b hb => ?_⟩
        rcases (h.active b).mp hb with rfl | hb
        · exact hrank
        · exact hlast b hb
      have hafter : db'.releaseFor sha256Head d.scope sessionId
          = some (e.route.releaseFor sha256Head sessionId) := by
        unfold DeploymentDb.releaseFor
        rw [hstill]
        rfl
      rw [hbefore, hafter]
      refine iff_of_true rfl (fun f hf hbefore' => ?_)
      obtain rfl := Option.some.inj hf
      exact absurd hbefore' horder

end Joins

/-! ## Every activation of every run -/

/-- **A canary leaves the Sessions outside it alone exactly when it is not stacked on
another one that had them outside.** In every run, for every commit that makes a
deployment active and every Session outside it, the release resolved just before and
just after are the same if and only if the deployment that was current before, when
the new one takes its place, had the Session inside. -/
theorem canary_isolated_iff (sha256Head : String → ℕ) {w : DeploymentsState}
    (h : deploymentMachine.Reach Machine.anyStep w) :
    ∀ c ∈ w.shared.log, ∀ d, c.Activates d → ∀ routes routes' sessionId,
      d.rolloutPercentage ≤ sessionRolloutBucket sha256Head sessionId →
      ((resolveDeployment sha256Head (.ok c.before) routes d.scope sessionId).1
          = (resolveDeployment sha256Head (.ok c.after) routes' d.scope sessionId).1
        ↔ ∀ e ∈ c.before.current d.scope, e.precedes d = true →
          sessionRolloutBucket sha256Head sessionId < e.rolloutPercentage) := by
  intro c hc d hd routes routes' sessionId hbucket
  obtain ⟨hok, hchange⟩ := deployment_history h c hc
  rw [resolveDeployment_read, resolveDeployment_read, Except.ok.injEq]
  exact (joins_of_change hok hchange hd.after hd.active hd.before).same_release_iff sha256Head
    sessionId hbucket

/-! ### Stacked canaries -/

/-- The requests before anything is deployed. -/
def deploymentsIdle : DeploymentsState :=
  Pool.idle (Engine.quiet ⟨[(1, 10)], [⟨1, 7, 10⟩, ⟨1, 8, 10⟩, ⟨1, 9, 10⟩], [], [], []⟩ 0)

theorem deploymentsIdle_init : deploymentMachine.init deploymentsIdle :=
  ⟨_, ⟨_, _, rfl, rfl, rfl⟩, rfl⟩

/-- A request that runs alone, at a time. -/
def deployRun (pid : ℕ) (call : DeploymentCall) (clock : Timestamp) :
    List (Pool.Label (Choice DeploymentSupply) DeploymentCall Empty) :=
  .spawn call :: List.replicate 10 (.act pid (.serve { clock := clock }))

/-- Release 7 for everyone, release 8 for half of the Sessions, release 9 for a
fifth. -/
def stackedRun : List (Pool.Label (Choice DeploymentSupply) DeploymentCall Empty) :=
  deployRun 0 (.create 1 10 70 ⟨.development, 7, 100⟩ none "dev") 1
    ++ deployRun 1 (.create 1 10 80 ⟨.development, 8, 50⟩ (some 1) "dev") 2
    ++ deployRun 2 (.create 1 10 90 ⟨.development, 9, 20⟩ (some 2) "dev") 3

/-- A commit activates a deployment, and a Session of the bucket 60 resolves to some
releases before and after it. -/
def resolvedAround (id before after : Uuid) (c : TxCommit DeploymentDb) : Bool :=
  c.after.deployments.any (fun d => d.id = id ∧ d.status = .ACTIVE
    ∧ d.rolloutPercentage ≤ 60 ∧ c.before.deployments.all (fun b => b.key ≠ d.key)
    ∧ c.before.releaseFor (fun _ => 60) d.scope "s" = some before
    ∧ c.after.releaseFor (fun _ => 60) d.scope "s" = some after)

theorem stacked_runs :
    (deploymentMachine.run deploymentsIdle stackedRun).map
      (fun w => w.shared.log.any (resolvedAround 80 7 7)
        && w.shared.log.any (resolvedAround 90 7 8)) = some true := by
  decide +kernel

/-- What the test says. -/
theorem activates_of_resolvedAround {id before after : Uuid} {c : TxCommit DeploymentDb}
    (h : resolvedAround id before after c = true) :
    ∃ d, c.Activates d ∧ d.rolloutPercentage ≤ 60
      ∧ c.before.releaseFor (fun _ => 60) d.scope "s" = some before
      ∧ c.after.releaseFor (fun _ => 60) d.scope "s" = some after := by
  obtain ⟨d, hd, htest⟩ := List.any_eq_true.mp h
  obtain ⟨-, hactive, hpercentage, hnew, hbefore, hafter⟩ := of_decide_eq_true htest
  refine ⟨d, ⟨hd, hactive, fun b hb hkey => ?_⟩, hpercentage, hbefore, hafter⟩
  exact absurd hkey (of_decide_eq_true (List.all_eq_true.mp hnew b hb))

/-- **A canary on a canary moves Sessions outside both**: the Session of the bucket 60
is on release 7 before release 9 is deployed to a fifth of the Sessions, and on
release 8 after. -/
theorem stacked_canary_moves :
    ¬ ∀ w, deploymentMachine.Reach Machine.anyStep w →
      ∀ c ∈ w.shared.log, ∀ d, c.Activates d → ∀ routes routes' sessionId,
        d.rolloutPercentage ≤ sessionRolloutBucket (fun _ => 60) sessionId →
        (resolveDeployment (fun _ => 60) (.ok c.before) routes d.scope sessionId).1
          = (resolveDeployment (fun _ => 60) (.ok c.after) routes' d.scope sessionId).1 := by
  intro hall
  obtain ⟨w, hw, htest⟩ := Machine.reach_of_run deploymentsIdle_init stacked_runs
  obtain ⟨c, hc, htest⟩ := List.any_eq_true.mp ((Bool.and_eq_true _ _).mp htest).2
  obtain ⟨d, hd, hpercentage, hbefore, hafter⟩ := activates_of_resolvedAround htest
  have hsame := hall w hw c hc d hd (fun _ => none) (fun _ => none) "s" hpercentage
  rw [resolveDeployment_read, resolveDeployment_read, hbefore, hafter] at hsame
  exact absurd (Option.some.inj (Except.ok.inj hsame)) (by decide)

/-- A canary on a deployment for everyone moves no Session outside it. -/
theorem first_canary_isolated :
    ∃ w, deploymentMachine.Reach Machine.anyStep w ∧ ∃ c ∈ w.shared.log, ∃ d, c.Activates d
      ∧ d.rolloutPercentage ≤ sessionRolloutBucket (fun _ => 60) "s"
      ∧ ∀ e ∈ c.before.current d.scope, e.precedes d = true →
        sessionRolloutBucket (fun _ => 60) "s" < e.rolloutPercentage := by
  obtain ⟨w, hw, htest⟩ := Machine.reach_of_run deploymentsIdle_init stacked_runs
  obtain ⟨c, hc, htest⟩ := List.any_eq_true.mp ((Bool.and_eq_true _ _).mp htest).1
  obtain ⟨d, hd, hpercentage, hbefore, hafter⟩ := activates_of_resolvedAround htest
  refine ⟨w, hw, c, hc, d, hd, hpercentage, ?_⟩
  refine (canary_isolated_iff (fun _ => 60) hw c hc d hd (fun _ => none) (fun _ => none) "s"
    hpercentage).mp ?_
  rw [resolveDeployment_read, resolveDeployment_read, hbefore, hafter]

/-! ## Deployments are kept -/

/-- **What may become of a deployment**: nothing, or it keeps its placement and is
decided under a higher version, and what is halted stays halted. -/
def AgentDeployment.Becomes (d d' : AgentDeployment) : Prop :=
  d' = d ∨ d'.placement = d.placement ∧ d.version < d'.version
    ∧ d'.status ≠ .PENDING_APPROVAL ∧ (d.status = .HALTED → d'.status = .HALTED)

theorem AgentDeployment.Becomes.trans {a b c : AgentDeployment} (hab : a.Becomes b)
    (hbc : b.Becomes c) : a.Becomes c := by
  rcases hab with rfl | ⟨hab, hv, hp, hs⟩
  · exact hbc
  · rcases hbc with rfl | ⟨hbc, hv', hp', hs'⟩
    · exact .inr ⟨hab, hv, hp, hs⟩
    · exact .inr ⟨hbc.trans hab, hv.trans hv', hp', fun h => hs' (hs h)⟩

/-- Every deployment of the first table is one of the second, or has become one. -/
def DeploymentDb.Keeps (db db' : DeploymentDb) : Prop :=
  ∀ d ∈ db.deployments, ∃ d' ∈ db'.deployments, d.Becomes d'

theorem DeploymentDb.keeps_update (db : DeploymentDb) {key : Uuid × Uuid}
    {f : AgentDeployment → AgentDeployment}
    (hf : ∀ d ∈ db.deployments, d.key = key → d.Becomes (f d)) : db.Keeps (db.update key f) := by
  intro d hd
  refine ⟨_, List.mem_map_of_mem hd, ?_⟩
  split
  · exact hf d hd ‹_›
  · exact .inl rfl

/-- **A commit keeps the deployments**: what is approved was pending. -/
theorem keeps_of_change {db db' : DeploymentDb} (h : DeploymentsOk db)
    (hc : DeploymentChange db db') : db.Keeps db' := by
  cases hc with
  | same hsame => exact fun d hd => ⟨d, hsame ▸ hd, .inl rfl⟩
  | placed => exact fun d hd => ⟨d, List.mem_append_left _ hd, .inl rfl⟩
  | activated request approver now hrequest hpending =>
    refine db.keeps_update (fun d hd hkey => .inr ⟨rfl, Int.lt_succ _, by simp
      [AgentDeployment.activated], fun hhalted => ?_⟩)
    rw [h.unique hd hrequest hkey, hpending] at hhalted
    cases hhalted
  | halted =>
    exact db.keeps_update (fun d _ _ => .inr ⟨rfl, Int.lt_succ _, by simp
      [AgentDeployment.halted], fun _ => rfl⟩)

/-- **Deployments are kept, and a halt is for good.** In every run of the endpoints,
what a commit has left is in the table ever after, as it was or as it may become. -/
theorem deployments_kept {w : DeploymentsState} (h : deploymentMachine.Reach Machine.anyStep w) :
    ∀ c ∈ w.shared.log, c.after.Keeps w.shared.committed := by
  intro c hc
  obtain ⟨db₀, -, hleads⟩ := (deployed_of_reach h).leads
  obtain ⟨pre, post, hlog⟩ := List.append_of_mem hc
  rw [hlog] at hleads
  obtain ⟨-, -, -, hafter⟩ := CommitsLead.append_iff.mp hleads
  refine hafter.rel (R := DeploymentDb.Keeps) (fun _ d hd => ⟨d, hd, .inl rfl⟩) ?_ ?_
  · intro x y z hxy hyz d hd
    obtain ⟨d', hd', hbecomes⟩ := hxy d hd
    obtain ⟨d'', hd'', hbecomes'⟩ := hyz d' hd'
    exact ⟨d'', hd'', hbecomes.trans hbecomes'⟩
  · intro c' hc'
    obtain ⟨hok, hchange⟩ := deployment_history h c' (by simp [hlog, hc'])
    exact keeps_of_change hok hchange

/-- The release deployed to half of the Sessions, after another one was deployed. -/
theorem deployments_kept_stacked :
    ∃ w, deploymentMachine.Reach Machine.anyStep w ∧ ∃ c ∈ w.shared.log,
      c.after.Keeps w.shared.committed := by
  obtain ⟨w, hw, htest⟩ := Machine.reach_of_run deploymentsIdle_init stacked_runs
  obtain ⟨c, hc, -⟩ := List.any_eq_true.mp ((Bool.and_eq_true _ _).mp htest).1
  exact ⟨w, hw, c, hc, deployments_kept hw c hc⟩
