import AgentPlatform.PolicyBundles

/-!
# One stable version, one canary

Activating a version retires the versions that have its status and then
promotes it. The row lock an activation starts with is on its own version, so
two activations of different versions run side by side, and nothing in the
table keeps both from being promoted: each looks for the versions to retire
before the other's promotion is committed, and finds none.

This is the only way. `promoting` takes note of the activations that have looked
for versions to retire and have not ended. While there is only one of them for
a status, no other version gets the status (`Steadfast`), so what it has found
is all there is to retire. In the runs in which no activation looks for
versions while another one of the same status is under way, there is at most one
stable version and one canary of a tenant at any time.
-/

/-! ## Notes -/

/-- Which activations have looked for versions to retire, for which tenant and
status. -/
abbrev Promoting := ℕ → Option (Uuid × BundleStatus)

/-- An activation is under way from its scan to the end of its transaction. -/
def promoting (pid : ℕ) (op : TxOp PolicyOp) (_ : Except PyException (TxRes PolicyRes op))
    (_ _ : PolicyState) (g : Promoting) : Promoting :=
  match op with
  | .run (.scanOthers t _ status) => Function.update g pid (some (t, status))
  | .commit | .rollback => Function.update g pid none
  | _ => g

/-- **The calls of the service**, watched. -/
def policyPool (S : PolicyBundleService) :=
  policyEngine.watched promoting (fun pid g => Function.update g pid none) (PolicyCall.program S)

/-- The table and the activations under way. -/
abbrev WatchedPolicies := PolicyState × Promoting

/-- **At most one version of a tenant has the status.** -/
def OneEach (db : PolicyDb) : Prop :=
  ∀ b ∈ db.bundles, ∀ b' ∈ db.bundles, b.tenantId = b'.tenantId → b.status = b'.status →
    b.status = .ACTIVE ∨ b.status = .CANARY → b.version = b'.version

/-- The table to begin with: nothing is under way, and there are no two versions
of one status. -/
def policyStart (s : WatchedPolicies) : Prop :=
  ∃ db, OneEach db ∧ s = (Engine.quiet db (), fun _ => none)

/-- Any number of calls of the service at once. -/
def policyMachine (S : PolicyBundleService) :=
  (policyPool S).machine policyStart

/-- **An activation looks for versions to retire only when no other one for the
same status is under way.** -/
def oneAtATime (pid : ℕ) (_ : Choice Timestamp) (op : TxOp PolicyOp) (s : WatchedPolicies) : Prop :=
  ∀ t v status, op = .run (.scanOthers t v status) → ∀ q, q ≠ pid → s.2 q ≠ some (t, status)

/-! ## Statuses -/

/-- A version of a tenant has a status. -/
def PolicyDb.HasStatus (db : PolicyDb) (t : Uuid) (v : ℤ) (status : BundleStatus) : Prop :=
  ∃ b ∈ db.bundles, b.tenantId = t ∧ b.version = v ∧ b.status = status

/-- The versions a transaction retires. -/
def retirements (t : Uuid) (rs : List ℤ) : List PolicyWrite :=
  rs.map (fun v => .setStatus t v .RETIRED 0 none)

section Statuses

variable {db : PolicyDb} {t t' : Uuid} {v v' : ℤ} {status status' : BundleStatus}

theorem hasStatus_insert {row : PolicyBundle} (hrow : row.status = .DRAFT)
    (hstatus : status = .ACTIVE ∨ status = .CANARY)
    (h : (PolicyWrite.apply (.insert row) db).HasStatus t v status) : db.HasStatus t v status := by
  obtain ⟨b, hb, ht, hv, hs⟩ := h
  rcases List.mem_append.mp hb with hb | hb
  · exact ⟨b, hb, ht, hv, hs⟩
  · rw [List.mem_singleton.mp hb, hrow] at hs
    rcases hstatus with rfl | rfl <;> cases hs

/-- What has a status after a change has it by the change, or had it before. -/
theorem hasStatus_setStatus {pct : ℤ} {at_ : Option Timestamp}
    (h : (PolicyWrite.apply (.setStatus t v status pct at_) db).HasStatus t' v' status') :
    (t' = t ∧ v' = v ∧ status' = status)
      ∨ (¬ (t' = t ∧ v' = v) ∧ db.HasStatus t' v' status') := by
  obtain ⟨b, hb, rfl, rfl, rfl⟩ := h
  obtain ⟨b₀, hb₀, rfl⟩ := List.mem_map.mp hb
  by_cases hkey : b₀.tenantId = t ∧ b₀.version = v
  · exact .inl (by rw [if_pos hkey]; exact ⟨hkey.1, hkey.2, rfl⟩)
  · rw [if_neg hkey]
    exact .inr ⟨hkey, b₀, hb₀, rfl, rfl, rfl⟩

/-- What keeps a status is not among the retired. -/
theorem hasStatus_retirements {rs : List ℤ} (hstatus : status ≠ .RETIRED)
    (h : (policyEngine.applyAll (retirements t rs) db).HasStatus t' v status) :
    db.HasStatus t' v status ∧ (t' = t → v ∉ rs) := by
  induction rs generalizing db with
  | nil => exact ⟨h, fun _ => List.not_mem_nil⟩
  | cons r rs ih =>
    obtain ⟨hdb, hrs⟩ := ih h
    rcases hasStatus_setStatus hdb with ⟨-, -, hs⟩ | ⟨hne, hdb⟩
    · exact absurd hs hstatus
    · refine ⟨hdb, fun ht hmem => ?_⟩
      rcases List.mem_cons.mp hmem with rfl | hmem
      · exact hne ⟨ht, rfl⟩
      · exact hrs ht hmem

theorem mem_others {statuses : List BundleStatus} :
    v' ∈ db.others t v statuses ↔ v' ≠ v ∧ ∃ s ∈ statuses, db.HasStatus t v' s := by
  unfold PolicyDb.others
  constructor
  · intro h
    obtain ⟨b, hb, rfl⟩ := List.mem_map.mp h
    obtain ⟨hmem, hcond⟩ := List.mem_filter.mp hb
    obtain ⟨ht, hs, hne⟩ := of_decide_eq_true hcond
    exact ⟨hne, b.status, hs, b, hmem, ht, rfl, rfl⟩
  · rintro ⟨hne, s, hs, b, hb, ht, rfl, rfl⟩
    exact List.mem_map.mpr ⟨b, List.mem_filter.mpr ⟨hb, decide_eq_true ⟨ht, hs, hne⟩⟩, rfl⟩

/-- An activation retires the versions that have its status. -/
theorem mem_retires (pct : ℤ) :
    PolicyBundleService.activationStatus pct
      ∈ (PolicyBundleService.activationStatus pct).retires := by
  unfold PolicyBundleService.activationStatus
  split <;> simp [BundleStatus.retires]

theorem activationStatus_cases (pct : ℤ) :
    PolicyBundleService.activationStatus pct = .ACTIVE
      ∨ PolicyBundleService.activationStatus pct = .CANARY := by
  unfold PolicyBundleService.activationStatus
  split
  · exact .inr rfl
  · exact .inl rfl

end Statuses

/-! ## What the calls keep -/

/-- **The invariant**: one version for each status, and one activation under way
for each. -/
structure PolicyInv (x : WatchedPolicies) : Prop where
  owned : policyEngine.Owned x.1
  one : OneEach x.1.committed
  sole : ∀ q q' n, x.2 q = some n → x.2 q' = some n → q = q'
  governs : ∀ q t status, x.2 q = some (t, status) → status = .ACTIVE ∨ status = .CANARY

/-- **What a call relies on**: its rows are left alone, and while it is promoting
a version, no other version gets the status. -/
structure Steadfast (pid : ℕ) (x y : WatchedPolicies) : Prop where
  untouched : Engine.Untouched policyLook pid x.1 y.1
  note : y.2 pid = x.2 pid
  none_gained : ∀ t status, x.2 pid = some (t, status) → ∀ v,
    y.1.committed.HasStatus t v status → x.1.committed.HasStatus t v status

theorem Steadfast.refl (pid : ℕ) (x : WatchedPolicies) : Steadfast pid x x :=
  ⟨.refl pid x.1, rfl, fun _ _ _ _ h => h⟩

theorem Steadfast.trans {pid : ℕ} {x y z : WatchedPolicies} (h : Steadfast pid x y)
    (h' : Steadfast pid y z) : Steadfast pid x z :=
  ⟨h.untouched.trans h'.untouched, h'.note.trans h.note,
    fun t status hx v hv => h.none_gained t status hx v
      (h'.none_gained t status (h.note.trans hx) v hv)⟩

theorem oneEach_iff {db : PolicyDb} :
    OneEach db ↔ ∀ t v v' status, status = .ACTIVE ∨ status = .CANARY →
      db.HasStatus t v status → db.HasStatus t v' status → v = v' := by
  constructor
  · rintro h t v v' status hstatus ⟨b, hb, ht, hv, hs⟩ ⟨b', hb', ht', hv', hs'⟩
    rw [← hv, ← hv']
    exact h b hb b' hb' (ht.trans ht'.symm) (hs.trans hs'.symm) (hs.symm ▸ hstatus)
  · intro h b hb b' hb' ht hs hstatus
    exact h b.tenantId b.version b'.version b.status hstatus ⟨b, hb, rfl, rfl, rfl⟩
      ⟨b', hb', ht.symm, rfl, hs.symm⟩

section Steps

variable {pid : ℕ} {x : WatchedPolicies} {s' : PolicyState}

/-- **What a request of a call does to the others**, when no version gets a
status one of them is promoting. -/
theorem PolicyInv.step (hx : PolicyInv x) (hm : policyEngine.Moves pid x.1 s') {g : Promoting}
    (hothers : ∀ q, q ≠ pid → g q = x.2 q)
    (hself : ∀ n, g pid = some n → x.2 pid = some n
      ∨ ((n.2 = .ACTIVE ∨ n.2 = .CANARY) ∧ ∀ q, q ≠ pid → x.2 q ≠ some n))
    (hone : OneEach s'.committed)
    (hgain : ∀ q, q ≠ pid → ∀ t status, x.2 q = some (t, status) → ∀ v,
      s'.committed.HasStatus t v status → x.1.committed.HasStatus t v status) :
    PolicyInv (s', g) ∧ ∀ q, q ≠ pid → Steadfast q x (s', g) := by
  have hclash : ∀ q, q ≠ pid → ∀ n, g pid = some n → g q ≠ some n := by
    intro q hq n hn hqn
    rw [hothers q hq] at hqn
    rcases hself n hn with hold | ⟨-, hfree⟩
    · exact hq (hx.sole q pid n hqn hold)
    · exact hfree q hq hqn
  refine ⟨⟨policyEngine_lawful.owned_of_moves hx.owned hm, hone, ?_, ?_⟩, fun q hq => ?_⟩
  · intro q q' n hq hq'
    by_cases hqp : q = pid
    · by_cases hqp' : q' = pid
      · rw [hqp, hqp']
      · exact absurd hq' (hclash q' hqp' n (hqp ▸ hq))
    · by_cases hqp' : q' = pid
      · exact absurd hq (hclash q hqp n (hqp' ▸ hq'))
      · exact hx.sole q q' n ((hothers q hqp).symm.trans hq) ((hothers q' hqp').symm.trans hq')
  · intro q t status hq
    by_cases hqp : q = pid
    · rw [hqp] at hq
      rcases hself _ hq with hold | ⟨hstatus, -⟩
      · exact hx.governs pid t status hold
      · exact hstatus
    · exact hx.governs q t status ((hothers q hqp).symm.trans hq)
  · exact ⟨policyEngine_lawful.untouched_of_other hq hx.owned hm, hothers q hq, hgain q hq⟩

/-- A request that leaves the committed table alone. -/
theorem PolicyInv.step_same (hx : PolicyInv x) (hm : policyEngine.Moves pid x.1 s')
    (hc : s'.committed = x.1.committed) {g : Promoting}
    (hothers : ∀ q, q ≠ pid → g q = x.2 q)
    (hself : ∀ n, g pid = some n → x.2 pid = some n
      ∨ ((n.2 = .ACTIVE ∨ n.2 = .CANARY) ∧ ∀ q, q ≠ pid → x.2 q ≠ some n)) :
    PolicyInv (s', g) ∧ ∀ q, q ≠ pid → Steadfast q x (s', g) := by
  refine hx.step hm hothers hself (hc ▸ hx.one) ?_
  intro q _ t status _ v hv
  rwa [hc] at hv

/-- Notes that end with a transaction. -/
theorem closing_notes (g : Promoting) (pid : ℕ) :
    (∀ q, q ≠ pid → Function.update g pid none q = g q)
      ∧ ∀ n, Function.update g pid none pid = some n → g pid = some n
        ∨ ((n.2 = .ACTIVE ∨ n.2 = .CANARY) ∧ ∀ q, q ≠ pid → g q ≠ some n) := by
  refine ⟨fun q hq => Function.update_of_ne hq _ _, fun n hn => ?_⟩
  rw [Function.update_self] at hn
  cases hn

end Steps

/-! ## Rules for the programs -/

/-- A program of `pid` keeps the invariant and meets a postcondition. -/
abbrev PolicyMeets (pid : ℕ) {α : Type} (p : PolicyProg α)
    (Q : Except PyException α → WatchedPolicies → Prop) (x : WatchedPolicies) : Prop :=
  p.Safe (Prog.Handled (policyEngine.watchedHandler promoting pid) (oneAtATime pid))
    (fun a b => PolicyInv b ∧ Steadfast pid a b)
    (fun a b => PolicyInv b ∧ ∀ q, q ≠ pid → Steadfast q a b) Q x

/-- The program leaves this, if it returns. -/
abbrev PolicyLeaves {α : Type} (Φ : α → WatchedPolicies → Prop) :
    Except PyException α → WatchedPolicies → Prop :=
  Prog.outcome Φ (fun _ _ => True)

section Rules

variable {pid : ℕ} {x : WatchedPolicies} {ws : List PolicyWrite}

/-- **Statements** that do not look for versions to retire. -/
theorem meets_policy {op : PolicyOp} {Φ : PolicyRes op → WatchedPolicies → Prop}
    (hop : ∀ t v status, op ≠ .scanOthers t v status) (hin : x.1.pending pid = some ws)
    (h : ∀ y now r, PolicyInv y → Steadfast pid x y →
      (op.exec now (policyEngine.applyAll ws y.1.committed)).1 = .ok r →
      ∀ s', s'.pending pid
          = some (ws ++ (op.exec now (policyEngine.applyAll ws y.1.committed)).2) →
        s'.committed = y.1.committed → Φ r (s', y.2)) :
    PolicyMeets pid (policy op) (PolicyLeaves Φ) x := by
  have hnote : ∀ r s s' g, promoting pid (.run op) r s s' g = g := by
    intro r s s' g
    cases op with
    | scanOthers t v status => exact absurd rfl (hop t v status)
    | _ => rfl
  refine Engine.watched_stmt ?_ ?_
  · rintro y ⟨hy, -⟩ -
    rw [hnote]
    exact ⟨hy.step_same .stay rfl (fun _ _ => rfl) (fun _ hn => .inl hn), trivial⟩
  · rintro y now ⟨hy, hr⟩ - hfree
    have hin' : y.1.pending pid = some ws := hr.untouched.pending.trans hin
    have hview : policyEngine.view y.1 pid = policyEngine.applyAll ws y.1.committed := by
      simp [Engine.view, hin']
    have hsome : (y.1.pending pid).isSome := by rw [hin']; rfl
    have hran : ∀ g, g = y.2 → (PolicyInv (policyEngine.ran pid now op y.1, g)
        ∧ ∀ q, q ≠ pid → Steadfast q y (policyEngine.ran pid now op y.1, g))
        ∧ PolicyLeaves Φ (policyEngine.answer pid now op y.1)
          (policyEngine.ran pid now op y.1, g) := by
      rintro g rfl
      refine ⟨hy.step_same (.perform now op hfree) (Engine.committed_ran hsome) (fun _ _ => rfl)
        (fun _ hn => .inl hn), ?_⟩
      cases hans : policyEngine.answer pid now op y.1 with
      | error e => trivial
      | ok r =>
        refine h y now r hy hr ?_ _ ?_ (Engine.committed_ran hsome)
        · rw [← hview]
          exact hans
        · rw [Engine.pending_ran hin', hview]
          rfl
    exact hran _ (hnote _ _ _ _)

/-- **Transactions**, by what they are about to commit. -/
theorem meets_policy_transaction {α : Type} {body : PolicyProg α}
    (hbody : ∀ y, PolicyInv y → y.1.pending pid = some [] →
      PolicyMeets pid body (PolicyLeaves (fun _ z => ∀ z', PolicyInv z' → Steadfast pid z z' →
        ∃ ws, z'.1.pending pid = some ws
          ∧ OneEach (policyEngine.applyAll ws z'.1.committed)
          ∧ ∀ q, q ≠ pid → ∀ t status, z'.2 q = some (t, status) → ∀ v,
            (policyEngine.applyAll ws z'.1.committed).HasStatus t v status →
            z'.1.committed.HasStatus t v status)) y) :
    PolicyMeets pid (Engine.transaction body) (fun _ _ => True) x := by
  refine Engine.watched_transaction ?_ ?_
  · rintro y ⟨hy, -⟩ -
    exact ⟨hy.step_same .stay rfl (fun _ _ => rfl) (fun _ hn => .inl hn), trivial⟩
  · rintro y ⟨hy, -⟩
    have hopen : PolicyInv (Engine.opened y.1 pid, y.2)
        ∧ ∀ q, q ≠ pid → Steadfast q y (Engine.opened y.1 pid, y.2) :=
      hy.step_same .begin rfl (fun _ _ => rfl) (fun _ hn => .inl hn)
    refine ⟨hopen, ?_⟩
    refine (hbody _ hopen.1 (by simp [Engine.opened])).mono (fun r z hz => ?_)
    have hclose : ∀ z', PolicyInv z' → PolicyInv
        (Engine.close z'.1 pid, Function.update z'.2 pid none)
        ∧ ∀ q, q ≠ pid → Steadfast q z' (Engine.close z'.1 pid, Function.update z'.2 pid none) :=
      fun z' hz' => hz'.step_same .close rfl (closing_notes z'.2 pid).1 (closing_notes z'.2 pid).2
    cases r with
    | error e =>
      rintro z' ⟨hz', -⟩
      exact ⟨hclose z' hz', trivial⟩
    | ok a =>
      rintro z' ⟨hz', hr⟩
      obtain ⟨ws, hws, hone, hgain⟩ := hz z' hz' hr
      have hview : policyEngine.view z'.1 pid = policyEngine.applyAll ws z'.1.committed := by
        simp [Engine.view, hws]
      have hpublish : PolicyInv (policyEngine.publish z'.1 pid, Function.update z'.2 pid none)
          ∧ ∀ q, q ≠ pid → Steadfast q z'
            (policyEngine.publish z'.1 pid, Function.update z'.2 pid none) := by
        refine hz'.step .publish (closing_notes z'.2 pid).1 (closing_notes z'.2 pid).2 ?_ ?_
        · show OneEach (policyEngine.view z'.1 pid)
          rw [hview]
          exact hone
        · intro q hq t status hn v hv
          refine hgain q hq t status hn v ?_
          rw [← hview]
          exact hv
      exact ⟨⟨hpublish, trivial⟩, fun _ => ⟨hpublish, trivial⟩, fun _ => ⟨hclose z' hz', trivial⟩⟩

/-- Writes that give no version a status may be committed. -/
theorem committable {z : WatchedPolicies} (hz : PolicyInv z)
    (hws : ∀ db t v status, status = .ACTIVE ∨ status = .CANARY →
      (policyEngine.applyAll ws db).HasStatus t v status → db.HasStatus t v status) :
    OneEach (policyEngine.applyAll ws z.1.committed)
      ∧ ∀ q, q ≠ pid → ∀ t status, z.2 q = some (t, status) → ∀ v,
        (policyEngine.applyAll ws z.1.committed).HasStatus t v status →
        z.1.committed.HasStatus t v status := by
  refine ⟨oneEach_iff.mpr (fun t v v' status hs hv hv' => ?_), fun q _ t status hn v hv => ?_⟩
  · exact oneEach_iff.mp hz.one t v v' status hs (hws _ t v status hs hv) (hws _ t v' status hs hv')
  · exact hws _ t v status (hz.governs q t status hn) hv

/-- **`create_version` gives no version a status.** -/
theorem meets_createVersion (S : PolicyBundleService) (t : Uuid) (rules : GovernanceRules)
    (actor : String) : PolicyMeets pid (S.createVersion t rules actor) (fun _ _ => True) x := by
  refine Prog.Safe.bind (Q := fun _ _ => True) ?_ (fun n y _ => ?_) (fun _ _ _ => trivial)
  · refine meets_policy_transaction (fun y _ hin => ?_)
    refine Prog.Safe.bind (meets_policy (Φ := fun _ z => z.1.pending pid = some []) (by simp) hin
      (fun _ _ _ _ _ _ s' hs' _ => hs')) (fun _ y₁ hin₁ => ?_) (fun _ _ _ => trivial)
    refine meets_policy (by simp) hin₁ (fun _ _ _ _ _ _ s' hs' _ => ?_)
    intro z' hz' hr
    exact ⟨[], hr.untouched.pending.trans hs', committable hz' (fun _ _ _ _ _ h => h)⟩
  · refine meets_policy_transaction (fun y _ hin => ?_)
    refine meets_policy (by simp) hin (fun y₁ now r _ _ hr s' hs' _ => ?_)
    obtain ⟨-, -, -, hwrites⟩ := exec_insertBundle hr
    rw [hwrites] at hs'
    intro z' hz' hr'
    refine ⟨_, hr'.untouched.pending.trans hs', committable hz' ?_⟩
    intro db t' v status hs hv
    exact hasStatus_insert rfl hs hv

/-! ## Activation -/

/-- **An activation under way**: it has noted versions to retire, and every other
version that has the status is among those it has yet to retire or has
retired. -/
structure Activating (t : Uuid) (v : ℤ) (status : BundleStatus) (rest rs : List ℤ) (pid : ℕ)
    (x : WatchedPolicies) : Prop where
  pending : x.1.pending pid = some (retirements t rs)
  note : x.2 pid = some (t, status)
  covered : ∀ u, u ≠ v → x.1.committed.HasStatus t u status → u ∈ rest ∨ u ∈ rs

variable {t : Uuid} {v : ℤ} {status : BundleStatus}

/-- The others do not disturb an activation. -/
theorem covered_keep {rest rs : List ℤ} {y : WatchedPolicies} (hnote : x.2 pid = some (t, status))
    (h : ∀ u, u ≠ v → x.1.committed.HasStatus t u status → u ∈ rest ∨ u ∈ rs)
    (hr : Steadfast pid x y) :
    ∀ u, u ≠ v → y.1.committed.HasStatus t u status → u ∈ rest ∨ u ∈ rs :=
  fun u hu hy => h u hu (hr.none_gained t status hnote u hy)

/-- What is not retired keeps its status. -/
theorem hasStatus_of_not_retired {rs : List ℤ} {u : ℤ} {db : PolicyDb} (hu : u ∉ rs)
    (h : db.HasStatus t u status) :
    (policyEngine.applyAll (retirements t rs) db).HasStatus t u status := by
  induction rs generalizing db with
  | nil => exact h
  | cons r rs ih =>
    refine ih (fun hmem => hu (List.mem_cons_of_mem r hmem)) ?_
    obtain ⟨b, hb, ht, hv, hs⟩ := h
    refine ⟨b, List.mem_map.mpr ⟨b, hb, if_neg ?_⟩, ht, hv, hs⟩
    rintro ⟨-, hr⟩
    exact hu (by rw [← hv, hr]; exact List.mem_cons_self)

/-- **The scan finds every version that has the status.** -/
theorem meets_scan (hgoverns : status = .ACTIVE ∨ status = .CANARY)
    (hself : status ∈ status.retires)
    (hin : x.1.pending pid = some []) :
    PolicyMeets pid (policy (.scanOthers t v status))
      (PolicyLeaves (fun others => Activating t v status others [] pid)) x := by
  have hself' : ∀ y : WatchedPolicies, oneAtATime pid (.fault) (.run (.scanOthers t v status)) y →
      ∀ n, Function.update y.2 pid (some (t, status)) pid = some n → y.2 pid = some n
        ∨ ((n.2 = .ACTIVE ∨ n.2 = .CANARY) ∧ ∀ q, q ≠ pid → y.2 q ≠ some n) := by
    intro y hfree n hn
    rw [Function.update_self] at hn
    obtain rfl := Option.some.inj hn
    exact .inr ⟨hgoverns, hfree t v status rfl⟩
  refine Engine.watched_stmt ?_ ?_
  · rintro y ⟨hy, -⟩ hfree
    exact ⟨hy.step_same .stay rfl (fun q hq => Function.update_of_ne hq _ _) (hself' y hfree),
      trivial⟩
  · rintro y now ⟨hy, hr⟩ hfree hlocks
    have hin' : y.1.pending pid = some [] := hr.untouched.pending.trans hin
    have hsome : (y.1.pending pid).isSome := by rw [hin']; rfl
    have hview : policyEngine.view y.1 pid = y.1.committed := by simp [Engine.view, hin']
    refine ⟨hy.step_same (.perform now _ hlocks) (Engine.committed_ran hsome)
      (fun q hq => Function.update_of_ne hq _ _) (hself' y hfree), ?_,
        Function.update_self pid _ _, ?_⟩
    · rw [Engine.pending_ran hin']
      rfl
    · intro u hu hstatus
      rw [Engine.committed_ran hsome] at hstatus
      refine .inl ?_
      show u ∈ (policyEngine.view y.1 pid).others t v status.retires
      rw [hview]
      exact mem_others.mpr ⟨hu, status, hself, hstatus⟩

/-- **A version is retired, or no longer has the status.** -/
theorem meets_retire (hself : status ∈ status.retires) {other : ℤ} {rest rs : List ℤ}
    (hx : Activating t v status (other :: rest) rs pid x) :
    PolicyMeets pid (policy (.retire t v status other))
      (PolicyLeaves (fun _ y => ∃ rs, Activating t v status rest rs pid y)) x := by
  refine meets_policy (by simp) hx.pending (fun y now r _ hr _ s' hs' hc => ?_)
  have hnote : y.2 pid = some (t, status) := hr.note.trans hx.note
  have hcovered := covered_keep hx.note hx.covered hr
  by_cases hother : other
      ∈ (policyEngine.applyAll (retirements t rs) y.1.committed).others t v status.retires
  · simp only [PolicyOp.exec, if_pos hother] at hs'
    refine ⟨rs ++ [other], ?_, hnote, ?_⟩
    · rw [hs']
      simp [retirements]
    · intro u hu hstatus
      have hstatus' : y.1.committed.HasStatus t u status := hc ▸ hstatus
      rcases hcovered u hu hstatus' with hmem | hmem
      · rcases List.mem_cons.mp hmem with rfl | hmem
        · exact .inr (by simp)
        · exact .inl hmem
      · exact .inr (by simp [hmem])
  · simp only [PolicyOp.exec, if_neg hother, List.append_nil] at hs'
    refine ⟨rs, hs', hnote, ?_⟩
    intro u hu hstatus
    have hstatus' : y.1.committed.HasStatus t u status := hc ▸ hstatus
    rcases hcovered u hu hstatus' with hmem | hmem
    · rcases List.mem_cons.mp hmem with rfl | hmem
      · by_cases hrs : u ∈ rs
        · exact .inr hrs
        · exact absurd (mem_others.mpr ⟨hu, status, hself,
            hasStatus_of_not_retired hrs hstatus'⟩) hother
      · exact .inl hmem
    · exact .inr hmem

/-- **The promotion may be committed**: the only version that has the status is
the one promoted. -/
theorem promotion_committable (hgoverns : status = .ACTIVE ∨ status = .CANARY) {rs : List ℤ}
    {pct : ℤ} {at_ : Option Timestamp} (hx : PolicyInv x) (hnote : x.2 pid = some (t, status))
    (hcovered : ∀ u, u ≠ v → x.1.committed.HasStatus t u status → u ∈ ([] : List ℤ) ∨ u ∈ rs) :
    OneEach (policyEngine.applyAll
        (retirements t rs ++ [PolicyWrite.setStatus t v status pct at_]) x.1.committed)
      ∧ ∀ q, q ≠ pid → ∀ t' status', x.2 q = some (t', status') → ∀ u,
        (policyEngine.applyAll (retirements t rs ++ [PolicyWrite.setStatus t v status pct at_])
          x.1.committed).HasStatus t' u status' →
        x.1.committed.HasStatus t' u status' := by
  have hafter : ∀ t' u status', status' = .ACTIVE ∨ status' = .CANARY →
      (policyEngine.applyAll (retirements t rs ++ [PolicyWrite.setStatus t v status pct at_])
        x.1.committed).HasStatus t' u status' →
      (t' = t ∧ u = v ∧ status' = status)
        ∨ (x.1.committed.HasStatus t' u status' ∧ ¬ (t' = t ∧ status' = status)) := by
    intro t' u status' hstatus' h
    rw [Engine.applyAll_append, Engine.applyAll_cons, Engine.applyAll_nil] at h
    rcases hasStatus_setStatus h with hnew | ⟨hne, hold⟩
    · exact .inl hnew
    · have hret : status' ≠ .RETIRED := by rcases hstatus' with rfl | rfl <;> simp
      obtain ⟨hbefore, hrs⟩ := hasStatus_retirements hret hold
      refine .inr ⟨hbefore, ?_⟩
      rintro ⟨rfl, rfl⟩
      rcases hcovered u (fun huv => hne ⟨rfl, huv⟩) hbefore with hmem | hmem
      · cases hmem
      · exact hrs rfl hmem
  refine ⟨oneEach_iff.mpr (fun t' u u' status' hs hu hu' => ?_), fun q hq t' status' hn u hu => ?_⟩
  · rcases hafter t' u status' hs hu with ⟨ht, huv, hst⟩ | ⟨hold, hne⟩
    · rcases hafter t' u' status' hs hu' with ⟨-, huv', -⟩ | ⟨-, hne'⟩
      · rw [huv, huv']
      · exact absurd ⟨ht, hst⟩ hne'
    · rcases hafter t' u' status' hs hu' with ⟨ht, -, hst⟩ | ⟨hold', -⟩
      · exact absurd ⟨ht, hst⟩ hne
      · exact oneEach_iff.mp hx.one t' u u' status' hs hold hold'
  · rcases hafter t' u status' (hx.governs q t' status' hn) hu with ⟨rfl, -, rfl⟩ | ⟨hold, -⟩
    · exact absurd (hx.sole q pid _ hn hnote) hq
    · exact hold

/-- **`activate` leaves one version for each status.** -/
theorem meets_activate (S : PolicyBundleService) (t : Uuid) (v pct : ℤ) :
    PolicyMeets pid (S.activate t v pct) (fun _ _ => True) x := by
  have hself := mem_retires pct
  have hgoverns := activationStatus_cases pct
  refine meets_policy_transaction (fun y _ hin => ?_)
  refine Prog.Safe.bind (meets_policy (Φ := fun _ z => z.1.pending pid = some []) (by simp) hin
    (fun _ _ _ _ _ _ s' hs' _ => hs')) (fun row y₁ hin₁ => ?_) (fun _ _ _ => trivial)
  cases row with
  | none => trivial
  | some row =>
    show PolicyMeets pid (if _ then _ else _) _ _
    split
    · refine Prog.Safe.bind (meets_scan hgoverns hself hin₁) (fun others y₂ hy₂ => ?_)
        (fun _ _ _ => trivial)
      refine Prog.Safe.bind (Prog.safe_forEach
        (I := fun rest z => ∃ rs, Activating t v (PolicyBundleService.activationStatus pct)
          rest rs pid z) (F := fun _ _ => True) ?_ ⟨[], hy₂⟩) (fun _ y₃ hy₃ => ?_)
        (fun _ _ _ => trivial)
      · rintro other rest z ⟨rs, hz⟩
        exact meets_retire hself hz
      · obtain ⟨rs, hy₃⟩ := hy₃
        refine Prog.Safe.bind (Q := PolicyLeaves (fun r z => r ≠ none → ∃ at_, z.1.pending pid
            = some (retirements t rs ++ [PolicyWrite.setStatus t v
              (PolicyBundleService.activationStatus pct) pct at_])
          ∧ z.2 pid = some (t, PolicyBundleService.activationStatus pct)
          ∧ ∀ u, u ≠ v → z.1.committed.HasStatus t u (PolicyBundleService.activationStatus pct) →
            u ∈ ([] : List ℤ) ∨ u ∈ rs))
          (meets_policy (by simp) hy₃.pending (fun y now r _ hr hok s' hs' hc => ?_))
          (fun r z hz => ?_) (fun _ _ _ => trivial)
        · intro hne
          rcases exec_promote hok with ⟨hnone, -⟩ | ⟨-, -, -, hwrites⟩
          · exact absurd hnone hne
          · rw [hwrites] at hs'
            refine ⟨some now, hs', hr.note.trans hy₃.note, ?_⟩
            intro u hu hstatus
            exact covered_keep hy₃.note hy₃.covered hr u hu (hc ▸ hstatus)
        · cases r with
          | none => trivial
          | some updated =>
            obtain ⟨at_, hpending, hnote, hcovered⟩ := hz (by simp)
            intro z' hz' hr
            exact ⟨_, hr.untouched.pending.trans hpending, promotion_committable hgoverns hz'
              (hr.note.trans hnote) (covered_keep hnote hcovered hr)⟩
    · trivial

end Rules

/-! ## Every run -/

/-- The discipline of the service. -/
def policyDiscipline (S : PolicyBundleService) :
    Pool.Discipline (policyPool S) policyStart (fun _ _ => True) oneAtATime (fun _ _ => True) where
  inv := PolicyInv
  unused pid x := Engine.Unused pid x.1 ∧ x.2 pid = none
  rely := Steadfast
  post _ _ _ _ := True
  rely_refl := Steadfast.refl
  rely_trans _ _ _ _ := Steadfast.trans
  unused_rely _ _ _ h hr := ⟨h.1.untouched hr.untouched, hr.note.trans h.2⟩
  start_ok x hx := by
    obtain ⟨db, hone, rfl⟩ := hx
    refine ⟨⟨fun q ws hq => absurd hq (by simp [Engine.quiet]), hone, fun q q' n hq => ?_,
      fun q t status hq => ?_⟩, fun pid => ?_⟩
    · cases hq
    · cases hq
    · exact ⟨⟨rfl, fun k hk => absurd hk (by simp [Engine.quiet]),
        fun c hc => absurd hc (by simp [Engine.quiet])⟩, rfl⟩
  safe_body pid x call _ _ _ := by
    cases call with
    | create t rules actor => exact meets_createVersion S t rules actor
    | activate t v pct => exact meets_activate S t v pct
  safe_crash pid x hx :=
    hx.step_same .close rfl (closing_notes x.2 pid).1 (closing_notes x.2 pid).2
  safe_env e := e.elim

/-- **One stable version and one canary at most**, in every state of a run in
which no activation looks for versions to retire while another one for the same
tenant and status is under way. -/
theorem one_version_each (S : PolicyBundleService) {w : Pool.State (TxOp PolicyOp) (TxRes PolicyRes)
      PyException WatchedPolicies PolicyCall PolicyBundle}
    (h : (policyMachine S).Reach
      (Pool.stepOk (fun _ _ => True) oneAtATime (fun _ _ => True)) w) :
    OneEach w.shared.1.committed :=
  (Pool.reach_safe (policyDiscipline S) h).inv.one

/-! ## Two activations -/

/-- The digest of the first version of the default rules, which stands for
every digest, and a bucket. -/
def samplePolicies : PolicyBundleService where
  hashing :=
    { hmacSha256 := fun _ _ => "81dcd37ccaf4052621d02df8daae8b9aa667c83ca753ba151116be6876f50bb7"
      sha256Head := fun _ => 9514267805222021320 }
  signingKey := "policy-key"

/-- Two drafts of a tenant. -/
def sampleDrafts : PolicyDb :=
  ⟨[samplePolicies.draft 7 {} "ops" 1, samplePolicies.draft 7 {} "ops" 2]⟩

/-- The table with two drafts, and nothing under way. -/
def draftsIdle : Pool.State (TxOp PolicyOp) (TxRes PolicyRes) PyException WatchedPolicies PolicyCall
    PolicyBundle :=
  Pool.idle (Engine.quiet sampleDrafts (), fun _ => none)

theorem draftsIdle_init : (policyMachine samplePolicies).init draftsIdle := by
  refine ⟨_, ⟨sampleDrafts, ?_, rfl⟩, rfl⟩
  intro b hb _ _ _ _ hstatus
  have hdraft : b.status = .DRAFT := by
    rcases List.mem_cons.mp hb with rfl | hb
    · rfl
    · rw [List.mem_singleton.mp hb]
      rfl
  rw [hdraft] at hstatus
  rcases hstatus with h | h <;> cases h

/-- The versions of a tenant that are stable. -/
def stableVersions (db : PolicyDb) (t : Uuid) : List ℤ :=
  (db.bundles.filter (fun b => b.tenantId = t ∧ b.status = .ACTIVE)).map PolicyBundle.version

/-- Both activations look for versions to retire before either has promoted its
own. -/
def overlappingRun : List (Pool.Label (Choice Timestamp) PolicyCall Empty) :=
  [Pool.Label.spawn (PolicyCall.activate 7 1 0), Pool.Label.spawn (PolicyCall.activate 7 2 0)]
    ++ List.replicate 3 (Pool.Label.act 0 (Choice.serve 5)) ++ List.replicate 3
      (Pool.Label.act 1 (Choice.serve 6))
    ++ List.replicate 2 (Pool.Label.act 0 (Choice.serve 5)) ++ List.replicate 2
      (Pool.Label.act 1 (Choice.serve 6))

/-- **Two stable versions**: two activations that overlap are both committed. -/
theorem two_stable_versions :
    ∃ w, (policyMachine samplePolicies).Reach Machine.anyStep w
      ∧ ¬ OneEach w.shared.1.committed := by
  have hrun : ((policyMachine samplePolicies).run draftsIdle overlappingRun).map
      (fun w => decide (stableVersions w.shared.1.committed 7 = [1, 2])) = some true := by
    decide +kernel
  obtain ⟨w, hw, htest⟩ := Machine.reach_of_run draftsIdle_init hrun
  refine ⟨w, hw, fun hone => ?_⟩
  have hstable := of_decide_eq_true htest
  have hactive : ∀ v ∈ [1, 2], w.shared.1.committed.HasStatus 7 v .ACTIVE := by
    intro v hv
    rw [← hstable] at hv
    obtain ⟨b, hb, rfl⟩ := List.mem_map.mp hv
    obtain ⟨hmem, hcond⟩ := List.mem_filter.mp hb
    obtain ⟨ht, hs⟩ := of_decide_eq_true hcond
    exact ⟨b, hmem, ht, rfl, hs⟩
  exact absurd (oneEach_iff.mp hone 7 1 2 .ACTIVE (.inl rfl) (hactive 1 (by simp))
    (hactive 2 (by simp))) (by decide)

/-- A test for the condition on activations, among the calls that have
arrived. -/
def oneAtATimeTest (w : Pool.State (TxOp PolicyOp) (TxRes PolicyRes) PyException WatchedPolicies
    PolicyCall PolicyBundle) : Pool.Label (Choice Timestamp) PolicyCall Empty → Bool
  | .act pid _ =>
    match w.threads pid with
    | some (_, .call (.run (.scanOthers t _ status)) _) =>
      (List.range w.spawned).all (fun q => q = pid || w.shared.2 q ≠ some (t, status))
    | _ => true
  | _ => true

/-- What passes the test meets the condition: a call that has not arrived is not
under way. -/
theorem oneAtATime_of_test (S : PolicyBundleService)
    {w : Pool.State (TxOp PolicyOp) (TxRes PolicyRes) PyException WatchedPolicies PolicyCall
      PolicyBundle} {l : Pool.Label (Choice Timestamp) PolicyCall Empty}
    (hw : (policyMachine S).Reach (Pool.stepOk (fun _ _ => True) oneAtATime (fun _ _ => True)) w)
    (h : oneAtATimeTest w l = true) :
    Pool.stepOk (fun _ _ => True) oneAtATime (fun _ _ => True) w l := by
  cases l with
  | act pid c =>
    rintro call op k hth t v status rfl q hq
    simp only [oneAtATimeTest, hth] at h
    by_cases hlt : q < w.spawned
    · have htest := List.all_eq_true.mp h q (List.mem_range.mpr hlt)
      simpa [hq] using htest
    · have hunused := (Pool.reach_safe (policyDiscipline S) hw).unused q (Nat.le_of_not_lt hlt)
      rw [hunused.2]
      simp
  | _ => trivial

/-- One activation after the other: the second version is the only stable one. -/
theorem one_version_each_sample :
    ∃ w, (policyMachine samplePolicies).Reach
        (Pool.stepOk (fun _ _ => True) oneAtATime (fun _ _ => True)) w
      ∧ stableVersions w.shared.1.committed 7 = [2] ∧ OneEach w.shared.1.committed := by
  have hrun : ((policyMachine samplePolicies).runIf oneAtATimeTest draftsIdle
      ([Pool.Label.spawn (PolicyCall.activate 7 1 0)] ++ List.replicate 5
       (Pool.Label.act 0 (Choice.serve 5))
        ++ [Pool.Label.spawn (PolicyCall.activate 7 2 0)] ++ List.replicate 6
          (Pool.Label.act 1 (Choice.serve 6)))).map
      (fun w => decide (stableVersions w.shared.1.committed 7 = [2])) = some true := by
    decide +kernel
  obtain ⟨w, hw, htest⟩ := Machine.reach_of_runIf
    (fun w l (h : oneAtATimeTest w l = true) => h) draftsIdle_init hrun
  have hw' := hw.strengthen (fun w l hreach => oneAtATime_of_test samplePolicies hreach)
  exact ⟨w, hw', of_decide_eq_true htest, one_version_each samplePolicies hw'⟩
