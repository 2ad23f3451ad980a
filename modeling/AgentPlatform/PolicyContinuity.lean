import AgentPlatform.PolicyActivation

/-!
# Governance that does not go dark

One call after the other, a tenant that has a stable version keeps one – unless
the stable version itself is activated as a canary. Its status then changes from
stable to canary, nothing takes its place, and `resolve` fails closed with
`POLICY_BUNDLE_UNAVAILABLE`.

`policySequence` runs the calls alone, one by one, each with whatever its
connection does to it. What a call leaves behind is one of three things: the
table as it was, a new signed draft, or a promotion with its retirements
(`Successor`). A stable version survives each of them (`Successor.stable`).
-/

/-- **Calls of the service, one after the other.** A label is a call with what
its requests meet. -/
def policySequence (S : PolicyBundleService) :
    Machine PolicyState (PolicyCall × List (Choice Timestamp)) where
  init s := s = Engine.quiet ⟨[]⟩ ()
  step s l := ((l.1.program S).eval (policyEngine.handler 0) l.2 s).map Prod.snd

/-- **No call makes a canary of the version that is stable.** -/
def sparesStable (s : PolicyState) (l : PolicyCall × List (Choice Timestamp)) : Prop :=
  ∀ t v pct, l.1 = .activate t v pct → 0 < pct → pct ≤ 100 → ¬ s.committed.HasStatus t v .ACTIVE

/-! ## What a call leaves behind -/

/-- **The table is in order**: no version is there twice, and all are signed. -/
structure InForce (S : PolicyBundleService) (db : PolicyDb) : Prop where
  keyed : (db.bundles.map (fun b => (b.tenantId, b.version))).Nodup
  signed : ∀ b ∈ db.bundles,
    verifyBundle S.hashing b.rules b.version b.signature S.signingKey = true

/-- The versions an activation retires have one of the statuses it ends. -/
def Retirable (db : PolicyDb) (t : Uuid) (v pct : ℤ) (rs : List ℤ) : Prop :=
  ∀ u ∈ rs, u ≠ v ∧ ∃ status ∈ (PolicyBundleService.activationStatus pct).retires,
    db.HasStatus t u status

/-- **What a call makes of the table.** -/
inductive Successor (S : PolicyBundleService) : PolicyCall → PolicyDb → PolicyDb → Prop
  | same (call : PolicyCall) (db : PolicyDb) : Successor S call db db
  | created {t : Uuid} {rules : GovernanceRules} {actor : String} {n : ℤ} {db : PolicyDb}
      (hfresh : db.find t n = none) :
      Successor S (.create t rules actor) db ⟨db.bundles ++ [S.draft t rules actor n]⟩
  | activated {t : Uuid} {v pct : ℤ} {rs : List ℤ} {at_ : Option Timestamp} {db : PolicyDb}
      (hlow : 0 ≤ pct) (hhigh : pct ≤ 100) (hfound : (db.find t v).isSome)
      (hrs : Retirable db t v pct rs) :
      Successor S (.activate t v pct) db
        (policyEngine.applyAll (retirements t rs
          ++ [PolicyWrite.setStatus t v (PolicyBundleService.activationStatus pct) pct at_]) db)

section Alone

variable {S : PolicyBundleService} {s : PolicyState} {ws : List PolicyWrite}

/-- A program of the service meets a postcondition when it runs alone. -/
abbrev PolicyAlone {α : Type} (p : PolicyProg α)
    (Q : Except PyException α → PolicyState → Prop) (s : PolicyState) : Prop :=
  p.wp (Prog.Handled (policyEngine.handler 0) (fun _ _ _ => True)) Q s

/-- The postcondition of a part of a transaction: the committed table is
untouched, and these are the writes when it returns. -/
abbrev Writing {α : Type} (db : PolicyDb) (Φ : α → List PolicyWrite → Prop) :
    Except PyException α → PolicyState → Prop :=
  Prog.outcome (fun r s => s.committed = db ∧ ∃ ws, s.pending 0 = some ws ∧ Φ r ws)
    (fun _ s => s.committed = db)

theorem alone_policy {op : PolicyOp} {Φ : PolicyRes op → List PolicyWrite → Prop}
    (hin : s.pending 0 = some ws)
    (h : ∀ now r, (op.exec now (policyEngine.applyAll ws s.committed)).1 = .ok r →
      Φ r (ws ++ (op.exec now (policyEngine.applyAll ws s.committed)).2)) :
    PolicyAlone (policy op) (Writing s.committed Φ) s := by
  have hsome : (s.pending 0).isSome := by rw [hin]; rfl
  have hview : policyEngine.view s 0 = policyEngine.applyAll ws s.committed := by
    simp [Engine.view, hin]
  refine Engine.safe_stmt ?_ ?_
  · rintro _ rfl -
    exact ⟨trivial, rfl⟩
  · rintro _ now rfl - -
    refine ⟨trivial, ?_⟩
    cases hans : policyEngine.answer 0 now op s with
    | error e => exact Engine.committed_ran hsome
    | ok r =>
      refine ⟨Engine.committed_ran hsome, _, Engine.pending_ran hin, ?_⟩
      rw [hview]
      exact h now r (by rw [← hview]; exact hans)

/-- A transaction leaves the table as it was, or with its writes. -/
theorem alone_transaction {α : Type} {body : PolicyProg α} {Φ : α → List PolicyWrite → Prop}
    (hbody : ∀ s₁, s₁.committed = s.committed → s₁.pending 0 = some [] →
      PolicyAlone body (Writing s.committed Φ) s₁) :
    PolicyAlone (Engine.transaction body) (fun r s' =>
      match r with
      | .ok a => ∃ ws, Φ a ws ∧ s'.committed = policyEngine.applyAll ws s.committed
      | .error _ => s'.committed = s.committed
        ∨ ∃ a ws, Φ a ws ∧ s'.committed = policyEngine.applyAll ws s.committed) s := by
  refine Engine.safe_transaction ?_ ?_
  · rintro _ rfl -
    exact ⟨trivial, .inl rfl⟩
  · rintro _ rfl
    refine ⟨trivial, Prog.Safe.mono (hbody _ rfl (by simp [Engine.opened])) (fun r s₂ hr => ?_)⟩
    cases r with
    | ok a =>
      obtain ⟨hc, ws, hws, hΦ⟩ := hr
      rintro _ rfl
      have hpublish : (policyEngine.publish s₂ 0).committed
          = policyEngine.applyAll ws s.committed := by
        show policyEngine.view s₂ 0 = _
        simp [Engine.view, hws, hc]
      exact ⟨⟨trivial, ⟨ws, hΦ, hpublish⟩, fun _ => .inr ⟨a, ws, hΦ, hpublish⟩⟩,
        fun _ => ⟨trivial, .inl hc⟩⟩
    | error e =>
      rintro _ rfl
      exact ⟨trivial, .inl hr⟩

/-- **What `create_version` leaves behind.** -/
theorem alone_createVersion (t : Uuid) (rules : GovernanceRules) (actor : String) :
    PolicyAlone (S.createVersion t rules actor)
      (fun _ s' => Successor S (.create t rules actor) s.committed s'.committed) s := by
  refine Prog.Safe.bind (Q := fun _ s' => s'.committed = s.committed) ?_ (fun n s₁ hs₁ => ?_)
    (fun e s' hs' => by rw [hs']; exact .same _ _)
  · refine Prog.Safe.mono (alone_transaction (Φ := fun _ ws => ws = []) (fun s₁ hc hin => ?_))
      (fun r s' hr => ?_)
    · refine Prog.Safe.bind (alone_policy (Φ := fun _ ws => ws = []) hin (fun _ _ _ => rfl))
        (fun _ s₂ hs₂ => ?_) (fun _ _ h => h.trans hc)
      obtain ⟨hc₂, ws, hws, rfl⟩ := hs₂
      have hread : PolicyAlone (policy (.nextVersion t)) _ s₂ :=
        alone_policy (Φ := fun _ ws => ws = []) hws (fun _ _ _ => rfl)
      rwa [hc₂, hc] at hread
    · cases r with
      | ok a =>
        obtain ⟨ws, rfl, hws⟩ := hr
        exact hws
      | error e =>
        rcases hr with hr | ⟨a, ws, rfl, hws⟩
        · exact hr
        · exact hws
  · have hwrites : ∀ ws : List PolicyWrite, (ws = [.insert (S.draft t rules actor n)]
        ∧ s₁.committed.find t n = none) →
        Successor S (.create t rules actor) s.committed
          (policyEngine.applyAll ws s₁.committed) := by
      rintro _ ⟨rfl, hfresh⟩
      rw [hs₁] at hfresh ⊢
      exact .created hfresh
    refine Prog.Safe.mono (alone_transaction (Φ := fun _ ws =>
      ws = [.insert (S.draft t rules actor n)] ∧ s₁.committed.find t n = none)
      (fun s₂ hc hin => ?_)) (fun r s' hr => ?_)
    · have hinsert : PolicyAlone (policy (.insertBundle (S.draft t rules actor n))) _ s₂ :=
        alone_policy (Φ := fun _ ws => ws = [.insert (S.draft t rules actor n)]
          ∧ s₁.committed.find t n = none) hin (fun now r hok => ?_)
      · rwa [hc] at hinsert
      · obtain ⟨-, hfresh, -, hw⟩ := exec_insertBundle hok
        refine ⟨hw, ?_⟩
        rw [← hc]
        exact hfresh
    · cases r with
      | ok a =>
        obtain ⟨ws, hΦ, hws⟩ := hr
        rw [hws]
        exact hwrites ws hΦ
      | error e =>
        rcases hr with hr | ⟨a, ws, hΦ, hws⟩
        · rw [hr, hs₁]
          exact .same _ _
        · rw [hws]
          exact hwrites ws hΦ

/-- The writes of a promotion with its retirements. -/
def Promotes (db : PolicyDb) (t : Uuid) (v pct : ℤ) (ws : List PolicyWrite) : Prop :=
  0 ≤ pct ∧ pct ≤ 100 ∧ (db.find t v).isSome ∧ ∃ rs at_, ws = retirements t rs
      ++ [PolicyWrite.setStatus t v (PolicyBundleService.activationStatus pct) pct at_]
    ∧ Retirable db t v pct rs

/-- Retiring versions removes none. -/
theorem find_retirements {db : PolicyDb} {t : Uuid} {v : ℤ} (rs : List ℤ)
    (h : ((policyEngine.applyAll (retirements t rs) db).find t v).isSome) :
    (db.find t v).isSome := by
  induction rs generalizing db with
  | nil => exact h
  | cons r rs ih =>
    have hnext := ih h
    obtain ⟨b, hb, hkey⟩ := List.find?_isSome.mp hnext
    obtain ⟨b₀, hb₀, rfl⟩ := List.mem_map.mp hb
    refine List.find?_isSome.mpr ⟨b₀, hb₀, ?_⟩
    by_cases hr : b₀.tenantId = t ∧ b₀.version = r
    · simpa [hr] using hkey
    · simpa [hr] using hkey

/-- The loop that retires the other versions. -/
theorem alone_retireAll (t : Uuid) (v pct : ℤ) (others : List ℤ) (hin : s.pending 0 = some []) :
    PolicyAlone (Prog.forEach (fun other => policy
        (.retire t v (PolicyBundleService.activationStatus pct) other)) others)
      (Writing s.committed (fun _ ws => ∃ rs, ws = retirements t rs
        ∧ Retirable s.committed t v pct rs)) s := by
  refine Prog.Safe.mono (Prog.safe_forEach (I := fun _ (s' : PolicyState) =>
      s'.committed = s.committed ∧ ∃ rs, s'.pending 0 = some (retirements t rs)
        ∧ Retirable s.committed t v pct rs)
    (F := fun _ (s' : PolicyState) => s'.committed = s.committed) ?_
    ⟨rfl, [], hin, fun _ hu => absurd hu List.not_mem_nil⟩) (fun r s' hr => ?_)
  · rintro other rest s₁ ⟨hc, rs, hin₁, hrs⟩
    refine Prog.Safe.mono (alone_policy (Φ := fun _ ws => ∃ rs, ws = retirements t rs
      ∧ Retirable s.committed t v pct rs) hin₁ (fun now r hok => ?_)) (fun r s₂ hr => ?_)
    · by_cases hother : other ∈ (policyEngine.applyAll (retirements t rs)
          s₁.committed).others t v (PolicyBundleService.activationStatus pct).retires
      · simp only [PolicyOp.exec, if_pos hother]
        refine ⟨rs ++ [other], by simp [retirements], fun u hu => ?_⟩
        rcases List.mem_append.mp hu with hu | hu
        · exact hrs u hu
        · rw [List.mem_singleton.mp hu]
          obtain ⟨hne, status, hstatus, hhas⟩ := mem_others.mp hother
          have hret : status ≠ .RETIRED := by
            rintro rfl
            rcases activationStatus_cases pct with h | h <;>
              simp [h, BundleStatus.retires] at hstatus
          refine ⟨hne, status, hstatus, ?_⟩
          rw [← hc]
          exact (hasStatus_retirements hret hhas).1
      · simp only [PolicyOp.exec, if_neg hother, List.append_nil]
        exact ⟨rs, rfl, hrs⟩
    · cases r with
      | ok a =>
        obtain ⟨hc₂, _, hin₂, rs', rfl, hrs'⟩ := hr
        exact ⟨hc₂.trans hc, rs', hin₂, hrs'⟩
      | error e => exact hr.trans hc
  · cases r with
    | ok a =>
      obtain ⟨hc, rs, hin', hrs⟩ := hr
      exact ⟨hc, _, hin', rs, rfl, hrs⟩
    | error e => exact hr

/-- **What `activate` leaves behind.** -/
theorem alone_activate (t : Uuid) (v pct : ℤ) :
    PolicyAlone (S.activate t v pct) (fun r s' =>
      Successor S (.activate t v pct) s.committed s'.committed
        ∧ ∀ row, r = .ok row → ∃ ws, Promotes s.committed t v pct ws
          ∧ s'.committed = policyEngine.applyAll ws s.committed) s := by
  have hwrites : ∀ ws : List PolicyWrite, Promotes s.committed t v pct ws →
      Successor S (.activate t v pct) s.committed (policyEngine.applyAll ws s.committed) := by
    rintro _ ⟨hlow, hhigh, hfound, rs, at_, rfl, hrs⟩
    exact .activated hlow hhigh hfound hrs
  refine Prog.Safe.mono (alone_transaction (Φ := fun _ ws => Promotes s.committed t v pct ws)
    (fun s₁ hc hin => ?_)) (fun r s' hr => ?_)
  · rw [← hc]
    refine Prog.Safe.bind (alone_policy (Φ := fun _ ws => ws = []) hin (fun _ _ _ => rfl))
      (fun row s₂ hs₂ => ?_) (fun _ _ h => h)
    obtain ⟨hc₂, _, hin₂, rfl⟩ := hs₂
    rw [← hc₂]
    cases row with
    | none => exact rfl
    | some row =>
      show PolicyAlone (if _ then _ else _) _ _
      split
      · refine Prog.Safe.bind (alone_policy (Φ := fun _ ws => ws = []) hin₂ (fun _ _ _ => rfl))
          (fun others s₃ hs₃ => ?_) (fun _ _ h => h)
        obtain ⟨hc₃, _, hin₃, rfl⟩ := hs₃
        rw [← hc₃]
        refine Prog.Safe.bind (alone_retireAll t v pct others hin₃) (fun _ s₄ hs₄ => ?_)
          (fun _ _ h => h)
        obtain ⟨hc₄, _, hin₄, rs, rfl, hrs⟩ := hs₄
        rw [← hc₄] at hrs ⊢
        refine Prog.Safe.bind (alone_policy (Φ := fun r ws => r ≠ none →
          Promotes s₄.committed t v pct ws) hin₄ (fun now r hok hne => ?_))
          (fun r s₅ hs₅ => ?_) (fun _ _ h => h)
        · rcases exec_promote hok with ⟨hnone, -⟩ | ⟨hlow, hhigh, ⟨b, hb, -⟩, hw⟩
          · exact absurd hnone hne
          · refine ⟨hlow, hhigh, find_retirements rs (by rw [hb]; rfl), rs, some now, ?_, hrs⟩
            rw [hw]
        · obtain ⟨hc₅, ws, hin₅, hΦ⟩ := hs₅
          cases r with
          | none => exact hc₅
          | some updated => exact ⟨hc₅, ws, hin₅, hΦ (by simp)⟩
      · exact rfl
  · cases r with
    | ok a =>
      obtain ⟨ws, hΦ, hws⟩ := hr
      refine ⟨?_, fun _ _ => ⟨ws, hΦ, hws⟩⟩
      rw [hws]
      exact hwrites ws hΦ
    | error e =>
      refine ⟨?_, fun row hrow => absurd hrow (by simp)⟩
      rcases hr with hr | ⟨a, ws, hΦ, hws⟩
      · rw [hr]
        exact .same _ _
      · rw [hws]
        exact hwrites ws hΦ

/-- **What a call leaves behind.** -/
theorem successor_of_step {s' : PolicyState} {l : PolicyCall × List (Choice Timestamp)}
    (h : (policySequence S).step s l = some s') : Successor S l.1 s.committed s'.committed := by
  obtain ⟨⟨r, s''⟩, heval, rfl⟩ := Option.map_eq_some_iff.mp h
  obtain ⟨call, cs⟩ := l
  cases call with
  | create t rules actor => exact Prog.wp_eval (alone_createVersion t rules actor) heval
  | activate t v pct => exact (Prog.wp_eval (alone_activate t v pct) heval).1

end Alone

/-! ## A stable version stays -/

section Stable

variable {S : PolicyBundleService} {db : PolicyDb} {t : Uuid}

theorem InForce.setStatus (h : InForce S db) (t : Uuid) (v : ℤ) (status : BundleStatus) (pct : ℤ)
    (at_ : Option Timestamp) : InForce S (PolicyWrite.apply
    (.setStatus t v status pct at_) db) := by
  refine ⟨?_, fun b hb => ?_⟩
  · have hkeys : (PolicyWrite.apply (.setStatus t v status pct at_) db).bundles.map
        (fun b => (b.tenantId, b.version)) = db.bundles.map (fun b => (b.tenantId, b.version)) := by
      show (db.bundles.map _).map _ = _
      rw [List.map_map]
      refine List.map_congr_left (fun b _ => ?_)
      by_cases hb : b.tenantId = t ∧ b.version = v <;> simp [hb]
    rw [hkeys]
    exact h.keyed
  · obtain ⟨b₀, hb₀, rfl⟩ := List.mem_map.mp hb
    have hsigned := h.signed b₀ hb₀
    split
    · exact hsigned
    · exact hsigned

theorem InForce.retirements (h : InForce S db) (t : Uuid) (rs : List ℤ) :
    InForce S (policyEngine.applyAll (retirements t rs) db) := by
  induction rs generalizing db with
  | nil => exact h
  | cons r rs ih => exact ih (h.setStatus t r .RETIRED 0 none)

/-- **The table stays in order.** -/
theorem InForce.successor {db' : PolicyDb} {call : PolicyCall} (h : InForce S db)
    (hs : Successor S call db db') : InForce S db' := by
  cases hs with
  | same => exact h
  | created hfresh =>
    refine ⟨?_, fun b hb => ?_⟩
    · rw [List.map_append, List.nodup_append]
      refine ⟨h.keyed, by simp, fun k hk k' hk' heq => ?_⟩
      obtain ⟨b, hb, rfl⟩ := List.mem_map.mp hk
      rw [List.map_singleton, List.mem_singleton] at hk'
      obtain ⟨ht, hv⟩ := Prod.mk.inj (heq.trans hk')
      exact List.find?_eq_none.mp hfresh b hb (decide_eq_true ⟨ht, hv⟩)
    · rcases List.mem_append.mp hb with hb | hb
      · exact h.signed b hb
      · rw [List.mem_singleton.mp hb]
        exact decide_eq_true rfl
  | activated =>
    rw [Engine.applyAll_append]
    exact (h.retirements _ _).setStatus _ _ _ _ _

/-- A version that is not changed keeps its status. -/
theorem hasStatus_setStatus_of_ne {t' : Uuid} {u v' : ℤ} {status status' : BundleStatus} {pct : ℤ}
    {at_ : Option Timestamp} (h : db.HasStatus t u status) (hne : ¬ (t = t' ∧ u = v')) :
    (PolicyWrite.apply (.setStatus t' v' status' pct at_) db).HasStatus t u status := by
  obtain ⟨b, hb, ht, hv, hs⟩ := h
  refine ⟨b, List.mem_map.mpr ⟨b, hb, if_neg ?_⟩, ht, hv, hs⟩
  rw [ht, hv]
  exact hne

theorem hasStatus_retirements_of_ne {t' : Uuid} {u : ℤ} {status : BundleStatus} {rs : List ℤ}
    (h : db.HasStatus t u status) (hne : t = t' → u ∉ rs) :
    (policyEngine.applyAll (retirements t' rs) db).HasStatus t u status := by
  induction rs generalizing db with
  | nil => exact h
  | cons r rs ih =>
    refine ih (hasStatus_setStatus_of_ne h ?_) (fun ht hmem => hne ht (List.mem_cons_of_mem r hmem))
    rintro ⟨ht, rfl⟩
    exact hne ht List.mem_cons_self

/-- A version that is there has the status it is given. -/
theorem hasStatus_promoted {v pct : ℤ} {status : BundleStatus} {at_ : Option Timestamp}
    (rs : List ℤ)
    (h : (db.find t v).isSome) :
    (policyEngine.applyAll (retirements t rs ++ [PolicyWrite.setStatus t v status pct at_])
    db).HasStatus t v
      status := by
  induction rs generalizing db with
  | nil =>
    obtain ⟨b, hb, hkey⟩ := List.find?_isSome.mp h
    obtain ⟨ht, hv⟩ := of_decide_eq_true hkey
    exact ⟨b.withStatus status pct at_, List.mem_map.mpr ⟨b, hb, if_pos ⟨ht, hv⟩⟩, ht, hv, rfl⟩
  | cons r rs ih =>
    refine ih ?_
    obtain ⟨b, hb, hkey⟩ := List.find?_isSome.mp h
    refine List.find?_isSome.mpr ⟨_, List.mem_map.mpr ⟨b, hb, rfl⟩, ?_⟩
    by_cases hr : b.tenantId = t ∧ b.version = r
    · simpa [hr] using hkey
    · simpa [hr] using hkey

/-- A version has one status. -/
theorem InForce.status_unique (h : InForce S db) {u : ℤ} {status status' : BundleStatus}
    (hs : db.HasStatus t u status) (hs' : db.HasStatus t u status') : status = status' := by
  obtain ⟨b, hb, ht, hv, rfl⟩ := hs
  obtain ⟨b', hb', ht', hv', rfl⟩ := hs'
  have hbb : b = b' := List.inj_on_of_nodup_map h.keyed hb hb' (by rw [ht, hv, ht', hv'])
  rw [hbb]

/-- **A stable version survives a call**, unless it is made a canary. -/
theorem Successor.stable {db' : PolicyDb} {call : PolicyCall} (h : InForce S db)
    (hs : Successor S call db db')
    (hspares : ∀ t v pct, call = .activate t v pct → 0 < pct → pct ≤ 100 →
      ¬ db.HasStatus t v .ACTIVE)
    (hstable : ∃ v, db.HasStatus t v .ACTIVE) : ∃ v, db'.HasStatus t v .ACTIVE := by
  obtain ⟨v₀, hv₀⟩ := hstable
  cases hs with
  | same => exact ⟨v₀, hv₀⟩
  | created hfresh =>
    obtain ⟨b, hb, ht, hv, hactive⟩ := hv₀
    exact ⟨v₀, b, List.mem_append.mpr (.inl hb), ht, hv, hactive⟩
  | @activated t' v pct rs at_ _ hlow hhigh hfound hrs =>
    by_cases htt : t = t'
    · subst htt
      by_cases hpct : 0 < pct
      · have hstatus : PolicyBundleService.activationStatus pct = .CANARY := if_pos hpct
        have hne : v₀ ≠ v := by
          rintro rfl
          exact hspares t v₀ pct rfl hpct hhigh hv₀
        refine ⟨v₀, ?_⟩
        rw [Engine.applyAll_append]
        refine hasStatus_setStatus_of_ne (hasStatus_retirements_of_ne hv₀ (fun _ hmem => ?_))
          (fun hkey => hne hkey.2)
        obtain ⟨-, status, hretires, hcanary⟩ := hrs v₀ hmem
        rw [hstatus, BundleStatus.retires, List.mem_singleton] at hretires
        rw [hretires] at hcanary
        exact absurd (h.status_unique hv₀ hcanary) (by simp)
      · have hstatus : PolicyBundleService.activationStatus pct = .ACTIVE := if_neg hpct
        rw [hstatus]
        exact ⟨v, hasStatus_promoted rs hfound⟩
    · refine ⟨v₀, ?_⟩
      rw [Engine.applyAll_append]
      exact hasStatus_setStatus_of_ne (hasStatus_retirements_of_ne hv₀ (fun ht => absurd ht htt))
        (fun hkey => htt hkey.1)

/-- **A tenant with a stable version is governed**, for every decision key. -/
theorem InForce.resolve (h : InForce S db) (hstable : ∃ v, db.HasStatus t v .ACTIVE)
    (decisionKey : String) : ∃ p b, S.resolve t decisionKey db = .ok (some p) ∧ b ∈ db.bundles
      ∧ b.tenantId = t ∧ b.version = p.version ∧ b.rules = p.rules
      ∧ verifyBundle S.hashing b.rules b.version b.signature S.signingKey = true := by
  obtain ⟨v, b₀, hb₀, ht₀, -, hs₀⟩ := hstable
  have hmem : ∀ b, b ∈ PolicyBundleService.governing db t → b ∈ db.bundles ∧ b.tenantId = t := by
    intro b hb
    rw [PolicyBundleService.governing, List.mem_insertionSort] at hb
    obtain ⟨hbundle, hcond⟩ := List.mem_filter.mp hb
    exact ⟨hbundle, (of_decide_eq_true hcond).1⟩
  have hgov : b₀ ∈ PolicyBundleService.governing db t := by
    rw [PolicyBundleService.governing, List.mem_insertionSort]
    exact List.mem_filter.mpr ⟨hb₀, decide_eq_true ⟨ht₀, .inl hs₀⟩⟩
  have hsome : ((PolicyBundleService.governing db t).find? (fun b => b.status = .ACTIVE)).isSome :=
    List.find?_isSome.mpr ⟨b₀, hgov, decide_eq_true hs₀⟩
  obtain ⟨stable, hfind⟩ := Option.isSome_iff_exists.mp hsome
  have hrows : (PolicyBundleService.governing db t).isEmpty = false := by
    cases hl : PolicyBundleService.governing db t with
    | nil => rw [hl] at hgov; cases hgov
    | cons _ _ => rfl
  have hchosen : ∀ (b : PolicyBundle) (used : Bool), b ∈ PolicyBundleService.governing db t →
      ∃ p b', (if verifyBundle S.hashing b.rules b.version b.signature S.signingKey then
          (.ok (some ⟨b.version, b.rules, used⟩) :
            Except PyException (Option PolicyBundleService.ResolvedPolicy))
        else .error (.other "POLICY_BUNDLE_SIGNATURE_INVALID")) = .ok (some p) ∧ b' ∈ db.bundles
        ∧ b'.tenantId = t ∧ b'.version = p.version ∧ b'.rules = p.rules
        ∧ verifyBundle S.hashing b'.rules b'.version b'.signature S.signingKey = true := by
    intro b used hb
    obtain ⟨hbundle, ht⟩ := hmem b hb
    have hsigned := h.signed b hbundle
    exact ⟨⟨b.version, b.rules, used⟩, b, by rw [if_pos hsigned], hbundle, ht, rfl, rfl, hsigned⟩
  unfold PolicyBundleService.resolve
  simp only [hrows, hfind, Bool.false_eq_true, if_false, Option.isNone_some, and_false]
  cases hcanary : (PolicyBundleService.governing db t).find? (fun b => b.status = .CANARY) with
  | none => exact hchosen stable false (List.mem_of_find?_eq_some hfind)
  | some canary =>
    simp only [Option.any_some]
    split
    · exact absurd ‹_› (by split <;> simp)
    · rename_i chosen hif
      refine hchosen chosen _ ?_
      split at hif
      · obtain rfl := Option.some.inj hif
        exact List.mem_of_find?_eq_some hcanary
      · obtain rfl := Option.some.inj hif
        exact List.mem_of_find?_eq_some hfind

end Stable

/-! ## Every sequence of calls -/

section Sequences

variable {S : PolicyBundleService}

/-- The table is in order after every sequence of calls. -/
theorem sequence_inForce {ok : PolicyState → PolicyCall × List (Choice Timestamp) → Prop}
    {s : PolicyState} (h : (policySequence S).Reach ok s) : InForce S s.committed := by
  refine Machine.Reach.invariant (M := policySequence S) (I := fun s => InForce S s.committed)
    ?_ ?_ h
  · rintro _ rfl
    exact ⟨List.nodup_nil, fun b hb => absurd hb List.not_mem_nil⟩
  · intro s l s' _ hs _ hstep
    exact hs.successor (successor_of_step hstep)

/-- **Governance does not go dark**: after a version has been activated as
stable, and while no call makes a canary of the version that is stable, `resolve`
returns rules with a valid signature for every decision key. -/
theorem governance_never_dark {t : Uuid} {v : ℤ} {cs : List (Choice Timestamp)}
    {row : PolicyBundle} {s₁ s₂ s₃ : PolicyState}
    (h₁ : (policySequence S).Reach Machine.anyStep s₁)
    (hact : (S.activate t v 0).eval (policyEngine.handler 0) cs s₁ = some (.ok row, s₂))
    (h : (policySequence S).Steps sparesStable s₂ s₃) (decisionKey : String) :
    ∃ p b, S.resolve t decisionKey s₃.committed = .ok (some p) ∧ b ∈ s₃.committed.bundles
      ∧ b.tenantId = t ∧ b.version = p.version ∧ b.rules = p.rules
      ∧ verifyBundle S.hashing b.rules b.version b.signature S.signingKey = true := by
  have hsuccessor := Prog.wp_eval (alone_activate (S := S) t v 0) hact
  have hinit : InForce S s₂.committed ∧ ∃ u, s₂.committed.HasStatus t u .ACTIVE := by
    refine ⟨(sequence_inForce h₁).successor hsuccessor.1, v, ?_⟩
    obtain ⟨ws, ⟨-, -, hfound, rs, at_, rfl, -⟩, hws⟩ := hsuccessor.2 row rfl
    rw [hws]
    exact hasStatus_promoted rs hfound
  have hstay : InForce S s₃.committed ∧ ∃ u, s₃.committed.HasStatus t u .ACTIVE := by
    induction h with
    | refl => exact hinit
    | tail _ hnext ih =>
      obtain ⟨l, hspares, hstep⟩ := hnext
      have hs := successor_of_step hstep
      exact ⟨ih.1.successor hs, hs.stable ih.1 (fun t v pct hl => hspares t v pct hl) ih.2⟩
  exact hstay.1.resolve hstay.2 decisionKey

end Sequences

/-! ## The stable version as a canary -/

/-- A first version is created, and activated as stable. -/
def stableSetup : List (PolicyCall × List (Choice Timestamp)) :=
  [(.create 7 {} "ops", List.replicate 7 (.serve 5))]

/-- The states around a stable activation, and after further calls. -/
def afterStable (ls : List (PolicyCall × List (Choice Timestamp)))
    (test : PolicyState → PolicyCall × List (Choice Timestamp) → Bool) (p : PolicyState → Bool) :
    Option Bool :=
  ((policySequence samplePolicies).run (Engine.quiet ⟨[]⟩ ()) stableSetup).bind (fun s₁ =>
    ((samplePolicies.activate 7 1 0).eval (policyEngine.handler 0)
      (List.replicate 5 (.serve 5)) s₁).bind (fun x =>
        ((policySequence samplePolicies).runIf test x.2 ls).map (fun s₃ => x.1.isOk && p s₃)))

theorem afterStable_run {ok : PolicyState → PolicyCall × List (Choice Timestamp) → Prop}
    {ls : List (PolicyCall × List (Choice Timestamp))}
    {test : PolicyState → PolicyCall × List (Choice Timestamp) → Bool} {p : PolicyState → Bool}
    (htest : ∀ s l, test s l = true → ok s l) (h : afterStable ls test p = some true) :
    ∃ s₁ s₂ s₃ row, (policySequence samplePolicies).Reach Machine.anyStep s₁
      ∧ (samplePolicies.activate 7 1 0).eval (policyEngine.handler 0)
          (List.replicate 5 (.serve 5)) s₁ = some (.ok row, s₂)
      ∧ (policySequence samplePolicies).Steps ok s₂ s₃ ∧ p s₃ = true := by
  obtain ⟨s₁, hs₁, h⟩ := Option.bind_eq_some_iff.mp h
  obtain ⟨⟨r, s₂⟩, hact, h⟩ := Option.bind_eq_some_iff.mp h
  obtain ⟨s₃, hs₃, hp⟩ := Option.map_eq_some_iff.mp h
  obtain ⟨hok, hp⟩ := (Bool.and_eq_true _ _).mp hp
  cases r with
  | error e => cases hok
  | ok row =>
    exact ⟨s₁, s₂, s₃, row, (Machine.Reach.of_init rfl).steps (Machine.steps_of_run hs₁), hact,
      Machine.steps_of_runIf htest hs₃, hp⟩

/-- The call names no version that is stable. -/
def sparesStableTest (s : PolicyState) (l : PolicyCall × List (Choice Timestamp)) : Bool :=
  match l.1 with
  | .activate t v _ => !(stableVersions s.committed t).contains v
  | _ => true

theorem sparesStable_of_test (s : PolicyState) (l : PolicyCall × List (Choice Timestamp))
    (h : sparesStableTest s l = true) : sparesStable s l := by
  obtain ⟨call, cs⟩ := l
  rintro t v pct rfl - - ⟨b, hb, ht, hv, hs⟩
  have hmem : v ∈ stableVersions s.committed t :=
    List.mem_map.mpr ⟨b, List.mem_filter.mpr ⟨hb, decide_eq_true ⟨ht, hs⟩⟩, hv⟩
  simp [sparesStableTest, hmem] at h

/-- A second version as a canary, with the first one stable. -/
theorem governance_never_dark_sample :
    ∃ s₁ s₂ s₃ row, (policySequence samplePolicies).Reach Machine.anyStep s₁
      ∧ (samplePolicies.activate 7 1 0).eval (policyEngine.handler 0)
          (List.replicate 5 (.serve 5)) s₁ = some (.ok row, s₂)
      ∧ (policySequence samplePolicies).Steps sparesStable s₂ s₃
      ∧ ∃ p b, samplePolicies.resolve 7 "session-1" s₃.committed = .ok (some p)
        ∧ b ∈ s₃.committed.bundles ∧ b.tenantId = 7 ∧ b.version = p.version ∧ b.rules = p.rules
        ∧ verifyBundle samplePolicies.hashing b.rules b.version b.signature
          samplePolicies.signingKey = true := by
  have hrun : afterStable [(.create 7 {} "ops", List.replicate 7 (.serve 5)),
      (.activate 7 2 10, List.replicate 5 (.serve 6))] sparesStableTest (fun _ => true)
        = some true := by
    decide +kernel
  obtain ⟨s₁, s₂, s₃, row, h₁, hact, h, -⟩ := afterStable_run sparesStable_of_test hrun
  exact ⟨s₁, s₂, s₃, row, h₁, hact, h, governance_never_dark h₁ hact h "session-1"⟩

/-- **Governance goes dark** when the stable version is activated as a canary. -/
theorem governance_dark :
    ∃ s₁ s₂ s₃ row, (policySequence samplePolicies).Reach Machine.anyStep s₁
      ∧ (samplePolicies.activate 7 1 0).eval (policyEngine.handler 0)
          (List.replicate 5 (.serve 5)) s₁ = some (.ok row, s₂)
      ∧ (policySequence samplePolicies).Steps Machine.anyStep s₂ s₃
      ∧ samplePolicies.resolve 7 "session-1" s₃.committed
        = .error (.other "POLICY_BUNDLE_UNAVAILABLE") := by
  have hrun : afterStable [(.activate 7 1 10, List.replicate 5 (.serve 6))] (fun _ _ => true)
      (fun s => PyException.raisedBy (.other "POLICY_BUNDLE_UNAVAILABLE")
        (samplePolicies.resolve 7 "session-1" s.committed)) = some true := by
    decide +kernel
  obtain ⟨s₁, s₂, s₃, row, h₁, hact, h, hp⟩ :=
    afterStable_run (fun _ _ _ => (trivial : Machine.anyStep _ _)) hrun
  exact ⟨s₁, s₂, s₃, row, h₁, hact, h, PyException.raisedBy_iff.mp hp⟩
