import AgentPlatform.PolicyActivation

/-!
# The numbers of the versions

`create_version` asks for the next number in a transaction of its own, under the
advisory lock of the tenant, and inserts the row in a second one. The lock is gone
when the first transaction ends, so the number is out of anyone's protection
until the row is committed: a second call that asks in between is given the same
number, and one of the two rows is refused by the primary key.

`numbering` takes note of the numbers that have been given out and not used yet.
In the runs in which nobody asks while a number is out, the number a call holds
is still the next one when its row is inserted, every call succeeds, and the
versions created are the next ones in order, without gaps.
-/

/-! ## Notes -/

/-- The numbers given out and not used yet, and the versions created so far with
the call that created each. -/
structure NumbersOut where
  hand : ℕ → Option ℤ
  created : List (ℕ × ℤ)

/-- A call has a number from the moment it is told to the end of the transaction
that inserts its row. -/
def numbering (pid : ℕ) (op : TxOp PolicyOp) (r : Except PyException (TxRes PolicyRes op))
    (s _ : PolicyState) (g : NumbersOut) : NumbersOut :=
  match op, r with
  | .run (.nextVersion _), .ok version =>
    { g with hand := Function.update g.hand pid (some version) }
  | .commit, .ok _ =>
    match s.pending pid with
    | some (.insert row :: _) =>
      ⟨Function.update g.hand pid none, g.created ++ [(pid, row.version)]⟩
    | _ => g
  | .rollback, _ => { g with hand := Function.update g.hand pid none }
  | _, _ => g

/-- The table and the numbers that are out. -/
abbrev NumberedPolicies := PolicyState × NumbersOut

/-- **The calls of `create_version` on one tenant**, watched. -/
def creationPool (S : PolicyBundleService) (t : Uuid) :=
  policyEngine.watched numbering
    (fun pid g => { g with hand := Function.update g.hand pid none })
    (fun call : GovernanceRules × String => S.createVersion t call.1 call.2)

/-- The numbers `m + 1`, …, `m + n`. -/
def numbersFrom (m n : ℕ) : List ℤ := (List.range n).map (fun i : ℕ => (m : ℤ) + i + 1)

/-- The table to begin with: the tenant has the versions `1`, …, `m`. -/
def numberedStart (t : Uuid) (m : ℕ) (x : NumberedPolicies) : Prop :=
  ∃ db, (db.versions t).Perm (numbersFrom 0 m) ∧ x = (Engine.quiet db (), ⟨fun _ => none, []⟩)

/-- Any number of calls at once. -/
def creationMachine (S : PolicyBundleService) (t : Uuid) (m : ℕ) :=
  (creationPool S t).machine (numberedStart t m)

/-- **A call asks for a number only when no other call has one in hand.** No
request is failed. -/
def oneNumberOut (t : Uuid) (pid : ℕ) (c : Choice Timestamp) (op : TxOp PolicyOp)
    (x : NumberedPolicies) : Prop :=
  (∃ now, c = .serve now)
    ∧ (op = .run (.nextVersion t) → ∀ q, q ≠ pid → x.2.hand q = none)

/-! ## The next number -/

section Numbers

variable {db : PolicyDb} {t : Uuid} {n : ℕ}

theorem mem_numbersFrom {m : ℕ} {v : ℤ} :
    v ∈ numbersFrom m n ↔ (m : ℤ) < v ∧ v ≤ m + n := by
  unfold numbersFrom
  rw [List.mem_map]
  constructor
  · rintro ⟨i, hi, rfl⟩
    have := List.mem_range.mp hi
    omega
  · rintro ⟨hlt, hle⟩
    exact ⟨(v - m - 1).toNat, List.mem_range.mpr (by omega), by omega⟩

theorem numbersFrom_succ (m n : ℕ) :
    numbersFrom m (n + 1) = numbersFrom m n ++ [(m : ℤ) + n + 1] := by
  simp [numbersFrom, List.range_succ]

/-- **The next number** after the versions `1`, …, `n`. -/
theorem nextVersion_of_perm (h : (db.versions t).Perm (numbersFrom 0 n)) :
    db.nextVersion t = n + 1 := by
  unfold PolicyDb.nextVersion
  cases n with
  | zero =>
    rw [List.Perm.eq_nil h]
    rfl
  | succ n =>
    have hmax : (db.versions t).max? = some ((n : ℤ) + 1) := by
      refine List.max?_eq_some_iff.mpr ⟨h.mem_iff.mpr (mem_numbersFrom.mpr (by omega)), ?_⟩
      intro v hv
      have := mem_numbersFrom.mp (h.mem_iff.mp hv)
      omega
    rw [hmax]
    simp

/-- The next number is not taken. -/
theorem find_next_of_perm (h : (db.versions t).Perm (numbersFrom 0 n)) :
    db.find t (n + 1) = none := by
  refine List.find?_eq_none.mpr (fun b hb hcond => ?_)
  obtain ⟨ht, hv⟩ := of_decide_eq_true hcond
  have hmem : b.version ∈ db.versions t :=
    List.mem_map.mpr ⟨b, List.mem_filter.mpr ⟨hb, decide_eq_true ht⟩, rfl⟩
  have := mem_numbersFrom.mp (h.mem_iff.mp hmem)
  omega

theorem versions_insert (row : PolicyBundle) (ht : row.tenantId = t) :
    (PolicyWrite.apply (.insert row) db).versions t = db.versions t ++ [row.version] := by
  show ((db.bundles ++ [row]).filter _).map _ = _
  rw [List.filter_append]
  simp [ht, PolicyDb.versions]

end Numbers

/-! ## What the calls keep -/

/-- **The invariant**: the versions are numbered without gaps, and a number that
is out is the next one. -/
structure NumberInv (t : Uuid) (m : ℕ) (x : NumberedPolicies) : Prop where
  owned : policyEngine.Owned x.1
  versions : (x.1.committed.versions t).Perm (numbersFrom 0 (m + x.2.created.length))
  created : x.2.created.map Prod.snd = numbersFrom m x.2.created.length
  once : (x.2.created.map Prod.fst).Nodup
  out : ∀ q v, x.2.hand q = some v →
    v = (m : ℤ) + x.2.created.length + 1 ∧ ∀ u, (q, u) ∉ x.2.created
  sole : ∀ q q', x.2.hand q ≠ none → x.2.hand q' ≠ none → q = q'

/-- **What a call relies on**: its number stays its own, and so does the version
it has created. -/
structure NumberKept (pid : ℕ) (x y : NumberedPolicies) : Prop where
  untouched : Engine.Untouched policyLook pid x.1 y.1
  hand : y.2.hand pid = x.2.hand pid
  created : ∀ v, (pid, v) ∈ y.2.created ↔ (pid, v) ∈ x.2.created

theorem NumberKept.refl (pid : ℕ) (x : NumberedPolicies) : NumberKept pid x x :=
  ⟨.refl pid x.1, rfl, fun _ => Iff.rfl⟩

theorem NumberKept.trans {pid : ℕ} {x y z : NumberedPolicies} (h : NumberKept pid x y)
    (h' : NumberKept pid y z) : NumberKept pid x z :=
  ⟨h.untouched.trans h'.untouched, h'.hand.trans h.hand, fun v => (h'.created v).trans
    (h.created v)⟩

section Steps

variable {t : Uuid} {m pid : ℕ} {x : NumberedPolicies} {s' : PolicyState}

/-- **A request that creates nothing.** The call may drop its number, or be told
the next one when no other is out. -/
theorem NumberInv.step_same (hx : NumberInv t m x) (hm : policyEngine.Moves pid x.1 s')
    (hc : s'.committed = x.1.committed) {hand : ℕ → Option ℤ}
    (hothers : ∀ q, q ≠ pid → hand q = x.2.hand q)
    (hself : hand pid = none ∨ hand pid = x.2.hand pid
      ∨ (hand pid = some ((m : ℤ) + x.2.created.length + 1) ∧ (∀ u, (pid, u) ∉ x.2.created)
        ∧ ∀ q, q ≠ pid → x.2.hand q = none)) :
    NumberInv t m (s', ⟨hand, x.2.created⟩)
      ∧ ∀ q, q ≠ pid → NumberKept q x (s', ⟨hand, x.2.created⟩) := by
  refine ⟨⟨policyEngine_lawful.owned_of_moves hx.owned hm, ?_, hx.created, hx.once, ?_, ?_⟩, ?_⟩
  · show (s'.committed.versions t).Perm _
    rw [hc]
    exact hx.versions
  · intro q v hq
    by_cases hqp : q = pid
    · rw [hqp] at hq ⊢
      rcases hself with hnone | hold | ⟨hnew, hfresh, -⟩
      · rw [show hand pid = some v from hq] at hnone
        cases hnone
      · exact hx.out pid v (hold.symm.trans hq)
      · exact ⟨Option.some.inj ((show hand pid = some v from hq).symm.trans hnew), hfresh⟩
    · exact hx.out q v ((hothers q hqp).symm.trans hq)
  · -- Two calls have a number: one of them is `pid`, and then no other had one.
    have hpid : ∀ q, q ≠ pid → hand q ≠ none → hand pid ≠ none → False := by
      intro q hqp hq hp
      rw [hothers q hqp] at hq
      rcases hself with hnone | hold | ⟨-, -, hfree⟩
      · exact hp hnone
      · exact hqp (hx.sole q pid hq (hold ▸ hp))
      · exact hq (hfree q hqp)
    intro q q' hq hq'
    by_cases hqp : q = pid
    · by_cases hqp' : q' = pid
      · rw [hqp, hqp']
      · exact (hpid q' hqp' hq' (hqp ▸ hq)).elim
    · by_cases hqp' : q' = pid
      · exact (hpid q hqp hq (hqp' ▸ hq')).elim
      · refine hx.sole q q' ?_ ?_
        · rw [← hothers q hqp]
          exact hq
        · rw [← hothers q' hqp']
          exact hq'
  · intro q hq
    exact ⟨policyEngine_lawful.untouched_of_other hq hx.owned hm, hothers q hq, fun _ => Iff.rfl⟩

/-- **The row is committed**: the number is used up. -/
theorem NumberInv.step_create (hx : NumberInv t m x) (hm : policyEngine.Moves pid x.1 s')
    {row : PolicyBundle} (ht : row.tenantId = t) (hhand : x.2.hand pid = some row.version)
    (hc : s'.committed = PolicyWrite.apply (.insert row) x.1.committed) :
    NumberInv t m (s', ⟨Function.update x.2.hand pid none, x.2.created ++ [(pid, row.version)]⟩)
      ∧ ∀ q, q ≠ pid → NumberKept q x
        (s', ⟨Function.update x.2.hand pid none, x.2.created ++ [(pid, row.version)]⟩) := by
  obtain ⟨hversion, hfresh⟩ := hx.out pid row.version hhand
  have hnone : ∀ q, Function.update x.2.hand pid none q = none := by
    intro q
    by_cases hqp : q = pid
    · rw [hqp, Function.update_self]
    · rw [Function.update_of_ne hqp]
      by_contra hq
      exact hqp (hx.sole q pid hq (by rw [hhand]; simp))
  refine ⟨⟨policyEngine_lawful.owned_of_moves hx.owned hm, ?_, ?_, ?_, ?_, ?_⟩, ?_⟩
  · show (s'.committed.versions t).Perm (numbersFrom 0 (m + (x.2.created ++ [_]).length))
    rw [hc, versions_insert row ht, List.length_append, List.length_singleton, ← Nat.add_assoc,
      numbersFrom_succ, hversion]
    simpa using hx.versions.append_right [(m : ℤ) + x.2.created.length + 1]
  · show (x.2.created ++ [(pid, row.version)]).map Prod.snd = numbersFrom m
      (x.2.created ++ [_]).length
    rw [List.map_append, List.length_append, List.length_singleton, numbersFrom_succ, hx.created,
      List.map_singleton, hversion]
  · show ((x.2.created ++ [(pid, row.version)]).map Prod.fst).Nodup
    rw [List.map_append, List.nodup_append]
    refine ⟨hx.once, by simp, ?_⟩
    intro a ha b hb hab
    obtain ⟨⟨q, u⟩, hmem, rfl⟩ := List.mem_map.mp ha
    rw [List.map_singleton, List.mem_singleton] at hb
    have hqp : q = pid := hab.trans hb
    exact hfresh u (hqp ▸ hmem)
  · intro q v hq
    have hq' : Function.update x.2.hand pid none q = some v := hq
    rw [hnone q] at hq'
    cases hq'
  · intro q q' hq
    exact absurd (hnone q) hq
  · intro q hq
    refine ⟨policyEngine_lawful.untouched_of_other hq hx.owned hm, Function.update_of_ne hq _ _, ?_⟩
    intro v
    simp [hq]

end Steps

/-! ## Rules for the programs -/

/-- A program of `pid` keeps the invariant, does not fail, and leaves this. -/
abbrev Numbers (t : Uuid) (m pid : ℕ) {α : Type} (p : PolicyProg α)
    (Φ : α → NumberedPolicies → Prop) (x : NumberedPolicies) : Prop :=
  p.Safe (Prog.Handled (policyEngine.watchedHandler numbering pid) (oneNumberOut t pid))
    (fun a b => NumberInv t m b ∧ NumberKept pid a b)
    (fun a b => NumberInv t m b ∧ ∀ q, q ≠ pid → NumberKept q a b)
    (Prog.outcome Φ (fun _ _ => False)) x

section Rules

variable {t : Uuid} {m pid : ℕ} {x : NumberedPolicies}

theorem not_failed {op : TxOp PolicyOp} (h : oneNumberOut t pid .fault op x) : False := by
  obtain ⟨⟨now, hnow⟩, -⟩ := h
  cases hnow

theorem not_lost {op : TxOp PolicyOp} (h : oneNumberOut t pid .lost op x) : False := by
  obtain ⟨⟨now, hnow⟩, -⟩ := h
  cases hnow

/-- **Transactions**: what the body leaves is committed. -/
theorem numbers_transaction {α : Type} {body : PolicyProg α} {Φ : α → NumberedPolicies → Prop}
    (hbody : ∀ y, NumberInv t m y → NumberKept pid x y → ∀ s', s'.pending pid = some [] →
      s'.committed = y.1.committed → NumberInv t m (s', y.2) →
      Numbers t m pid body (fun a z => ∀ z', NumberInv t m z' → NumberKept pid z z' →
        (NumberInv t m (policyEngine.publish z'.1 pid,
            numbering pid .commit (.ok ()) z'.1 (policyEngine.publish z'.1 pid) z'.2)
          ∧ ∀ q, q ≠ pid → NumberKept q z' (policyEngine.publish z'.1 pid,
            numbering pid .commit (.ok ()) z'.1 (policyEngine.publish z'.1 pid) z'.2))
        ∧ Φ a (policyEngine.publish z'.1 pid,
            numbering pid .commit (.ok ()) z'.1 (policyEngine.publish z'.1 pid) z'.2)) (s', y.2)) :
    Numbers t m pid (Engine.transaction body) Φ x := by
  refine Engine.watched_transaction ?_ ?_
  · intro y _ hfault
    exact (not_failed hfault).elim
  · rintro y ⟨hy, hr⟩
    have hopen : NumberInv t m (Engine.opened y.1 pid, y.2)
        ∧ ∀ q, q ≠ pid → NumberKept q y (Engine.opened y.1 pid, y.2) :=
      hy.step_same .begin rfl (fun _ _ => rfl) (.inr (.inl rfl))
    refine ⟨hopen, ?_⟩
    refine (hbody y hy hr (Engine.opened y.1 pid) (by simp [Engine.opened]) rfl hopen.1).mono ?_
    intro r z hz
    cases r with
    | error e => exact hz.elim
    | ok a =>
      rintro z' ⟨hz', hr'⟩
      refine ⟨hz z' hz' hr', fun hlost => (not_lost hlost).elim, fun hfault =>
        (not_failed hfault).elim⟩

/-- **The number**: it is the next one, and stays so while it is in hand. -/
theorem numbers_nextVersion (hfresh : ∀ u, (pid, u) ∉ x.2.created) :
    Numbers t m pid (PolicyBundleService.nextVersion t)
      (fun version y => y.2.hand pid = some version ∧ ∀ u, (pid, u) ∉ y.2.created) x := by
  refine numbers_transaction (fun y _ hr s' hin hc _ => ?_)
  have hfresh' : ∀ u, (pid, u) ∉ y.2.created := fun u hu => hfresh u ((hr.created u).mp hu)
  refine Prog.Safe.bind (Q := Prog.outcome (fun _ z => z.1.pending pid = some []
      ∧ ∀ u, (pid, u) ∉ z.2.created) (fun _ _ => False)) ?_ (fun _ z hz => ?_) (fun _ _ h => h)
  · refine Engine.watched_stmt (fun _ _ hfault => (not_failed hfault).elim) ?_
    rintro z now ⟨hz, hr'⟩ - hfree
    have hin' : z.1.pending pid = some [] := hr'.untouched.pending.trans hin
    refine ⟨hz.step_same (.perform now _ hfree) (Engine.committed_ran (by rw [hin']; rfl))
      (fun _ _ => rfl) (.inr (.inl rfl)), ?_, fun u hu => hfresh' u ((hr'.created u).mp hu)⟩
    exact Engine.pending_ran hin'
  · refine Engine.watched_stmt (fun _ _ hfault => (not_failed hfault).elim) ?_
    rintro z' now ⟨hz', hr'⟩ ⟨-, hfree⟩ hlocks
    have hin' : z'.1.pending pid = some [] := hr'.untouched.pending.trans hz.1
    have hview : policyEngine.view z'.1 pid = z'.1.committed := by simp [Engine.view, hin']
    have hnext : (policyEngine.view z'.1 pid).nextVersion t
        = (m : ℤ) + z'.2.created.length + 1 := by
      rw [hview, nextVersion_of_perm hz'.versions, Nat.cast_add]
    have hfresh'' : ∀ u, (pid, u) ∉ z'.2.created := fun u hu => hz.2 u ((hr'.created u).mp hu)
    refine ⟨hz'.step_same (.perform now _ hlocks) (Engine.committed_ran (by rw [hin']; rfl))
      (fun q hq => Function.update_of_ne hq _ _) (.inr (.inr ⟨?_, hfresh'', hfree rfl⟩)), ?_⟩
    · exact (Function.update_self pid _ _).trans (congrArg some hnext)
    -- The transaction commits nothing, and the number stays in hand.
    rintro w hw hr''
    have hpending : w.1.pending pid = some [] :=
      hr''.untouched.pending.trans (Engine.pending_ran hin')
    have hnote : numbering pid .commit (.ok ()) w.1 (policyEngine.publish w.1 pid) w.2 = w.2 := by
      simp [numbering, hpending]
    rw [hnote]
    refine ⟨hw.step_same .publish ?_ (fun _ _ => rfl) (.inr (.inl rfl)), ?_, ?_⟩
    · show policyEngine.view w.1 pid = w.1.committed
      simp [Engine.view, hpending]
    · refine hr''.hand.trans ?_
      exact Function.update_self pid _ _
    · exact fun u hu => hfresh'' u ((hr''.created u).mp hu)

/-- **The row** takes the number in hand. -/
theorem numbers_insert (S : PolicyBundleService) (rules : GovernanceRules) (actor : String) {v : ℤ}
    (hhand : x.2.hand pid = some v) :
    Numbers t m pid (Engine.transaction (policy (.insertBundle (S.draft t rules actor v))))
      (fun row y => row = S.draft t rules actor v ∧ (pid, v) ∈ y.2.created) x := by
  refine numbers_transaction (fun y _ hr s' hin hc _ => ?_)
  refine Engine.watched_stmt (fun _ _ hfault => (not_failed hfault).elim) ?_
  rintro z now ⟨hz, hr'⟩ - hfree
  have hin' : z.1.pending pid = some [] := hr'.untouched.pending.trans hin
  have hview : policyEngine.view z.1 pid = z.1.committed := by simp [Engine.view, hin']
  have hhand' : z.2.hand pid = some v := hr'.hand.trans (hr.hand.trans hhand)
  obtain ⟨hnext, -⟩ := hz.out pid v hhand'
  have hexec : PolicyOp.exec now (.insertBundle (S.draft t rules actor v))
      (policyEngine.view z.1 pid)
      = (.ok (S.draft t rules actor v), [.insert (S.draft t rules actor v)]) := by
    have hfind : z.1.committed.find t v = none := by
      have h := find_next_of_perm hz.versions
      rwa [Nat.cast_add, ← hnext] at h
    rw [hview]
    refine if_neg ?_
    rintro (hlow | hdup)
    · have : (S.draft t rules actor v).version = v := rfl
      omega
    · rw [show z.1.committed.find (S.draft t rules actor v).tenantId
        (S.draft t rules actor v).version = none from hfind] at hdup
      cases hdup
  have hanswer : policyEngine.answer pid now (.insertBundle (S.draft t rules actor v)) z.1
      = .ok (S.draft t rules actor v) := congrArg Prod.fst hexec
  rw [hanswer]
  refine ⟨hz.step_same (.perform now _ hfree) (Engine.committed_ran (by rw [hin']; rfl))
    (fun _ _ => rfl) (.inr (.inl rfl)), ?_⟩
  rintro w hw hr''
  have hpending : w.1.pending pid = some [.insert (S.draft t rules actor v)] := by
    refine hr''.untouched.pending.trans ((Engine.pending_ran hin').trans ?_)
    exact congrArg some (congrArg Prod.snd hexec)
  have hnote : numbering pid .commit (.ok ()) w.1 (policyEngine.publish w.1 pid) w.2
      = ⟨Function.update w.2.hand pid none, w.2.created ++ [(pid, v)]⟩ := by
    simp only [numbering, hpending]
    rfl
  have hnumber : w.2.hand pid = some (S.draft t rules actor v).version := hr''.hand.trans hhand'
  rw [hnote]
  refine ⟨hw.step_create .publish rfl hnumber ?_, rfl, by simp⟩
  show policyEngine.view w.1 pid = _
  simp [Engine.view, hpending]
  rfl

/-- **`create_version` creates a version**, and does not fail. -/
theorem numbers_createVersion (S : PolicyBundleService) (rules : GovernanceRules) (actor : String)
    (hfresh : ∀ u, (pid, u) ∉ x.2.created) :
    Numbers t m pid (S.createVersion t rules actor)
      (fun row y => ∃ v, row = S.draft t rules actor v ∧ (pid, v) ∈ y.2.created) x := by
  refine Prog.Safe.bind (numbers_nextVersion hfresh) (fun v y hy => ?_) (fun _ _ h => h)
  refine (numbers_insert S rules actor hy.1).mono (fun r z hz => ?_)
  cases r with
  | ok row => exact ⟨v, hz⟩
  | error e => exact hz

end Rules

/-! ## Every run -/

/-- The discipline of the calls. -/
def numberDiscipline (S : PolicyBundleService) (t : Uuid) (m : ℕ) :
    Pool.Discipline (creationPool S t) (numberedStart t m) (fun _ _ => True) (oneNumberOut t)
      (fun _ _ => True) where
  inv := NumberInv t m
  unused pid x := Engine.Unused pid x.1 ∧ x.2.hand pid = none ∧ ∀ u, (pid, u) ∉ x.2.created
  rely := NumberKept
  post pid call := Prog.outcome
    (fun row x => ∃ v, row = S.draft t call.1 call.2 v ∧ (pid, v) ∈ x.2.created) (fun _ _ => False)
  rely_refl := NumberKept.refl
  rely_trans _ _ _ _ := NumberKept.trans
  unused_rely _ _ _ h hr :=
    ⟨h.1.untouched hr.untouched, hr.hand.trans h.2.1, fun u hu => h.2.2 u ((hr.created u).mp hu)⟩
  start_ok x hx := by
    obtain ⟨db, hperm, rfl⟩ := hx
    refine ⟨⟨fun q ws hq => absurd hq (by simp [Engine.quiet]), ?_, rfl, List.nodup_nil, ?_,
      ?_⟩, ?_⟩
    · exact hperm
    · intro q v hq
      cases hq
    · intro q q' hq
      exact absurd rfl hq
    · intro pid
      exact ⟨⟨rfl, fun k hk => absurd hk (by simp [Engine.quiet]),
        fun c hc => absurd hc (by simp [Engine.quiet])⟩, rfl,
          fun u hu => absurd hu List.not_mem_nil⟩
  safe_body pid x call _ _ hunused := numbers_createVersion S call.1 call.2 hunused.2.2
  safe_crash pid x hx :=
    hx.step_same .close rfl (fun q hq => Function.update_of_ne hq _ _)
      (.inl (Function.update_self pid _ _))
  safe_env e := e.elim

/-- A state of the calls of `create_version`. -/
abbrev Creations := Pool.State (TxOp PolicyOp) (TxRes PolicyRes) PyException NumberedPolicies
  (GovernanceRules × String) PolicyBundle

/-- A call has returned the draft of a version. -/
def ReturnsDraft (S : PolicyBundleService) (t : Uuid)
    (x : Pool.Reply PyException NumberedPolicies (GovernanceRules × String) PolicyBundle) (v : ℤ) :
    Prop :=
  x.outcome = .ok (S.draft t x.call.1 x.call.2 v)

section Runs

variable {S : PolicyBundleService} {t : Uuid} {m : ℕ} {w : Creations}

/-- A reply reports the version its call has created. -/
theorem reply_created (h : (creationMachine S t m).Reach
      (Pool.stepOk (fun _ _ => True) (oneNumberOut t) (fun _ _ => True)) w) :
    ∀ x ∈ w.replies, ∃ v, ReturnsDraft S t x v ∧ (x.pid, v) ∈ w.shared.2.created := by
  intro x hx
  have hpost := (Pool.reach_safe (numberDiscipline S t m) h).replies x hx
  have hkept := (numberDiscipline S t m).reply_rely h x hx
  unfold ReturnsDraft
  cases hout : x.outcome with
  | error e =>
    rw [hout] at hpost
    exact hpost.elim
  | ok row =>
    rw [hout] at hpost
    obtain ⟨v, hrow, hv⟩ := hpost
    exact ⟨v, by rw [hrow], (hkept.created v).mpr hv⟩

/-- Every version was created by a call that has arrived, each by another one. -/
theorem created_length_le (h : (creationMachine S t m).Reach
      (Pool.stepOk (fun _ _ => True) (oneNumberOut t) (fun _ _ => True)) w) :
    w.shared.2.created.length ≤ w.spawned := by
  have hgood := Pool.reach_safe (numberDiscipline S t m) h
  have hsub : w.shared.2.created.map Prod.fst ⊆ List.range w.spawned := by
    intro q hq
    obtain ⟨⟨q, v⟩, hmem, rfl⟩ := List.mem_map.mp hq
    rw [List.mem_range]
    by_contra hlt
    exact (hgood.unused q (Nat.le_of_not_lt hlt)).2.2 v hmem
  have hle := (List.subperm_of_subset hgood.inv.once hsub).length_le
  rwa [List.length_map, List.length_range] at hle

/-- **When all calls have answered, they have returned what was created.** -/
theorem returned_created (h : (creationMachine S t m).Reach
      (Pool.stepOk (fun _ _ => True) (oneNumberOut t) (fun _ _ => True)) w)
    (hall : w.replies.length = w.spawned) :
    ∃ vs : List ℤ, vs.Perm (w.shared.2.created.map Prod.snd)
      ∧ List.Forall₂ (ReturnsDraft S t) w.replies vs ∧ w.shared.2.created.length = w.spawned := by
  obtain ⟨vs, hvs⟩ := exists_forall₂ (reply_created h)
  have hlen : w.replies.length = vs.length := hvs.length_eq
  -- Who has returned which version, and what was created, agree as lists of pairs.
  have hsub : (w.replies.map Pool.Reply.pid).zip vs ⊆ w.shared.2.created := by
    rintro ⟨q, v⟩ hmem
    rw [List.zip_map_left] at hmem
    obtain ⟨⟨x, v'⟩, hpair, heq⟩ := List.mem_map.mp hmem
    obtain ⟨rfl, rfl⟩ := Prod.mk.inj heq
    exact ((List.forall₂_iff_zip.mp hvs).2 hpair).2
  have hpids : ((w.replies.map Pool.Reply.pid).zip vs).map Prod.fst
      = w.replies.map Pool.Reply.pid := by
    rw [List.map_fst_zip]
    simp [hlen]
  have hnodup : ((w.replies.map Pool.Reply.pid).zip vs).Nodup := by
    refine List.Nodup.of_map Prod.fst ?_
    rw [hpids]
    exact (Pool.reach_orderly h).once
  have hzip : ((w.replies.map Pool.Reply.pid).zip vs).length = w.spawned := by
    simp [← hlen, hall]
  have hperm : ((w.replies.map Pool.Reply.pid).zip vs).Perm w.shared.2.created := by
    refine (List.subperm_of_subset hnodup hsub).perm_of_length_le ?_
    rw [hzip]
    exact created_length_le h
  refine ⟨vs, ?_, hvs.imp (fun _ _ h => h.1), hperm.length_eq.symm.trans hzip⟩
  have hsnd := hperm.map Prod.snd
  rwa [List.map_snd_zip] at hsnd
  simp [hlen]
where
  exists_forall₂ {α β : Type} {P : α → β → Prop} {l : List α} (h : ∀ a ∈ l, ∃ b, P a b) :
      ∃ l', List.Forall₂ P l l' := by
    induction l with
    | nil => exact ⟨[], .nil⟩
    | cons a l ih =>
      obtain ⟨b, hb⟩ := h a List.mem_cons_self
      obtain ⟨l', hl'⟩ := ih (fun a' ha' => h a' (List.mem_cons_of_mem a ha'))
      exact ⟨b :: l', .cons hb hl'⟩

end Runs

/-! ## Two calls with one number -/

/-- A table without versions, and no number out. -/
def noVersions : Creations := Pool.idle (Engine.quiet ⟨[]⟩ (), ⟨fun _ => none, []⟩)

theorem noVersions_init : (creationMachine samplePolicies 7 0).init noVersions :=
  ⟨_, ⟨⟨[]⟩, List.Perm.refl _, rfl⟩, rfl⟩

/-- Both calls ask for a number before either has inserted its row. -/
def sharedNumberRun : List (Pool.Label (Choice Timestamp) (GovernanceRules × String) Empty) :=
  [Pool.Label.spawn (({} : GovernanceRules), "ops"),
    Pool.Label.spawn (({} : GovernanceRules), "sec")]
    ++ List.replicate 4 (Pool.Label.act 0 (Choice.serve 5))
    ++ List.replicate 4 (Pool.Label.act 1 (Choice.serve 5))
    ++ List.replicate 3 (Pool.Label.act 0 (Choice.serve 6))
    ++ List.replicate 3 (Pool.Label.act 1 (Choice.serve 6))

/-- A test for the condition on numbers, among the calls that have arrived. -/
def oneNumberOutTest (w : Creations) :
    Pool.Label (Choice Timestamp) (GovernanceRules × String) Empty → Bool
  | .act pid (.serve _) =>
    match w.threads pid with
    | some (_, .call (.run (.nextVersion _)) _) =>
      (List.range w.spawned).all (fun q => q = pid || w.shared.2.hand q = none)
    | _ => true
  | .act _ _ => false
  | _ => true

/-- What passes the test meets the condition: a call that has not arrived has no
number. -/
theorem oneNumberOut_of_test {S : PolicyBundleService} {t : Uuid} {m : ℕ} {w : Creations}
    {l : Pool.Label (Choice Timestamp) (GovernanceRules × String) Empty}
    (hw : (creationMachine S t m).Reach
      (Pool.stepOk (fun _ _ => True) (oneNumberOut t) (fun _ _ => True)) w)
    (h : oneNumberOutTest w l = true) :
    Pool.stepOk (fun _ _ => True) (oneNumberOut t) (fun _ _ => True) w l := by
  cases l with
  | act pid c =>
    cases c with
    | serve now =>
      intro call op k hth
      refine ⟨⟨now, rfl⟩, ?_⟩
      rintro rfl q hq
      simp only [oneNumberOutTest, hth] at h
      by_cases hlt : q < w.spawned
      · have htest := List.all_eq_true.mp h q (List.mem_range.mpr hlt)
        simpa [hq] using htest
      · exact ((Pool.reach_safe (numberDiscipline S t m) hw).unused q (Nat.le_of_not_lt hlt)).2.1
    | _ => cases h
  | _ => trivial
