import AgentPlatform.Transaction

/-!
# Rows kept in order by their locks

Much of what a database keeps is a condition on each row by itself, or on a
few rows behind one lock: `Ok k` says what the row behind the key `k` must look
like. A transaction may break it for the rows it holds, as long as it has
mended it when it commits.

`Engine.Sees` is what a transaction knows in between: a condition on every row
it sees, which for the rows it does not hold must follow from `Ok`. It is not
disturbed by what others do (`Sees.keep`), and a statement turns it into a
condition on the rows it leaves (`keeps_stmt`). A transaction that ends seeing
every row in order may commit (`keeps_transaction`). With these two rules for
every program of a pool, `rowDiscipline` gives the rely-guarantee rule, and
every reachable database has all its rows in order.
-/

namespace Engine

variable {Op : Type} {Res : Op → Type} {E A Db W K X : Type} [DecidableEq K]
variable (N : Engine Op Res E A Db W K X) {Row : K → Type} (look : (k : K) → Db → Row k)
variable (Ok : (k : K) → Row k → Prop)

/-- **Every committed row is in order**, and pending writes are covered by
locks. -/
structure Ordered (s : TxState Db W K X) : Prop where
  owned : N.Owned s
  rows : ∀ k, Ok k (look k s.committed)

/-- **What a transaction of `pid` sees**: every row satisfies `P`, and a row it
does not hold because it is in order. -/
structure Sees (P : (k : K) → Row k → Prop) (pid : ℕ) (s : TxState Db W K X) : Prop where
  inTx : (s.pending pid).isSome
  row : ∀ k, P k (look k (N.view s pid))
  cover : ∀ k, s.holder k = some pid ∨ ∀ r, Ok k r → P k r

/-- A program of `pid` keeps the rows in order and meets a postcondition. -/
abbrev KeepsRows (allow : Choice A → TxOp Op → TxState Db W K X → Prop) (pid : ℕ) {α : Type}
    (p : Prog (TxOp Op) (TxRes Res) E α) (Q : Except E α → TxState Db W K X → Prop)
    (s : TxState Db W K X) : Prop :=
  p.Safe (Prog.Handled (N.handler pid) allow)
    (fun a b => N.Ordered look Ok b ∧ Untouched look pid a b)
    (fun a b => N.Ordered look Ok b ∧ ∀ q, q ≠ pid → Untouched look q a b) Q s

/-- **Any number of calls over one database.** A crash rolls the transaction of
the call back. -/
def pool {Call R : Type} (body : Call → Prog (TxOp Op) (TxRes Res) E R) :
    Pool (TxOp Op) (TxRes Res) E (Choice A) (TxState Db W K X) Call R Empty where
  handler := N.handler
  body := body
  abandon := fun pid s => close s pid
  env := fun e _ => e.elim

/-- **A step of the pool is a move of one of its calls.** -/
theorem moves_of_step {Call R : Type} {body : Call → Prog (TxOp Op) (TxRes Res) E R}
    {w w' : Pool.State (TxOp Op) (TxRes Res) E (TxState Db W K X) Call R}
    {l : Pool.Label (Choice A) Call Empty} (h : (N.pool body).step w l = some w') :
    ∃ pid, N.Moves pid w.shared w'.shared := by
  cases l with
  | spawn call =>
    obtain rfl := Option.some.inj h
    rw [Pool.land_shared]
    exact ⟨w.spawned, .stay⟩
  | act pid c =>
    simp only [Pool.step] at h
    split at h
    · obtain ⟨⟨r, s'⟩, hserved, rfl⟩ := Option.map_eq_some_iff.mp h
      rw [Pool.land_shared]
      exact ⟨pid, N.moves_of_handler hserved⟩
    · cases h
  | crash pid =>
    simp only [Pool.step] at h
    split at h
    · cases h
    · obtain rfl := Option.some.inj h
      exact ⟨pid, .close⟩
  | env e => exact e.elim

variable {N look Ok} {allow : Choice A → TxOp Op → TxState Db W K X → Prop}
  {P : (k : K) → Row k → Prop} {pid : ℕ} {s s' : TxState Db W K X}

/-! ## What a transaction sees -/

omit [DecidableEq K] in
/-- A row that is not held is seen as it is committed. -/
theorem Ordered.row_of_not_held (hN : N.Lawful look) (h : N.Ordered look Ok s) {k : K}
    (hk : s.holder k ≠ some pid) : Ok k (look k (N.view s pid)) := by
  rw [hN.look_view_of_not_held h.owned hk]
  exact h.rows k

omit [DecidableEq K] in
/-- **What a transaction sees is not disturbed by others.** -/
theorem Sees.keep (hN : N.Lawful look) (h : N.Sees look Ok P pid s)
    (ho : N.Ordered look Ok s') (hu : Untouched look pid s s') : N.Sees look Ok P pid s' := by
  refine ⟨by rw [hu.pending]; exact h.inTx, fun k => ?_, fun k => ?_⟩
  · by_cases hk : s.holder k = some pid
    · rw [hN.look_view_of_held hu hk]
      exact h.row k
    · exact (h.cover k).resolve_left hk _
        (ho.row_of_not_held hN (fun hk' => hk ((hu.held k).mp hk')))
  · exact (h.cover k).imp_left (hu.held k).mpr

omit [DecidableEq K] in
/-- A new transaction sees every row in order. -/
theorem Ordered.sees_opened (h : N.Ordered look Ok s) : N.Sees look Ok Ok pid (opened s pid) := by
  refine ⟨by simp [opened], fun k => ?_, fun k => .inr (fun _ hr => hr)⟩
  simpa [view, opened] using h.rows k

omit [DecidableEq K] in
/-! ## Statements -/

theorem pending_ran {a : A} {op : Op} {ws : List W} (hin : s.pending pid = some ws) :
    (N.ran pid a op s).pending pid
      = some (ws ++ (N.exec a op (free s pid) (N.view s pid) s.ext).2.1) := by
  simp [ran, perform, hin]

theorem committed_ran {a : A} {op : Op} (hin : (s.pending pid).isSome) :
    (N.ran pid a op s).committed = s.committed := by
  obtain ⟨ws, hws⟩ := Option.isSome_iff_exists.mp hin
  simp [ran, perform, hws]

theorem ext_ran {a : A} {op : Op} :
    (N.ran pid a op s).ext = (N.exec a op (free s pid) (N.view s pid) s.ext).2.2 := by
  unfold ran perform
  split <;> rfl

/-- A statement in a transaction shows its writes. -/
theorem view_ran {a : A} {op : Op} (hin : (s.pending pid).isSome) :
    N.view (N.ran pid a op s) pid
      = N.applyAll (N.exec a op (free s pid) (N.view s pid) s.ext).2.1 (N.view s pid) := by
  obtain ⟨ws, hws⟩ := Option.isSome_iff_exists.mp hin
  exact N.view_perform hws _ _ _

/-- A statement in a transaction keeps the locks it had and takes its own. -/
theorem holder_ran {a : A} {op : Op} (hin : (s.pending pid).isSome) (k : K) :
    (N.ran pid a op s).holder k
      = if k ∈ N.locks op (free s pid) (N.view s pid) s.ext then some pid else s.holder k := by
  obtain ⟨ws, hws⟩ := Option.isSome_iff_exists.mp hin
  simp [ran, perform, hws]

theorem Ordered.ran (hN : N.Lawful look) (h : N.Ordered look Ok s) {a : A} {op : Op}
    (hin : (s.pending pid).isSome)
    (hfree : (N.locks op (free s pid) (N.view s pid) s.ext).all (free s pid) = true) :
    N.Ordered look Ok (N.ran pid a op s) := by
  refine ⟨hN.owned_of_moves h.owned (.perform a op hfree), fun k => ?_⟩
  rw [committed_ran hin]
  exact h.rows k

/-- What a statement makes of what its transaction sees. -/
theorem Sees.ran {a : A} {op : Op} {P' : (k : K) → Row k → Prop} (h : N.Sees look Ok P pid s)
    (hrow : ∀ k, P' k (look k (N.applyAll
      (N.exec a op (free s pid) (N.view s pid) s.ext).2.1 (N.view s pid))))
    (hcover : ∀ k, (k ∈ N.locks op (free s pid) (N.view s pid) s.ext ∨ s.holder k = some pid)
      ∨ ∀ r, Ok k r → P' k r) : N.Sees look Ok P' pid (N.ran pid a op s) := by
  obtain ⟨ws, hws⟩ := Option.isSome_iff_exists.mp h.inTx
  refine ⟨by rw [pending_ran hws]; rfl, fun k => ?_, fun k => ?_⟩
  · rw [view_ran h.inTx]
    exact hrow k
  · rw [holder_ran h.inTx k]
    rcases hcover k with (hk | hk) | hk
    · exact .inl (by rw [if_pos hk])
    · refine .inl ?_
      split
      · rfl
      · exact hk
    · exact .inr hk

/-- **Statement rule.** -/
theorem keeps_stmt (hN : N.Lawful look) {op : Op}
    {Q : Except E (Res op) → TxState Db W K X → Prop} (hs : N.Sees look Ok P pid s)
    (hfault : ∀ s₁, N.Ordered look Ok s₁ → Untouched look pid s s₁ → N.Sees look Ok P pid s₁ →
      Q (.error N.dbError) s₁)
    (hserve : ∀ s₁ a, N.Ordered look Ok s₁ → Untouched look pid s s₁ → N.Sees look Ok P pid s₁ →
      allow (.serve a) (.run op) s₁ →
      Q (N.answer pid a op s₁) (N.ran pid a op s₁)) :
    N.KeepsRows look Ok allow pid (stmt op) Q s := by
  refine safe_stmt ?_ ?_
  · rintro s₁ ⟨ho, hu⟩ -
    exact ⟨⟨ho, fun q _ => .refl q s₁⟩, hfault s₁ ho hu (hs.keep hN ho hu)⟩
  · rintro s₁ a ⟨ho, hu⟩ hallow hfree
    have hs₁ := hs.keep hN ho hu
    exact ⟨⟨ho.ran hN hs₁.inTx hfree,
      fun q hq => hN.untouched_of_other hq ho.owned (.perform a op hfree)⟩,
      hserve s₁ a ho hu hs₁ hallow⟩

/-- **Statement rule, by rows**: what the statement makes of the rows it sees,
and that it only changes what is known of the rows it locks. -/
theorem keeps_rows (hN : N.Lawful look) {op : Op} {P' : Res op → (k : K) → Row k → Prop}
    (hs : N.Sees look Ok P pid s)
    (h : ∀ a fr db x r, (∀ k, P k (look k db)) → (N.exec a op fr db x).1 = .ok r →
      (∀ k, P' r k (look k (N.applyAll (N.exec a op fr db x).2.1 db)))
        ∧ ∀ k, k ∈ N.locks op fr db x ∨ ∀ row, P k row → P' r k row) :
    N.KeepsRows look Ok allow pid (stmt op)
      (Prog.outcome (fun r => N.Sees look Ok (P' r) pid) (fun _ _ => True)) s := by
  refine keeps_stmt hN hs (fun _ _ _ _ => trivial) (fun s₁ a ho hu hs₁ _ => ?_)
  cases hr : N.answer pid a op s₁ with
  | error e => trivial
  | ok r =>
    obtain ⟨hrow, hcover⟩ := h a (free s₁ pid) (N.view s₁ pid) s₁.ext r hs₁.row hr
    refine hs₁.ran hrow (fun k => ?_)
    rcases hcover k with hk | hk
    · exact .inl (.inl hk)
    · rcases hs₁.cover k with hheld | hok
      · exact .inl (.inr hheld)
      · exact .inr (fun row hrow => hk row (hok row hrow))

/-! ## Transactions -/

/-- What must hold when the body of a transaction ends: before a commit the
rows are in order, and whatever the commit or the rollback does leads to the
postcondition. -/
def Closing {α : Type} (N : Engine Op Res E A Db W K X) (look : (k : K) → Db → Row k)
    (Ok : (k : K) → Row k → Prop) (allow : Choice A → TxOp Op → TxState Db W K X → Prop)
    (pid : ℕ) (Q : Except E α → TxState Db W K X → Prop) :
    Except E α → TxState Db W K X → Prop
  | .ok a, s => ∀ s₁, N.Ordered look Ok s₁ → Untouched look pid s s₁ →
      (∀ k, Ok k (look k (N.view s₁ pid))) ∧ Q (.ok a) (N.publish s₁ pid)
        ∧ (allow .lost .commit s₁ → Q (.error N.dbError) (N.publish s₁ pid))
        ∧ (allow .fault .commit s₁ → Q (.error N.dbError) (close s₁ pid))
  | .error e, s => ∀ s₁, N.Ordered look Ok s₁ → Untouched look pid s s₁ →
      Q (.error e) (close s₁ pid)

theorem Ordered.close (hN : N.Lawful look) (h : N.Ordered look Ok s) (pid : ℕ) :
    N.Ordered look Ok (Engine.close s pid) :=
  ⟨hN.owned_of_moves h.owned .close, h.rows⟩

theorem Ordered.publish (hN : N.Lawful look) (h : N.Ordered look Ok s)
    (hrows : ∀ k, Ok k (look k (N.view s pid))) : N.Ordered look Ok (N.publish s pid) :=
  ⟨hN.owned_of_moves h.owned .publish, hrows⟩

/-- **Transaction rule.** -/
theorem keeps_transaction (hN : N.Lawful look) {α : Type}
    {body : Prog (TxOp Op) (TxRes Res) E α} {Q : Except E α → TxState Db W K X → Prop}
    (hfault : ∀ s₁, N.Ordered look Ok s₁ → Untouched look pid s s₁ → Q (.error N.dbError) s₁)
    (hbody : ∀ s₁, N.Ordered look Ok s₁ → Untouched look pid s s₁ →
      N.KeepsRows look Ok allow pid body (N.Closing look Ok allow pid Q) (opened s₁ pid)) :
    N.KeepsRows look Ok allow pid (transaction body) Q s := by
  refine safe_transaction ?_ ?_
  · rintro s₁ ⟨ho, hu⟩ -
    exact ⟨⟨ho, fun q _ => .refl q s₁⟩, hfault s₁ ho hu⟩
  · rintro s₁ ⟨ho, hu⟩
    refine ⟨⟨⟨hN.owned_of_moves ho.owned .begin, ho.rows⟩,
      fun q hq => hN.untouched_of_other hq ho.owned .begin⟩, ?_⟩
    refine Prog.Safe.mono (hbody s₁ ho hu) (fun r s₂ hend => ?_)
    cases r with
    | ok a =>
      rintro s₃ ⟨ho₃, hu₃⟩
      obtain ⟨hrows, hok, hlost, hfail⟩ := hend s₃ ho₃ hu₃
      have hpublish : N.Ordered look Ok (N.publish s₃ pid)
          ∧ ∀ q, q ≠ pid → Untouched look q s₃ (N.publish s₃ pid) :=
        ⟨ho₃.publish hN hrows, fun q hq => hN.untouched_of_other hq ho₃.owned .publish⟩
      refine ⟨⟨hpublish, hok, hlost⟩, fun hallow => ⟨⟨ho₃.close hN pid, ?_⟩, hfail hallow⟩⟩
      exact fun q hq => hN.untouched_of_other hq ho₃.owned .close
    | error e =>
      rintro s₃ ⟨ho₃, hu₃⟩
      exact ⟨⟨ho₃.close hN pid, fun q hq => hN.untouched_of_other hq ho₃.owned .close⟩,
        hend s₃ ho₃ hu₃⟩

/-- **Transaction rule, by rows**: a body that mends every row it breaks may
commit. -/
theorem keeps_transaction_rows (hN : N.Lawful look) {α : Type}
    {body : Prog (TxOp Op) (TxRes Res) E α}
    (hbody : ∀ s, N.Sees look Ok Ok pid s → N.KeepsRows look Ok allow pid body
      (Prog.outcome (fun _ => N.Sees look Ok Ok pid) (fun _ _ => True)) s) :
    N.KeepsRows look Ok allow pid (transaction body) (fun _ _ => True) s := by
  refine keeps_transaction hN (fun _ _ _ => trivial) (fun s₁ ho _ => ?_)
  refine Prog.Safe.mono (hbody _ ho.sees_opened) (fun r s₂ hr => ?_)
  cases r with
  | ok a =>
    intro s₃ ho₃ hu₃
    exact ⟨(hr.keep hN ho₃ hu₃).row, trivial, fun _ => trivial, fun _ => trivial⟩
  | error e => exact fun _ _ _ => trivial

/-! ## Calls -/

/-- **The rely-guarantee rule for rows behind locks.** -/
def rowDiscipline {Call R : Type} {body : Call → Prog (TxOp Op) (TxRes Res) E R}
    {start : TxState Db W K X → Prop} {accept : TxState Db W K X → Call → Prop}
    {allow : ℕ → Choice A → TxOp Op → TxState Db W K X → Prop}
    (hN : N.Lawful look) (post : ℕ → Call → Except E R → TxState Db W K X → Prop)
    (hstart : ∀ s, start s → ∃ db x, s = quiet db x ∧ ∀ k, Ok k (look k db))
    (hbody : ∀ pid s call, accept s call → N.Ordered look Ok s → Unused pid s →
      N.KeepsRows look Ok (allow pid) pid (body call) (post pid call) s) :
    Pool.Discipline (N.pool body) start accept allow (fun _ _ => True) where
  inv := N.Ordered look Ok
  unused := Unused
  rely := Untouched look
  post := post
  rely_refl := Untouched.refl
  rely_trans := fun _ _ _ _ => Untouched.trans
  unused_rely := fun _ _ _ => Unused.untouched
  start_ok s hs := by
    obtain ⟨db, x, rfl, hrows⟩ := hstart s hs
    refine ⟨⟨fun q ws hq => absurd hq (by simp [quiet]), hrows⟩, fun pid => ?_⟩
    exact ⟨rfl, fun k hk => absurd hk (by simp [quiet]), fun c hc => absurd hc (by simp [quiet])⟩
  safe_body := hbody
  safe_crash pid s hs :=
    ⟨hs.close hN pid, fun q hq => hN.untouched_of_other hq hs.owned .close⟩
  safe_env e := e.elim

end Engine
