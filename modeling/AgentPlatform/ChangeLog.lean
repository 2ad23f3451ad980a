import Mathlib.Data.List.Induction
import AgentPlatform.CommitHistory

/-!
# Commits that are changes

What a database component does over time is best said commit by commit: `Change`
says what one commit may make of the database, and every invariant is then a
matter of induction over the log. A transaction has to show it once, when it
commits – for the database as it is *then*, which others may have changed since
the transaction looked at it.

Two things bridge that gap. The rows a transaction holds have not changed
(`Untouched`); and of everything else it is known that others kept to `Kept`, which
is what a step of a transaction owes to each other one. `Also` is for what holds
between the database and the external state.
-/

namespace Engine

variable {Op : Type} {Res : Op → Type} {E A Db W K X : Type} [DecidableEq K]
variable (N : Engine Op Res E A Db W K X) {Row : K → Type} (look : (k : K) → Db → Row k)

/-- **What the commits of a component are**: where they start, what one may change, what
they keep true with the external state, and what a transaction may count on. -/
structure Regime (Db W K X : Type) where
  start : Db → Prop
  change : Db → Db → Prop
  also : TxState Db W K X → Prop
  kept : ℕ → TxState Db W K X → TxState Db W K X → Prop

variable (G : Regime Db W K X)

/-- **Every commit so far is a change**: the log leads from a first database to what
is committed, and pending writes are covered by locks. -/
structure Recorded (s : TxState Db W K X) : Prop where
  owned : N.Owned s
  leads : ∃ db₀, G.start db₀ ∧ CommitsLead db₀ s.log s.committed
  change : ∀ c ∈ s.log, G.change c.before c.after
  also : G.also s

/-- **What a transaction may count on**: nobody touches what it holds, and others keep
to what is agreed. -/
structure Stands (pid : ℕ) (s s' : TxState Db W K X) : Prop where
  untouched : Untouched look pid s s'
  kept : G.kept pid s s'

/-- **The agreement is steady**: it is a preorder on what a transaction sees, and nobody
breaks it without a commit or an external effect. -/
structure Regime.Steady : Prop where
  lawful : N.Lawful look
  refl : ∀ pid s, G.kept pid s s
  trans : ∀ pid a b c, Stands look G pid a b → Stands look G pid b c → G.kept pid a c
  still : ∀ pid q s s', q ≠ pid → N.Recorded G s → N.Moves pid s s' →
    s'.committed = s.committed → s'.ext = s.ext → G.kept q s s'
  also : ∀ s s', G.also s → s'.committed = s.committed → s'.ext = s.ext → G.also s'

/-- **The agreement is sound**: it is steady, and no change breaks it. -/
structure Regime.Sound : Prop extends Regime.Steady N look G where
  commit : ∀ pid q s, q ≠ pid → N.Recorded G s → G.change s.committed (N.view s pid) →
    G.kept q s (N.publish s pid)

/-- A program of `pid` commits changes only, and meets a postcondition. -/
abbrev Records (allow : Choice A → TxOp Op → TxState Db W K X → Prop) (pid : ℕ) {α : Type}
    (p : Prog (TxOp Op) (TxRes Res) E α) (Q : Except E α → TxState Db W K X → Prop)
    (s : TxState Db W K X) : Prop :=
  p.Safe (Prog.Handled (N.handler pid) allow)
    (fun a b => N.Recorded G b ∧ Stands look G pid a b)
    (fun a b => N.Recorded G b ∧ ∀ q, q ≠ pid → Stands look G q a b) Q s

/-- The transaction of `pid` may commit, whatever happens first, without breaking what the
others count on. -/
def MayPublish (pid : ℕ) (s : TxState Db W K X) : Prop :=
  ∀ s₁, N.Recorded G s₁ → Stands look G pid s s₁ →
    G.change s₁.committed (N.view s₁ pid) ∧ G.also (N.publish s₁ pid)
      ∧ ∀ q, q ≠ pid → G.kept q s₁ (N.publish s₁ pid)

/-- The transaction of `pid` may commit, whatever happens first. -/
def MayCommit (pid : ℕ) (s : TxState Db W K X) : Prop :=
  ∀ s₁, N.Recorded G s₁ → Stands look G pid s s₁ →
    G.change s₁.committed (N.view s₁ pid) ∧ G.also (N.publish s₁ pid)

variable {N look G} {allow : Choice A → TxOp Op → TxState Db W K X → Prop}
  {pid : ℕ} {s s' : TxState Db W K X}

omit [DecidableEq K] in
/-- **An invariant of changes holds of what is committed.** -/
theorem Recorded.keeps {P : Db → Prop} (h : N.Recorded G s)
    (hstart : ∀ db, G.start db → P db) (hchange : ∀ a b, G.change a b → P a → P b) :
    P s.committed := by
  obtain ⟨db₀, hdb₀, hleads⟩ := h.leads
  exact hleads.keeps (fun c hc => hchange _ _ (h.change c hc)) (hstart db₀ hdb₀)

omit [DecidableEq K] in
/-- **A property of the log and of what is committed**, by induction over the commits. -/
theorem Recorded.history {P : List (TxCommit Db) → Db → Prop} (h : N.Recorded G s)
    (hstart : ∀ db, G.start db → P [] db)
    (hcommit : ∀ log c, G.change c.before c.after → P log c.before → P (log ++ [c]) c.after) :
    P s.log s.committed := by
  obtain ⟨db₀, hdb₀, hleads⟩ := h.leads
  have hrun : ∀ (log : List (TxCommit Db)) (db : Db), CommitsLead db₀ log db →
      (∀ c ∈ log, G.change c.before c.after) → P log db := by
    intro log
    induction log using List.reverseRecOn with
    | nil =>
      rintro db rfl -
      exact hstart _ hdb₀
    | append_singleton log c ih =>
      intro db hlead hchange
      obtain ⟨hlead', rfl⟩ := CommitsLead.snoc_iff.mp hlead
      refine hcommit log c (hchange c (by simp)) (ih _ hlead' (fun c' hc' => ?_))
      exact hchange c' (List.mem_append_left _ hc')
  exact hrun s.log s.committed hleads h.change

theorem log_ran {a : A} {op : Op} (hin : (s.pending pid).isSome) :
    (N.ran pid a op s).log = s.log := by
  obtain ⟨ws, hws⟩ := Option.isSome_iff_exists.mp hin
  simp [ran, perform, hws]

/-- A statement outside a transaction that writes nothing. -/
theorem ran_single {a : A} {op : Op} {r : Except E (Res op)} {x : X} (hout : s.pending pid = none)
    (h : N.exec a op (free s pid) s.committed s.ext = (r, [], x)) :
    (N.ran pid a op s).committed = s.committed ∧ (N.ran pid a op s).ext = x := by
  have hview : N.view s pid = s.committed := by
    unfold view
    rw [hout]
  rw [ext_ran]
  simp [ran, perform, hout, hview, install, h]

namespace Regime.Steady

variable (hG : Regime.Steady N look G)
include hG

/-- A request that commits nothing and has no effect outside. -/
theorem recorded_of_moves (h : N.Recorded G s) (hm : N.Moves pid s s') (hlog : s'.log = s.log)
    (hcommitted : s'.committed = s.committed) (halso : G.also s') : N.Recorded G s' := by
  refine ⟨hG.lawful.owned_of_moves h.owned hm, ?_, ?_, halso⟩
  · rw [hlog, hcommitted]
    exact h.leads
  · rw [hlog]
    exact h.change

theorem stands_refl (pid : ℕ) (s : TxState Db W K X) : Stands look G pid s s :=
  ⟨.refl pid s, hG.refl pid s⟩

theorem stands_trans {a b c : TxState Db W K X} (h : Stands look G pid a b)
    (h' : Stands look G pid b c) : Stands look G pid a c :=
  ⟨h.untouched.trans h'.untouched, hG.trans pid a b c h h'⟩

/-- Ending a transaction without a commit. -/
theorem close_ok (h : N.Recorded G s) : N.Recorded G (close s pid)
    ∧ ∀ q, q ≠ pid → Stands look G q s (close s pid) := by
  refine ⟨hG.recorded_of_moves h .close rfl rfl (hG.also s _ h.also rfl rfl), fun q hq => ?_⟩
  exact ⟨hG.lawful.untouched_of_other hq h.owned .close, hG.still pid q s _ hq h .close rfl rfl⟩

/-- **A commit that is a change**, and breaks nothing others count on. -/
theorem publish_kept (h : N.Recorded G s) (hchange : G.change s.committed (N.view s pid))
    (halso : G.also (N.publish s pid)) (hkept : ∀ q, q ≠ pid → G.kept q s (N.publish s pid)) :
    N.Recorded G (N.publish s pid) ∧ ∀ q, q ≠ pid → Stands look G q s (N.publish s pid) := by
  refine ⟨⟨hG.lawful.owned_of_moves h.owned .publish, ?_, ?_, halso⟩, fun q hq => ?_⟩
  · obtain ⟨db₀, hdb₀, hleads⟩ := h.leads
    exact ⟨db₀, hdb₀, CommitsLead.snoc_iff.mpr ⟨hleads, rfl⟩⟩
  · intro c hc
    rcases List.mem_append.mp hc with hc | hc
    · exact h.change c hc
    · rw [List.mem_singleton.mp hc]
      exact hchange
  · exact ⟨hG.lawful.untouched_of_other hq h.owned .publish, hkept q hq⟩

/-- **Statement rule**, for a statement with an effect outside. -/
theorem records_stmt {op : Op} {Q : Except E (Res op) → TxState Db W K X → Prop}
    (hin : (s.pending pid).isSome)
    (hfault : ∀ s₁, N.Recorded G s₁ → Stands look G pid s s₁ → Q (.error N.dbError) s₁)
    (hserve : ∀ s₁ a, N.Recorded G s₁ → Stands look G pid s s₁ → allow (.serve a) (.run op) s₁ →
      (N.locks op (free s₁ pid) (N.view s₁ pid) s₁.ext).all (free s₁ pid) = true →
      G.also (N.ran pid a op s₁) ∧ (∀ q, q ≠ pid → G.kept q s₁ (N.ran pid a op s₁))
        ∧ Q (N.answer pid a op s₁) (N.ran pid a op s₁)) :
    N.Records look G allow pid (stmt op) Q s := by
  refine safe_stmt ?_ ?_
  · rintro s₁ ⟨hr, hst⟩ -
    exact ⟨⟨hr, fun q _ => hG.stands_refl q s₁⟩, hfault s₁ hr hst⟩
  · rintro s₁ a ⟨hr, hst⟩ hallow hfree
    have hin₁ : (s₁.pending pid).isSome := by rw [hst.untouched.pending]; exact hin
    obtain ⟨halso, hkept, hQ⟩ := hserve s₁ a hr hst hallow hfree
    refine ⟨⟨hG.recorded_of_moves hr (.perform a op hfree) (log_ran hin₁) (committed_ran hin₁)
      halso, fun q hq => ?_⟩, hQ⟩
    exact ⟨hG.lawful.untouched_of_other hq hr.owned (.perform a op hfree), hkept q hq⟩

/-- **Statement rule**, for a statement on the tables. -/
theorem records_quiet {op : Op} {Q : Except E (Res op) → TxState Db W K X → Prop}
    (hin : (s.pending pid).isSome)
    (hfault : ∀ s₁, N.Recorded G s₁ → Stands look G pid s s₁ → Q (.error N.dbError) s₁)
    (hserve : ∀ s₁ a, N.Recorded G s₁ → Stands look G pid s s₁ → allow (.serve a) (.run op) s₁ →
      (N.locks op (free s₁ pid) (N.view s₁ pid) s₁.ext).all (free s₁ pid) = true →
      (N.exec a op (free s₁ pid) (N.view s₁ pid) s₁.ext).2.2 = s₁.ext
        ∧ Q (N.answer pid a op s₁) (N.ran pid a op s₁)) :
    N.Records look G allow pid (stmt op) Q s := by
  refine hG.records_stmt hin hfault (fun s₁ a hr hst hallow hfree => ?_)
  have hin₁ : (s₁.pending pid).isSome := by rw [hst.untouched.pending]; exact hin
  obtain ⟨hext, hQ⟩ := hserve s₁ a hr hst hallow hfree
  have hext' : (N.ran pid a op s₁).ext = s₁.ext := ext_ran.trans hext
  exact ⟨hG.also s₁ _ hr.also (committed_ran hin₁) hext', fun q hq =>
    hG.still pid q s₁ _ hq hr (.perform a op hfree) (committed_ran hin₁) hext', hQ⟩

/-- **Transaction rule**: a body that ends where it may commit without breaking what others
count on. -/
theorem records_publishing {α : Type} {body : Prog (TxOp Op) (TxRes Res) E α}
    (hbody : ∀ s₁, N.Recorded G s₁ → Stands look G pid s s₁ →
      N.Records look G allow pid body
        (Prog.outcome (fun _ => N.MayPublish look G pid) (fun _ _ => True)) (opened s₁ pid)) :
    N.Records look G allow pid (transaction body) (fun _ _ => True) s := by
  refine safe_transaction ?_ ?_
  · rintro s₁ ⟨hr, -⟩ -
    exact ⟨⟨hr, fun q _ => hG.stands_refl q s₁⟩, trivial⟩
  · rintro s₁ ⟨hr, hst⟩
    refine ⟨⟨hG.recorded_of_moves hr .begin rfl rfl (hG.also s₁ _ hr.also rfl rfl),
      fun q hq => ⟨hG.lawful.untouched_of_other hq hr.owned .begin,
        hG.still pid q s₁ _ hq hr .begin rfl rfl⟩⟩, ?_⟩
    refine Prog.Safe.mono (hbody s₁ hr hst) (fun r s₂ hend => ?_)
    cases r with
    | ok a =>
      rintro s₃ ⟨hr₃, hst₃⟩
      obtain ⟨hchange, halso, hkept⟩ := hend s₃ hr₃ hst₃
      exact ⟨⟨hG.publish_kept hr₃ hchange halso hkept, trivial, fun _ => trivial⟩,
        fun _ => ⟨hG.close_ok hr₃, trivial⟩⟩
    | error e =>
      rintro s₃ ⟨hr₃, -⟩
      exact ⟨hG.close_ok hr₃, trivial⟩

end Regime.Steady

/-- **Transaction rule**: a body that ends where it may commit. -/
theorem Regime.Sound.records_transaction (hG : Regime.Sound N look G) {α : Type}
    {body : Prog (TxOp Op) (TxRes Res) E α}
    (hbody : ∀ s₁, N.Recorded G s₁ → Stands look G pid s s₁ →
      N.Records look G allow pid body
        (Prog.outcome (fun _ => N.MayCommit look G pid) (fun _ _ => True)) (opened s₁ pid)) :
    N.Records look G allow pid (transaction body) (fun _ _ => True) s := by
  refine hG.records_publishing (fun s₁ hr hst => (hbody s₁ hr hst).mono (fun r s₂ hend => ?_))
  cases r with
  | ok a =>
    intro s₃ hr₃ hst₃
    obtain ⟨hchange, halso⟩ := hend s₃ hr₃ hst₃
    exact ⟨hchange, halso, fun q hq => hG.commit pid q s₃ hq hr₃ hchange⟩
  | error e => trivial

/-! ## What a transaction rests on -/

/-- **What a statement of `pid` does in a transaction**: it takes locks and adds writes. -/
structure Grew (pid : ℕ) (locked : List K) (written : List W) (s s' : TxState Db W K X) : Prop where
  committed : s'.committed = s.committed
  pending : ∀ ws, s.pending pid = some ws → s'.pending pid = some (ws ++ written)
  held : ∀ k, s.holder k = some pid → s'.holder k = some pid
  locked : ∀ k ∈ locked, s'.holder k = some pid

theorem grew_ran {a : A} {op : Op} (hin : (s.pending pid).isSome) :
    Grew pid (N.locks op (free s pid) (N.view s pid) s.ext)
      (N.exec a op (free s pid) (N.view s pid) s.ext).2.1 s (N.ran pid a op s) := by
  refine ⟨committed_ran hin, fun ws hws => pending_ran hws, fun k hk => ?_, fun k hk => ?_⟩
  · rw [holder_ran hin k, hk, ite_self]
  · rw [holder_ran hin k, if_pos hk]

variable (N look G) in
/-- **A fact that lasts while a transaction of `pid` is open**: others do not end it, and
neither do its own statements on the tables. -/
structure Firm (pid : ℕ) (F : TxState Db W K X → Prop) : Prop where
  stands : ∀ s s', F s → N.Recorded G s' → Stands look G pid s s' → F s'
  grew : ∀ ls ws s s', F s → Grew pid ls ws s s' → s'.ext = s.ext → F s'

omit [DecidableEq K] in
theorem Firm.and {F F' : TxState Db W K X → Prop} (h : N.Firm look G pid F)
    (h' : N.Firm look G pid F') : N.Firm look G pid (fun s => F s ∧ F' s) where
  stands s s' hs hr hst := ⟨h.stands s s' hs.1 hr hst, h'.stands s s' hs.2 hr hst⟩
  grew ls ws s s' hs hg hx := ⟨h.grew ls ws s s' hs.1 hg hx, h'.grew ls ws s s' hs.2 hg hx⟩

omit [DecidableEq K] in
/-- A transaction may commit by what it rests on. -/
theorem Firm.mayCommit {F : TxState Db W K X → Prop} {ws : List W}
    (hF : N.Firm look G pid F) (hs : s.pending pid = some ws ∧ F s)
    (h : ∀ s₁, N.Recorded G s₁ → s₁.pending pid = some ws → F s₁ →
      N.view s₁ pid = N.applyAll ws s₁.committed →
      G.change s₁.committed (N.applyAll ws s₁.committed) ∧ G.also (N.publish s₁ pid)) :
    N.MayCommit look G pid s := by
  intro s₁ hr hst
  have hws : s₁.pending pid = some ws := hst.untouched.pending.trans hs.1
  have hview : N.view s₁ pid = N.applyAll ws s₁.committed := by
    unfold view
    rw [hws]
  rw [hview]
  exact h s₁ hr hws (hF.stands s s₁ hs.2 hr hst) hview

omit [DecidableEq K] in
/-- … and without breaking what others count on. -/
theorem Firm.mayPublish {F : TxState Db W K X → Prop} {ws : List W}
    (hF : N.Firm look G pid F) (hs : s.pending pid = some ws ∧ F s)
    (h : ∀ s₁, N.Recorded G s₁ → s₁.pending pid = some ws → F s₁ →
      N.view s₁ pid = N.applyAll ws s₁.committed →
      G.change s₁.committed (N.applyAll ws s₁.committed) ∧ G.also (N.publish s₁ pid)
        ∧ ∀ q, q ≠ pid → G.kept q s₁ (N.publish s₁ pid)) :
    N.MayPublish look G pid s := by
  intro s₁ hr hst
  have hws : s₁.pending pid = some ws := hst.untouched.pending.trans hs.1
  have hview : N.view s₁ pid = N.applyAll ws s₁.committed := by
    unfold view
    rw [hws]
  rw [hview]
  exact h s₁ hr hws (hF.stands s s₁ hs.2 hr hst) hview

namespace Regime.Steady

variable (hG : Regime.Steady N look G) {F : TxState Db W K X → Prop} {ws : List W}
include hG

/-- **Statement rule**, with what the transaction rests on. -/
theorem records_step {op : Op} {Q : Except E (Res op) → TxState Db W K X → Prop}
    (hF : N.Firm look G pid F) (hs : s.pending pid = some ws ∧ F s)
    (hfault : ∀ s₁, s₁.pending pid = some ws → F s₁ → Q (.error N.dbError) s₁)
    (hserve : ∀ s₁ s₂ a, N.Recorded G s₁ → s₁.pending pid = some ws → F s₁ →
      allow (.serve a) (.run op) s₁ →
      (N.exec a op (free s₁ pid) (N.applyAll ws s₁.committed) s₁.ext).2.2 = s₁.ext
        ∧ (Grew pid (N.locks op (free s₁ pid) (N.applyAll ws s₁.committed) s₁.ext)
            (N.exec a op (free s₁ pid) (N.applyAll ws s₁.committed) s₁.ext).2.1 s₁ s₂ →
          N.Recorded G s₂ → F s₂ →
          Q (N.exec a op (free s₁ pid) (N.applyAll ws s₁.committed) s₁.ext).1 s₂)) :
    N.Records look G allow pid (stmt op) Q s := by
  have hin : (s.pending pid).isSome := by rw [hs.1]; rfl
  have hkeep : ∀ s₁, N.Recorded G s₁ → Stands look G pid s s₁ →
      s₁.pending pid = some ws ∧ F s₁ := fun s₁ hr hst =>
    ⟨hst.untouched.pending.trans hs.1, hF.stands s s₁ hs.2 hr hst⟩
  refine hG.records_quiet hin (fun s₁ hr hst => ?_) (fun s₁ a hr hst hallow hfree => ?_)
  · obtain ⟨hws, hF₁⟩ := hkeep s₁ hr hst
    exact hfault s₁ hws hF₁
  · obtain ⟨hws, hF₁⟩ := hkeep s₁ hr hst
    have hin₁ : (s₁.pending pid).isSome := by rw [hws]; rfl
    have hview : N.view s₁ pid = N.applyAll ws s₁.committed := by
      unfold view
      rw [hws]
    obtain ⟨hext, hQ⟩ := hserve s₁ (N.ran pid a op s₁) a hr hws hF₁ hallow
    have hgrew : Grew pid _ _ s₁ (N.ran pid a op s₁) := grew_ran hin₁
    rw [← hview] at hext hQ
    have hext' : (N.ran pid a op s₁).ext = s₁.ext := ext_ran.trans hext
    refine ⟨hext, hQ hgrew ?_ (hF.grew _ _ s₁ _ hF₁ hgrew hext')⟩
    exact hG.recorded_of_moves hr (.perform a op hfree) (log_ran hin₁) (committed_ran hin₁)
      (hG.also s₁ _ hr.also (committed_ran hin₁) hext')

/-- **Statement rule**, outside a transaction. -/
theorem records_single {op : Op} {Q : Except E (Res op) → TxState Db W K X → Prop}
    (hout : s.pending pid = none)
    (hfault : ∀ s₁, N.Recorded G s₁ → Q (.error N.dbError) s₁)
    (hserve : ∀ s₁, s₁.pending pid = none → ∀ a, N.Recorded G s₁ → allow (.serve a) (.run op) s₁ →
      G.change s₁.committed (N.ran pid a op s₁).committed ∧ G.also (N.ran pid a op s₁)
        ∧ (∀ q, q ≠ pid → G.kept q s₁ (N.ran pid a op s₁))
        ∧ Q (N.answer pid a op s₁) (N.ran pid a op s₁)) :
    N.Records look G allow pid (stmt op) Q s := by
  refine safe_stmt ?_ ?_
  · rintro s₁ ⟨hr, hst⟩ -
    exact ⟨⟨hr, fun q _ => hG.stands_refl q s₁⟩, hfault s₁ hr⟩
  · rintro s₁ a ⟨hr, hst⟩ hallow hfree
    have hout₁ : s₁.pending pid = none := hst.untouched.pending.trans hout
    obtain ⟨hchange, halso, hkept, hQ⟩ := hserve s₁ hout₁ a hr hallow
    have hlog : (N.ran pid a op s₁).log
        = s₁.log ++ [⟨pid, s₁.committed, (N.ran pid a op s₁).committed⟩] := by
      simp [ran, perform, hout₁, install]
    refine ⟨⟨⟨hG.lawful.owned_of_moves hr.owned (.perform a op hfree), ?_, ?_, halso⟩,
      fun q hq => ?_⟩, hQ⟩
    · obtain ⟨db₀, hdb₀, hleads⟩ := hr.leads
      rw [hlog]
      exact ⟨db₀, hdb₀, CommitsLead.snoc_iff.mpr ⟨hleads, rfl⟩⟩
    · rw [hlog]
      intro c hc
      rcases List.mem_append.mp hc with hc | hc
      · exact hr.change c hc
      · rw [List.mem_singleton.mp hc]
        exact hchange
    · exact ⟨hG.lawful.untouched_of_other hq hr.owned (.perform a op hfree), hkept q hq⟩

end Regime.Steady

/-- **The rely-guarantee rule for changes**, when the agreement is steady. -/
def steadyDiscipline {Call R : Type} {body : Call → Prog (TxOp Op) (TxRes Res) E R}
    {start : TxState Db W K X → Prop} {accept : TxState Db W K X → Call → Prop}
    {allow : ℕ → Choice A → TxOp Op → TxState Db W K X → Prop} (hG : Regime.Steady N look G)
    (hstart : ∀ s, start s → G.also s ∧ ∃ db x, s = quiet db x ∧ G.start db)
    (hbody : ∀ pid s call, accept s call → N.Recorded G s → Unused pid s →
      N.Records look G (allow pid) pid (body call) (fun _ _ => True) s) :
    Pool.Discipline (N.pool body) start accept allow (fun _ _ => True) where
  inv := N.Recorded G
  unused := Unused
  rely := Stands look G
  post := fun _ _ _ _ => True
  rely_refl := hG.stands_refl
  rely_trans := fun _ _ _ _ => hG.stands_trans
  unused_rely := fun _ _ _ h hst => h.untouched hst.untouched
  start_ok s hs := by
    obtain ⟨halso, db, x, rfl, hdb⟩ := hstart s hs
    refine ⟨⟨fun q ws hq => absurd hq (by simp [quiet]), ⟨db, hdb, rfl⟩,
      fun c hc => absurd hc (by simp [quiet]), halso⟩, fun pid => ?_⟩
    exact ⟨rfl, fun k hk => absurd hk (by simp [quiet]), fun c hc => absurd hc (by simp [quiet])⟩
  safe_body := hbody
  safe_crash pid s hs := hG.close_ok hs
  safe_env e := e.elim

/-- **The rely-guarantee rule for changes.** -/
def changeDiscipline {Call R : Type} {body : Call → Prog (TxOp Op) (TxRes Res) E R}
    {start : TxState Db W K X → Prop} {accept : TxState Db W K X → Call → Prop}
    {allow : ℕ → Choice A → TxOp Op → TxState Db W K X → Prop} (hG : Regime.Sound N look G)
    (hstart : ∀ s, start s → G.also s ∧ ∃ db x, s = quiet db x ∧ G.start db)
    (hbody : ∀ pid s call, accept s call → N.Recorded G s → Unused pid s →
      N.Records look G (allow pid) pid (body call) (fun _ _ => True) s) :
    Pool.Discipline (N.pool body) start accept allow (fun _ _ => True) :=
  steadyDiscipline hG.toSteady hstart hbody

end Engine
