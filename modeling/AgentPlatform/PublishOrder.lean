import AgentPlatform.OutboxDispatch
import AgentPlatform.Workers

/-!
# The order of first publications

Records that share a partition key should reach the bus for the first time in
the order `(created_at, id)`. Two things can break this. A dispatcher that
skips the rows another one holds may claim a later record of a key while an
earlier one is still waiting to be published. And a record may become visible
after a later record of its key, because `created_at` is the time its
transaction *began*.

When neither happens, the order is kept, through failures, crashes and any
number of dispatchers. The invariant is that the bus is closed downwards: with
a record, all earlier records of its key are on it, and before it. A
dispatcher keeps it because the rows it has claimed cover, together with the
bus, everything that comes before them.
-/

/-- What identifies a row and places it in the order. -/
structure RowIdent where
  partitionKey : String
  createdAt : Timestamp
  id : Uuid
  deriving DecidableEq, Repr

/-- The identity of a record, which marking it does not change. -/
def OutboxRecord.ident (r : OutboxRecord) : RowIdent := ⟨r.partitionKey, r.createdAt, r.id⟩

/-- Strictly before, in the order `(created_at, id)`. -/
def RowIdent.before (i j : RowIdent) : Prop :=
  i.createdAt < j.createdAt ∨ (i.createdAt = j.createdAt ∧ i.id < j.id)

instance (i j : RowIdent) : Decidable (i.before j) := inferInstanceAs (Decidable (_ ∨ _))

theorem RowIdent.before_asymm {i j : RowIdent} (h : i.before j) : ¬ j.before i := by
  unfold before at *
  rcases h with h | ⟨h, hid⟩
  · rintro (h' | ⟨h', -⟩)
    · exact absurd h' (not_lt.mpr h.le)
    · exact absurd h (h' ▸ lt_irrefl _)
  · rintro (h' | ⟨-, hid'⟩)
    · exact absurd h' (h ▸ lt_irrefl _)
    · exact absurd hid' (not_lt.mpr (Nat.le_of_lt hid))

/-- Rows are listed in the order they are sorted by. -/
theorem RowIdent.before_of_recordLe {r r' : OutboxRecord} (h : recordLe r r')
    (hne : r.id ≠ r'.id) : r.ident.before r'.ident := by
  rcases h with h | ⟨h, hid⟩
  · exact .inl h
  · exact .inr ⟨h, Nat.lt_of_le_of_ne hid hne⟩

/-- The rows of the Outbox, in the order of their insertion. -/
def idents (outbox : List OutboxRecord) : List RowIdent := outbox.map OutboxRecord.ident

/-- The records on the bus, in the order of publication. -/
def busIds (bus : List Publication) : List Uuid := bus.map Publication.recordId

@[simp] theorem idents_setPublished (id : Uuid) (outbox : List OutboxRecord) :
    idents (setPublished id outbox) = idents outbox := by
  unfold idents setPublished
  rw [List.map_map]
  refine List.map_congr_left (fun r _ => ?_)
  show OutboxRecord.ident (ite _ _ _) = _
  split <;> rfl

@[simp] theorem idents_applyAll (ws : List Uuid) (outbox : List OutboxRecord) :
    idents (outboxEngine.applyAll ws outbox) = idents outbox := by
  induction ws generalizing outbox with
  | nil => rfl
  | cons w ws ih =>
    rw [Engine.applyAll_cons, ih]
    exact idents_setPublished w outbox

/-- A published row was so before, or is among those marked. -/
theorem published_applyAll {ws : List Uuid} {outbox : List OutboxRecord} {r : OutboxRecord}
    (hr : r ∈ outboxEngine.applyAll ws outbox) (hs : r.status = .published) :
    r.id ∈ ws ∨ ∃ r₀ ∈ outbox, r₀.id = r.id ∧ r₀.status = .published := by
  induction ws generalizing outbox with
  | nil => exact .inr ⟨r, hr, rfl, hs⟩
  | cons w ws ih =>
    rcases ih hr with h | ⟨r₀, hr₀, hid, hs₀⟩
    · exact .inl (List.mem_cons_of_mem w h)
    · obtain ⟨r₁, hr₁, rfl⟩ := List.mem_map.mp hr₀
      split at hid
      · rename_i hmark
        exact .inl (by rw [← hid, ← hmark.1]; exact List.mem_cons_self)
      · rename_i hmark
        rw [if_neg hmark] at hs₀
        exact .inr ⟨r₁, hr₁, hid, hs₀⟩

/-! ## The invariant -/

/-- **The bus is in order.** -/
structure BusInOrder (s : DispatchState) : Prop where
  nodup : ((idents s.committed).map RowIdent.id).Nodup
  ascending : (idents s.committed).Pairwise
    (fun i j => i.partitionKey = j.partitionKey → i.before j)
  fromOutbox : ∀ id ∈ busIds s.ext, ∃ i ∈ idents s.committed, i.id = id
  marked : ∀ r ∈ s.committed, r.status = .published → r.id ∈ busIds s.ext
  marking : ∀ q ws, s.pending q = some ws → ∀ id ∈ ws, id ∈ busIds s.ext
  closed : ∀ pre id post, busIds s.ext = pre ++ id :: post →
    ∀ i ∈ idents s.committed, ∀ j ∈ idents s.committed, j.id = id →
      i.partitionKey = j.partitionKey → i.before j → i.id ∈ pre

/-- What every step does: rows and publications are appended. -/
def Grows (s s' : DispatchState) : Prop :=
  idents s.committed <+: idents s'.committed ∧ busIds s.ext <+: busIds s'.ext

theorem Grows.refl (s : DispatchState) : Grows s s := ⟨List.prefix_refl _, List.prefix_refl _⟩

theorem Grows.trans {a b c : DispatchState} (h : Grows a b) (h' : Grows b c) : Grows a c :=
  ⟨h.1.trans h'.1, h.2.trans h'.2⟩

/-- **The claimed rows cover what comes before them**: an earlier row of the
same key is on the bus, or is claimed and comes first. -/
def Covered (rows : List OutboxRecord) (s : DispatchState) : Prop :=
  ∀ pre, ∀ r : OutboxRecord, ∀ post, rows = pre ++ r :: post → r.ident ∈ idents s.committed
    ∧ ∀ i ∈ idents s.committed, i.partitionKey = r.partitionKey → i.before r.ident →
      i.id ∈ busIds s.ext ∨ i.id ∈ pre.map OutboxRecord.id

/-- A row that came later is not earlier. -/
theorem BusInOrder.not_before_of_append {s : DispatchState} (h : BusInOrder s)
    {old new : List RowIdent} (heq : idents s.committed = old ++ new) {i j : RowIdent}
    (hi : i ∈ new) (hj : j ∈ old) (hkey : j.partitionKey = i.partitionKey) : ¬ i.before j := by
  have hpair := h.ascending
  rw [heq] at hpair
  have hbefore := (List.pairwise_append.mp hpair).2.2 j hj i hi hkey
  exact RowIdent.before_asymm hbefore

/-- Covered rows stay covered while others act. -/
theorem Covered.grows {rows : List OutboxRecord} {s s' : DispatchState} (h : Covered rows s)
    (hs' : BusInOrder s') (hg : Grows s s') : Covered rows s' := by
  obtain ⟨⟨new, hnew⟩, hbus⟩ := hg
  intro pre r post hrows
  obtain ⟨hr, hcover⟩ := h pre r post hrows
  refine ⟨hnew ▸ List.mem_append_left _ hr, fun i hi hkey hbefore => ?_⟩
  rw [← hnew] at hi
  rcases List.mem_append.mp hi with hi | hi
  · exact (hcover i hi hkey hbefore).imp (fun hid => hbus.subset hid) id
  · exact absurd hbefore (hs'.not_before_of_append hnew.symm hi hr hkey.symm)

/-- The first row's publication covers the rest. -/
theorem Covered.tail {r : OutboxRecord} {rows : List OutboxRecord} {s : DispatchState}
    (h : Covered (r :: rows) s) (hr : r.id ∈ busIds s.ext) : Covered rows s := by
  intro pre r' post hrows
  obtain ⟨hmem, hcover⟩ := h (r :: pre) r' post (by rw [hrows]; rfl)
  refine ⟨hmem, fun i hi hkey hbefore => ?_⟩
  rcases hcover i hi hkey hbefore with hid | hid
  · exact .inl hid
  · rcases List.mem_cons.mp hid with hid | hid
    · exact .inl (hid ▸ hr)
    · exact .inr hid

/-! ## What each request does -/

/-- Marking rows that are on the bus keeps the order. -/
theorem BusInOrder.of_marks {s s' : DispatchState} (h : BusInOrder s)
    (hrows : idents s'.committed = idents s.committed) (hbus : s'.ext = s.ext)
    (hmarked : ∀ r ∈ s'.committed, r.status = .published → r.id ∈ busIds s.ext)
    (hmarking : ∀ q ws, s'.pending q = some ws → ∀ id ∈ ws, id ∈ busIds s.ext) :
    BusInOrder s' ∧ Grows s s' := by
  refine ⟨⟨?_, ?_, ?_, ?_, ?_, ?_⟩, ?_⟩
  · rw [hrows]
    exact h.nodup
  · rw [hrows]
    exact h.ascending
  · rw [hrows, hbus]
    exact h.fromOutbox
  · rw [hbus]
    exact hmarked
  · rw [hbus]
    exact hmarking
  · rw [hrows, hbus]
    exact h.closed
  · unfold Grows
    rw [hrows, hbus]
    exact ⟨List.prefix_refl _, List.prefix_refl _⟩

/-- The published rows of a transaction's view are on the bus. -/
theorem BusInOrder.marked_view {s : DispatchState} (h : BusInOrder s) {pid : ℕ} {r : OutboxRecord}
    (hr : r ∈ outboxEngine.view s pid) (hs : r.status = .published) :
    r.id ∈ busIds s.ext := by
  unfold Engine.view at hr
  split at hr
  · exact h.marked r hr hs
  · rename_i ws hws
    rcases published_applyAll hr hs with hid | ⟨r₀, hr₀, hid, hs₀⟩
    · exact h.marking pid ws hws _ hid
    · exact hid ▸ h.marked r₀ hr₀ hs₀

@[simp] theorem idents_view (s : DispatchState) (pid : ℕ) :
    idents (outboxEngine.view s pid) = idents s.committed := by
  unfold Engine.view
  split
  · rfl
  · exact idents_applyAll _ _

theorem BusInOrder.close {s : DispatchState} (h : BusInOrder s) (pid : ℕ) :
    BusInOrder (Engine.close s pid) ∧ Grows s (Engine.close s pid) := by
  refine h.of_marks rfl rfl h.marked (fun q ws hq => ?_)
  by_cases hqp : q = pid
  · subst hqp
    simp [Engine.close] at hq
  · simp only [Engine.close, Function.update_of_ne hqp] at hq
    exact h.marking q ws hq

theorem BusInOrder.begin {s : DispatchState} (h : BusInOrder s) (pid : ℕ) :
    BusInOrder (Engine.opened s pid) ∧ Grows s (Engine.opened s pid) := by
  refine h.of_marks rfl rfl h.marked (fun q ws hq => ?_)
  by_cases hqp : q = pid
  · subst hqp
    simp only [Engine.opened, Function.update_self, Option.some.injEq] at hq
    subst hq
    intro id hid
    cases hid
  · simp only [Engine.opened, Function.update_of_ne hqp] at hq
    exact h.marking q ws hq

theorem BusInOrder.commit {s : DispatchState} (h : BusInOrder s) (pid : ℕ) :
    BusInOrder (outboxEngine.publish s pid) ∧ Grows s (outboxEngine.publish s pid) := by
  have hinstall : BusInOrder (Engine.install s pid (outboxEngine.view s pid))
      ∧ Grows s (Engine.install s pid (outboxEngine.view s pid)) :=
    h.of_marks (idents_view s pid) rfl (fun r hr hs => h.marked_view hr hs) h.marking
  obtain ⟨hclose, hg⟩ := hinstall.1.close pid
  exact ⟨hclose, hinstall.2.trans hg⟩

/-- Selecting changes nothing but locks. -/
theorem BusInOrder.select {s : DispatchState} (h : BusInOrder s) (pid limit : ℕ)
    (a : DispatchAnswer) :
    BusInOrder (outboxEngine.ran pid a (.selectPending limit) s)
      ∧ Grows s (outboxEngine.ran pid a (.selectPending limit) s) := by
  unfold Engine.ran Engine.perform
  cases hp : s.pending pid with
  | none => exact h.of_marks rfl rfl h.marked h.marking
  | some old =>
    refine h.of_marks rfl rfl h.marked (fun q ws hq => ?_)
    simp only [outboxEngine, List.append_nil] at hq
    by_cases hqp : q = pid
    · subst hqp
      rw [Function.update_self] at hq
      exact h.marking q ws (hp.trans hq)
    · rw [Function.update_of_ne hqp] at hq
      exact h.marking q ws hq

/-- Marking a row that is on the bus. -/
theorem BusInOrder.mark {s : DispatchState} (h : BusInOrder s) (pid : ℕ) (a : DispatchAnswer)
    {id : Uuid} (hid : id ∈ busIds s.ext) :
    BusInOrder (outboxEngine.ran pid a (.markPublished id) s)
      ∧ Grows s (outboxEngine.ran pid a (.markPublished id) s) := by
  unfold Engine.ran Engine.perform
  cases hp : s.pending pid with
  | none =>
    refine h.of_marks (idents_applyAll [id] s.committed) rfl (fun r hr hs => ?_) h.marking
    rcases published_applyAll hr hs with hr' | ⟨r₀, hr₀, hid₀, hs₀⟩
    · exact List.mem_singleton.mp hr' ▸ hid
    · exact hid₀ ▸ h.marked r₀ hr₀ hs₀
  | some old =>
    refine h.of_marks rfl rfl h.marked (fun q ws hq => ?_)
    by_cases hqp : q = pid
    · subst hqp
      simp only [Function.update_self, Option.some.injEq] at hq
      subst hq
      intro id' hid'
      rcases List.mem_append.mp hid' with hid' | hid'
      · exact h.marking q old hp id' hid'
      · exact List.mem_singleton.mp hid' ▸ hid
    · simp only [Function.update_of_ne hqp] at hq
      exact h.marking q ws hq

/-- **Publishing a row all of whose predecessors are on the bus.** -/
theorem BusInOrder.append {s s' : DispatchState} (h : BusInOrder s) {p : Publication}
    {j : RowIdent} (hj : j ∈ idents s.committed) (hp : p.recordId = j.id)
    (hpred : ∀ i ∈ idents s.committed, i.partitionKey = j.partitionKey → i.before j →
      i.id ∈ busIds s.ext)
    (hrows : s'.committed = s.committed) (hpending : s'.pending = s.pending)
    (hbus : s'.ext = s.ext ++ [p]) : BusInOrder s' ∧ Grows s s' := by
  have hids : busIds s'.ext = busIds s.ext ++ [j.id] := by
    rw [hbus]
    unfold busIds
    rw [List.map_append, ← hp]
    rfl
  refine ⟨⟨hrows ▸ h.nodup, hrows ▸ h.ascending, ?_, ?_, ?_, ?_⟩, ?_⟩
  · intro id hid
    rw [hids] at hid
    rw [hrows]
    rcases List.mem_append.mp hid with hid | hid
    · exact h.fromOutbox id hid
    · exact ⟨j, hj, (List.mem_singleton.mp hid).symm⟩
  · intro r hr hs
    rw [hids]
    exact List.mem_append_left _ (h.marked r (hrows ▸ hr) hs)
  · intro q ws hq id hid
    rw [hids]
    exact List.mem_append_left _ (h.marking q ws (hpending ▸ hq) id hid)
  · intro pre id post heq i hi j' hj' hid hkey hbefore
    rw [hrows] at hi hj'
    rw [hids] at heq
    rcases List.eq_nil_or_concat post with rfl | ⟨post', last, rfl⟩
    · -- The new publication itself.
      obtain ⟨rfl, hlast⟩ := List.append_inj' heq rfl
      have hsame : j'.id = j.id := hid.trans (List.singleton_inj.mp hlast).symm
      have hjj : j' = j := List.inj_on_of_nodup_map h.nodup hj' hj hsame
      subst hjj
      exact hpred i hi hkey hbefore
    · have hold : busIds s.ext = pre ++ id :: post' := by
        have heq' : busIds s.ext ++ [j.id] = (pre ++ id :: post') ++ [last] := by
          rw [heq]
          simp
        exact (List.append_inj' heq' rfl).1
      exact h.closed pre id post' hold i hi j' hj' hid hkey hbefore
  · unfold Grows
    rw [hrows, hids]
    exact ⟨List.prefix_refl _, List.prefix_append _ _⟩

/-- What a publication makes of the state. -/
theorem ran_publish (s : DispatchState) (pid : ℕ) (a : DispatchAnswer) (id : Uuid)
    (envelope : BusEnvelope) :
    (outboxEngine.ran pid a (.publish id envelope) s).committed = s.committed
      ∧ (outboxEngine.ran pid a (.publish id envelope) s).pending = s.pending
      ∧ (outboxEngine.ran pid a (.publish id envelope) s).ext
        = (acceptPublication ⟨id, envelope⟩ s.ext a).2 := by
  unfold Engine.ran Engine.perform
  cases hp : s.pending pid with
  | none => exact ⟨rfl, rfl, rfl⟩
  | some old =>
    refine ⟨rfl, ?_, rfl⟩
    show Function.update s.pending pid (some (old ++ [])) = s.pending
    rw [List.append_nil, ← hp, Function.update_eq_self]

/-- **Publishing the first of the covered rows**, whatever the bus makes of
it. -/
theorem BusInOrder.publishRow {s : DispatchState} (h : BusInOrder s) {r : OutboxRecord}
    {rows : List OutboxRecord} (hc : Covered (r :: rows) s) (pid : ℕ) (a : DispatchAnswer) :
    BusInOrder (outboxEngine.ran pid a (.publish r.id r.envelope) s)
      ∧ Grows s (outboxEngine.ran pid a (.publish r.id r.envelope) s) := by
  obtain ⟨hrows, hpending, hbus⟩ := ran_publish s pid a r.id r.envelope
  obtain ⟨hr, hcover⟩ := hc [] r rows rfl
  have hpred : ∀ i ∈ idents s.committed, i.partitionKey = r.ident.partitionKey →
      i.before r.ident → i.id ∈ busIds s.ext := by
    intro i hi hkey hbefore
    rcases hcover i hi hkey hbefore with hid | hid
    · exact hid
    · cases hid
  cases a with
  | accepted => exact h.append hr rfl hpred hrows hpending hbus
  | lost e => exact h.append hr rfl hpred hrows hpending hbus
  | refused e =>
    refine h.of_marks (congrArg idents hrows) hbus (fun r' hr' hs => ?_) (fun q ws hq => ?_)
    · exact h.marked r' (hrows ▸ hr') hs
    · exact h.marking q ws (hpending ▸ hq)

/-! ## What a claim covers -/

instance : Std.Total recordLe where
  total r r' := by
    unfold recordLe
    rcases lt_trichotomy r.createdAt r'.createdAt with h | h | h
    · exact .inl (.inl h)
    · rcases Nat.le_total r.id r'.id with hid | hid
      · exact .inl (.inr ⟨h, hid⟩)
      · exact .inr (.inr ⟨h.symm, hid⟩)
    · exact .inr (.inl h)

instance : IsTrans OutboxRecord recordLe where
  trans a b c hab hbc := by
    unfold recordLe at *
    rcases hab with hab | ⟨hab, hid⟩
    · rcases hbc with hbc | ⟨hbc, -⟩
      · exact .inl (hab.trans hbc)
      · exact .inl (hbc ▸ hab)
    · rcases hbc with hbc | ⟨hbc, hid'⟩
      · exact .inl (hab ▸ hbc)
      · exact .inr ⟨hab.trans hbc, Nat.le_trans hid hid'⟩

theorem mem_freePending {free : Uuid → Bool} {outbox : List OutboxRecord} {r : OutboxRecord} :
    r ∈ freePending free outbox ↔ r ∈ outbox ∧ r.status = .pending ∧ free r.id = true := by
  simp [freePending, and_assoc]

theorem pairwise_freePending (free : Uuid → Bool) (outbox : List OutboxRecord) :
    (freePending free outbox).Pairwise recordLe :=
  (List.pairwise_insertionSort recordLe _).filter _

/-- **The claim of a dispatcher skips nothing that matters**: no pending row
that comes before a claimed one of its key is held by another. -/
def SkipsNothing (limit pid : ℕ) (s : DispatchState) : Prop :=
  ∀ r ∈ claimPending limit (Engine.free s pid) (outboxEngine.view s pid),
    ∀ r' ∈ outboxEngine.view s pid, r'.status = .pending → r'.partitionKey = r.partitionKey →
      r'.ident.before r.ident → Engine.free s pid r'.id = true

/-- **A claim that skips nothing is covered.** -/
theorem covered_claim {s : DispatchState} (h : BusInOrder s) {limit pid : ℕ}
    (hskip : SkipsNothing limit pid s) :
    Covered (claimPending limit (Engine.free s pid) (outboxEngine.view s pid)) s := by
  intro pre r post hrows
  have hr : r ∈ claimPending limit (Engine.free s pid) (outboxEngine.view s pid) := by
    rw [hrows]
    simp
  have hview : r ∈ outboxEngine.view s pid := (mem_freePending.mp (List.mem_of_mem_take hr)).1
  refine ⟨idents_view s pid ▸ List.mem_map_of_mem hview, fun i hi hkey hbefore => ?_⟩
  rw [← idents_view s pid] at hi
  obtain ⟨r', hr', rfl⟩ := List.mem_map.mp hi
  cases hstatus : r'.status with
  | published => exact .inl (h.marked_view hr' hstatus)
  | pending =>
    -- The earlier row is free, so it is claimed too, and sorted first.
    have hfree := hskip r hr r' hr' hstatus hkey hbefore
    have hmem : r' ∈ freePending (Engine.free s pid) (outboxEngine.view s pid) :=
      mem_freePending.mpr ⟨hr', hstatus, hfree⟩
    have hsorted := pairwise_freePending (Engine.free s pid) (outboxEngine.view s pid)
    obtain ⟨rest, hrest⟩ := List.take_prefix limit
      (freePending (Engine.free s pid) (outboxEngine.view s pid))
    rw [show (freePending (Engine.free s pid) (outboxEngine.view s pid)).take limit
      = pre ++ r :: post from hrows] at hrest
    rw [← hrest, List.append_assoc] at hmem hsorted
    rcases List.mem_append.mp hmem with hpre | hpost
    · exact .inr (List.mem_map_of_mem hpre)
    · have hne : r.id ≠ r'.id := by
        intro hid
        rcases hbefore with hlt | ⟨-, hlt⟩
        · have hsame : r.ident = r'.ident :=
            List.inj_on_of_nodup_map h.nodup
              (idents_view s pid ▸ List.mem_map_of_mem hview)
              (idents_view s pid ▸ List.mem_map_of_mem hr') hid
          rw [hsame] at hlt
          exact absurd hlt (lt_irrefl _)
        · exact absurd hid (Nat.ne_of_gt hlt)
      rcases List.mem_cons.mp hpost with rfl | hpost
      · exact absurd rfl hne
      · have hle := (List.pairwise_cons.mp (List.pairwise_append.mp hsorted).2.1).1 r' hpost
        exact absurd hbefore (RowIdent.before_asymm (RowIdent.before_of_recordLe hle hne))

/-! ## Dispatchers among one another -/

/-- The condition on a request: a claim skips nothing. -/
def dispatchAllow (pid : ℕ) (_c : Choice DispatchAnswer) (op : TxOp DispatchOp)
    (s : DispatchState) : Prop :=
  match op with
  | .run (.selectPending limit) => SkipsNothing limit pid s
  | _ => True

/-- The condition on an insertion: the record comes after the records of its
key. -/
def insertOk (s : DispatchState) (r : OutboxRecord) : Prop :=
  ∀ i ∈ idents s.committed, i.partitionKey = r.partitionKey → i.before r.ident

/-- Safety of a dispatcher's program. -/
abbrev DispatchSafe {α : Type} (pid : ℕ) (p : DispatchProg α)
    (Q : Except PyException α → DispatchState → Prop) (s : DispatchState) : Prop :=
  p.Safe (Prog.Handled (outboxEngine.handler pid) (dispatchAllow pid))
    (fun a b => BusInOrder b ∧ Grows a b)
    (fun a b => BusInOrder b ∧ ∀ q, q ≠ pid → Grows a b) Q s

/-- Publishing covered rows, one after the other. -/
theorem safe_publishRows {pid : ℕ} {rows : List OutboxRecord} {s : DispatchState}
    (h : BusInOrder s) (hc : Covered rows s) :
    DispatchSafe pid (publishRows rows) (fun _ s' => BusInOrder s') s := by
  induction rows generalizing s with
  | nil => exact h
  | cons r rows ih =>
    refine (Prog.safe_bind _ _ _ _).mpr (Engine.safe_stmt ?_ ?_)
    · rintro s₁ ⟨h₁, -⟩ -
      exact ⟨⟨h₁, fun _ _ => .refl _⟩, h₁⟩
    · rintro s₁ a ⟨h₁, hg₁⟩ - -
      obtain ⟨h₂, hg₂⟩ := h₁.publishRow (hc.grows h₁ hg₁) pid a
      refine ⟨⟨h₂, fun _ _ => hg₂⟩, ?_⟩
      have hc₂ := (hc.grows h₁ hg₁).grows h₂ hg₂
      obtain ⟨-, -, hbus⟩ := ran_publish s₁ pid a r.id r.envelope
      cases a with
      | refused e => exact h₂
      | lost e => exact h₂
      | accepted =>
        have hon : r.id ∈ busIds
            (outboxEngine.ran pid .accepted (.publish r.id r.envelope) s₁).ext := by
          rw [hbus]
          simp [acceptPublication, busIds]
        exact safe_mark ih h₂ hc₂ hon
where
  safe_mark {r : OutboxRecord} {rows : List OutboxRecord} {s : DispatchState}
      (ih : ∀ {s}, BusInOrder s → Covered rows s →
        DispatchSafe pid (publishRows rows) (fun _ s' => BusInOrder s') s)
      (h : BusInOrder s) (hc : Covered (r :: rows) s) (hon : r.id ∈ busIds s.ext) :
      DispatchSafe pid (Prog.bind (Engine.stmt (.markPublished r.id))
        (fun _ => Prog.bind (publishRows rows) (fun n => .ret (n + 1))))
        (fun _ s' => BusInOrder s') s := by
    refine (Prog.safe_bind _ _ _ _).mpr (Engine.safe_stmt ?_ ?_)
    · rintro s₁ ⟨h₁, -⟩ -
      exact ⟨⟨h₁, fun _ _ => .refl _⟩, h₁⟩
    · rintro s₁ a ⟨h₁, hg₁⟩ - -
      obtain ⟨h₂, hg₂⟩ := h₁.mark pid a (hg₁.2.subset hon)
      refine ⟨⟨h₂, fun _ _ => hg₂⟩, ?_⟩
      have hc₂ := (hc.grows h₁ hg₁).grows h₂ hg₂
      refine (Prog.safe_bind _ _ _ _).mpr
        ((ih h₂ (hc₂.tail (hg₂.2.subset (hg₁.2.subset hon)))).mono (fun r s' hr => ?_))
      cases r with
      | ok n => exact hr
      | error e => exact hr

/-- **One call of `dispatch_pending`.** -/
theorem safe_dispatchPending (pid batchSize : ℕ) (s : DispatchState) :
    DispatchSafe pid (dispatchPending batchSize) (fun _ s' => BusInOrder s') s := by
  have hends : ∀ {r : Except PyException ℕ} {s : DispatchState}, BusInOrder s →
      outboxEngine.Ends pid (dispatchAllow pid) (fun a b => BusInOrder b ∧ Grows a b)
        (fun a b => BusInOrder b ∧ ∀ q, q ≠ pid → Grows a b) (fun _ s' => BusInOrder s') r s := by
    intro r s _
    cases r with
    | ok n =>
      rintro s₁ ⟨h₁, -⟩
      obtain ⟨hcommit, hg⟩ := h₁.commit pid
      obtain ⟨hclose, hg'⟩ := h₁.close pid
      exact ⟨⟨⟨hcommit, fun _ _ => hg⟩, hcommit, fun _ => hcommit⟩,
        fun _ => ⟨⟨hclose, fun _ _ => hg'⟩, hclose⟩⟩
    | error e =>
      rintro s₁ ⟨h₁, -⟩
      obtain ⟨hclose, hg⟩ := h₁.close pid
      exact ⟨⟨hclose, fun _ _ => hg⟩, hclose⟩
  refine Engine.safe_transaction ?_ ?_
  · rintro s₁ ⟨h₁, -⟩ -
    exact ⟨⟨h₁, fun _ _ => .refl _⟩, h₁⟩
  · rintro s₁ ⟨h₁, -⟩
    obtain ⟨h₂, hg₂⟩ := h₁.begin pid
    refine ⟨⟨h₂, fun _ _ => hg₂⟩, ?_⟩
    refine (Prog.safe_bind _ _ _ _).mpr (Engine.safe_stmt ?_ ?_)
    · rintro s₃ ⟨h₃, -⟩ -
      exact ⟨⟨h₃, fun _ _ => .refl _⟩, hends (r := .error outboxEngine.dbError) h₃⟩
    · rintro s₃ a ⟨h₃, -⟩ hskip -
      obtain ⟨h₄, hg₄⟩ := h₃.select pid batchSize a
      refine ⟨⟨h₄, fun _ _ => hg₄⟩, ?_⟩
      have hcover := (covered_claim h₃ hskip).grows h₄ hg₄
      exact (safe_publishRows h₄ hcover).mono (fun r s' hr => hends hr)

/-- A record that comes after those of its key may be inserted. -/
theorem BusInOrder.insert {s s' : DispatchState} {r : OutboxRecord} (h : BusInOrder s)
    (hok : insertOk s r) (hs : dispatchers.env r s = some s') : BusInOrder s' ∧ Grows s s' := by
  simp only [dispatchers] at hs
  split at hs
  · rename_i hfresh
    cases hs
    unfold insertable at hfresh
    simp only [Bool.and_eq_true, decide_eq_true_eq, List.all_eq_true] at hfresh
    obtain ⟨⟨hpending, -⟩, hunique⟩ := hfresh
    have hrows : idents (s.committed ++ [r]) = idents s.committed ++ [r.ident] := by
      unfold idents
      rw [List.map_append]
      rfl
    have hnew : r.id ∉ (idents s.committed).map RowIdent.id := by
      intro hid
      obtain ⟨i, hi, hid⟩ := List.mem_map.mp hid
      obtain ⟨r', hr', rfl⟩ := List.mem_map.mp hi
      exact (hunique r' hr').1 hid
    refine ⟨⟨?_, ?_, ?_, ?_, h.marking, ?_⟩, ?_⟩
    · show ((idents (s.committed ++ [r])).map RowIdent.id).Nodup
      rw [hrows, List.map_append]
      refine List.nodup_append.mpr ⟨h.nodup, List.nodup_singleton _, ?_⟩
      rintro id hid _ hlast rfl
      rw [List.mem_singleton.mp hlast] at hid
      exact hnew hid
    · show (idents (s.committed ++ [r])).Pairwise _
      rw [hrows]
      refine List.pairwise_append.mpr ⟨h.ascending, List.pairwise_singleton _ _, ?_⟩
      intro i hi j hj hkey
      rw [List.mem_singleton.mp hj] at hkey ⊢
      exact hok i hi hkey
    · intro id hid
      obtain ⟨i, hi, hid⟩ := h.fromOutbox id hid
      exact ⟨i, hrows ▸ List.mem_append_left _ hi, hid⟩
    · intro r' hr' hstatus
      rcases List.mem_append.mp hr' with hr' | hr'
      · exact h.marked r' hr' hstatus
      · rw [List.mem_singleton.mp hr', hpending] at hstatus
        cases hstatus
    · intro pre id post heq i hi j hj hid hkey hbefore
      simp only [hrows] at hi hj
      -- A record on the bus was there before, and the new one comes after it.
      have hj' : j ∈ idents s.committed := by
        rcases List.mem_append.mp hj with hj | hj
        · exact hj
        · obtain ⟨i', hi', hid'⟩ := h.fromOutbox id (by rw [heq]; simp)
          rw [List.mem_singleton.mp hj] at hid
          exact absurd (List.mem_map.mpr ⟨i', hi', hid'.trans hid.symm⟩) hnew
      rcases List.mem_append.mp hi with hi | hi
      · exact h.closed pre id post heq i hi j hj' hid hkey hbefore
      · rw [List.mem_singleton.mp hi] at hkey hbefore
        exact absurd hbefore (RowIdent.before_asymm (hok j hj' hkey.symm))
    · refine ⟨?_, List.prefix_refl _⟩
      show idents s.committed <+: idents (s.committed ++ [r])
      rw [hrows]
      exact List.prefix_append _ _
  · cases hs

/-- **The dispatchers keep the bus in order.** -/
def dispatchDiscipline :
    Pool.Discipline dispatchers dispatchStart (fun _ _ => True) dispatchAllow insertOk where
  inv := BusInOrder
  unused := fun _ _ => True
  rely := fun _ => Grows
  post := fun _ _ _ _ => True
  rely_refl := fun _ => .refl
  rely_trans := fun _ _ _ _ => .trans
  unused_rely := fun _ _ _ _ _ => trivial
  start_ok := by
    rintro s rfl
    refine ⟨⟨List.nodup_nil, List.Pairwise.nil, ?_, ?_, ?_, ?_⟩, fun _ => trivial⟩
    · intro id hid
      cases hid
    · intro r hr
      cases hr
    · intro q ws hq
      cases hq
    · intro pre id post heq
      exact absurd heq (by simp [busIds, Engine.quiet])
  safe_body := fun pid s batchSize _ _ _ =>
    (safe_dispatchPending pid batchSize s).mono (fun _ _ _ => trivial)
  safe_crash := fun pid s h => ⟨(h.close pid).1, fun _ _ => (h.close pid).2⟩
  safe_env := fun r s s' hok h hs => ⟨(h.insert hok hs).1, fun _ => (h.insert hok hs).2⟩

/-- The versions of a Session rise from one announced range to the next, in the
order of insertion. -/
def VersionsAscend (outbox : List OutboxRecord) : Prop :=
  outbox.Pairwise (fun r r' => ∀ d d', r.payload = .sessionEventsCommitted d →
    r'.payload = .sessionEventsCommitted d' → d.tenantId = d'.tenantId →
    d.sessionId = d'.sessionId → d.toVersion < d'.toVersion)

/-- The first publication of one record comes before that of another. -/
def PublishedBefore (bus : List Publication) (id id' : Uuid) : Prop :=
  (busIds bus).idxOf id < (busIds bus).idxOf id'

/-- In an ordered bus, an earlier record of the same key was published
first. -/
theorem BusInOrder.publishedBefore {s : DispatchState} (h : BusInOrder s) {i j : RowIdent}
    (hi : i ∈ idents s.committed) (hj : j ∈ idents s.committed)
    (hkey : i.partitionKey = j.partitionKey) (hbefore : i.before j)
    (hon : j.id ∈ busIds s.ext) : PublishedBefore s.ext i.id j.id := by
  obtain ⟨pre, post, heq, hfirst⟩ := List.eq_append_cons_of_mem hon
  have hpre := h.closed pre j.id post heq i hi j hj rfl hkey hbefore
  unfold PublishedBefore
  rw [heq, List.idxOf_append_of_mem hpre, List.idxOf_append_of_notMem hfirst,
    List.idxOf_cons_self, Nat.add_zero]
  exact List.idxOf_lt_length_iff.mpr hpre

/-- **First publications keep the order of the Outbox**, in every run in which
no dispatcher's claim skips an earlier pending record of a claimed key and
every inserted record comes after those of its key: the records of a partition
key are first published in the order `(created_at, id)`, and so the ranges of
a Session in the order of its versions. -/
theorem publish_order
    {w : Pool.State (TxOp DispatchOp) (TxRes DispatchRes) PyException DispatchState ℕ ℕ}
    (h : dispatchMachine.Reach (Pool.stepOk (fun _ _ => True) dispatchAllow insertOk) w) :
    (∀ r ∈ w.shared.committed, ∀ r' ∈ w.shared.committed,
        r.partitionKey = r'.partitionKey → r.ident.before r'.ident →
        r'.id ∈ busIds w.shared.ext → PublishedBefore w.shared.ext r.id r'.id)
      ∧ (VersionsAscend w.shared.committed →
        ∀ r ∈ w.shared.committed, ∀ r' ∈ w.shared.committed, ∀ d d',
          r.payload = .sessionEventsCommitted d → r'.payload = .sessionEventsCommitted d' →
          d.tenantId = d'.tenantId → d.sessionId = d'.sessionId →
          r.partitionKey = r'.partitionKey → d.toVersion < d'.toVersion →
          r'.id ∈ busIds w.shared.ext → PublishedBefore w.shared.ext r.id r'.id) := by
  have hinv : BusInOrder w.shared := (Pool.reach_safe dispatchDiscipline h).inv
  have horder : ∀ r ∈ w.shared.committed, ∀ r' ∈ w.shared.committed,
      r.partitionKey = r'.partitionKey → r.ident.before r'.ident →
      r'.id ∈ busIds w.shared.ext → PublishedBefore w.shared.ext r.id r'.id :=
    fun r hr r' hr' hkey hbefore hon =>
      hinv.publishedBefore (List.mem_map_of_mem hr) (List.mem_map_of_mem hr') hkey hbefore hon
  refine ⟨horder, fun hversions r hr r' hr' d d' hd hd' ht hn hkey hlt hon => ?_⟩
  refine horder r hr r' hr' hkey ?_ hon
  -- The record with the lower version was inserted first.
  have hsorted : w.shared.committed.Pairwise
      (fun r r' => r.ident.partitionKey = r'.ident.partitionKey → r.ident.before r'.ident) :=
    List.pairwise_map.mp hinv.ascending
  have hboth := hsorted.and hversions
  obtain ⟨pre, post, heq⟩ := List.append_of_mem hr
  rw [heq] at hboth hr'
  obtain ⟨-, htail, hpre⟩ := List.pairwise_append.mp hboth
  rcases List.mem_append.mp hr' with hr' | hr'
  · have hgt := (hpre r' hr' r List.mem_cons_self).2 d' d hd' hd ht.symm hn.symm
    exact absurd hgt (not_lt.mpr hlt.le)
  · rcases List.mem_cons.mp hr' with rfl | hr'
    · rw [hd] at hd'
      cases hd'
      exact absurd hlt (lt_irrefl _)
    · exact ((List.pairwise_cons.mp htail).1 r' hr').1 hkey

/-! ## The versions of the Outbox

What `publish_order` asks of the versions is what the workers write. -/

/-! ### Two records of a Session -/

/-- The record of a range of a Session, announced at a time. -/
def rangeRecord (id : Uuid) (createdAt : Timestamp) (fromVersion toVersion : ℕ) :
    OutboxRecord where
  tenantId := 1
  id := id
  messageId := "session:" ++ toString id
  source := workerSource
  eventType := .sessionEventsCommitted
  partitionKey := sessionPartitionKey 1 "s"
  causationId := none
  correlationId := none
  dataClassification := none
  payload := .sessionEventsCommitted
    { tenantId := 1, sessionId := "s", executionId := id, fromVersion := fromVersion,
      toVersion := toVersion, eventKinds := ["USER_MESSAGE", "AGENT_REPLY"] }
  status := .pending
  attempts := 0
  createdAt := createdAt

/-- Two ranges of a Session are inserted. -/
def twoRanges : List (Pool.Label (Choice DispatchAnswer) ℕ OutboxRecord) :=
  [.env (rangeRecord 1 10 0 2), .env (rangeRecord 2 20 2 4)]

/-- A request that is served. -/
def served (pid : ℕ) : Pool.Label (Choice DispatchAnswer) ℕ OutboxRecord :=
  .act pid (.serve .accepted)

/-- Test for the conditions of `publish_order`. -/
def keepsOrderTest
    (w : Pool.State (TxOp DispatchOp) (TxRes DispatchRes) PyException DispatchState ℕ ℕ) :
    Pool.Label (Choice DispatchAnswer) ℕ OutboxRecord → Bool
  | .act pid _ => match w.threads pid with
    | some (_, .call (.run (.selectPending limit)) _) =>
      (claimPending limit (Engine.free w.shared pid) (outboxEngine.view w.shared pid)).all
        (fun r => (outboxEngine.view w.shared pid).all (fun r' =>
          r'.status ≠ .pending || r'.partitionKey ≠ r.partitionKey
            || !decide (r'.ident.before r.ident) || Engine.free w.shared pid r'.id))
    | _ => true
  | .env r => (idents w.shared.committed).all
      (fun i => i.partitionKey ≠ r.partitionKey || decide (i.before r.ident))
  | _ => true

theorem stepOk_of_keepsOrderTest
    (w : Pool.State (TxOp DispatchOp) (TxRes DispatchRes) PyException DispatchState ℕ ℕ)
    (l : Pool.Label (Choice DispatchAnswer) ℕ OutboxRecord) (h : keepsOrderTest w l = true) :
    Pool.stepOk (fun _ _ => True) dispatchAllow insertOk w l := by
  cases l with
  | spawn n => trivial
  | crash pid => trivial
  | env r =>
    intro i hi hkey
    have htest := List.all_eq_true.mp h i hi
    simpa [hkey] using htest
  | act pid c =>
    intro batchSize op k hth
    unfold dispatchAllow
    split
    · rename_i limit
      simp only [keepsOrderTest, hth] at h
      intro r hr r' hr' hstatus hkey hbefore
      have htest := List.all_eq_true.mp (List.all_eq_true.mp h r hr) r' hr'
      simpa [hstatus, hkey, hbefore] using htest
    · trivial

/-- The two rows, wherever they are found. -/
theorem twoRanges_rows {s : DispatchState}
    (hrows : idents s.committed
      = [(rangeRecord 1 10 0 2).ident, (rangeRecord 2 20 2 4).ident]) :
    ∃ r ∈ s.committed, ∃ r' ∈ s.committed, r.id = 1 ∧ r'.id = 2
      ∧ r.partitionKey = r'.partitionKey ∧ r.ident.before r'.ident := by
  have hmem : ∀ i ∈ idents s.committed, ∃ r ∈ s.committed, r.ident = i :=
    fun i hi => List.mem_map.mp hi
  obtain ⟨r, hr, hi⟩ := hmem (rangeRecord 1 10 0 2).ident (by rw [hrows]; simp)
  obtain ⟨r', hr', hi'⟩ := hmem (rangeRecord 2 20 2 4).ident (by rw [hrows]; simp)
  refine ⟨r, hr, r', hr', congrArg RowIdent.id hi, congrArg RowIdent.id hi', ?_, ?_⟩
  · exact (congrArg RowIdent.partitionKey hi).trans (congrArg RowIdent.partitionKey hi').symm
  · rw [hi, hi']
    decide

/-- One dispatcher publishes both. -/
theorem publish_order_oneDispatcher :
    ∃ w, dispatchMachine.Reach (Pool.stepOk (fun _ _ => True) dispatchAllow insertOk) w
      ∧ busIds w.shared.ext = [1, 2] ∧ PublishedBefore w.shared.ext 1 2 := by
  have hrun : (dispatchMachine.runIf keepsOrderTest (Pool.idle (Engine.quiet [] []))
      (twoRanges ++ [.spawn 100, served 0, served 0, served 0, served 0, served 0, served 0,
        served 0])).map
        (fun w => decide (busIds w.shared.ext = [1, 2]
          ∧ idents w.shared.committed = [(rangeRecord 1 10 0 2).ident,
            (rangeRecord 2 20 2 4).ident])) = some true := by
    decide +kernel
  have hinit : dispatchMachine.init (Pool.idle (Engine.quiet [] [])) := ⟨_, rfl, rfl⟩
  obtain ⟨w, hw, htest⟩ := Machine.reach_of_runIf stepOk_of_keepsOrderTest hinit hrun
  obtain ⟨hbus, hrows⟩ := of_decide_eq_true htest
  obtain ⟨r, hr, r', hr', hid, hid', hkey, hbefore⟩ := twoRanges_rows hrows
  refine ⟨w, hw, hbus, ?_⟩
  rw [← hid, ← hid']
  exact (publish_order hw).1 r hr r' hr' hkey hbefore (by rw [hbus, hid']; decide)

/-- While one dispatcher holds the first range, another publishes the
second. -/
theorem publish_order_broken :
    ¬ ∀ w, dispatchMachine.Reach Machine.anyStep w →
      ∀ r ∈ w.shared.committed, ∀ r' ∈ w.shared.committed,
        r.partitionKey = r'.partitionKey → r.ident.before r'.ident →
        r.id ∈ busIds w.shared.ext → r'.id ∈ busIds w.shared.ext →
        PublishedBefore w.shared.ext r.id r'.id := by
  have hrun : (dispatchMachine.run (Pool.idle (Engine.quiet [] []))
      (twoRanges ++ [.spawn 1, served 0, served 0, .spawn 1, served 1, served 1, served 1,
        served 0])).map
        (fun w => decide (busIds w.shared.ext = [2, 1]
          ∧ idents w.shared.committed = [(rangeRecord 1 10 0 2).ident,
            (rangeRecord 2 20 2 4).ident])) = some true := by
    decide +kernel
  have hinit : dispatchMachine.init (Pool.idle (Engine.quiet [] [])) := ⟨_, rfl, rfl⟩
  obtain ⟨w, hw, htest⟩ := Machine.reach_of_run hinit hrun
  obtain ⟨hbus, hrows⟩ := of_decide_eq_true htest
  obtain ⟨r, hr, r', hr', hid, hid', hkey, hbefore⟩ := twoRanges_rows hrows
  intro hclaim
  have hfirst := hclaim w hw r hr r' hr' hkey hbefore (by rw [hbus, hid]; decide)
    (by rw [hbus, hid']; decide)
  unfold PublishedBefore at hfirst
  rw [hbus, hid, hid'] at hfirst
  exact absurd hfirst (by decide)
