import AgentPlatform.PublishOrder

/-!
# What the Outbox delivers

A record is marked as published in the transaction that published it, and only
after the bus has accepted its envelope. Whatever fails or crashes, a published
record has therefore been accepted, and a record leaves its status in no other
way; what a rollback undoes is a mark, never a publication, so the same record
may be published again.

Without failures and crashes there is nothing to undo. A record on the bus is
then *settled*: it is marked as published, or a dispatcher holds its row and
will mark it. Since a dispatcher claims only rows nobody else holds, no record
is published twice; and a call that finds fewer rows than it asked for leaves
every record it could see settled.

`DispatchCalm` is the assumption that nothing fails, as a parameter of the
walk through the program, so that both readings share it.
-/

/-! ## Rows and what becomes of them -/

/-- **What becomes of a row**: it keeps its envelope, and leaves its status only
for `published`, when the bus has accepted the envelope. -/
structure OutboxRecord.Kept (bus : List Publication) (r r' : OutboxRecord) : Prop where
  id : r'.id = r.id
  envelope : r'.envelope = r.envelope
  status : r'.status = r.status
    ∨ r.status = .pending ∧ r'.status = .published ∧ ⟨r.id, r.envelope⟩ ∈ bus

theorem OutboxRecord.Kept.refl (bus : List Publication) (r : OutboxRecord) : r.Kept bus r :=
  ⟨rfl, rfl, .inl rfl⟩

theorem OutboxRecord.Kept.trans {bus bus' : List Publication} {a b c : OutboxRecord}
    (h : a.Kept bus b) (h' : b.Kept bus' c) (hbus : bus ⊆ bus') : a.Kept bus' c := by
  refine ⟨h'.id.trans h.id, h'.envelope.trans h.envelope, ?_⟩
  rcases h.status with hs | ⟨hpending, hpublished, hon⟩
  · rcases h'.status with hs' | ⟨hpending', hpublished', hon'⟩
    · exact .inl (hs'.trans hs)
    · rw [h.id, h.envelope] at hon'
      exact .inr ⟨hs.symm.trans hpending', hpublished', hon'⟩
  · rcases h'.status with hs' | ⟨hpending', -, -⟩
    · exact .inr ⟨hpending, hs'.trans hpublished, hbus hon⟩
    · exact absurd (hpublished.symm.trans hpending') (by decide)

/-- A row after marks: published, if it was pending and is among those marked. -/
def OutboxRecord.markedBy (ws : List Uuid) (r : OutboxRecord) : OutboxRecord :=
  if r.id ∈ ws ∧ r.status = .pending
    then { r with status := .published, attempts := r.attempts + 1 } else r

@[simp] theorem OutboxRecord.markedBy_id (ws : List Uuid) (r : OutboxRecord) :
    (r.markedBy ws).id = r.id := by
  unfold markedBy
  split <;> rfl

@[simp] theorem OutboxRecord.markedBy_envelope (ws : List Uuid) (r : OutboxRecord) :
    (r.markedBy ws).envelope = r.envelope := by
  unfold markedBy
  split <;> rfl

/-- A row among those marked is published. -/
theorem OutboxRecord.markedBy_status {ws : List Uuid} {r : OutboxRecord} (h : r.id ∈ ws) :
    (r.markedBy ws).status = .published := by
  unfold markedBy
  split
  · rfl
  · rename_i hnot
    cases hs : r.status with
    | published => rfl
    | pending => exact absurd ⟨h, hs⟩ hnot

/-- Marking a row once or several times is the same. -/
theorem OutboxRecord.markedBy_cons (w : Uuid) (ws : List Uuid) (r : OutboxRecord) :
    (r.markedBy [w]).markedBy ws = r.markedBy (w :: ws) := by
  by_cases hs : r.status = .pending
  · by_cases hw : r.id = w
    · simp [markedBy, hs, hw]
    · simp [markedBy, hs, hw]
  · simp [markedBy, hs]

/-- **What the marks of a transaction make of the Outbox.** -/
theorem applyAll_eq_map (ws : List Uuid) (outbox : List OutboxRecord) :
    outboxEngine.applyAll ws outbox = outbox.map (OutboxRecord.markedBy ws) := by
  induction ws generalizing outbox with
  | nil =>
    have hnone : ∀ r : OutboxRecord, r.markedBy [] = r := fun r => by simp [OutboxRecord.markedBy]
    rw [Engine.applyAll_nil, funext hnone, List.map_id']
  | cons w ws ih =>
    have hone : outboxEngine.apply w outbox = outbox.map (OutboxRecord.markedBy [w]) := by
      refine List.map_congr_left (fun r _ => ?_)
      simp [OutboxRecord.markedBy]
    rw [Engine.applyAll_cons, ih, hone, List.map_map]
    exact List.map_congr_left (fun r _ => r.markedBy_cons w ws)

/-- A row is kept by marks of what the bus has accepted. -/
theorem OutboxRecord.kept_markedBy {bus : List Publication} {ws : List Uuid} {r : OutboxRecord}
    (h : r.id ∈ ws → ⟨r.id, r.envelope⟩ ∈ bus) : r.Kept bus (r.markedBy ws) := by
  refine ⟨r.markedBy_id ws, r.markedBy_envelope ws, ?_⟩
  by_cases hmark : r.id ∈ ws ∧ r.status = .pending
  · exact .inr ⟨hmark.2, markedBy_status hmark.1, h hmark.1⟩
  · exact .inl (by rw [markedBy, if_neg hmark])

/-! ## The invariant -/

/-- **What is published, or about to be, is on the bus.** -/
structure Accepted (s : DispatchState) : Prop where
  nodup : (s.committed.map OutboxRecord.id).Nodup
  published : ∀ r ∈ s.committed, r.status = .published → ⟨r.id, r.envelope⟩ ∈ s.ext
  marks : ∀ q ws, s.pending q = some ws → ∀ id ∈ ws,
    ∃ r ∈ s.committed, r.id = id ∧ ⟨r.id, r.envelope⟩ ∈ s.ext

/-- What every step does: rows are kept and publications appended. -/
structure OutboxAdvances (s s' : DispatchState) : Prop where
  rows : ∀ r ∈ s.committed, ∃ r' ∈ s'.committed, r.Kept s'.ext r'
  bus : s.ext <+: s'.ext

theorem OutboxAdvances.refl (s : DispatchState) : OutboxAdvances s s :=
  ⟨fun r hr => ⟨r, hr, .refl _ r⟩, List.prefix_refl _⟩

theorem OutboxAdvances.trans {a b c : DispatchState} (h : OutboxAdvances a b)
    (h' : OutboxAdvances b c) :
    OutboxAdvances a c := by
  refine ⟨fun r hr => ?_, h.bus.trans h'.bus⟩
  obtain ⟨r', hr', hkept⟩ := h.rows r hr
  obtain ⟨r'', hr'', hkept'⟩ := h'.rows r' hr'
  exact ⟨r'', hr'', hkept.trans hkept' h'.bus.subset⟩

/-- **A record is settled**: its row is marked as published, or somebody holds
it. -/
def RecordSettled (s : DispatchState) (id : Uuid) : Prop :=
  s.holder id ≠ none ∨ ∃ r ∈ s.committed, r.id = id ∧ r.status = .published

/-- **No record is on the bus twice, and what is on it is settled.** -/
structure OnceEach (s : DispatchState) : Prop where
  nodup : (busIds s.ext).Nodup
  settled : ∀ id ∈ busIds s.ext, RecordSettled s id

/-- The invariant; without failures, `calm`, it says more. -/
structure Dispatched (calm : Prop) (s : DispatchState) : Prop where
  accepted : Accepted s
  once : calm → OnceEach s

/-- **What a dispatcher relies on.** Without failures, settled records stay
settled, and nobody else publishes a row it holds. -/
structure DispatchRespects (calm : Prop) (pid : ℕ) (s s' : DispatchState) : Prop where
  advances : OutboxAdvances s s'
  apart : Engine.Untouched (fun (_ : Uuid) (_ : List OutboxRecord) => ()) pid s s'
  settled : calm → ∀ id, RecordSettled s id → RecordSettled s' id
  mine : calm → ∀ id, s.holder id = some pid → id ∈ busIds s'.ext → id ∈ busIds s.ext

theorem DispatchRespects.refl (calm : Prop) (pid : ℕ) (s : DispatchState) :
    DispatchRespects calm pid s s :=
  ⟨.refl s, .refl pid s, fun _ _ => id, fun _ _ _ => id⟩

theorem DispatchRespects.trans {calm : Prop} {pid : ℕ} {a b c : DispatchState}
    (h : DispatchRespects calm pid a b) (h' : DispatchRespects calm pid b c) :
    DispatchRespects calm pid a c := by
  refine ⟨h.advances.trans h'.advances, h.apart.trans h'.apart, ?_, ?_⟩
  · intro hcalm id hid
    exact h'.settled hcalm id (h.settled hcalm id hid)
  · intro hcalm id hheld hid
    exact h.mine hcalm id hheld (h'.mine hcalm id ((h.apart.held id).mpr hheld) hid)

/-- What a request of `pid` leads to. -/
structure DispatchStep (calm : Prop) (pid : ℕ) (s s' : DispatchState) : Prop where
  inv : Dispatched calm s'
  others : ∀ q, q ≠ pid → DispatchRespects calm q s s'

/-- **A request that changes no row**, but may add marks of what is on the bus,
publications and locks. -/
theorem DispatchStep.of_rows {calm : Prop} {pid : ℕ} {s s' : DispatchState} (h : Dispatched calm s)
    (hmoves : outboxEngine.Moves pid s s') (hrows : s'.committed = s.committed)
    (hbus : s.ext <+: s'.ext)
    (hmarks : ∀ q ws, s'.pending q = some ws → ∀ id ∈ ws,
      (∃ ws', s.pending q = some ws' ∧ id ∈ ws')
        ∨ ∃ r ∈ s.committed, r.id = id ∧ ⟨r.id, r.envelope⟩ ∈ s'.ext)
    (hheld : calm → ∀ id, s.holder id ≠ none → s'.holder id ≠ none)
    (hnodup : calm → (busIds s'.ext).Nodup)
    (hown : calm → ∀ id ∈ busIds s'.ext, id ∈ busIds s.ext ∨ s.holder id = some pid) :
    DispatchStep calm pid s s' := by
  have hsettled : calm → ∀ id, RecordSettled s id → RecordSettled s' id := by
    intro hcalm id hid
    rcases hid with hid | ⟨r, hr, hid⟩
    · exact .inl (hheld hcalm id hid)
    · exact .inr ⟨r, hrows ▸ hr, hid⟩
  refine ⟨⟨⟨hrows ▸ h.accepted.nodup, ?_, ?_⟩, fun hcalm => ⟨hnodup hcalm, ?_⟩⟩, fun q hq => ?_⟩
  · intro r hr hs
    exact hbus.subset (h.accepted.published r (hrows ▸ hr) hs)
  · intro q ws hq id hid
    rw [hrows]
    rcases hmarks q ws hq id hid with ⟨ws', hq', hid'⟩ | hrow
    · obtain ⟨r, hr, hrid, hon⟩ := h.accepted.marks q ws' hq' id hid'
      exact ⟨r, hr, hrid, hbus.subset hon⟩
    · exact hrow
  · intro id hid
    rcases hown hcalm id hid with hid | hmine
    · exact hsettled hcalm id ((h.once hcalm).settled id hid)
    · exact .inl (hheld hcalm id (by simp [hmine]))
  · refine ⟨⟨fun r hr => ⟨r, hrows ▸ hr, .refl _ r⟩, hbus⟩, hmoves.apart hq, hsettled, ?_⟩
    intro hcalm id hheldq hid
    rcases hown hcalm id hid with hid | hmine
    · exact hid
    · exact absurd (Option.some.inj (hheldq.symm.trans hmine)) hq

/-! ## What each request does -/

theorem Dispatched.begin {calm : Prop} {s : DispatchState} (h : Dispatched calm s) (pid : ℕ) :
    DispatchStep calm pid s (Engine.opened s pid) := by
  refine DispatchStep.of_rows h .begin rfl (List.prefix_refl _) (fun q ws hq id hid => ?_)
    (fun _ _ => id) (fun hcalm => (h.once hcalm).nodup) (fun _ _ => .inl)
  by_cases hqp : q = pid
  · subst hqp
    simp only [Engine.opened, Function.update_self, Option.some.injEq] at hq
    subst hq
    cases hid
  · simp only [Engine.opened, Function.update_of_ne hqp] at hq
    exact .inl ⟨ws, hq, hid⟩

/-- A rollback, which comes of failures only. -/
theorem Dispatched.close {calm : Prop} {s : DispatchState} (h : Dispatched calm s)
    (hcalm : ¬ calm) (pid : ℕ) : DispatchStep calm pid s (Engine.close s pid) := by
  refine DispatchStep.of_rows h .close rfl (List.prefix_refl _) (fun q ws hq id hid => ?_)
    (fun hc => absurd hc hcalm) (fun hc => absurd hc hcalm) (fun hc => absurd hc hcalm)
  by_cases hqp : q = pid
  · subst hqp
    simp [Engine.close] at hq
  · simp only [Engine.close, Function.update_of_ne hqp] at hq
    exact .inl ⟨ws, hq, hid⟩

/-- What selecting makes of the state of an open transaction. -/
theorem ran_selectPending {s : DispatchState} {pid : ℕ} {ws : List Uuid}
    (hp : s.pending pid = some ws) (limit : ℕ) (a : DispatchAnswer) :
    (outboxEngine.ran pid a (.selectPending limit) s).committed = s.committed
      ∧ (outboxEngine.ran pid a (.selectPending limit) s).pending = s.pending
      ∧ (outboxEngine.ran pid a (.selectPending limit) s).ext = s.ext
      ∧ ∀ k, (outboxEngine.ran pid a (.selectPending limit) s).holder k
        = if k ∈ (claimPending limit (Engine.free s pid) (outboxEngine.view s pid)).map
            OutboxRecord.id then some pid else s.holder k := by
  unfold Engine.ran Engine.perform
  rw [hp]
  refine ⟨rfl, ?_, rfl, fun k => rfl⟩
  show Function.update s.pending pid (some (ws ++ [])) = s.pending
  rw [List.append_nil, ← hp, Function.update_eq_self]

theorem Dispatched.select {calm : Prop} {s : DispatchState} (h : Dispatched calm s) {pid : ℕ}
    {ws : List Uuid} (hp : s.pending pid = some ws) (limit : ℕ) (a : DispatchAnswer)
    (hfree : (outboxEngine.locks (.selectPending limit) (Engine.free s pid)
      (outboxEngine.view s pid) s.ext).all (Engine.free s pid) = true) :
    DispatchStep calm pid s (outboxEngine.ran pid a (.selectPending limit) s) := by
  obtain ⟨hrows, hpending, hbus, hholder⟩ := ran_selectPending hp limit a
  refine DispatchStep.of_rows h (.perform a (DispatchOp.selectPending limit) hfree) hrows
    (hbus ▸ List.prefix_refl _) (fun q ws hq id hid => .inl ⟨ws, hpending ▸ hq, hid⟩) ?_
    (fun hcalm => hbus ▸ (h.once hcalm).nodup) (fun _ id hid => .inl (hbus ▸ hid))
  intro _ id hid
  rw [hholder]
  split
  · simp
  · exact hid

/-- The marks of an open transaction, and its locks, after one more mark. -/
theorem ran_markPublished {s : DispatchState} {pid : ℕ} {ws : List Uuid}
    (hp : s.pending pid = some ws) (id : Uuid) (a : DispatchAnswer) :
    (outboxEngine.ran pid a (.markPublished id) s).committed = s.committed
      ∧ (outboxEngine.ran pid a (.markPublished id) s).pending
        = Function.update s.pending pid (some (ws ++ [id]))
      ∧ (outboxEngine.ran pid a (.markPublished id) s).ext = s.ext
      ∧ ∀ k, (outboxEngine.ran pid a (.markPublished id) s).holder k
        = if k ∈ [id] then some pid else s.holder k := by
  unfold Engine.ran Engine.perform
  rw [hp]
  exact ⟨rfl, rfl, rfl, fun k => rfl⟩

theorem Dispatched.mark {calm : Prop} {s : DispatchState} (h : Dispatched calm s) {pid : ℕ}
    {ws : List Uuid} (hp : s.pending pid = some ws) {id : Uuid} (a : DispatchAnswer)
    (hfree : (outboxEngine.locks (.markPublished id) (Engine.free s pid)
      (outboxEngine.view s pid) s.ext).all (Engine.free s pid) = true)
    (hon : ∃ r ∈ s.committed, r.id = id ∧ ⟨r.id, r.envelope⟩ ∈ s.ext) :
    DispatchStep calm pid s (outboxEngine.ran pid a (.markPublished id) s) := by
  obtain ⟨hrows, hpending, hbus, hholder⟩ := ran_markPublished hp id a
  refine DispatchStep.of_rows h (.perform a (DispatchOp.markPublished id) hfree) hrows
    (hbus ▸ List.prefix_refl _) (fun q ws' hq id' hid' => ?_) ?_
    (fun hcalm => hbus ▸ (h.once hcalm).nodup) (fun _ id hid => .inl (hbus ▸ hid))
  · rw [hpending] at hq
    by_cases hqp : q = pid
    · subst hqp
      simp only [Function.update_self, Option.some.injEq] at hq
      subst hq
      rcases List.mem_append.mp hid' with hid' | hid'
      · exact .inl ⟨ws, hp, hid'⟩
      · rw [List.mem_singleton.mp hid', hbus]
        exact .inr hon
    · rw [Function.update_of_ne hqp] at hq
      exact .inl ⟨ws', hq, hid'⟩
  · intro _ k hk
    rw [hholder]
    split
    · simp
    · exact hk

/-- A publication locks nothing. -/
theorem ran_publish_holder {s : DispatchState} {pid : ℕ} (a : DispatchAnswer) (id : Uuid)
    (envelope : BusEnvelope) :
    (outboxEngine.ran pid a (.publish id envelope) s).holder = s.holder := by
  unfold Engine.ran Engine.perform
  cases hp : s.pending pid with
  | none => rfl
  | some old =>
    funext k
    show (if k ∈ [] then some pid else s.holder k) = s.holder k
    exact if_neg List.not_mem_nil

/-- **A publication**: of a record that, without failures, the publisher holds
and the bus has not seen. -/
theorem Dispatched.publishRow {calm : Prop} {s : DispatchState} (h : Dispatched calm s) (pid : ℕ)
    (r : OutboxRecord) (a : DispatchAnswer)
    (hnew : calm → r.id ∉ busIds s.ext ∧ s.holder r.id = some pid) :
    DispatchStep calm pid s (outboxEngine.ran pid a (.publish r.id r.envelope) s) := by
  obtain ⟨hrows, hpending, hbus⟩ := ran_publish s pid a r.id r.envelope
  have hids : busIds (outboxEngine.ran pid a (.publish r.id r.envelope) s).ext = busIds s.ext
      ∨ busIds (outboxEngine.ran pid a (.publish r.id r.envelope) s).ext
        = busIds s.ext ++ [r.id] := by
    rw [hbus]
    cases a with
    | accepted => exact .inr (by simp [acceptPublication, busIds])
    | refused e => exact .inl rfl
    | lost e => exact .inr (by simp [acceptPublication, busIds])
  refine DispatchStep.of_rows h (.perform a (DispatchOp.publish r.id r.envelope) rfl) hrows ?_
    (fun q ws hq id hid => .inl ⟨ws, hpending ▸ hq, hid⟩) ?_ (fun hcalm => ?_)
    (fun hcalm id hid => ?_)
  · rw [hbus]
    cases a with
    | accepted => exact List.prefix_append _ _
    | refused e => exact List.prefix_refl _
    | lost e => exact List.prefix_append _ _
  · intro _ id hid
    rw [ran_publish_holder]
    exact hid
  · rcases hids with hids | hids
    · rw [hids]
      exact (h.once hcalm).nodup
    · rw [hids, List.nodup_append]
      refine ⟨(h.once hcalm).nodup, List.nodup_singleton _, ?_⟩
      intro i hi j hj hij
      rw [List.mem_singleton.mp hj] at hij
      exact (hnew hcalm).1 (hij ▸ hi)
  · rcases hids with hids | hids
    · exact .inl (hids ▸ hid)
    · rw [hids] at hid
      rcases List.mem_append.mp hid with hid | hid
      · exact .inl hid
      · rw [List.mem_singleton.mp hid]
        exact .inr (hnew hcalm).2

/-- **A commit**: without failures, everything the transaction holds is marked. -/
theorem Dispatched.commit {calm : Prop} {s : DispatchState} (h : Dispatched calm s) {pid : ℕ}
    {ws : List Uuid} (hp : s.pending pid = some ws)
    (hall : calm → ∀ id, s.holder id = some pid → id ∈ ws) :
    DispatchStep calm pid s (outboxEngine.publish s pid) := by
  have hrows : (outboxEngine.publish s pid).committed = s.committed.map (.markedBy ws) := by
    show outboxEngine.view s pid = _
    rw [Engine.view, hp]
    exact applyAll_eq_map ws s.committed
  have hon : ∀ r ∈ s.committed, r.id ∈ ws → ⟨r.id, r.envelope⟩ ∈ s.ext := by
    intro r hr hid
    obtain ⟨r', hr', hrid, hbus⟩ := h.accepted.marks pid ws hp r.id hid
    obtain rfl := List.inj_on_of_nodup_map h.accepted.nodup hr' hr hrid
    exact hbus
  have hsettled : calm → ∀ id, RecordSettled s id → RecordSettled
      (outboxEngine.publish s pid) id := by
    intro hcalm id hid
    have hrow : ∀ r ∈ s.committed, r.id = id → (r.markedBy ws).status = .published →
        RecordSettled (outboxEngine.publish s pid) id := fun r hr hrid hs =>
      .inr ⟨r.markedBy ws, hrows ▸ List.mem_map_of_mem hr, (r.markedBy_id ws).trans hrid, hs⟩
    rcases hid with hid | ⟨r, hr, hrid, hs⟩
    · by_cases hmine : s.holder id = some pid
      · obtain ⟨r, hr, hrid, -⟩ := h.accepted.marks pid ws hp id (hall hcalm id hmine)
        exact hrow r hr hrid (OutboxRecord.markedBy_status (hrid ▸ hall hcalm id hmine))
      · refine .inl ?_
        show (if s.holder id = some pid then none else s.holder id) ≠ none
        rw [if_neg hmine]
        exact hid
    · refine hrow r hr hrid ?_
      rcases (OutboxRecord.kept_markedBy (hon r hr)).status with hs' | ⟨-, hs', -⟩
      · exact hs'.trans hs
      · exact hs'
  have hclosed : ∀ q ws', (outboxEngine.publish s pid).pending q = some ws' →
      s.pending q = some ws' := by
    intro q ws' hq
    by_cases hqp : q = pid
    · subst hqp
      simp [Engine.publish, Engine.close] at hq
    · simpa [Engine.publish, Engine.close, Engine.install, Function.update_of_ne hqp] using hq
  refine ⟨⟨⟨?_, ?_, ?_⟩, fun hcalm => ⟨(h.once hcalm).nodup, ?_⟩⟩, fun q hq => ?_⟩
  · rw [hrows, List.map_map]
    have hids : s.committed.map (OutboxRecord.id ∘ OutboxRecord.markedBy ws)
        = s.committed.map OutboxRecord.id :=
      List.map_congr_left (fun r _ => OutboxRecord.markedBy_id ws r)
    rw [hids]
    exact h.accepted.nodup
  · intro r hr hs
    rw [hrows] at hr
    obtain ⟨r₀, hr₀, rfl⟩ := List.mem_map.mp hr
    rw [OutboxRecord.markedBy_id, OutboxRecord.markedBy_envelope]
    rcases (OutboxRecord.kept_markedBy (hon r₀ hr₀)).status with hs' | ⟨-, -, hbus⟩
    · exact h.accepted.published r₀ hr₀ (hs'.symm.trans hs)
    · exact hbus
  · intro q ws' hq id hid
    obtain ⟨r, hr, hrid, hbus⟩ := h.accepted.marks q ws' (hclosed q ws' hq) id hid
    refine ⟨r.markedBy ws, hrows ▸ List.mem_map_of_mem hr, (r.markedBy_id ws).trans hrid, ?_⟩
    rw [OutboxRecord.markedBy_id, OutboxRecord.markedBy_envelope]
    exact hbus
  · intro id hid
    exact hsettled hcalm id ((h.once hcalm).settled id hid)
  · refine ⟨⟨fun r hr => ?_, List.prefix_refl _⟩, Engine.Moves.apart hq .publish, hsettled,
      fun _ _ _ => id⟩
    exact ⟨r.markedBy ws, hrows ▸ List.mem_map_of_mem hr, OutboxRecord.kept_markedBy (hon r hr)⟩

/-! ## A dispatcher at work -/

/-- The request is served, and a publication accepted. -/
def servedOk : Choice DispatchAnswer → TxOp DispatchOp → Bool
  | .serve .accepted, _ => true
  | .serve _, .run (.publish ..) => false
  | .serve _, _ => true
  | _, _ => false

/-- The condition on a request: without failures, it is served. -/
def DispatchCalm (calm : Prop) (_pid : ℕ) (c : Choice DispatchAnswer) (op : TxOp DispatchOp)
    (_s : DispatchState) : Prop :=
  calm → servedOk c op = true

/-- Safety of a dispatcher's program. -/
abbrev DeliversSafely {α : Type} (calm : Prop) (pid : ℕ) (p : DispatchProg α)
    (Q : Except PyException α → DispatchState → Prop) (s : DispatchState) : Prop :=
  p.Safe (Prog.Handled (outboxEngine.handler pid) (DispatchCalm calm pid))
    (fun a b => Dispatched calm b ∧ DispatchRespects calm pid a b)
    (fun a b => Dispatched calm b ∧ ∀ q, q ≠ pid → DispatchRespects calm q a b) Q s

/-- **A dispatcher that has marked `done` and goes on with `rows`.** Without
failures it holds nothing else, and the bus has not seen the rows. -/
structure Dispatching (calm : Prop) (pid : ℕ) (done : List Uuid) (rows : List OutboxRecord)
    (s : DispatchState) : Prop where
  marks : s.pending pid = some done
  known : ∀ r ∈ rows, ∃ r' ∈ s.committed, r'.id = r.id ∧ r'.envelope = r.envelope
  distinct : (rows.map OutboxRecord.id).Nodup
  fresh : calm → ∀ r ∈ rows, r.id ∉ busIds s.ext ∧ s.holder r.id = some pid
  covered : calm → ∀ k, s.holder k = some pid → k ∈ done ∨ k ∈ rows.map OutboxRecord.id

theorem Dispatching.respects {calm : Prop} {pid : ℕ} {done : List Uuid} {rows : List OutboxRecord}
    {s s' : DispatchState} (h : Dispatching calm pid done rows s)
    (hr : DispatchRespects calm pid s s') : Dispatching calm pid done rows s' := by
  refine ⟨hr.apart.pending.trans h.marks, fun r hrow => ?_, h.distinct, ?_, ?_⟩
  · obtain ⟨r', hr', hid, henv⟩ := h.known r hrow
    obtain ⟨r'', hr'', hkept⟩ := hr.advances.rows r' hr'
    exact ⟨r'', hr'', hkept.id.trans hid, hkept.envelope.trans henv⟩
  · intro hcalm r hrow
    obtain ⟨hnew, hheld⟩ := h.fresh hcalm r hrow
    exact ⟨fun hon => hnew (hr.mine hcalm r.id hheld hon), (hr.apart.held r.id).mpr hheld⟩
  · intro hcalm k hk
    exact h.covered hcalm k ((hr.apart.held k).mp hk)

/-- The dispatcher after the publication of its next row: the rest is still new
to the bus, and the row is on it if the bus says so. -/
theorem Dispatching.published {calm : Prop} {pid : ℕ} {done : List Uuid} {r : OutboxRecord}
    {rows : List OutboxRecord} {s : DispatchState} (h : Dispatching calm pid done (r :: rows) s) :
    (outboxEngine.ran pid .accepted (.publish r.id r.envelope) s).pending pid = some done
      ∧ ∃ r' ∈ (outboxEngine.ran pid .accepted (.publish r.id r.envelope) s).committed,
        r'.id = r.id ∧ ⟨r'.id, r'.envelope⟩
          ∈ (outboxEngine.ran pid .accepted (.publish r.id r.envelope) s).ext := by
  obtain ⟨hrows, hpending, hbus⟩ := ran_publish s pid .accepted r.id r.envelope
  obtain ⟨r', hr', hid, henv⟩ := h.known r List.mem_cons_self
  refine ⟨hpending ▸ h.marks, r', hrows ▸ hr', hid, ?_⟩
  rw [hbus, hid, henv]
  exact List.mem_append_right _ (List.mem_singleton.mpr rfl)

/-- Between a publication and its mark, the row is still the dispatcher's. -/
theorem Dispatching.marked {calm : Prop} {pid : ℕ} {done : List Uuid} {r : OutboxRecord}
    {rows : List OutboxRecord} {s : DispatchState} (h : Dispatching calm pid done (r :: rows) s)
    {s₁ s₂ : DispatchState} (hr : DispatchRespects calm pid
      (outboxEngine.ran pid .accepted (.publish r.id r.envelope) s) s₁)
    (hrows : s₂.committed = s₁.committed)
    (hpending : s₂.pending pid = some (done ++ [r.id]))
    (hbus : s₂.ext = s₁.ext)
    (hholder : ∀ k, s₂.holder k = if k ∈ [r.id] then some pid else s₁.holder k) :
    Dispatching calm pid (done ++ [r.id]) rows s₂ := by
  obtain ⟨hrows₀, -, hbus₀⟩ := ran_publish s pid .accepted r.id r.envelope
  have hheld : ∀ k, s.holder k = some pid ↔ s₁.holder k = some pid := by
    intro k
    rw [hr.apart.held k, ran_publish_holder]
  obtain ⟨hnotmem, hdistinct⟩ := List.nodup_cons.mp h.distinct
  refine ⟨hpending, fun r' hrow => ?_, hdistinct, fun hcalm r' hrow => ?_, fun hcalm k hk => ?_⟩
  · obtain ⟨r₀, hr₀, hid, henv⟩ := h.known r' (List.mem_cons_of_mem r hrow)
    obtain ⟨r₁, hr₁, hkept⟩ := hr.advances.rows r₀ (hrows₀ ▸ hr₀)
    exact ⟨r₁, hrows ▸ hr₁, hkept.id.trans hid, hkept.envelope.trans henv⟩
  · obtain ⟨hnew, hmine⟩ := h.fresh hcalm r' (List.mem_cons_of_mem r hrow)
    have hne : r'.id ≠ r.id := fun hid => hnotmem (hid ▸ List.mem_map_of_mem hrow)
    refine ⟨fun hon => ?_, ?_⟩
    · have hmine' : (outboxEngine.ran pid .accepted (.publish r.id r.envelope) s).holder r'.id
          = some pid := by
        rw [ran_publish_holder]
        exact hmine
      have hon' := hr.mine hcalm r'.id hmine' (hbus ▸ hon)
      rw [hbus₀] at hon'
      simp only [acceptPublication, busIds, List.map_append, List.map_cons, List.map_nil] at hon'
      rcases List.mem_append.mp hon' with hon' | hon'
      · exact hnew hon'
      · exact hne (List.mem_singleton.mp hon')
    · rw [hholder, if_neg (by simpa using hne)]
      exact (hheld r'.id).mp hmine
  · rw [hholder] at hk
    split at hk
    · rename_i hmem
      exact .inl (List.mem_append_right _ hmem)
    · rcases h.covered hcalm k ((hheld k).mpr hk) with hk | hk
      · exact .inl (List.mem_append_left _ hk)
      · rcases List.mem_cons.mp hk with hk | hk
        · exact .inl (hk ▸ List.mem_append_right _ List.mem_cons_self)
        · exact .inr hk

/-- How the body of a dispatcher's transaction ends: with the number of rows, all
of them marked; or, if something failed, with an exception. `seen` are records
that are settled by then. -/
def RowsEnd (calm : Prop) (pid : ℕ) (seen : Uuid → Prop) (n : ℕ) :
    Except PyException ℕ → DispatchState → Prop
  | .ok m, s => m = n ∧ (∃ done, Dispatching calm pid done [] s)
      ∧ (calm → ∀ id, seen id → RecordSettled s id)
  | .error _, _ => ¬ calm

/-- **Publishing rows one by one**, from any row on. -/
theorem delivers_publishRows {calm : Prop} {pid : ℕ} {seen : Uuid → Prop}
    {rows : List OutboxRecord} {done : List Uuid} {s : DispatchState}
    (hw : Dispatching calm pid done rows s)
    (hseen : calm → ∀ id, seen id → RecordSettled s id) :
    DeliversSafely calm pid (publishRows rows) (RowsEnd calm pid seen rows.length) s := by
  induction rows generalizing done s with
  | nil => exact ⟨rfl, ⟨done, hw⟩, hseen⟩
  | cons r rows ih =>
    refine (Prog.safe_bind _ _ _ _).mpr (Engine.safe_stmt ?_ ?_)
    · rintro s₁ ⟨h₁, -⟩ hallow
      exact ⟨⟨h₁, fun q _ => .refl calm q s₁⟩, fun hcalm => Bool.false_ne_true (hallow hcalm)⟩
    · rintro s₁ a ⟨h₁, hr₁⟩ hallow -
      have hw₁ := hw.respects hr₁
      obtain ⟨h₂, hothers⟩ := h₁.publishRow pid r a
        (fun hcalm => hw₁.fresh hcalm r List.mem_cons_self)
      refine ⟨⟨h₂, hothers⟩, ?_⟩
      cases a with
      | refused e => exact fun hcalm => Bool.false_ne_true (hallow hcalm)
      | lost e => exact fun hcalm => Bool.false_ne_true (hallow hcalm)
      | accepted =>
        have hsettled : calm → ∀ id, seen id → RecordSettled
            (outboxEngine.ran pid .accepted (.publish r.id r.envelope) s₁) id := by
          intro hcalm id hid
          exact (hothers (pid + 1) (Nat.succ_ne_self pid)).settled hcalm id
            (hr₁.settled hcalm id (hseen hcalm id hid))
        exact delivers_mark ih hw₁ hsettled
where
  /-- The mark of a row that has been published, and the rows after it. -/
  delivers_mark {r : OutboxRecord} {rows : List OutboxRecord} {done : List Uuid}
      {s₁ : DispatchState}
      (ih : ∀ {done s}, Dispatching calm pid done rows s →
        (calm → ∀ id, seen id → RecordSettled s id) →
        DeliversSafely calm pid (publishRows rows) (RowsEnd calm pid seen rows.length) s)
      (hw₁ : Dispatching calm pid done (r :: rows) s₁)
      (hseen : calm → ∀ id, seen id →
        RecordSettled (outboxEngine.ran pid .accepted (.publish r.id r.envelope) s₁) id) :
      DeliversSafely calm pid (Prog.bind (Engine.stmt (.markPublished r.id))
        (fun _ => Prog.bind (publishRows rows) (fun n => .ret (n + 1))))
        (RowsEnd calm pid seen (rows.length + 1))
        (outboxEngine.ran pid .accepted (.publish r.id r.envelope) s₁) := by
    obtain ⟨hmarks, r', hr', hid, hon⟩ := hw₁.published
    refine (Prog.safe_bind _ _ _ _).mpr (Engine.safe_stmt ?_ ?_)
    · rintro s₃ ⟨h₃, -⟩ hallow
      exact ⟨⟨h₃, fun q _ => .refl calm q s₃⟩, fun hcalm => Bool.false_ne_true (hallow hcalm)⟩
    · rintro s₃ a ⟨h₃, hr₃⟩ - hfree
      have hp₃ : s₃.pending pid = some done := hr₃.apart.pending.trans hmarks
      obtain ⟨r'', hr'', hkept⟩ := hr₃.advances.rows r' hr'
      obtain ⟨h₄, hothers⟩ := h₃.mark hp₃ a hfree ⟨r'', hr'', hkept.id.trans hid,
        hkept.id ▸ hkept.envelope ▸ hr₃.advances.bus.subset hon⟩
      refine ⟨⟨h₄, hothers⟩, ?_⟩
      obtain ⟨hrows, hpending, hbus, hholder⟩ := ran_markPublished hp₃ r.id a
      have hw₄ := hw₁.marked hr₃ hrows (by rw [hpending, Function.update_self]) hbus hholder
      have hseen₄ : calm → ∀ id, seen id →
          RecordSettled (outboxEngine.ran pid a (.markPublished r.id) s₃) id := by
        intro hcalm id hid
        exact (hothers (pid + 1) (Nat.succ_ne_self pid)).settled hcalm id
          (hr₃.settled hcalm id (hseen hcalm id hid))
      refine (Prog.safe_bind _ _ _ _).mpr ((ih hw₄ hseen₄).mono (fun out s' hout => ?_))
      cases out with
      | ok n =>
        obtain ⟨hn, hend⟩ := hout
        exact ⟨congrArg (· + 1) hn, hend⟩
      | error e => exact hout

/-! ## One call -/

/-- Ending a transaction releases its rows. -/
theorem holder_close_ne (s : DispatchState) (pid : ℕ) (k : Uuid) :
    (Engine.close s pid).holder k ≠ some pid := by
  show (if s.holder k = some pid then none else s.holder k) ≠ some pid
  split
  · simp
  · assumption

/-- **What a claim takes**: without failures, rows the bus has not seen. -/
theorem Dispatched.claim {calm : Prop} {s : DispatchState} (h : Dispatched calm s) {pid : ℕ}
    (hp : s.pending pid = some []) (hnone : ∀ k, s.holder k ≠ some pid) (limit : ℕ)
    (a : DispatchAnswer) :
    Dispatching calm pid [] (claimPending limit (Engine.free s pid) (outboxEngine.view s pid))
      (outboxEngine.ran pid a (.selectPending limit) s) := by
  obtain ⟨hrows, hpending, hbus, hholder⟩ := ran_selectPending hp limit a
  have hview : outboxEngine.view s pid = s.committed := by
    rw [Engine.view, hp]
    rfl
  have hmem : ∀ r ∈ claimPending limit (Engine.free s pid) (outboxEngine.view s pid),
      r ∈ s.committed ∧ r.status = .pending ∧ Engine.free s pid r.id = true := by
    intro r hr
    have hr' := mem_freePending.mp (List.mem_of_mem_take hr)
    rwa [hview] at hr'
  refine ⟨hpending ▸ hp, fun r hr => ⟨r, hrows ▸ (hmem r hr).1, rfl, rfl⟩, ?_, ?_, ?_⟩
  · have hperm : ((outboxEngine.view s pid).filter (fun r => r.status = .pending)).map
        OutboxRecord.id |>.Nodup := by
      rw [hview]
      exact h.accepted.nodup.sublist (List.filter_sublist.map _)
    have hsorted := ((List.perm_insertionSort recordLe _).map OutboxRecord.id).nodup_iff.mpr hperm
    exact hsorted.sublist (((List.take_sublist _ _).trans List.filter_sublist).map _)
  · intro hcalm r hr
    obtain ⟨hr', hs, hfree⟩ := hmem r hr
    refine ⟨fun hon => ?_, ?_⟩
    · rw [hbus] at hon
      rcases (h.once hcalm).settled r.id hon with hheld | ⟨r₀, hr₀, hid, hs₀⟩
      · rcases Engine.free_iff.mp hfree with hnot | hmine
        · exact hheld hnot
        · exact hnone r.id hmine
      · obtain rfl := List.inj_on_of_nodup_map h.accepted.nodup hr₀ hr' hid
        exact absurd (hs.symm.trans hs₀) (by decide)
    · rw [hholder, if_pos (List.mem_map_of_mem hr)]
  · intro _ k hk
    rw [hholder] at hk
    split at hk
    · rename_i hmem'
      exact .inr hmem'
    · exact absurd hk (hnone k)

/-- **A claim that finds fewer rows than it asked for has settled them all.** -/
theorem settled_of_claim {s : DispatchState} {pid : ℕ} (hp : s.pending pid = some []) {limit : ℕ}
    (hfew : (claimPending limit (Engine.free s pid) (outboxEngine.view s pid)).length < limit)
    (a : DispatchAnswer) {id : Uuid} (hid : ∃ r ∈ s.committed, r.id = id) :
    RecordSettled (outboxEngine.ran pid a (.selectPending limit) s) id := by
  obtain ⟨hrows, -, -, hholder⟩ := ran_selectPending hp limit a
  obtain ⟨r, hr, rfl⟩ := hid
  have hview : outboxEngine.view s pid = s.committed := by
    rw [Engine.view, hp]
    rfl
  cases hs : r.status with
  | published => exact .inr ⟨r, hrows ▸ hr, rfl, hs⟩
  | pending =>
    refine .inl ?_
    rw [hholder]
    split
    · simp
    · rename_i hnot
      intro hfree
      -- A free row was claimed, since there was room for it.
      have hall : claimPending limit (Engine.free s pid) (outboxEngine.view s pid)
          = freePending (Engine.free s pid) (outboxEngine.view s pid) := by
        unfold claimPending at hfew ⊢
        refine List.take_of_length_le ?_
        rw [List.length_take] at hfew
        omega
      have hmem : r ∈ freePending (Engine.free s pid) (outboxEngine.view s pid) :=
        mem_freePending.mpr ⟨hview ▸ hr, hs, Engine.free_iff.mpr (.inl hfree)⟩
      exact hnot (List.mem_map_of_mem (hall ▸ hmem))

/-- **How a call ends**: it holds nothing. Without failures it answers with a
number, and if that is below its batch size, the records it could see are
settled. -/
def CallEnd (calm : Prop) (pid batchSize : ℕ) (seen : Uuid → Prop) (r : Except PyException ℕ)
    (s : DispatchState) : Prop :=
  (∀ k, s.holder k ≠ some pid)
    ∧ (calm → ∃ n, r = .ok n ∧ (n < batchSize → ∀ id, seen id → RecordSettled s id))

/-- The commit, or the rollback, of a dispatcher. -/
theorem ends_of_rowsEnd {calm : Prop} {pid batchSize n : ℕ} {seen : Uuid → Prop}
    {r : Except PyException ℕ} {s : DispatchState}
    (h : RowsEnd calm pid (fun id => n < batchSize ∧ seen id) n r s) :
    outboxEngine.Ends pid (DispatchCalm calm pid)
      (fun a b => Dispatched calm b ∧ DispatchRespects calm pid a b)
      (fun a b => Dispatched calm b ∧ ∀ q, q ≠ pid → DispatchRespects calm q a b)
      (CallEnd calm pid batchSize seen) r s := by
  cases r with
  | ok m =>
    obtain ⟨rfl, ⟨done, hw⟩, hseen⟩ := h
    rintro s₁ ⟨h₁, hr₁⟩
    have hw₁ := hw.respects hr₁
    have hall : calm → ∀ k, s₁.holder k = some pid → k ∈ done := by
      intro hcalm k hk
      exact (hw₁.covered hcalm k hk).resolve_right List.not_mem_nil
    obtain ⟨h₂, hothers⟩ := h₁.commit hw₁.marks hall
    have hreleased : ∀ k, (outboxEngine.publish s₁ pid).holder k ≠ some pid :=
      holder_close_ne _ pid
    refine ⟨⟨⟨h₂, hothers⟩, ⟨hreleased, fun hcalm => ⟨m, rfl, fun hfew id hid => ?_⟩⟩, ?_⟩, ?_⟩
    · exact (hothers (pid + 1) (Nat.succ_ne_self pid)).settled hcalm id
        (hr₁.settled hcalm id (hseen hcalm id ⟨hfew, hid⟩))
    · exact fun hallow => ⟨hreleased, fun hcalm => absurd (hallow hcalm) (by decide)⟩
    · intro hallow
      have hnot : ¬ calm := fun hcalm => absurd (hallow hcalm) (by decide)
      obtain ⟨h₂, hothers⟩ := h₁.close hnot pid
      exact ⟨⟨h₂, hothers⟩, holder_close_ne s₁ pid, fun hcalm => absurd hcalm hnot⟩
  | error e =>
    rintro s₁ ⟨h₁, -⟩
    obtain ⟨h₂, hothers⟩ := h₁.close h pid
    exact ⟨⟨h₂, hothers⟩, holder_close_ne s₁ pid, fun hcalm => absurd hcalm h⟩

/-- **One call of `dispatch_pending`**, by a number that holds nothing. -/
theorem delivers_dispatchPending {calm : Prop} {pid : ℕ} (batchSize : ℕ) {seen : Uuid → Prop}
    {s : DispatchState} (hnone : ∀ k, s.holder k ≠ some pid)
    (hseen : ∀ id, seen id → ∃ r ∈ s.committed, r.id = id) :
    DeliversSafely calm pid (dispatchPending batchSize) (CallEnd calm pid batchSize seen) s := by
  have hnone' : ∀ {s s' : DispatchState}, (∀ k, s.holder k ≠ some pid) →
      DispatchRespects calm pid s s' → ∀ k, s'.holder k ≠ some pid :=
    fun h hr k hk => h k ((hr.apart.held k).mp hk)
  have hseen' : ∀ {s s' : DispatchState}, (∀ id, seen id → ∃ r ∈ s.committed, r.id = id) →
      OutboxAdvances s s' → ∀ id, seen id → ∃ r ∈ s'.committed, r.id = id := by
    intro s s' h hadv id hid
    obtain ⟨r, hr, hrid⟩ := h id hid
    obtain ⟨r', hr', hkept⟩ := hadv.rows r hr
    exact ⟨r', hr', hkept.id.trans hrid⟩
  refine Engine.safe_transaction ?_ ?_
  · rintro s₁ ⟨h₁, hr₁⟩ hallow
    exact ⟨⟨h₁, fun q _ => .refl calm q s₁⟩, hnone' hnone hr₁,
      fun hcalm => absurd (hallow hcalm) (by decide)⟩
  · rintro s₁ ⟨h₁, hr₁⟩
    obtain ⟨h₂, hothers₂⟩ := h₁.begin pid
    refine ⟨⟨h₂, hothers₂⟩, (Prog.safe_bind _ _ _ _).mpr (Engine.safe_stmt ?_ ?_)⟩
    · rintro s₃ ⟨h₃, -⟩ hallow
      have hnot : ¬ calm := fun hcalm => Bool.false_ne_true (hallow hcalm)
      refine ⟨⟨h₃, fun q _ => .refl calm q s₃⟩, ?_⟩
      exact ends_of_rowsEnd (n := 0) (r := .error outboxEngine.dbError) hnot
    · rintro s₃ a ⟨h₃, hr₃⟩ - hfree
      have hp₃ : s₃.pending pid = some [] := by
        rw [hr₃.apart.pending]
        exact Function.update_self ..
      have hnone₁ : ∀ k, s₁.holder k ≠ some pid := hnone' hnone hr₁
      have hseen₁ : ∀ id, seen id → ∃ r ∈ s₁.committed, r.id = id := hseen' hseen hr₁.advances
      have hnone₃ : ∀ k, s₃.holder k ≠ some pid := hnone' (s := Engine.opened s₁ pid) hnone₁ hr₃
      have hseen₃ : ∀ id, seen id → ∃ r ∈ s₃.committed, r.id = id :=
        hseen' (s := Engine.opened s₁ pid) hseen₁ hr₃.advances
      obtain ⟨h₄, hothers₄⟩ := h₃.select hp₃ batchSize a hfree
      refine ⟨⟨h₄, hothers₄⟩, ?_⟩
      have hfew : calm → ∀ id, ((claimPending batchSize (Engine.free s₃ pid)
          (outboxEngine.view s₃ pid)).length < batchSize ∧ seen id) →
            RecordSettled _ id :=
        fun _ id hid => settled_of_claim hp₃ hid.1 a (hseen₃ id hid.2)
      have hwalk := delivers_publishRows (h₃.claim hp₃ hnone₃ batchSize a) hfew
      exact hwalk.mono (fun out s' hout => ends_of_rowsEnd hout)

/-- **Inserting a record** disturbs nobody, and settles nothing. -/
theorem Dispatched.insert {calm : Prop} {s s' : DispatchState} {r : OutboxRecord}
    (h : Dispatched calm s) (hs : dispatchers.env r s = some s') :
    Dispatched calm s' ∧ ∀ q, DispatchRespects calm q s s' := by
  simp only [dispatchers] at hs
  split at hs
  · rename_i hfresh
    cases hs
    unfold insertable at hfresh
    simp only [Bool.and_eq_true, decide_eq_true_eq, List.all_eq_true] at hfresh
    obtain ⟨⟨hpending, -⟩, hunique⟩ := hfresh
    have hsettled : ∀ id, RecordSettled s id →
        RecordSettled { s with committed := s.committed ++ [r] } id := by
      intro id hid
      refine hid.imp_right ?_
      rintro ⟨r', hr', hid'⟩
      exact ⟨r', List.mem_append_left _ hr', hid'⟩
    refine ⟨⟨⟨?_, ?_, ?_⟩, fun hcalm => ⟨(h.once hcalm).nodup, fun id hid => ?_⟩⟩, fun q => ?_⟩
    · show ((s.committed ++ [r]).map OutboxRecord.id).Nodup
      rw [List.map_append, List.nodup_append]
      refine ⟨h.accepted.nodup, List.nodup_singleton _, ?_⟩
      rintro id hid _ hlast rfl
      obtain ⟨r', hr', hrid⟩ := List.mem_map.mp hid
      exact (hunique r' hr').1 (hrid.trans (List.mem_singleton.mp hlast))
    · intro r' hr' hstatus
      rcases List.mem_append.mp hr' with hr' | hr'
      · exact h.accepted.published r' hr' hstatus
      · rw [List.mem_singleton.mp hr', hpending] at hstatus
        cases hstatus
    · intro q ws hq id hid
      obtain ⟨r', hr', hon⟩ := h.accepted.marks q ws hq id hid
      exact ⟨r', List.mem_append_left _ hr', hon⟩
    · exact hsettled id ((h.once hcalm).settled id hid)
    · refine ⟨⟨fun r' hr' => ⟨r', List.mem_append_left _ hr', .refl _ r'⟩, List.prefix_refl _⟩,
        ⟨rfl, fun _ => Iff.rfl, fun _ _ => rfl, rfl⟩, fun _ => hsettled, fun _ _ _ => id⟩
  · cases hs

/-! ## Dispatchers among one another -/

theorem dispatched_start (calm : Prop) {s : DispatchState} (h : dispatchStart s) :
    Dispatched calm s ∧ ∀ q k, s.holder k ≠ some q := by
  obtain rfl := h
  refine ⟨⟨⟨List.nodup_nil, ?_, ?_⟩, fun _ => ⟨List.nodup_nil, ?_⟩⟩, fun q k => ?_⟩
  · intro r hr
    cases hr
  · intro q ws hq
    cases hq
  · intro id hid
    cases hid
  · exact nofun

/-- **Dispatchers under failures and crashes.** -/
def deliveryDiscipline : Pool.Discipline dispatchers dispatchStart (fun _ _ => True)
    (DispatchCalm False) (fun _ _ => True) where
  inv := Dispatched False
  unused := fun pid s => ∀ k, s.holder k ≠ some pid
  rely := DispatchRespects False
  post := fun pid batchSize => CallEnd False pid batchSize (fun _ => False)
  rely_refl := DispatchRespects.refl False
  rely_trans := fun _ _ _ _ => DispatchRespects.trans
  unused_rely := fun _ _ _ h hr k hk => h k ((hr.apart.held k).mp hk)
  start_ok := fun _ h => dispatched_start False h
  safe_body := fun _ _ batchSize _ _ hun =>
    delivers_dispatchPending batchSize hun (fun _ hid => absurd hid id)
  safe_crash := fun pid _ h => ⟨(h.close id pid).inv, (h.close id pid).others⟩
  safe_env := fun _ _ _ _ h hs => h.insert hs

/-- **Dispatchers when nothing fails or crashes.** -/
def calmDiscipline : Pool.Discipline dispatchers.crashless dispatchStart (fun _ _ => True)
    (DispatchCalm True) (fun _ _ => True) where
  inv := Dispatched True
  unused := fun pid s => ∀ k, s.holder k ≠ some pid
  rely := DispatchRespects True
  post := fun pid batchSize => CallEnd True pid batchSize (fun _ => False)
  rely_refl := DispatchRespects.refl True
  rely_trans := fun _ _ _ _ => DispatchRespects.trans
  unused_rely := fun _ _ _ h hr k hk => h k ((hr.apart.held k).mp hk)
  start_ok := fun _ h => dispatched_start True h
  safe_body := fun _ _ batchSize _ _ hun =>
    delivers_dispatchPending batchSize hun (fun _ hid => absurd hid id)
  safe_crash := fun _ s h => ⟨h, fun q _ => .refl True q s⟩
  safe_env := fun _ _ _ _ h hs => h.insert hs

/-- A state of the dispatchers. -/
abbrev DispatchersState :=
  Pool.State (TxOp DispatchOp) (TxRes DispatchRes) PyException DispatchState ℕ ℕ

/-- Neither a failure nor a crash: every request is served, every publication
accepted. -/
def nothingFails (w : DispatchersState) (l : Pool.Label (Choice DispatchAnswer) ℕ OutboxRecord) :
    Prop :=
  l.isLive ∧ Pool.stepOk (fun _ _ => True) (fun _ c op _ => servedOk c op = true)
    (fun _ _ => True) w l

/-- Nobody is at work. -/
def NobodyAtWork (w : DispatchersState) : Prop := ∀ pid, w.threads pid = none

theorem reach_delivery {w : DispatchersState} (h : dispatchMachine.Reach Machine.anyStep w) :
    (dispatchers.machine dispatchStart).Reach
      (Pool.stepOk (fun _ _ => True) (DispatchCalm False) (fun _ _ => True)) w := by
  refine Machine.Reach.mono (M := dispatchMachine) (fun w l _ => ?_) h
  cases l with
  | act pid c => exact fun _ _ _ _ hcalm => hcalm.elim
  | _ => trivial

/-- A condition without failures, as the discipline states it. -/
theorem stepOk_calm {w : DispatchersState} {l : Pool.Label (Choice DispatchAnswer) ℕ OutboxRecord}
    (h : nothingFails w l) : l.isLive
      ∧ Pool.stepOk (fun _ _ => True) (DispatchCalm True) (fun _ _ => True) w l :=
  ⟨h.1, h.2.mono (fun _ _ => id) (fun _ _ _ _ hs _ => hs) (fun _ _ => id)⟩

theorem reach_calm {w : DispatchersState} (h : dispatchMachine.Reach nothingFails w) :
    (dispatchers.crashless.machine dispatchStart).Reach
      (Pool.stepOk (fun _ _ => True) (DispatchCalm True) (fun _ _ => True)) w :=
  Pool.reach_crashless (Machine.Reach.mono (M := dispatchMachine) (fun _ _ => stepOk_calm) h)

theorem steps_calm {w w' : DispatchersState} (h : dispatchMachine.Steps nothingFails w w') :
    (dispatchers.crashless.machine dispatchStart).Steps
      (Pool.stepOk (fun _ _ => True) (DispatchCalm True) (fun _ _ => True)) w w' :=
  Pool.steps_crashless (Machine.Steps.mono (M := dispatchMachine) (fun _ _ => stepOk_calm) h)

/-- **Rows are kept along every run.** -/
theorem outbox_advances {w w' : DispatchersState} (h : dispatchMachine.Reach Machine.anyStep w)
    (hs : dispatchMachine.Steps Machine.anyStep w w') : OutboxAdvances w.shared w'.shared := by
  refine Machine.Steps.trans_rel (M := dispatchMachine)
    (R := fun w w' : DispatchersState => OutboxAdvances w.shared w'.shared)
    (fun _ => .refl _) (fun _ _ _ => .trans) (fun w l w' hreach _ hl => ?_) h hs
  have hok : Pool.stepOk (fun _ _ => True) (DispatchCalm False) (fun _ _ => True) w l := by
    cases l with
    | act pid c => exact fun _ _ _ _ hcalm => hcalm.elim
    | _ => trivial
  obtain ⟨q, hq⟩ := deliveryDiscipline.step_rely
    (Pool.reach_safe deliveryDiscipline (reach_delivery hreach)) hok hl
  exact hq.advances

/-- Whoever is not at work holds nothing. -/
theorem holder_of_nobodyAtWork {w : DispatchersState} (h : dispatchMachine.Reach Machine.anyStep w)
    (hrest : NobodyAtWork w) (k : Uuid) : w.shared.holder k = none := by
  have hgone := deliveryDiscipline.gone (G := fun q s => ∀ k, s.holder k ≠ some q)
    (fun q s h => h) (fun q a b h hr k hk => h k ((hr.apart.held k).mp hk))
    (fun q call r s h => h.1) (fun q s _ => holder_close_ne s q) (reach_delivery h)
  by_contra hne
  obtain ⟨q, hq⟩ := Option.ne_none_iff_exists'.mp hne
  exact hgone q (hrest q) k hq

/-- At rest, a settled record is published, and on the bus once. -/
theorem published_once {w : DispatchersState} (h : dispatchMachine.Reach nothingFails w)
    (hrest : NobodyAtWork w) {id : Uuid} (hid : RecordSettled w.shared id) :
    ∃ r ∈ w.shared.committed, r.id = id ∧ r.status = .published
      ∧ (busIds w.shared.ext).count id = 1 := by
  have hreach : dispatchMachine.Reach Machine.anyStep w := h.mono (fun _ _ _ => trivial)
  have hinv : Dispatched True w.shared := (Pool.reach_safe calmDiscipline (reach_calm h)).inv
  rcases hid with hheld | ⟨r, hr, hrid, hs⟩
  · exact absurd (holder_of_nobodyAtWork hreach hrest id) hheld
  · refine ⟨r, hr, hrid, hs, ?_⟩
    have hon : id ∈ busIds w.shared.ext :=
      hrid ▸ List.mem_map_of_mem (hinv.accepted.published r hr hs)
    exact List.count_eq_one_of_mem (hinv.once trivial).nodup hon

/-- **When nothing fails, a call settles what it could see**, if it answers with
fewer records than it asked for. -/
theorem settled_of_reply {w w₁ w' : DispatchersState} (h : dispatchMachine.Reach nothingFails w)
    {batchSize : ℕ} (hspawn : dispatchers.step w (.spawn batchSize) = some w₁)
    (hs : dispatchMachine.Steps nothingFails w₁ w') {x : Pool.Reply PyException DispatchState ℕ ℕ}
    (hx : x ∈ w'.replies) (hpid : x.pid = w.spawned) :
    ∃ n, x.outcome = .ok n ∧ (n < batchSize → ∀ r ∈ w.shared.committed,
      RecordSettled w'.shared r.id) := by
  have hgood := Pool.reach_safe calmDiscipline (reach_calm h)
  have hcall : DeliversSafely True w.spawned (dispatchPending batchSize)
      (CallEnd True w.spawned batchSize (fun id => ∃ r ∈ w.shared.committed, r.id = id))
      w.shared :=
    delivers_dispatchPending batchSize (hgood.unused w.spawned (Nat.le_refl _)) (fun _ hid => hid)
  have hreply := calmDiscipline.reply_of_spawn (reach_calm h) hcall hspawn (steps_calm hs) x hx hpid
  obtain ⟨n, hn, hsettled⟩ := hreply.2 trivial
  refine ⟨n, hn, fun hfew r hr => ?_⟩
  have hreach : (dispatchers.crashless.machine dispatchStart).Reach
      (Pool.stepOk (fun _ _ => True) (DispatchCalm True) (fun _ _ => True)) w' :=
    Machine.Reach.steps (Machine.Reach.next (l := .spawn batchSize) (reach_calm h)
      (show Pool.stepOk _ _ _ _ _ from trivial) hspawn) (steps_calm hs)
  exact (calmDiscipline.reply_rely hreach x hx).settled trivial r.id (hsettled hfew _ ⟨r, hr, rfl⟩)

/-! ## A call can be answered

With nobody else at work, nothing keeps a dispatcher from its end. -/

/-- What a dispatcher holds, it can publish. -/
theorem runs_publishRows {pid : ℕ} (rows : List OutboxRecord) {done : List Uuid}
    {s : DispatchState} (hp : s.pending pid = some done)
    (hheld : ∀ r ∈ rows, s.holder r.id = some pid) :
    ∃ s', (publishRows rows).Runs (Prog.Handled (outboxEngine.handler pid)
      (fun c op _ => servedOk c op = true)) s (.ok rows.length) s' := by
  induction rows generalizing done s with
  | nil => exact ⟨s, Prog.runs_ret 0 s⟩
  | cons r rows ih =>
    obtain ⟨-, hpending, -⟩ := ran_publish s pid .accepted r.id r.envelope
    have hp₁ : (outboxEngine.ran pid .accepted (.publish r.id r.envelope) s).pending pid
        = some done := hpending ▸ hp
    have hheld₁ : ∀ r' ∈ r :: rows,
        (outboxEngine.ran pid .accepted (.publish r.id r.envelope) s).holder r'.id = some pid := by
      intro r' hr'
      rw [ran_publish_holder]
      exact hheld r' hr'
    obtain ⟨-, hpending₂, -, hholder₂⟩ := ran_markPublished hp₁ r.id .accepted
    obtain ⟨s', hrest⟩ := ih (hpending₂.symm ▸ Function.update_self ..) (fun r' hr' => by
      rw [hholder₂]
      split
      · rfl
      · exact hheld₁ r' (List.mem_cons_of_mem r hr'))
    have hfree : (outboxEngine.locks (.markPublished r.id)
        (Engine.free (outboxEngine.ran pid .accepted (.publish r.id r.envelope) s) pid)
        (outboxEngine.view (outboxEngine.ran pid .accepted (.publish r.id r.envelope) s) pid)
        (outboxEngine.ran pid .accepted (.publish r.id r.envelope) s).ext).all
        (Engine.free (outboxEngine.ran pid .accepted (.publish r.id r.envelope) s) pid) = true := by
      show [r.id].all _ = true
      rw [List.all_cons, List.all_nil, Bool.and_true]
      exact Engine.free_iff.mpr (.inr (hheld₁ r List.mem_cons_self))
    refine ⟨s', Prog.Runs.bind (Engine.runs_stmt (a := DispatchAnswer.accepted) rfl rfl) ?_⟩
    refine Prog.Runs.bind (Engine.runs_stmt (a := DispatchAnswer.accepted) rfl hfree) ?_
    exact Prog.Runs.bind hrest (Prog.runs_ret _ s')

/-- A call can run to its end, and answers with at most the number of
records. -/
theorem runs_dispatchPending (pid batchSize : ℕ) (s : DispatchState) :
    ∃ s' n, (dispatchPending batchSize).Runs (Prog.Handled (outboxEngine.handler pid)
      (fun c op _ => servedOk c op = true)) s (.ok n) s' ∧ n ≤ s.committed.length := by
  have hp : (Engine.opened s pid).pending pid = some [] := Function.update_self ..
  have hview : outboxEngine.view (Engine.opened s pid) pid = s.committed := by
    rw [Engine.view, hp]
    rfl
  obtain ⟨-, hpending, -, hholder⟩ := ran_selectPending hp batchSize .accepted
  obtain ⟨s', hrows⟩ := runs_publishRows
    (claimPending batchSize (Engine.free (Engine.opened s pid) pid)
      (outboxEngine.view (Engine.opened s pid) pid))
    (hpending ▸ hp) (fun r hr => by rw [hholder, if_pos (List.mem_map_of_mem hr)])
  have hfree : (outboxEngine.locks (.selectPending batchSize)
      (Engine.free (Engine.opened s pid) pid) (outboxEngine.view (Engine.opened s pid) pid)
      (Engine.opened s pid).ext).all (Engine.free (Engine.opened s pid) pid) = true := by
    refine List.all_eq_true.mpr (fun k hk => ?_)
    obtain ⟨r, hr, rfl⟩ := List.mem_map.mp hk
    exact (mem_freePending.mp (List.mem_of_mem_take hr)).2.2
  have hserved : ∀ op, servedOk (.serve DispatchAnswer.accepted) op = true := fun _ => rfl
  refine ⟨_, _, Engine.runs_transaction_ok (hserved .begin)
    (Prog.Runs.bind (Engine.runs_stmt (a := DispatchAnswer.accepted) rfl hfree) hrows)
    (hserved .commit), ?_⟩
  have hlen : (claimPending batchSize (Engine.free (Engine.opened s pid) pid)
      s.committed).length ≤ s.committed.length := by
    have hsorted := (List.perm_insertionSort recordLe
      (s.committed.filter (fun r => r.status = .pending))).length_eq
    calc (claimPending batchSize (Engine.free (Engine.opened s pid) pid) s.committed).length
        ≤ (freePending (Engine.free (Engine.opened s pid) pid) s.committed).length :=
          List.length_take_le' _ _
      _ ≤ ((s.committed.filter (fun r => r.status = .pending)).insertionSort recordLe).length :=
          List.length_filter_le _ _
      _ ≤ s.committed.length := hsorted.trans_le (List.length_filter_le _ _)
  rwa [hview]

/-- **From any state at rest a call can publish everything.** -/
theorem can_publish {w : DispatchersState} (h : dispatchMachine.Reach nothingFails w)
    (hrest : NobodyAtWork w) : ∃ w', dispatchMachine.Steps nothingFails w w' ∧ NobodyAtWork w'
      ∧ ∀ r ∈ w.shared.committed, ∃ r' ∈ w'.shared.committed, r'.id = r.id
        ∧ r'.status = .published ∧ (busIds w'.shared.ext).count r.id = 1 := by
  obtain ⟨s', n, hrun, hn⟩ :=
    runs_dispatchPending w.spawned (w.shared.committed.length + 1) w.shared
  have hfine : ∀ (v : DispatchersState) c op k,
      v.threads w.spawned = some (w.shared.committed.length + 1, .call op k) →
      servedOk c op = true → nothingFails v (.act w.spawned c) := by
    intro v c op k hth hc
    refine ⟨trivial, fun call' op' k' hth' => ?_⟩
    rw [hth] at hth'
    cases hth'
    exact hc
  obtain ⟨w', hsteps, -, hthreads, hreplies⟩ := Pool.steps_of_runs (P := dispatchers)
    dispatchStart (fun _ c op _ => servedOk c op = true)
    (w := { w with spawned := w.spawned + 1 }) hfine hrun
  have hfirst : dispatchMachine.Next nothingFails w _ :=
    ⟨.spawn (w.shared.committed.length + 1), ⟨trivial, trivial⟩, rfl⟩
  have hrest' : NobodyAtWork w' := by
    intro pid
    rw [hthreads]
    by_cases hpid : pid = w.spawned
    · rw [hpid, Function.update_self]
    · rw [Function.update_of_ne hpid]
      exact hrest pid
  have hall : dispatchMachine.Steps nothingFails w w' := hsteps.head hfirst
  refine ⟨w', hall, hrest', fun r hr => ?_⟩
  have hspawn : dispatchers.step w (.spawn (w.shared.committed.length + 1)) = some _ := rfl
  obtain ⟨m, hm, hsettled⟩ := settled_of_reply h hspawn hsteps
    (x := ⟨w.spawned, w.shared.committed.length + 1, .ok n, s'⟩)
    (by rw [hreplies]; exact List.mem_append_right _ List.mem_cons_self) rfl
  obtain rfl := Except.ok.inj hm
  exact published_once (h.steps hall) hrest' (hsettled (Nat.lt_succ_of_le hn) r hr)

/-! ## The promise -/

/-- Every record of `w` is published in `w'`, and has been published exactly
once. -/
def PublishedOnce (w w' : DispatchersState) : Prop :=
  ∀ r ∈ w.shared.committed, ∃ r' ∈ w'.shared.committed, r'.id = r.id ∧ r'.status = .published
    ∧ (busIds w'.shared.ext).count r.id = 1

/-- **What the Outbox delivers.** Whatever fails or crashes, a published record's
envelope is on the bus, and a record leaves `pending` in no other way. When
nothing fails, no record is on the bus twice; a call that answers with fewer
records than it asked for leaves, once nobody is at work, every record of its
arrival published exactly once; and from rest such a call can be made. -/
theorem outbox_delivery {w w' : DispatchersState} (h : dispatchMachine.Reach Machine.anyStep w)
    (hs : dispatchMachine.Steps Machine.anyStep w w') :
    (∀ r ∈ w'.shared.committed, r.status = .published → ⟨r.id, r.envelope⟩ ∈ w'.shared.ext)
      ∧ (∀ r ∈ w.shared.committed, ∃ r' ∈ w'.shared.committed, r.Kept w'.shared.ext r')
      ∧ (dispatchMachine.Reach nothingFails w →
          (busIds w.shared.ext).Nodup
          ∧ (NobodyAtWork w → ∃ w'', dispatchMachine.Steps nothingFails w w'' ∧ NobodyAtWork w''
            ∧ PublishedOnce w w'')
          ∧ ∀ batchSize w₁ x, dispatchers.step w (.spawn batchSize) = some w₁ →
            dispatchMachine.Steps nothingFails w₁ w' → x ∈ w'.replies → x.pid = w.spawned →
            ∃ n, x.outcome = .ok n ∧ (n < batchSize → NobodyAtWork w' → PublishedOnce w w')) := by
  have hend : Dispatched False w'.shared :=
    (Pool.reach_safe deliveryDiscipline (reach_delivery (h.steps hs))).inv
  refine ⟨hend.accepted.published, (outbox_advances h hs).rows, fun hcalm => ⟨?_, ?_, ?_⟩⟩
  · have hinv : Dispatched True w.shared := (Pool.reach_safe calmDiscipline (reach_calm hcalm)).inv
    exact (hinv.once trivial).nodup
  · exact can_publish hcalm
  · intro batchSize w₁ x hspawn hsteps hx hpid
    obtain ⟨n, hn, hsettled⟩ := settled_of_reply hcalm hspawn hsteps hx hpid
    refine ⟨n, hn, fun hfew hrest r hr => ?_⟩
    have hreach : dispatchMachine.Reach nothingFails w' :=
      Machine.Reach.steps (Machine.Reach.next (l := .spawn batchSize) hcalm
        (show nothingFails _ _ from ⟨trivial, trivial⟩) hspawn) hsteps
    exact published_once hreach hrest (hsettled hfew r hr)

/-- Test for `nothingFails`. -/
def nothingFailsTest (w : DispatchersState)
    (l : Pool.Label (Choice DispatchAnswer) ℕ OutboxRecord) : Bool :=
  match l with
  | .crash _ => false
  | l => Pool.actTest (fun _ c op _ => servedOk c op) w l

theorem nothingFails_of_test (w : DispatchersState)
    (l : Pool.Label (Choice DispatchAnswer) ℕ OutboxRecord) (h : nothingFailsTest w l = true) :
    nothingFails w l := by
  cases l with
  | crash pid => cases h
  | spawn batchSize => exact ⟨trivial, trivial⟩
  | env r => exact ⟨trivial, trivial⟩
  | act pid c =>
    exact ⟨trivial, Pool.stepOk_of_actTest (fun _ _ _ _ hserved => hserved) w (.act pid c) h⟩

/-- Two records, and a call that publishes both. -/
theorem outbox_delivery_twoRecords :
    ∃ w w', dispatchMachine.Reach nothingFails w ∧ w.shared.committed.map OutboxRecord.id = [1, 2]
      ∧ PublishedOnce w w' := by
  have hrun : (dispatchMachine.runIf nothingFailsTest (Pool.idle (Engine.quiet [] []))
      twoRanges).bind (fun w => (dispatchers.step w (.spawn 5)).bind (fun w₁ =>
        (dispatchMachine.runIf nothingFailsTest w₁ [served 0, served 0, served 0, served 0,
          served 0, served 0, served 0]).map (fun w' => decide (
            w.shared.committed.map OutboxRecord.id = [1, 2] ∧ w.spawned = 0
              ∧ w'.spawned = 1 ∧ (w'.threads 0).isNone = true
              ∧ w'.replies.map (fun x => (x.pid, x.outcome.toOption)) = [(0, some 2)]))))
      = some true := by
    decide +kernel
  have hinit : dispatchMachine.init (Pool.idle (Engine.quiet [] [])) := ⟨_, rfl, rfl⟩
  obtain ⟨w, hw, hrun⟩ := Option.bind_eq_some_iff.mp hrun
  obtain ⟨w₁, hspawn, hrun⟩ := Option.bind_eq_some_iff.mp hrun
  obtain ⟨w', hw', htest⟩ := Option.map_eq_some_iff.mp hrun
  obtain ⟨hids, hspawned, hspawned', hdone, hreplies⟩ := of_decide_eq_true htest
  have hcalm : dispatchMachine.Reach nothingFails w :=
    (Machine.Reach.of_init hinit).steps (Machine.steps_of_runIf nothingFails_of_test hw)
  have hsteps : dispatchMachine.Steps nothingFails w₁ w' :=
    Machine.steps_of_runIf nothingFails_of_test hw'
  have hall : dispatchMachine.Steps nothingFails w w' :=
    hsteps.head ⟨.spawn 5, ⟨trivial, trivial⟩, hspawn⟩
  have hrest : NobodyAtWork w' := by
    intro pid
    by_contra hne
    have hlt := (Pool.reach_orderly (hcalm.steps hall)).arrived pid hne
    obtain rfl : pid = 0 := by omega
    exact hne (Option.isNone_iff_eq_none.mp hdone)
  obtain ⟨x, hx, hxid⟩ : ∃ x ∈ w'.replies, (x.pid, x.outcome.toOption) = (0, some 2) :=
    List.mem_map.mp (by rw [hreplies]; exact List.mem_cons_self)
  obtain ⟨hpid, hout⟩ := Prod.mk.inj hxid
  obtain ⟨-, -, honce⟩ := outbox_delivery (hcalm.mono (fun _ _ _ => trivial))
    (Machine.Steps.mono (M := dispatchMachine) (fun _ _ _ => trivial) hall)
  obtain ⟨n, hn, hpub⟩ := (honce hcalm).2.2 5 w₁ x hspawn hsteps hx (hpid.trans hspawned.symm)
  refine ⟨w, w', hcalm, hids, hpub ?_ hrest⟩
  rw [hn] at hout
  obtain rfl := Option.some.inj hout
  decide
