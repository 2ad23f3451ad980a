import AgentPlatform.ExecutionConsumer

/-!
# The consumer never skips a record

Position, committed offset and failure counts move independently of one
another, and a fetch moves the position before anything is known about the
record. What holds them together is a *front* for each partition: every record
below it has been handled or dead-lettered, and nothing beyond it has been
committed. Between two calls the front is the position itself; while a record
is in progress it is the offset of that record; and after a crash, which loses
the position, it can still be taken to be the committed offset.
-/

/-- A dead letter that carries a record: where it came from, its bytes, and
how often it had failed. -/
structure DeadLetter.Carries (d : DeadLetter) (tp : TopicPartition) (offset : ℕ)
    (value : Option (List UInt8)) : Prop where
  topic : d.sourceTopic = tp.topic
  partition : d.sourcePartition = tp.partition
  offset : d.sourceOffset = offset
  bytes : Base64.decode d.payloadBase64.toList = some (value.getD [])

/-- **A record is accounted for**: it was handled without an exception, or it
was dead-lettered with its bytes after `attempts` failures. -/
def AccountedFor (attempts : ℕ) (tp : TopicPartition) (offset : ℕ)
    (value : Option (List UInt8)) (history : List BusEvent) : Prop :=
  BusEvent.handled tp offset ∈ history
    ∨ ∃ before letter after, history = before ++ BusEvent.deadLettered letter :: after
      ∧ letter.Carries tp offset value ∧ attempts ≤ before.count (.failed tp offset)

theorem AccountedFor.append {attempts : ℕ} {tp : TopicPartition} {offset : ℕ}
    {value : Option (List UInt8)} {history : List BusEvent}
    (h : AccountedFor attempts tp offset value history) (e : BusEvent) :
    AccountedFor attempts tp offset value (history ++ [e]) := by
  rcases h with h | ⟨before, letter, after, rfl, hcarries, hcount⟩
  · exact .inl (List.mem_append_left _ h)
  · exact .inr ⟨before, letter, after ++ [e], by simp, hcarries, hcount⟩

/-- The dead letter of a record carries it. -/
theorem deadLetterOf_carries (tp : TopicPartition) (record : KafkaRecord) (attempts : ℕ)
    (errorType : String) :
    (deadLetterOf tp record attempts errorType).Carries tp record.offset record.value where
  topic := rfl
  partition := rfl
  offset := rfl
  bytes := by
    unfold deadLetterOf
    rw [String.toList_ofList]
    exact Base64.decode_encode _

section Front

variable (attempts : ℕ) (log : KafkaLog) (start : TopicPartition → ℕ)

/-- **The front of the consumer.** -/
structure Front (s : ConsumerState) (front : TopicPartition → ℕ) : Prop where
  committed_le : ∀ tp, s.committed tp ≤ front tp
  accounted : ∀ tp offset value, start tp ≤ offset → offset < front tp →
    log tp offset = some value → AccountedFor attempts tp offset value s.history
  counted : ∀ tp offset, s.failureAttempts (tp, offset) ≤ s.history.count (.failed tp offset)

/-- Between two calls. -/
def Idle (s : ConsumerState) : Prop := Front attempts log start s s.position

/-- At any moment. -/
def Torn (s : ConsumerState) : Prop := ∃ front, Front attempts log start s front

/-- A record has been fetched: it is the first that is not accounted for. -/
structure Fetched (tp : TopicPartition) (record : KafkaRecord) (s : ConsumerState) : Prop where
  found : log tp record.offset = some record.value
  position : s.position tp = record.offset + 1
  front : Front attempts log start s (Function.update s.position tp record.offset)

/-- The fetched record is accounted for. -/
structure Cleared (tp : TopicPartition) (record : KafkaRecord) (s : ConsumerState) : Prop where
  position : s.position tp = record.offset + 1
  front : Front attempts log start s s.position

end Front

section Progress

variable {attempts : ℕ} {log : KafkaLog} {start : TopicPartition → ℕ}
  {tp : TopicPartition} {record : KafkaRecord} {s : ConsumerState}

theorem Front.torn {front : TopicPartition → ℕ} (h : Front attempts log start s front) :
    Torn attempts log start s := ⟨front, h⟩

/-- Accounting for the fetched record moves the front past it. -/
theorem Fetched.clear (h : Fetched attempts log start tp record s)
    {history : List BusEvent}
    (hold : ∀ tp offset value, AccountedFor attempts tp offset value s.history →
      AccountedFor attempts tp offset value history)
    (hcount : ∀ tp offset,
      s.history.count (.failed tp offset) ≤ history.count (.failed tp offset))
    (hnew : AccountedFor attempts tp record.offset record.value history) :
    Cleared attempts log start tp record { s with history := history } := by
  refine ⟨h.position, ?_, ?_, ?_⟩
  · intro tp'
    refine (h.front.committed_le tp').trans ?_
    by_cases htp : tp' = tp
    · subst htp
      rw [Function.update_self, h.position]
      exact Nat.le_succ _
    · rw [Function.update_of_ne htp]
  · intro tp' offset value hstart hlt hlog
    by_cases hlast : tp' = tp ∧ offset = record.offset
    · obtain ⟨rfl, rfl⟩ := hlast
      rw [h.found] at hlog
      cases hlog
      exact hnew
    · refine hold _ _ _ (h.front.accounted tp' offset value hstart ?_ hlog)
      by_cases htp : tp' = tp
      · subst htp
        have hlt' : offset < record.offset + 1 := h.position ▸ hlt
        have hne : offset ≠ record.offset := fun ho => hlast ⟨rfl, ho⟩
        rw [Function.update_self]
        omega
      · rw [Function.update_of_ne htp]
        exact hlt
  · intro tp' offset
    exact (h.front.counted tp' offset).trans (hcount tp' offset)

/-- Giving a fetched record back leaves the front at it. -/
theorem Fetched.seek (h : Fetched attempts log start tp record s) :
    Idle attempts log start
      { s with position := Function.update s.position tp record.offset } :=
  ⟨h.front.committed_le, h.front.accounted, h.front.counted⟩

/-- One more failure of the fetched record is counted. -/
theorem Fetched.countFailure (h : Fetched attempts log start tp record s) :
    Fetched attempts log start tp record
      { s with
        failureAttempts := Function.update s.failureAttempts (tp, record.offset)
          (s.failureAttempts (tp, record.offset) + 1)
        history := s.history ++ [.failed tp record.offset] } := by
  refine ⟨h.found, h.position, h.front.committed_le, ?_, ?_⟩
  · intro tp' offset value hstart hlt hlog
    exact (h.front.accounted tp' offset value hstart hlt hlog).append _
  · intro tp' offset
    have hold := h.front.counted tp' offset
    show Function.update s.failureAttempts (tp, record.offset) _ (tp', offset)
      ≤ (s.history ++ [BusEvent.failed tp record.offset]).count (BusEvent.failed tp' offset)
    rw [List.count_append]
    by_cases hkey : (tp', offset) = (tp, record.offset)
    · cases hkey
      rw [Function.update_self, List.count_singleton_self]
      exact Nat.succ_le_succ hold
    · rw [Function.update_of_ne hkey]
      exact hold.trans (Nat.le_add_right _ _)

/-- Committing past a record that is accounted for. -/
theorem Cleared.commit (h : Cleared attempts log start tp record s) :
    Cleared attempts log start tp record
      { s with committed := Function.update s.committed tp (record.offset + 1) } := by
  refine ⟨h.position, ?_, h.front.accounted, h.front.counted⟩
  intro tp'
  show Function.update s.committed tp (record.offset + 1) tp' ≤ s.position tp'
  by_cases htp : tp' = tp
  · subst htp
    rw [Function.update_self, h.position]
  · rw [Function.update_of_ne htp]
    exact h.front.committed_le tp'

/-- Forgetting failures makes no count too high. -/
theorem Cleared.forget (h : Cleared attempts log start tp record s) (key : TopicPartition × ℕ) :
    Cleared attempts log start tp record
      { s with failureAttempts := Function.update s.failureAttempts key 0 } := by
  refine ⟨h.position, h.front.committed_le, h.front.accounted, ?_⟩
  intro tp' offset
  show Function.update s.failureAttempts key 0 (tp', offset) ≤ _
  by_cases hkey : (tp', offset) = key
  · rw [hkey, Function.update_self]
    exact Nat.zero_le _
  · rw [Function.update_of_ne hkey]
    exact h.front.counted tp' offset

/-! ## The parts of a call -/

variable {Envelope : Type} {k : KafkaExecutionConsumer Envelope} {α : Type}

/-- What every request of the consumer does: it keeps some front, and commits
only forwards. -/
def Advances (attempts : ℕ) (log : KafkaLog) (start : TopicPartition → ℕ)
    (s s' : ConsumerState) : Prop :=
  Torn attempts log start s' ∧ ∀ tp, s.committed tp ≤ s'.committed tp

/-- Safety of a part of a call, with nothing interfering. -/
abbrev ConsumerSafe (attempts : ℕ) (log : KafkaLog) (start : TopicPartition → ℕ)
    (p : ConsumerProg Envelope α) (Q : Except PyException α → ConsumerState → Prop)
    (s : ConsumerState) : Prop :=
  p.Safe (Prog.Handled (serveConsumer log) (fun _ _ _ => True)) Eq
    (Advances attempts log start) Q s

/-- What must hold when a call ends with an exception: one that ends the
process may leave the position behind. -/
def Stops (attempts : ℕ) (log : KafkaLog) (start : TopicPartition → ℕ) (e : PyException)
    (s : ConsumerState) : Prop :=
  if !e.isException then Torn attempts log start s else Idle attempts log start s

/-- What a call must end with. -/
abbrev CallEnds (attempts : ℕ) (log : KafkaLog) (start : TopicPartition → ℕ) :
    Except PyException α → ConsumerState → Prop :=
  Prog.outcome (fun _ => Idle attempts log start) (Stops attempts log start)

/-- A call may end with any exception between two records. -/
theorem Stops.of_idle (h : Idle attempts log start s) (e : PyException) :
    Stops attempts log start e s := by
  unfold Stops
  cases e.isException with
  | true => exact h
  | false => exact Front.torn h

/-- A call may end anywhere with an exception that ends the process. -/
theorem Stops.of_torn (h : Torn attempts log start s) {e : PyException}
    (he : e.isException = false) : Stops attempts log start e s := by
  unfold Stops
  rw [he]
  exact h

/-- **Request rule.** -/
theorem ConsumerSafe.ask {op : ConsumerOp Envelope}
    {Q : Except PyException (ConsumerRes op) → ConsumerState → Prop}
    (h : ∀ c r s', serveConsumer log c op s = some (r, s') →
      Advances attempts log start s s' ∧ Q r s') :
    ConsumerSafe attempts log start op.ask Q s := by
  refine (Prog.safe_perform op Q s).mpr ?_
  rintro s₁ rfl r s' ⟨c, -, hc⟩
  exact h c r s' hc

/-- A record that is given back ends its call. -/
theorem safe_giveBack (h : Fetched attempts log start tp record s) (e : PyException)
    {P : α → ConsumerState → Prop} :
    ConsumerSafe attempts log start
      ((ConsumerOp.ask (.seek tp record.offset)).bind
        (fun _ => (.raise e : ConsumerProg Envelope α)))
      (Prog.outcome P (Stops attempts log start)) s := by
  refine (Prog.safe_bind _ _ _ _).mpr (ConsumerSafe.ask (fun c r s' hc => ?_))
  cases c <;> cases hc
  exact ⟨⟨Front.torn h.seek, fun _ => le_rfl⟩, Stops.of_idle h.seek e⟩

/-- A record that is accounted for is committed and forgotten. -/
theorem safe_recordHandled (h : Cleared attempts log start tp record s) :
    ConsumerSafe attempts log start (recordHandled tp record : ConsumerProg Envelope Bool)
      (CallEnds attempts log start) s := by
  have hforward : ∀ tp', s.committed tp'
      ≤ Function.update s.committed tp (record.offset + 1) tp' := by
    intro tp'
    by_cases htp : tp' = tp
    · subst htp
      rw [Function.update_self, ← h.position]
      exact h.front.committed_le tp'
    · rw [Function.update_of_ne htp]
  refine (Prog.safe_bind _ _ _ _).mpr (ConsumerSafe.ask (fun c r s' hc => ?_))
  cases c with
  | fetched before found after => cases hc
  | raised e =>
    cases hc
    exact ⟨⟨h.front.torn, fun _ => le_rfl⟩, Stops.of_idle h.front e⟩
  | lost e =>
    cases hc
    exact ⟨⟨h.commit.front.torn, hforward⟩, Stops.of_idle h.commit.front e⟩
  | done =>
    cases hc
    refine ⟨⟨h.commit.front.torn, hforward⟩, ?_⟩
    refine (Prog.safe_bind _ _ _ _).mpr (ConsumerSafe.ask (fun c r s' hc => ?_))
    cases c <;> cases hc
    have hforget := h.commit.forget (tp, record.offset)
    exact ⟨⟨hforget.front.torn, fun _ => le_rfl⟩, hforget.front⟩

/-- A record that has failed often enough. -/
theorem Fetched.deadLetter (h : Fetched attempts log start tp record s) (n : ℕ)
    (errorType : String) (hcount : attempts ≤ s.history.count (.failed tp record.offset)) :
    Cleared attempts log start tp record
      { s with history := s.history
          ++ [.deadLettered (deadLetterOf tp record n errorType)] } := by
  refine h.clear (fun _ _ _ hold => hold.append _) (fun tp' offset => ?_) ?_
  · rw [List.count_append]
    exact Nat.le_add_right _ _
  · exact .inr ⟨s.history, _, [], rfl, deadLetterOf_carries tp record n errorType, hcount⟩

/-- Publishing a dead letter: the record is accounted for, or it is given
back. A publication that raised after it took effect is made again. -/
theorem safe_publishDeadLetter (h : Fetched attempts log start tp record s) (n : ℕ)
    (e : PyException) (hcount : attempts ≤ s.history.count (.failed tp record.offset)) :
    ConsumerSafe attempts log start
      (publishDeadLetter tp record n e : ConsumerProg Envelope Unit)
      (Prog.outcome (fun _ => Cleared attempts log start tp record) (Stops attempts log start))
      s := by
  have hdone := h.deadLetter n e.typeName hcount
  have hagain : Fetched attempts log start tp record
      { s with history := s.history
          ++ [.deadLettered (deadLetterOf tp record n e.typeName)] } := by
    refine ⟨h.found, h.position, h.front.committed_le, ?_, ?_⟩
    · intro tp' offset value hstart hlt hlog
      exact (h.front.accounted tp' offset value hstart hlt hlog).append _
    · intro tp' offset
      refine (h.front.counted tp' offset).trans ?_
      rw [List.count_append]
      exact Nat.le_add_right _ _
  refine (Prog.safe_tryCatch _ _ _ _).mpr (ConsumerSafe.ask (fun c r s' hc => ?_))
  cases c with
  | fetched before found after => cases hc
  | done =>
    cases hc
    exact ⟨⟨hdone.front.torn, fun _ => le_rfl⟩, hdone⟩
  | raised e' =>
    cases hc
    exact ⟨⟨h.front.torn, fun _ => le_rfl⟩, failed h e'⟩
  | lost e' =>
    cases hc
    exact ⟨⟨hagain.front.torn, fun _ => le_rfl⟩, failed hagain e'⟩
where
  failed {s : ConsumerState} (h : Fetched attempts log start tp record s) (e' : PyException) :
      ConsumerSafe attempts log start
        (do
          if e'.isException then ConsumerOp.ask (.seek tp record.offset)
          throw e' : ConsumerProg Envelope Unit)
        (Prog.outcome (fun _ => Cleared attempts log start tp record)
          (Stops attempts log start)) s := by
    cases he : e'.isException with
    | true => exact safe_giveBack h e'
    | false => exact Stops.of_torn h.front.torn he

/-- A record that failed: it is given back, or it has failed often enough for
the dead-letter topic. -/
theorem safe_recordFailed (h : Fetched k.maxDeliveryAttempts log start tp record s)
    (e : PyException) :
    ConsumerSafe k.maxDeliveryAttempts log start (recordFailed k tp record e)
      (CallEnds k.maxDeliveryAttempts log start) s := by
  refine (Prog.safe_bind _ _ _ _).mpr (ConsumerSafe.ask (fun c r s' hc => ?_))
  cases c <;> cases hc
  have hfailed := h.countFailure
  refine ⟨⟨hfailed.front.torn, fun _ => le_rfl⟩, ?_⟩
  show ConsumerSafe k.maxDeliveryAttempts log start (ite _ _ _) _ _
  split
  · rename_i hmax
    -- The count in memory is one of this process alone, the history has them all.
    have hcounted := hfailed.front.counted tp record.offset
    simp only [Function.update_self] at hcounted
    have hcount := hmax.2.trans hcounted
    refine (Prog.safe_bind _ _ _ _).mpr
      ((safe_publishDeadLetter hfailed _ e hcount).mono (fun r s' hr => ?_))
    cases r with
    | ok _ => exact safe_recordHandled hr
    | error e' => exact hr
  · exact safe_giveBack hfailed e

/-- **One record**, whatever becomes of it. -/
theorem safe_processRecord (h : Fetched k.maxDeliveryAttempts log start tp record s) :
    ConsumerSafe k.maxDeliveryAttempts log start (processRecord k tp record)
      (CallEnds k.maxDeliveryAttempts log start) s := by
  refine (Prog.safe_bind _ _ _ _).mpr ((Prog.safe_capture _ _ _ _).mpr
    ((safe_deliver h).mono (fun r s' hr => ?_)))
  cases r with
  | ok _ => exact safe_recordHandled hr
  | error e =>
    show ConsumerSafe k.maxDeliveryAttempts log start (ite _ _ _) _ _
    split
    · exact safe_recordFailed hr e
    · exact safe_giveBack hr e
where
  safe_deliver {s : ConsumerState}
      (h : Fetched k.maxDeliveryAttempts log start tp record s) :
      ConsumerSafe k.maxDeliveryAttempts log start (deliver k tp record)
        (Prog.outcome (fun _ => Cleared k.maxDeliveryAttempts log start tp record)
          (fun _ => Fetched k.maxDeliveryAttempts log start tp record)) s := by
    unfold deliver
    split
    · exact h
    · split
      · exact h
      · refine ConsumerSafe.ask (fun c r s' hc => ?_)
        cases c with
        | fetched before found after => cases hc
        | lost e => cases hc
        | raised e =>
          cases hc
          exact ⟨⟨h.front.torn, fun _ => le_rfl⟩, h⟩
        | done =>
          cases hc
          have hclear : Cleared k.maxDeliveryAttempts log start tp record
              { s with history := s.history ++ [.handled tp record.offset] } := by
            refine h.clear (fun _ _ _ hold => hold.append _) (fun tp' offset => ?_) ?_
            · rw [List.count_append]
              exact Nat.le_add_right _ _
            · exact .inl (by simp)
          exact ⟨⟨hclear.front.torn, fun _ => le_rfl⟩, hclear⟩

/-- Empty batches are passed over. -/
theorem processBatches_empty (tps : List TopicPartition)
    (batches : List (TopicPartition × List KafkaRecord)) :
    processBatches k (emptyBatches tps ++ batches) = processBatches k batches := by
  induction tps with
  | nil => rfl
  | cons tp tps ih => exact ih

/-- What a fetch finds: nothing, or the first record that is not accounted
for. -/
theorem fetch_cases (h : Idle attempts log start s) {before after : List TopicPartition}
    {found : Option (TopicPartition × ℕ)} {s' : ConsumerState}
    {batches : List (TopicPartition × List KafkaRecord)}
    (hf : fetch log before found after s = some (batches, s')) :
    (batches = emptyBatches before ++ emptyBatches after ∧ s' = s)
      ∨ ∃ tp record, batches = emptyBatches before ++ (tp, [record]) :: emptyBatches after
        ∧ Fetched attempts log start tp record s' ∧ s'.committed = s.committed := by
  unfold fetch at hf
  cases found with
  | none =>
    cases hf
    exact .inl ⟨rfl, rfl⟩
  | some p =>
    obtain ⟨tp, offset⟩ := p
    simp only at hf
    cases hlog : log tp offset with
    | none =>
      rw [hlog] at hf
      cases hf
    | some value =>
      rw [hlog] at hf
      simp only at hf
      split at hf
      · rename_i hnext
        cases hf
        refine .inr ⟨tp, ⟨offset, value⟩, rfl, ⟨hlog, ?_, ?_, ?_, h.counted⟩, rfl⟩
        · show Function.update s.position tp (offset + 1) tp = offset + 1
          rw [Function.update_self]
        · intro tp'
          show s.committed tp' ≤ Function.update (Function.update s.position tp _) tp offset tp'
          by_cases htp : tp' = tp
          · subst htp
            rw [Function.update_self]
            exact (h.committed_le tp').trans hnext.1
          · rw [Function.update_of_ne htp, Function.update_of_ne htp]
            exact h.committed_le tp'
        · intro tp' o v hstart hlt ho
          refine h.accounted tp' o v hstart ?_ ho
          by_cases htp : tp' = tp
          · subst htp
            -- A record between the position and the one fetched would have been fetched.
            by_contra hpos
            rw [Function.update_self] at hlt
            rw [hnext.2 o hlt (Nat.le_of_not_lt hpos)] at ho
            cases ho
          · simp only [Function.update_of_ne htp] at hlt
            exact hlt
      · cases hf

/-- **One call of `process_once`.** -/
theorem safe_processOnce (h : Idle k.maxDeliveryAttempts log start s) :
    ConsumerSafe k.maxDeliveryAttempts log start (processOnce k)
      (CallEnds k.maxDeliveryAttempts log start) s := by
  refine (Prog.safe_bind _ _ _ _).mpr (ConsumerSafe.ask (fun c r s' hc => ?_))
  cases c with
  | done => cases hc
  | lost e => cases hc
  | raised e =>
    cases hc
    exact ⟨⟨Front.torn h, fun _ => le_rfl⟩, Stops.of_idle h e⟩
  | fetched before found after =>
    obtain ⟨⟨batches, s₁⟩, hf, heq⟩ := Option.map_eq_some_iff.mp hc
    cases heq
    rcases fetch_cases h hf with ⟨rfl, rfl⟩ | ⟨tp, record, rfl, hfetched, hcommitted⟩
    · refine ⟨⟨Front.torn h, fun _ => le_rfl⟩, ?_⟩
      show ConsumerSafe k.maxDeliveryAttempts log start (processBatches k _) _ _
      rw [processBatches_empty, ← List.append_nil (emptyBatches after), processBatches_empty]
      exact h
    · refine ⟨⟨hfetched.front.torn, fun tp => (congrFun hcommitted tp).ge⟩, ?_⟩
      show ConsumerSafe k.maxDeliveryAttempts log start (processBatches k _) _ _
      rw [processBatches_empty]
      exact safe_processRecord hfetched

/-- **The process keeps its front.** -/
theorem consumer_keeps (k : KafkaExecutionConsumer Envelope) (log : KafkaLog)
    (start : TopicPartition → ℕ) :
    (consumerServer k log).Keeps (Idle k.maxDeliveryAttempts log start)
      (Torn k.maxDeliveryAttempts log start)
      (fun s s' => ∀ tp, s.committed tp ≤ s'.committed tp) where
  refl := fun _ _ => le_rfl
  trans := fun _ _ _ hab hbc tp => (hab tp).trans (hbc tp)
  torn_of_idle := fun _ h => Front.torn h
  restart := by
    rintro s ⟨front, h⟩
    refine ⟨⟨fun _ => le_rfl, ?_, fun _ _ => Nat.zero_le _⟩, fun _ => le_rfl⟩
    intro tp offset value hstart hlt hlog
    exact h.accounted tp offset value hstart (lt_of_lt_of_le hlt (h.committed_le tp)) hlog
  body := by
    intro s h
    refine (safe_processOnce h).mono (fun r s' hr => ?_)
    cases r with
    | ok _ => exact hr
    | error e => exact hr

end Progress

/-- The states a consumer starts in: nothing has happened yet, and each
partition is read from its committed offset on. -/
def consumerStart (start : TopicPartition → ℕ) (s : ConsumerState) : Prop :=
  s.committed = start ∧ s.position = start ∧ s.history = []
    ∧ s.failureAttempts = fun _ => 0

/-- **The consumer never skips a record.** In every run of the process – with
any pattern of failing fetches, decodings, handlers, publications and commits,
of cancellations, crashes and restarts – every record below the committed
offset of its partition, from where the run started on, was handled without an
exception or was dead-lettered with its bytes after the configured number of
failures; and committed offsets never decrease. -/
theorem consumer_never_skips {Envelope : Type} (k : KafkaExecutionConsumer Envelope)
    (log : KafkaLog) (start : TopicPartition → ℕ)
    (w : Server.State (ConsumerOp Envelope) ConsumerRes PyException ConsumerState Bool)
    (hw : ((consumerServer k log).machine (consumerStart start)).Reach Machine.anyStep w) :
    (∀ tp offset value, start tp ≤ offset → offset < w.shared.committed tp →
        log tp offset = some value →
        AccountedFor k.maxDeliveryAttempts tp offset value w.shared.history)
      ∧ ∀ w', ((consumerServer k log).machine (consumerStart start)).Steps Machine.anyStep w w' →
        ∀ tp, w.shared.committed tp ≤ w'.shared.committed tp := by
  have hstart : ∀ s, consumerStart start s → Idle k.maxDeliveryAttempts log start s := by
    rintro s ⟨hcommitted, hposition, hhistory, hcounts⟩
    refine ⟨fun tp => ?_, fun tp offset value hs hlt => ?_, fun tp offset => ?_⟩
    · rw [hcommitted, hposition]
    · rw [hposition] at hlt
      exact absurd hs (Nat.not_le_of_lt hlt)
    · rw [hcounts]
      exact Nat.zero_le _
  have hkeeps := consumer_keeps k log start
  refine ⟨?_, fun w' hsteps => hkeeps.steps hstart hw hsteps⟩
  obtain ⟨⟨front, hfront⟩, -⟩ := hkeeps.reach hstart hw
  intro tp offset value hs hlt hlog
  exact hfront.accounted tp offset value hs (lt_of_lt_of_le hlt (hfront.committed_le tp)) hlog

/-- A consumer that gives a record two deliveries, and reads no record. -/
def strictConsumer : KafkaExecutionConsumer Unit where
  maxDeliveryAttempts := 2
  maxDeliveryAttempts_pos := by decide
  deadLetter := true
  decode := fun _ => .error (.value "execution bus record must be a JSON object")

/-- The partition of the example. -/
def executionsPartition : TopicPartition := ⟨"executions", 0⟩

/-- Its log has one record. -/
def oneRecord : KafkaLog := fun tp offset =>
  if tp = executionsPartition ∧ offset = 0 then some (some [91, 93]) else none

/-- A consumer that has not started. -/
def freshConsumer :
    Server.State (ConsumerOp Unit) ConsumerRes PyException ConsumerState Bool where
  shared :=
    { committed := fun _ => 0, position := fun _ => 0, failureAttempts := fun _ => 0,
      history := [] }
  running := none

/-- The record fails, is fetched again, fails again, and is dead-lettered; the
commit raises after it took effect, and the process crashes. -/
def deadLetterRun : List (Server.Label ConsumerChoice) :=
  [.call, .act (.fetched [] (some (executionsPartition, 0)) []), .act .done, .act .done,
   .call, .act (.fetched [] (some (executionsPartition, 0)) []), .act .done, .act .done,
   .act (.lost (.other "KafkaError")), .crash]

theorem consumer_never_skips_deadLetter :
    ∃ w, ((consumerServer strictConsumer oneRecord).machine
        (consumerStart (fun _ => 0))).Reach Machine.anyStep w
      ∧ w.shared.committed executionsPartition = 1
      ∧ AccountedFor 2 executionsPartition 0 (some [91, 93]) w.shared.history := by
  have hrun : (((consumerServer strictConsumer oneRecord).machine
      (consumerStart (fun _ => 0))).run freshConsumer deadLetterRun).map
        (fun w => decide (w.shared.committed executionsPartition = 1)) = some true := by
    decide +kernel
  have hinit : ((consumerServer strictConsumer oneRecord).machine
      (consumerStart (fun _ => 0))).init freshConsumer := ⟨⟨rfl, rfl, rfl, rfl⟩, rfl⟩
  obtain ⟨w, hw, hc⟩ := Machine.reach_of_run hinit hrun
  have hcommitted : w.shared.committed executionsPartition = 1 := of_decide_eq_true hc
  refine ⟨w, hw, hcommitted, ?_⟩
  exact (consumer_never_skips strictConsumer oneRecord (fun _ => 0) w hw).1 executionsPartition
    0 (some [91, 93]) le_rfl (by rw [hcommitted]; decide) rfl
