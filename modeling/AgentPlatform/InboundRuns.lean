import AgentPlatform.InboundLedger

/-!
# Events that are ingested at once

Every call of `ingest_verified` keeps the invariant of the ledger, whatever the
other calls do between its requests. `keeps_ingestVerified` follows the program
of a call: it finds its binding, enters or compares its row, and then isolates
the event, answers with the execution of the row, or submits it.

A call may be held to an execution: one the gateway has accepted its message as.
-/

/-- The error of an event whose key is recorded with another payload. -/
def inboundPayloadConflict : PyException := inboundError "INBOUND_PAYLOAD_CONFLICT"

section Call

variable (sha256 uuid5 : String → String) (spell : Uuid → String) (healthy : ℕ → Prop) (pid : ℕ)
  (call : InboundCall) (known : Option Uuid)

/-- A program of `pid` is safe among other calls. -/
abbrev KeepsInbound {α : Type} (p : InboundProg α)
    (Q : Except PyException α → InboundState → Prop) (s : InboundState) : Prop :=
  p.Safe (Prog.Handled (inboundHandler pid) (inboundAllow healthy pid))
    (fun a b => InboundInv sha256 uuid5 spell b ∧ InboundKept uuid5 spell pid a b)
    (InboundOwes sha256 uuid5 spell pid) Q s

/-- **A conflict of the call is recorded.** -/
def ConflictRecorded (b : ChannelBindingRow) (hash : String) (s : InboundState) : Prop :=
  ∃ c ∈ s.conflicts, c.key = call.key b ∧ c.recordedHash = hash
    ∧ c.receivedHash = call.event.payloadHash sha256

/-- **What a reply satisfies.** An acceptance had the recorded payload and names
the execution of its key; a well-formed event with another payload, if it was
served well, was refused as a conflict, and recorded; and an event the gateway
had accepted before, if it was served well, is answered with its execution. -/
structure Ingested (r : Except PyException AgentExecutionAccepted) (s : InboundState) : Prop where
  accepted : ∀ accepted, r = .ok accepted → ∃ b row, Bound s call b
    ∧ s.messages (call.key b) = some row
    ∧ call.event.payloadMatches sha256 row.payloadHash = true
    ∧ (LeadsTo uuid5 spell (call.key b) accepted.executionId s
      ∨ row.executionId = some accepted.executionId)
  isolated : ∀ e, r = .error e → healthy pid → call.event.WellFormed → ∀ b row,
    Bound s call b → s.messages (call.key b) = some row →
      call.event.payloadMatches sha256 row.payloadHash = false →
      e = inboundPayloadConflict ∧ ConflictRecorded sha256 call b row.payloadHash s
  expected : ∀ x, known = some x → healthy pid →
    ∃ accepted, r = .ok accepted ∧ accepted.executionId = x

/-- **Before its submission**, a call has touched nothing of the gateway. -/
structure Arriving (s : InboundState) : Prop where
  inv : InboundInv sha256 uuid5 spell s
  pending : s.gateway.pending pid = none
  quiet : Quiet pid s.gateway
  expects : ∀ x, known = some x → Expects sha256 uuid5 spell s call x

end Call

section Body

variable {sha256 uuid5 : String → String} {spell : Uuid → String} {healthy : ℕ → Prop} {pid : ℕ}
  {call : InboundCall} {known : Option Uuid} {b : ChannelBindingRow} {s s' : InboundState}

theorem Arriving.kept (h : Arriving sha256 uuid5 spell pid call known s)
    (hinv : InboundInv sha256 uuid5 spell s') (hk : InboundKept uuid5 spell pid s s') :
    Arriving sha256 uuid5 spell pid call known s' := by
  refine ⟨hinv, hk.gateway.pending.trans h.pending, fun c hc => ?_,
    fun x hx => (h.expects x hx).kept hk⟩
  rw [hk.gateway.log] at hc
  exact h.quiet c hc

/-- A call that is not served well does not hold its caller to anything. -/
theorem ingested_fault {e : PyException} (hh : ¬ healthy pid) :
    Ingested sha256 uuid5 spell healthy pid call known (.error e) s :=
  ⟨fun _ h => (nomatch h), fun _ _ hp => absurd hp hh, fun _ _ hp => absurd hp hh⟩

/-- **Statement rule**, for a call that knows `I`, which lasts while others run. -/
theorem keeps_op {op : InboundOp} (hop : ∀ g, op ≠ .gateway g) {I : InboundState → Prop}
    {Q : Except PyException (InboundRes op) → InboundState → Prop}
    (hI : ∀ a a', I a → InboundInv sha256 uuid5 spell a' → InboundKept uuid5 spell pid a a' → I a')
    (hs : I s)
    (hfault : ∀ s₁, I s₁ → InboundInv sha256 uuid5 spell s₁ → ¬ healthy pid →
      Q (.error .sqlAlchemy) s₁)
    (hserve : ∀ s₁ now traceParent, I s₁ → InboundInv sha256 uuid5 spell s₁ →
      inboundAllow healthy pid (.serve now traceParent) op s₁ →
      InboundStep sha256 uuid5 spell s₁ (op.exec now traceParent s₁).2
        ∧ Q (op.exec now traceParent s₁).1 (op.exec now traceParent s₁).2) :
    KeepsInbound sha256 uuid5 spell healthy pid op.ask Q s := by
  refine (Prog.safe_perform _ _ _).mpr ?_
  rintro s₁ ⟨hinv, hk⟩ r s₂ ⟨c, hallow, hh⟩
  have hs₁ := hI s s₁ hs hinv hk
  have howes : ∀ {s₂}, InboundStep sha256 uuid5 spell s₁ s₂ →
      InboundOwes sha256 uuid5 spell pid s₁ s₂ := fun h => ⟨h.1, fun q _ => h.2 q⟩
  have hill : (∀ now traceParent, c ≠ .serve now traceParent) → ¬ healthy pid := by
    intro hc hp
    have hwell := hallow hp
    unfold WellServed at hwell
    cases op with
    | gateway g => exact hop g rfl
    | resolveBinding t ty bot =>
      obtain ⟨now, tp, hc', -⟩ := hwell
      exact hc now tp hc'
    | currentTraceparent =>
      obtain ⟨now, tp, hc', -⟩ := hwell
      exact hc now tp hc'
    | _ =>
      obtain ⟨now, tp, hc'⟩ := hwell
      exact hc now tp hc'
  rcases inboundHandler_cases hop hh with ⟨now, traceParent, rfl, rfl, rfl⟩ | ⟨rfl, rfl, rfl⟩
    | ⟨now, rfl, rfl, rfl⟩
  · obtain ⟨hstep, hQ⟩ := hserve s₁ now traceParent hs₁ hinv hallow
    exact ⟨howes hstep, hQ⟩
  · exact ⟨howes (.same hinv), hfault _ hs₁ hinv (hill (by simp))⟩
  · have hh' : ¬ healthy pid := hill (by simp)
    obtain ⟨hstep, -⟩ := hserve s₁ now none hs₁ hinv (fun hp => absurd hp hh')
    exact ⟨howes hstep, hfault _ (hI _ _ hs₁ hstep.1 (hstep.2 pid)) hstep.1 hh'⟩

/-- **A matching event is not isolated**, whatever becomes of it. -/
theorem ingested_error {hash : String} {e : PyException}
    (hs : Arriving sha256 uuid5 spell pid call known s) (hl : Located s call b hash)
    (hmatch : call.event.payloadMatches sha256 hash = true)
    (hexpect : ∀ x, known = some x → healthy pid →
      Resubmittable sha256 uuid5 spell s call b x → False) :
    Ingested sha256 uuid5 spell healthy pid call known (.error e) s := by
  refine ⟨fun _ h => (nomatch h), fun _ _ _ _ b' row hb hrow hmiss => ?_, fun x hx hp => ?_⟩
  · rw [hl.hash_eq hs.inv.routes hb hrow, hmatch] at hmiss
    cases hmiss
  · exact (hexpect x hx hp ((hs.expects x hx).resubmittable hs.inv.routes hl.1)).elim

/-! ### The submission of an event -/

/-- **While it is submitted**, a call knows its row, that the submitter was called,
and that nobody else's execution is attached to its key. -/
structure Submitting (sha256 uuid5 : String → String) (spell : Uuid → String)
    (call : InboundCall) (known : Option Uuid) (b : ChannelBindingRow)
    (sub : AgentExecutionSubmission) (hash : String) (s : InboundState) : Prop where
  inv : InboundInv sha256 uuid5 spell s
  located : Located s call b hash
  submitted : sub ∈ s.submitted
  expects : ∀ x, known = some x → Expects sha256 uuid5 spell s call x

theorem Submitting.kept {sub : AgentExecutionSubmission} {hash : String}
    (h : Submitting sha256 uuid5 spell call known b sub hash s)
    (hinv : InboundInv sha256 uuid5 spell s') (hk : InboundKept uuid5 spell pid s s') :
    Submitting sha256 uuid5 spell call known b sub hash s' :=
  ⟨hinv, h.located.kept hk, hk.submitted h.submitted, fun x hx => (h.expects x hx).kept hk⟩

/-- A gateway request, read off the handler of the service. -/
theorem gateway_of_handled {op : TxOp SubmitOp} {s s' : InboundState}
    {r : Except PyException (TxRes SubmitRes op)}
    (h : Prog.Handled (inboundHandler pid) (inboundAllow healthy pid) (.gateway op) s r s') :
    ∃ c g, gatewayAllow False healthy pid c op s.gateway
      ∧ gatewayEngine.handler pid c op s.gateway = some (r, g) ∧ s' = { s with gateway := g } := by
  obtain ⟨c, hallow, hh⟩ := h
  cases c with
  | gateway c =>
    obtain ⟨x, hx, hout⟩ := Option.map_eq_some_iff.mp hh
    obtain ⟨rfl, rfl⟩ := Prod.mk.inj hout
    refine ⟨c, x.2, ⟨fun hp => ?_, ?_⟩, hx, rfl⟩
    · obtain ⟨c', hc, hserved⟩ := hallow hp
      cases hc
      exact hserved
    · split
      · exact False.elim
      · trivial
  | serve now traceParent => cases hh
  | fail => cases hh
  | lost now => cases hh

/-- **The submission**, run by the service: the gateway's own answer, and what
the service knew is still true. -/
theorem keeps_submit {policy : CapacityPolicy} {sub : AgentExecutionSubmission} {hash m : String}
    {Q : Except PyException AgentExecutionAccepted → GatewayState → Prop}
    (hs : Submitting sha256 uuid5 spell call known b sub hash s) (hm : sub.messageId = some m)
    (hsubmit : SafeFor False healthy pid (submit sha256 policy sub) Q s.gateway) :
    KeepsInbound sha256 uuid5 spell healthy pid (InboundProg.ofGateway (submit sha256 policy sub))
      (fun r s' => Q r s'.gateway ∧ Submitting sha256 uuid5 spell call known b sub hash s') s := by
  refine Prog.safe_embed InboundState.gateway (Submitting sha256 uuid5 spell call known b sub hash)
    (fun _ _ h => ⟨h.1.gateway, h.2.gateway⟩) (fun _ _ h hr => h.kept hr.1 hr.2) ?_
    (issues_submit hm) hs hsubmit
  intro op a r a' hop hJ hr
  obtain ⟨c, g, hallow, hh, rfl⟩ := gateway_of_handled hr
  have hid : r.map (fun x => x) = r := by cases r <;> rfl
  refine ⟨⟨c, hallow, by rw [hid]; exact hh⟩, fun howes => ?_⟩
  have hstep := hJ.inv.gatewayStep hJ.submitted hop hh howes
  -- what the call knows does not depend on its number
  exact ⟨hJ.kept hstep.1 (hstep.2 (pid + 1) (Nat.succ_ne_self pid)), hstep⟩

/-- A stored submission is the execution of its key. -/
theorem leadsTo_of_stored {sub : AgentExecutionSubmission} {x : Uuid}
    (htenant : sub.tenantId = b.tenantId)
    (h : Stored sha256 sub (messageIdOf uuid5 spell (call.key b)) x s.gateway.committed) :
    LeadsTo uuid5 spell (call.key b) x s := by
  obtain ⟨e, he, ht, hm, hx, -⟩ := h
  exact ⟨e, he, ht.trans htenant, hm, hx⟩

/-- A key has one execution. -/
theorem LeadsTo.unique {key : LedgerKey} {x y : Uuid} (hinv : InboundInv sha256 uuid5 spell s)
    (hx : LeadsTo uuid5 spell key x s) (hy : LeadsTo uuid5 spell key y s) : x = y := by
  obtain ⟨e, he, ht, hm, rfl⟩ := hx
  obtain ⟨e', he', ht', hm', rfl⟩ := hy
  rw [List.inj_on_of_nodup_map hinv.gateway.coherent.unique he he' (by rw [ht, hm, ht', hm'])]

/-- **The execution is attached** and answered. -/
theorem keeps_attach {sub : AgentExecutionSubmission} {hash : String}
    {accepted : AgentExecutionAccepted}
    (hs : Submitting sha256 uuid5 spell call known b sub hash s)
    (hmatch : call.event.payloadMatches sha256 hash = true)
    (hleads : LeadsTo uuid5 spell (call.key b) accepted.executionId s)
    (hexpect : ∀ x, known = some x → accepted.executionId = x) :
    KeepsInbound sha256 uuid5 spell healthy pid
      ((InboundOp.ask (.attachExecution call.tenantId b.binding.bindingId
        (call.event.item "message_key") accepted.executionId accepted.releaseId)).bind
          (fun _ => .ret accepted))
      (Ingested sha256 uuid5 spell healthy pid call known) s := by
  have hkey : ledgerKey call.tenantId b.binding.bindingId (call.event.item "message_key")
      = some (call.key b) := by
    rw [ledgerKey, hs.located.1.tenant]
    show (Uuid.parse (Uuid.str b.bindingId)).map _ = _
    rw [Uuid.parse_str b.bindingId_lt]
    rfl
  refine (Prog.safe_bind _ _ _ _).mpr (keeps_op (by simp)
    (I := fun a => Submitting sha256 uuid5 spell call known b sub hash a
      ∧ LeadsTo uuid5 spell (call.key b) accepted.executionId a)
    (fun _ _ h hinv hk => ⟨h.1.kept hinv hk, h.2.kept hk.gateway.kept⟩) ⟨hs, hleads⟩
    (fun _ _ _ hh => ingested_fault hh) ?_)
  rintro s₁ now traceParent ⟨hs₁, hleads₁⟩ hinv -
  obtain ⟨hbound, row, hrow, hhash⟩ := hs₁.located
  have hstep : InboundStep sha256 uuid5 spell s₁ (s₁.setMessage (call.key b)
      { row with
        executionId := some accepted.executionId
        releaseId := some accepted.releaseId }) :=
    hinv.setMessage b.bindingId_lt (fun row' hrow' => by
      rw [Option.some.inj (hrow.symm.trans hrow')])
      (hinv.recorded _ row hrow) (fun x hx => Option.some.inj hx ▸ hleads₁) (by simp)
  simp only [InboundOp.exec, hkey, hrow]
  refine ⟨hstep, ?_, fun _ h => (nomatch h), fun x hx _ => ⟨accepted, rfl, hexpect x hx⟩⟩
  rintro acc hacc
  obtain rfl := Except.ok.inj hacc
  exact ⟨b, _, hbound.kept (hstep.2 pid), if_pos rfl, hhash ▸ hmatch, .inl hleads₁⟩

/-- **The submitter is called**, and the execution attached. -/
theorem keeps_submitEvent (hinj : Function.Injective uuid5) {policy : CapacityPolicy}
    {hash : String}
    {sub : AgentExecutionSubmission} (hs : Arriving sha256 uuid5 spell pid call known s)
    (hl : Located s call b hash) (hmatch : call.event.payloadMatches sha256 hash = true)
    (hunclaimed : Unclaimed uuid5 spell (call.key b) s)
    (hwell : call.event.WellFormed)
    (hbuilt : BuiltFrom uuid5 b.binding call.event (messageIdOf uuid5 spell (call.key b)) sub)
    (hstored : ∀ x, known = some x →
      Stored sha256 sub (messageIdOf uuid5 spell (call.key b)) x s.gateway.committed) :
    KeepsInbound sha256 uuid5 spell healthy pid
      (submitEvent sha256 policy call.tenantId b.binding call.event sub)
      (Ingested sha256 uuid5 spell healthy pid call known) s := by
  have htenant : sub.tenantId = b.tenantId :=
    Option.some.inj (hbuilt.tenant.symm.trans (Uuid.parse_str b.tenantId_lt))
  refine (Prog.safe_bind _ _ _ _).mpr (keeps_op (by simp)
    (I := fun a => Arriving sha256 uuid5 spell pid call known a ∧ Located a call b hash
      ∧ Unclaimed uuid5 spell (call.key b) a ∧ ∀ x, known = some x →
        Stored sha256 sub (messageIdOf uuid5 spell (call.key b)) x a.gateway.committed)
    (fun _ _ h hinv hk => ⟨h.1.kept hinv hk, h.2.1.kept hk, hk.unclaimed _ h.2.2.1,
      fun x hx => (h.2.2.2 x hx).kept hk.gateway.kept⟩) ⟨hs, hl, hunclaimed, hstored⟩
    (fun _ _ _ hh => ingested_fault hh) ?_)
  rintro s₁ now traceParent ⟨hs₁, hl₁, hunclaimed₁, hstored₁⟩ hinv -
  obtain ⟨row, hrow, hhash⟩ := hl₁.2
  have hrouted : Routed sha256 uuid5 spell s₁ sub b call.event :=
    ⟨hwell, hl₁.1.channel, hl₁.1.mem, hbuilt, row, hrow, hhash ▸ hmatch⟩
  have hstep := hinv.submitter hrouted (fun key hkey ht hm => by
    have hid := Option.some.inj (hm.symm.trans hbuilt.messageId)
    rw [messageIdOf_inj uuid5 spell hinj (ht.symm.trans htenant) hkey b.bindingId_lt hid]
    exact hunclaimed₁)
  refine ⟨hstep, ?_⟩
  have hs₂ : Submitting sha256 uuid5 spell call known b sub hash
      { s₁ with submitted := s₁.submitted ++ [sub] } :=
    ⟨hstep.1, hl₁.kept (hstep.2 pid), List.mem_append_right _ (List.mem_singleton_self sub),
      fun x hx => (hs₁.expects x hx).kept (hstep.2 pid)⟩
  have houtside : Outside False pid s₁.gateway := ⟨hinv.gateway, hs₁.pending, hs₁.quiet⟩
  -- the gateway's answer, and that a stored message is not refused
  have hanswer : SafeFor False healthy pid (submit sha256 policy sub)
      (fun r g => Answered False healthy sha256 pid sub r g
        ∧ (∀ x, known = some x → healthy pid → ∃ accepted, r = .ok accepted)) s₁.gateway := by
    cases hknown : known with
    | none => exact (safe_submit houtside).mono (fun r g h => ⟨h, fun x hx => (nomatch hx)⟩)
    | some x =>
      refine ((safe_submit houtside).and (safe_resubmission hbuilt.messageId houtside
        (hstored₁ x hknown))).mono (fun r g h => ⟨h.1, fun _ _ => h.2⟩)
  refine Prog.Safe.bind (keeps_submit hs₂ hbuilt.messageId hanswer) ?_ ?_
  · rintro accepted s₃ ⟨⟨⟨m, hm, -, hst⟩, -⟩, hs₃⟩
    obtain rfl : messageIdOf uuid5 spell (call.key b) = m := by
      rcases hm with hm | ⟨hm, -⟩
      · exact Option.some.inj (hbuilt.messageId.symm.trans hm)
      · rw [hbuilt.messageId] at hm
        cases hm
    have hleads : LeadsTo uuid5 spell (call.key b) accepted.executionId s₃ :=
      leadsTo_of_stored htenant hst
    refine keeps_attach hs₃ hmatch hleads (fun x hx => ?_)
    obtain ⟨sub', b', e, -, hrouted', hbound', hsame, hst'⟩ := hs₃.expects x hx
    have hkey := hbound'.key_eq hs₃.located.1 hs₃.inv.routes
    have htenant' : sub'.tenantId = b'.tenantId :=
      Option.some.inj (hrouted'.built.tenant.symm.trans (Uuid.parse_str b'.tenantId_lt))
    have hleads' : LeadsTo uuid5 spell (call.key b') x s₃ := leadsTo_of_stored htenant' hst'
    rw [hkey] at hleads'
    exact hleads.unique hs₃.inv hleads'
  · rintro e s₃ ⟨⟨-, hok⟩, hs₃⟩
    refine ⟨fun _ h => (nomatch h), fun _ _ _ _ b' row hb hrow hmiss => ?_, fun x hx hp => ?_⟩
    · rw [hs₃.located.hash_eq hs₃.inv.routes hb hrow, hmatch] at hmiss
      cases hmiss
    · obtain ⟨accepted, hacc⟩ := hok x hx hp
      cases hacc

/-- **The event is routed.** -/
theorem keeps_route (hinj : Function.Injective uuid5) {policy : CapacityPolicy} {hash : String}
    (hspell : call.tenantId = spell b.tenantId)
    (hs : Arriving sha256 uuid5 spell pid call known s) (hl : Located s call b hash)
    (hwell : call.event.WellFormed) (hmatch : call.event.payloadMatches sha256 hash = true)
    (hunclaimed : Unclaimed uuid5 spell (call.key b) s) :
    KeepsInbound sha256 uuid5 spell healthy pid
      (route sha256 uuid5 policy call.tenantId b.binding call.event)
      (Ingested sha256 uuid5 spell healthy pid call known) s := by
  have hmessage : executionMessageId uuid5 call.tenantId b.binding.bindingId
      (call.event.item "message_key") = messageIdOf uuid5 spell (call.key b) := by
    rw [hspell]
    rfl
  unfold route
  rw [hmessage]
  refine (Prog.safe_bind _ _ _ _).mpr (keeps_op (by simp)
    (I := fun a => Arriving sha256 uuid5 spell pid call known a ∧ Located a call b hash
      ∧ Unclaimed uuid5 spell (call.key b) a)
    (fun _ _ h hinv hk => ⟨h.1.kept hinv hk, h.2.1.kept hk, hk.unclaimed _ h.2.2⟩)
    ⟨hs, hl, hunclaimed⟩ (fun _ _ _ hh => ingested_fault hh) ?_)
  rintro s₁ now traceParent ⟨hs₁, hl₁, hunclaimed₁⟩ hinv hallow
  refine ⟨.same hinv, ?_⟩
  simp only [InboundOp.exec, Prog.thenSafe]
  cases hbuild : buildSubmission uuid5 b.binding call.event
      (messageIdOf uuid5 spell (call.key b)) traceParent with
  | error e =>
    refine ingested_error hs₁ hl₁ hmatch (fun x hx hp hre => ?_)
    obtain ⟨now', traceParent', hserve, htrace⟩ := hallow hp
    cases hserve
    obtain ⟨sub, hsub, -⟩ := hre.built traceParent htrace
    rw [hbuild] at hsub
    cases hsub
  | ok sub =>
    refine keeps_submitEvent hinj hs₁ hl₁ hmatch hunclaimed₁ hwell (builtFrom_of_build hbuild)
      (fun x hx => ?_)
    obtain ⟨sub', hsub', hst⟩ := ((hs₁.expects x hx).resubmittable hinv.routes hl₁.1).built none
      (fun t ht => (by cases ht))
    exact (builtFrom_of_build hsub').stored (builtFrom_of_build hbuild) hst

/-- **The newcomer is isolated.** -/
theorem keeps_isolate {hash : String} (hs : Arriving sha256 uuid5 spell pid call known s)
    (hl : Located s call b hash) (hmiss : call.event.payloadMatches sha256 hash = false) :
    KeepsInbound sha256 uuid5 spell healthy pid
      (isolate sha256 call.tenantId b.binding call.event hash)
      (Ingested sha256 uuid5 spell healthy pid call known) s := by
  have hkey : ∀ {a}, Located a call b hash → ledgerKey call.tenantId b.binding.bindingId
      (call.event.item "message_key") = some (call.key b) := by
    intro a hl
    rw [ledgerKey, hl.1.tenant]
    show (Uuid.parse (Uuid.str b.bindingId)).map _ = _
    rw [Uuid.parse_str b.bindingId_lt]
    rfl
  have hlast : ∀ a a', (Arriving sha256 uuid5 spell pid call known a ∧ Located a call b hash) →
      InboundInv sha256 uuid5 spell a' → InboundKept uuid5 spell pid a a' →
      Arriving sha256 uuid5 spell pid call known a' ∧ Located a' call b hash :=
    fun _ _ h hinv hk => ⟨h.1.kept hinv hk, h.2.kept hk⟩
  refine (Prog.safe_bind _ _ _ _).mpr (keeps_op (by simp) hlast ⟨hs, hl⟩
    (fun _ _ _ hh => ingested_fault hh) ?_)
  rintro s₁ now traceParent hs₁ hinv -
  refine ⟨.same hinv, ?_⟩
  simp only [InboundOp.exec, Prog.thenSafe]
  refine (Prog.safe_bind _ _ _ _).mpr (keeps_op (by simp) hlast hs₁
    (fun _ _ _ hh => ingested_fault hh) ?_)
  rintro s₂ now' traceParent' ⟨hs₂, hl₂⟩ hinv₂ -
  have hstep := hinv₂.conflict ⟨call.key b, hash, call.event.payloadHash sha256, now'⟩
  simp only [InboundOp.exec, hkey hl₂]
  refine ⟨hstep, fun _ h => (by cases h), fun e he _ _ b' row hb hrow _ => ?_, fun x hx hp => ?_⟩
  · have hl₃ := hl₂.kept (hstep.2 pid)
    refine ⟨(Except.error.inj he).symm, ⟨call.key b, hash, call.event.payloadHash sha256, now'⟩,
      List.mem_append_right _ (List.mem_singleton_self _), ?_, ?_, rfl⟩
    · exact hl₃.1.key_eq hb hstep.1.routes
    · exact (hl₃.hash_eq hstep.1.routes hb hrow).symm
  · -- an expected event has the recorded payload
    obtain ⟨row, hrow, hmatch⟩ := ((hs₂.expects x hx).resubmittable hinv₂.routes hl₂.1).recorded
    rw [hl₂.hash_eq hinv₂.routes hl₂.1 hrow, hmiss] at hmatch
    cases hmatch

/-- **What follows the ledger's answer.** -/
theorem keeps_afterInsert (hinj : Function.Injective uuid5) {policy : CapacityPolicy}
    {stored : InboundMessage} {created : Bool} (hspell : call.tenantId = spell b.tenantId)
    (hs : Arriving sha256 uuid5 spell pid call known s) (hl : Located s call b stored.payloadHash)
    (hwell : call.event.WellFormed)
    (hcreated : created = true → call.event.payloadMatches sha256 stored.payloadHash = true)
    (hclaim : created = true ∨ stored.executionId = none →
      Unclaimed uuid5 spell (call.key b) s)
    (hattached : ∀ x, stored.executionId = some x → ∃ row,
      s.messages (call.key b) = some row ∧ row.executionId = some x)
    (hreleased : stored.executionId.isSome ↔ stored.releaseId.isSome) :
    KeepsInbound sha256 uuid5 spell healthy pid
      (afterInsert sha256 uuid5 policy call.tenantId b.binding call.event stored created)
      (Ingested sha256 uuid5 spell healthy pid call known) s := by
  unfold afterInsert
  split
  · rename_i hmiss
    exact keeps_isolate hs hl hmiss.2
  · rename_i hmiss
    have hmatch : call.event.payloadMatches sha256 stored.payloadHash = true := by
      cases hc : created with
      | true => exact hcreated hc
      | false =>
        cases hm : call.event.payloadMatches sha256 stored.payloadHash with
        | true => rfl
        | false => exact absurd ⟨hc, hm⟩ hmiss
    -- an execution and a release are attached together
    have hfree : (∀ executionId releaseId, created = false → stored.executionId = some executionId →
        stored.releaseId = some releaseId → False) →
        created = true ∨ stored.executionId = none := by
      intro hnot
      cases hc : created with
      | true => exact .inl rfl
      | false =>
        refine .inr ?_
        cases hx : stored.executionId with
        | none => rfl
        | some executionId =>
          obtain ⟨releaseId, hr⟩ := Option.isSome_iff_exists.mp (hreleased.mp (by rw [hx]; rfl))
          exact (hnot executionId releaseId hc hx hr).elim
    split
    · rename_i executionId releaseId hexecution hrelease
      split
      · rename_i e hsession
        refine ingested_error hs hl hmatch (fun x hx hp hre => ?_)
        obtain ⟨sessionId, hok⟩ := hre.session
        rw [hsession] at hok
        cases hok
      · obtain ⟨row, hrow, hx⟩ := hattached executionId hexecution
        obtain ⟨row', hrow', hhash⟩ := hl.2
        obtain rfl := Option.some.inj (hrow.symm.trans hrow')
        refine ⟨fun accepted hacc => ?_, fun _ h => (nomatch h), fun x hknown hp => ?_⟩
        · obtain rfl := Except.ok.inj hacc
          exact ⟨b, row, hl.1, hrow, by rw [hhash]; exact hmatch, .inr hx⟩
        · refine ⟨_, rfl, ?_⟩
          have hre := (hs.expects x hknown).resubmittable hs.inv.routes hl.1
          obtain ⟨sub, hsub, ht, hm⟩ := hre.submitted
          obtain ⟨sub', hsub', hst⟩ := hre.built none (fun t ht => (nomatch ht))
          have hbuilt := builtFrom_of_build hsub'
          have htenant : sub'.tenantId = b.tenantId :=
            Option.some.inj (hbuilt.tenant.symm.trans (Uuid.parse_str b.tenantId_lt))
          rcases hs.inv.attached _ row _ hrow hx with hleads | hnone
          · exact hleads.unique hs.inv (leadsTo_of_stored htenant hst)
          · exact absurd ⟨ht, hm⟩ (hnone sub hsub)
    · rename_i hnot
      exact keeps_route hinj hspell hs hl hwell hmatch (hclaim (hfree hnot))

/-- **A call spells its tenant** as `spell` does. -/
def Spelled (spell : Uuid → String) (call : InboundCall) : Prop :=
  ∀ t, Uuid.parse call.tenantId = some t → call.tenantId = spell t

/-- A refusal of an event that is not well-formed. -/
theorem ingested_malformed {e : PyException} (hs : Arriving sha256 uuid5 spell pid call known s)
    (hbad : ¬ call.event.WellFormed) :
    Ingested sha256 uuid5 spell healthy pid call known (.error e) s := by
  refine ⟨fun _ h => (nomatch h), fun _ _ _ hwell => absurd hwell hbad, fun x hx _ => ?_⟩
  have hexpects := hs.expects x hx
  obtain ⟨sub, b', e', -, -, hbound, -⟩ := id hexpects
  exact absurd (hexpects.resubmittable hs.inv.routes hbound).wellFormed hbad

/-- A binding that is found is the call's. -/
theorem bound_of_resolve {t : Uuid} (ht : Uuid.parse call.tenantId = some t)
    (h : s.resolve t (call.event.item "channel_type") (call.event.item "external_bot_id")
      = some b) : Bound s call b := by
  have hmem := List.mem_of_find?_eq_some h
  have hkey := List.find?_some h
  rw [decide_eq_true_eq] at hkey
  obtain ⟨rfl, htype, hbot, -⟩ := hkey
  exact ⟨ht, ⟨htype, hbot⟩, List.mem_map_of_mem hmem⟩

/-- **The ledger's answer**: the row of the call, which is new or was there. -/
theorem keeps_insert (hinj : Function.Injective uuid5) {policy : CapacityPolicy}
    {message : InboundMessage} (hspell : call.tenantId = spell b.tenantId)
    (hs : Arriving sha256 uuid5 spell pid call known s) (hb : Bound s call b)
    (hwell : call.event.WellFormed) {occurredAt : Timestamp}
    (hmessage : InboundMessage.new call.tenantId b.binding.bindingId
      (call.event.item "message_key") (call.event.payloadHash sha256)
      (call.event.item "external_user_id") occurredAt = some message) :
    KeepsInbound sha256 uuid5 spell healthy pid
      ((InboundOp.ask (.insertMessage message)).bind (fun x =>
        afterInsert sha256 uuid5 policy call.tenantId b.binding call.event x.1 x.2))
      (Ingested sha256 uuid5 spell healthy pid call known) s := by
  obtain ⟨htenantId, hbindingId, hmessageKey, hpayload, hexecution, hrelease⟩ :
      message.tenantId = call.tenantId ∧ message.bindingId = b.binding.bindingId
        ∧ message.messageKey = call.event.item "message_key"
        ∧ message.payloadHash = call.event.payloadHash sha256 ∧ message.executionId = none
        ∧ message.releaseId = none := by
    unfold InboundMessage.new at hmessage
    split at hmessage
    · obtain rfl := Option.some.inj hmessage
      exact ⟨rfl, rfl, rfl, rfl, rfl, rfl⟩
    · cases hmessage
  have hkey : ledgerKey message.tenantId message.bindingId message.messageKey
      = some (call.key b) := by
    rw [htenantId, hbindingId, hmessageKey, ledgerKey, hb.tenant]
    show (Uuid.parse (Uuid.str b.bindingId)).map _ = _
    rw [Uuid.parse_str b.bindingId_lt]
    rfl
  refine (Prog.safe_bind _ _ _ _).mpr (keeps_op (by simp)
    (I := fun a => Arriving sha256 uuid5 spell pid call known a ∧ Bound a call b)
    (fun _ _ h hinv hk => ⟨h.1.kept hinv hk, h.2.kept hk⟩) ⟨hs, hb⟩
    (fun _ _ _ hh => ingested_fault hh) ?_)
  rintro s₁ now traceParent ⟨hs₁, hb₁⟩ hinv -
  simp only [InboundOp.exec, hkey]
  cases hrow : s₁.messages (call.key b) with
  | some row =>
    refine ⟨.same hinv, keeps_afterInsert hinj hspell hs₁ ⟨hb₁, row, hrow, rfl⟩ hwell
      (fun h => (nomatch h)) (fun hfree row' x hrow' hx => ?_) (fun x hx => ⟨row, hrow, hx⟩)
      (hinv.released _ row hrow)⟩
    obtain rfl := Option.some.inj (hrow.symm.trans hrow')
    rcases hfree with h | h
    · cases h
    · rw [show row.executionId = none from h] at hx
      cases hx
  | none =>
    have hstep : InboundStep sha256 uuid5 spell s₁
        (s₁.setMessage (call.key b) (message.row now)) := by
      refine hinv.setMessage b.bindingId_lt (fun row' hrow' => ?_)
        ⟨call.event.payload, .inl (hpayload.trans (payloadHash_eq sha256 call.event))⟩
        (fun x hx => ?_) ?_
      · rw [hrow] at hrow'
        cases hrow'
      · rw [show (message.row now).executionId = none from hexecution] at hx
        cases hx
      · rw [show (message.row now).executionId = none from hexecution,
          show (message.row now).releaseId = none from hrelease]
    have hs₂ := hs₁.kept hstep.1 (hstep.2 pid)
    have hnew : (s₁.setMessage (call.key b) (message.row now)).messages (call.key b)
        = some (message.row now) := if_pos rfl
    have hl₂ : Located (s₁.setMessage (call.key b) (message.row now)) call b
        (message.row now).payloadHash := ⟨hb₁.kept (hstep.2 pid), message.row now, hnew, rfl⟩
    have hmatch : call.event.payloadMatches sha256 (message.row now).payloadHash = true := by
      rw [show (message.row now).payloadHash = call.event.payloadHash sha256 from hpayload]
      exact payloadMatches_self call.event
    refine ⟨hstep, keeps_afterInsert hinj hspell hs₂ hl₂ hwell (fun _ => hmatch) ?_
      (fun x hx => ⟨message.row now, hnew, hx⟩) (hstep.1.released _ _ hnew)⟩
    intro _ row' x hrow' hx
    obtain rfl := Option.some.inj (hnew.symm.trans hrow')
    rw [show (message.row now).executionId = none from hexecution] at hx
    cases hx

/-- **Every call meets its postcondition.** -/
theorem keeps_ingestVerified (hinj : Function.Injective uuid5) {policy : CapacityPolicy}
    (hspelled : Spelled spell call) (hs : Arriving sha256 uuid5 spell pid call known s) :
    KeepsInbound sha256 uuid5 spell healthy pid
      (ingestVerified sha256 uuid5 policy call.tenantId call.event)
      (Ingested sha256 uuid5 spell healthy pid call known) s := by
  unfold ingestVerified
  split
  · rename_i hinvalid
    exact ingested_malformed hs (fun hwell => by rw [hwell.complete] at hinvalid; cases hinvalid)
  · rename_i hvalid
    refine (Prog.safe_bind _ _ _ _).mpr (keeps_op (by simp)
      (fun _ _ h hinv hk => h.kept hinv hk) hs (fun _ _ _ hh => ingested_fault hh) ?_)
    intro s₁ now traceParent hs₁ hinv hallow
    simp only [InboundOp.exec]
    cases ht : Uuid.parse call.tenantId with
    | none =>
      refine ⟨.same hinv, fun _ h => (nomatch h), fun _ _ _ _ b row hb => ?_, fun x hx _ => ?_⟩
      · rw [hb.tenant] at ht
        cases ht
      · obtain ⟨sub, b, e, -, -, hb, -⟩ := hs₁.expects x hx
        rw [hb.tenant] at ht
        cases ht
    | some t =>
      refine ⟨.same hinv, ?_⟩
      cases hresolve : s₁.resolve t (call.event.item "channel_type")
          (call.event.item "external_bot_id") with
      | none =>
        simp only [hresolve, Option.map_none, Prog.thenSafe]
        refine ingested_fault (fun hp => ?_)
        obtain ⟨now', traceParent', -, hfound⟩ := hallow hp
        have hsome := hfound t ht
        rw [hresolve] at hsome
        cases hsome
      | some b =>
        have hb := bound_of_resolve ht hresolve
        simp only [hresolve, Option.map_some, Prog.thenSafe]
        refine (Prog.safe_bind _ _ _ _).mpr (keeps_op (by simp)
          (I := fun a => Arriving sha256 uuid5 spell pid call known a ∧ Bound a call b)
          (fun _ _ h hinv hk => ⟨h.1.kept hinv hk, h.2.kept hk⟩) ⟨hs₁, hb⟩
          (fun _ _ _ hh => ingested_fault hh) ?_)
        rintro s₂ now₂ traceParent₂ ⟨hs₂, hb₂⟩ hinv₂ -
        refine ⟨.same hinv₂, ?_⟩
        simp only [InboundOp.exec, Prog.thenSafe]
        cases hmessage : InboundMessage.new call.tenantId b.binding.bindingId
            (call.event.item "message_key") (call.event.payloadHash sha256)
            (call.event.item "external_user_id") now₂ with
        | none =>
          refine ingested_malformed hs₂ (fun hwell => ?_)
          unfold InboundMessage.new at hmessage
          rw [dif_pos ⟨hwell.messageKey, hwell.externalUserId⟩] at hmessage
          cases hmessage
        | some message =>
          have hwell : call.event.WellFormed := by
            unfold InboundMessage.new at hmessage
            split at hmessage
            · rename_i hbounds
              exact ⟨by simpa using hvalid, hbounds.1, hbounds.2⟩
            · cases hmessage
          exact keeps_insert hinj (hspelled b.tenantId hb.tenant) hs₂ hb₂ hwell hmessage

end Body

/-! ## The discipline of the service -/

section Discipline

variable {sha256 uuid5 : String → String} {spell : Uuid → String} {s s' : InboundState}

/-- A crash drops the transaction of the submission. -/
theorem InboundInv.crash (h : InboundInv sha256 uuid5 spell s) (pid : ℕ) :
    InboundOwes sha256 uuid5 spell pid s { s with gateway := Engine.close s.gateway pid } := by
  have howes : Owes False pid s.gateway (Engine.close s.gateway pid) := .close h.gateway
  refine ⟨h.setGateway howes.1 (fun q ws hq => ?_) h.tables howes.kept,
    fun q hq => .setGateway (howes.2 q hq)⟩
  by_cases hqp : q = pid
  · subst hqp
    simp [Engine.close] at hq
  · simp only [Engine.close, Function.update_of_ne hqp] at hq
    exact h.pending q ws hq

/-- A worker moves an execution on. -/
theorem InboundInv.execution (h : InboundInv sha256 uuid5 spell s) (u : StatusUpdate) :
    InboundStep sha256 uuid5 spell s
      { s with
        gateway := { s.gateway with committed := setExecutionStatus u s.gateway.committed } } := by
  have ha := aged_setExecutionStatus u s.gateway.committed
  refine ⟨h.setGateway ⟨h.gateway.serial, h.gateway.coherent.aged ha⟩ h.pending ⟨?_, ?_⟩ ha.kept,
    fun q => .setGateway ⟨rfl, Iff.rfl, fun _ => ha, ha.kept, rfl⟩⟩
  · intro e he
    obtain ⟨e₀, he₀, hid⟩ := ha.symm.kept e he
    obtain ⟨sub, hsub, releaseId, id, m, hm, hof⟩ := h.tables.1 e₀ he₀
    exact ⟨sub, hsub, releaseId, id, m, hm, hid.symm.trans hof⟩
  · rw [ha.outbox]
    exact h.tables.2

/-- Bindings come, and change their status. -/
theorem InboundInv.setBindings (h : InboundInv sha256 uuid5 spell s) {bs : List ChannelBindingRow}
    (hroutes : (bs.map ChannelBindingRow.routeKey).Nodup)
    (hkeys : (bs.map ChannelBindingRow.key).Nodup)
    (hfixed : s.bindings.map ChannelBindingRow.fixed ⊆ bs.map ChannelBindingRow.fixed) :
    InboundStep sha256 uuid5 spell s { s with bindings := bs } := by
  have hmessages : ∀ key row, s.messages key = some row →
      ∃ row', s.messages key = some row' ∧ row'.payloadHash = row.payloadHash :=
    fun _ row hr => ⟨row, hr, rfl⟩
  refine ⟨⟨h.gateway, hroutes, hkeys, h.bounded, h.recorded, fun sub hsub => ?_, h.pending,
    h.tables, h.attached, h.released⟩, fun q => .of_ledger rfl hmessages (fun _ hu => hu) hfixed
      (fun _ hx => hx) (fun _ hx => hx)⟩
  obtain ⟨b, e, hr⟩ := h.routed sub hsub
  exact ⟨b, e, hr.kept hmessages hfixed⟩

/-- **What others do to the tables** keeps the invariant. -/
theorem InboundInv.env (h : InboundInv sha256 uuid5 spell s) {e : InboundEvent}
    (he : e.apply s = some s') : InboundStep sha256 uuid5 spell s s' := by
  cases e with
  | bind row =>
    simp only [InboundEvent.apply] at he
    split at he
    · cases he
    · rename_i hnew
      obtain rfl := Option.some.inj he
      have hfresh : ∀ b ∈ s.bindings, b.routeKey ≠ row.routeKey ∧ b.key ≠ row.key := by
        intro b hb
        constructor
        · exact fun heq => hnew (List.any_eq_true.mpr ⟨b, hb, decide_eq_true (.inl heq)⟩)
        · exact fun heq => hnew (List.any_eq_true.mpr ⟨b, hb, decide_eq_true (.inr heq)⟩)
      refine h.setBindings ?_ ?_ (by simp [List.map_append])
      · rw [List.map_append, List.nodup_append]
        refine ⟨h.routes, List.nodup_singleton _, fun x hx y hy hxy => ?_⟩
        obtain ⟨b, hb, rfl⟩ := List.mem_map.mp hx
        exact (hfresh b hb).1 (hxy.trans (List.mem_singleton.mp hy))
      · rw [List.map_append, List.nodup_append]
        refine ⟨h.keys, List.nodup_singleton _, fun x hx y hy hxy => ?_⟩
        obtain ⟨b, hb, rfl⟩ := List.mem_map.mp hx
        exact (hfresh b hb).2 (hxy.trans (List.mem_singleton.mp hy))
  | setStatus tenantId bindingId status =>
    obtain rfl := Option.some.inj he
    have hmap : ∀ {β : Type} (f : ChannelBindingRow → β),
        (∀ b, f { b with status := status } = f b) →
        (s.bindings.map (fun b => if b.key = (tenantId, bindingId) then
          { b with status := status } else b)).map f = s.bindings.map f := by
      intro β f hf
      rw [List.map_map]
      refine List.map_congr_left (fun b _ => ?_)
      show f (if _ then _ else _) = _
      split
      · exact hf b
      · rfl
    refine h.setBindings ?_ ?_ ?_
    · rw [hmap _ (fun _ => rfl)]
      exact h.routes
    · rw [hmap _ (fun _ => rfl)]
      exact h.keys
    · rw [hmap _ (fun _ => rfl)]
      exact fun _ hx => hx
  | execution u =>
    obtain rfl := Option.some.inj he
    exact h.execution u

/-- **The discipline of the service.** -/
def inboundDiscipline (hinj : Function.Injective uuid5) (spell : Uuid → String)
    (healthy : ℕ → Prop) (policy : CapacityPolicy) :
    Pool.Discipline (ingestions sha256 uuid5 policy) (InboundStart sha256)
      (fun _ call => Spelled spell call) (inboundAllow healthy) (fun _ _ => True) where
  inv := InboundInv sha256 uuid5 spell
  unused := fun pid s => s.gateway.pending pid = none ∧ Quiet pid s.gateway
  rely := InboundKept uuid5 spell
  post := fun pid call => Ingested sha256 uuid5 spell healthy pid call none
  rely_refl := .refl
  rely_trans := fun _ _ _ _ h h' => h.trans h'
  unused_rely := by
    rintro pid a b ⟨hp, hq⟩ hk
    refine ⟨hk.gateway.pending.trans hp, fun c hc => ?_⟩
    rw [hk.gateway.log] at hc
    exact hq c hc
  start_ok := by
    intro s hs
    obtain ⟨now, hgateway⟩ := hs.gateway
    refine ⟨⟨?_, hs.routes, hs.keys, fun key row hr => (hs.legacy key row hr).2.2, ?_, ?_, ?_, ?_,
      ?_, fun key row hr => (hs.legacy key row hr).2.1⟩, fun pid => ⟨?_, ?_⟩⟩
    · rw [hgateway]
      refine ⟨fun q ws hq => ?_, ⟨rfl, List.nodup_nil, fun _ e he => by cases he⟩⟩
      cases hq
    · intro key row hr
      obtain ⟨text, htext⟩ := (hs.legacy key row hr).1
      exact ⟨⟨text, row.externalUserId, "direct:" ++ row.externalUserId⟩, .inr ⟨htext, rfl⟩⟩
    · rw [hs.submitted]
      exact fun sub hsub => absurd hsub List.not_mem_nil
    · rw [hgateway]
      intro q ws hq
      cases hq
    · rw [hgateway]
      exact ⟨fun e he => absurd he List.not_mem_nil, fun r hr => absurd hr List.not_mem_nil⟩
    · rw [hs.submitted]
      exact fun _ _ _ _ _ => .inr (fun sub hsub => absurd hsub List.not_mem_nil)
    · rw [hgateway]
      rfl
    · rw [hgateway]
      intro c hc
      cases hc
  safe_body := fun pid s call haccept hinv hun =>
    keeps_ingestVerified hinj haccept ⟨hinv, hun.1, hun.2, fun x hx => (nomatch hx)⟩
  safe_crash := fun pid s hinv => hinv.crash pid
  safe_env := fun e s s' _ hinv he => hinv.env he

end Discipline
