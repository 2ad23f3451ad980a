import Mathlib.Data.List.Pairwise
import AgentPlatform.ToolRules

/-!
# The life of an approval request, over every interleaving

Single use and separation of duties are properties of the history of writes:
no route may bring a request back to `PENDING` or `APPROVED`. The history is
chained, and every write in it is *lawful*: it creates a request under a fresh
key, decides a pending one for a decider who may, moves an open one to
`EXPIRED` or an approved one to `CONSUMED`, or overwrites a request with an
expired copy of itself. From this the life of a consumed request follows
backwards to its creation, whatever ran in between.

That each call only makes lawful writes is a rely-guarantee argument. What a
call has read may be stale when it writes, but two things it relies on are not:
a request once written keeps everything but its status and its decision, and
an identifier a call has drawn is used by no other call.
-/

open History

/-! ## Lawful writes -/

/-- **A move of an approval request** along its life. -/
inductive Moves : Write Caller ApprovalRequest → Prop where
  /-- `create` inserts a request as pending and undecided, under a fresh key. -/
  | created {who : Caller} {r : ApprovalRequest} (hstatus : r.status = .PENDING)
      (hopen : r.decidedBy = none ∧ r.decidedAt = none)
      (hintent : ∀ intent, who.call = .create intent → r.toApprovalIntent = intent) :
      Moves ⟨who, none, r⟩
  /-- `decide` grants or denies a pending request. -/
  | decided {who : Caller} {r : ApprovalRequest} {decision : ApprovalDecision}
      {decidedBy role : String} {now : Timestamp} (hstatus : r.status = .PENDING)
      (hcall : who.call = .decide r.tenantId r.approvalId decision decidedBy role)
      (hduty : ApprovalService.decisionError r decidedBy role = none) :
      Moves ⟨who, some r, ToolPlane.transitioned (ApprovalService.decidedStatus decision)
        (some decidedBy) (some now) r⟩
  /-- `get` expires an open request. -/
  | expired {who : Caller} {r : ApprovalRequest}
      (hstatus : r.status = .PENDING ∨ r.status = .APPROVED) :
      Moves ⟨who, some r, ToolPlane.transitioned .EXPIRED none none r⟩
  /-- `consume` flips an approved request. -/
  | consumed {who : Caller} {r : ApprovalRequest} (hstatus : r.status = .APPROVED) :
      Moves ⟨who, some r, ToolPlane.transitioned .CONSUMED none none r⟩

/-- **A lawful write of an approval request**: a move, or an expired copy that
`find_approved` or `find_pending` writes back. -/
inductive Lawful : Write Caller ApprovalRequest → Prop where
  | moved {w : Write Caller ApprovalRequest} (h : Moves w) : Lawful w
  | overwritten {who : Caller} {row r : ApprovalRequest} (hcore : r.core = row.core)
      (hstatus : r.status = .EXPIRED) : Lawful ⟨who, some row, r⟩

namespace Lawful

variable {w : Write Caller ApprovalRequest}

/-- A lawful write keeps everything but the status and the decision. -/
theorem core_eq (h : Lawful w) {r : ApprovalRequest} (hr : w.before = some r) :
    w.after.core = r.core := by
  cases h with
  | overwritten hcore => obtain rfl := Option.some.inj hr; exact hcore
  | moved h =>
    cases h with
    | created => cases hr
    | decided => obtain rfl := Option.some.inj hr; rfl
    | expired => obtain rfl := Option.some.inj hr; rfl
    | consumed => obtain rfl := Option.some.inj hr; rfl

/-- What is left with another status than `EXPIRED` has moved. -/
theorem moves (h : Lawful w) (hs : w.after.status ≠ .EXPIRED) : Moves w := by
  cases h with
  | moved h => exact h
  | overwritten _ hstatus => exact absurd hstatus hs

/-- Only a creation leaves a pending request. -/
theorem of_pending (h : Lawful w) (hs : w.after.status = .PENDING) :
    w.before = none ∧ ∀ intent, w.author.call = .create intent →
      w.after.toApprovalIntent = intent := by
  cases h.moves (by simp [hs]) with
  | created _ _ hintent => exact ⟨rfl, hintent⟩
  | @decided _ _ decision => cases decision <;> cases hs
  | expired => cases hs
  | consumed => cases hs

/-- Only a grant leaves an approved request. -/
theorem of_approved (h : Lawful w) (hs : w.after.status = .APPROVED) :
    ∃ r decidedBy role, w.before = some r ∧ r.status = .PENDING
      ∧ w.author.call = .decide r.tenantId r.approvalId .APPROVE decidedBy role
      ∧ ApprovalService.decisionError r decidedBy role = none := by
  cases h.moves (by simp [hs]) with
  | created hstatus => rw [hstatus] at hs; cases hs
  | @decided _ r decision decidedBy role _ hstatus hcall hduty =>
    cases decision with
    | APPROVE => exact ⟨r, decidedBy, role, rfl, hstatus, hcall, hduty⟩
    | DENY => cases hs
  | expired => cases hs
  | consumed => cases hs

/-- Only a consumption leaves a consumed request. -/
theorem of_consumed (h : Lawful w) (hs : w.after.status = .CONSUMED) :
    ∃ r, w.before = some r ∧ r.status = .APPROVED := by
  cases h.moves (by simp [hs]) with
  | created hstatus => rw [hstatus] at hs; cases hs
  | @decided _ _ decision => cases decision <;> cases hs
  | expired => cases hs
  | @consumed _ r hstatus => exact ⟨r, rfl, hstatus⟩

/-- **Nothing brings a consumed or expired request back.** -/
theorem spent (h : Lawful w) {r : ApprovalRequest} (hr : w.before = some r)
    (hs : r.status = .CONSUMED ∨ r.status = .EXPIRED) :
    w.after.status = .CONSUMED ∨ w.after.status = .EXPIRED := by
  cases h with
  | overwritten _ hstatus => exact .inr hstatus
  | moved h =>
    cases h with
    | created => cases hr
    | decided hstatus =>
      obtain rfl := Option.some.inj hr
      rw [hstatus] at hs
      simp at hs
    | expired => exact .inr rfl
    | consumed => exact .inl rfl

end Lawful

/-! ## One write to the table -/

namespace ToolPlane

/-- Leave a row under its key. -/
def put (who : Caller) (before : Option ApprovalRequest) (after : ApprovalRequest)
    (s : ToolPlane) : ToolPlane :=
  { s with
    approvals := match before with
      | none => s.approvals ++ [after]
      | some _ => s.approvals.map (fun x => if x.key = after.key then after else x)
    trail := s.trail ++ [⟨who, before, after⟩] }

/-- What is in the table under which identifier. -/
def ids (s : ToolPlane) : List Uuid := s.approvals.map ApprovalRequest.approvalId

end ToolPlane

open ToolPlane

/-- **The invariant of the approval requests**: the history is chained and
lawful, the table is what the history leaves, and its identifiers are distinct
and drawn. `law` is a further condition on writes. -/
structure TrailInv (law : Write Caller ApprovalRequest → Prop) (s : ToolPlane) : Prop where
  chained : Chained ApprovalRequest.key s.trail
  lawful : ∀ w ∈ s.trail, Lawful w ∧ law w
  stored : ∀ k, s.approval? k = current ApprovalRequest.key s.trail k
  ids : s.ids.Nodup
  drawn : ∀ id ∈ s.ids, id ∈ s.issued.map Prod.snd
  fresh : (s.issued.map Prod.snd).Nodup

section Table

variable {law : Write Caller ApprovalRequest → Prop} {s : ToolPlane} {kind : StoreKind}
  {who : Caller} {r row : ApprovalRequest}

theorem approval?_eq_some (h : s.ids.Nodup) {k : ApprovalKey} :
    s.approval? k = some row ↔ row ∈ s.approvals ∧ row.key = k := by
  constructor
  · intro hr
    exact ⟨List.mem_of_find?_eq_some hr, by simpa using List.find?_some hr⟩
  · rintro ⟨hmem, rfl⟩
    cases hf : s.approval? row.key with
    | none =>
      have hno := List.find?_eq_none.mp hf row hmem
      simp at hno
    | some x =>
      have hx : x ∈ s.approvals := List.mem_of_find?_eq_some hf
      have hkey : x.key = row.key := by simpa using List.find?_some hf
      rw [List.inj_on_of_nodup_map h hx hmem (congrArg Prod.snd hkey)]

/-- Either implementation finds the request under its key. -/
theorem getApproval_eq (h : s.ids.Nodup) (kind : StoreKind) (tenantId approvalId : Uuid) :
    s.getApproval kind tenantId approvalId = s.approval? (tenantId, approvalId) := by
  cases kind with
  | database => rfl
  | memory =>
    show (s.approvals.find? (fun r => r.approvalId = approvalId)).filter
      (fun r => r.tenantId = tenantId) = _
    cases hf : s.approval? (tenantId, approvalId) with
    | some x =>
      obtain ⟨hx, hkey⟩ := (approval?_eq_some h).mp hf
      obtain ⟨ht, hid⟩ := Prod.mk.inj hkey
      cases hg : s.approvals.find? (fun r => r.approvalId = approvalId) with
      | none => exact absurd hid (by simpa using List.find?_eq_none.mp hg x hx)
      | some y =>
        have hy : y ∈ s.approvals := List.mem_of_find?_eq_some hg
        have hyid : y.approvalId = approvalId := by simpa using List.find?_some hg
        rw [List.inj_on_of_nodup_map h hy hx (hyid.trans hid.symm)]
        simp [ht]
    | none =>
      cases hg : s.approvals.find? (fun r => r.approvalId = approvalId) with
      | none => rfl
      | some y =>
        have hy : y ∈ s.approvals := List.mem_of_find?_eq_some hg
        have hyid : y.approvalId = approvalId := by simpa using List.find?_some hg
        have hne : y.tenantId ≠ tenantId := by
          intro hyt
          have hkey : y.key = (tenantId, approvalId) := Prod.ext hyt hyid
          rw [(approval?_eq_some h).mpr ⟨hy, hkey⟩] at hf
          cases hf
        simp [hne]

/-- Two rows of one key are the same row. -/
theorem eq_of_key (h : s.ids.Nodup) {x y : ApprovalRequest} (hx : x ∈ s.approvals)
    (hy : y ∈ s.approvals) (hkey : x.key = y.key) : x = y :=
  List.inj_on_of_nodup_map h hx hy (congrArg Prod.snd hkey)

/-- An `upsert` under an unused identifier inserts the request. -/
theorem upsertApproval_new (hid : r.approvalId ∉ s.ids) :
    s.upsertApproval kind who r = s.put who none r := by
  have hnone : s.approvals.find? (sameApproval kind r) = none := by
    refine List.find?_eq_none.mpr (fun x hx hsame => hid ?_)
    have hxid : x.approvalId = r.approvalId := by
      cases kind with
      | memory => simpa [sameApproval] using hsame
      | database =>
        have hkey : x.key = r.key := by simpa [sameApproval] using hsame
        exact congrArg Prod.snd hkey
    exact hxid ▸ List.mem_map_of_mem hx
  unfold upsertApproval
  rw [hnone]
  rfl

/-- An `upsert` of a stored request overwrites its row, and no other. -/
theorem upsertApproval_old (h : s.ids.Nodup) (hrow : s.approval? r.key = some row)
    (hcore : r.core = row.core) :
    s.upsertApproval kind who r = s.put who (some row) (overwriteApproval kind r row) := by
  obtain ⟨hmem, hkey⟩ := (approval?_eq_some h).mp hrow
  have hsame : ∀ x ∈ s.approvals, sameApproval kind r x = true ↔ x = row := by
    intro x hx
    cases kind with
    | memory =>
      have hrid : r.approvalId = row.approvalId := congrArg Prod.snd hkey.symm
      constructor
      · intro hs
        have hxid : x.approvalId = r.approvalId := by simpa [sameApproval] using hs
        exact List.inj_on_of_nodup_map h hx hmem (hxid.trans hrid)
      · rintro rfl
        simpa [sameApproval] using hrid.symm
    | database =>
      constructor
      · intro hs
        have hxk : x.key = r.key := by simpa [sameApproval] using hs
        exact eq_of_key h hx hmem (hxk.trans hkey.symm)
      · rintro rfl
        simpa [sameApproval] using hkey
  have hfound : s.approvals.find? (sameApproval kind r) = some row := by
    cases hf : s.approvals.find? (sameApproval kind r) with
    | none =>
      exact absurd ((hsame row hmem).mpr rfl) (by simpa using List.find?_eq_none.mp hf row hmem)
    | some x =>
      rw [(hsame x (List.mem_of_find?_eq_some hf)).mp (List.find?_some hf)]
  have hafter : (overwriteApproval kind r row).key = row.key := by
    cases kind with
    | memory => exact hkey.symm
    | database => rfl
  have hmap : s.approvals.map (fun x => if sameApproval kind r x then
        overwriteApproval kind r x else x)
      = s.approvals.map (fun x => if x.key = (overwriteApproval kind r row).key then
        overwriteApproval kind r row else x) := by
    refine List.map_congr_left (fun x hx => ?_)
    by_cases hx' : x = row
    · rw [if_pos ((hsame x hx).mpr hx'), hafter, hx', if_pos rfl]
    · rw [if_neg (fun hs => hx' ((hsame x hx).mp hs)), if_neg]
      intro hk
      exact hx' (eq_of_key h hx hmem (hk.trans hafter))
  unfold upsertApproval put
  rw [hfound]
  simp only [hmap]

/-- What an overwritten row keeps and what it takes. -/
theorem overwriteApproval_core (kind : StoreKind) (hcore : r.core = row.core) :
    (overwriteApproval kind r row).core = row.core := by
  cases kind with
  | memory => exact hcore
  | database => rfl

@[simp] theorem overwriteApproval_status :
    (overwriteApproval kind r row).status = r.status := by
  cases kind <;> rfl

@[simp] theorem overwriteApproval_decidedBy :
    (overwriteApproval kind r row).decidedBy = r.decidedBy := by
  cases kind <;> rfl

@[simp] theorem overwriteApproval_decidedAt :
    (overwriteApproval kind r row).decidedAt = r.decidedAt := by
  cases kind <;> rfl

/-- A transition that finds its status leaves the row it returns. -/
theorem transition_eq (h : s.ids.Nodup) (kind : StoreKind) (who : Caller)
    (tenantId approvalId : Uuid)
    (fromStatuses : List ApprovalStatus) (toStatus : ApprovalStatus) (decidedBy : Option String)
    (decidedAt : Option Timestamp) :
    s.transition kind who tenantId approvalId fromStatuses toStatus decidedBy decidedAt
        = (none, s)
    ∨ ∃ row, s.approval? (tenantId, approvalId) = some row ∧ row.status ∈ fromStatuses
      ∧ s.transition kind who tenantId approvalId fromStatuses toStatus decidedBy decidedAt
        = (some (transitioned toStatus decidedBy decidedAt row),
          s.put who (some row) (transitioned toStatus decidedBy decidedAt row)) := by
  unfold transition
  rw [getApproval_eq h]
  cases hrow : s.approval? (tenantId, approvalId) with
  | none => exact .inl rfl
  | some row =>
    by_cases hst : row.status ∈ fromStatuses
    · refine .inr ⟨row, rfl, hst, ?_⟩
      simp only [if_pos hst]
      rfl
    · exact .inl (if_neg hst)

theorem ids_put_new (who : Caller) (after : ApprovalRequest) (s : ToolPlane) :
    (s.put who none after).ids = s.ids ++ [after.approvalId] :=
  List.map_append

theorem ids_put_old (who : Caller) (row after : ApprovalRequest) (s : ToolPlane) :
    (s.put who (some row) after).ids = s.ids := by
  show (s.approvals.map (fun x => if x.key = after.key then after else x)).map
    ApprovalRequest.approvalId = s.approvals.map ApprovalRequest.approvalId
  rw [List.map_map]
  refine List.map_congr_left (fun x _ => ?_)
  show (if x.key = after.key then after else x).approvalId = x.approvalId
  split
  · rename_i hk
    exact congrArg Prod.snd hk.symm
  · rfl

/-- **What the table holds after one more write.** -/
theorem approval?_put {before : Option ApprovalRequest} {after : ApprovalRequest}
    (hbefore : s.approval? after.key = before) (k : ApprovalKey) :
    (s.put who before after).approval? k
      = if after.key = k then some after else s.approval? k := by
  cases before with
  | none =>
    show (s.approvals ++ [after]).find? (fun r => r.key = k) = _
    rw [List.find?_append, List.find?_singleton]
    by_cases hk : after.key = k
    · have hnone : s.approvals.find? (fun r => r.key = k) = none := by
        rw [← hk]
        exact hbefore
      rw [hnone, if_pos hk]
      simp [hk]
    · rw [if_neg hk]
      simp only [hk, decide_false]
      exact Option.or_none
  | some row =>
    show (s.approvals.map (fun x => if x.key = after.key then after else x)).find?
      (fun r => r.key = k) = _
    rw [List.find?_map]
    -- Replacing a row by one of the same key changes no lookup.
    have hkeys : (fun r : ApprovalRequest => decide (r.key = k))
        ∘ (fun x => if x.key = after.key then after else x) = fun r => decide (r.key = k) := by
      funext x
      show decide ((if x.key = after.key then after else x).key = k) = decide (x.key = k)
      by_cases hx : x.key = after.key
      · rw [if_pos hx, hx]
      · rw [if_neg hx]
    rw [hkeys]
    show (s.approval? k).map _ = _
    by_cases hk : after.key = k
    · rw [if_pos hk, ← hk, hbefore]
      have hrow : row.key = after.key := by simpa using List.find?_some hbefore
      simp [hrow]
    · rw [if_neg hk]
      cases hx : s.approval? k with
      | none => rfl
      | some x =>
        have hxk : x.key = k := by simpa using List.find?_some hx
        have hne : x.key ≠ after.key := fun h => hk (h.symm.trans hxk)
        simp [hne]

/-- **A lawful write keeps the invariant.** -/
theorem TrailInv.put (h : TrailInv law s) {before : Option ApprovalRequest}
    {after : ApprovalRequest} (hbefore : s.approval? after.key = before)
    (hnew : before = none → after.approvalId ∉ s.ids
      ∧ after.approvalId ∈ s.issued.map Prod.snd)
    (hw : Lawful ⟨who, before, after⟩) (hl : law ⟨who, before, after⟩) :
    TrailInv law (s.put who before after) := by
  refine ⟨?_, ?_, ?_, ?_, ?_, h.fresh⟩
  · refine (chained_snoc _).mpr ⟨h.chained, ?_⟩
    exact hbefore.symm.trans (h.stored after.key)
  · intro w hmem
    rcases List.mem_append.mp hmem with hmem | hmem
    · exact h.lawful w hmem
    · rw [List.mem_singleton.mp hmem]
      exact ⟨hw, hl⟩
  · intro k
    show _ = current ApprovalRequest.key (s.trail ++ [⟨who, before, after⟩]) k
    rw [approval?_put hbefore, current_snoc, h.stored k]
  · cases before with
    | none =>
      rw [ids_put_new, List.nodup_append]
      refine ⟨h.ids, by simp, ?_⟩
      intro a ha b hb hab
      rw [List.mem_singleton] at hb
      exact (hnew rfl).1 (hb ▸ hab ▸ ha)
    | some row =>
      rw [ids_put_old]
      exact h.ids
  · intro id hid
    cases before with
    | none =>
      rw [ids_put_new] at hid
      rcases List.mem_append.mp hid with hid | hid
      · exact h.drawn id hid
      · rw [List.mem_singleton.mp hid]
        exact (hnew rfl).2
    | some row =>
      rw [ids_put_old] at hid
      exact h.drawn id hid

end Table

/-! ## What a call relies on -/

/-- **What the call running as `pid` relies on**: the history only grows, and an
identifier it has drawn stays its own and unused. -/
structure TrailRely (pid : ℕ) (a b : ToolPlane) : Prop where
  trail : a.trail <+: b.trail
  drawn : ∀ id, (pid, id) ∈ a.issued → (pid, id) ∈ b.issued
  unused : ∀ id, (pid, id) ∈ a.issued → id ∉ a.ids → id ∉ b.ids

theorem TrailRely.refl (pid : ℕ) (a : ToolPlane) : TrailRely pid a a :=
  ⟨List.prefix_refl _, fun _ h => h, fun _ _ h => h⟩

theorem TrailRely.trans {pid : ℕ} {a b c : ToolPlane} (hab : TrailRely pid a b)
    (hbc : TrailRely pid b c) : TrailRely pid a c :=
  ⟨hab.trail.trans hbc.trail, fun id h => hbc.drawn id (hab.drawn id h),
    fun id h hu => hbc.unused id (hab.drawn id h) (hab.unused id h hu)⟩

/-- A request has been written, with the fields `r` was read with. -/
def Known (r : ApprovalRequest) (s : ToolPlane) : Prop :=
  ∃ w ∈ s.trail, w.after.core = r.core

/-- The identifier is drawn by `pid` and unused. -/
def Reserved (pid : ℕ) (id : Uuid) (s : ToolPlane) : Prop :=
  (pid, id) ∈ s.issued ∧ id ∉ s.ids

section Facts

variable {law : Write Caller ApprovalRequest → Prop} {a b s : ToolPlane} {pid : ℕ}
  {r : ApprovalRequest}

theorem Known.later (h : Known r a) (ht : a.trail <+: b.trail) : Known r b := by
  obtain ⟨w, hw, hcore⟩ := h
  exact ⟨w, ht.subset hw, hcore⟩

theorem Reserved.rely {id : Uuid} (h : Reserved pid id a) (hr : TrailRely pid a b) :
    Reserved pid id b :=
  ⟨hr.drawn id h.1, hr.unused id h.1 h.2⟩

/-- **A request that has been written is in the table**, as it was created. -/
theorem Known.stored (h : Known r s) (hs : TrailInv law s) :
    ∃ row, s.approval? r.key = some row ∧ row.core = r.core := by
  obtain ⟨w, hw, hcore⟩ := h
  obtain ⟨pre, post, hsplit⟩ := List.append_of_mem hw
  have hkey : w.after.key = r.key := ApprovalRequest.key_eq_of_core hcore
  have htrail : s.trail = (pre ++ [w]) ++ post := by simp [hsplit]
  have hnow : ∃ x, current ApprovalRequest.key (pre ++ [w]) r.key = some x
      ∧ x.core = r.core := by
    rw [current_snoc, if_pos hkey]
    exact ⟨w.after, rfl, hcore⟩
  -- No lawful write leaves the set of rows with these fields.
  obtain ⟨x, hx, hxcore⟩ := current_absorbed (htrail ▸ hs.chained) (fun v hv x hx hxc =>
    ((hs.lawful v (by simp [htrail, hv])).1.core_eq hx).trans hxc) hnow
  refine ⟨x, ?_, hxcore⟩
  rw [hs.stored, htrail]
  exact hx

/-- What is in the table has been written. -/
theorem TrailInv.known (h : TrailInv law s) {k : ApprovalKey} (hr : s.approval? k = some r) :
    Known r s := by
  rw [h.stored] at hr
  obtain ⟨pre, w, post, hsplit, hafter, -⟩ := exists_of_current _ hr
  exact ⟨w, by simp [hsplit], by rw [hafter]⟩

/-- A write to a row is interference for everyone else. -/
theorem rely_put (h : TrailInv law s) {who : Caller} {before : Option ApprovalRequest}
    {after : ApprovalRequest}
    (hnew : before = none → Reserved who.pid after.approvalId s) {q : ℕ} (hq : q ≠ who.pid) :
    TrailRely q s (s.put who before after) := by
  refine ⟨List.prefix_append _ _, fun id hid => hid, fun id hid hu => ?_⟩
  cases before with
  | some row =>
    rw [ids_put_old]
    exact hu
  | none =>
    rw [ids_put_new]
    intro hmem
    rcases List.mem_append.mp hmem with hmem | hmem
    · exact hu hmem
    · -- The identifier would be drawn by two calls.
      have hown := (hnew rfl).1
      rw [← List.mem_singleton.mp hmem] at hown
      exact hq (congrArg Prod.fst (List.inj_on_of_nodup_map h.fresh hid hown rfl))

end Facts

/-! ## What the requests of a call do -/

/-- The request touches neither approval requests nor identifiers. -/
def ToolOp.isNeutral : ToolOp → Bool
  | .uuid4 => false
  | .upsertApproval _ => false
  | .transition .. => false
  | _ => true

/-- **A neutral request leaves the approval requests alone.** -/
theorem serve_neutral {P : ToolPlatform} {who : Caller} {c : ToolChoice} {s s' : ToolPlane}
    {op : ToolOp} {r : Except ToolException (ToolRes op)} (hop : op.isNeutral = true)
    (h : serveTool P who c s op = some (r, s')) :
    s'.approvals = s.approvals ∧ s'.trail = s.trail ∧ s'.issued = s.issued := by
  cases op with
  | uuid4 => cases hop
  | upsertApproval => cases hop
  | transition => cases hop
  | findReplay =>
    rcases serve_findReplay h with ⟨x, -, -, rfl⟩ | ⟨-, -, rfl⟩ | ⟨-, rfl⟩
    all_goals exact ⟨rfl, rfl, rfl⟩
  | record a =>
    rcases serve_record h with ⟨s₁, hs₁, rfl, -⟩ | ⟨-, rfl, -⟩
    · unfold ToolPlane.record at hs₁
      split at hs₁
      · obtain rfl := Option.some.inj hs₁
        exact ⟨rfl, rfl, rfl⟩
      · split at hs₁
        · cases hs₁
        · obtain rfl := Option.some.inj hs₁
          exact ⟨rfl, rfl, rfl⟩
    · exact ⟨rfl, rfl, rfl⟩
  | execute =>
    obtain ⟨a, -, rfl⟩ := serve_execute h
    exact ⟨rfl, rfl, rfl⟩
  | upsertCheckpoint =>
    rcases serve_upsertCheckpoint h with rfl | ⟨-, rfl⟩
    · unfold ToolPlane.upsertCheckpoint
      split
      all_goals exact ⟨rfl, rfl, rfl⟩
    · exact ⟨rfl, rfl, rfl⟩
  | upsertReconciliation =>
    rcases serve_upsertReconciliation h with rfl | ⟨-, rfl⟩
    · exact ⟨rfl, rfl, rfl⟩
    · exact ⟨rfl, rfl, rfl⟩
  | getReconciliation =>
    rcases serve_getReconciliation h with ⟨-, -, rfl⟩ | ⟨-, rfl⟩
    all_goals exact ⟨rfl, rfl, rfl⟩
  | now => rw [serve_read rfl h]; exact ⟨rfl, rfl, rfl⟩
  | getApproval => rw [serve_read rfl h]; exact ⟨rfl, rfl, rfl⟩
  | findOpen => rw [serve_read rfl h]; exact ⟨rfl, rfl, rfl⟩
  | resolveTool => rw [serve_read rfl h]; exact ⟨rfl, rfl, rfl⟩
  | hasName => rw [serve_read rfl h]; exact ⟨rfl, rfl, rfl⟩
  | getCall => rw [serve_read rfl h]; exact ⟨rfl, rfl, rfl⟩
  | getCheckpoint => rw [serve_read rfl h]; exact ⟨rfl, rfl, rfl⟩
  | acquireLease => rw [serve_read rfl h]; exact ⟨rfl, rfl, rfl⟩
  | releaseLease => rw [serve_read rfl h]; exact ⟨rfl, rfl, rfl⟩

/-- What keeps the table, the history and the identifiers keeps the invariant,
and is interference for everyone. -/
theorem TrailInv.same {law : Write Caller ApprovalRequest → Prop} {s s' : ToolPlane}
    (h : TrailInv law s) (ha : s'.approvals = s.approvals) (ht : s'.trail = s.trail)
    (hi : s'.issued = s.issued) : TrailInv law s' ∧ ∀ q, TrailRely q s s' := by
  have hids : s'.ids = s.ids := congrArg (List.map ApprovalRequest.approvalId) ha
  refine ⟨⟨ht ▸ h.chained, ht ▸ h.lawful, ?_, hids ▸ h.ids, ?_, hi ▸ h.fresh⟩, ?_⟩
  · intro k
    show s'.approvals.find? _ = _
    rw [ha, ht]
    exact h.stored k
  · rw [hids, hi]
    exact h.drawn
  · intro q
    refine ⟨ht ▸ List.prefix_refl _, fun id hid => hi ▸ hid, fun id _ hu => ?_⟩
    rw [hids]
    exact hu

/-- Drawing an identifier keeps the invariant, and is interference for everyone
else. -/
theorem TrailInv.draw {law : Write Caller ApprovalRequest → Prop} {s : ToolPlane}
    (h : TrailInv law s) {pid : ℕ} {id : Uuid} (hid : id ∉ s.issued.map Prod.snd) :
    TrailInv law { s with issued := s.issued ++ [(pid, id)] }
      ∧ (∀ q, TrailRely q s { s with issued := s.issued ++ [(pid, id)] })
      ∧ Reserved pid id { s with issued := s.issued ++ [(pid, id)] } := by
  refine ⟨⟨h.chained, h.lawful, h.stored, h.ids, ?_, ?_⟩, fun q => ?_, ?_, ?_⟩
  · intro x hx
    rw [List.map_append]
    exact List.mem_append_left _ (h.drawn x hx)
  · show (s.issued ++ [(pid, id)]).map Prod.snd |>.Nodup
    rw [List.map_append, List.nodup_append]
    refine ⟨h.fresh, by simp, ?_⟩
    intro a ha b hb hab
    have hb : b = id := List.mem_singleton.mp hb
    exact hid (hb ▸ hab ▸ ha)
  · exact ⟨List.prefix_refl _, fun x hx => List.mem_append_left _ hx, fun x _ hu => hu⟩
  · exact List.mem_append_right _ (List.mem_singleton.mpr rfl)
  · exact fun hmem => hid (h.drawn id hmem)

/-! ## The services, one call among others -/

section Services

variable {P : ToolPlatform} {law : Write Caller ApprovalRequest → Prop}
  {allow : ℕ → ToolChoice → ToolCall × ToolOp → ToolPlane → Prop} {pid : ℕ} {call : ToolCall}
  {α β : Type} {s : ToolPlane}

/-- **Every lawful write meets `law`**: a move by the invariant alone, and an
expired copy that is written back by the condition on requests. -/
structure Admits (P : ToolPlatform) (law : Write Caller ApprovalRequest → Prop)
    (allow : ℕ → ToolChoice → ToolCall × ToolOp → ToolPlane → Prop) : Prop where
  moved : ∀ s w, TrailInv law s → s.approval? w.after.key = w.before → Moves w → law w
  overwritten : ∀ pid c call r s row, allow pid c (call, .upsertApproval r) s →
    (∀ e, c ≠ .fault e) → TrailInv law s → s.approval? r.key = some row → r.core = row.core →
    r.status = .EXPIRED → law ⟨⟨pid, call⟩, some row, overwriteApproval P.kind r row⟩

/-- Safety with respect to the approval requests. -/
abbrev TrailSafe (P : ToolPlatform) (law : Write Caller ApprovalRequest → Prop)
    (allow : ℕ → ToolChoice → ToolCall × ToolOp → ToolPlane → Prop) (pid : ℕ) (call : ToolCall)
    (p : ToolProg α) (Q : Except ToolException α → ToolPlane → Prop) (s : ToolPlane) : Prop :=
  ToolSafe P (TrailInv law) TrailRely allow pid call p Q s

/-- A program that may run anywhere, with nothing promised of its end. -/
def Harmless (P : ToolPlatform) (law : Write Caller ApprovalRequest → Prop)
    (allow : ℕ → ToolChoice → ToolCall × ToolOp → ToolPlane → Prop) (pid : ℕ) (call : ToolCall)
    (p : ToolProg α) : Prop :=
  ∀ s, TrailSafe P law allow pid call p (fun _ _ => True) s

theorem harmless_closed (P : ToolPlatform) (law : Write Caller ApprovalRequest → Prop)
    (allow : ℕ → ToolChoice → ToolCall × ToolOp → ToolPlane → Prop) (pid : ℕ) (call : ToolCall) :
    Prog.Closed (fun _ p => Harmless P law allow pid call p) where
  ret _ _ := trivial
  raise _ _ := trivial
  bind hp hf s := (hp s).bind (fun a s' _ => hf a s') (fun _ _ _ => trivial)
  tryCatch hp hh s := by
    refine (Prog.safe_tryCatch _ _ _ _).mpr ((hp s).mono (fun r s' _ => ?_))
    cases r with
    | ok a => trivial
    | error e => exact hh e s'

/-- **A neutral request** ends with what it is served with. -/
theorem trailSafe_neutral {op : ToolOp} (hop : op.isNeutral = true)
    {Q : Except ToolException (ToolRes op) → ToolPlane → Prop}
    (hQ : ∀ s₁ c r s₂, TrailInv law s₁ → TrailRely pid s s₁ → TrailRely pid s s₂ →
      serveTool P ⟨pid, call⟩ c s₁ op = some (r, s₂) → Q r s₂) :
    TrailSafe P law allow pid call op.ask Q s := by
  refine toolSafe_ask (fun s₁ c r s₂ hinv hrely _ hserve => ?_)
  obtain ⟨ha, ht, hi⟩ := serve_neutral hop hserve
  obtain ⟨hinv₂, hguar⟩ := hinv.same ha ht hi
  exact ⟨hinv₂, fun q _ => hguar q, hQ s₁ c r s₂ hinv hrely (hrely.trans (hguar pid)) hserve⟩

theorem harmless_neutral {op : ToolOp} (hop : op.isNeutral = true) :
    Harmless P law allow pid call op.ask :=
  fun _ => trailSafe_neutral hop (fun _ _ _ _ _ _ _ _ => trivial)

theorem harmless_read (op : ToolOp) (hop : op.reads = true) :
    Harmless P law allow pid call op.ask := by
  refine harmless_neutral ?_
  cases op <;> first | rfl | cases hop

/-- A drawn identifier is the call's own. -/
theorem trailSafe_uuid4 : TrailSafe P law allow pid call ToolOp.uuid4.ask
    (fun r s' => ∀ id, r = .ok id → Reserved pid id s') s := by
  refine toolSafe_ask (fun s₁ c r s₂ hinv _ _ hserve => ?_)
  obtain ⟨id, hid, rfl, rfl⟩ := serve_uuid4 hserve
  obtain ⟨hinv₂, hguar, hres⟩ := hinv.draw hid
  exact ⟨hinv₂, fun q _ => hguar q, fun x hx => Except.ok.inj hx ▸ hres⟩

theorem harmless_uuid4 : Harmless P law allow pid call ToolOp.uuid4.ask :=
  fun _ => trailSafe_uuid4.mono (fun _ _ _ => trivial)

/-- A lawful write to a row, among the others. -/
theorem TrailInv.put_step (hinv : TrailInv law s) {before : Option ApprovalRequest}
    {after : ApprovalRequest} (hbefore : s.approval? after.key = before)
    (hnew : before = none → Reserved pid after.approvalId s)
    (hw : Lawful ⟨⟨pid, call⟩, before, after⟩) (hl : law ⟨⟨pid, call⟩, before, after⟩) :
    TrailInv law (s.put ⟨pid, call⟩ before after)
      ∧ ∀ q, q ≠ pid → TrailRely q s (s.put ⟨pid, call⟩ before after) := by
  refine ⟨hinv.put hbefore ?_ hw hl, fun q hq => rely_put hinv hnew hq⟩
  intro hnone
  obtain ⟨hdrawn, hunused⟩ := hnew hnone
  exact ⟨hunused, List.mem_map_of_mem hdrawn⟩

/-- **Inserting a request** under an identifier of the call's own. -/
theorem trailSafe_insert (hlaw : Admits P law allow) {r : ApprovalRequest}
    (hres : Reserved pid r.approvalId s)
    (hw : Moves ⟨⟨pid, call⟩, none, r⟩) :
    TrailSafe P law allow pid call (ToolOp.upsertApproval r).ask (fun _ _ => True) s := by
  refine toolSafe_ask (fun s₁ c x s₂ hinv hrely hallow hserve => ?_)
  have hres₁ := hres.rely hrely
  rcases serve_upsertApproval hserve with ⟨rfl, -⟩ | ⟨-, rfl⟩
  · rw [upsertApproval_new hres₁.2]
    have hnone : s₁.approval? r.key = none := by
      cases hrow : s₁.approval? r.key with
      | none => rfl
      | some row =>
        obtain ⟨hmem, hkey⟩ := (approval?_eq_some hinv.ids).mp hrow
        have hid : row.approvalId = r.approvalId := congrArg Prod.snd hkey
        exact absurd (hid ▸ List.mem_map_of_mem hmem) hres₁.2
    obtain ⟨hinv₂, hguar⟩ := hinv.put_step hnone (fun _ => hres₁) (.moved hw)
      (hlaw.moved s₁ _ hinv hnone hw)
    exact ⟨hinv₂, hguar, trivial⟩
  · exact ⟨hinv, fun q _ => TrailRely.refl q _, trivial⟩

/-- **Writing back an expired copy** of a request that was read. -/
theorem trailSafe_writeBack (hlaw : Admits P law allow) {r : ApprovalRequest}
    (hknown : Known r s) (hst : r.status = .EXPIRED) :
    TrailSafe P law allow pid call (ToolOp.upsertApproval r).ask (fun _ _ => True) s := by
  refine toolSafe_ask (fun s₁ c x s₂ hinv hrely hallow hserve => ?_)
  obtain ⟨row, hrow, hcore⟩ := (hknown.later hrely.trail).stored hinv
  rcases serve_upsertApproval hserve with ⟨rfl, hc⟩ | ⟨-, rfl⟩
  · rw [upsertApproval_old hinv.ids hrow hcore.symm]
    have hover := overwriteApproval_core P.kind hcore.symm
    have hbefore : s₁.approval? (overwriteApproval P.kind r row).key = some row := by
      rw [ApprovalRequest.key_eq_of_core hover, ApprovalRequest.key_eq_of_core hcore]
      exact hrow
    obtain ⟨hinv₂, hguar⟩ := hinv.put_step hbefore (fun h => by cases h)
      (.overwritten hover (by simpa using hst))
      (hlaw.overwritten pid c call r s₁ row hallow hc hinv hrow hcore.symm hst)
    exact ⟨hinv₂, hguar, trivial⟩
  · exact ⟨hinv, fun q _ => TrailRely.refl q _, trivial⟩

/-- **A compare-and-swap** whose writes are lawful: what it returns, it has
written. -/
theorem trailSafe_transition (hlaw : Admits P law allow) {t id : Uuid}
    {fromStatuses : List ApprovalStatus} {toStatus : ApprovalStatus} {decidedBy : Option String}
    {decidedAt : Option Timestamp}
    (hw : ∀ s₁ row, TrailInv law s₁ → TrailRely pid s s₁ → s₁.approval? (t, id) = some row →
      row.status ∈ fromStatuses →
      Moves ⟨⟨pid, call⟩, some row, transitioned toStatus decidedBy decidedAt row⟩) :
    TrailSafe P law allow pid call
      (ToolOp.transition t id fromStatuses toStatus decidedBy decidedAt).ask
      (fun r s' => s.trail <+: s'.trail ∧ ∀ x, r = .ok (some x) → ∃ row, row.key = (t, id)
        ∧ x = transitioned toStatus decidedBy decidedAt row ∧ row.status ∈ fromStatuses
        ∧ ⟨⟨pid, call⟩, some row, x⟩ ∈ s'.trail ∧ ∃ s₁, TrailInv law s₁ ∧ TrailRely pid s s₁
          ∧ s₁.approval? (t, id) = some row) s := by
  refine toolSafe_ask (fun s₁ c r s₂ hinv hrely hallow hserve => ?_)
  have hstay : TrailInv law s₁ ∧ ∀ q, q ≠ pid → TrailRely q s₁ s₁ :=
    ⟨hinv, fun q _ => TrailRely.refl q _⟩
  rcases transition_eq hinv.ids P.kind ⟨pid, call⟩ t id fromStatuses toStatus decidedBy
      decidedAt with hnone | ⟨row, hrow, hst, heq⟩
  · rcases serve_transition hserve with ⟨rfl, hx⟩ | ⟨⟨e, rfl⟩, rfl⟩
    · rw [hnone] at hx ⊢
      exact ⟨hstay.1, hstay.2, hrely.trail, fun x hxr => by cases hx _ hxr⟩
    · exact ⟨hstay.1, hstay.2, hrely.trail, fun x hxr => by cases hxr⟩
  · rcases serve_transition hserve with ⟨rfl, hx⟩ | ⟨⟨e, rfl⟩, rfl⟩
    · rw [heq] at hx ⊢
      have hkey : row.key = (t, id) := ((approval?_eq_some hinv.ids).mp hrow).2
      have hbefore : s₁.approval? (transitioned toStatus decidedBy decidedAt row).key
          = some row := by
        show s₁.approval? row.key = some row
        rw [hkey]
        exact hrow
      have hmove := hw s₁ row hinv hrely hrow hst
      obtain ⟨hinv₂, hguar⟩ := hinv.put_step hbefore (fun h => by cases h) (.moved hmove)
        (hlaw.moved s₁ _ hinv hbefore hmove)
      refine ⟨hinv₂, hguar, hrely.trail.trans (List.prefix_append _ _),
        fun x hxr => ⟨row, hkey, ?_, hst, ?_, s₁, hinv, hrely, hrow⟩⟩
      · exact Option.some.inj (hx _ hxr)
      · rw [Option.some.inj (hx _ hxr)]
        exact List.mem_append_right _ (List.mem_singleton.mpr rfl)
    · exact ⟨hstay.1, hstay.2, hrely.trail, fun x hxr => by cases hxr⟩

/-- Reading the clock keeps what the others keep. -/
theorem trailSafe_now {F : ToolPlane → Prop} (hF : ∀ b, TrailRely pid s b → F b) :
    TrailSafe P law allow pid call ToolOp.now.ask (fun _ s' => F s') s :=
  trailSafe_neutral rfl (fun _ _ _ s₂ _ _ hrely _ => hF s₂ hrely)

/-- **`get` returns a request that has been written**, under its key. -/
theorem trailSafe_get (hlaw : Admits P law allow) (t id : Uuid) :
    TrailSafe P law allow pid call (ApprovalService.get t id)
      (fun r s' => ∀ x, r = .ok x → x.key = (t, id) ∧ Known x s') s := by
  unfold ApprovalService.get
  have hread : TrailSafe P law allow pid call (ToolOp.getApproval t id).ask
      (fun r s' => ∀ x, r = .ok (some x) → x.key = (t, id) ∧ Known x s') s := by
    refine trailSafe_neutral rfl (fun s₁ c r s₂ hinv _ _ hserve x hx => ?_)
    obtain rfl := serve_read rfl hserve
    subst hx
    have hrow := (serve_getApproval hserve).symm
    rw [getApproval_eq hinv.ids] at hrow
    exact ⟨((approval?_eq_some hinv.ids).mp hrow).2, hinv.known hrow⟩
  refine hread.bind (fun o s₁ ho => ?_) (fun e s' _ x hx => by cases hx)
  cases o with
  | none => exact fun x hx => by cases hx
  | some request =>
    obtain ⟨hkey, hknown⟩ := ho request rfl
    have hreturn : ∀ b : ToolPlane, s₁.trail <+: b.trail → ∀ x,
        (Except.ok request : Except ToolException _) = .ok x → x.key = (t, id) ∧ Known x b := by
      intro b hb x hx
      obtain rfl := Except.ok.inj hx
      exact ⟨hkey, hknown.later hb⟩
    show TrailSafe P law allow pid call (if _ then _ else _) _ _
    split
    · refine (trailSafe_now (fun b hb => hb)).bind (fun now s₂ hs₂ => ?_)
        (fun e s' _ x hx => by cases hx)
      show TrailSafe P law allow pid call (if _ then _ else _) _ _
      split
      · -- The request has expired: it is moved by a compare-and-swap.
        refine (trailSafe_transition hlaw (fun s₃ row _ _ _ hst => .expired ?_)).bind
          (fun moved s₃ hs₃ => ?_) (fun e s' _ x hx => by cases hx)
        · simpa using hst
        · cases moved with
          | none =>
            -- It has moved meanwhile, and the copy is returned as it was read.
            exact hreturn s₃ (hs₂.trail.trans hs₃.1)
          | some expired =>
            intro x hx
            obtain rfl := Except.ok.inj hx
            obtain ⟨row, hrow, rfl, -, hmem, -⟩ := hs₃.2 expired rfl
            exact ⟨hrow, _, hmem, rfl⟩
      · exact hreturn s₂ hs₂.trail
    · exact hreturn s₁ (List.prefix_refl _)

/-- Who may decide depends on what a request was created with. -/
theorem decisionError_congr {r r' : ApprovalRequest} (h : r.core = r'.core)
    (decidedBy role : String) :
    ApprovalService.decisionError r decidedBy role
      = ApprovalService.decisionError r' decidedBy role := by
  have hintent := ApprovalRequest.intent_eq_of_core h
  unfold ApprovalService.decisionError
  rw [hintent]

/-- **`decide` writes what its caller may decide.** -/
theorem harmless_decide (hlaw : Admits P law allow) {t id : Uuid} {decision : ApprovalDecision}
    {decidedBy role : String} (hcall : call = .decide t id decision decidedBy role) :
    Harmless P law allow pid call (ApprovalService.decide t id decision decidedBy role) := by
  intro s
  unfold ApprovalService.decide
  refine (trailSafe_get hlaw t id).bind (fun request s₁ hreq => ?_) (fun _ _ _ => trivial)
  obtain ⟨hkey, hknown⟩ := hreq request rfl
  show TrailSafe P law allow pid call (if _ then _ else _) _ _
  split
  · trivial
  · show TrailSafe P law allow pid call (if _ then _ else _) _ _
    split
    · trivial
    · cases hduty : ApprovalService.decisionError request decidedBy role with
      | some e => trivial
      | none =>
        refine (trailSafe_now (fun b hb => hknown.later hb.trail)).bind (fun now s₂ hs₂ => ?_)
          (fun _ _ _ => trivial)
        refine (trailSafe_transition hlaw (fun s₃ row hinv hrely hrow hst => ?_)).bind
          (fun moved s₃ _ => ?_) (fun _ _ _ => trivial)
        · -- The row is still the request that was read, up to its status.
          obtain ⟨row', hrow', hcore⟩ := (hs₂.later hrely.trail).stored hinv
          rw [hkey, hrow] at hrow'
          obtain rfl := Option.some.inj hrow'
          have hrowkey := ((approval?_eq_some hinv.ids).mp hrow).2
          refine .decided (by simpa using hst) ?_ ((decisionError_congr hcore _ _).trans hduty)
          show call = _
          rw [hcall, show row.tenantId = t from congrArg Prod.fst hrowkey,
            show row.approvalId = id from congrArg Prod.snd hrowkey]
        · cases moved with
          | none => trivial
          | some decided => trivial

/-- **A consumption** by a call: it found the request approved, and flipped it. -/
structure Consumed (who : Caller) (k : ApprovalKey) (b : ApprovalBinding)
    (w : Write Caller ApprovalRequest) : Prop where
  author : w.author = who
  key : w.after.key = k
  before : ∃ r, w.before = some r ∧ r.status = .APPROVED ∧ r.binding = b
  after : w.after.status = .CONSUMED

/-- **`consume` returns after it has consumed** the request, under its binding. -/
theorem trailSafe_consume (hlaw : Admits P law allow) (t id : Uuid) (b : ApprovalBinding) :
    TrailSafe P law allow pid call (ApprovalService.consume t id b)
      (fun r s' => ∀ x, r = .ok x → ∃ w ∈ s'.trail, Consumed ⟨pid, call⟩ (t, id) b w) s := by
  unfold ApprovalService.consume
  refine (trailSafe_get hlaw t id).bind (fun request s₁ hreq => ?_)
    (fun e s' _ x hx => by cases hx)
  obtain ⟨hkey, hknown⟩ := hreq request rfl
  show TrailSafe P law allow pid call (if _ then _ else _) _ _
  split
  · exact fun x hx => by cases hx
  · show TrailSafe P law allow pid call (if _ then _ else _) _ _
    split
    · exact fun x hx => by cases hx
    · show TrailSafe P law allow pid call (if _ then _ else _) _ _
      split
      · exact fun x hx => by cases hx
      · rename_i hbinding
        refine (trailSafe_transition hlaw (fun s₂ row _ _ _ hst => ?_)).bind
          (fun moved s₂ hs₂ => ?_) (fun e s' _ x hx => by cases hx)
        · exact .consumed (by simpa using hst)
        · cases moved with
          | none => exact fun x hx => by cases hx
          | some consumed =>
            intro x _
            obtain ⟨row, hrow, rfl, hst, hmem, s₃, hinv, hrely, hstored⟩ := hs₂.2 consumed rfl
            refine ⟨_, hmem, rfl, hrow, ⟨row, rfl, by simpa using hst, ?_⟩, rfl⟩
            -- The binding was checked on the copy; the row has the same.
            obtain ⟨row', hrow', hcore⟩ := (hknown.later hrely.trail).stored hinv
            rw [hkey, hstored] at hrow'
            obtain rfl := Option.some.inj hrow'
            have hintent := ApprovalRequest.intent_eq_of_core hcore
            rw [hintent]
            exact not_not.mp hbinding

theorem harmless_consume (hlaw : Admits P law allow) (t id : Uuid) (b : ApprovalBinding) :
    Harmless P law allow pid call (ApprovalService.consume t id b) :=
  fun _ => (trailSafe_consume hlaw t id b).mono (fun _ _ _ => trivial)

theorem harmless_get (hlaw : Admits P law allow) (t id : Uuid) :
    Harmless P law allow pid call (ApprovalService.get t id) :=
  fun _ => (trailSafe_get hlaw t id).mono (fun _ _ _ => trivial)

/-- **`find_approved` and `find_pending`** write back at most an expired copy. -/
theorem harmless_findUnexpired (hlaw : Admits P law allow) (status : ApprovalStatus) (t : Uuid)
    (q : ApprovalQuery) :
    Harmless P law allow pid call (ApprovalService.findUnexpired status t q) := by
  intro s
  unfold ApprovalService.findUnexpired
  have hfind : TrailSafe P law allow pid call (ToolOp.findOpen t q [status]).ask
      (fun r s' => ∀ x, r = .ok (some x) → Known x s') s := by
    refine trailSafe_neutral rfl (fun s₁ c r s₂ hinv _ _ hserve x hx => ?_)
    obtain rfl := serve_read rfl hserve
    subst hx
    obtain ⟨hmem, -⟩ := serve_findOpen hserve
    exact hinv.known ((approval?_eq_some hinv.ids).mpr ⟨hmem, rfl⟩)
  refine hfind.bind (fun o s₁ ho => ?_) (fun _ _ _ => trivial)
  cases o with
  | none => trivial
  | some request =>
    refine (trailSafe_now (fun b hb => (ho request rfl).later hb.trail)).bind
      (fun now s₂ hs₂ => ?_) (fun _ _ _ => trivial)
    show TrailSafe P law allow pid call (if _ then _ else _) _ _
    split
    · have hcopy : Known { request with status := .EXPIRED } s₂ := hs₂
      exact (trailSafe_writeBack hlaw hcopy rfl).bind (fun _ _ _ => trivial) (fun _ _ _ => trivial)
    · trivial

/-- **`create` inserts a pending request** under a fresh identifier. -/
theorem harmless_create (hlaw : Admits P law allow) {intent : ApprovalIntent}
    (hcall : ∀ intent', call = .create intent' → intent = intent') :
    Harmless P law allow pid call (ApprovalService.create P intent) := by
  intro s
  unfold ApprovalService.create
  refine (trailSafe_now (fun _ _ => trivial)).bind (fun now s₁ _ => ?_) (fun _ _ _ => trivial)
  refine trailSafe_uuid4.bind (fun id s₂ hid => ?_) (fun _ _ _ => trivial)
  refine (trailSafe_insert hlaw (hid id rfl) (.created rfl ⟨rfl, rfl⟩ hcall)).bind
    (fun _ _ _ => trivial)
    (fun _ _ _ => trivial)

section Invocation

open ToolInvocationService

theorem harmless_recordBlocked (b : Blocked) :
    Harmless P law allow pid call (recordBlocked P b) :=
  (harmless_closed P law allow pid call).bind harmless_uuid4 (fun _ => harmless_neutral rfl)

theorem harmless_attempt (d : ToolDefinition) (params : Dict) (retry : Bool) (left n : ℕ) :
    Harmless P law allow pid call (attempt d params retry left n) := by
  have hc := harmless_closed P law allow pid call
  induction left generalizing n with
  | zero => exact hc.bind (harmless_neutral rfl) (fun _ => hc.ret _)
  | succ left ih =>
    refine hc.bind (harmless_neutral rfl) (fun a => ?_)
    show Harmless P law allow pid call (if _ then _ else _)
    split
    · exact ih (n + 1)
    · exact hc.ret _

theorem harmless_replayOrExecute (d : ToolDefinition) (i : Invocation) (params : Dict)
    (hash : String) : Harmless P law allow pid call (replayOrExecute P d i params hash) := by
  have hc := harmless_closed P law allow pid call
  refine leads_replayOrExecute (hc.leads _) harmless_recordBlocked
    (fun t key => harmless_neutral rfl) (fun r => hc.ret r) ?_
  refine hc.bind (harmless_attempt d params _ _ 0) (fun _ => hc.bind harmless_uuid4 (fun _ => ?_))
  exact hc.bind (harmless_neutral rfl) (fun _ => hc.ret _)

theorem harmless_gate (hlaw : Admits P law allow) (hcall : ∀ intent, call ≠ .create intent)
    (d : ToolDefinition) (i : Invocation) (params : Dict) (hash : String) :
    Harmless P law allow pid call (gateWriteSideEffect P d i params hash) :=
  closed_gate (harmless_closed P law allow pid call) harmless_recordBlocked
    (harmless_findUnexpired hlaw) (harmless_consume hlaw)
    (fun _ => harmless_create hlaw (fun intent h => absurd h (hcall intent))) d i params hash

/-- **An invocation** writes to approval requests through their service only. -/
theorem harmless_invoke (hlaw : Admits P law allow) (hcall : ∀ intent, call ≠ .create intent)
    (i : Invocation) : Harmless P law allow pid call (invoke P i) := by
  have hc := harmless_closed P law allow pid call
  refine leads_invoke hc (hc.leads _) harmless_recordBlocked harmless_read (fun d params => ?_)
  exact leads_gateAndExecute (hc.leads _) harmless_recordBlocked (harmless_gate hlaw hcall)
    (fun hash => harmless_replayOrExecute d i params hash)

end Invocation

theorem harmless_park (p : Parking) : Harmless P law allow pid call (CheckpointService.park p) :=
  closed_park (harmless_closed P law allow pid call) harmless_read harmless_uuid4
    (fun _ => harmless_neutral rfl) p

theorem harmless_resume (hlaw : Admits P law allow) (t id : Uuid) (resumedBy : String) :
    Harmless P law allow pid call (CheckpointService.resume t id resumedBy) :=
  closed_resume (harmless_closed P law allow pid call) harmless_read (harmless_consume hlaw)
    (fun _ => harmless_neutral rfl) t id resumedBy

theorem harmless_resolve (t id : Uuid) (d : ReconciliationDecision) (resolvedBy : String)
    (note : Option String) :
    Harmless P law allow pid call (ReconciliationService.resolve t id d resolvedBy note) :=
  closed_resolve (harmless_closed P law allow pid call) harmless_read
    (fun _ _ => harmless_neutral rfl) (fun _ => harmless_neutral rfl) t id d resolvedBy note

end Services

/-! ## Every interleaving -/

/-- **What a successful `consume` has done**: the history holds its
consumption. -/
def ConsumeDone (pid : ℕ) (call : ToolCall) (r : Except ToolException ToolReply)
    (s : ToolPlane) : Prop :=
  ∀ t id b, call = .consume t id b → ∀ x, r = .ok x →
    ∃ w ∈ s.trail, Consumed ⟨pid, call⟩ (t, id) b w

section Discipline

variable {P : ToolPlatform} {law : Write Caller ApprovalRequest → Prop}
  {allow : ℕ → ToolChoice → ToolCall × ToolOp → ToolPlane → Prop}

/-- Every call of the tool plane is safe among the others. -/
theorem trailSafe_program (hlaw : Admits P law allow) (pid : ℕ) (call : ToolCall)
    (s : ToolPlane) :
    TrailSafe P law allow pid call (call.program P) (ConsumeDone pid call) s := by
  have hother : (∀ t id b, call ≠ .consume t id b) →
      Harmless P law allow pid call (call.program P) →
      TrailSafe P law allow pid call (call.program P) (ConsumeDone pid call) s := by
    intro hne hp
    exact (hp s).mono (fun r s' _ t id b hc => absurd hc (hne t id b))
  have hc := harmless_closed P law allow pid call
  cases call with
  | consume t id b =>
    refine (trailSafe_consume hlaw t id b).bind (fun a s' ha => ?_) (fun e s' _ => ?_)
    · intro t' id' b' hcall x _
      obtain ⟨rfl, rfl, rfl⟩ := ToolCall.consume.inj hcall
      exact ha a rfl
    · exact fun _ _ _ _ x hx => by cases hx
  | create intent =>
    refine hother (by simp) (hc.bind (harmless_create hlaw ?_) (fun _ => hc.ret _))
    exact fun intent' h => ToolCall.create.inj h
  | get t id => exact hother (by simp) (hc.bind (harmless_get hlaw t id) (fun _ => hc.ret _))
  | decide t id d by' role =>
    exact hother (by simp) (hc.bind (harmless_decide hlaw rfl) (fun _ => hc.ret _))
  | findApproved t q =>
    exact hother (by simp) (hc.bind (harmless_findUnexpired hlaw _ t q) (fun _ => hc.ret _))
  | findPending t q =>
    exact hother (by simp) (hc.bind (harmless_findUnexpired hlaw _ t q) (fun _ => hc.ret _))
  | invoke i =>
    exact hother (by simp) (hc.bind (harmless_invoke hlaw (by simp) i) (fun _ => hc.ret _))
  | park p => exact hother (by simp) (hc.bind (harmless_park p) (fun _ => hc.ret _))
  | resume t id by' =>
    exact hother (by simp) (hc.bind (harmless_resume hlaw t id by') (fun _ => hc.ret _))
  | resolve t id d by' note =>
    exact hother (by simp) (hc.bind (harmless_resolve t id d by' note) (fun _ => hc.ret _))

/-- **The discipline of the approval requests.** -/
def approvalDiscipline (hlaw : Admits P law allow) :
    Pool.Discipline (toolPool P) (fun s => ∃ clock, s = ToolPlane.start clock)
      (fun _ _ => True) allow (fun _ _ => True) where
  inv := TrailInv law
  unused _ _ := True
  rely := TrailRely
  post := ConsumeDone
  rely_refl := TrailRely.refl
  rely_trans _ _ _ _ := TrailRely.trans
  unused_rely _ _ _ _ _ := trivial
  start_ok := by
    rintro _ ⟨clock, rfl⟩
    refine ⟨⟨chained_nil _, ?_, fun k => rfl, List.nodup_nil, ?_, List.nodup_nil⟩,
      fun _ => trivial⟩
    · exact fun w hw => absurd hw List.not_mem_nil
    · exact fun id hid => absurd hid List.not_mem_nil
  safe_body := by
    intro pid s call _ _ _
    exact (Prog.safe_tag call (call.program P) _ s).mpr (trailSafe_program hlaw pid call s)
  safe_crash := by
    intro pid s hs
    have habandon : TrailInv law ((toolPool P).abandon pid s)
        ∧ ∀ q, TrailRely q s ((toolPool P).abandon pid s) := hs.same rfl rfl rfl
    exact ⟨habandon.1, fun q _ => habandon.2 q⟩
  safe_env := by
    rintro ⟨now⟩ s s' _ hs henv
    simp only [toolPool] at henv
    split at henv
    · obtain rfl := Option.some.inj henv
      exact hs.same rfl rfl rfl
    · cases henv

end Discipline

/-! ## Single use -/

/-- **A decider who may grant a request**: of a self-service role, and for a
high risk an administrator other than the requester. -/
structure MayGrant (r : ApprovalRequest) (decidedBy role : String) : Prop where
  allowed : role = "TENANT_ADMIN" ∨ role = "AGENT_DEVELOPER"
  highRisk : r.sideEffect = .HIGH_RISK → role = "TENANT_ADMIN" ∧ decidedBy ≠ r.requestedBy

theorem mayGrant_of_decisionError {r : ApprovalRequest} {decidedBy role : String}
    (h : ApprovalService.decisionError r decidedBy role = none) : MayGrant r decidedBy role := by
  unfold ApprovalService.decisionError at h
  split at h
  · rename_i hrisk
    split at h
    · cases h
    · rename_i hself
      split at h
      · rename_i hrole
        have hadmin : role = "TENANT_ADMIN" := by
          simpa [ApprovalService.approverRoles] using hrole
        exact ⟨.inl hadmin, fun _ => ⟨hadmin, hself⟩⟩
      · cases h
  · rename_i hrisk
    split at h
    · rename_i hrole
      refine ⟨?_, fun hr => absurd hr hrisk⟩
      simp only [ApprovalService.selfServiceRoles, ApprovalService.approverRoles,
        List.mem_union_iff, List.mem_cons, List.not_mem_nil, or_false] at hrole
      rcases hrole with (hrole | hrole) | hrole
      · exact .inl hrole
      · exact .inr hrole
      · exact .inl hrole
    · cases h

/-- **The life of a request up to its consumption**: it was created, granted by
a decider who may, and consumed by `who` under the binding it was created
with, in this order. -/
def ConsumedLife (trail : List (Write Caller ApprovalRequest)) (who : Caller) (t id : Uuid)
    (b : ApprovalBinding) : Prop :=
  ∃ created decided consumed : Write Caller ApprovalRequest,
    [created, decided, consumed].Sublist trail
    ∧ created.before = none ∧ created.after.key = (t, id)
    ∧ (∀ intent, created.author.call = .create intent → created.after.toApprovalIntent = intent)
    ∧ created.after.binding = b
    ∧ (∃ decidedBy role, decided.author.call = .decide t id .APPROVE decidedBy role
      ∧ MayGrant created.after decidedBy role)
    ∧ decided.after.key = (t, id) ∧ decided.after.status = .APPROVED
    ∧ consumed.author = who ∧ consumed.after.key = (t, id)
    ∧ consumed.after.status = .CONSUMED

section SingleUse

variable {law : Write Caller ApprovalRequest → Prop} {s : ToolPlane}

/-- **A consumption has a grant before it, and the grant a creation**, by
lawfulness backwards along the history. -/
theorem TrailInv.consumedLife (h : TrailInv law s) {who : Caller} {t id : Uuid}
    {b : ApprovalBinding} {w : Write Caller ApprovalRequest} (hw : w ∈ s.trail)
    (hc : Consumed who (t, id) b w) : ConsumedLife s.trail who t id b := by
  obtain ⟨r, hr, hrst, hrb⟩ := hc.before
  obtain ⟨pre, post, hsplit⟩ := List.append_of_mem hw
  have hcore : w.after.core = r.core := (h.lawful w hw).1.core_eq hr
  -- The approved row was left by a grant.
  obtain ⟨pre₁, w₁, mid₁, rfl, hw₁, -⟩ := h.chained.exists_before hsplit hr
  have hmem₁ : w₁ ∈ s.trail := by simp [hsplit]
  obtain ⟨r₀, decidedBy, role, hr₀, hr₀st, hcall, hduty⟩ :=
    (h.lawful w₁ hmem₁).1.of_approved (hw₁ ▸ hrst)
  have hcore₁ : r.core = r₀.core := hw₁ ▸ (h.lawful w₁ hmem₁).1.core_eq hr₀
  -- The pending row was left by a creation.
  have hsplit₁ : s.trail = pre₁ ++ w₁ :: (mid₁ ++ w :: post) := by simp [hsplit]
  obtain ⟨pre₀, w₀, mid₀, rfl, hw₀, -⟩ := h.chained.exists_before hsplit₁ hr₀
  have hmem₀ : w₀ ∈ s.trail := by simp [hsplit]
  obtain ⟨hnone, hintent⟩ := (h.lawful w₀ hmem₀).1.of_pending (hw₀ ▸ hr₀st)
  have hkey : r₀.key = (t, id) := by
    rw [← hc.key]
    exact ApprovalRequest.key_eq_of_core (hcore.trans hcore₁).symm
  refine ⟨w₀, w₁, w, ?_, hnone, hw₀ ▸ hkey, hintent, ?_, ⟨decidedBy, role, ?_, ?_⟩, ?_, ?_,
    hc.author, hc.key, hc.after⟩
  · rw [hsplit₁]
    simp only [List.append_assoc, List.cons_append]
    refine List.sublist_append_of_sublist_right (List.Sublist.cons_cons w₀ ?_)
    refine List.sublist_append_of_sublist_right (List.Sublist.cons_cons w₁ ?_)
    refine List.sublist_append_of_sublist_right (List.Sublist.cons_cons w ?_)
    exact List.nil_sublist post
  · rw [hw₀, ← hrb, ApprovalRequest.intent_eq_of_core hcore₁]
  · rw [hcall, show r₀.tenantId = t from congrArg Prod.fst hkey,
      show r₀.approvalId = id from congrArg Prod.snd hkey]
  · rw [hw₀]
    exact mayGrant_of_decisionError hduty
  · rw [hw₁, ApprovalRequest.key_eq_of_core hcore₁]
    exact hkey
  · rw [hw₁]
    exact hrst

/-- Both writes consume one request. -/
def BothConsume (w w' : Write Caller ApprovalRequest) : Prop :=
  w.after.status = .CONSUMED ∧ w'.after.status = .CONSUMED ∧ w'.after.key = w.after.key

/-- **No request is consumed twice.** -/
theorem TrailInv.consumed_once (h : TrailInv law s) :
    s.trail.Pairwise (fun w w' => ¬ BothConsume w w') := by
  -- A request is consumed from `APPROVED`, and what is consumed stays spent.
  refine h.chained.enters_once (Q := fun r => r.status = .CONSUMED ∨ r.status = .EXPIRED) ?_ ?_ ?_
  · exact fun w hw r hr hq => (h.lawful w hw).1.spent hr hq
  · exact fun w _ hc => .inl hc
  · intro w hw hc r hr hq
    obtain ⟨r', hr', hst⟩ := (h.lawful w hw).1.of_consumed hc
    rw [hr] at hr'
    obtain rfl := Option.some.inj hr'
    rw [hst] at hq
    simp at hq

/-- Two consumptions of one request in one history are the same. -/
theorem TrailInv.consumed_unique (h : TrailInv law s) {w w' : Write Caller ApprovalRequest}
    (hw : w ∈ s.trail) (hw' : w' ∈ s.trail) (hc : BothConsume w w') : w = w' := by
  by_contra hne
  have hsymm : Std.Symm (fun w w' : Write Caller ApprovalRequest => ¬ BothConsume w w') :=
    ⟨fun x y hxy h => hxy ⟨h.2.1, h.1, h.2.2.symm⟩⟩
  exact h.consumed_once.forall hw hw' hne hc

end SingleUse

/-- The reply is that of a successful consumption of a request. -/
def ConsumesRequest (t id : Uuid) (x : Pool.Reply ToolException ToolPlane ToolCall ToolReply) :
    Prop :=
  ∃ b y, x.call = .consume t id b ∧ x.outcome = .ok y

/-- Any request may be served in any way. -/
def anyRequest : ℕ → ToolChoice → ToolCall × ToolOp → ToolPlane → Prop := fun _ _ _ _ => True

theorem admits_any (P : ToolPlatform) : Admits P (fun _ => True) anyRequest where
  moved _ _ _ _ _ := trivial
  overwritten _ _ _ _ _ _ _ _ _ _ _ _ := trivial

/-- Any run is one whose requests may be served in any way. -/
theorem reach_anyRequest {P : ToolPlatform} {w} (h : (toolMachine P).Reach Machine.anyStep w) :
    (toolMachine P).Reach (Pool.stepOk (fun _ _ => True) anyRequest (fun _ _ => True)) w :=
  Pool.reach_any h

/-- **Single use and separation of duties.** In every interleaving of calls of
the tool plane, no request is consumed twice, at most one `consume` of it
succeeds, and one that does was preceded by the creation of the request, with
the same binding, and by a grant of a decider who may. -/
theorem approvals_single_use (P : ToolPlatform)
    {w : Pool.State (ToolCall × ToolOp) (fun x => ToolRes x.2) ToolException ToolPlane ToolCall
      ToolReply} (h : (toolMachine P).Reach Machine.anyStep w) :
    w.shared.trail.Pairwise (fun a b => ¬ BothConsume a b)
    ∧ (∀ t id, w.replies.Pairwise
      (fun x y => ¬ (ConsumesRequest t id x ∧ ConsumesRequest t id y)))
    ∧ ∀ x ∈ w.replies, ∀ t id b y, x.call = .consume t id b → x.outcome = .ok y →
      ConsumedLife x.state.trail ⟨x.pid, x.call⟩ t id b := by
  have hreach := reach_anyRequest h
  let D := approvalDiscipline (admits_any P)
  have hgood : D.Good w := Pool.reach_safe D hreach
  have hdone : ∀ x ∈ w.replies, ConsumeDone x.pid x.call x.outcome x.state := hgood.replies
  refine ⟨hgood.inv.consumed_once, fun t id => ?_, ?_⟩
  · -- Two successful calls would have made two consumptions of one history.
    have hpids := List.pairwise_map.mp (Pool.reach_orderly hreach).once
    refine hpids.imp_of_mem (fun {x y} hx hy hne hboth => hne ?_)
    obtain ⟨⟨b, _, hxc, hxo⟩, b', _, hyc, hyo⟩ := hboth
    obtain ⟨w₁, hw₁, hc₁⟩ := hdone x hx t id b hxc _ hxo
    obtain ⟨w₂, hw₂, hc₂⟩ := hdone y hy t id b' hyc _ hyo
    have hmem₁ : w₁ ∈ w.shared.trail := (D.reply_rely hreach x hx).trail.subset hw₁
    have hmem₂ : w₂ ∈ w.shared.trail := (D.reply_rely hreach y hy).trail.subset hw₂
    have hsame := hgood.inv.consumed_unique hmem₁ hmem₂
      ⟨hc₁.after, hc₂.after, hc₂.key.trans hc₁.key.symm⟩
    have hwho : (⟨x.pid, x.call⟩ : Caller) = ⟨y.pid, y.call⟩ := by
      rw [← hc₁.author, ← hc₂.author, hsame]
    exact congrArg Caller.pid hwho
  · intro x hx t id b y hcall hout
    obtain ⟨v, hv, hc⟩ := hdone x hx t id b hcall y hout
    exact TrailInv.consumedLife (D.reply_inv hreach x hx) hv hc

/-! ## A request that is granted and consumed -/

/-- The tool `send_mail` of every tenant. -/
def mailTool (tenantId : Uuid) (name : String) (version : ℤ) : ToolDefinition where
  tenantId := tenantId
  name := name
  version := version
  description := "Send a mail"
  sideEffect := .HIGH_RISK
  inputSchema := [("type", .str "object")]
  outputSchema := [("type", .str "object")]
  dataClassification := .INTERNAL

/-- A tool plane over the database. -/
def mailPlatform : ToolPlatform where
  kind := .database
  sha256 := id
  catalogue := mailTool

/-- Ada asks to send a mail. -/
def mailIntent : ApprovalIntent where
  tenantId := 1
  releaseId := "r1"
  toolName := "send_mail"
  toolVersion := 1
  paramsHash := "h"
  params := []
  sideEffect := .HIGH_RISK
  requestedBy := "ada"
  requesterRole := "AGENT_RUNNER"
  policyVersion := "unspecified"

/-- Ada asks, Bob grants, and the request is consumed. -/
def grantedRun : List (Pool.Label ToolChoice ToolCall ToolEnv) :=
  [.spawn (.create mailIntent), .act 0 .ok, .act 0 (.drawn 7), .act 0 .ok,
   .spawn (.decide 1 7 .APPROVE "bob" "TENANT_ADMIN"), .act 1 .ok, .act 1 .ok, .act 1 .ok,
   .act 1 .ok,
   .spawn (.consume 1 7 mailIntent.binding), .act 2 .ok, .act 2 .ok, .act 2 .ok]

/-- What a reply reports as consumed, and under which binding. -/
def consumption? (x : Pool.Reply ToolException ToolPlane ToolCall ToolReply) :
    Option (Uuid × Uuid × ApprovalBinding) :=
  match x.call, x.outcome with
  | .consume t id b, .ok _ => some (t, id, b)
  | _, _ => none

theorem of_consumption? {x : Pool.Reply ToolException ToolPlane ToolCall ToolReply} {t id : Uuid}
    {b : ApprovalBinding} (h : consumption? x = some (t, id, b)) :
    x.call = .consume t id b ∧ ∃ y, x.outcome = .ok y := by
  unfold consumption? at h
  split at h
  · rename_i hcall hout
    obtain ⟨rfl, rfl, rfl⟩ := Prod.mk.inj (Option.some.inj h)
    exact ⟨hcall, _, hout⟩
  · cases h

theorem grantedRun_consumed :
    ((toolMachine mailPlatform).run (Pool.idle (ToolPlane.start 0)) grantedRun).map
      (fun w => w.replies.any (fun x => consumption? x = some (1, 7, mailIntent.binding)))
      = some true := by
  decide +kernel

theorem approvals_single_use_granted :
    ∃ w, (toolMachine mailPlatform).Reach Machine.anyStep w
      ∧ ∃ x ∈ w.replies, ConsumesRequest 1 7 x
        ∧ ConsumedLife x.state.trail ⟨x.pid, x.call⟩ 1 7 mailIntent.binding := by
  have hinit : (toolMachine mailPlatform).init (Pool.idle (ToolPlane.start 0)) :=
    ⟨_, ⟨0, rfl⟩, rfl⟩
  obtain ⟨w, hw, hp⟩ := Machine.reach_of_run hinit grantedRun_consumed
  obtain ⟨x, hx, hxc⟩ := List.any_eq_true.mp hp
  obtain ⟨hcall, y, hout⟩ := of_consumption? (of_decide_eq_true hxc)
  exact ⟨w, hw, x, hx, ⟨_, y, hcall, hout⟩,
    (approvals_single_use mailPlatform hw).2.2 x hx 1 7 _ y hcall hout⟩

/-! ## Who decided what is stored -/

/-- **The request names its decider**, who may have granted it. -/
def NamesDecider (r : ApprovalRequest) : Prop :=
  ∃ decidedBy role, r.decidedBy = some decidedBy ∧ r.decidedAt.isSome ∧ MayGrant r decidedBy role

section Decided

variable {law : Write Caller ApprovalRequest → Prop} {s : ToolPlane}
  {w : Write Caller ApprovalRequest}

/-- What a lawful write leaves, if it does not expire it, is pending and undecided,
or decided, or consumed and was granted. -/
theorem Lawful.decides (h : Lawful w) (hs : w.after.status ≠ .EXPIRED) :
    (w.after.status = .PENDING ∧ w.after.decidedBy = none ∧ w.after.decidedAt = none)
    ∨ NamesDecider w.after
    ∨ (w.after.status = .CONSUMED ∧ ∃ r, w.before = some r ∧ r.status = .APPROVED
      ∧ (NamesDecider r → NamesDecider w.after)) := by
  cases h.moves hs with
  | created hstatus hopen => exact .inl ⟨hstatus, hopen⟩
  | decided _ _ hduty =>
    have hmay := mayGrant_of_decisionError hduty
    exact .inr (.inl ⟨_, _, rfl, rfl, hmay.allowed, hmay.highRisk⟩)
  | expired => exact absurd rfl hs
  | @consumed _ r hstatus =>
    refine .inr (.inr ⟨rfl, r, rfl, hstatus, fun ⟨decidedBy, role, hd, ht, hmay⟩ => ?_⟩)
    exact ⟨decidedBy, role, hd, ht, hmay.allowed, hmay.highRisk⟩

/-- **What the history leaves is undecided, or was decided by one who may**: what was
consumed had been granted by an earlier write, which was no consumption. -/
theorem TrailInv.decided (h : TrailInv law s) {pre post : List (Write Caller ApprovalRequest)}
    (hsplit : s.trail = pre ++ w :: post) (hs : w.after.status ≠ .EXPIRED) :
    (w.after.status = .PENDING ∧ w.after.decidedBy = none ∧ w.after.decidedAt = none)
    ∨ NamesDecider w.after := by
  rcases (h.lawful w (by simp [hsplit])).1.decides hs with hopen | hd | ⟨-, r, hr, hst, hkeeps⟩
  · exact .inl hopen
  · exact .inr hd
  · obtain ⟨pre₁, w₁, mid, rfl, rfl, -⟩ := h.chained.exists_before hsplit hr
    refine .inr (hkeeps ?_)
    rcases (h.lawful w₁ (by simp [hsplit])).1.decides (by simp [hst]) with
      ⟨hpending, -⟩ | hd | ⟨hconsumed, -⟩
    · cases hst.symm.trans hpending
    · exact hd
    · cases hst.symm.trans hconsumed

end Decided
