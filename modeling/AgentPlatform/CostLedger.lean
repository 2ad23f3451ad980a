import Mathlib.Algebra.BigOperators.Group.List.Basic
import AgentPlatform.Budgets

/-!
# Totals and entries

The totals of a budget in a period are a digest of the ledger entries of that
budget and period: what is reserved is what the open reservations add up to,
what is consumed is what the settlements add up to, and the contingency drawn
is what the open contingency reservations add up to. `Balance` says so of a
row of totals and a list of entries, with no reference to how the service
changes them.

The rest of the module has one lemma for each change the service makes to a
row and its entries together. A reservation adds its amount and its entry, a
settlement or a release of an open reservation subtracts the amount that was
reserved, a rejection or an adjustment adds an entry no total depends on.
Nothing closes a contingency reservation here: the service subtracts its
amount from the wrong total, so that no change it makes keeps the balance.
-/

/-- The entry closes the reservation it belongs to. -/
def LedgerEntryType.closes : LedgerEntryType → Bool
  | .SETTLE => true
  | .RELEASE => true
  | _ => false

/-- The reservation has been settled or released. -/
def closed (entries : List LedgerEntry) (reserveId : Uuid) : Bool :=
  entries.any (fun e => e.reserveId = reserveId ∧ e.entryType.closes)

/-- What the reservations not in `done` add up to, ordinary or contingency. -/
def openSum (contingency : Bool) (done : Uuid → Bool) (entries : List LedgerEntry) : ℤ :=
  ((entries.filter (fun e => e.entryType = .RESERVE ∧ e.contingency = contingency
    ∧ done e.reserveId = false)).map (·.amountMicros)).sum

/-- **What the open reservations add up to.** -/
def openMicros (contingency : Bool) (entries : List LedgerEntry) : ℤ :=
  openSum contingency (closed entries) entries

/-- **What the settlements add up to.** -/
def settledMicros (entries : List LedgerEntry) : ℤ :=
  ((entries.filter (fun e => e.entryType = .SETTLE)).map (·.amountMicros)).sum

/-- **The totals are those of the entries**, for the row and the entries of one
budget and period. -/
structure Balance (row : Option PeriodState) (entries : List LedgerEntry) : Prop where
  /-- A reservation has one entry of a type. -/
  unique : (entries.map (fun e => (e.reserveId, e.entryType))).Nodup
  /-- Only what was reserved is settled or released. -/
  backed : ∀ e ∈ entries, e.entryType.closes = true →
    ∃ x ∈ entries, x.entryType = .RESERVE ∧ x.reserveId = e.reserveId
  reserved : row.elim 0 (·.reservedMicros) = openMicros false entries
  consumed : row.elim 0 (·.consumedMicros) = settledMicros entries
  contingency : row.elim 0 (·.contingencyReservedMicros) = openMicros true entries

theorem Balance.empty : Balance none [] :=
  ⟨List.nodup_nil, fun _ h => absurd h List.not_mem_nil, rfl, rfl, rfl⟩

/-- A new row of totals changes no total. -/
theorem Balance.insertRow {entries : List LedgerEntry} (h : Balance none entries) :
    Balance (some .zero) entries :=
  ⟨h.unique, h.backed, h.reserved, h.consumed, h.contingency⟩

/-- No entry of the list belongs to the reservation with this type. -/
def Absent (entries : List LedgerEntry) (reserveId : Uuid) (type : LedgerEntryType) : Prop :=
  ∀ e ∈ entries, e.reserveId = reserveId → e.entryType ≠ type

/-! ## Sums under one more entry -/

section Sums

variable {entries : List LedgerEntry} {e : LedgerEntry} {contingency : Bool}

theorem closed_append (reserveId : Uuid) :
    closed (entries ++ [e]) reserveId
      = (closed entries reserveId || decide (e.reserveId = reserveId ∧ e.entryType.closes)) := by
  simp [closed]

theorem closed_append_of_not_closes (h : e.entryType.closes = false) :
    closed (entries ++ [e]) = closed entries := by
  funext reserveId
  simp [closed_append, h]

theorem closed_eq_false {reserveId : Uuid} (hs : Absent entries reserveId .SETTLE)
    (hr : Absent entries reserveId .RELEASE) : closed entries reserveId = false := by
  refine List.any_eq_false.mpr (fun e he hc => ?_)
  obtain ⟨hid, hclose⟩ := of_decide_eq_true hc
  have hs' := hs e he hid
  have hr' := hr e he hid
  cases ht : e.entryType <;> simp_all [LedgerEntryType.closes]

theorem openSum_append (done : Uuid → Bool) :
    openSum contingency done (entries ++ [e])
      = openSum contingency done entries
        + if e.entryType = .RESERVE ∧ e.contingency = contingency
            ∧ done e.reserveId = false then e.amountMicros else 0 := by
  unfold openSum
  rw [List.filter_append, List.map_append, List.sum_append]
  congr 1
  by_cases h : e.entryType = .RESERVE ∧ e.contingency = contingency
    ∧ done e.reserveId = false
  · rw [if_pos h, List.filter_cons_of_pos (by simpa using h)]
    simp
  · rw [if_neg h, List.filter_cons_of_neg (by simpa using h)]
    simp

theorem openSum_cons (done : Uuid → Bool) :
    openSum contingency done (e :: entries)
      = (if e.entryType = .RESERVE ∧ e.contingency = contingency
            ∧ done e.reserveId = false then e.amountMicros else 0)
        + openSum contingency done entries := by
  unfold openSum
  by_cases h : e.entryType = .RESERVE ∧ e.contingency = contingency
    ∧ done e.reserveId = false
  · rw [if_pos h, List.filter_cons_of_pos (by simpa using h), List.map_cons, List.sum_cons]
  · rw [if_neg h, List.filter_cons_of_neg (by simpa using h), Int.zero_add]

/-- Closing a reservation that is not in the list changes no sum. -/
theorem openSum_close_of_absent {done : Uuid → Bool} {reserveId : Uuid}
    (h : Absent entries reserveId .RESERVE) :
    openSum contingency (fun i => done i || decide (reserveId = i)) entries
      = openSum contingency done entries := by
  unfold openSum
  congr 2
  refine List.filter_congr (fun e he => ?_)
  by_cases hid : reserveId = e.reserveId
  · have htype := h e he hid.symm
    simp [htype]
  · simp [hid]

/-- **Closing an open reservation takes its amount out of the sum.** -/
theorem openSum_close {done : Uuid → Bool} {x : LedgerEntry}
    (hunique : (entries.map (fun e => (e.reserveId, e.entryType))).Nodup)
    (hx : x ∈ entries) (htype : x.entryType = .RESERVE) (hopen : done x.reserveId = false) :
    openSum contingency (fun i => done i || decide (x.reserveId = i)) entries
      = openSum contingency done entries
        - if x.contingency = contingency then x.amountMicros else 0 := by
  induction entries with
  | nil => cases hx
  | cons e entries ih =>
    rw [List.map_cons, List.nodup_cons] at hunique
    obtain ⟨hfresh, hrest⟩ := hunique
    rw [openSum_cons, openSum_cons]
    rcases List.mem_cons.mp hx with rfl | hx
    · -- the reservation itself: no later entry can be another one of its kind
      have habsent : Absent entries x.reserveId .RESERVE := by
        intro e' he' hid ht
        refine hfresh (List.mem_map.mpr ⟨e', he', ?_⟩)
        rw [hid, ht, htype]
      rw [openSum_close_of_absent habsent]
      simp only [htype, hopen, true_and, and_true, decide_true, Bool.or_true, Bool.true_eq_false,
        and_false, if_false]
      omega
    · rw [ih hrest hx]
      by_cases hid : x.reserveId = e.reserveId
      · have hne : e.entryType ≠ .RESERVE := by
          intro ht
          refine hfresh (List.mem_map.mpr ⟨x, hx, ?_⟩)
          rw [hid, ht, htype]
        simp only [hne, false_and, if_false]
        omega
      · simp only [hid, decide_false, Bool.or_false]
        omega

theorem settledMicros_append :
    settledMicros (entries ++ [e])
      = settledMicros entries + if e.entryType = .SETTLE then e.amountMicros else 0 := by
  unfold settledMicros
  rw [List.filter_append, List.map_append, List.sum_append]
  congr 1
  by_cases h : e.entryType = .SETTLE
  · simp [h]
  · simp [h]

/-- Another entry with a key of its own. -/
theorem nodup_append_entry
    (h : (entries.map (fun e => (e.reserveId, e.entryType))).Nodup)
    (hfresh : Absent entries e.reserveId e.entryType) :
    ((entries ++ [e]).map (fun e => (e.reserveId, e.entryType))).Nodup := by
  rw [List.map_append, List.nodup_append]
  refine ⟨h, by simp, fun k hk k' hk' => ?_⟩
  obtain ⟨x, hx, rfl⟩ := List.mem_map.mp hk
  obtain ⟨y, hy, rfl⟩ := List.mem_map.mp hk'
  obtain rfl := List.mem_singleton.mp hy
  intro heq
  obtain ⟨hid, ht⟩ := Prod.mk.inj heq
  exact hfresh x hx hid ht

end Sums

/-! ## What keeps the balance -/

section Changes

variable {entries : List LedgerEntry} {e x : LedgerEntry} {row row' : PeriodState}

/-- The totals of a changed row. -/
theorem PeriodState.change?_ok {reserved consumed allowance contingency : ℤ}
    (h : row.change? reserved consumed allowance contingency = some row') :
    row'.reservedMicros = row.reservedMicros + reserved
      ∧ row'.consumedMicros = row.consumedMicros + consumed
      ∧ row'.allowanceMicros = row.allowanceMicros + allowance
      ∧ row'.contingencyReservedMicros = row.contingencyReservedMicros + contingency := by
  unfold PeriodState.change? at h
  split at h
  · obtain rfl := Option.some.inj h
    exact ⟨rfl, rfl, rfl, rfl⟩
  · cases h

/-- Entries that close nothing are backed as before. -/
theorem backed_append
    (h : ∀ y ∈ entries, y.entryType.closes = true →
      ∃ x ∈ entries, x.entryType = .RESERVE ∧ x.reserveId = y.reserveId)
    (he : e.entryType.closes = true →
      ∃ x ∈ entries, x.entryType = .RESERVE ∧ x.reserveId = e.reserveId) :
    ∀ y ∈ entries ++ [e], y.entryType.closes = true →
      ∃ x ∈ entries ++ [e], x.entryType = .RESERVE ∧ x.reserveId = y.reserveId := by
  intro y hy hclose
  have hback : ∃ x ∈ entries, x.entryType = .RESERVE ∧ x.reserveId = y.reserveId := by
    rcases List.mem_append.mp hy with hy | hy
    · exact h y hy hclose
    · obtain rfl := List.mem_singleton.mp hy
      exact he hclose
  obtain ⟨x, hx, hxy⟩ := hback
  exact ⟨x, List.mem_append_left _ hx, hxy⟩

/-- A reservation that has no entry yet is open. -/
theorem Balance.not_closed (h : Balance (some row) entries) {reserveId : Uuid}
    (hfresh : Absent entries reserveId .RESERVE) : closed entries reserveId = false := by
  refine List.any_eq_false.mpr (fun y hy hc => ?_)
  obtain ⟨hid, hclose⟩ := of_decide_eq_true hc
  obtain ⟨z, hz, htype, hzid⟩ := h.backed y hy hclose
  exact hfresh z hz (hzid.trans hid) htype

/-- **A reservation**, ordinary or contingency. -/
theorem Balance.reserve (h : Balance (some row) entries) (htype : e.entryType = .RESERVE)
    (hfresh : Absent entries e.reserveId .RESERVE)
    (hrow : row.change? (if e.contingency then 0 else e.amountMicros) 0 0
      (if e.contingency then e.amountMicros else 0) = some row') :
    Balance (some row') (entries ++ [e]) := by
  obtain ⟨hr, hc, -, hk⟩ := PeriodState.change?_ok hrow
  have hclosed : closed (entries ++ [e]) = closed entries :=
    closed_append_of_not_closes (by simp [htype, LedgerEntryType.closes])
  have hopen : closed entries e.reserveId = false := h.not_closed hfresh
  have hreserved := h.reserved
  have hconsumed := h.consumed
  have hcontingency := h.contingency
  simp only [Option.elim_some, openMicros] at hreserved hconsumed hcontingency
  refine ⟨nodup_append_entry h.unique (by rw [htype]; exact hfresh),
    backed_append h.backed (fun hclose => by simp [htype, LedgerEntryType.closes] at hclose),
    ?_, ?_, ?_⟩
  · rw [Option.elim_some, openMicros, hclosed, openSum_append, hr, hreserved]
    cases hec : e.contingency <;> simp [htype, hopen]
  · rw [Option.elim_some, settledMicros_append, hc, hconsumed]
    simp [htype]
  · rw [Option.elim_some, openMicros, hclosed, openSum_append, hk, hcontingency]
    cases hec : e.contingency <;> simp [htype, hopen]

/-- **An entry no total depends on**, with a row of the same totals. -/
theorem Balance.note (h : Balance (some row) entries)
    (htype : e.entryType = .REJECT ∨ e.entryType = .ADJUST)
    (hfresh : Absent entries e.reserveId e.entryType)
    (hr : row'.reservedMicros = row.reservedMicros)
    (hc : row'.consumedMicros = row.consumedMicros)
    (hk : row'.contingencyReservedMicros = row.contingencyReservedMicros) :
    Balance (some row') (entries ++ [e]) := by
  have hnc : e.entryType.closes = false := by
    rcases htype with ht | ht <;> simp [ht, LedgerEntryType.closes]
  have hnr : e.entryType ≠ .RESERVE := by rcases htype with ht | ht <;> simp [ht]
  have hns : e.entryType ≠ .SETTLE := by rcases htype with ht | ht <;> simp [ht]
  have hclosed : closed (entries ++ [e]) = closed entries := closed_append_of_not_closes hnc
  have hsum : ∀ contingency, openMicros contingency (entries ++ [e])
      = openMicros contingency entries := by
    intro contingency
    rw [openMicros, hclosed, openSum_append, openMicros]
    simp [hnr]
  refine ⟨nodup_append_entry h.unique hfresh,
    backed_append h.backed (fun hclose => by simp [hnc] at hclose), ?_, ?_, ?_⟩
  · rw [Option.elim_some, hsum, hr, ← h.reserved, Option.elim_some]
  · rw [Option.elim_some, settledMicros_append, hc, ← h.consumed, Option.elim_some]
    simp [hns]
  · rw [Option.elim_some, hsum, hk, ← h.contingency, Option.elim_some]

/-- **The settlement or release of an open ordinary reservation.** -/
theorem Balance.close (h : Balance (some row) entries) (hclose : e.entryType.closes = true)
    (hx : x ∈ entries) (htype : x.entryType = .RESERVE) (hid : x.reserveId = e.reserveId)
    (hordinary : x.contingency = false) (hs : Absent entries e.reserveId .SETTLE)
    (hr : Absent entries e.reserveId .RELEASE)
    (hrow : row.change? (-x.amountMicros)
      (if e.entryType = .SETTLE then e.amountMicros else 0) 0 0 = some row') :
    Balance (some row') (entries ++ [e]) := by
  obtain ⟨hres, hcon, -, hctg⟩ := PeriodState.change?_ok hrow
  have hopen : closed entries x.reserveId = false := by
    rw [hid]
    exact closed_eq_false hs hr
  have hclosed : closed (entries ++ [e])
      = fun i => closed entries i || decide (x.reserveId = i) := by
    funext i
    rw [closed_append, hid]
    simp [hclose]
  have hne : e.entryType ≠ .RESERVE := by
    intro ht
    simp [ht, LedgerEntryType.closes] at hclose
  have hfresh : Absent entries e.reserveId e.entryType := by
    cases ht : e.entryType <;> simp_all [LedgerEntryType.closes]
  have hsum : ∀ contingency, openMicros contingency (entries ++ [e])
      = openMicros contingency entries
        - if x.contingency = contingency then x.amountMicros else 0 := by
    intro contingency
    rw [openMicros, hclosed, openSum_append, openSum_close h.unique hx htype hopen, openMicros]
    simp [hne]
  refine ⟨nodup_append_entry h.unique hfresh,
    backed_append h.backed (fun _ => ⟨x, hx, htype, hid⟩), ?_, ?_, ?_⟩
  · rw [Option.elim_some, hsum, hres, ← h.reserved, hordinary]
    simp only [if_true, Option.elim_some]
    omega
  · rw [Option.elim_some, settledMicros_append, hcon, ← h.consumed, Option.elim_some]
  · rw [Option.elim_some, hsum, hctg, ← h.contingency, hordinary]
    simp

end Changes
