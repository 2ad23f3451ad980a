import Mathlib.Data.List.Sort

/-!
# Pages of a table

A list endpoint answers with a page of rows and a cursor for the next one. The
query behind it takes the rows whose cursor value lies behind the cursor,
orders them, and asks for one row more than the page holds; the cursor of the
next page is the value of the last row of this one. `page` is that query, over
any rows, with one value `cur` for the cursors and one value `key` for the
order, and `Follow` is a client that follows the cursors until there is none.

When `cur` and `key` are one value the pages are the table cut into pieces. When
they are not, a cursor leaves out the rows that come later with a value not
behind it, and brings back those that came before with one that is. So the
client sees every row exactly once if and only if each cursor cuts the table
where the order does (`walk_perm_iff`).
-/

namespace Keyset

variable {Row κ σ C E : Type} [LinearOrder κ] [LinearOrder σ] (cur : Row → κ) (key : Row → σ)
  (n : ℕ)

/-! ## Pages -/

/-- The rows behind a cursor. -/
def behind : Option κ → Row → Bool
  | none, _ => true
  | some c, r => c < cur r

/-- The rows in the order of the query. -/
def listed (rows : List Row) : List Row := rows.insertionSort (fun a b => key a ≤ key b)

/-- **A page**, and the cursor of the next one. -/
def page (rows : List Row) (c : Option κ) : List Row × Option κ :=
  let found := (listed key (rows.filter (behind cur c))).take (n + 1)
  (found.take n, if n < found.length then (found.take n).getLast?.map cur else none)

/-- **Following the cursors to the end**, and the rows of all pages. -/
inductive Follow (fetch : Option C → Except E (List Row × Option C)) :
    Option C → List Row → Prop
  | last {c : Option C} {rows : List Row} (h : fetch c = .ok (rows, none)) : Follow fetch c rows
  | more {c : Option C} {c' : C} {rows rest : List Row} (h : fetch c = .ok (rows, some c'))
      (hrest : Follow fetch (some c') rest) : Follow fetch c (rows ++ rest)

/-- There is one way to follow them. -/
theorem Follow.unique {fetch : Option C → Except E (List Row × Option C)} {c : Option C}
    {rows rows' : List Row} (h : Follow fetch c rows) (h' : Follow fetch c rows') :
    rows = rows' := by
  induction h generalizing rows' with
  | last h =>
    cases h' with
    | last h' => cases h.symm.trans h'; rfl
    | more h' _ => cases h.symm.trans h'
  | more h _ ih =>
    cases h' with
    | last h' => cases h.symm.trans h'
    | more h' hrest' =>
      cases h.symm.trans h'
      rw [ih hrest']

/-! ## The order of the query -/

variable {key}

theorem listed_perm (rows : List Row) : (listed key rows).Perm rows :=
  List.perm_insertionSort _ rows

variable (key) in
theorem listed_pairwise (rows : List Row) :
    (listed key rows).Pairwise (fun a b => key a ≤ key b) := by
  have htotal : Std.Total (fun a b : Row => key a ≤ key b) :=
    ⟨fun a b => le_total (key a) (key b)⟩
  have htrans : IsTrans Row (fun a b => key a ≤ key b) := ⟨fun _ _ _ => le_trans⟩
  exact List.pairwise_insertionSort _ rows

/-- Rows with distinct keys are listed in one order only, so a selection of them
is listed as it stands. -/
theorem listed_filter {rows : List Row} (hkey : ∀ a ∈ rows, ∀ b ∈ rows, key a = key b → a = b)
    (p : Row → Bool) : listed key (rows.filter p) = (listed key rows).filter p := by
  have hleft : ((listed key rows).filter p).Pairwise (fun a b => key a ≤ key b) :=
    (listed_pairwise key rows).filter p
  refine List.Perm.eq_of_pairwise (fun a b ha hb hab hba => ?_) (listed_pairwise key _) hleft
    ((listed_perm _).trans ((listed_perm rows).filter p).symm)
  have ha' := (List.mem_filter.mp ((listed_perm _).mem_iff.mp ha)).1
  have hb' := (listed_perm rows).mem_iff.mp (List.mem_filter.mp hb).1
  exact hkey a ha' b hb' (le_antisymm hab hba)

/-! ## The pages of a listed table -/

/-- The page of the rows that are left. -/
theorem page_eq {rows : List Row} (hkey : ∀ a ∈ rows, ∀ b ∈ rows, key a = key b → a = b)
    (c : Option κ) :
    page cur key n rows c = (((listed key rows).filter (behind cur c)).take n,
      if n < ((listed key rows).filter (behind cur c)).length then
        (((listed key rows).filter (behind cur c)).take n).getLast?.map cur
      else none) := by
  unfold page
  rw [listed_filter hkey]
  generalize (listed key rows).filter (behind cur c) = left
  have htake : (left.take (n + 1)).take n = left.take n := by
    rw [List.take_take, Nat.min_eq_left (Nat.le_succ n)]
  have hlength : n < (left.take (n + 1)).length ↔ n < left.length := by
    rw [List.length_take]
    omega
  dsimp only
  rw [htake]
  exact Prod.ext rfl (if_congr hlength rfl rfl)

/-- What is left behind a row. -/
def left (r : Row) (rows : List Row) : List Row := rows.filter (fun a => cur r < cur a)

theorem length_left_lt {r : Row} {rows : List Row} (h : r ∈ rows) :
    (left cur r rows).length < rows.length := by
  have hself : ¬ decide (cur r < cur r) = true := fun hlt => lt_irrefl _ (of_decide_eq_true hlt)
  exact (List.length_filter_lt_length_iff_exists (p := fun a => decide (cur r < cur a))).mpr
    ⟨r, h, hself⟩

/-- **The rows of all pages** of listed rows: a page, and the pages of what is left
behind its last row. -/
def walk (rows : List Row) : List Row :=
  if n < rows.length then
    match _h : (rows.take n).getLast? with
    | none => []
    | some r => rows.take n ++ walk (left cur r rows)
  else rows
termination_by rows.length
decreasing_by exact length_left_lt cur (List.mem_of_mem_take (List.mem_of_getLast? _h))

variable {cur n}

theorem walk_of_le {rows : List Row} (h : rows.length ≤ n) : walk cur n rows = rows := by
  rw [walk, if_neg (Nat.not_lt.mpr h)]

/-- A page that is not the last has a last row. -/
theorem exists_getLast? (hn : 0 < n) {rows : List Row} (h : n < rows.length) :
    ∃ r, (rows.take n).getLast? = some r := by
  have hne : rows.take n ≠ [] := by
    intro hnil
    have hlength := congrArg List.length hnil
    rw [List.length_take, List.length_nil] at hlength
    omega
  exact ⟨_, List.getLast?_eq_some_getLast hne⟩

theorem walk_of_lt {rows : List Row} (h : n < rows.length) {r : Row}
    (hr : (rows.take n).getLast? = some r) :
    walk cur n rows = rows.take n ++ walk cur n (left cur r rows) := by
  rw [walk, if_pos h]
  split
  · rename_i hnone
    rw [hr] at hnone
    cases hnone
  · rename_i r' hr'
    obtain rfl := Option.some.inj (hr.symm.trans hr')
    rfl

variable (cur n)

/-- What is left behind a row that is behind a cursor is what is behind the row. -/
theorem left_behind (rows : List Row) {c : Option κ} {r : Row} (h : behind cur c r = true) :
    left cur r (rows.filter (behind cur c)) = rows.filter (behind cur (some (cur r))) := by
  rw [left, List.filter_filter]
  refine List.filter_congr (fun a _ => ?_)
  show (decide (cur r < cur a) && behind cur c a) = decide (cur r < cur a)
  cases c with
  | none => exact Bool.and_true _
  | some k =>
    by_cases ha : cur r < cur a
    · have hk : k < cur r := of_decide_eq_true h
      rw [decide_eq_true ha]
      exact decide_eq_true (hk.trans ha)
    · rw [decide_eq_false ha]
      rfl

/-- **Following the cursors ends**, with the rows of `walk`. The endpoint is
asked with no cursor, and with the encoded values of rows. -/
theorem follow_walk {rows : List Row} (hn : 0 < n)
    (hkey : ∀ a ∈ rows, ∀ b ∈ rows, key a = key b → a = b) (encode : κ → C)
    {fetch : Option C → Except E (List Row × Option C)}
    (hfetch : ∀ c, (∀ k, c = some k → ∃ r ∈ rows, cur r = k) → fetch (c.map encode)
      = .ok ((page cur key n rows c).1, (page cur key n rows c).2.map encode)) :
    Follow fetch none (walk cur n (listed key rows)) := by
  have hgo : ∀ (m : ℕ) (c : Option κ), (∀ k, c = some k → ∃ r ∈ rows, cur r = k) →
      ((listed key rows).filter (behind cur c)).length ≤ m →
      Follow fetch (c.map encode) (walk cur n ((listed key rows).filter (behind cur c))) := by
    intro m
    -- By induction on the number of rows that are rows.
    induction m with
    | zero =>
      intro c hc hm
      have hle : ((listed key rows).filter (behind cur c)).length ≤ n := hm.trans (Nat.zero_le n)
      have hpage := hfetch c hc
      rw [page_eq cur n hkey, if_neg (Nat.not_lt.mpr hle), List.take_of_length_le hle] at hpage
      rw [walk_of_le hle]
      exact .last hpage
    | succ m ih =>
      intro c hc hm
      have hpage := hfetch c hc
      rw [page_eq cur n hkey] at hpage
      by_cases hlt : n < ((listed key rows).filter (behind cur c)).length
      · obtain ⟨r, hr⟩ := exists_getLast? hn hlt
        have hmem : r ∈ (listed key rows).filter (behind cur c) :=
          List.mem_of_mem_take (List.mem_of_getLast? hr)
        obtain ⟨hlisted, hbehind⟩ := List.mem_filter.mp hmem
        have hnext := left_behind cur (listed key rows) hbehind
        rw [if_pos hlt, hr] at hpage
        rw [walk_of_lt hlt hr, hnext]
        refine .more hpage (ih (some (cur r)) (fun k hk => ?_) ?_)
        · exact ⟨r, (listed_perm rows).mem_iff.mp hlisted, Option.some.inj hk⟩
        · have hless := length_left_lt cur hmem
          rw [hnext] at hless
          exact Nat.le_of_lt_succ (hless.trans_le hm)
      · have hle := Nat.not_lt.mp hlt
        rw [if_neg hlt, List.take_of_length_le hle] at hpage
        rw [walk_of_le hle]
        exact .last hpage
  have hall : (listed key rows).filter (behind cur none) = listed key rows :=
    List.filter_eq_self.mpr (fun _ _ => rfl)
  have hrun := hgo _ none nofun le_rfl
  rw [hall] at hrun
  exact hrun

/-! ## When nothing is rows out or brought back -/

/-- **The cursors cut the table where the order does**: the last row of each full
page that is not the last one has a cursor value no less than those of the rows
before it, and less than those of the rows after it. -/
def CutsClean (rows : List Row) : Prop :=
  ∀ k, 0 < k → k * n < rows.length → ∀ r, (rows.take (k * n)).getLast? = some r →
    (∀ a ∈ rows.take (k * n), cur a ≤ cur r) ∧ ∀ b ∈ rows.drop (k * n), cur r < cur b

variable {cur n}

theorem take_succ_mul (k : ℕ) (rows : List Row) :
    rows.take ((k + 1) * n) = rows.take n ++ (rows.drop n).take (k * n) := by
  rw [Nat.add_mul, Nat.one_mul, Nat.add_comm, List.take_add]

theorem drop_succ_mul (k : ℕ) (rows : List Row) :
    rows.drop ((k + 1) * n) = (rows.drop n).drop (k * n) := by
  rw [Nat.add_mul, Nat.one_mul, Nat.add_comm, List.drop_drop]

/-- The first cut, and the others. -/
theorem cutsClean_iff {rows : List Row} {r : Row} (hlt : n < rows.length)
    (hr : (rows.take n).getLast? = some r) :
    CutsClean cur n rows ↔ (∀ a ∈ rows.take n, cur a ≤ cur r)
      ∧ (∀ b ∈ rows.drop n, cur r < cur b) ∧ CutsClean cur n (rows.drop n) := by
  constructor
  · intro h
    have hfirst := h 1 Nat.one_pos (by rwa [Nat.one_mul]) r (by rwa [Nat.one_mul])
    rw [Nat.one_mul] at hfirst
    refine ⟨hfirst.1, hfirst.2, fun k hk hlength r' hr' => ?_⟩
    rw [List.length_drop] at hlength
    have hlast : (rows.take ((k + 1) * n)).getLast? = some r' := by
      rw [take_succ_mul, List.getLast?_append, hr']
      rfl
    obtain ⟨hbefore, hafter⟩ := h (k + 1) k.succ_pos (by rw [Nat.add_mul]; omega) r' hlast
    rw [take_succ_mul] at hbefore
    rw [drop_succ_mul] at hafter
    exact ⟨fun a ha => hbefore a (List.mem_append_right _ ha), hafter⟩
  · rintro ⟨hbefore, hafter, h⟩ k hk hlength r' hr'
    obtain ⟨k, rfl⟩ : ∃ j, k = j + 1 := ⟨k - 1, by omega⟩
    rw [take_succ_mul] at hr' ⊢
    rw [drop_succ_mul]
    rcases Nat.eq_zero_or_pos k with rfl | hk
    · rw [Nat.zero_mul, List.take_zero, List.append_nil] at hr' ⊢
      obtain rfl := Option.some.inj (hr.symm.trans hr')
      exact ⟨hbefore, hafter⟩
    · have hlength' : k * n < (rows.drop n).length := by
        rw [List.length_drop]
        rw [Nat.add_mul] at hlength
        omega
      have hpos : 0 < k * n := by
        refine Nat.pos_of_ne_zero (fun hzero => ?_)
        rcases Nat.mul_eq_zero.mp hzero with h0 | h0
        · omega
        · rw [h0, List.take_zero] at hr
          cases hr
      obtain ⟨r'', hr''⟩ := exists_getLast? hpos hlength'
      rw [List.getLast?_append, hr''] at hr'
      obtain rfl := Option.some.inj hr'
      obtain ⟨hrest, hlater⟩ := h k hk hlength' r'' hr''
      have hmem : r'' ∈ rows.drop n := List.mem_of_mem_take (List.mem_of_getLast? hr'')
      refine ⟨fun a ha => ?_, hlater⟩
      rcases List.mem_append.mp ha with ha | ha
      · exact (hbefore a ha).trans (hafter r'' hmem).le
      · exact hrest a ha

variable (cur n) in
/-- A walk begins with the first page. -/
theorem walk_eq_append (rows : List Row) : ∃ rest, walk cur n rows = rows.take n ++ rest := by
  rw [walk]
  split
  · split
    · rename_i hnone
      exact ⟨[], by rw [List.getLast?_eq_none_iff.mp hnone]; rfl⟩
    · exact ⟨_, rfl⟩
  · rename_i hle
    exact ⟨[], by rw [List.take_of_length_le (Nat.not_lt.mp hle), List.append_nil]⟩

/-- All rows of a walk are of the table. -/
theorem mem_of_mem_walk {rows : List Row} {a : Row} (h : a ∈ walk cur n rows) : a ∈ rows := by
  induction rows using walk.induct cur n with
  | case1 rows hlt hnone =>
    rw [walk, if_pos hlt] at h
    split at h
    · cases h
    · rename_i hr
      rw [hnone] at hr
      cases hr
  | case2 rows hlt r hr ih =>
    rw [walk_of_lt hlt hr] at h
    rcases List.mem_append.mp h with h | h
    · exact List.mem_of_mem_take h
    · exact (List.mem_filter.mp (ih h)).1
  | case3 rows hle => rwa [walk_of_le (Nat.not_lt.mp hle)] at h

/-- **A client sees every row exactly once if and only if the cuts are clean.** -/
theorem walk_perm_iff (hn : 0 < n) {rows : List Row} (hnodup : rows.Nodup) :
    (walk cur n rows).Perm rows ↔ CutsClean cur n rows := by
  induction rows using walk.induct cur n with
  | case1 rows hlt hnone =>
    obtain ⟨r, hr⟩ := exists_getLast? hn hlt
    rw [hnone] at hr
    cases hr
  | case3 rows hle =>
    have hle' := Nat.not_lt.mp hle
    rw [walk_of_le hle']
    refine iff_of_true (List.Perm.refl _) (fun k hk hlength => ?_)
    exact absurd hlength (Nat.not_lt.mpr (hle'.trans (Nat.le_mul_of_pos_left n hk)))
  | case2 rows hlt r hr ih =>
    have hmem : r ∈ rows.take n := List.mem_of_getLast? hr
    rw [walk_of_lt hlt hr, cutsClean_iff hlt hr]
    -- The rows behind the cursor, of the page and of the rest.
    have hsplit : left cur r rows
        = (rows.take n).filter (fun a => cur r < cur a)
          ++ (rows.drop n).filter (fun a => cur r < cur a) := by
      rw [← List.filter_append, List.take_append_drop]
      rfl
    have hclean : (∀ a ∈ rows.take n, cur a ≤ cur r) → (∀ b ∈ rows.drop n, cur r < cur b) →
        left cur r rows = rows.drop n := by
      intro hbefore hafter
      rw [hsplit, List.filter_eq_nil_iff.mpr (fun a ha h =>
          absurd (of_decide_eq_true h) (not_lt.mpr (hbefore a ha))),
        List.filter_eq_self.mpr (fun b hb => decide_eq_true (hafter b hb))]
      rfl
    have hnodup' : (rows.drop n).Nodup := hnodup.sublist (List.drop_sublist n rows)
    constructor
    · intro hperm
      have hcancel : (walk cur n (left cur r rows)).Perm (rows.drop n) := by
        refine (List.perm_append_left_iff (rows.take n)).mp ?_
        rwa [List.take_append_drop]
      have hafter : ∀ b ∈ rows.drop n, cur r < cur b := by
        intro b hb
        have hb' := mem_of_mem_walk (hcancel.mem_iff.mpr hb)
        exact of_decide_eq_true (List.mem_filter.mp hb').2
      have hbefore : ∀ a ∈ rows.take n, cur a ≤ cur r := by
        -- A row of the page behind its cursor would be on the next page, too.
        by_contra hnot
        push Not at hnot
        obtain ⟨a, ha, hlt'⟩ := hnot
        have hshort : ((rows.take n).filter (fun a => cur r < cur a)).length ≤ n :=
          (List.length_filter_le _ _).trans (List.length_take_le n rows)
        obtain ⟨rest, hrest⟩ := walk_eq_append cur n (left cur r rows)
        have hagain : a ∈ walk cur n (left cur r rows) := by
          rw [hrest, hsplit, List.take_append]
          refine List.mem_append_left _ (List.mem_append_left _ ?_)
          rw [List.take_of_length_le hshort]
          exact List.mem_filter.mpr ⟨ha, decide_eq_true hlt'⟩
        have hcut : (rows.take n ++ rows.drop n).Nodup := by rwa [List.take_append_drop]
        exact List.disjoint_of_nodup_append hcut ha (hcancel.mem_iff.mp hagain)
      have hfilter := hclean hbefore hafter
      rw [hfilter] at hcancel ih
      exact ⟨hbefore, hafter, (ih hnodup').mp hcancel⟩
    · rintro ⟨hbefore, hafter, h⟩
      have hfilter := hclean hbefore hafter
      rw [hfilter] at ih ⊢
      have hperm := ((ih hnodup').mpr h).append_left (rows.take n)
      rwa [List.take_append_drop] at hperm

/-- Where the cursor values follow the order, a cut is clean when the values on
its two sides differ. -/
theorem cutsClean_iff_of_pairwise {rows : List Row}
    (h : rows.Pairwise (fun a b => cur a ≤ cur b)) :
    CutsClean cur n rows ↔ ∀ k, 0 < k → k * n < rows.length → ∀ r,
      (rows.take (k * n)).getLast? = some r → ∀ b, (rows.drop (k * n)).head? = some b →
      cur r ≠ cur b := by
  constructor
  · intro hclean k hk hlength r hr b hb
    exact ((hclean k hk hlength r hr).2 b (List.mem_of_head? hb)).ne
  · intro hne k hk hlength r hr
    have hsplit := h
    rw [← List.take_append_drop (k * n) rows] at hsplit
    obtain ⟨hbefore, hafter, hacross⟩ := List.pairwise_append.mp hsplit
    have hmem := List.mem_of_getLast? hr
    obtain ⟨b, hb⟩ : ∃ b, (rows.drop (k * n)).head? = some b :=
      ⟨rows.get ⟨k * n, hlength⟩, List.head?_drop.trans (List.getElem?_eq_getElem hlength)⟩
    have hlt := lt_of_le_of_ne (hacross r hmem b (List.mem_of_head? hb))
        (hne k hk hlength r hr b hb)
    refine ⟨fun a ha => ?_, fun a ha => ?_⟩
    · obtain ⟨before, hlast⟩ := List.getLast?_eq_some_iff.mp hr
      rw [hlast] at ha hbefore
      rcases List.mem_append.mp ha with ha | ha
      · exact (List.pairwise_append.mp hbefore).2.2 a ha r (List.mem_singleton_self r)
      · rw [List.mem_singleton.mp ha]
    · obtain ⟨later, hfirst⟩ := List.head?_eq_some_iff.mp hb
      rw [hfirst] at ha hafter
      rcases List.mem_cons.mp ha with rfl | ha
      · exact hlt
      · exact hlt.trans_le ((List.pairwise_cons.mp hafter).1 a ha)

end Keyset
