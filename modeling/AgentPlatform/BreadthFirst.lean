import Mathlib.Data.List.Induction
import AgentPlatform.Worklist

/-!
# The order of a worklist search

`Worklist.search` runs a search with a bound on its visits. Here the search is
the loop itself, round by round and without a bound: `Ends l out` says that the
loop comes to an end from `l`, with the results `out`.

The queue is first in, first out, so the keys are visited in the order in which
they come up first (`Ends.order`), and this is breadth-first: a key that is
visited before another one is no further from the start (`Ends.breadthFirst`).
-/

namespace Worklist

variable {A B : Type} [DecidableEq A]

/-! ## The loop -/

/-- **Where the loop stands** between two rounds. -/
structure Loop (A B : Type) where
  queue : List A
  seen : List A
  out : List B

/-- **A round**: the first key is taken from the queue. Without a key in the
queue there is none. -/
def Loop.round (visit : A → Option B) (succs : B → List A) (l : Loop A B) :
    Option (Loop A B) :=
  match l.queue with
  | [] => none
  | a :: rest =>
    if a ∈ l.seen then some ⟨rest, l.seen, l.out⟩
    else match visit a with
      | none => some ⟨rest, a :: l.seen, l.out⟩
      | some b => some ⟨rest ++ succs b, a :: l.seen, l.out ++ [b]⟩

/-- **The loop comes to an end**, with the results `out`. -/
inductive Ends (visit : A → Option B) (succs : B → List A) : Loop A B → List B → Prop
  | stop {l : Loop A B} (h : l.round visit succs = none) : Ends visit succs l l.out
  | next {l l' : Loop A B} {out : List B} (h : l.round visit succs = some l')
      (hl : Ends visit succs l' out) : Ends visit succs l out

section Rules

variable {visit : A → Option B} {succs : B → List A} {start queue seen : List A}
  {out : List B} {l l' : Loop A B}

theorem Loop.round_none (h : l.round visit succs = none) : l.queue = [] := by
  unfold Loop.round at h
  cases hq : l.queue with
  | nil => rfl
  | cons a rest =>
    rw [hq] at h
    dsimp only at h
    split at h
    · cases h
    · split at h <;> cases h

/-- **What a round is**: a key is skipped, or it is new, and what it stands for
decides. -/
theorem Loop.round_cases (h : l.round visit succs = some l') : ∃ a rest, l.queue = a :: rest
    ∧ ((a ∈ l.seen ∧ l' = ⟨rest, l.seen, l.out⟩)
      ∨ (a ∉ l.seen ∧ visit a = none ∧ l' = ⟨rest, a :: l.seen, l.out⟩)
      ∨ (a ∉ l.seen ∧ ∃ b, visit a = some b
        ∧ l' = ⟨rest ++ succs b, a :: l.seen, l.out ++ [b]⟩)) := by
  unfold Loop.round at h
  cases hq : l.queue with
  | nil =>
    rw [hq] at h
    cases h
  | cons a rest =>
    rw [hq] at h
    dsimp only at h
    refine ⟨a, rest, rfl, ?_⟩
    by_cases hseen : a ∈ l.seen
    · rw [if_pos hseen] at h
      exact .inl ⟨hseen, (Option.some.inj h).symm⟩
    · rw [if_neg hseen] at h
      cases hvisit : visit a with
      | none =>
        rw [hvisit] at h
        exact .inr (.inl ⟨hseen, rfl, (Option.some.inj h).symm⟩)
      | some b =>
        rw [hvisit] at h
        exact .inr (.inr ⟨hseen, b, rfl, (Option.some.inj h).symm⟩)

/-- Seen keys at the front are skipped. -/
theorem Ends.skip (h : Ends visit succs ⟨queue.dropWhile (fun a => a ∈ seen), seen, out⟩ out') :
    Ends visit succs ⟨queue, seen, out⟩ out' := by
  induction queue with
  | nil => exact h
  | cons a rest ih =>
    by_cases hseen : a ∈ seen
    · rw [List.dropWhile_cons_of_pos (by simpa using hseen)] at h
      exact .next (by simp [Loop.round, hseen]) (ih h)
    · rwa [List.dropWhile_cons_of_neg (by simpa using hseen)] at h

/-- **The loop ends**, with the results of a search that has enough fuel, if all
keys that may be visited are in `keys`. -/
theorem Inv.ends {keys : List A} (fuel : ℕ)
    (hfinite : ∀ a, Pending visit succs start a → a ∈ keys)
    (h : Inv visit succs start queue seen out) (hfuel : keys.length < fuel + seen.length) :
    Ends visit succs ⟨queue, seen, out⟩ (search visit succs fuel queue seen out) := by
  induction fuel generalizing queue seen out with
  | zero =>
    -- more keys have been seen than there are
    have hle : seen.length ≤ keys.length :=
      (List.subperm_of_subset h.nodup
        (fun a ha => hfinite a (h.pending a (List.mem_append_right _ ha)))).length_le
    omega
  | succ fuel ih =>
    refine Ends.skip ?_
    have hdrop := h.dropWhile
    cases hqueue : queue.dropWhile (fun a => a ∈ seen) with
    | nil =>
      rw [search_nil fuel hqueue]
      exact .stop rfl
    | cons a rest =>
      rw [hqueue] at hdrop
      have hnew : a ∉ seen := by
        have hhead := List.head?_dropWhile_not (fun a => decide (a ∈ seen)) queue
        rw [hqueue] at hhead
        simpa using hhead
      have hfuel' : keys.length < fuel + (a :: seen).length := by
        rw [List.length_cons]
        omega
      cases hvisit : visit a with
      | none =>
        rw [search_none fuel hqueue hvisit]
        exact .next (by simp [Loop.round, hnew, hvisit]) (ih (hdrop.visit_none hnew hvisit) hfuel')
      | some b =>
        rw [search_some fuel hqueue hvisit]
        exact .next (by simp [Loop.round, hnew, hvisit]) (ih (hdrop.visit_some hnew hvisit) hfuel')

/-- What a loop comes to an end with is exactly what can be reached. -/
theorem Ends.mem_iff (h : Ends visit succs l out)
    (hl : Inv visit succs start l.queue l.seen l.out) {b : B} :
    b ∈ out ↔ ∃ a, Reached visit succs start a b := by
  induction h with
  | stop hstop =>
    rw [Loop.round_none hstop] at hl
    exact ⟨hl.sound b, fun ⟨a, hr⟩ => hl.complete hr⟩
  | next hnext _ ih =>
    obtain ⟨a, rest, hqueue, hcases⟩ := Loop.round_cases hnext
    rw [hqueue] at hl
    refine ih ?_
    rcases hcases with ⟨hseen, rfl⟩ | ⟨hnew, hvisit, rfl⟩ | ⟨hnew, b, hvisit, rfl⟩
    · exact hl.skip hseen
    · exact hl.visit_none hnew hvisit
    · exact hl.visit_some hnew hvisit

/-- **A search with enough fuel finds exactly what can be reached**, if all
keys that may be visited are in `keys`. -/
theorem Inv.mem_search_iff {keys : List A} (fuel : ℕ)
    (hfinite : ∀ a, Pending visit succs start a → a ∈ keys)
    (h : Inv visit succs start queue seen out) (hfuel : keys.length < fuel + seen.length)
    {b : B} : b ∈ search visit succs fuel queue seen out
      ↔ ∃ a, Reached visit succs start a b :=
  (h.ends fuel hfinite hfuel).mem_iff h

/-! ## The order -/

theorem nodup_eraseDups (as : List A) : as.eraseDups.Nodup := by
  induction as using List.reverseRecOn with
  | nil => exact List.nodup_nil
  | append_singleton as a ih =>
    rw [List.eraseDups_append]
    by_cases ha : a ∈ as
    · simpa [List.removeAll, ha] using ih
    · rw [show List.removeAll [a] as = [a] by simp [List.removeAll, ha]]
      refine List.nodup_append.mpr ⟨ih, by simp [List.eraseDups_cons], ?_⟩
      intro x hx y hy hxy
      have hy' : y = a := by simpa [List.eraseDups_cons] using hy
      exact ha (hy' ▸ hxy ▸ List.mem_eraseDups.mp hx)

theorem eraseDups_concat (as : List A) (a : A) :
    (as ++ [a]).eraseDups = if a ∈ as then as.eraseDups else as.eraseDups ++ [a] := by
  rw [List.eraseDups_append]
  split
  · rename_i ha
    simp [List.removeAll, ha]
  · rename_i ha
    simp [List.removeAll, ha, List.eraseDups_cons]

/-- **The order of the rounds**: what came up is what was `taken` and what is in
the queue; the keys that were taken have been visited in the order in which they
were taken first. -/
def InOrder (visit : A → Option B) (succs : B → List A) (start : List A) (l : Loop A B) : Prop :=
  ∃ taken, start ++ l.out.flatMap succs = taken ++ l.queue
    ∧ l.seen.reverse = taken.eraseDups ∧ l.out = taken.eraseDups.filterMap visit

theorem inOrder_start (start : List A) : InOrder visit succs start ⟨start, [], []⟩ :=
  ⟨[], by simp, rfl, rfl⟩

theorem InOrder.round (h : InOrder visit succs start l) (hl : l.round visit succs = some l') :
    InOrder visit succs start l' := by
  obtain ⟨taken, htaken, hseen, hout⟩ := h
  obtain ⟨a, rest, hqueue, hcases⟩ := Loop.round_cases hl
  have hmem : a ∈ l.seen ↔ a ∈ taken := by
    rw [← List.mem_reverse, hseen, List.mem_eraseDups]
  rw [hqueue, ← List.singleton_append, ← List.append_assoc] at htaken
  rcases hcases with ⟨ha, rfl⟩ | ⟨ha, hvisit, rfl⟩ | ⟨ha, b, hvisit, rfl⟩
  · refine ⟨taken ++ [a], htaken, ?_, ?_⟩ <;> rw [eraseDups_concat, if_pos (hmem.mp ha)]
    · exact hseen
    · exact hout
  · refine ⟨taken ++ [a], htaken, ?_, ?_⟩ <;> rw [eraseDups_concat, if_neg (mt hmem.mpr ha)]
    · rw [List.reverse_cons, hseen]
    · rw [List.filterMap_append, ← hout]
      simp [hvisit]
  · refine ⟨taken ++ [a], ?_, ?_, ?_⟩
    · rw [List.flatMap_append, ← List.append_assoc, htaken]
      simp
    · rw [eraseDups_concat, if_neg (mt hmem.mpr ha), List.reverse_cons, hseen]
    · rw [eraseDups_concat, if_neg (mt hmem.mpr ha), List.filterMap_append, ← hout]
      simp [hvisit]

/-- **Results are in the order in which their keys come up first**, in the start
keys and in the successors of the results. -/
theorem Ends.order (h : Ends visit succs l out) (hl : InOrder visit succs start l) :
    out = (start ++ out.flatMap succs).eraseDups.filterMap visit := by
  induction h with
  | stop h =>
    obtain ⟨taken, htaken, -, hout⟩ := hl
    rw [Loop.round_none h, List.append_nil] at htaken
    rw [htaken, ← hout]
  | next h _ ih => exact ih (hl.round h)

/-! ## Distances -/

omit [DecidableEq A] in
/-- **A key comes up after `n` edges**: it is a start key, or a successor of what
a key that comes up one edge earlier stands for. -/
inductive ComesUp (visit : A → Option B) (succs : B → List A) (start : List A) : ℕ → A → Prop
  | start {a : A} (ha : a ∈ start) : ComesUp visit succs start 0 a
  | succ {n : ℕ} {a a' : A} {b : B} (h : ComesUp visit succs start n a) (hb : visit a = some b)
      (ha : a' ∈ succs b) : ComesUp visit succs start (n + 1) a'

/-- The keys of a search, in the order of the visits. -/
def keysOf (succs : B → List A) (start : List A) (out : List B) : List A :=
  (start ++ out.flatMap succs).eraseDups

theorem mem_keysOf {a : A} :
    a ∈ keysOf succs start out ↔ a ∈ start ∨ ∃ b ∈ out, a ∈ succs b := by
  rw [keysOf, List.mem_eraseDups, List.mem_append, List.mem_flatMap]

/-- Every key that comes up is visited. -/
theorem ComesUp.mem_keysOf (hout : out = (keysOf succs start out).filterMap visit) {n : ℕ} {a : A}
    (h : ComesUp visit succs start n a) : a ∈ keysOf succs start out := by
  induction h with
  | start ha => exact Worklist.mem_keysOf.mpr (.inl ha)
  | succ _ hb ha ih =>
    refine Worklist.mem_keysOf.mpr (.inr ⟨_, ?_, ha⟩)
    rw [hout]
    exact List.mem_filterMap.mpr ⟨_, ih, hb⟩

/-- What stands before a member of a first part is in the first part. -/
theorem mem_of_before {first rest pre post : List A} {a k : A}
    (hsplit : (first ++ rest).eraseDups = pre ++ a :: post) (ha : a ∈ first) (hk : k ∈ pre) :
    k ∈ first := by
  have hnodup := nodup_eraseDups (first ++ rest)
  rw [List.eraseDups_append] at hsplit hnodup
  rcases List.append_eq_append_iff.mp hsplit with ⟨as, hpre, hrest⟩ | ⟨as, hfirst, -⟩
  · -- then the member is there twice
    have hdisjoint := List.disjoint_of_nodup_append hnodup
    exact absurd (hrest ▸ List.mem_append_right _ List.mem_cons_self)
      (hdisjoint (List.mem_eraseDups.mpr ha))
  · exact List.mem_eraseDups.mp (hfirst ▸ List.mem_append_left _ hk)

/-- **A key visited before another one comes up no later**: by induction on the
edges to the later one. The key its last edge starts from is visited, say, after
`pre'`; whatever comes before the later key is a start key or a successor of
what the keys up to there stand for. -/
theorem comesUp_of_before (hout : out = (keysOf succs start out).filterMap visit) {n : ℕ}
    {pre post : List A} {a k : A} (hsplit : keysOf succs start out = pre ++ a :: post)
    (hk : k ∈ pre) (ha : ComesUp visit succs start n a) :
    ∃ m ≤ n, ComesUp visit succs start m k := by
  induction n generalizing pre post a k with
  | zero =>
    obtain ⟨ha⟩ := ha
    exact ⟨0, le_rfl, .start (mem_of_before hsplit ha hk)⟩
  | succ n ih =>
    cases ha with
    | succ h hb ha =>
      rename_i a₀ b
      obtain ⟨pre', post', hsplit'⟩ := List.append_of_mem (h.mem_keysOf hout)
      have hflat : out.flatMap succs = ((pre'.filterMap visit).flatMap succs ++ succs b)
          ++ (post'.filterMap visit).flatMap succs := by
        conv_lhs => rw [hout, hsplit', List.filterMap_append, List.filterMap_cons_some hb]
        simp
      unfold keysOf at hsplit
      rw [hflat, ← List.append_assoc] at hsplit
      have hmem := mem_of_before hsplit
        (List.mem_append_right _ (List.mem_append_right _ ha)) hk
      rcases List.mem_append.mp hmem with hk | hk
      · exact ⟨0, Nat.zero_le _, .start hk⟩
      rcases List.mem_append.mp hk with hk | hk
      · obtain ⟨b', hb', hkb⟩ := List.mem_flatMap.mp hk
        obtain ⟨a', ha', hvisit⟩ := List.mem_filterMap.mp hb'
        obtain ⟨m, hm, hup⟩ := ih hsplit' ha' h
        exact ⟨m + 1, Nat.succ_le_succ hm, .succ hup hvisit hkb⟩
      · exact ⟨n + 1, le_rfl, .succ h hb hk⟩

/-- **Breadth first**: a result that comes before another one is no further from
the start. -/
theorem Ends.breadthFirst {name : B → A} (hname : ∀ a b, visit a = some b → name b = a)
    (h : Ends visit succs ⟨start, [], []⟩ out) {pre post : List B} {b b' : B} {n : ℕ}
    (hsplit : out = pre ++ b' :: post) (hb : b ∈ pre)
    (hup : ComesUp visit succs start n (name b')) :
    ∃ m ≤ n, ComesUp visit succs start m (name b) := by
  have hout : out = (keysOf succs start out).filterMap visit :=
    h.order (inOrder_start start)
  obtain ⟨keys, keys', hkeys, hpre, hpost⟩ :=
    List.filterMap_eq_append_iff.mp (hout.symm.trans hsplit)
  obtain ⟨between, a, keys'', hkeys', -, ha, -⟩ := List.filterMap_eq_cons_iff.mp hpost
  obtain ⟨k, hk, hkb⟩ := List.mem_filterMap.mp (hpre ▸ hb)
  rw [hname a b' ha] at hup
  rw [hname k b hkb]
  exact comesUp_of_before hout (by rw [hkeys, hkeys', List.append_assoc])
    (List.mem_append_left _ hk) hup

/-- **Each result is there once.** -/
theorem Ends.nodup {name : B → A} (hname : ∀ a b, visit a = some b → name b = a)
    (h : Ends visit succs ⟨start, [], []⟩ out) : (out.map name).Nodup := by
  have hout : out = (keysOf succs start out).filterMap visit :=
    h.order (inOrder_start start)
  have hsub : ∀ keys : List A, ((keys.filterMap visit).map name).Sublist keys := by
    intro keys
    induction keys with
    | nil => exact List.Sublist.refl _
    | cons a keys ih =>
      cases hvisit : visit a with
      | none =>
        rw [List.filterMap_cons_none hvisit]
        exact ih.cons a
      | some b =>
        rw [List.filterMap_cons_some hvisit, List.map_cons, hname a b hvisit]
        exact ih.cons_cons a
  rw [hout]
  exact (nodup_eraseDups _).sublist (hsub _)

end Rules

end Worklist
