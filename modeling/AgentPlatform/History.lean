import Mathlib.Data.List.Induction

/-!
# Histories of a keyed table

A table is told by the writes made to it: each has an author, the row it found
under its key – if there was one – and the row it left. `History.current` is
the row a history leaves under a key, and a history is *chained* when every
write found what the writes before it had left.

In a chained history, facts about single writes add up. What a write found was
left by an earlier one (`Chained.exists_before`), so the life of a row can be
followed back to its creation. A set of rows that no write leads out of is
never left (`Chained.absorbed`), and a set that is entered from outside it
only, and never left, is entered once per key (`Chained.enters_once`).
-/

/-- **One write**: who made it, the row found under the key, and the row left
there. -/
structure Write (A Row : Type) where
  author : A
  before : Option Row
  after : Row

namespace History

variable {A Row K : Type} [DecidableEq K] (key : Row → K)

/-- The row a history leaves under a key. -/
def current (h : List (Write A Row)) (k : K) : Option Row :=
  h.foldl (fun row w => if key w.after = k then some w.after else row) none

theorem current_snoc (h : List (Write A Row)) (w : Write A Row) (k : K) :
    current key (h ++ [w]) k = if key w.after = k then some w.after else current key h k := by
  unfold current
  rw [List.foldl_append]
  rfl

/-- What a history leaves under a key, one of its writes left. -/
theorem exists_of_current {h : List (Write A Row)} {k : K} {r : Row}
    (hr : current key h k = some r) :
    ∃ pre, ∃ w : Write A Row, ∃ post, h = pre ++ w :: post ∧ w.after = r ∧ key r = k := by
  induction h using List.reverseRecOn with
  | nil => cases hr
  | append_singleton h w ih =>
    rw [current_snoc] at hr
    split at hr
    · rename_i hk
      obtain rfl := Option.some.inj hr
      exact ⟨h, w, [], rfl, rfl, hk⟩
    · obtain ⟨pre, w₀, post, rfl, hw⟩ := ih hr
      exact ⟨pre, w₀, post ++ [w], by simp, hw⟩

/-- **A history is chained** when every write found what the writes before it
left. -/
def Chained (h : List (Write A Row)) : Prop :=
  ∀ pre, ∀ w : Write A Row, ∀ post, h = pre ++ w :: post → w.before = current key pre (key w.after)

theorem chained_nil : Chained key ([] : List (Write A Row)) := by
  intro pre w post h
  simp at h

theorem chained_snoc {h : List (Write A Row)} {w : Write A Row} :
    Chained key (h ++ [w]) ↔ Chained key h ∧ w.before = current key h (key w.after) := by
  constructor
  · intro hc
    refine ⟨fun pre w' post hpost => ?_, hc h w [] rfl⟩
    exact hc pre w' (post ++ [w]) (by simp [hpost])
  · rintro ⟨hc, hw⟩ pre w' post hpost
    -- The write is the last one, or one of the history before it.
    rcases List.eq_nil_or_concat post with rfl | ⟨post', w'', rfl⟩
    · obtain ⟨rfl, hlast⟩ := List.append_inj' hpost rfl
      obtain rfl := (List.cons.inj hlast).1
      exact hw
    · have hsplit : h ++ [w] = (pre ++ w' :: post') ++ [w''] := by simpa using hpost
      exact hc pre w' post' (List.append_inj' hsplit rfl).1

section Rules

variable {key} {h : List (Write A Row)}

/-- **What a write found, an earlier write left.** -/
theorem Chained.exists_before (hc : Chained key h) {pre post : List (Write A Row)}
    {w : Write A Row} (hw : h = pre ++ w :: post) {r : Row} (hr : w.before = some r) :
    ∃ pre₁ w₁ mid, pre = pre₁ ++ w₁ :: mid ∧ w₁.after = r ∧ key r = key w.after :=
  exists_of_current key ((hc pre w post hw).symm.trans hr)

/-- **A row stays in a set that no write leads out of**, whatever is written
after it. -/
theorem current_absorbed {Q : Row → Prop} {k : K} :
    ∀ {l : List (Write A Row)} {pre : List (Write A Row)}, Chained key (pre ++ l) →
      (∀ w ∈ l, ∀ r, w.before = some r → Q r → Q w.after) →
        (∃ r, current key pre k = some r ∧ Q r) →
        ∃ r, current key (pre ++ l) k = some r ∧ Q r := by
  intro l
  induction l using List.reverseRecOn with
  | nil =>
    intro pre _ _ hpre
    rw [List.append_nil]
    exact hpre
  | append_singleton l w ih =>
    intro pre hc hQ hpre
    rw [← List.append_assoc] at hc ⊢
    obtain ⟨hc, hw⟩ := (chained_snoc key).mp hc
    obtain ⟨r, hr, hqr⟩ := ih hc (fun w' hw' => hQ w' (List.mem_append_left _ hw')) hpre
    rw [current_snoc]
    split
    · rename_i hk
      refine ⟨w.after, rfl, hQ w (by simp) r ?_ hqr⟩
      rw [hw, hk, hr]
    · exact ⟨r, hr, hqr⟩

/-- **A set of rows that no write leads out of is never left**: a later write
under the same key finds a row of the set. -/
theorem Chained.absorbed (hc : Chained key h) {Q : Row → Prop}
    (hQ : ∀ w ∈ h, ∀ r, w.before = some r → Q r → Q w.after)
    {pre mid post : List (Write A Row)} {w w' : Write A Row}
    (hsplit : h = pre ++ w :: (mid ++ w' :: post)) (hkey : key w'.after = key w.after)
    (hw : Q w.after) : ∃ r, w'.before = some r ∧ Q r := by
  have hsplit' : h = ((pre ++ [w]) ++ mid) ++ w' :: post := by simp [hsplit]
  have hmid : Chained key ((pre ++ [w]) ++ mid) := by
    intro pre' v post' hv
    exact hc pre' v (post' ++ w' :: post) (by simp [hsplit', hv])
  have hnow : ∃ r, current key (pre ++ [w]) (key w'.after) = some r ∧ Q r := by
    rw [current_snoc, if_pos hkey.symm]
    exact ⟨w.after, rfl, hw⟩
  obtain ⟨r, hr, hqr⟩ := current_absorbed hmid
    (fun v hv => hQ v (by simp [hsplit, hv])) hnow
  exact ⟨r, (hc _ w' post hsplit').trans hr, hqr⟩

/-- **A set that is entered from outside and never left is entered once per
key**: two writes under one key that enter it are the same. -/
theorem Chained.enters_once (hc : Chained key h) {Q : Row → Prop}
    (hQ : ∀ w ∈ h, ∀ r, w.before = some r → Q r → Q w.after) {enters : Write A Row → Prop}
    (hin : ∀ w ∈ h, enters w → Q w.after)
    (hout : ∀ w ∈ h, enters w → ∀ r, w.before = some r → ¬ Q r) :
    h.Pairwise (fun w w' => ¬ (enters w ∧ enters w' ∧ key w'.after = key w.after)) := by
  rw [List.pairwise_iff_forall_sublist]
  rintro w w' hsub ⟨hw, hw', hkey⟩
  -- The two writes split the history, the first before the second.
  obtain ⟨l₁, l₂, rfl, hw₁, hw₂⟩ := List.cons_sublist_iff.mp hsub
  obtain ⟨pre, m₁, rfl⟩ := List.append_of_mem hw₁
  obtain ⟨m₂, post, rfl⟩ := List.append_of_mem (List.singleton_sublist.mp hw₂)
  have hsplit : (pre ++ w :: m₁) ++ (m₂ ++ w' :: post) = pre ++ w ::
      ((m₁ ++ m₂) ++ w' :: post) := by
    simp
  obtain ⟨r, hr, hqr⟩ := hc.absorbed hQ hsplit hkey (hin w (by simp) hw)
  exact hout w' (by simp) hw' r hr hqr

end Rules

end History
