import Mathlib.Data.Nat.Notation
import Mathlib.Data.List.Range

/-!
# Tilings of an interval

A log that grows by blocks announces each block as a half-open range
`(from, to]`. `Tiles lo ranges hi` says that the announced ranges, in order,
cover `(lo, hi]` without a gap or an overlap, each of them non-empty. The
positions of the ranges, read off one after the other, are then exactly
`lo + 1, …, hi`.
-/

/-- **The ranges tile `(lo, hi]`**, in order, each of them non-empty. -/
def Tiles : ℕ → List (ℕ × ℕ) → ℕ → Prop
  | lo, [], hi => lo = hi
  | lo, r :: rs, hi => r.1 = lo ∧ lo < r.2 ∧ Tiles r.2 rs hi

/-- The positions of a range `(from, to]`. -/
def positions (r : ℕ × ℕ) : List ℕ := List.range' (r.1 + 1) (r.2 - r.1)

theorem positions_add (lo n : ℕ) : positions (lo, lo + n) = List.range' (lo + 1) n := by
  simp [positions]

/-- A tiling of `(lo, hi]` extends by a range that starts at `hi`. -/
theorem Tiles.append_singleton {lo hi hi' : ℕ} {rs : List (ℕ × ℕ)} (h : Tiles lo rs hi)
    (hlt : hi < hi') : Tiles lo (rs ++ [(hi, hi')]) hi' := by
  induction rs generalizing lo with
  | nil =>
    obtain rfl : lo = hi := h
    exact ⟨rfl, hlt, rfl⟩
  | cons r rs ih => exact ⟨h.1, h.2.1, ih h.2.2⟩

theorem Tiles.le {lo hi : ℕ} {rs : List (ℕ × ℕ)} (h : Tiles lo rs hi) : lo ≤ hi := by
  induction rs generalizing lo with
  | nil => exact Nat.le_of_eq h
  | cons r rs ih => exact Nat.le_trans (Nat.le_of_lt h.2.1) (ih h.2.2)

/-- **The positions of a tiling are consecutive.** -/
theorem Tiles.flatMap_positions {lo hi : ℕ} {rs : List (ℕ × ℕ)} (h : Tiles lo rs hi) :
    rs.flatMap positions = List.range' (lo + 1) (hi - lo) := by
  induction rs generalizing lo with
  | nil =>
    obtain rfl : lo = hi := h
    simp
  | cons r rs ih =>
    obtain ⟨rfl, hlt, hrest⟩ := h
    have hle := hrest.le
    rw [List.flatMap_cons, ih hrest, positions]
    have hmid : r.2 + 1 = r.1 + 1 + (r.2 - r.1) := by omega
    have hlen : hi - r.1 = (r.2 - r.1) + (hi - r.2) := by omega
    rw [hmid, List.range'_append_1, hlen]

/-- A range of a tiling is not empty. -/
theorem Tiles.lt_of_mem {lo hi : ℕ} {rs : List (ℕ × ℕ)} (h : Tiles lo rs hi) {r : ℕ × ℕ}
    (hr : r ∈ rs) : r.1 < r.2 := by
  induction rs generalizing lo with
  | nil => cases hr
  | cons x rs ih =>
    rcases List.mem_cons.mp hr with rfl | hr
    · rw [h.1]
      exact h.2.1
    · exact ih h.2.2 hr
