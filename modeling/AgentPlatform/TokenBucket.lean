import Mathlib.Algebra.Order.Ring.Unbundled.Basic
import Mathlib.Tactic.Linarith
import Mathlib.Tactic.Ring

/-!
# Token buckets

A bucket holds tokens up to a capacity and is refilled at a rate. A draw reads
the clock, refills the bucket and takes a token, if there is one; the clock may
be read once more when the bucket is written back. A draw that is refused writes
the refilled bucket, or leaves the bucket as it was.

Two facts hold of every run: a bucket that is written never exceeds its capacity
(`Step.tokens_le`), and no interval sees more draws than a full bucket and the
refill of its length (`Run.count_le`). The second is a potential argument. What
a run can still draw until a moment is bounded by the tokens and the refill
until then (`Run.countUntil_le`), and the first draw of an interval leaves less
than a full bucket.
-/

namespace TokenBucket

variable {K : Type} [Field K] [LinearOrder K] [IsStrictOrderedRing K]

/-- **The limits of a bucket.** -/
structure Limits (K : Type) [Field K] [LinearOrder K] where
  capacity : K
  rate : K
  capacity_nonneg : 0 ≤ capacity
  rate_nonneg : 0 ≤ rate

/-- A bucket, when it was written last. -/
structure Bucket (K : Type) where
  tokens : K
  lastRefill : K

/-- A draw: the clock when the bucket is read and when it is written, and whether
a token was taken. -/
structure Draw (K : Type) where
  readAt : K
  writtenAt : K
  admitted : Bool

/-- The tokens at a moment. -/
def Limits.refilled (L : Limits K) (b : Bucket K) (now : K) : K :=
  min L.capacity (b.tokens + max 0 ((now - b.lastRefill) * L.rate))

/-- **A draw from a bucket**, by a clock that does not run backwards. -/
inductive Step (L : Limits K) (b : Bucket K) : Draw K → Bucket K → Prop
  | admitted {r w : K} (hr : b.lastRefill ≤ r) (hw : r ≤ w) (h : 1 ≤ L.refilled b r) :
    Step L b ⟨r, w, true⟩ ⟨L.refilled b r - 1, w⟩
  | refused {r w : K} (hr : b.lastRefill ≤ r) (hw : r ≤ w) :
    Step L b ⟨r, w, false⟩ ⟨L.refilled b r, w⟩
  | undone {r w : K} : Step L b ⟨r, w, false⟩ b

/-- **A run**: draws, one after another. -/
inductive Run (L : Limits K) : Bucket K → List (Draw K) → Bucket K → Prop
  | nil {b : Bucket K} : Run L b [] b
  | cons {b b₁ b' : Bucket K} {d : Draw K} {ds : List (Draw K)} (h : Step L b d b₁)
      (hrest : Run L b₁ ds b') : Run L b (d :: ds) b'

section Rules

variable {L : Limits K} {b b' : Bucket K} {d : Draw K} {ds : List (Draw K)} {s t : K}

/-! ## The tokens -/

theorem Limits.refilled_nonneg (h : 0 ≤ b.tokens) (now : K) : 0 ≤ L.refilled b now :=
  le_min L.capacity_nonneg (add_nonneg h (le_max_left _ _))

omit [IsStrictOrderedRing K] in
theorem Limits.refilled_le_capacity (now : K) : L.refilled b now ≤ L.capacity :=
  min_le_left _ _

/-- A refill is the time passed, at the rate. -/
theorem Limits.refilled_le {now : K} (h : b.lastRefill ≤ now) :
    L.refilled b now ≤ b.tokens + L.rate * (now - b.lastRefill) := by
  have hpassed : 0 ≤ (now - b.lastRefill) * L.rate :=
    mul_nonneg (sub_nonneg.mpr h) L.rate_nonneg
  unfold Limits.refilled
  rw [max_eq_right hpassed, mul_comm]
  exact min_le_right _ _

/-- What is there after a refill, with the refill that is still to come. -/
theorem Limits.refilled_add_le {r w : K} (hr : b.lastRefill ≤ r) (hw : r ≤ w) (t : K) :
    L.refilled b r + L.rate * (t - w) ≤ b.tokens + L.rate * (t - b.lastRefill) := by
  have hpassed : L.rate * (t - w) ≤ L.rate * (t - r) :=
    mul_le_mul_of_nonneg_left (by linarith) L.rate_nonneg
  calc L.refilled b r + L.rate * (t - w)
      ≤ (b.tokens + L.rate * (r - b.lastRefill)) + L.rate * (t - r) :=
        add_le_add (Limits.refilled_le hr) hpassed
    _ = b.tokens + L.rate * (t - b.lastRefill) := by ring

theorem Step.tokens_nonneg (h : Step L b d b') (hb : 0 ≤ b.tokens) : 0 ≤ b'.tokens := by
  cases h with
  | admitted _ _ h => exact sub_nonneg.mpr h
  | refused _ _ => exact Limits.refilled_nonneg hb _
  | undone => exact hb

/-- **No draw fills a bucket above its capacity.** -/
theorem Step.tokens_le (h : Step L b d b') : b'.tokens ≤ max L.capacity b.tokens := by
  cases h with
  | admitted _ _ _ =>
    exact le_max_of_le_left ((sub_le_self _ zero_le_one).trans (Limits.refilled_le_capacity _))
  | refused _ _ => exact le_max_of_le_left (Limits.refilled_le_capacity _)
  | undone => exact le_max_right _ _

/-- A token that is taken leaves a bucket within its capacity. -/
theorem Step.tokens_le_of_admitted (h : Step L b d b') (hd : d.admitted = true) :
    b'.tokens ≤ L.capacity := by
  cases h with
  | admitted _ _ _ => exact (sub_le_self _ zero_le_one).trans (Limits.refilled_le_capacity _)
  | refused _ _ => cases hd
  | undone => cases hd

theorem Run.tokens_nonneg (h : Run L b ds b') (hb : 0 ≤ b.tokens) : 0 ≤ b'.tokens := by
  induction h with
  | nil => exact hb
  | cons h _ ih => exact ih (h.tokens_nonneg hb)

theorem Run.tokens_le (h : Run L b ds b') : b'.tokens ≤ max L.capacity b.tokens := by
  induction h with
  | nil => exact le_max_right _ _
  | cons h _ ih => exact ih.trans (max_le (le_max_left _ _) h.tokens_le)

/-- After a token has been taken, the bucket is within its capacity. -/
theorem Run.tokens_le_of_admitted (h : Run L b ds b') (hd : ∃ d ∈ ds, d.admitted = true) :
    b'.tokens ≤ L.capacity := by
  induction h with
  | nil => simp at hd
  | cons h hrest ih =>
    obtain ⟨d, hmem, hd⟩ := hd
    rcases List.mem_cons.mp hmem with rfl | hmem
    · exact hrest.tokens_le.trans (max_le le_rfl (h.tokens_le_of_admitted hd))
    · exact ih ⟨d, hmem, hd⟩

/-! ## The draws of an interval -/

/-- Tokens taken until `t`. -/
def Draw.until (t : K) (d : Draw K) : Bool := d.admitted && decide (d.readAt ≤ t)

/-- Tokens taken between `s` and `t`: some moment of the draw lies there. -/
def Draw.within (s t : K) (d : Draw K) : Bool :=
  d.admitted && decide (d.readAt ≤ t) && decide (s ≤ d.writtenAt)

/-- **What can be drawn until `t`**: the tokens there are, and the refill until
then. -/
theorem Run.countUntil_le (h : Run L b ds b') (t : K) :
    ds.countP (Draw.until t) = 0
      ∨ (ds.countP (Draw.until t) : K) ≤ b.tokens + L.rate * (t - b.lastRefill) := by
  induction h with
  | nil => exact .inl rfl
  | @cons b _ _ _ ds h _ ih =>
    rw [List.countP_cons]
    cases h with
    | @admitted r w hr hw hone =>
      have hleft := Limits.refilled_add_le (L := L) hr hw t
      by_cases hrt : r ≤ t
      · rw [if_pos (by simp [Draw.until, hrt]), Nat.cast_add, Nat.cast_one]
        right
        rcases ih with ih | ih
        · -- nothing is drawn afterwards, so the one token is all
          have hone' := Limits.refilled_add_le (L := L) hr hrt t
          rw [sub_self, mul_zero, add_zero] at hone'
          rw [ih, Nat.cast_zero]
          linarith
        · linarith
      · rw [if_neg (by simp [Draw.until, hrt]), Nat.add_zero]
        exact ih.imp_right (fun ih => by linarith)
    | @refused r w hr hw =>
      rw [if_neg (by simp [Draw.until]), Nat.add_zero]
      have hleft := Limits.refilled_add_le (L := L) hr hw t
      exact ih.imp_right (fun ih => by linarith)
    | undone =>
      rw [if_neg (by simp [Draw.until]), Nat.add_zero]
      exact ih

/-- **No interval sees more draws** than a full bucket and the refill of its
length. -/
theorem Run.count_le (h : Run L b ds b') (hst : s ≤ t) :
    (ds.countP (Draw.within s t) : K) ≤ L.capacity + L.rate * (t - s) := by
  have hlength : 0 ≤ L.rate * (t - s) := mul_nonneg L.rate_nonneg (sub_nonneg.mpr hst)
  induction h with
  | nil =>
    rw [List.countP_nil, Nat.cast_zero]
    exact add_nonneg L.capacity_nonneg hlength
  | @cons b _ _ d ds h hrest ih =>
    rw [List.countP_cons]
    by_cases hd : Draw.within s t d = true
    · rw [if_pos hd, Nat.cast_add, Nat.cast_one]
      cases h with
      | @admitted r w hr hw hone =>
        -- the first draw of the interval: it leaves less than a full bucket
        have hfull : L.refilled b r ≤ L.capacity := Limits.refilled_le_capacity r
        have hsw : s ≤ w := by
          simp only [Draw.within, Bool.and_eq_true, decide_eq_true_eq] at hd
          exact hd.2
        have hlater : ds.countP (Draw.within s t) ≤ ds.countP (Draw.until t) :=
          List.countP_mono_left (fun d _ hd => by
            simp only [Draw.within, Draw.until, Bool.and_eq_true] at hd ⊢
            exact hd.1)
        have hlater' : (ds.countP (Draw.within s t) : K) ≤ (ds.countP (Draw.until t) : K) :=
          Nat.cast_le.mpr hlater
        have hpassed : L.rate * (t - w) ≤ L.rate * (t - s) :=
          mul_le_mul_of_nonneg_left (by linarith) L.rate_nonneg
        rcases hrest.countUntil_le t with hrest | hrest
        · rw [hrest, Nat.cast_zero] at hlater'
          linarith
        · linarith
      | refused _ _ => simp [Draw.within] at hd
      | undone => simp [Draw.within] at hd
    · rw [if_neg hd, Nat.add_zero]
      exact ih

end Rules

end TokenBucket
