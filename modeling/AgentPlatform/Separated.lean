import Mathlib.Algebra.Group.Nat.Defs
import Mathlib.Algebra.GroupWithZero.Nat
import Mathlib.Data.List.Count

/-!
# Fields joined by a separator

Texts are often put together from fields with a separator in between, with
nothing done about a field that holds the separator itself. `joined` is such a
text. It does not say where one field ends and the next begins; what it does
say is `joined_inj_iff`: two texts of as many fields are equal *field by field*
exactly when the fields hold the separator equally often.
-/

namespace Separated

variable {α : Type} [DecidableEq α] {s : α}

/-- The fields, each followed by the separator, and then the last one. -/
def joined (s : α) (fields : List (List α)) (last : List α) : List α :=
  fields.foldr (fun field rest => field ++ s :: rest) last

omit [DecidableEq α] in
@[simp] theorem joined_nil (last : List α) : joined s [] last = last := rfl

omit [DecidableEq α] in
@[simp] theorem joined_cons (field : List α) (fields : List (List α)) (last : List α) :
    joined s (field :: fields) last = field ++ s :: joined s fields last := rfl

/-- How often each field holds the separator. -/
def counts (s : α) (fields : List (List α)) : List ℕ := fields.map (List.count s)

/-- **A joined text holds the separator once for each field, and as often as the
fields do.** -/
theorem count_joined (fields : List (List α)) (last : List α) :
    (joined s fields last).count s
      = (counts s fields).sum + fields.length + last.count s := by
  induction fields with
  | nil => simp [counts]
  | cons field fields ih =>
    rw [joined_cons, List.count_append, List.count_cons_self, ih]
    simp only [counts, List.map_cons, List.sum_cons, List.length_cons]
    omega

/-- What stands before a separator is told by how often it holds the
separator. -/
theorem append_cons_inj {a a' b b' : List α} (h : a ++ s :: b = a' ++ s :: b')
    (hcount : a.count s = a'.count s) : a = a' ∧ b = b' := by
  induction a generalizing a' with
  | nil =>
    cases a' with
    | nil => exact ⟨rfl, List.tail_eq_of_cons_eq h⟩
    | cons x xs =>
      obtain rfl : s = x := List.head_eq_of_cons_eq h
      rw [List.count_nil, List.count_cons_self] at hcount
      omega
  | cons y ys ih =>
    cases a' with
    | nil =>
      obtain rfl : y = s := List.head_eq_of_cons_eq h
      rw [List.count_nil, List.count_cons_self] at hcount
      omega
    | cons x xs =>
      obtain rfl : y = x := List.head_eq_of_cons_eq h
      rw [List.count_cons, List.count_cons] at hcount
      obtain ⟨hxs, hb⟩ := ih (List.tail_eq_of_cons_eq h) (by omega)
      exact ⟨congrArg (y :: ·) hxs, hb⟩

/-- **Equal texts of as many fields have equal fields exactly when the fields
hold the separator equally often.** -/
theorem joined_inj_iff {fields fields' : List (List α)} {last last' : List α}
    (hlen : fields.length = fields'.length)
    (h : joined s fields last = joined s fields' last') :
    (fields = fields' ∧ last = last') ↔ counts s fields = counts s fields' := by
  refine ⟨fun heq => by rw [heq.1], fun hcounts => ?_⟩
  induction fields generalizing fields' with
  | nil =>
    obtain rfl : fields' = [] := List.length_eq_zero_iff.mp hlen.symm
    exact ⟨rfl, h⟩
  | cons field fields ih =>
    cases fields' with
    | nil => cases hlen
    | cons field' fields' =>
      simp only [counts, List.map_cons, List.cons.injEq] at hcounts
      obtain ⟨rfl, hrest⟩ := append_cons_inj h hcounts.1
      obtain ⟨rfl, rfl⟩ := ih (Nat.succ.inj hlen) hrest hcounts.2
      exact ⟨rfl, rfl⟩

end Separated
