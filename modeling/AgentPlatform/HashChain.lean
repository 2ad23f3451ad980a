import Mathlib.Data.List.Induction

/-!
# Hash chains

A chain folds a history into one value: starting from a fixed `genesis`, every
entry is mixed into the head of the entries before it. When the mixing is
injective and never gives the genesis again, the head determines the whole
history, its length included (`head_injective`).

A stored chain has rows that keep what was mixed in and the head they were
mixed into. `Linked` says that these agree with what the rows themselves say:
`digest` is what a row's content hashes to, `stored` and `prev` are the values
next to it. Rows are linked one after the other (`linked_snoc`).
-/

namespace HashChain

variable {H E R : Type} (step : H → E → H) (genesis : H)

/-- **The head of a history.** -/
def head (es : List E) : H := es.foldl step genesis

@[simp] theorem head_nil : head step genesis [] = genesis := rfl

@[simp] theorem head_cons (e : E) (es : List E) :
    head step genesis (e :: es) = head step (step genesis e) es := rfl

@[simp] theorem head_snoc (es : List E) (e : E) :
    head step genesis (es ++ [e]) = step (head step genesis es) e := by
  simp [head]

variable {step genesis} in
/-- What the genesis has and mixing keeps, every head has. -/
theorem head_of_step {G : H → Prop} (hgenesis : G genesis)
    (hstep : ∀ h e, G h → G (step h e)) (es : List E) : G (head step genesis es) := by
  induction es using List.reverseRecOn with
  | nil => exact hgenesis
  | append_singleton es e ih =>
    rw [head_snoc]
    exact hstep _ e ih

variable {step genesis} in
/-- **The head determines the history**, when mixing is injective on the heads
there are. -/
theorem head_injective {G : H → Prop} (hgood : ∀ es, G (head step genesis es))
    (hstep : ∀ h e h' e', G h → G h' → step h e = step h' e' → h = h' ∧ e = e')
    (hgenesis : ∀ h e, step h e ≠ genesis) : Function.Injective (head step genesis) := by
  intro es
  induction es using List.reverseRecOn with
  | nil =>
    intro fs h
    rcases List.eq_nil_or_concat fs with rfl | ⟨gs, f, rfl⟩
    · rfl
    · rw [List.concat_eq_append, head_snoc] at h
      exact absurd h.symm (hgenesis _ _)
  | append_singleton es e ih =>
    intro fs h
    rcases List.eq_nil_or_concat fs with rfl | ⟨gs, f, rfl⟩
    · rw [head_snoc] at h
      exact absurd h (hgenesis _ _)
    · rw [List.concat_eq_append, head_snoc, head_snoc] at h
      obtain ⟨hhead, rfl⟩ := hstep _ _ _ _ (hgood es) (hgood gs) h
      rw [List.concat_eq_append, ih hhead]

/-! ## Stored chains -/

variable (digest stored : R → E) (prev : R → H)

/-- **The rows are a chain** from a given head on. -/
def LinkedFrom (h : H) : List R → Prop
  | [] => True
  | r :: rs => (digest r = stored r ∧ h = prev r) ∧ LinkedFrom (step h (digest r)) rs

/-- The rows are a chain from the start. -/
def Linked (rs : List R) : Prop := LinkedFrom step digest stored prev genesis rs

theorem linkedFrom_append (h : H) (rs rs' : List R) :
    LinkedFrom step digest stored prev h (rs ++ rs')
      ↔ LinkedFrom step digest stored prev h rs
        ∧ LinkedFrom step digest stored prev (head step h (rs.map digest)) rs' := by
  induction rs generalizing h with
  | nil => simp [LinkedFrom]
  | cons r rs ih => simp [LinkedFrom, ih, and_assoc]

/-- **One more row extends a chain** when it was mixed into its head. -/
theorem linked_snoc (rs : List R) (r : R) :
    Linked step genesis digest stored prev (rs ++ [r])
      ↔ Linked step genesis digest stored prev rs
        ∧ digest r = stored r ∧ head step genesis (rs.map digest) = prev r := by
  unfold Linked
  rw [linkedFrom_append]
  simp [LinkedFrom]

end HashChain
