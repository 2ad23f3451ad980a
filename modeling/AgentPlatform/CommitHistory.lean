import AgentPlatform.Observed

/-!
# Commits that lead from one database to another

The log of a database says what each commit changed. `CommitsLead` says that a
list of commits leads from one database to another, each starting where the one
before it ended. What every commit of such a list respects, the list respects
(`CommitsLead.rel`).
-/

/-- **Commits that lead from one database to another.** -/
def CommitsLead {Db : Type} (db₀ : Db) : List (TxCommit Db) → Db → Prop
  | [], db => db = db₀
  | c :: cs, db => c.before = db₀ ∧ CommitsLead c.after cs db

namespace CommitsLead

variable {Db : Type} {db₀ db : Db} {cs cs' : List (TxCommit Db)} {c : TxCommit Db}

theorem append_iff : CommitsLead db₀ (cs ++ cs') db
    ↔ ∃ db₁, CommitsLead db₀ cs db₁ ∧ CommitsLead db₁ cs' db := by
  induction cs generalizing db₀ with
  | nil => simp [CommitsLead]
  | cons c cs ih => simp [CommitsLead, ih, and_assoc]

theorem snoc_iff : CommitsLead db₀ (cs ++ [c]) db
    ↔ CommitsLead db₀ cs c.before ∧ db = c.after := by
  rw [append_iff]
  constructor
  · rintro ⟨db₁, h, hc, hdb⟩
    rw [hc]
    exact ⟨h, hdb⟩
  · rintro ⟨h, hdb⟩
    exact ⟨c.before, h, rfl, hdb⟩

/-- **What every commit respects, the commits together respect.** -/
theorem rel {R : Db → Db → Prop} (hrefl : ∀ a, R a a) (htrans : ∀ a b c, R a b → R b c → R a c)
    (h : CommitsLead db₀ cs db) (hR : ∀ c ∈ cs, R c.before c.after) : R db₀ db := by
  induction cs generalizing db₀ with
  | nil =>
    obtain rfl := h
    exact hrefl _
  | cons c cs ih =>
    obtain ⟨rfl, h⟩ := h
    refine htrans _ _ _ (hR c List.mem_cons_self) (ih h (fun c' hc' => ?_))
    exact hR c' (List.mem_cons_of_mem c hc')

/-- **A property that no commit breaks is kept.** -/
theorem keeps {P : Db → Prop} (h : CommitsLead db₀ cs db)
    (hP : ∀ c ∈ cs, P c.before → P c.after) (h₀ : P db₀) : P db := by
  refine h.rel (R := fun a b => P a → P b) (fun _ ha => ha) (fun _ _ _ hab hbc ha => hbc (hab ha))
    hP h₀

end CommitsLead
