import Mathlib.Data.List.Nodup

/-!
# Dictionaries

A dictionary keeps its entries in the order in which their keys were first set,
one for each key. Setting a key that is there keeps its place; removing it and
setting it again moves it to the end. The order shows when the entries are
listed, and nowhere else: what a dictionary holds is `get`.
-/

/-- **A dictionary**: entries with distinct keys. -/
structure Dictionary (K V : Type) where
  items : List (K × V)
  nodup : (items.map Prod.fst).Nodup

namespace Dictionary

variable {K V : Type} [DecidableEq K]

/-- The empty dictionary. -/
def empty : Dictionary K V := ⟨[], List.nodup_nil⟩

/-- The value under a key. -/
def get (d : Dictionary K V) (k : K) : Option V :=
  (d.items.find? (fun e => e.1 = k)).map Prod.snd

/-- `d[k] = v`. -/
def set (d : Dictionary K V) (k : K) (v : V) : Dictionary K V where
  items :=
    if k ∈ d.items.map Prod.fst then d.items.map (fun e => if e.1 = k then (k, v) else e)
    else d.items ++ [(k, v)]
  nodup := by
    split
    · have hkeys : (d.items.map (fun e => if e.1 = k then (k, v) else e)).map Prod.fst
          = d.items.map Prod.fst := by
        rw [List.map_map]
        refine List.map_congr_left (fun e _ => ?_)
        show (if e.1 = k then (k, v) else e).1 = e.1
        split
        · rename_i h
          exact h.symm
        · rfl
      rw [hkeys]
      exact d.nodup
    · rename_i h
      rw [List.map_append, List.nodup_append]
      refine ⟨d.nodup, by simp, fun a ha b hb hab => h ?_⟩
      have hbk : b = k := List.mem_singleton.mp hb
      rw [← hbk, ← hab]
      exact ha

/-- Keep the entries whose key passes a test. -/
def filterKeys (d : Dictionary K V) (p : K → Bool) : Dictionary K V where
  items := d.items.filter (fun e => p e.1)
  nodup := d.nodup.sublist (List.filter_sublist.map _)

/-- `d.pop(k, None)`. -/
def pop (d : Dictionary K V) (k : K) : Dictionary K V := d.filterKeys (fun k' => k' ≠ k)

/-! ## What a dictionary holds -/

/-- An entry is what is under its key. -/
theorem get_eq_some_iff {d : Dictionary K V} {k : K} {v : V} :
    d.get k = some v ↔ (k, v) ∈ d.items := by
  unfold get
  rw [Option.map_eq_some_iff]
  constructor
  · rintro ⟨⟨k', v'⟩, hfind, rfl⟩
    have hk : k' = k := by simpa using List.find?_some hfind
    rw [← hk]
    exact List.mem_of_find?_eq_some hfind
  · intro hmem
    have hsome : (d.items.find? (fun e => e.1 = k)).isSome :=
      List.find?_isSome.mpr ⟨(k, v), hmem, by simp⟩
    obtain ⟨e, he⟩ := Option.isSome_iff_exists.mp hsome
    have hk : e.1 = k := by simpa using List.find?_some he
    -- The keys are distinct, so the entry found is the one at hand.
    have heq : e = (k, v) :=
      List.inj_on_of_nodup_map d.nodup (List.mem_of_find?_eq_some he) hmem hk
    exact ⟨e, he, by rw [heq]⟩

@[simp] theorem get_empty (k : K) : (empty : Dictionary K V).get k = none := rfl

theorem get_set (d : Dictionary K V) (k k' : K) (v : V) :
    (d.set k v).get k' = if k' = k then some v else d.get k' := by
  refine Option.ext (fun x => ?_)
  show (d.set k v).get k' = some x ↔ (if k' = k then some v else d.get k') = some x
  rw [get_eq_some_iff]
  show (k', x) ∈ (if _ then _ else _) ↔ _
  by_cases hmem : k ∈ d.items.map Prod.fst
  · rw [if_pos hmem, List.mem_map]
    by_cases hk : k' = k
    · rw [if_pos hk]
      constructor
      · rintro ⟨e, -, he⟩
        split at he
        · exact congrArg some (Prod.mk.inj he).2
        · rename_i hne
          exact absurd (congrArg Prod.fst he |>.trans hk) hne
      · intro hx
        obtain ⟨e, he, hek⟩ := List.mem_map.mp hmem
        exact ⟨e, he, by rw [if_pos hek, hk, Option.some.inj hx]⟩
    · rw [if_neg hk, get_eq_some_iff]
      constructor
      · rintro ⟨e, he, heq⟩
        split at heq
        · exact absurd (Prod.mk.inj heq).1.symm hk
        · rw [← heq]
          exact he
      · intro hx
        exact ⟨(k', x), hx, if_neg hk⟩
  · rw [if_neg hmem, List.mem_append, List.mem_singleton]
    by_cases hk : k' = k
    · rw [if_pos hk]
      constructor
      · rintro (hx | hx)
        · exact absurd (hk ▸ List.mem_map_of_mem hx) hmem
        · rw [(Prod.mk.inj hx).2]
      · intro hx
        exact .inr (by rw [hk, Option.some.inj hx])
    · rw [if_neg hk, get_eq_some_iff]
      constructor
      · rintro (hx | hx)
        · exact hx
        · exact absurd (Prod.mk.inj hx).1 hk
      · exact .inl

theorem get_filterKeys (d : Dictionary K V) (p : K → Bool) (k : K) :
    (d.filterKeys p).get k = if p k then d.get k else none := by
  refine Option.ext (fun x => ?_)
  show (d.filterKeys p).get k = some x ↔ (if p k then d.get k else none) = some x
  rw [get_eq_some_iff]
  show (k, x) ∈ d.items.filter (fun e => p e.1) ↔ _
  rw [List.mem_filter]
  by_cases hp : p k = true
  · rw [if_pos hp, get_eq_some_iff]
    exact and_iff_left hp
  · rw [if_neg hp]
    exact ⟨fun h => absurd h.2 hp, fun h => by cases h⟩

theorem get_pop (d : Dictionary K V) (k k' : K) :
    (d.pop k).get k' = if k' = k then none else d.get k' := by
  unfold pop
  rw [get_filterKeys]
  by_cases hk : k' = k <;> simp [hk]

/-! ## The entries of some keys -/

/-- Setting a key leaves the entries of others, in their order. -/
theorem filter_items_set (d : Dictionary K V) {k : K} (v : V) {p : K → Bool} (hp : p k = false) :
    (d.set k v).items.filter (fun e => p e.1) = d.items.filter (fun e => p e.1) := by
  show List.filter _ (if _ then _ else _) = _
  split
  · rw [List.filter_map, ← List.map_id (d.items.filter (fun e => p e.1))]
    have hkeep : (fun e : K × V => p e.1) ∘ (fun e => if e.1 = k then (k, v) else e)
        = fun e => p e.1 := by
      funext e
      show p (if e.1 = k then (k, v) else e).1 = p e.1
      split
      · rename_i h
        rw [h]
      · rfl
    rw [hkeep]
    refine List.map_congr_left (fun e he => ?_)
    refine if_neg (fun h => ?_)
    have hpe := (List.mem_filter.mp he).2
    rw [h, hp] at hpe
    cases hpe
  · rw [List.filter_append, List.filter_singleton]
    simp [hp]

omit [DecidableEq K] in
/-- Removing other keys leaves the entries of some. -/
theorem filter_items_filterKeys (d : Dictionary K V) {p q : K → Bool}
    (hpq : ∀ k, p k = true → q k = true) :
    (d.filterKeys q).items.filter (fun e => p e.1) = d.items.filter (fun e => p e.1) := by
  show (d.items.filter (fun e => q e.1)).filter (fun e => p e.1) = _
  rw [List.filter_filter]
  refine List.filter_congr (fun e _ => ?_)
  cases hpe : p e.1 with
  | false => rfl
  | true => rw [hpq _ hpe]; rfl

end Dictionary
