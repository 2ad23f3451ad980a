import Mathlib.Data.List.Basic
import Mathlib.Logic.Basic

/-!
# Regular expressions

Regular expressions with word boundaries, character classes and bounded repetition, as they
are written for a backtracking engine. `Matches` says which texts an expression matches
between two characters – all it needs to know of these is whether they are word characters,
so a match can be carried from one text to another (`FoundIn.of_context`). `search` decides
whether an expression is found in a text, and `search_iff` that it does.

What is a digit, a blank or a word character, and which characters are equal up to their
case, is given by tables. Greedy and lazy repetition match the same texts and differ in the
source only.
-/

/-- The tables of an engine. -/
structure CharTables where
  isWord : Char → Bool
  isDigit : Char → Bool
  isSpace : Char → Bool
  /-- The characters that are equal to a character up to case. -/
  variants : Char → List Char

/-- An item of a character class. -/
inductive ClassItem where
  | one (c : Char)
  | escaped (c : Char)
  | range (lo hi : Char)
  | digit
  deriving DecidableEq

/-- What matches one character. -/
inductive CharSet where
  | one (c : Char)
  | digit
  | space
  | oneOf (items : List ClassItem)
  | noneOf (items : List ClassItem)
  deriving DecidableEq

/-- **A regular expression.** -/
inductive Regex where
  | empty
  | boundary
  | char (set : CharSet)
  | seq (r q : Regex)
  | alt (r q : Regex)
  | rep (r : Regex) (lo : ℕ) (hi : Option ℕ) (isLazy : Bool)
  | group (captures : Bool) (r : Regex)
  deriving DecidableEq

/-! ## Sources -/

/-- An item as it is written. -/
def ClassItem.source : ClassItem → String
  | .one c => String.ofList [c]
  | .escaped c => String.ofList ['\\', c]
  | .range lo hi => String.ofList [lo, '-', hi]
  | .digit => "\\d"

/-- A set as it is written. -/
def CharSet.source : CharSet → String
  | .one c => String.ofList [c]
  | .digit => "\\d"
  | .space => "\\s"
  | .oneOf items => "[" ++ String.join (items.map ClassItem.source) ++ "]"
  | .noneOf items => "[^" ++ String.join (items.map ClassItem.source) ++ "]"

/-- A repetition as it is written. -/
def repSource : ℕ → Option ℕ → String
  | 0, none => "*"
  | 1, none => "+"
  | 0, some 1 => "?"
  | lo, none => "\x7b" ++ toString lo ++ ",\x7d"
  | lo, some hi =>
    if lo = hi then "\x7b" ++ toString lo ++ "\x7d"
    else "\x7b" ++ toString lo ++ "," ++ toString hi ++ "\x7d"

/-- **An expression as it is written.** -/
def Regex.source : Regex → String
  | .empty => ""
  | .boundary => "\\b"
  | .char set => set.source
  | .seq r q => r.source ++ q.source
  | .alt r q => r.source ++ "|" ++ q.source
  | .rep r lo hi isLazy => r.source ++ repSource lo hi ++ if isLazy then "?" else ""
  | .group captures r => (if captures then "(" else "(?:") ++ r.source ++ ")"

namespace Regex

/-- One expression after the other. -/
def concat (rs : List Regex) : Regex := rs.foldr seq empty

/-- The characters of a text, one after the other. -/
def text (s : String) : Regex := concat (s.toList.map (fun c => char (.one c)))

/-! ## Matches -/

section Tables

variable (T : CharTables) (ignoreCase : Bool)

/-- The characters that stand for a character in a comparison. -/
def readings (c : Char) : List Char := if ignoreCase then c :: T.variants c else [c]

/-- An item accepts a character as it stands. -/
def itemAccepts (c : Char) : ClassItem → Bool
  | .one d => c = d
  | .escaped d => c = d
  | .range lo hi => lo ≤ c && c ≤ hi
  | .digit => T.isDigit c

/-- A set accepts a character. -/
def accepts (c : Char) : CharSet → Bool
  | .one d => d ∈ readings T ignoreCase c
  | .digit => T.isDigit c
  | .space => T.isSpace c
  | .oneOf items => (readings T ignoreCase c).any (fun d => items.any (itemAccepts T d))
  | .noneOf items => !(readings T ignoreCase c).any (fun d => items.any (itemAccepts T d))

/-- A word character comes next, in a text or after it. -/
def wordNext (v : List Char) (after : Bool) : Bool := v.head?.elim after T.isWord

/-- A word character came last, in a text or before it. -/
def wordLast (u : List Char) (before : Bool) : Bool := u.getLast?.elim before T.isWord

/-- A text in `n` parts that match one after the other. -/
def Power (M : Bool → List Char → Bool → Prop) : ℕ → Bool → List Char → Bool → Prop
  | 0, _, s, _ => s = []
  | n + 1, before, s, after => ∃ u v, s = u ++ v ∧ M before u (wordNext T v after)
    ∧ Power M n (wordLast T u before) v after

/-- **An expression matches a text** that stands between two characters: whether the one
before and the one after are word characters is all that it depends on. -/
def Matches : Regex → Bool → List Char → Bool → Prop
  | empty, _, s, _ => s = []
  | boundary, before, s, after => s = [] ∧ before ≠ after
  | char set, _, s, _ => ∃ c, s = [c] ∧ accepts T ignoreCase c set = true
  | seq r q, before, s, after => ∃ u v, s = u ++ v ∧ r.Matches before u (wordNext T v after)
    ∧ q.Matches (wordLast T u before) v after
  | alt r q, before, s, after => r.Matches before s after ∨ q.Matches before s after
  | rep r lo hi _, before, s, after => ∃ n, (∀ h ∈ hi, n ≤ h - lo)
    ∧ Power T r.Matches (lo + n) before s after
  | group _ r, before, s, after => r.Matches before s after

/-- **A place of a text that an expression matches**: `s` after `pre` and before `post`. -/
def MatchesAt (r : Regex) (pre s post : List Char) : Prop :=
  r.Matches T ignoreCase (wordLast T pre false) s (wordNext T post false)

/-- An expression is found in a text. -/
def FoundIn (r : Regex) (t : List Char) : Prop :=
  ∃ pre s post, t = pre ++ s ++ post ∧ r.MatchesAt T ignoreCase pre s post

/-! ## Search -/

/-- A place in a text: whether a word character came last, and what is left. -/
abbrev Place := Bool × List Char

/-- The places after exactly `n` steps. -/
def times (step : Place → List Place) : ℕ → Place → List Place
  | 0, p => [p]
  | n + 1, p => (step p).flatMap (times step n)

/-- The places after at most `n` steps. -/
def upTo (step : Place → List Place) : ℕ → Place → List Place
  | 0, p => [p]
  | n + 1, p => p :: (step p).flatMap (upTo step n)

/-- **The places up to which an expression matches.** A repetition without a bound need not
be tried more often than there are characters left. -/
def rests : Regex → Place → List Place
  | empty, p => [p]
  | boundary, p => if p.1 = wordNext T p.2 false then [] else [p]
  | char _, (_, []) => []
  | char set, (_, c :: rest) => if accepts T ignoreCase c set then [(T.isWord c, rest)] else []
  | seq r q, p => (r.rests p).flatMap q.rests
  | alt r q, p => r.rests p ++ q.rests p
  | rep r lo hi _, p =>
    (times r.rests lo p).flatMap (upTo r.rests (hi.elim p.2.length (fun h => h - lo)))
  | group _ r, p => r.rests p

/-- The places of a text. -/
def places : Bool → List Char → List Place
  | before, [] => [(before, [])]
  | before, c :: rest => (before, c :: rest) :: places (T.isWord c) rest

/-- **`search`**: the expression is found in the text. -/
def search (r : Regex) (t : List Char) : Bool :=
  (places T false t).any (fun p => !(r.rests T ignoreCase p).isEmpty)

end Tables

/-! ## The matcher decides the relation -/

section Lemmas

variable {T : CharTables} {ignoreCase : Bool}

theorem wordNext_append (u v : List Char) (after : Bool) :
    wordNext T (u ++ v) after = wordNext T u (wordNext T v after) := by
  cases u <;> rfl

theorem wordLast_append (u v : List Char) (before : Bool) :
    wordLast T (u ++ v) before = wordLast T v (wordLast T u before) := by
  rcases List.eq_nil_or_concat v with rfl | ⟨w, c, rfl⟩
  · rw [List.append_nil]
    rfl
  · unfold wordLast
    rw [List.concat_eq_append, ← List.append_assoc, List.getLast?_concat, List.getLast?_concat]
    rfl

/-- A text leads from one place to another. -/
def Leads (T : CharTables) (p : Place) (s : List Char) (q : Place) : Prop :=
  p.2 = s ++ q.2 ∧ q.1 = wordLast T s p.1

theorem Leads.append {p q m : Place} {u v : List Char} (h : Leads T p u m) (h' : Leads T m v q) :
    Leads T p (u ++ v) q :=
  ⟨by rw [h.1, h'.1, List.append_assoc], by rw [h'.2, h.2, wordLast_append]⟩

/-- A text in two parts leads to a place between them. -/
theorem Leads.split {p q : Place} {u v : List Char} (h : Leads T p (u ++ v) q) :
    ∃ m, Leads T p u m ∧ Leads T m v q :=
  ⟨(wordLast T u p.1, v ++ q.2), ⟨by rw [h.1, List.append_assoc], rfl⟩,
    rfl, by rw [h.2, wordLast_append]⟩

theorem leads_nil {p q : Place} : Leads T p [] q ↔ q = p := by
  constructor
  · rintro ⟨hrest, hbefore⟩
    exact Prod.ext hbefore hrest.symm
  · rintro rfl
    exact ⟨rfl, rfl⟩

/-- **Steps that match**: a step is taken for every text that `M` accepts, and no other. -/
def Follows (T : CharTables) (step : Place → List Place) (M : Bool → List Char → Bool → Prop) :
    Prop :=
  ∀ p q, q ∈ step p ↔ ∃ s, Leads T p s q ∧ M p.1 s (wordNext T q.2 false)

variable {step : Place → List Place} {M : Bool → List Char → Bool → Prop}

/-- Two steps one after the other. -/
theorem Follows.flatMap {step' : Place → List Place} {M' : Bool → List Char → Bool → Prop}
    (h : Follows T step M) (h' : Follows T step' M') :
    Follows T (fun p => (step p).flatMap step') (fun before s after => ∃ u v, s = u ++ v
      ∧ M before u (wordNext T v after) ∧ M' (wordLast T u before) v after) := by
  intro p q
  rw [List.mem_flatMap]
  constructor
  · rintro ⟨m, hm, hq⟩
    obtain ⟨u, hu, hM⟩ := (h p m).mp hm
    obtain ⟨v, hv, hM'⟩ := (h' m q).mp hq
    refine ⟨u ++ v, hu.append hv, u, v, rfl, ?_, hu.2 ▸ hM'⟩
    rwa [hv.1, wordNext_append] at hM
  · rintro ⟨-, hs, u, v, rfl, hM, hM'⟩
    obtain ⟨m, hu, hv⟩ := hs.split
    refine ⟨m, (h p m).mpr ⟨u, hu, ?_⟩, (h' m q).mpr ⟨v, hv, hu.2 ▸ hM'⟩⟩
    rwa [hv.1, wordNext_append]

theorem Follows.times (h : Follows T step M) (n : ℕ) : Follows T (times step n) (Power T M n) := by
  induction n with
  | zero =>
    intro p q
    rw [Regex.times, List.mem_singleton]
    constructor
    · rintro rfl
      exact ⟨[], leads_nil.mpr rfl, rfl⟩
    · rintro ⟨s, hs, rfl⟩
      exact leads_nil.mp hs
  | succ n ih => exact h.flatMap ih

theorem mem_upTo {n : ℕ} {p q : Place} : q ∈ upTo step n p ↔ ∃ m ≤ n, q ∈ times step m p := by
  induction n generalizing p with
  | zero =>
    rw [upTo]
    constructor
    · exact fun h => ⟨0, Nat.le_refl 0, h⟩
    · rintro ⟨m, hm, h⟩
      rwa [Nat.le_zero.mp hm] at h
  | succ n ih =>
    rw [upTo, List.mem_cons, List.mem_flatMap]
    constructor
    · rintro (rfl | ⟨k, hk, hq⟩)
      · exact ⟨0, Nat.zero_le _, List.mem_singleton_self q⟩
      · obtain ⟨m, hm, hmem⟩ := ih.mp hq
        exact ⟨m + 1, Nat.succ_le_succ hm, List.mem_flatMap.mpr ⟨k, hk, hmem⟩⟩
    · rintro ⟨m, hm, hmem⟩
      cases m with
      | zero => exact .inl (List.mem_singleton.mp hmem)
      | succ m =>
        obtain ⟨k, hk, hq⟩ := List.mem_flatMap.mp hmem
        exact .inr ⟨k, hk, ih.mpr ⟨m, Nat.le_of_succ_le_succ hm, hq⟩⟩

theorem mem_times_add {m n : ℕ} {p q : Place} :
    q ∈ times step (m + n) p ↔ ∃ k ∈ times step m p, q ∈ times step n k := by
  induction m generalizing p with
  | zero => simp [times]
  | succ m ih =>
    rw [Nat.succ_add, times, times, List.mem_flatMap]
    simp only [ih, List.mem_flatMap]
    constructor
    · rintro ⟨a, ha, k, hk, hq⟩
      exact ⟨k, ⟨a, ha, hk⟩, hq⟩
    · rintro ⟨k, ⟨a, ha, hk⟩, hq⟩
      exact ⟨a, ha, k, hk, hq⟩

/-- **Steps that stand still can be left out**: no more are needed than characters are
left. -/
theorem Follows.shorten (h : Follows T step M) {n : ℕ} {p q : Place} (hq : q ∈ Regex.times step n p) :
    ∃ m ≤ p.2.length, q ∈ Regex.times step m p := by
  induction n generalizing p with
  | zero => exact ⟨0, Nat.zero_le _, hq⟩
  | succ n ih =>
    obtain ⟨k, hk, hrest⟩ := List.mem_flatMap.mp hq
    obtain ⟨m, hm, hmem⟩ := ih hrest
    obtain ⟨s, hs, -⟩ := (h p k).mp hk
    cases s with
    | nil =>
      obtain rfl := leads_nil.mp hs
      exact ⟨m, hm, hmem⟩
    | cons c s =>
      refine ⟨m + 1, ?_, List.mem_flatMap.mpr ⟨k, hk, hmem⟩⟩
      rw [hs.1]
      simp only [List.cons_append, List.length_cons, List.length_append]
      omega

/-- **The matcher follows the relation.** -/
theorem follows_rests (r : Regex) :
    Follows T (r.rests T ignoreCase) (r.Matches T ignoreCase) := by
  induction r with
  | empty =>
    intro p q
    rw [rests, List.mem_singleton]
    constructor
    · rintro rfl
      exact ⟨[], leads_nil.mpr rfl, rfl⟩
    · rintro ⟨s, hs, rfl⟩
      exact leads_nil.mp hs
  | boundary =>
    intro p q
    rw [rests]
    constructor
    · intro hq
      split_ifs at hq with hb
      · cases hq
      · obtain rfl := List.mem_singleton.mp hq
        exact ⟨[], leads_nil.mpr rfl, rfl, hb⟩
    · rintro ⟨s, hs, rfl, hb⟩
      obtain rfl := leads_nil.mp hs
      rw [if_neg hb]
      exact List.mem_singleton_self q
  | char set =>
    rintro ⟨before, rest⟩ q
    cases rest with
    | nil =>
      constructor
      · intro hq
        cases hq
      · rintro ⟨-, ⟨hrest, -⟩, c, rfl, -⟩
        cases hrest
    | cons c rest =>
      rw [rests]
      constructor
      · intro hq
        split_ifs at hq with hc
        · obtain rfl := List.mem_singleton.mp hq
          exact ⟨[c], ⟨rfl, rfl⟩, c, rfl, hc⟩
        · cases hq
      · rintro ⟨-, ⟨hrest, hbefore⟩, d, rfl, hd⟩
        obtain ⟨rfl, htail⟩ := List.cons.inj hrest
        rw [if_pos hd]
        exact List.mem_singleton.mpr (Prod.ext hbefore htail.symm)
  | seq r q ihr ihq => exact ihr.flatMap ihq
  | alt r q ihr ihq =>
    intro p m
    rw [rests, List.mem_append, ihr p m, ihq p m]
    constructor
    · rintro (⟨s, hs, hM⟩ | ⟨s, hs, hM⟩)
      · exact ⟨s, hs, .inl hM⟩
      · exact ⟨s, hs, .inr hM⟩
    · rintro ⟨s, hs, hM | hM⟩
      · exact .inl ⟨s, hs, hM⟩
      · exact .inr ⟨s, hs, hM⟩
  | rep r lo hi isLazy ih =>
    intro p q
    -- Both sides count the steps after the first `lo`.
    have hsteps : q ∈ (rep r lo hi isLazy).rests T ignoreCase p
        ↔ ∃ n, (∀ h ∈ hi, n ≤ h - lo) ∧ q ∈ times (r.rests T ignoreCase) (lo + n) p := by
      rw [rests, List.mem_flatMap]
      simp only [mem_upTo, mem_times_add]
      constructor
      · rintro ⟨k, hk, m, hm, hq⟩
        refine ⟨m, fun h hh => ?_, k, hk, hq⟩
        obtain rfl := Option.mem_def.mp hh
        exact hm
      · rintro ⟨n, hn, k, hk, hq⟩
        cases hi with
        | some h => exact ⟨k, hk, n, hn h rfl, hq⟩
        | none =>
          obtain ⟨m, hm, hmem⟩ := ih.shorten hq
          obtain ⟨s, hs, -⟩ := ((ih.times lo) p k).mp hk
          have hle : k.2.length ≤ p.2.length := by
            rw [hs.1, List.length_append]
            exact Nat.le_add_left _ _
          exact ⟨k, hk, m, Nat.le_trans hm hle, hmem⟩
    rw [hsteps]
    constructor
    · rintro ⟨n, hn, hq⟩
      obtain ⟨s, hs, hM⟩ := ((ih.times (lo + n)) p q).mp hq
      exact ⟨s, hs, n, hn, hM⟩
    · rintro ⟨s, hs, n, hn, hM⟩
      exact ⟨n, hn, ((ih.times (lo + n)) p q).mpr ⟨s, hs, hM⟩⟩
  | group captures r ih => exact ih

theorem mem_places {before : Bool} {t : List Char} {p : Place} :
    p ∈ places T before t ↔ ∃ pre, Leads T (before, t) pre p := by
  induction t generalizing before with
  | nil =>
    rw [places, List.mem_singleton]
    constructor
    · rintro rfl
      exact ⟨[], leads_nil.mpr rfl⟩
    · rintro ⟨pre, hpre⟩
      obtain ⟨rfl, -⟩ := List.append_eq_nil_iff.mp hpre.1.symm
      exact leads_nil.mp hpre
  | cons c t ih =>
    rw [places, List.mem_cons, ih]
    have hfirst : Leads T (before, c :: t) [c] (T.isWord c, t) := ⟨rfl, rfl⟩
    constructor
    · rintro (rfl | ⟨pre, hpre⟩)
      · exact ⟨[], leads_nil.mpr rfl⟩
      · exact ⟨[c] ++ pre, hfirst.append hpre⟩
    · rintro ⟨pre, hpre⟩
      cases pre with
      | nil => exact .inl (leads_nil.mp hpre)
      | cons d pre =>
        obtain ⟨m, hm, hp⟩ := Leads.split (show Leads T _ ([d] ++ pre) p from hpre)
        obtain ⟨rfl, hrest⟩ := List.cons.inj hm.1
        obtain rfl : m = (T.isWord c, t) := Prod.ext hm.2 hrest.symm
        exact .inr ⟨pre, hp⟩

/-- A match is a place that the matcher reaches. -/
theorem matchesAt_iff {r : Regex} {pre s post : List Char} :
    r.MatchesAt T ignoreCase pre s post
      ↔ (wordLast T s (wordLast T pre false), post)
        ∈ r.rests T ignoreCase (wordLast T pre false, s ++ post) := by
  rw [follows_rests r]
  constructor
  · exact fun hM => ⟨s, ⟨rfl, rfl⟩, hM⟩
  · rintro ⟨u, ⟨hrest, -⟩, hM⟩
    obtain rfl := List.append_cancel_right hrest
    exact hM

instance (r : Regex) (pre s post : List Char) : Decidable (r.MatchesAt T ignoreCase pre s post) :=
  decidable_of_iff _ matchesAt_iff.symm

/-- **`search` finds an expression exactly when it matches somewhere.** -/
theorem search_iff {r : Regex} {t : List Char} :
    r.search T ignoreCase t = true ↔ r.FoundIn T ignoreCase t := by
  unfold search
  rw [List.any_eq_true]
  constructor
  · rintro ⟨p, hp, hsome⟩
    obtain ⟨pre, hpre, hbefore⟩ := mem_places.mp hp
    obtain ⟨q, hq⟩ : ∃ q, q ∈ r.rests T ignoreCase p := by
      refine List.exists_mem_of_ne_nil _ (fun hnil => ?_)
      rw [hnil] at hsome
      cases hsome
    obtain ⟨s, hs, hM⟩ := (follows_rests r p q).mp hq
    refine ⟨pre, s, q.2, ?_, ?_⟩
    · rw [List.append_assoc, ← hs.1]
      exact hpre
    · rw [hbefore] at hM
      exact hM
  · rintro ⟨pre, s, post, rfl, hM⟩
    have hp : Leads T (false, pre ++ s ++ post) pre (wordLast T pre false, s ++ post) :=
      ⟨List.append_assoc _ _ _, rfl⟩
    refine ⟨_, mem_places.mpr ⟨pre, hp⟩, ?_⟩
    rw [Bool.not_eq_true', List.isEmpty_eq_false_iff]
    exact List.ne_nil_of_mem (matchesAt_iff.mp hM)

/-- **A match is carried over** to a text in which it stands between characters of the same
kinds. -/
theorem FoundIn.of_context {r : Regex} {pre s post pre' post' : List Char}
    (h : r.MatchesAt T ignoreCase pre s post)
    (hpre : wordLast T pre' false = wordLast T pre false)
    (hpost : wordNext T post' false = wordNext T post false) :
    r.FoundIn T ignoreCase (pre' ++ s ++ post') := by
  refine ⟨pre', s, post', rfl, ?_⟩
  unfold MatchesAt
  rw [hpre, hpost]
  exact h

end Lemmas

/-! ## Expressions that do not look around -/

/-- The expression asks for a word boundary. -/
def looksAround : Regex → Bool
  | empty | char _ => false
  | boundary => true
  | seq r q | alt r q => r.looksAround || q.looksAround
  | rep r _ _ _ | group _ r => r.looksAround

section LooksAround

variable {T : CharTables} {ignoreCase : Bool}

theorem Power.of_context {M : Bool → List Char → Bool → Prop}
    (hM : ∀ b s a b' a', M b s a → M b' s a') {n : ℕ} {s : List Char} {b a b' a' : Bool}
    (h : Power T M n b s a) : Power T M n b' s a' := by
  induction n generalizing s b b' with
  | zero => exact h
  | succ n ih =>
    obtain ⟨u, v, rfl, hu, hv⟩ := h
    exact ⟨u, v, rfl, hM _ _ _ _ _ hu, ih hv⟩

/-- **Without word boundaries the context does not matter.** -/
theorem Matches.of_not_looksAround {r : Regex} (hr : r.looksAround = false) {s : List Char}
    {b a b' a' : Bool} (h : r.Matches T ignoreCase b s a) : r.Matches T ignoreCase b' s a' := by
  induction r generalizing s b a b' a' with
  | empty => exact h
  | boundary => cases hr
  | char set => exact h
  | seq r q ihr ihq =>
    obtain ⟨hr₁, hr₂⟩ := Bool.or_eq_false_iff.mp hr
    obtain ⟨u, v, rfl, hu, hv⟩ := h
    exact ⟨u, v, rfl, ihr hr₁ hu, ihq hr₂ hv⟩
  | alt r q ihr ihq =>
    obtain ⟨hr₁, hr₂⟩ := Bool.or_eq_false_iff.mp hr
    rcases h with h | h
    · exact .inl (ihr hr₁ h)
    · exact .inr (ihq hr₂ h)
  | rep r lo hi isLazy ih =>
    obtain ⟨n, hn, hpower⟩ := h
    have hM : ∀ b s a b' a', r.Matches T ignoreCase b s a → r.Matches T ignoreCase b' s a' :=
      fun _ _ _ _ _ hM => ih hr hM
    exact ⟨n, hn, Power.of_context hM hpower⟩
  | group captures r ih => exact ih hr h

end LooksAround

end Regex
