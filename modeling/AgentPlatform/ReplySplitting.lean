import AgentPlatform.AdaptiveReply

/-!
# A reply is cut without loss

What `split_reply_text` may drop is white space at a cut: the piece is stripped on
its right, what remains on its left. Everything else is kept, whatever boundary
was found, and so the pieces read one after the other show the same text.

The loop is stated a second time as a relation without turns (`CutsInto`), so that
the turns given to `splitPieces` are seen to be enough: the loop ends.
-/

namespace Text

/-- What a reader sees of a text: its characters that are not white space. -/
def visible (value : Text) : Text := value.filter (fun c => !isSpace c)

@[simp]
theorem visible_append (a b : Text) : visible (a ++ b) = visible a ++ visible b :=
  List.filter_append ..

theorem visible_eq_nil {value : Text} (h : ∀ c ∈ value, isSpace c = true) : visible value = [] := by
  refine List.filter_eq_nil_iff.mpr (fun c hc => ?_)
  rw [h c hc]
  decide

/-- Stripping on the right loses white space only. -/
@[simp]
theorem visible_rstrip (value : Text) : visible (rstrip value) = visible value := by
  have hblank : visible (value.rtakeWhile isSpace) = [] :=
    visible_eq_nil (fun _ hc => List.mem_rtakeWhile_imp hc)
  calc visible (rstrip value)
      = visible (rstrip value) ++ visible (value.rtakeWhile isSpace) := by
        rw [hblank, List.append_nil]
    _ = visible (value.rdropWhile isSpace ++ value.rtakeWhile isSpace) :=
        (visible_append _ _).symm
    _ = visible value := by rw [List.rdropWhile_append_rtakeWhile]

/-- And so does stripping blanks on the left. -/
@[simp]
theorem visible_lstripBlanks (value : Text) : visible (lstripBlanks value) = visible value := by
  unfold lstripBlanks
  have hblank : visible (value.takeWhile (fun c => c = ' ' || c = '\n')) = [] := by
    refine visible_eq_nil (fun c hc => ?_)
    have hor := List.mem_takeWhile_imp hc
    rw [Bool.or_eq_true, decide_eq_true_iff, decide_eq_true_iff] at hor
    rcases hor with rfl | rfl <;> decide
  conv_rhs => rw [← List.takeWhile_append_dropWhile
    (p := fun c => decide (c = ' ') || decide (c = '\n')) (l := value)]
  rw [visible_append, hblank, List.nil_append]

end Text

/-- **A turn of the loop loses nothing.** -/
theorem visible_cutPiece (maxChars : ℕ) (remaining : Text) :
    Text.visible (cutPiece maxChars remaining).1 ++ Text.visible (cutPiece maxChars remaining).2
      = Text.visible remaining := by
  have hcut : ∀ n, Text.visible (remaining.take n) ++ Text.visible (remaining.drop n)
      = Text.visible remaining := by
    intro n
    rw [← Text.visible_append, List.take_append_drop]
  unfold cutPiece
  dsimp only
  generalize (if markdownBoundary remaining maxChars ≤ 0 then maxChars
    else markdownBoundary remaining maxChars) = boundary
  split
  · rw [Text.visible_lstripBlanks]
    exact hcut maxChars
  · rw [Text.visible_rstrip, Text.visible_lstripBlanks]
    exact hcut _

/-- **The loop of `split_reply_text` run to its end**: the pieces it appends to what
it started with, from a text that remains. -/
inductive CutsInto (maxChars : ℕ) : Text → List Text → Prop
  | ended : CutsInto maxChars [] []
  | last (remaining : Text) (hne : remaining ≠ []) (hshort : remaining.length ≤ maxChars) :
      CutsInto maxChars remaining [remaining]
  | cut (remaining : Text) (pieces : List Text) (hlong : maxChars < remaining.length)
      (hrest : CutsInto maxChars (cutPiece maxChars remaining).2 pieces) :
      CutsInto maxChars remaining ((cutPiece maxChars remaining).1 :: pieces)

namespace CutsInto

variable {maxChars : ℕ} {remaining : Text} {pieces : List Text}

/-- The loop has one outcome. -/
theorem unique (h : CutsInto maxChars remaining pieces) {pieces' : List Text}
    (h' : CutsInto maxChars remaining pieces') : pieces' = pieces := by
  induction h generalizing pieces' with
  | ended =>
    cases h' with
    | ended => rfl
    | last _ hne _ => exact absurd rfl hne
    | cut _ _ hlong _ => exact absurd hlong (Nat.not_lt_zero _)
  | last remaining hne hshort =>
    cases h' with
    | ended => exact absurd rfl hne
    | last _ _ _ => rfl
    | cut _ _ hlong _ => exact absurd hlong (Nat.not_lt.mpr hshort)
  | cut remaining pieces hlong _ ih =>
    cases h' with
    | ended => exact absurd hlong (Nat.not_lt_zero _)
    | last _ _ hshort => exact absurd hlong (Nat.not_lt.mpr hshort)
    | cut _ pieces' _ hrest' => rw [ih hrest']

/-- **What is appended shows what remained.** -/
theorem visible_flatten (h : CutsInto maxChars remaining pieces) :
    Text.visible pieces.flatten = Text.visible remaining := by
  induction h with
  | ended => rfl
  | last remaining _ _ => rw [List.flatten_cons, List.flatten_nil, List.append_nil]
  | cut remaining pieces _ _ ih =>
    rw [List.flatten_cons, Text.visible_append, ih]
    exact visible_cutPiece maxChars remaining

end CutsInto

/-- **Enough turns run the loop to its end**, since every turn shortens the text. -/
theorem cutsInto_splitPieces {maxChars : ℕ} (hmax : 1 ≤ maxChars) (turns : ℕ) :
    ∀ remaining : Text, remaining.length ≤ turns →
      CutsInto maxChars remaining (splitPieces maxChars turns remaining) := by
  induction turns with
  | zero =>
    intro remaining hlen
    have hnil : remaining = [] := List.length_eq_zero_iff.mp (Nat.le_zero.mp hlen)
    subst hnil
    exact .ended
  | succ turns ih =>
    intro remaining hlen
    unfold splitPieces
    by_cases hlong : maxChars < remaining.length
    · rw [if_pos hlong]
      have hshorter := (cutPiece_spec hmax hlong).2.2
      exact .cut _ _ hlong (ih _ (by omega))
    · rw [if_neg hlong]
      cases remaining with
      | nil => exact .ended
      | cons c rest => exact .last _ (List.cons_ne_nil _ _) (Nat.not_lt.mp hlong)

/-- **`split_reply_text` ends, with pieces that fit and that show the whole content.**
The pieces are those of the loop run to its end, and no other run of it exists. -/
theorem splitReplyText_lossless (content : Text) {maxChars : ℕ} (hmax : 1 ≤ maxChars) :
    let clean := content.filter (fun c => c.toNat ≠ 0)
    splitReplyText content maxChars ≠ []
      ∧ (∀ piece ∈ splitReplyText content maxChars, piece ≠ [] ∧ piece.length ≤ maxChars)
      ∧ (clean = [] → splitReplyText content maxChars = [['…']])
      ∧ (clean ≠ [] →
          (∀ pieces, CutsInto maxChars clean pieces ↔ pieces = splitReplyText content maxChars)
            ∧ Text.visible (splitReplyText content maxChars).flatten = Text.visible clean) := by
  intro clean
  refine ⟨splitReplyText_ne_nil content maxChars, splitReplyText_fits content hmax, ?_, ?_⟩
  · intro hnil
    unfold splitReplyText
    exact if_pos (List.isEmpty_iff.mpr hnil)
  · intro hne
    have hpieces : splitReplyText content maxChars = splitPieces maxChars clean.length clean := by
      unfold splitReplyText
      exact if_neg (fun h => hne (List.isEmpty_iff.mp h))
    have hends : CutsInto maxChars clean (splitReplyText content maxChars) := by
      rw [hpieces]
      exact cutsInto_splitPieces hmax _ _ (Nat.le_refl _)
    refine ⟨fun pieces => ⟨fun h => hends.unique h, ?_⟩, hends.visible_flatten⟩
    rintro rfl
    exact hends

/-- Two words, the blank between them dropped. -/
theorem splitReplyText_lossless_words :
    splitReplyText ['a', 'b', ' ', 'c'] 3 = [['a', 'b'], ['c']]
      ∧ Text.visible (splitReplyText ['a', 'b', ' ', 'c'] 3).flatten = ['a', 'b', 'c'] := by
  have hspec := splitReplyText_lossless ['a', 'b', ' ', 'c'] (show 1 ≤ 3 by decide)
  refine ⟨by decide, ?_⟩
  exact (hspec.2.2.2 (by decide)).2
