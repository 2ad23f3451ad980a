import Mathlib.Data.List.DropRight
import AgentPlatform.ExecutionStore

/-!
# Cutting a reply into messages

The embedding of `split_reply_text` of `channels/adaptive_reply.py`: a reply is
cut into messages that fit a channel, at line or word boundaries that leave no
Markdown construct open where there is one. Texts are lists of code points, as
Python's are.
-/

/-- `str`, by its code points. -/
abbrev Text := List Char

namespace Text

/-- `str.isspace` of one character. -/
def isSpace (c : Char) : Bool :=
  let n := c.toNat
  (9 ≤ n && n ≤ 13) || (28 ≤ n && n ≤ 32) || n = 0x85 || n = 0xa0 || n = 0x1680
    || (0x2000 ≤ n && n ≤ 0x200a) || n = 0x2028 || n = 0x2029 || n = 0x202f || n = 0x205f
    || n = 0x3000

/-- `value.rstrip()`. -/
def rstrip (value : Text) : Text := value.rdropWhile isSpace

/-- `value.lstrip(" \n")`. -/
def lstripBlanks (value : Text) : Text := value.dropWhile (fun c => c = ' ' || c = '\n')

/-- `value.count("```")`. -/
def countFences : Text → ℕ
  | '`' :: '`' :: '`' :: rest => countFences rest + 1
  | _ :: rest => countFences rest
  | [] => 0

end Text

/-- **`_markdown_state`**: open fences and link brackets. -/
def markdownState (value : Text) : ℕ × ℕ :=
  (Text.countFences value % 2,
    value.foldl (fun brackets c =>
      if c = '[' then brackets + 1 else if c = ']' then brackets - 1 else brackets) 0)

/-- **`_markdown_boundary`.** -/
def markdownBoundary (value : Text) (maximum : ℕ) : ℕ :=
  let candidates := (List.range' 1 maximum).filter (fun index =>
    (value[index - 1]? = some '\n' || value[index - 1]? = some ' ')
      && markdownState (value.take index) = (0, 0))
  match candidates.getLast? with
  | some index => index
  | none => if markdownState (value.take maximum) = (0, 0) then maximum else 0

/-- One turn of the loop of `split_reply_text`: the piece, and what remains. -/
def cutPiece (maxChars : ℕ) (remaining : Text) : Text × Text :=
  let found := markdownBoundary remaining maxChars
  let boundary := if found ≤ 0 then maxChars else found
  let piece := Text.rstrip (remaining.take boundary)
  if piece.isEmpty then (remaining.take maxChars, Text.lstripBlanks (remaining.drop maxChars))
  else (piece, Text.lstripBlanks (remaining.drop boundary))

/-- The loop of `split_reply_text`. Each turn shortens the text, so that as many
turns as it has characters are enough. -/
def splitPieces (maxChars : ℕ) : ℕ → Text → List Text
  | 0, remaining => if remaining.isEmpty then [] else [remaining]
  | turns + 1, remaining =>
    if maxChars < remaining.length then
      (cutPiece maxChars remaining).1 :: splitPieces maxChars turns (cutPiece maxChars remaining).2
    else if remaining.isEmpty then [] else [remaining]

/-- **`split_reply_text`.** -/
def splitReplyText (content : Text) (maxChars : ℕ) : List Text :=
  let clean := content.filter (fun c => c.toNat ≠ 0)
  if clean.isEmpty then [['…']] else splitPieces maxChars clean.length clean

/-! ## The messages of a plan -/

theorem markdownBoundary_le (value : Text) (maximum : ℕ) :
    markdownBoundary value maximum ≤ maximum := by
  unfold markdownBoundary
  dsimp only
  split
  · rename_i index hlast
    have hmem := (List.mem_filter.mp (List.mem_of_getLast? hlast)).1
    rw [List.mem_range'_1] at hmem
    omega
  · split
    · exact Nat.le_refl _
    · exact Nat.zero_le _

/-- The boundary used is inside the text that fits. -/
theorem cutPiece_spec {maxChars : ℕ} (hmax : 1 ≤ maxChars) {remaining : Text}
    (hlong : maxChars < remaining.length) :
    (cutPiece maxChars remaining).1 ≠ []
      ∧ (cutPiece maxChars remaining).1.length ≤ maxChars
      ∧ (cutPiece maxChars remaining).2.length < remaining.length := by
  have hle := markdownBoundary_le remaining maxChars
  unfold cutPiece
  dsimp only
  generalize hb : (if markdownBoundary remaining maxChars ≤ 0 then maxChars
    else markdownBoundary remaining maxChars) = boundary
  have hpos : 1 ≤ boundary ∧ boundary ≤ maxChars := by
    split at hb <;> omega
  have hrest : ∀ n, 1 ≤ n → (Text.lstripBlanks (remaining.drop n)).length < remaining.length := by
    intro n hn
    have hdrop : (Text.lstripBlanks (remaining.drop n)).length ≤ (remaining.drop n).length :=
      (List.dropWhile_sublist _).length_le
    rw [List.length_drop] at hdrop
    omega
  split
  · refine ⟨?_, ?_, hrest maxChars hmax⟩
    · intro hnil
      have hlen := congrArg List.length hnil
      rw [List.length_take, List.length_nil] at hlen
      omega
    · exact List.length_take_le _ _
  · rename_i hpiece
    refine ⟨fun hnil => hpiece (List.isEmpty_iff.mpr hnil), ?_, hrest boundary hpos.1⟩
    have hstrip : (Text.rstrip (remaining.take boundary)).length
        ≤ (remaining.take boundary).length :=
      (List.rdropWhile_prefix _ _).length_le
    exact (hstrip.trans (List.length_take_le _ _)).trans hpos.2

theorem splitPieces_spec {maxChars : ℕ} (hmax : 1 ≤ maxChars) :
    ∀ (turns : ℕ) (remaining : Text), remaining.length ≤ turns →
      ∀ piece ∈ splitPieces maxChars turns remaining, piece ≠ [] ∧ piece.length ≤ maxChars := by
  intro turns
  induction turns with
  | zero =>
    intro remaining hlen piece hpiece
    have hnil : remaining = [] := List.length_eq_zero_iff.mp (Nat.le_zero.mp hlen)
    rw [hnil] at hpiece
    cases hpiece
  | succ turns ih =>
    intro remaining hlen piece hpiece
    unfold splitPieces at hpiece
    split at hpiece
    · rename_i hlong
      obtain ⟨hne, hfits, hrest⟩ := cutPiece_spec hmax hlong
      rcases List.mem_cons.mp hpiece with rfl | hpiece
      · exact ⟨hne, hfits⟩
      · exact ih _ (by omega) piece hpiece
    · rename_i hshort
      split at hpiece
      · cases hpiece
      · rename_i hne
        rw [List.mem_singleton.mp hpiece]
        exact ⟨fun hnil => hne (by rw [hnil]; rfl), by omega⟩

/-- **Every message says something and fits the channel.** -/
theorem splitReplyText_fits (content : Text) {maxChars : ℕ} (hmax : 1 ≤ maxChars) :
    ∀ piece ∈ splitReplyText content maxChars, piece ≠ [] ∧ piece.length ≤ maxChars := by
  intro piece hpiece
  unfold splitReplyText at hpiece
  dsimp only at hpiece
  split at hpiece
  · rw [List.mem_singleton.mp hpiece]
    exact ⟨by simp, hmax⟩
  · exact splitPieces_spec hmax _ _ (Nat.le_refl _) piece hpiece

/-- **A reply has a message.** -/
theorem splitReplyText_ne_nil (content : Text) (maxChars : ℕ) :
    splitReplyText content maxChars ≠ [] := by
  unfold splitReplyText
  dsimp only
  split
  · simp
  · rename_i hne
    cases hclean : content.filter (fun c => c.toNat ≠ 0) with
    | nil => exact absurd (by rw [hclean]; rfl) hne
    | cons c cs =>
      rw [List.length_cons]
      unfold splitPieces
      split
      · simp
      · simp
