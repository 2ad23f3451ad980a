import Mathlib.Algebra.GroupWithZero.Nat
import AgentPlatform.ReplySplitting

/-!
# Fences across the cuts of a reply

`_markdown_boundary` looks for a cut before which every fence and every link
bracket is closed, since no piece of a reply must leave a fenced block open.
Brackets are nested from the left, so what is closed before a cut says the same
of what remains. Fences are counted as disjoint runs of three backticks: a cut
inside such a run takes a fence away from the two parts. Only the hard limit
cuts there, and it does so without counting what remains.

`splitReplyText_balanced_iff` says what is left of the balance: every piece is
balanced if and only if an even number of fences remains once those severed by a
cut are counted again, and no piece was taken whole because the text before its
boundary was blank.
-/

namespace Text

/-! ## Runs of backticks -/

/-- The fences of a text that follows `open` backticks of an unfinished one. -/
def fencesAfter : ℕ → Text → ℕ
  | _, [] => 0
  | run, c :: rest =>
    if c = '\x60' then
      if run = 2 then fencesAfter 0 rest + 1 else fencesAfter (run + 1) rest
    else fencesAfter 0 rest

/-- The backticks of an unfinished fence at the end of a text. -/
def runAfter : ℕ → Text → ℕ
  | run, [] => run
  | run, c :: rest =>
    if c = '\x60' then runAfter (if run = 2 then 0 else run + 1) rest else runAfter 0 rest

theorem countFences_cons {c : Char} {rest : Text}
    (h : ∀ tail, c :: rest ≠ '\x60' :: '\x60' :: '\x60' :: tail) :
    countFences (c :: rest) = countFences rest := by
  rw [countFences]
  rintro tail rfl rfl
  exact h tail rfl

/-- **Counting fences is reading runs.** -/
theorem fencesAfter_eq (value : Text) :
    fencesAfter 0 value = countFences value
      ∧ fencesAfter 1 value = countFences ('\x60' :: value)
      ∧ fencesAfter 2 value = countFences ('\x60' :: '\x60' :: value) := by
  induction value with
  | nil => decide
  | cons c rest ih =>
    obtain ⟨hzero, hone, htwo⟩ := ih
    by_cases hc : c = '\x60'
    · subst hc
      refine ⟨?_, ?_, ?_⟩
      · simpa [fencesAfter] using hone
      · simpa [fencesAfter] using htwo
      · simp [fencesAfter, countFences, hzero]
    · have hother : countFences (c :: rest) = countFences rest :=
        countFences_cons (fun tail h => hc (List.cons.inj h).1)
      have hother1 : countFences ('\x60' :: c :: rest) = countFences rest := by
        rw [countFences_cons (fun tail h => hc (List.cons.inj (List.cons.inj h).2).1), hother]
      have hother2 : countFences ('\x60' :: '\x60' :: c :: rest) = countFences rest := by
        rw [countFences_cons
          (fun tail h => hc (List.cons.inj (List.cons.inj (List.cons.inj h).2).2).1), hother1]
      simp [fencesAfter, hc, hzero, hother, hother1, hother2]

theorem fencesAfter_append (run : ℕ) (front rest : Text) :
    fencesAfter run (front ++ rest)
      = fencesAfter run front + fencesAfter (runAfter run front) rest := by
  induction front generalizing run with
  | nil => simp [fencesAfter, runAfter]
  | cons c front ih =>
    rw [List.cons_append]
    simp only [fencesAfter, runAfter]
    split
    · split
      · rw [ih]
        omega
      · rw [ih]
    · rw [ih]

theorem runAfter_le {run : ℕ} (h : run ≤ 2) (value : Text) : runAfter run value ≤ 2 := by
  induction value generalizing run with
  | nil => exact h
  | cons c rest ih =>
    rw [runAfter]
    split
    · exact ih (by split <;> omega)
    · exact ih (by omega)

/-- An unfinished fence is worth at most one. -/
theorem fencesAfter_mono (value : Text) :
    fencesAfter 0 value ≤ fencesAfter 1 value ∧ fencesAfter 1 value ≤ fencesAfter 2 value
      ∧ fencesAfter 2 value ≤ fencesAfter 0 value + 1 := by
  induction value with
  | nil => decide
  | cons c rest ih =>
    simp only [fencesAfter]
    split
    · exact ⟨ih.2.1, ih.2.2, Nat.succ_le_succ ih.1⟩
    · exact ⟨Nat.le_refl _, Nat.le_refl _, Nat.le_succ _⟩

/-- **The fences a cut takes away.** -/
def severed (value : Text) (n : ℕ) : ℕ :=
  countFences value - (countFences (value.take n) + countFences (value.drop n))

/-- A cut takes away one fence at most, and leaves the others. -/
theorem countFences_cut (value : Text) (n : ℕ) :
    countFences value
        = countFences (value.take n) + countFences (value.drop n) + severed value n
      ∧ severed value n ≤ 1 := by
  have hwhole := fencesAfter_append 0 (value.take n) (value.drop n)
  rw [List.take_append_drop] at hwhole
  have hrun := runAfter_le (Nat.zero_le 2) (value.take n)
  obtain ⟨hone, htwo, hzero⟩ := fencesAfter_mono (value.drop n)
  rw [(fencesAfter_eq value).1, (fencesAfter_eq (value.take n)).1] at hwhole
  rw [(fencesAfter_eq (value.drop n)).1] at hone hzero
  unfold severed
  generalize runAfter 0 (value.take n) = run at hwhole hrun
  obtain rfl | rfl | rfl : run = 0 ∨ run = 1 ∨ run = 2 := by omega
  · rw [(fencesAfter_eq (value.drop n)).1] at hwhole
    omega
  · omega
  · omega

/-! ## White space -/

/-- A text that opens and closes nothing. -/
def Inert (value : Text) : Prop := ∀ c ∈ value, c ≠ '\x60' ∧ c ≠ '[' ∧ c ≠ ']'

theorem inert_of_isSpace {value : Text} (h : ∀ c ∈ value, isSpace c = true) : Inert value := by
  intro c hc
  have hspace := h c hc
  refine ⟨?_, ?_, ?_⟩ <;> rintro rfl <;> revert hspace <;> decide

theorem Inert.fencesAfter {value : Text} (h : Inert value) (run : ℕ) :
    Text.fencesAfter run value = 0 := by
  induction value generalizing run with
  | nil => rfl
  | cons c rest ih =>
    obtain ⟨hc, hrest⟩ := List.forall_mem_cons.mp h
    rw [Text.fencesAfter, if_neg hc.1]
    exact ih hrest 0

theorem Inert.runAfter {value : Text} (h : Inert value) : Text.runAfter 0 value = 0 := by
  induction value with
  | nil => rfl
  | cons c rest ih =>
    obtain ⟨hc, hrest⟩ := List.forall_mem_cons.mp h
    rw [Text.runAfter, if_neg hc.1]
    exact ih hrest

theorem Inert.countFences_append {value : Text} (h : Inert value) (rest : Text) :
    countFences (value ++ rest) = countFences rest := by
  rw [← (fencesAfter_eq (value ++ rest)).1, fencesAfter_append, h.fencesAfter, h.runAfter,
    Nat.zero_add, (fencesAfter_eq rest).1]

theorem Inert.append_countFences {value : Text} (h : Inert value) (front : Text) :
    countFences (front ++ value) = countFences front := by
  rw [← (fencesAfter_eq (front ++ value)).1, fencesAfter_append, h.fencesAfter,
    Nat.add_zero, (fencesAfter_eq front).1]

/-- The link brackets open after a text that follows `n` open ones. -/
def brackets (n : ℕ) (value : Text) : ℕ :=
  value.foldl (fun n c => if c = '[' then n + 1 else if c = ']' then n - 1 else n) n

theorem Inert.brackets {value : Text} (h : Inert value) (n : ℕ) : Text.brackets n value = n := by
  induction value with
  | nil => rfl
  | cons c rest ih =>
    obtain ⟨hc, hrest⟩ := List.forall_mem_cons.mp h
    rw [Text.brackets, List.foldl_cons, if_neg hc.2.1, if_neg hc.2.2]
    exact ih hrest

/-- Dropping NULs touches no bracket. -/
theorem brackets_filter (n : ℕ) (value : Text) :
    brackets n (value.filter (fun c => c.toNat ≠ 0)) = brackets n value := by
  induction value generalizing n with
  | nil => rfl
  | cons c rest ih =>
    by_cases hc : c.toNat = 0
    · have hopen : c ≠ '[' := by
        rintro rfl
        exact absurd hc (by decide)
      have hclose : c ≠ ']' := by
        rintro rfl
        exact absurd hc (by decide)
      rw [List.filter_cons_of_neg (by simpa using hc), ih n]
      simp only [brackets, List.foldl_cons, if_neg hopen, if_neg hclose]
    · rw [List.filter_cons_of_pos (by simpa using hc)]
      exact ih _

theorem markdownState_eq (value : Text) :
    markdownState value = (countFences value % 2, brackets 0 value) := rfl

/-- Stripping on the right keeps the state. -/
theorem markdownState_rstrip (value : Text) :
    markdownState (rstrip value) = markdownState value := by
  have hinert : Inert (value.rtakeWhile isSpace) :=
    inert_of_isSpace (fun _ hc => List.mem_rtakeWhile_imp hc)
  have hsplit : rstrip value ++ value.rtakeWhile isSpace = value :=
    List.rdropWhile_append_rtakeWhile
  conv_rhs => rw [← hsplit]
  rw [markdownState_eq, markdownState_eq, hinert.append_countFences, brackets, brackets,
    List.foldl_append]
  exact congrArg _ (hinert.brackets _).symm

/-- And so does stripping blanks on the left. -/
theorem markdownState_lstripBlanks (value : Text) :
    markdownState (lstripBlanks value) = markdownState value := by
  have hinert : Inert (value.takeWhile (fun c => c = ' ' || c = '\n')) := by
    refine inert_of_isSpace (fun c hc => ?_)
    have hor := List.mem_takeWhile_imp hc
    rw [Bool.or_eq_true, decide_eq_true_iff, decide_eq_true_iff] at hor
    rcases hor with rfl | rfl <;> decide
  have hsplit : value.takeWhile (fun c => c = ' ' || c = '\n') ++ lstripBlanks value = value :=
    List.takeWhile_append_dropWhile
  conv_rhs => rw [← hsplit]
  rw [markdownState_eq, markdownState_eq, hinert.countFences_append, brackets, brackets,
    List.foldl_append]
  exact congrArg (fun n => (_, brackets n (lstripBlanks value))) (hinert.brackets 0).symm

end Text

/-! ## The loop -/

/-- What is left of the text before each cut. -/
def windows (maxChars : ℕ) : ℕ → Text → List Text
  | 0, _ => []
  | turns + 1, remaining =>
    if maxChars < remaining.length then
      remaining :: windows maxChars turns (cutPiece maxChars remaining).2
    else []

/-- The text before the boundary is blank. -/
def BlankBefore (maxChars : ℕ) (remaining : Text) : Prop :=
  Text.rstrip (remaining.take (markdownBoundary remaining maxChars)) = []

instance (maxChars : ℕ) (remaining : Text) : Decidable (BlankBefore maxChars remaining) :=
  inferInstanceAs (Decidable (_ = _))

/-- Where the text is cut: a blank piece is replaced by the whole window. -/
def cutAt (maxChars : ℕ) (remaining : Text) : ℕ :=
  if BlankBefore maxChars remaining then maxChars else markdownBoundary remaining maxChars

theorem cutPiece_of_pos {maxChars : ℕ} {remaining : Text}
    (hpos : 0 < markdownBoundary remaining maxChars) :
    cutPiece maxChars remaining
      = (if BlankBefore maxChars remaining then remaining.take maxChars
          else Text.rstrip (remaining.take (markdownBoundary remaining maxChars)),
        Text.lstripBlanks (remaining.drop (cutAt maxChars remaining))) := by
  unfold cutPiece cutAt
  simp only [if_neg (Nat.not_le.mpr hpos), List.isEmpty_iff]
  by_cases hblank : BlankBefore maxChars remaining
  · simp only [if_pos hblank]
    exact if_pos hblank
  · simp only [if_neg hblank]
    exact if_neg hblank

/-- **A boundary that is found leaves nothing open before it.** -/
theorem markdownBoundary_balanced {value : Text} {maximum : ℕ}
    (hpos : 0 < markdownBoundary value maximum) :
    markdownState (value.take (markdownBoundary value maximum)) = (0, 0) := by
  unfold markdownBoundary at hpos ⊢
  dsimp only at hpos ⊢
  split
  · rename_i index hlast
    have hcandidate := (List.mem_filter.mp (List.mem_of_getLast? hlast)).2
    exact of_decide_eq_true (Bool.and_eq_true_iff.mp hcandidate).2
  · rename_i hnone
    simp only [hnone] at hpos
    split
    · assumption
    · rename_i hopen
      rw [if_neg hopen] at hpos
      exact absurd hpos (Nat.lt_irrefl 0)

/-- **A cut behind a balanced text** hands on the brackets of the whole, and its
fences but for the one it may sever. -/
theorem state_after_cut {remaining : Text} {n : ℕ}
    (h : markdownState (remaining.take n) = (0, 0)) :
    (markdownState (Text.lstripBlanks (remaining.drop n))).2 = (markdownState remaining).2
      ∧ Text.countFences remaining % 2
        = (Text.countFences (Text.lstripBlanks (remaining.drop n))
            + Text.severed remaining n) % 2 := by
  obtain ⟨hfences, hbrackets⟩ := Prod.ext_iff.mp h
  have hstate := Prod.ext_iff.mp (Text.markdownState_lstripBlanks (remaining.drop n))
  have hcut := (Text.countFences_cut remaining n).1
  refine ⟨?_, ?_⟩
  · have hwhole : Text.brackets 0 remaining
        = Text.brackets (Text.brackets 0 (remaining.take n)) (remaining.drop n) := by
      conv_lhs => rw [← List.take_append_drop n remaining]
      exact List.foldl_append ..
    rw [hstate.2]
    show Text.brackets 0 (remaining.drop n) = Text.brackets 0 remaining
    rw [hwhole, show Text.brackets 0 (remaining.take n) = 0 from hbrackets]
  · have hleft : Text.countFences (remaining.take n) % 2 = 0 := hfences
    have hright : Text.countFences (Text.lstripBlanks (remaining.drop n)) % 2
        = Text.countFences (remaining.drop n) % 2 := hstate.1
    omega

/-- The fences the cuts of a text take away. -/
def severedFences (maxChars turns : ℕ) (remaining : Text) : ℕ :=
  ((windows maxChars turns remaining).map (fun w => Text.severed w (cutAt maxChars w))).sum

/-- **A turn that takes no open window** cuts behind a balanced text and appends a
balanced piece. -/
theorem cutPiece_balanced {maxChars : ℕ} {remaining : Text}
    (hpos : 0 < markdownBoundary remaining maxChars)
    (hwindow : BlankBefore maxChars remaining →
      markdownState (remaining.take maxChars) = (0, 0)) :
    markdownState (remaining.take (cutAt maxChars remaining)) = (0, 0)
      ∧ markdownState (cutPiece maxChars remaining).1 = (0, 0) := by
  rw [cutPiece_of_pos hpos, cutAt]
  by_cases hblank : BlankBefore maxChars remaining
  · simp only [if_pos hblank]
    exact ⟨hwindow hblank, hwindow hblank⟩
  · simp only [if_neg hblank]
    refine ⟨markdownBoundary_balanced hpos, ?_⟩
    rw [Text.markdownState_rstrip]
    exact markdownBoundary_balanced hpos

theorem splitPieces_balanced_iff (maxChars turns : ℕ) :
    ∀ remaining : Text, remaining.length ≤ turns → (markdownState remaining).2 = 0 →
      (∀ w ∈ windows maxChars turns remaining, 0 < markdownBoundary w maxChars) →
      ((∀ piece ∈ splitPieces maxChars turns remaining, markdownState piece = (0, 0))
        ↔ (∀ w ∈ windows maxChars turns remaining, BlankBefore maxChars w →
            markdownState (w.take maxChars) = (0, 0))
          ∧ (Text.countFences remaining + severedFences maxChars turns remaining) % 2 = 0) := by
  -- by induction on the turns: each hands the balance of what remains to the next
  have hended : ∀ remaining : Text, (markdownState remaining).2 = 0 →
      ((∀ piece ∈ (if remaining.isEmpty then [] else [remaining]), markdownState piece = (0, 0))
        ↔ Text.countFences remaining % 2 = 0) := by
    intro remaining hclosed
    cases remaining with
    | nil => simp [Text.countFences]
    | cons c rest =>
      rw [List.isEmpty_cons, if_neg Bool.false_ne_true, List.forall_mem_singleton, Prod.ext_iff]
      exact and_iff_left hclosed
  induction turns with
  | zero =>
    intro remaining _ hclosed _
    simpa [splitPieces, windows, severedFences] using hended remaining hclosed
  | succ turns ih =>
    intro remaining hlen hclosed hpos
    unfold severedFences
    unfold splitPieces windows
    unfold windows at hpos
    by_cases hlong : maxChars < remaining.length
    · simp only [if_pos hlong] at hpos ⊢
      obtain ⟨hfound, hlater⟩ := List.forall_mem_cons.mp hpos
      rw [List.forall_mem_cons, List.forall_mem_cons, List.map_cons, List.sum_cons]
      by_cases hwindow : BlankBefore maxChars remaining →
          markdownState (remaining.take maxChars) = (0, 0)
      · obtain ⟨hcut, hpiece⟩ := cutPiece_balanced hfound hwindow
        have hmax : 1 ≤ maxChars := by
          have hle := markdownBoundary_le remaining maxChars
          omega
        have hshorter := (cutPiece_spec hmax hlong).2.2
        have hsecond : (cutPiece maxChars remaining).2
            = Text.lstripBlanks (remaining.drop (cutAt maxChars remaining)) := by
          rw [cutPiece_of_pos hfound]
        obtain ⟨hbrackets, hfences⟩ := state_after_cut hcut
        rw [← hsecond] at hbrackets hfences
        have hrest := ih _ (by omega) (hbrackets.trans hclosed) hlater
        rw [hrest]
        unfold severedFences
        constructor
        · rintro ⟨-, hwindows, heven⟩
          exact ⟨⟨hwindow, hwindows⟩, by omega⟩
        · rintro ⟨⟨-, hwindows⟩, heven⟩
          exact ⟨hpiece, hwindows, by omega⟩
      · -- a blank piece is replaced by a window that leaves something open
        refine iff_of_false (fun h => ?_) (fun h => hwindow h.1.1)
        obtain ⟨hblank, hopen⟩ := Classical.not_imp.mp hwindow
        have hpiece := h.1
        rw [cutPiece_of_pos hfound] at hpiece
        simp only [if_pos hblank] at hpiece
        exact hopen hpiece
    · simp only [if_neg hlong]
      simpa using hended remaining hclosed

/-- **When every piece of a reply is balanced.** For a balanced content, and a limit
for which a boundary was found before every cut: if and only if no window that is
blank before its boundary leaves something open, and the fences of the text
without its NULs, with those the cuts sever, are even in number. -/
theorem splitReplyText_balanced_iff (content : Text) (maxChars : ℕ)
    (hbalanced : markdownState content = (0, 0)) :
    let clean := content.filter (fun c => c.toNat ≠ 0)
    (∀ w ∈ windows maxChars clean.length clean, 0 < markdownBoundary w maxChars) →
      ((∀ piece ∈ splitReplyText content maxChars, markdownState piece = (0, 0))
        ↔ (∀ w ∈ windows maxChars clean.length clean, BlankBefore maxChars w →
            markdownState (w.take maxChars) = (0, 0))
          ∧ (Text.countFences clean + severedFences maxChars clean.length clean) % 2 = 0) := by
  intro clean hpos
  have hclosed : (markdownState clean).2 = 0 :=
    (Text.brackets_filter 0 content).trans (Prod.ext_iff.mp hbalanced).2
  unfold splitReplyText
  by_cases hempty : clean.isEmpty
  · have hnil : clean = [] := List.isEmpty_iff.mp hempty
    rw [if_pos hempty, hnil]
    exact iff_of_true (by decide) ⟨fun w hw => absurd hw List.not_mem_nil, rfl⟩
  · rw [if_neg hempty]
    exact splitPieces_balanced_iff maxChars _ clean (Nat.le_refl _) hclosed hpos

/-- Two words, cut at the blank between them. -/
theorem splitReplyText_balanced_iff_words :
    splitReplyText ['a', 'b', ' ', 'c'] 3 = [['a', 'b'], ['c']]
      ∧ ∀ piece ∈ splitReplyText ['a', 'b', ' ', 'c'] 3, markdownState piece = (0, 0) :=
  ⟨by decide, (splitReplyText_balanced_iff ['a', 'b', ' ', 'c'] 3 (by decide) (by decide)).mpr
    ⟨by decide, by decide⟩⟩

/-- Four letters and six backticks, cut inside the second fence. -/
def sixBackticks : Text := List.replicate 4 'a' ++ List.replicate 6 '\x60'

/-- **The hard limit leaves a fence open.** The six backticks are two fences, of
which one remains after the cut. -/
theorem sixBackticks_open :
    markdownState sixBackticks = (0, 0)
      ∧ (∀ w ∈ windows 5 sixBackticks.length sixBackticks, 0 < markdownBoundary w 5)
      ∧ ¬∀ piece ∈ splitReplyText sixBackticks 5, markdownState piece = (0, 0) := by
  decide +kernel
