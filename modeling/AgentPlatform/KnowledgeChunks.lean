import Mathlib.Data.List.Chain
import AgentPlatform.AdaptiveReply

/-!
# Cutting a document into chunks

The embedding of `split_content` of `knowledge.py`. A document is read through
windows of at most `max_chars` characters. A window that does not reach the end
of the document ends at the last blank inside it, where there is one, and the
next one starts `overlap_chars` before that end, but after the start of this
one. What a window shows, less the whitespace around it, is a chunk.

A chunk forgets where it stood, so the loop is modelled by its windows, and the
chunks are read off them. Two things are asked of the windows. They cover the
document, which they do whatever the parameters. They go forward: the start of
the next one is behind the start of this one by definition, the end is not.
-/

namespace Text

/-- `value.strip()`. -/
def strip (value : Text) : Text := rstrip (value.dropWhile isSpace)

/-- `value[start:stop]`. -/
def slice (value : Text) (start stop : ℕ) : Text := (value.drop start).take (stop - start)

/-- `value.rfind(" ", start, stop)`, `none` where it is `-1`. -/
def rfindBlank (value : Text) (start stop : ℕ) : Option ℕ :=
  ((List.range' start (stop - start)).filter (fun index => value[index]? = some ' ')).getLast?

end Text

/-! ## The windows of the loop -/

/-- The end of the window that starts at `start`. -/
def windowEnd (content : Text) (maxChars start : ℕ) : ℕ :=
  let stop := min (start + maxChars) content.length
  if stop < content.length then
    match content.rfindBlank start stop with
    | some boundary => if start < boundary then boundary else stop
    | none => stop
  else stop

/-- The start of the window after `start` and `stop`. -/
def nextStart (overlapChars start stop : ℕ) : ℕ := max (stop - overlapChars) (start + 1)

/-- **The loop of `split_content`**, from `start`: the window of each turn. -/
def windowsFrom (content : Text) (maxChars overlapChars start : ℕ) : List (ℕ × ℕ) :=
  if start < content.length then
    let stop := windowEnd content maxChars start
    if stop = content.length then [(start, stop)]
    else (start, stop) ::
      windowsFrom content maxChars overlapChars (nextStart overlapChars start stop)
  else []
termination_by content.length - start
decreasing_by
  unfold nextStart
  omega

/-- The chunk of a window, when it shows more than whitespace. -/
def windowChunk (content : Text) (window : ℕ × ℕ) : Option Text :=
  let value := (content.slice window.1 window.2).strip
  if value.isEmpty then none else some value

/-- **`split_content`.** -/
def splitContent (content : Text) (maxChars overlapChars : ℤ) : Except String (List Text) :=
  if maxChars < 1 ∨ overlapChars < 0 ∨ maxChars ≤ overlapChars then .error "INVALID_CHUNKING"
  else .ok ((windowsFrom content maxChars.toNat overlapChars.toNat 0).filterMap
    (windowChunk content))

/-! ## Slices and their whitespace -/

namespace Text

theorem length_slice {value : Text} {start stop : ℕ} (h : stop ≤ value.length) :
    (value.slice start stop).length = stop - start := by
  unfold slice
  rw [List.length_take, List.length_drop]
  omega

theorem getElem?_slice (value : Text) {start stop index : ℕ} (h : index < stop - start) :
    (value.slice start stop)[index]? = value[start + index]? := by
  unfold slice
  rw [List.getElem?_take_of_lt h, List.getElem?_drop]

/-- A slice of a slice. -/
theorem slice_slice (value : Text) (start stop : ℕ) {a b : ℕ} (h : b ≤ stop - start) :
    (value.slice start stop).slice a b = value.slice (start + a) (start + b) := by
  unfold slice
  rw [List.drop_take, List.take_take, List.drop_drop]
  congr 1
  omega

/-- **What `strip` keeps of a text**: where it starts, and where it stops. -/
def kept (value : Text) : ℕ × ℕ :=
  ((value.takeWhile isSpace).length, (value.takeWhile isSpace).length + value.strip.length)

theorem drop_kept (value : Text) : value.drop value.kept.1 = value.dropWhile isSpace := by
  have hsplit : value = value.takeWhile isSpace ++ value.dropWhile isSpace :=
    List.takeWhile_append_dropWhile.symm
  show value.drop (value.takeWhile isSpace).length = _
  generalize value.takeWhile isSpace = first at hsplit ⊢
  generalize value.dropWhile isSpace = rest at hsplit ⊢
  rw [hsplit, List.drop_left]

theorem strip_eq_slice (value : Text) : value.strip = value.slice value.kept.1 value.kept.2 := by
  show value.strip = (value.drop value.kept.1).take (value.kept.1 + value.strip.length - value.kept.1)
  rw [drop_kept, Nat.add_sub_cancel_left]
  exact List.prefix_iff_eq_take.mp (List.rdropWhile_prefix _ _)

theorem kept_le (value : Text) : value.kept.2 ≤ value.length := by
  have hsplit := congrArg List.length
    (List.takeWhile_append_dropWhile (p := isSpace) (l := value))
  have hfront : value.strip.length ≤ (value.dropWhile isSpace).length :=
    (List.rdropWhile_prefix _ _).length_le
  rw [List.length_append] at hsplit
  show (value.takeWhile isSpace).length + value.strip.length ≤ value.length
  omega

/-- The characters before what is kept are whitespace. -/
theorem isSpace_of_lt_kept {value : Text} {index : ℕ} {c : Char} (hc : value[index]? = some c)
    (h : index < value.kept.1) : isSpace c = true := by
  rw [← List.takeWhile_append_dropWhile (p := isSpace) (l := value),
    List.getElem?_append_left h] at hc
  exact List.mem_takeWhile_imp (List.mem_of_getElem? hc)

/-- The characters behind what is kept are whitespace. -/
theorem isSpace_of_kept_le {value : Text} {index : ℕ} {c : Char} (hc : value[index]? = some c)
    (h : value.kept.2 ≤ index) : isSpace c = true := by
  have hsplit : value = (value.takeWhile isSpace ++ value.strip)
      ++ (value.dropWhile isSpace).rtakeWhile isSpace := by
    rw [List.append_assoc]
    show value = _ ++ ((value.dropWhile isSpace).rdropWhile isSpace ++ _)
    rw [List.rdropWhile_append_rtakeWhile, List.takeWhile_append_dropWhile]
  rw [hsplit, List.getElem?_append_right (by rw [List.length_append]; exact h)] at hc
  exact List.mem_rtakeWhile_imp (List.mem_of_getElem? hc)

/-- What is kept starts with a character that is not whitespace. -/
theorem kept_head {value : Text} (h : value.strip ≠ []) :
    ∃ c, value[value.kept.1]? = some c ∧ isSpace c = false := by
  have hne : value.dropWhile isSpace ≠ [] := by
    intro hnil
    apply h
    unfold strip rstrip
    rw [hnil, List.rdropWhile_nil]
  refine ⟨(value.dropWhile isSpace).head hne, ?_, ?_⟩
  · rw [← List.head?_eq_some_head, ← drop_kept, List.head?_drop]
  · simpa using List.head_dropWhile_not isSpace hne

/-- The last blank of a range. -/
theorem rfindBlank_eq_some {value : Text} {start stop boundary : ℕ}
    (h : value.rfindBlank start stop = some boundary) :
    start ≤ boundary ∧ boundary < stop ∧ value[boundary]? = some ' '
      ∧ ∀ index, index < stop → value[index]? = some ' ' → index ≤ boundary := by
  obtain ⟨before, hbefore⟩ := List.getLast?_eq_some_iff.mp h
  have hmem : boundary ∈ (List.range' start (stop - start)).filter
      (fun index => value[index]? = some ' ') := by
    rw [hbefore]
    exact List.mem_append_right _ (List.mem_singleton_self _)
  obtain ⟨hrange, hblank⟩ := List.mem_filter.mp hmem
  rw [List.mem_range'_1] at hrange
  refine ⟨hrange.1, by omega, by simpa using hblank, ?_⟩
  intro index hindex hat
  rcases Nat.lt_or_ge index start with hlow | hlow
  · omega
  have hfound : index ∈ before ++ [boundary] := by
    rw [← hbefore, List.mem_filter, List.mem_range'_1]
    exact ⟨⟨hlow, by omega⟩, by simpa using hat⟩
  have hsorted : (before ++ [boundary]).Pairwise (· < ·) :=
    hbefore ▸ List.Pairwise.filter _ List.pairwise_lt_range'
  rcases List.mem_append.mp hfound with hmem | hmem
  · exact Nat.le_of_lt ((List.pairwise_append.mp hsorted).2.2 _ hmem _ (List.mem_singleton_self _))
  · exact Nat.le_of_eq (List.mem_singleton.mp hmem)

theorem rfindBlank_eq_none {value : Text} {start stop : ℕ}
    (h : value.rfindBlank start stop = none) {index : ℕ} (hstart : start ≤ index)
    (hstop : index < stop) : value[index]? ≠ some ' ' := by
  intro hblank
  have hnil := List.getLast?_eq_none_iff.mp h
  have hmem : index ∈ (List.range' start (stop - start)).filter
      (fun index => value[index]? = some ' ') := by
    rw [List.mem_filter, List.mem_range'_1]
    exact ⟨⟨hstart, by omega⟩, by simpa using hblank⟩
  rw [hnil] at hmem
  exact List.not_mem_nil hmem

end Text

/-! ## One window after another -/

section Windows

variable {content : Text} {maxChars overlapChars start : ℕ}

/-- **One window**: it is not empty, and inside what fits. -/
theorem windowEnd_spec (hmax : 1 ≤ maxChars) (hstart : start < content.length) :
    start < windowEnd content maxChars start
      ∧ windowEnd content maxChars start ≤ start + maxChars
      ∧ windowEnd content maxChars start ≤ content.length := by
  unfold windowEnd
  dsimp only
  split
  · split
    · rename_i boundary hfound
      have hboundary := (Text.rfindBlank_eq_some hfound).2.1
      split <;> omega
    · omega
  · omega

theorem nextStart_spec (overlapChars : ℕ) {stop : ℕ} (hstop : start < stop) :
    start < nextStart overlapChars start stop ∧ nextStart overlapChars start stop ≤ stop := by
  unfold nextStart
  omega

/-- The windows of the loop, and their order. -/
theorem windowsFrom_spec (content : Text) (maxChars overlapChars start : ℕ) :
    (∀ window ∈ windowsFrom content maxChars overlapChars start,
        start ≤ window.1 ∧ window.1 < content.length
          ∧ window.2 = windowEnd content maxChars window.1)
      ∧ (windowsFrom content maxChars overlapChars start).Pairwise (fun w w' => w.1 < w'.1) := by
  induction start using windowsFrom.induct content maxChars overlapChars with
  | case1 start hstart stop hstop =>
    rw [windowsFrom, if_pos hstart, if_pos hstop]
    refine ⟨fun window hwindow => ?_, List.pairwise_singleton _ _⟩
    rw [List.mem_singleton.mp hwindow]
    exact ⟨Nat.le_refl _, hstart, rfl⟩
  | case2 start hstart stop hstop ih =>
    rw [windowsFrom, if_pos hstart, if_neg hstop]
    have hnext : start < nextStart overlapChars start stop := by
      unfold nextStart
      omega
    refine ⟨fun window hwindow => ?_, List.pairwise_cons.mpr ⟨fun window hwindow => ?_, ih.2⟩⟩
    · rcases List.mem_cons.mp hwindow with rfl | hwindow
      · exact ⟨Nat.le_refl _, hstart, rfl⟩
      · exact ⟨hnext.le.trans (ih.1 window hwindow).1, (ih.1 window hwindow).2⟩
    · exact hnext.trans_le (ih.1 window hwindow).1
  | case3 start hstart =>
    rw [windowsFrom, if_neg hstart]
    exact ⟨fun window hwindow => absurd hwindow List.not_mem_nil, List.Pairwise.nil⟩

/-- **The windows cover the document.** -/
theorem windowsFrom_cover (content : Text) (overlapChars : ℕ) (hmax : 1 ≤ maxChars)
    {position : ℕ} : ∀ start ≤ position, position < content.length →
      ∃ window ∈ windowsFrom content maxChars overlapChars start,
        window.1 ≤ position ∧ position < window.2 := by
  intro start
  induction start using windowsFrom.induct content maxChars overlapChars with
  | case1 start hstart stop hstop =>
    intro hle hlt
    rw [windowsFrom, if_pos hstart, if_pos hstop]
    exact ⟨_, List.mem_singleton_self _, hle, hlt.trans_eq hstop.symm⟩
  | case2 start hstart stop hstop ih =>
    intro hle hlt
    rw [windowsFrom, if_pos hstart, if_neg hstop]
    rcases Nat.lt_or_ge position stop with hin | hout
    · exact ⟨_, List.mem_cons_self, hle, hin⟩
    · -- the next window starts no later than this one ends
      obtain ⟨window, hwindow, hposition⟩ := ih
        ((nextStart_spec overlapChars (windowEnd_spec hmax hstart).1).2.trans hout) hlt
      exact ⟨window, List.mem_cons_of_mem _ hwindow, hposition⟩
  | case3 start hstart =>
    intro hle hlt
    exact absurd (hle.trans_lt hlt) hstart

end Windows

/-! ## The chunks cover the document -/

/-- **Where the chunk of a window stands** in the document. -/
def windowSpan (content : Text) (window : ℕ × ℕ) : Option (ℕ × ℕ) :=
  let value := content.slice window.1 window.2
  if value.strip.isEmpty then none else some (window.1 + value.kept.1, window.1 + value.kept.2)

section Spans

variable {content : Text} {window span : ℕ × ℕ}

/-- A chunk is what the document reads where the chunk stands. -/
theorem windowChunk_eq (hwindow : window.2 ≤ content.length) :
    windowChunk content window
      = (windowSpan content window).map (fun span => content.slice span.1 span.2) := by
  unfold windowChunk windowSpan
  dsimp only
  split
  · rfl
  · have hkept := Text.kept_le (content.slice window.1 window.2)
    rw [Text.length_slice hwindow] at hkept
    rw [Option.map_some, ← Text.slice_slice content _ _ hkept, ← Text.strip_eq_slice]

/-- **One chunk**: it lies in its window, and only whitespace of the window
comes before it. -/
theorem windowSpan_spec (hwindow : window.1 < window.2) (hstop : window.2 ≤ content.length)
    (h : windowSpan content window = some span) :
    window.1 ≤ span.1 ∧ span.1 < span.2 ∧ span.2 ≤ window.2
      ∧ (∃ c, content[span.1]? = some c ∧ Text.isSpace c = false)
      ∧ ∀ index c, window.1 ≤ index → index < span.1 → content[index]? = some c →
          Text.isSpace c = true := by
  unfold windowSpan at h
  dsimp only at h
  split at h
  · cases h
  · rename_i hne
    have hne' : (content.slice window.1 window.2).strip ≠ [] :=
      fun hnil => hne (List.isEmpty_iff.mpr hnil)
    have hkept := Text.kept_le (content.slice window.1 window.2)
    have hpos : (content.slice window.1 window.2).kept.1
        < (content.slice window.1 window.2).kept.2 := by
      have := List.length_pos_iff.mpr hne'
      unfold Text.kept
      dsimp only
      omega
    rw [Text.length_slice hstop] at hkept
    obtain ⟨c, hc, hspace⟩ := Text.kept_head hne'
    rw [Text.getElem?_slice content (by omega)] at hc
    cases h
    dsimp only
    refine ⟨by omega, by omega, by omega, ⟨c, hc, hspace⟩, fun index c hlow hhigh hat => ?_⟩
    have hat' : (content.slice window.1 window.2)[index - window.1]? = some c := by
      rw [Text.getElem?_slice content (by omega), Nat.add_sub_cancel' hlow]
      exact hat
    exact Text.isSpace_of_lt_kept hat' (by omega)

/-- Only whitespace of a window is outside its chunk. -/
theorem windowSpan_cover {position : ℕ} {c : Char}
    (hlow : window.1 ≤ position) (hhigh : position < window.2)
    (hc : content[position]? = some c) (hspace : Text.isSpace c = false) :
    ∃ span, windowSpan content window = some span ∧ span.1 ≤ position ∧ position < span.2 := by
  have hat : (content.slice window.1 window.2)[position - window.1]? = some c := by
    rw [Text.getElem?_slice content (by omega), Nat.add_sub_cancel' hlow]
    exact hc
  have hfirst : (content.slice window.1 window.2).kept.1 ≤ position - window.1 := by
    by_contra hlt
    exact absurd (Text.isSpace_of_lt_kept hat (by omega)) (by rw [hspace]; decide)
  have hlast : position - window.1 < (content.slice window.1 window.2).kept.2 := by
    by_contra hge
    exact absurd (Text.isSpace_of_kept_le hat (by omega)) (by rw [hspace]; decide)
  refine ⟨_, if_neg ?_, by dsimp only; omega, by dsimp only; omega⟩
  intro hempty
  have hnil := congrArg List.length (List.isEmpty_iff.mp hempty)
  unfold Text.kept at hfirst hlast
  dsimp only at hfirst hlast
  rw [hnil, List.length_nil] at hlast
  omega

end Spans

/-- **The chunks cover the document.** For every document and every pair of
parameters that `split_content` takes, it returns. Each chunk is a piece of the
document, not empty and no longer than `max_chars`; they come in the order of
their starts; and every character that is not whitespace stands in one. -/
theorem splitContent_covers (content : Text) {maxChars overlapChars : ℤ} (hmax : 1 ≤ maxChars)
    (hoverlap : 0 ≤ overlapChars) (hless : overlapChars < maxChars) :
    ∃ (chunks : List Text) (spans : List (ℕ × ℕ)),
      splitContent content maxChars overlapChars = .ok chunks
        ∧ chunks = spans.map (fun span => content.slice span.1 span.2)
        ∧ (∀ chunk ∈ chunks, chunk ≠ [] ∧ (chunk.length : ℤ) ≤ maxChars)
        ∧ (∀ span ∈ spans, span.1 < span.2 ∧ span.2 ≤ content.length)
        ∧ spans.Pairwise (fun span span' => span.1 ≤ span'.1)
        ∧ ∀ position c, content[position]? = some c → Text.isSpace c = false →
            ∃ span ∈ spans, span.1 ≤ position ∧ position < span.2 := by
  have hpos : 1 ≤ maxChars.toNat := by omega
  obtain ⟨hwindows, hordered⟩ := windowsFrom_spec content maxChars.toNat overlapChars.toNat 0
  generalize hw : windowsFrom content maxChars.toNat overlapChars.toNat 0 = windows
    at hwindows hordered
  have hbounds : ∀ window ∈ windows, window.1 < window.2
      ∧ window.2 ≤ window.1 + maxChars.toNat ∧ window.2 ≤ content.length := by
    intro window hwindow
    obtain ⟨-, hlt, hend⟩ := hwindows window hwindow
    rw [hend]
    exact windowEnd_spec hpos hlt
  have hspans : ∀ span ∈ windows.filterMap (windowSpan content), ∃ window ∈ windows,
      windowSpan content window = some span :=
    fun span hspan => List.mem_filterMap.mp hspan
  refine ⟨windows.filterMap (windowChunk content), windows.filterMap (windowSpan content),
    ?_, ?_, ?_, ?_, ?_, ?_⟩
  · unfold splitContent
    rw [if_neg (by omega), hw]
  · rw [List.map_filterMap]
    exact List.filterMap_congr (fun window hwindow => windowChunk_eq (hbounds window hwindow).2.2)
  · intro chunk hchunk
    obtain ⟨window, hwindow, hchunk⟩ := List.mem_filterMap.mp hchunk
    obtain ⟨hlt, hfits, hstop⟩ := hbounds window hwindow
    rw [windowChunk_eq hstop] at hchunk
    obtain ⟨span, hspan, rfl⟩ := Option.map_eq_some_iff.mp hchunk
    obtain ⟨hlow, hne, hhigh, -⟩ := windowSpan_spec hlt hstop hspan
    have hlen : (content.slice span.1 span.2).length = span.2 - span.1 :=
      Text.length_slice (hhigh.trans hstop)
    refine ⟨fun hnil => ?_, by omega⟩
    rw [hnil, List.length_nil] at hlen
    omega
  · intro span hspan
    obtain ⟨window, hwindow, hspan⟩ := hspans span hspan
    obtain ⟨hlt, -, hstop⟩ := hbounds window hwindow
    obtain ⟨-, hne, hhigh, -⟩ := windowSpan_spec hlt hstop hspan
    exact ⟨hne, hhigh.trans hstop⟩
  · -- a chunk starts at the first character of its window that is not whitespace
    refine List.pairwise_filterMap.mpr (List.Pairwise.imp_of_mem ?_ hordered)
    intro window window' hwindow hwindow' hlt span hspan span' hspan'
    obtain ⟨hin, -, hstop⟩ := hbounds window hwindow
    obtain ⟨hin', -, hstop'⟩ := hbounds window' hwindow'
    obtain ⟨-, -, -, -, hbefore⟩ := windowSpan_spec hin hstop hspan
    obtain ⟨hlow, -, -, ⟨c, hc, hspace⟩, -⟩ := windowSpan_spec hin' hstop' hspan'
    by_contra hcross
    have := hbefore span'.1 c (by omega) (by omega) hc
    rw [hspace] at this
    cases this
  · intro position c hc hspace
    obtain ⟨window, hwindow, hlow, hhigh⟩ := windowsFrom_cover content overlapChars.toNat hpos 0
      (Nat.zero_le position) (List.getElem?_eq_some_iff.mp hc).1
    rw [hw] at hwindow
    obtain ⟨span, hspan, hposition⟩ :=
      windowSpan_cover hlow hhigh hc hspace
    exact ⟨span, List.mem_filterMap.mpr ⟨window, hwindow, hspan⟩, hposition⟩

/-- The document `"a b"` in chunks of two characters that overlap by one. -/
theorem splitContent_covers_short : ∃ (chunks : List Text) (spans : List (ℕ × ℕ)),
    splitContent ['a', ' ', 'b'] 2 1 = .ok chunks
      ∧ chunks = spans.map (fun span => Text.slice ['a', ' ', 'b'] span.1 span.2)
      ∧ (∀ chunk ∈ chunks, chunk ≠ [] ∧ (chunk.length : ℤ) ≤ 2)
      ∧ (∀ span ∈ spans, span.1 < span.2 ∧ span.2 ≤ 3)
      ∧ spans.Pairwise (fun span span' => span.1 ≤ span'.1)
      ∧ ∀ position c, (['a', ' ', 'b'] : Text)[position]? = some c → Text.isSpace c = false →
          ∃ span ∈ spans, span.1 ≤ position ∧ position < span.2 :=
  splitContent_covers ['a', ' ', 'b'] (by decide) (by decide) (by decide)

/-! ## The windows that stand still -/

/-- **The next window reads nothing new**: this one ends at a blank, the next one
starts before that blank, and the word behind the blank fills the rest of it. -/
def EndsBeforeLongWord (content : Text) (maxChars overlapChars : ℕ) (window : ℕ × ℕ) : Prop :=
  let start := nextStart overlapChars window.1 window.2
  start < window.2 ∧ content[window.2]? = some ' ' ∧ start + maxChars < content.length
    ∧ ∀ index, window.2 < index → index < start + maxChars → content[index]? ≠ some ' '

section Progress

variable {content : Text} {maxChars overlapChars start : ℕ}

/-- A window that does not end at a blank has no blank inside. -/
theorem windowEnd_blank {index : ℕ} (hstop : windowEnd content maxChars start < content.length)
    (hstart : start < index) (hindex : index < windowEnd content maxChars start)
    (hblank : content[index]? = some ' ') :
    content[windowEnd content maxChars start]? = some ' ' := by
  unfold windowEnd at hstop hindex ⊢
  dsimp only at hstop hindex ⊢
  split at hindex
  · rename_i hshort
    rw [if_pos hshort]
    split at hindex
    · rename_i boundary hfound
      obtain ⟨-, hboundary, hat, hlast⟩ := Text.rfindBlank_eq_some hfound
      split at hindex
      · rw [if_pos ‹_›]
        exact hat
      · -- the boundary found is the start of the window, and `index` is behind it
        have := hlast index hindex hblank
        omega
    · rename_i hfound
      exact absurd hblank (Text.rfindBlank_eq_none hfound hstart.le hindex)
  · rename_i hlong
    rw [if_neg hlong] at hstop
    exact absurd hstop hlong

/-- **Two windows**: the next one ends where this one does, or behind it. -/
theorem windowEnd_next (overlapChars : ℕ) (hmax : 1 ≤ maxChars) (hstart : start < content.length)
    (hstop : windowEnd content maxChars start < content.length) :
    windowEnd content maxChars start
        < windowEnd content maxChars
            (nextStart overlapChars start (windowEnd content maxChars start))
      ↔ ¬ EndsBeforeLongWord content maxChars overlapChars
            (start, windowEnd content maxChars start) := by
  obtain ⟨hnonempty, hfits, -⟩ := windowEnd_spec hmax hstart
  have hinside : ∀ index, start < index → index < windowEnd content maxChars start →
      content[index]? = some ' ' → content[windowEnd content maxChars start]? = some ' ' :=
    fun index => windowEnd_blank hstop
  unfold EndsBeforeLongWord
  dsimp only
  generalize windowEnd content maxChars start = stop at *
  obtain ⟨hforward, hback⟩ := nextStart_spec overlapChars hnonempty
  generalize nextStart overlapChars start stop = next at *
  unfold windowEnd
  dsimp only
  split
  · rename_i hshort
    split
    · rename_i boundary hfound
      obtain ⟨-, hboundary, hat, hlast⟩ := Text.rfindBlank_eq_some hfound
      split
      · rename_i hnext
        refine ⟨fun hlt hlong => hlong.2.2.2 boundary hlt (by omega) hat, fun hword => ?_⟩
        by_contra hge
        -- the boundary is a blank of this window, so this window ends at a blank
        have hend : content[stop]? = some ' ' := by
          rcases Nat.lt_or_ge boundary stop with hlt | hle
          · exact hinside boundary (by omega) hlt hat
          · rwa [← Nat.le_antisymm (Nat.not_lt.mp hge) hle]
        refine hword ⟨by omega, hend, by omega, fun index hlow hhigh hblank => ?_⟩
        have := hlast index (by omega) hblank
        omega
      · refine ⟨fun _ hlong => ?_, fun _ => by omega⟩
        have := hlast stop (by omega) hlong.2.1
        omega
    · rename_i hfound
      refine ⟨fun _ hlong => ?_, fun _ => by omega⟩
      exact Text.rfindBlank_eq_none hfound hback (by omega) hlong.2.1
  · rename_i hlong
    exact ⟨fun _ hword => absurd hword.2.2.1 (by omega), fun _ => by omega⟩

/-- A window goes forward when it ends behind the one before it. -/
def GoesForward (window window' : ℕ × ℕ) : Prop :=
  window.2 < window'.2 ∧ ¬ (window.1 ≤ window'.1 ∧ window'.2 ≤ window.2)

theorem windowsFrom_head (hstart : start < content.length) :
    (windowsFrom content maxChars overlapChars start).head?
      = some (start, windowEnd content maxChars start) := by
  rw [windowsFrom, if_pos hstart]
  dsimp only
  split <;> rfl

theorem windowsFrom_forward (hmax : 1 ≤ maxChars) (start : ℕ) :
    (windowsFrom content maxChars overlapChars start).IsChain GoesForward
      ↔ ∀ window ∈ windowsFrom content maxChars overlapChars start,
          window.2 < content.length →
            ¬ EndsBeforeLongWord content maxChars overlapChars window := by
  induction start using windowsFrom.induct content maxChars overlapChars with
  | case1 start hstart stop hstop =>
    rw [windowsFrom, if_pos hstart, if_pos hstop]
    refine ⟨fun _ window hwindow hlt => ?_, fun _ => List.isChain_singleton _⟩
    rw [List.mem_singleton.mp hwindow] at hlt
    exact absurd hstop hlt.ne
  | case2 start hstart stop hstop ih =>
    rw [windowsFrom, if_pos hstart, if_neg hstop, List.isChain_cons, ih, List.forall_mem_cons]
    have hend := windowEnd_spec hmax hstart
    have hlt : windowEnd content maxChars start < content.length :=
      Nat.lt_of_le_of_ne hend.2.2 hstop
    have hnext := nextStart_spec overlapChars hend.1
    refine and_congr ?_ Iff.rfl
    rw [windowsFrom_head (hnext.2.trans_lt hlt)]
    rw [← windowEnd_next overlapChars hmax hstart hlt]
    constructor
    · intro hforward _
      exact (hforward _ rfl).1
    · intro hforward window hwindow
      cases hwindow
      exact ⟨hforward hlt, fun h => absurd (hforward hlt) (Nat.not_lt.mpr h.2)⟩
  | case3 start hstart =>
    rw [windowsFrom, if_neg hstart]
    exact ⟨fun _ window hwindow => absurd hwindow List.not_mem_nil, fun _ => List.isChain_nil⟩

end Progress

/-- **When the windows go forward**: for every document and all parameters that
`split_content` takes, each window ends behind the one before it exactly when no
window ends at a blank before a word too long for the next one. -/
theorem windows_go_forward_iff (content : Text) {maxChars overlapChars : ℕ}
    (hless : overlapChars < maxChars) :
    (windowsFrom content maxChars overlapChars 0).IsChain GoesForward
      ↔ ∀ window ∈ windowsFrom content maxChars overlapChars 0, window.2 < content.length →
          ¬ EndsBeforeLongWord content maxChars overlapChars window :=
  windowsFrom_forward (Nat.lt_of_le_of_lt (Nat.zero_le _) hless) 0

/-- A document whose third word does not fit a window of six. -/
def longThirdWord : Text :=
  ['a', 'a', ' ', 'b', 'b', ' ', 'c', 'c', 'c', 'c', 'c', 'c', 'c', 'c']

/-- Without an overlap its windows go forward. -/
theorem windows_go_forward_iff_apart :
    (windowsFrom longThirdWord 6 0 0).IsChain GoesForward
      ↔ ∀ window ∈ windowsFrom longThirdWord 6 0 0, window.2 < longThirdWord.length →
          ¬ EndsBeforeLongWord longThirdWord 6 0 window :=
  windows_go_forward_iff longThirdWord (by decide)

/-- **With an overlap of five they do not**: the first window ends at the blank
before the third word, and so does the second. -/
theorem longThirdWord_stands_still :
    ¬ (windowsFrom longThirdWord 6 5 0).IsChain GoesForward := by
  have hfirst : windowEnd longThirdWord 6 0 = 5 := by decide
  have hsecond : windowEnd longThirdWord 6 1 = 5 := by decide
  rw [windowsFrom, if_pos (by decide)]
  dsimp only
  rw [if_neg (by rw [hfirst]; decide), hfirst, List.isChain_cons,
    show nextStart 5 0 5 = 1 from rfl, windowsFrom_head (by decide), hsecond]
  intro hforward
  exact absurd (hforward.1 _ rfl).1 (Nat.lt_irrefl 5)
