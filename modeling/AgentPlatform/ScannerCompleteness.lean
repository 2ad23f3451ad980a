import AgentPlatform.JsonCanonical
import AgentPlatform.OutboundGovernance
import AgentPlatform.ScanPatterns

/-!
# What the scanner sees of a string

`scan_messages` searches the JSON text of a message, not its strings. A string stands in that
text between quotes, with the quotes, backslashes and control characters in it escaped. A
match survives that when it has no such character and does not follow a control character:
the escape of a control character ends with a letter or a digit, so that no word begins
after it. `scanner_completeness` says what is reported in terms of the text, and that this is
enough.
-/

/-! ## Strings in documents -/

namespace Json

/-- **A string value occurs in a document.** -/
inductive HasString : Json → String → Prop
  | str (s : String) : HasString (.str s) s
  | item {items : List Json} {j : Json} {s : String} (hj : j ∈ items) (hs : HasString j s) :
      HasString (.arr items) s
  | field {fields : List (String × Json)} {f : String × Json} {s : String} (hf : f ∈ fields)
      (hs : HasString f.2 s) : HasString (.obj fields) s

theorem textItems_eq (items : List Json) : textItems items = items.map text := by
  induction items with
  | nil => rfl
  | cons x xs ih => rw [textItems, ih, List.map_cons]

theorem textFields_eq (fields : List (String × Json)) :
    textFields fields = fields.map (fun f => quote f.1 ++ ": " ++ f.2.text) := by
  induction fields with
  | nil => rfl
  | cons f fs ih =>
    obtain ⟨k, v⟩ := f
    rw [textFields, ih, List.map_cons]

/-- What is joined stands in the text. -/
theorem mem_intercalate (sep : String) {x : String} {xs : List String} (hx : x ∈ xs) :
    ∃ a b, sep.intercalate xs = a ++ x ++ b := by
  induction xs with
  | nil => cases hx
  | cons y ys ih =>
    by_cases hnil : ys = []
    · subst hnil
      obtain rfl := List.mem_singleton.mp hx
      exact ⟨"", "", by simp⟩
    · rw [String.intercalate_cons_of_ne_nil hnil]
      rcases List.mem_cons.mp hx with rfl | hmem
      · exact ⟨"", sep ++ sep.intercalate ys, by simp [String.append_assoc]⟩
      · obtain ⟨a, b, hab⟩ := ih hmem
        exact ⟨y ++ sep ++ a, b, by rw [hab]; simp [String.append_assoc]⟩

/-- **A string value stands in the text of its document**, between quotes. -/
theorem HasString.quoted {j : Json} {s : String} (h : j.HasString s) :
    ∃ a b, j.text = a ++ quote s ++ b := by
  induction h with
  | str s => exact ⟨"", "", by rw [text]; simp⟩
  | item hj _ ih =>
    obtain ⟨a, b, hab⟩ := ih
    rename_i items j s
    obtain ⟨a', b', hab'⟩ := mem_intercalate ", " (List.mem_map_of_mem (f := text) hj)
    refine ⟨"[" ++ a' ++ a, b ++ b' ++ "]", ?_⟩
    rw [text, textItems_eq, hab', hab]
    simp only [String.append_assoc]
  | field hf _ ih =>
    obtain ⟨a, b, hab⟩ := ih
    rename_i fields f s hs
    obtain ⟨a', b', hab'⟩ := mem_intercalate ", "
      (List.mem_map_of_mem (f := fun f : String × Json => quote f.1 ++ ": " ++ f.2.text) hf)
    refine ⟨"\x7b" ++ a' ++ quote f.1 ++ ": " ++ a, b ++ b' ++ "\x7d", ?_⟩
    rw [text, textFields_eq, hab', hab]
    simp only [String.append_assoc]

end Json

/-! ## Escaped text -/

namespace Json

/-- JSON writes the character as it stands. -/
def WrittenPlain (c : Char) : Prop := c ≠ '"' ∧ c ≠ '\\' ∧ 32 ≤ c.toNat

/-- What is written as it stands. -/
theorem escapeChar_plain {c : Char} (h : WrittenPlain c) : (escapeChar c).toList = [c] := by
  obtain ⟨hquote, hslash, hlow⟩ := h
  have hcontrol : ∀ d : Char, d.toNat < 32 → c ≠ d := by
    rintro d hd rfl
    exact absurd hlow (Nat.not_le.mpr hd)
  unfold escapeChar
  rw [if_neg hquote, if_neg hslash, if_neg (hcontrol '\n' (by decide)),
    if_neg (hcontrol '\r' (by decide)), if_neg (hcontrol '\t' (by decide)),
    if_neg (by omega), if_neg (by omega), if_neg (by omega), String.toList_ofList]

/-- What is escaped begins with a backslash. -/
theorem escapeChar_escaped {c : Char} (h : ¬ WrittenPlain c) :
    ∃ x, (escapeChar c).toList = '\\' :: x := by
  by_cases hquote : c = '"'
  · subst hquote
    exact ⟨_, rfl⟩
  by_cases hslash : c = '\\'
  · subst hslash
    exact ⟨_, rfl⟩
  have hlow : c.toNat < 32 := by
    by_contra hlow
    exact h ⟨hquote, hslash, Nat.not_lt.mp hlow⟩
  unfold escapeChar
  rw [if_neg hquote, if_neg hslash, if_pos hlow]
  split_ifs
  · exact ⟨_, rfl⟩
  · exact ⟨_, rfl⟩
  · exact ⟨_, rfl⟩
  · exact ⟨_, rfl⟩
  · exact ⟨_, rfl⟩
  · rw [String.toList_append]
    exact ⟨_, rfl⟩

theorem escaped_append (s t : List Char) : escaped (s ++ t) = escaped s ++ escaped t :=
  List.flatMap_append

theorem escaped_plain {s : List Char} (h : ∀ c ∈ s, WrittenPlain c) : escaped s = s := by
  induction s with
  | nil => rfl
  | cons c s ih =>
    have hs := ih (fun d hd => h d (List.mem_cons_of_mem _ hd))
    rw [escaped, List.flatMap_cons, escapeChar_plain (h c List.mem_cons_self)]
    exact congrArg (c :: ·) hs

end Json

open Json Regex ScanPatterns

/-- The tables are those of the engine as far as ASCII goes. -/
def AsciiWords (T : CharTables) : Prop :=
  ∀ c : Char, c.toNat < 128 → T.isWord c = asciiTables.isWord c

section Scanner

variable {T : CharTables}

/-- A character that is escaped is no word character. -/
theorem isWord_of_not_plain (hT : AsciiWords T) {c : Char} (h : ¬ WrittenPlain c) :
    T.isWord c = false := by
  have hsmall : c.toNat < 128 ∧ (c = '"' ∨ c = '\\' ∨ c.toNat < 32) := by
    unfold WrittenPlain at h
    by_cases hquote : c = '"'
    · subst hquote
      exact ⟨by decide, .inl rfl⟩
    by_cases hslash : c = '\\'
    · subst hslash
      exact ⟨by decide, .inr (.inl rfl)⟩
    have hlow : c.toNat < 32 := by
      by_contra hlow
      exact h ⟨hquote, hslash, Nat.not_lt.mp hlow⟩
    exact ⟨by omega, .inr (.inr hlow)⟩
  obtain ⟨hascii, hcases⟩ := hsmall
  rw [hT c hascii]
  rcases hcases with rfl | rfl | hlow
  · decide
  · decide
  · have hall : ∀ n : Fin 32, asciiTables.isWord (Char.ofNat n.1) = false := by decide
    have hc := hall ⟨c.toNat, hlow⟩
    rwa [Char.ofNat_toNat] at hc

/-- **After a text** the escaped text goes on like the text itself. -/
theorem wordNext_escaped (hT : AsciiWords T) (v : List Char) :
    wordNext T (escaped v) false = wordNext T v false := by
  cases v with
  | nil => rfl
  | cons c v =>
    by_cases hplain : WrittenPlain c
    · rw [escaped, List.flatMap_cons, escapeChar_plain hplain]
      rfl
    · obtain ⟨x, hx⟩ := escapeChar_escaped hplain
      have hslash : ¬ WrittenPlain '\\' := fun h => h.2.1 rfl
      rw [escaped, List.flatMap_cons, hx]
      show T.isWord '\\' = T.isWord c
      rw [isWord_of_not_plain hT hplain, isWord_of_not_plain hT hslash]

/-- **Before a text** it does so if no control character comes last. -/
theorem wordLast_escaped (hT : AsciiWords T) {u : List Char}
    (hlast : ∀ c ∈ u.getLast?, 32 ≤ c.toNat) :
    wordLast T (escaped u) false = wordLast T u false := by
  rcases List.eq_nil_or_concat u with rfl | ⟨v, c, rfl⟩
  · rfl
  rw [List.concat_eq_append] at hlast ⊢
  have hlow : 32 ≤ c.toNat := hlast c (by simp)
  have hsingle : escaped [c] = (escapeChar c).toList := List.append_nil _
  rw [escaped_append, hsingle]
  unfold wordLast
  rw [List.getLast?_concat]
  by_cases hplain : WrittenPlain c
  · rw [escapeChar_plain hplain, List.getLast?_concat]
  · have hc := isWord_of_not_plain hT hplain
    have hcases : c = '"' ∨ c = '\\' := by
      unfold WrittenPlain at hplain
      tauto
    have hpair : (escapeChar c).toList = ['\\', c] := by
      rcases hcases with rfl | rfl <;> rfl
    rw [hpair, List.getLast?_append]
    rfl

/-- **A pattern matches in the open**: on characters that are written as they stand, and not
behind a control character if it looks around. -/
def DetectionRule.VisibleIn (T : CharTables) (rule : DetectionRule) (t : Text) : Prop :=
  ∃ p pre s post, t = pre ++ s ++ post ∧ reCompile rule.pattern = some p
    ∧ p.regex.MatchesAt T p.ignoreCase pre s post ∧ (∀ c ∈ s, WrittenPlain c)
    ∧ (p.regex.looksAround = true → ∀ c ∈ pre.getLast?, 32 ≤ c.toNat)

/-- What matches in the open also matches in the escaped text. -/
theorem DetectionRule.VisibleIn.escaped (hT : AsciiWords T) {rule : DetectionRule} {t : Text}
    (h : rule.VisibleIn T t) : rule.FoundIn T (escaped t) := by
  obtain ⟨p, pre, s, post, rfl, hcompiled, hmatch, hplain, hlast⟩ := h
  refine ⟨Json.escaped pre, s, Json.escaped post, ?_, p, hcompiled, ?_⟩
  · rw [escaped_append, escaped_append, escaped_plain hplain]
  unfold Regex.MatchesAt at hmatch ⊢
  cases haround : p.regex.looksAround with
  | false => exact hmatch.of_not_looksAround haround
  | true =>
    rw [wordLast_escaped hT (hlast haround), wordNext_escaped hT]
    exact hmatch

/-- **A match in the escaped text is one in the document**, since a string stands there
between quotes. -/
theorem DetectionRule.FoundIn.of_escaped (hT : AsciiWords T) {rule : DetectionRule} {j : Json}
    {s : String} (hs : j.HasString s) (h : rule.FoundIn T (escaped s.toList)) :
    rule.FoundIn T j.text.toList := by
  have hquote : T.isWord '"' = false := isWord_of_not_plain hT (fun h => h.1 rfl)
  obtain ⟨a, b, hab⟩ := hs.quoted
  obtain ⟨pre, m, post, ht, p, hcompiled, hmatch⟩ := h
  have htext : j.text.toList
      = (a.toList ++ ['"'] ++ pre) ++ m ++ (post ++ ['"'] ++ b.toList) := by
    rw [hab, String.toList_append, String.toList_append, toList_quote]
    unfold quoted
    rw [ht]
    simp only [List.append_assoc, List.cons_append, List.nil_append]
  have hpre : wordLast T (a.toList ++ ['"'] ++ pre) false = wordLast T pre false := by
    unfold wordLast
    rw [List.getLast?_append]
    cases pre.getLast? with
    | some c => rfl
    | none =>
      rw [List.getLast?_concat]
      exact hquote
  have hpost : wordNext T (post ++ ['"'] ++ b.toList) false = wordNext T post false := by
    cases post with
    | nil => exact hquote
    | cons c post => rfl
  obtain ⟨pre', m', post', ht', hmatch'⟩ := FoundIn.of_context hmatch hpre hpost
  exact ⟨pre', m', post', htext.trans ht', p, hcompiled, hmatch'⟩

/-! ## What a scan reports -/

/-- **A secret is reported** if its rule is found in the text of a message. -/
theorem mem_detectedSecrets {messages : List Json} {rule : DetectionRule}
    (hrule : rule ∈ secretDetectionRules) :
    rule.name ∈ (scanMessages (reSearch T) messages).detectedSecrets
      ↔ ∃ message ∈ messages, rule.FoundIn T message.text.toList := by
  have hnames : ∀ r ∈ secretDetectionRules, ∀ r' ∈ secretDetectionRules,
      r.name = r'.name → r = r' := by
    intro r hr r' hr'
    simp only [secretDetectionRules, List.mem_cons, List.not_mem_nil, or_false] at hr hr'
    rcases hr with rfl | rfl | rfl | rfl <;> rcases hr' with rfl | rfl | rfl | rfl <;> simp
  unfold scanMessages secretsIn
  dsimp only
  simp only [List.mem_flatMap, List.mem_map, List.mem_filter, reSearch_iff]
  constructor
  · rintro ⟨message, hmessage, r, ⟨hr, hfound⟩, hname⟩
    obtain rfl := hnames r hr rule hrule hname
    exact ⟨message, hmessage, hfound⟩
  · rintro ⟨message, hmessage, hfound⟩
    exact ⟨message, hmessage, rule, ⟨hrule, hfound⟩, rfl⟩

/-- **A classification is reached** if it is public or a rule of at least that classification
is found. -/
theorem le_classifyContent {detected : DataClassification} {content : String} {n : ℕ} :
    n ≤ (classifyContent (reSearch T) detected content).rank ↔ n ≤ detected.rank
      ∨ ∃ rule ∈ dlpRules, ∃ c, rule.classification = some c ∧ n ≤ c.rank
        ∧ rule.FoundIn T content.toList := by
  have hfold : ∀ (rules : List DetectionRule) (d : DataClassification),
      n ≤ (rules.foldl (fun detected rule =>
        if rule.classification.isSome && reSearch T rule.pattern content then
          highestClassification [some detected, rule.classification]
        else detected) d).rank ↔ n ≤ d.rank
        ∨ ∃ rule ∈ rules, ∃ c, rule.classification = some c ∧ n ≤ c.rank
          ∧ rule.FoundIn T content.toList := by
    intro rules
    induction rules with
    | nil => simp
    | cons rule rules ih =>
      intro d
      rw [List.foldl_cons, ih, List.exists_mem_cons_iff, ← or_assoc]
      refine or_congr_left ?_
      cases hclass : rule.classification with
      | none => simp
      | some c =>
        rw [Option.isSome_some, Bool.true_and]
        by_cases hfound : reSearch T rule.pattern content = true
        · rw [if_pos hfound, rank_highestClassification, le_max_iff]
          simp [reSearch_iff.mp hfound]
        · rw [if_neg hfound]
          have hnot : ¬ rule.FoundIn T content.toList := fun h => hfound (reSearch_iff.mpr h)
          simp [hnot]
  exact hfold dlpRules detected

theorem le_detectedClassification {messages : List Json} {n : ℕ} :
    n ≤ (scanMessages (reSearch T) messages).detectedClassification.rank ↔ n = 0
      ∨ ∃ message ∈ messages, ∃ rule ∈ dlpRules, ∃ c, rule.classification = some c
        ∧ n ≤ c.rank ∧ rule.FoundIn T message.text.toList := by
  have hfold : ∀ (messages : List Json) (d : DataClassification),
      n ≤ (messages.foldl (fun detected message =>
        classifyContent (reSearch T) detected message.text) d).rank ↔ n ≤ d.rank
        ∨ ∃ message ∈ messages, ∃ rule ∈ dlpRules, ∃ c, rule.classification = some c
          ∧ n ≤ c.rank ∧ rule.FoundIn T message.text.toList := by
    intro messages
    induction messages with
    | nil => simp
    | cons message messages ih =>
      intro d
      rw [List.foldl_cons, ih, le_classifyContent, List.exists_mem_cons_iff, or_assoc]
  have hpublic : n ≤ DataClassification.PUBLIC.rank ↔ n = 0 := Nat.le_zero
  rw [← hpublic]
  exact hfold messages .PUBLIC

/-! ## Completeness -/

/-- **The scan is complete**: it reports whatever rule matches inside a string value. -/
def ScanComplete (T : CharTables) (messages : List Json) : Prop :=
  ∀ message ∈ messages, ∀ s, message.HasString s →
    (∀ rule ∈ secretDetectionRules, rule.FoundIn T s.toList →
      rule.name ∈ (scanMessages (reSearch T) messages).detectedSecrets)
    ∧ ∀ rule ∈ dlpRules, ∀ c, rule.classification = some c → rule.FoundIn T s.toList →
      c.rank ≤ (scanMessages (reSearch T) messages).detectedClassification.rank

/-- **What matches inside a string value also matches in the JSON text** of some message: the
pattern itself, or in the case of a classification one that stands for as much. -/
def SeenInText (T : CharTables) (messages : List Json) : Prop :=
  ∀ message ∈ messages, ∀ s, message.HasString s →
    (∀ rule ∈ secretDetectionRules, rule.FoundIn T s.toList →
      ∃ other ∈ messages, rule.FoundIn T other.text.toList)
    ∧ ∀ rule ∈ dlpRules, ∀ c, rule.classification = some c → rule.FoundIn T s.toList →
      ∃ other ∈ messages, ∃ rule' ∈ dlpRules, ∃ c', rule'.classification = some c'
        ∧ c.rank ≤ c'.rank ∧ rule'.FoundIn T other.text.toList

/-- Some match of every pattern is in the open. -/
def AllVisible (T : CharTables) (messages : List Json) : Prop :=
  ∀ message ∈ messages, ∀ s, message.HasString s → ∀ rule ∈ scannerRules,
    rule.FoundIn T s.toList → rule.VisibleIn T s.toList

theorem AllVisible.seenInText (hT : AsciiWords T) {messages : List Json}
    (h : AllVisible T messages) : SeenInText T messages := by
  intro message hmessage s hs
  have hseen : ∀ rule ∈ scannerRules, rule.FoundIn T s.toList →
      rule.FoundIn T message.text.toList := fun rule hrule hfound =>
    DetectionRule.FoundIn.of_escaped hT hs ((h message hmessage s hs rule hrule hfound).escaped hT)
  constructor
  · intro rule hrule hfound
    exact ⟨message, hmessage, hseen rule (List.mem_append_left _ hrule) hfound⟩
  · intro rule hrule c hc hfound
    exact ⟨message, hmessage, rule, hrule, c, hc, le_rfl,
      hseen rule (List.mem_append_right _ hrule) hfound⟩

end Scanner

/-! ## A key with and without a line break before it -/

/-- A key. -/
def sampleKey : String := "sk-AAAAAAAAAAAAAAAAAAAA"

/-- A message with nothing but a text. -/
def contentMessage (content : String) : Json := .obj [("content", .str content)]

theorem hasString_contentMessage {content s : String} :
    (contentMessage content).HasString s ↔ s = content := by
  constructor
  · intro h
    cases h with
    | field hf hs =>
      obtain rfl := List.mem_singleton.mp hf
      cases hs
      rfl
  · rintro rfl
    exact .field List.mem_cons_self (.str s)

/-- A key alone is in the open. -/
theorem sampleKey_visible : AllVisible asciiTables [contentMessage sampleKey] := by
  intro message hmessage s hs rule hrule hfound
  obtain rfl := List.mem_singleton.mp hmessage
  obtain rfl := hasString_contentMessage.mp hs
  have hrules : ∀ r ∈ scannerRules, reSearch asciiTables r.pattern sampleKey = true →
      reCompile r.pattern = some assignedApiKey := by
    decide +kernel
  have hmatch : assignedApiKey.regex.MatchesAt asciiTables false [] sampleKey.toList [] := by
    decide +kernel
  have hplain : ∀ c ∈ sampleKey.toList, c ≠ '"' ∧ c ≠ '\\' ∧ 32 ≤ c.toNat := by
    have hall : sampleKey.toList.all (fun c => c ≠ '"' ∧ c ≠ '\\' ∧ 32 ≤ c.toNat) = true := by
      decide +kernel
    exact fun c hc => of_decide_eq_true (List.all_eq_true.mp hall c hc)
  exact ⟨assignedApiKey, [], sampleKey.toList, [], (List.append_nil _).symm,
    hrules rule hrule (reSearch_iff.mpr hfound), hmatch, hplain, fun _ c hc => nomatch hc⟩
