import AgentPlatform.SessionProjections

/-!
# The window of a summary

A summary holds the end of what was said in a session: `_summary_projection`
goes through the texts from the newest on and keeps what fits into 16000
characters, the oldest one it reaches perhaps in part. `SummaryWindow` says what
such a window is, without a loop: where it begins, that nothing after its
beginning is missing, and that it is as long as it can be. The loop keeps one
number, what remains of the 16000 characters, and the invariant is that the
texts kept so far, joined, have taken the rest.

Before there is a window the texts must be read. `_event_content` looks for the
reply of a model in the answer of its provider, of which the gateway has only
checked that it is an object. `isReadable` describes the payloads it can read.
-/

/-- The texts of events, joined by newlines. -/
def joined (texts : List (ℕ × Text)) : Text := ['\n'].intercalate (texts.map Prod.snd)

@[simp] theorem joined_singleton (text : ℕ × Text) : joined [text] = text.2 :=
  List.intercalate_singleton

theorem joined_cons (text : ℕ × Text) {texts : List (ℕ × Text)} (h : texts ≠ []) :
    joined (text :: texts) = text.2 ++ '\n' :: joined texts := by
  unfold joined
  rw [List.map_cons, List.intercalate_cons_of_ne_nil (by simpa using h), List.append_assoc]
  rfl

/-- What is joined last is at the end. -/
theorem joined_suffix (older : List (ℕ × Text)) {newer : List (ℕ × Text)} (h : newer ≠ []) :
    joined newer <:+ joined (older ++ newer) := by
  induction older with
  | nil => exact List.suffix_refl _
  | cons text older ih =>
    rw [List.cons_append, joined_cons text (List.append_ne_nil_of_right_ne_nil older h)]
    exact (ih.trans (List.suffix_cons _ _)).trans (List.suffix_append _ _)

/-- A text cut at its beginning is at the end of what is joined from it on. -/
theorem joined_suffix_of_cut {s s' : ℕ} {kept text : Text} (h : kept <:+ text)
    (newer : List (ℕ × Text)) : joined ((s, kept) :: newer) <:+ joined ((s', text) :: newer) := by
  obtain ⟨cut, rfl⟩ := h
  cases newer with
  | nil =>
    rw [joined_singleton, joined_singleton]
    exact List.suffix_append _ _
  | cons text newer =>
    rw [joined_cons _ (List.cons_ne_nil _ _), joined_cons _ (List.cons_ne_nil _ _),
      List.append_assoc]
    exact List.suffix_append _ _

/-- **The window `content` of a summary that begins in the event `start`.** -/
structure SummaryWindow (texts : List (ℕ × Text)) (start : ℕ) (content : Text) : Prop where
  nonempty : content ≠ []
  suffix : content <:+ joined texts
  fits : content.length ≤ 16000
  /-- It begins in a text of `start`, has every later text whole, and has all
  texts or no room for one more character and a newline. -/
  begins : ∃ older text kept newer, texts = older ++ (start, text) :: newer
    ∧ kept ≠ [] ∧ kept <:+ text ∧ content = joined ((start, kept) :: newer)
    ∧ ((older = [] ∧ kept = text) ∨ 15999 ≤ content.length)

/-- A window, by the texts it is made of. -/
theorem SummaryWindow.of_kept {older newer : List (ℕ × Text)} {start : ℕ} {text kept : Text}
    (hne : kept ≠ []) (hkept : kept <:+ text)
    (hfits : (joined ((start, kept) :: newer)).length ≤ 16000)
    (hfull : (older = [] ∧ kept = text) ∨ 15999 ≤ (joined ((start, kept) :: newer)).length) :
    SummaryWindow (older ++ (start, text) :: newer) start (joined ((start, kept) :: newer)) where
  nonempty := by
    cases newer with
    | nil => simpa using hne
    | cons next newer =>
      rw [joined_cons _ (List.cons_ne_nil _ _)]
      exact List.append_ne_nil_of_left_ne_nil hne _
  suffix := (joined_suffix_of_cut hkept newer).trans (joined_suffix older (List.cons_ne_nil _ _))
  fits := hfits
  begins := ⟨older, text, kept, newer, rfl, hne, hkept, rfl, hfull⟩

/-! ## The loop -/

/-- What the texts selected so far, newest first, have taken of the room. -/
def Takes (selected : List (ℕ × Text)) (remaining : ℕ) : Prop :=
  (joined selected.reverse).length + remaining = 16000

theorem takes_nil : Takes [] 16000 := rfl

/-- The texts selected so far are a window when there is no older text, or no
room for one. -/
theorem Takes.window {selected : List (ℕ × Text)} {remaining : ℕ}
    (htakes : Takes selected remaining) (older : List (ℕ × Text)) (htexts : ∀ text ∈ selected, text.2 ≠ [])
    (hne : selected ≠ []) (holder : older = [] ∨ remaining ≤ 1) :
    ∃ start kept newer, selected.reverse = (start, kept) :: newer
      ∧ SummaryWindow (older ++ selected.reverse) start (joined ((start, kept) :: newer)) := by
  cases hrev : selected.reverse with
  | nil => exact absurd (List.reverse_eq_nil_iff.mp hrev) hne
  | cons first newer =>
    obtain ⟨start, text⟩ := first
    unfold Takes at htakes
    rw [hrev] at htakes
    have hmem : (start, text) ∈ selected := by
      rw [← List.mem_reverse, hrev]
      exact List.mem_cons_self
    refine ⟨start, text, newer, rfl, SummaryWindow.of_kept (htexts _ hmem) (List.suffix_refl _)
      (by omega) ?_⟩
    exact holder.imp (fun h => ⟨h, rfl⟩) (fun h => by omega)

/-- One more text takes its length, and a newline unless it is the newest. -/
theorem joined_snoc_length (selected : List (ℕ × Text)) (text : ℕ × Text) :
    (joined (text :: selected.reverse)).length
      = text.2.length + (if selected.isEmpty then 0 else 1) + (joined selected.reverse).length := by
  cases selected with
  | nil =>
    rw [List.reverse_nil, joined_singleton]
    rfl
  | cons newest selected =>
    rw [joined_cons _ (by simp), List.length_append, List.length_cons]
    show _ = text.2.length + 1 + _
    omega

/-- **The loop**: from any point on, it ends with a window of all texts, those
selected and those to come. -/
theorem newestFragments_window {selected rest : List (ℕ × Text)} {remaining : ℕ}
    (htexts : ∀ text ∈ selected ++ rest, text.2 ≠ []) (hne : selected ++ rest ≠ [])
    (htakes : Takes selected remaining) :
    ∃ start kept newer, (newestFragments remaining selected rest).reverse = (start, kept) :: newer
      ∧ SummaryWindow (selected ++ rest).reverse start (joined ((start, kept) :: newer)) := by
  induction rest generalizing selected remaining with
  | nil =>
    rw [List.append_nil] at hne htexts ⊢
    exact htakes.window [] htexts hne (.inl rfl)
  | cons text rest ih =>
    obtain ⟨start, content⟩ := text
    have hlength := fun content => joined_snoc_length selected (start, content)
    have hseparator : (if selected.isEmpty then 0 else 1) ≤ 1
        ∧ (selected = [] → remaining = 16000 ∧ (if selected.isEmpty then 0 else 1) = 0) := by
      refine ⟨by split <;> omega, ?_⟩
      rintro rfl
      exact ⟨by simpa [Takes, joined] using htakes, rfl⟩
    unfold newestFragments
    dsimp only
    generalize (if selected.isEmpty = true then 0 else 1) = separator at *
    split
    · -- no room is left, so something has been selected
      rename_i hfull
      rw [List.reverse_append]
      refine htakes.window _ (fun text htext => htexts text (List.mem_append_left _ htext)) ?_
        (.inr (by omega))
      intro hnil
      have := hseparator.2 hnil
      omega
    · split
      · -- the text is cut to what is left
        rename_i hroom hlong
        generalize hcut : content.length - (remaining - separator) = cut
        have hkept : (content.drop cut).length = remaining - separator := by
          rw [List.length_drop]
          omega
        have hjoined := hlength (content.drop cut)
        unfold Takes at htakes
        dsimp only at hjoined
        refine ⟨start, content.drop cut, selected.reverse, ?_, ?_⟩
        · rw [List.reverse_append, List.reverse_singleton, List.singleton_append]
        · rw [List.reverse_append, List.reverse_cons, List.append_assoc, List.singleton_append]
          refine SummaryWindow.of_kept ?_ (List.drop_suffix _ _) (by omega) (.inr (by omega))
          intro hnil
          rw [hnil, List.length_nil] at hkept
          omega
      · rename_i hroom hshort
        rw [show selected ++ (start, content) :: rest = (selected ++ [(start, content)]) ++ rest from
          by rw [List.append_assoc, List.singleton_append]] at htexts hne ⊢
        refine ih htexts hne ?_
        have hjoined := hlength content
        unfold Takes at htakes ⊢
        rw [List.reverse_append, List.reverse_singleton, List.singleton_append, hjoined]
        dsimp only
        omega

/-! ## Reading the texts -/

/-- `choices` in which the text of a reply can be looked for: none, or a first
one that is no dictionary, or one with a dictionary, or nothing, as its message. -/
def Json.readableChoices (choices : Json) : Bool :=
  choices.isFalsy || match choices with
    | .arr (.obj choice :: _) =>
      Json.isObject (some ((Json.field "message" (.obj choice)).getD (.obj [])))
    | .arr _ => true
    | .str _ => true
    | _ => false

/-- **A payload that `_event_content` can read**: it has a content, or its
completion is a dictionary with readable choices. -/
def SessionEvent.isReadable (event : SessionEvent) : Bool :=
  match event.payload with
  | .obj fields =>
    match (Json.field "content" (.obj fields)).getD .null with
    | .null =>
      match (Json.field "completion" (.obj fields)).getD (.obj []) with
      | .obj completion => Json.readableChoices
          ((Json.field "choices" (.obj completion)).getD (.arr []))
      | _ => false
    | _ => true
  | _ => false

section Reading

variable (str : Json → Text)

theorem choiceContent_isOk (choices : Json) :
    (choiceContent choices).isOk = choices.readableChoices := by
  unfold choiceContent Json.readableChoices
  cases hfalsy : choices.isFalsy with
  | true => rfl
  | false =>
    rw [if_neg (by simp), Bool.false_or]
    cases choices with
    | null | bool b | num literal | obj fields | str s => rfl
    | arr items =>
      cases items with
      | nil => cases hfalsy
      | cons choice items =>
        cases choice with
        | null | bool b | num literal | str s | arr items => rfl
        | obj choice =>
          show Except.isOk (Json.getDefault ((Json.field "message" (.obj choice)).getD (.obj []))
            "content" .null)
            = Json.isObject (some ((Json.field "message" (.obj choice)).getD (.obj [])))
          cases (Json.field "message" (.obj choice)).getD (.obj []) <;> rfl

/-- What `_event_content` finds in the payload, before it makes a text of it. -/
def SessionEvent.found (event : SessionEvent) : Except PyException Json := do
  match ← event.payload.getDefault "content" .null with
  | .null =>
    let completion ← event.payload.getDefault "completion" (.obj [])
    let choices ← completion.getDefault "choices" (.arr [])
    choiceContent choices
  | content => pure content

theorem eventContent_eq (event : SessionEvent) :
    eventContent str event = event.found.map (fun content =>
      if content.isFalsy then none
      else some (event.kind.toList ++ ": ".toList ++ formatted str content)) := by
  have hend : ∀ x : Except PyException Json, (x >>= fun content =>
      if content.isFalsy then (pure none : Except PyException (Option Text))
      else pure (some (event.kind.toList ++ ": ".toList ++ formatted str content)))
      = x.map (fun content => if content.isFalsy then none
          else some (event.kind.toList ++ ": ".toList ++ formatted str content)) := by
    intro x
    cases x with
    | error e => rfl
    | ok content =>
      show (if content.isFalsy then _ else _) = Except.ok (if content.isFalsy then _ else _)
      split <;> rfl
  unfold eventContent SessionEvent.found
  cases event.payload.getDefault "content" .null with
  | error e => rfl
  | ok value =>
    cases value with
    | bool b | num literal | str s | arr items | obj fields => exact hend (.ok _)
    | null =>
      rw [← hend]
      show _ = (event.payload.getDefault "completion" (.obj []) >>= fun completion =>
        completion.getDefault "choices" (.arr []) >>= choiceContent) >>= _
      rw [bind_assoc]
      refine congrArg (event.payload.getDefault "completion" (.obj []) >>= ·) ?_
      funext completion
      rw [bind_assoc]

/-- **Reading one event.** -/
theorem eventContent_isOk (event : SessionEvent) :
    (eventContent str event).isOk = event.isReadable := by
  have hmap : (eventContent str event).isOk = event.found.isOk := by
    rw [eventContent_eq]
    cases event.found <;> rfl
  rw [hmap]
  unfold SessionEvent.found SessionEvent.isReadable
  cases event.payload with
  | null | bool b | num literal | str s | arr items => rfl
  | obj fields =>
    show Except.isOk (match (Json.field "content" (.obj fields)).getD .null with
      | .null => Json.getDefault ((Json.field "completion" (.obj fields)).getD (.obj []))
          "choices" (.arr []) >>= choiceContent
      | content => pure content) = _
    dsimp only
    cases (Json.field "content" (.obj fields)).getD .null with
    | bool b | num literal | str s | arr items | obj fields => rfl
    | null =>
      dsimp only
      cases (Json.field "completion" (.obj fields)).getD (.obj []) with
      | null | bool b | num literal | str s | arr items => rfl
      | obj completion => exact choiceContent_isOk _

/-- What is read is not empty: it has the kind of its event in front. -/
theorem eventContent_ne_nil {event : SessionEvent} {text : Text}
    (h : eventContent str event = .ok (some text)) : text ≠ [] := by
  rw [eventContent_eq] at h
  cases hfound : event.found with
  | error e =>
    rw [hfound] at h
    cases h
  | ok content =>
    rw [hfound] at h
    have h : (if content.isFalsy then none
        else some (event.kind.toList ++ ": ".toList ++ formatted str content)) = some text :=
      Except.ok.inj h
    split at h
    · cases h
    · cases h
      simp

theorem fragments_spec (events : List SourceEvent) :
    ((∃ texts, fragments str events = .ok texts)
        ↔ ∀ event ∈ events, event.toSessionEvent.isReadable = true)
      ∧ ∀ texts, fragments str events = .ok texts → ∀ text ∈ texts, text.2 ≠ [] := by
  induction events with
  | nil =>
    refine ⟨⟨fun _ event hevent => absurd hevent List.not_mem_nil, fun _ => ⟨[], rfl⟩⟩, ?_⟩
    intro texts h text htext
    cases h
    cases htext
  | cons event events ih =>
    have hread := eventContent_isOk str event.toSessionEvent
    rw [List.forall_mem_cons, ← ih.1, ← hread]
    cases hcontent : eventContent str event.toSessionEvent with
    | error e =>
      have hraises : fragments str (event :: events) = .error e := by
        rw [fragments, hcontent]
        rfl
      rw [hraises]
      exact ⟨⟨fun ⟨texts, h⟩ => (nomatch h), fun ⟨h, _⟩ => (nomatch h)⟩, fun texts h => (nomatch h)⟩
    | ok content =>
      cases hothers : fragments str events with
      | error e =>
        have hraises : fragments str (event :: events) = .error e := by
          rw [fragments, hcontent, hothers]
          rfl
        rw [hraises]
        exact ⟨⟨fun ⟨texts, h⟩ => (nomatch h), fun ⟨_, texts, h⟩ => (nomatch h)⟩,
          fun texts h => (nomatch h)⟩
      | ok others =>
        have hreads : fragments str (event :: events)
            = .ok (content.toList.map (fun content => (event.sequence, content)) ++ others) := by
          rw [fragments, hcontent, hothers]
          cases content <;> rfl
        rw [hreads]
        refine ⟨⟨fun _ => ⟨rfl, others, rfl⟩, fun _ => ⟨_, rfl⟩⟩, fun texts h => ?_⟩
        cases h
        cases content with
        | none => exact ih.2 others hothers
        | some content =>
          exact List.forall_mem_cons.mpr ⟨eventContent_ne_nil str hcontent, ih.2 others hothers⟩

end Reading

/-! ## The summary -/

/-- A value as it is written. -/
def writtenText (value : Json) : Text := value.dumps.toList

/-- A session in which a user has greeted. -/
def userGreeting : SourceEvent where
  kind := "USER_MESSAGE"
  payload := .obj [("content", .str "hello")]
  sequence := 1

/-- A reply whose provider answered without a message. -/
def replyWithoutMessage : SourceEvent where
  kind := "AGENT_REPLY"
  payload := .obj [("completion", .obj [("choices", .arr [.obj [("message", .null)]])])]
  sequence := 1
