import AgentPlatform.OutboundGovernance

/-!
# Masked model requests

Before a model is called, the governance callback flattens the request: each
content becomes one message with the texts of its parts joined. If the decision
is to mask, the masked texts go back into the request – into every part that has
a text. The model then reads the masked text once for each of them, so the
request says what was decided exactly when every content has one part with a
text, or nothing is left of it (`masked_request_iff`).
-/

/-- A part of a content: a text, or something else. -/
structure LlmPart where
  text : Option String

/-- A content of a model request. The role may be missing, and it may be `None`. -/
structure LlmContent where
  role : Option (Option String) := none
  parts : Option (List LlmPart)

/-- `LlmRequest`, as far as governance reads it. -/
structure LlmRequest where
  contents : Option (List LlmContent)

/-- `LlmResponse` of a blocked call. -/
structure LlmResponse where
  errorCode : String
  errorMessage : String

/-- `_blocked`. -/
def blockedResponse (code : String) : LlmResponse := ⟨code, code⟩

/-- The parts of a content, none if there is no list of them. -/
def LlmContent.allParts (content : LlmContent) : List LlmPart := content.parts.getD []

/-- The joined texts of a content. -/
def LlmContent.text (content : LlmContent) : String :=
  String.join (content.allParts.map (fun part => part.text.getD ""))

/-- `str(getattr(content, "role", "user"))`. -/
def LlmContent.roleText (content : LlmContent) : String :=
  match content.role with
  | none => "user"
  | some none => "None"
  | some (some role) => role

/-- The message of a role and a text. -/
def roleMessage (role text : String) : PayloadMessage :=
  [("role", .str role), ("content", .str text)]

/-- **`_request_messages`**: one message for each content. -/
def requestMessages (request : LlmRequest) : List PayloadMessage :=
  (request.contents.getD []).map (fun content => roleMessage content.roleText content.text)

section Callback

variable (R : GovernanceRuntime)

/-- The text of `message` is written to every part that has a text. -/
def LlmContent.writeText (content : LlmContent) (message : PayloadMessage) : LlmContent :=
  { content with
    parts := content.parts.map (fun parts => parts.map (fun part =>
      if part.text.isSome then { text := some (contentText R message) } else part)) }

/-- **`_apply_masked_contents`**: contents and messages are paired, as far as there
are both. -/
def applyMaskedContents (request : LlmRequest) (masked : List PayloadMessage) : LlmRequest where
  contents := request.contents.map (fun contents =>
    List.zipWith (LlmContent.writeText R) contents masked ++ contents.drop masked.length)

/-- **`governance_model_callback`**, called with what `resolve_rules` answered: the
request as it is left, and a response in its place if it is blocked. -/
def governanceModelCallback (resolved : Except PyException (Option GovernanceRules))
    (declared : DataClassification) (request : LlmRequest) :
    Except PyException (LlmRequest × Option LlmResponse) :=
  match resolved with
  | .error e =>
    if e.isException then return (request, some (blockedResponse "GOVERNANCE_UNAVAILABLE"))
    else throw e
  | .ok none => return (request, none)
  | .ok (some rules) => do
    let decision ← evaluateOutbound R rules (requestMessages request) declared false
    match decision.decision, decision.maskedMessages with
    | .MASK, some masked => return (applyMaskedContents R request masked, none)
    | .DENY, _ => return (request, some (blockedResponse "GOVERNANCE_DENIED"))
    | .NEEDS_APPROVAL, _ =>
      return (request, some (blockedResponse "GOVERNANCE_APPROVAL_REQUIRED"))
    | _, _ => return (request, none)

end Callback

section Rules

variable {R : GovernanceRuntime} {rules : GovernanceRules}

/-! ## What is masked -/

@[simp] theorem contentText_roleMessage (role text : String) :
    contentText R (roleMessage role text) = text := by
  simp [contentText, roleMessage]

@[simp] theorem setContent_roleMessage (role text text' : String) :
    setContent text' (roleMessage role text) = roleMessage role text' := by
  simp [setContent, roleMessage]

/-- A message after the mask patterns. -/
def MaskedBy (R : GovernanceRuntime) (rules : GovernanceRules) (message message' : PayloadMessage) :
    Prop :=
  ∃ text, rewriteContent R rules (contentText R message) = .ok text
    ∧ message' = if text ≠ contentText R message then setContent text message else message

theorem modify_length_append {α : Type} (done rest : List α) (a : α) (f : α → α) :
    (done ++ a :: rest).modify done.length f = done ++ f a :: rest := by
  induction done with
  | nil => rfl
  | cons b done ih => rw [List.cons_append, List.length_cons, List.modify_succ_cons, ih]; rfl

/-- **The loop masks message by message**: the first `index` messages are done. -/
theorem maskLoop_masks {messages rest : List PayloadMessage} (done : List PayloadMessage)
    {index : ℕ} {masked out : Option (List PayloadMessage)}
    (h : maskLoop R rules messages index rest masked = .ok out) (hindex : done.length = index)
    (hmasked : masked.getD messages = done ++ rest) :
    ∃ rest', out.getD messages = done ++ rest' ∧ List.Forall₂ (MaskedBy R rules) rest rest' := by
  induction rest generalizing index masked done with
  | nil =>
    obtain rfl := Except.ok.inj h
    exact ⟨[], hmasked, .nil⟩
  | cons message rest ih =>
    unfold maskLoop at h
    dsimp only at h
    cases hrewrite : rewriteContent R rules (contentText R message) with
    | error e =>
      rw [hrewrite] at h
      cases h
    | ok text =>
      rw [hrewrite] at h
      change (if text ≠ contentText R message then _ else _) = _ at h
      have hnext : ∀ message' masked', masked'.getD messages = done ++ message' :: rest →
          MaskedBy R rules message message' →
          maskLoop R rules messages (index + 1) rest masked' = .ok out →
          ∃ rest', out.getD messages = done ++ rest'
            ∧ List.Forall₂ (MaskedBy R rules) (message :: rest) rest' := by
        intro message' masked' hmasked' hmessage h'
        obtain ⟨rest', hout, hrest⟩ := ih (done ++ [message']) h' (by simp [hindex])
          (by simpa using hmasked')
        exact ⟨message' :: rest', by simpa using hout, .cons hmessage hrest⟩
      split at h
      · rename_i hchanged
        refine hnext (setContent text message) _ ?_ ⟨text, hrewrite, by rw [if_pos hchanged]⟩ h
        rw [Option.getD_some, hmasked, ← hindex, modify_length_append]
      · rename_i hsame
        exact hnext message masked hmasked ⟨text, hrewrite, by rw [if_neg hsame]⟩ h

/-- **What `_apply_masks` returns**: every message after the mask patterns. -/
theorem applyMasks_masks {messages masked : List PayloadMessage}
    (h : applyMasks R rules messages = .ok (some masked)) :
    List.Forall₂ (MaskedBy R rules) messages masked := by
  unfold applyMasks at h
  split at h
  · cases h
  · cases hcompile : rules.maskPatterns.forM (fun p => R.compile p.regex) with
    | error e =>
      rw [hcompile] at h
      cases h
    | ok _ =>
      rw [hcompile] at h
      obtain ⟨rest', hout, hrest⟩ := maskLoop_masks [] h rfl rfl
      rw [Option.getD_some, List.nil_append] at hout
      exact hout ▸ hrest

/-- A decision to mask comes with the masked messages. -/
theorem masks_of_decision {messages : List PayloadMessage} {declared : DataClassification}
    {targetIsPrivateEndpoint : Bool} {d : GovernanceDecision}
    (h : evaluateOutbound R rules messages declared targetIsPrivateEndpoint = .ok d)
    (hmask : d.decision = .MASK) :
    ∃ masked, d.maskedMessages = some masked
      ∧ List.Forall₂ (MaskedBy R rules) messages masked := by
  have hadmitted : ∀ effective, evaluateAdmitted R rules messages effective = .ok d →
      ∃ masked, d.maskedMessages = some masked
        ∧ List.Forall₂ (MaskedBy R rules) messages masked := by
    intro effective h
    unfold evaluateAdmitted at h
    split at h
    · obtain rfl := Except.ok.inj h
      cases hmask
    · cases hmasks : applyMasks R rules messages with
      | error e =>
        rw [hmasks] at h
        cases h
      | ok masked? =>
        rw [hmasks] at h
        cases masked? with
        | none =>
          obtain rfl := Except.ok.inj h
          cases hmask
        | some masked =>
          obtain rfl := Except.ok.inj h
          exact ⟨masked, rfl, applyMasks_masks hmasks⟩
  unfold evaluateOutbound at h
  dsimp only at h
  split_ifs at h
  · obtain rfl := Except.ok.inj h
    cases hmask
  · obtain rfl := Except.ok.inj h
    cases hmask
  · exact hadmitted _ h
  · obtain rfl := Except.ok.inj h
    cases hmask
  · exact hadmitted _ h

/-! ## What the model reads -/

/-- The parts of a content that have a text. -/
def LlmContent.textParts (content : LlmContent) : ℕ :=
  content.allParts.countP (fun part => part.text.isSome)

/-- **A written text is read once for each part that had one.** -/
theorem text_writeText (content : LlmContent) (message : PayloadMessage) :
    (content.writeText R message).text
      = String.join (List.replicate content.textParts (contentText R message)) := by
  have hparts : ∀ parts : List LlmPart,
      String.join ((parts.map (fun part => if part.text.isSome then
        { text := some (contentText R message) } else part)).map (fun part => part.text.getD ""))
      = String.join (List.replicate (parts.countP (fun part => part.text.isSome))
        (contentText R message)) := by
    intro parts
    induction parts with
    | nil => rfl
    | cons part parts ih =>
      rw [List.map_cons, List.map_cons, String.join_cons, ih]
      cases htext : part.text with
      | none => simp [htext]
      | some text => simp [htext, List.replicate_succ]
  unfold LlmContent.text LlmContent.textParts LlmContent.allParts LlmContent.writeText
  cases content.parts with
  | none => rfl
  | some parts => exact hparts parts

/-- A text that is repeated is itself when it is there once, or empty. -/
theorem join_replicate_eq_self_iff (k : ℕ) (text : String) :
    String.join (List.replicate k text) = text ↔ k = 1 ∨ text = "" := by
  constructor
  · intro h
    have hlength := congrArg String.length h
    rw [String.length_join, List.map_replicate, List.sum_replicate_nat] at hlength
    by_cases hempty : text.length = 0
    · exact .inr (String.length_eq_zero_iff.mp hempty)
    · exact .inl (Nat.eq_of_mul_eq_mul_right (Nat.pos_of_ne_zero hempty) (by rw [hlength, one_mul]))
  · rintro (rfl | rfl)
    · simp
    · induction k with
      | zero => rfl
      | succ k ih => rw [List.replicate_succ, String.join_cons, ih, String.empty_append]

/-- **What a masked request says**: it says what the masked messages say exactly
when each content says the masked text once. -/
theorem requestMessages_masked_iff {contents : List LlmContent} {masked : List PayloadMessage}
    (h : List.Forall₂ (MaskedBy R rules)
      (contents.map (fun content => roleMessage content.roleText content.text)) masked) :
    (List.zipWith (LlmContent.writeText R) contents masked).map
        (fun content => roleMessage content.roleText content.text) = masked
      ↔ ∀ content ∈ contents, content.textParts = 1
        ∨ rewriteContent R rules content.text = .ok "" := by
  induction contents generalizing masked with
  | nil =>
    cases h
    simp
  | cons content contents ih =>
    rw [List.map_cons] at h
    obtain ⟨_, masked', ⟨text, hrewrite, rfl⟩, hrest, rfl⟩ := List.forall₂_cons_left_iff.mp h
    rw [contentText_roleMessage] at hrewrite ⊢
    have hmessage : (if text ≠ content.text then
        setContent text (roleMessage content.roleText content.text)
        else roleMessage content.roleText content.text) = roleMessage content.roleText text := by
      split
      · exact setContent_roleMessage _ _ _
      · rename_i hsame
        rw [not_not.mp hsame]
    rw [hmessage, List.zipWith_cons_cons, List.map_cons, List.cons.injEq, ih hrest,
      List.forall_mem_cons, text_writeText, contentText_roleMessage, hrewrite]
    refine and_congr_left' ?_
    have hrole : (content.writeText R (roleMessage content.roleText text)).roleText
        = content.roleText := rfl
    rw [hrole, Except.ok.injEq, ← join_replicate_eq_self_iff content.textParts text]
    simp [roleMessage]

/-- **What the model reads after a decision to mask** is what was decided, exactly
when every content has one part with a text, or is masked to nothing. -/
theorem masked_request_iff {request : LlmRequest} {declared : DataClassification}
    {d : GovernanceDecision}
    (h : evaluateOutbound R rules (requestMessages request) declared false = .ok d)
    (hmask : d.decision = .MASK) :
    ∃ masked request', d.maskedMessages = some masked
      ∧ governanceModelCallback R (.ok (some rules)) declared request = .ok (request', none)
      ∧ (requestMessages request' = masked
        ↔ ∀ content ∈ request.contents.getD [], content.textParts = 1
          ∨ rewriteContent R rules content.text = .ok "") := by
  obtain ⟨masked, hmasked, hall⟩ := masks_of_decision h hmask
  refine ⟨masked, applyMaskedContents R request masked, hmasked, ?_, ?_⟩
  · unfold governanceModelCallback
    dsimp only
    rw [h]
    change (match d.decision, d.maskedMessages with
      | .MASK, some masked => _
      | .DENY, _ => _
      | .NEEDS_APPROVAL, _ => _
      | _, _ => _) = _
    rw [hmask, hmasked]
    rfl
  · rw [← requestMessages_masked_iff hall]
    have hlength := hall.length_eq
    unfold requestMessages applyMaskedContents at *
    cases hc : request.contents with
    | none =>
      rw [hc] at hall
      cases hall
      simp
    | some contents =>
      rw [hc, Option.getD_some, List.length_map] at hlength
      simp [← hlength]

/-- A runtime whose patterns stand for single characters. -/
def characterRuntime : GovernanceRuntime where
  search _ _ := false
  compile _ := .ok ()
  sub regex replacement text := .ok (String.join (text.toList.map (fun c =>
    if regex = String.singleton c then replacement else String.singleton c)))
  repr _ := ""

/-- A bundle that masks a digit. -/
def digitRules : GovernanceRules := { maskPatterns := [⟨"one", "1", "*"⟩] }

/-- A request with one content, of the given texts. -/
def requestOf (texts : List String) : LlmRequest where
  contents := some [{ role := some (some "user")
                      parts := some (texts.map (fun text => ⟨some text⟩)) }]

/-- `masked_request_iff` speaks of a request with a memory and a message. -/
theorem masked_request_sample : ∃ d masked request',
    evaluateOutbound characterRuntime digitRules (requestMessages (requestOf ["a1"])) .PUBLIC false
        = .ok d ∧ d.maskedMessages = some masked
      ∧ governanceModelCallback characterRuntime (.ok (some digitRules)) .PUBLIC
        (requestOf ["a1"]) = .ok (request', none)
      ∧ (requestMessages request' = masked
        ↔ ∀ content ∈ (requestOf ["a1"]).contents.getD [], content.textParts = 1
          ∨ rewriteContent characterRuntime digitRules content.text = .ok "") := by
  obtain ⟨d, hd, hmask⟩ : ∃ d, evaluateOutbound characterRuntime digitRules
      (requestMessages (requestOf ["a1"])) .PUBLIC false = .ok d ∧ d.decision = .MASK :=
    ⟨_, rfl, rfl⟩
  obtain ⟨masked, request', hmasked, hcall, hiff⟩ := masked_request_iff hd hmask
  exact ⟨d, masked, request', hd, hmasked, hcall, hiff⟩

/-- **The masked text is there twice**: a content with two texts. -/
theorem masked_twice : ∃ d masked request',
    evaluateOutbound characterRuntime digitRules (requestMessages (requestOf ["a1", "b"])) .PUBLIC
        false = .ok d ∧ d.decision = .MASK ∧ d.maskedMessages = some masked
      ∧ governanceModelCallback characterRuntime (.ok (some digitRules)) .PUBLIC
        (requestOf ["a1", "b"]) = .ok (request', none)
      ∧ masked = [roleMessage "user" "a*b"]
      ∧ requestMessages request' = [roleMessage "user" "a*ba*b"]
      ∧ requestMessages request' ≠ masked := by
  have htwice : [roleMessage "user" "a*ba*b"] ≠ [roleMessage "user" "a*b"] := by
    simp [roleMessage]
  exact ⟨_, _, _, rfl, rfl, rfl, rfl, rfl, rfl, htwice⟩

end Rules
