import Mathlib.Tactic.SplitIfs
import AgentPlatform.Governance
import AgentPlatform.PolicyBundles

/-!
# Outbound governance

`evaluate_outbound` decides what becomes of a payload that is about to leave the
platform: it is denied, it needs an approval, it is masked or it is let through.
The decision is made by gates in a sequence, over the classification that
declaration and detection add up to.

`outbound_monotone` compares the decisions of two payloads of which one is
classified higher, or says more. The more sensitive one is judged at least as
strictly, but for one case: the ceiling of a bundle is not asked about
restricted data, for which the bundle has a gate of its own.
-/

/-- What the rules need of the platform's runtime: `re.search`, `re.compile`,
`re.sub` and `str` of what is not a string. -/
structure GovernanceRuntime where
  search : String → String → Bool
  compile : String → Except PyException Unit
  sub : String → String → String → Except PyException String
  repr : Json → String

/-- A message of a payload. -/
abbrev PayloadMessage := List (String × Json)

/-- `DecisionType`. -/
inductive DecisionType where
  | ALLOW
  | DENY
  | MASK
  | NEEDS_APPROVAL
  deriving DecidableEq

/-- The order of the decisions: a payload that is let through, one that waits for
an approval, one that is denied. -/
def DecisionType.strictness : DecisionType → ℕ
  | .ALLOW => 0
  | .MASK => 0
  | .NEEDS_APPROVAL => 1
  | .DENY => 2

/-- `GovernanceDecision`. -/
structure GovernanceDecision where
  decision : DecisionType
  effectiveClassification : DataClassification
  reason : String
  maskedMessages : Option (List PayloadMessage) := none

section Evaluate

variable (R : GovernanceRuntime)

/-! ## Masking -/

/-- `str(message.get("content", ""))`. -/
def contentText (message : PayloadMessage) : String :=
  match message.find? (fun f => f.1 = "content") with
  | none => ""
  | some (_, .str text) => text
  | some (_, value) => R.repr value

/-- `message["content"] = text`. -/
def setContent (text : String) (message : PayloadMessage) : PayloadMessage :=
  if message.any (fun f => f.1 = "content") then
    message.map (fun f => if f.1 = "content" then ("content", .str text) else f)
  else message ++ [("content", .str text)]

/-- A content after all mask patterns, one after another. -/
def rewriteContent (rules : GovernanceRules) (content : String) : Except PyException String :=
  rules.maskPatterns.foldlM (fun rewritten p => R.sub p.regex p.replacement rewritten) content

/-- The loop of `_apply_masks`. The messages are copied when the first of them is
rewritten. -/
def maskLoop (rules : GovernanceRules) (messages : List PayloadMessage) :
    ℕ → List PayloadMessage → Option (List PayloadMessage) →
      Except PyException (Option (List PayloadMessage))
  | _, [], masked => return masked
  | index, message :: rest, masked => do
    let content := contentText R message
    let rewritten ← rewriteContent R rules content
    if rewritten ≠ content then
      maskLoop rules messages (index + 1) rest
        (some ((masked.getD messages).modify index (setContent rewritten)))
    else maskLoop rules messages (index + 1) rest masked

/-- **`_apply_masks`**: the masked messages, if any of them changes. -/
def applyMasks (rules : GovernanceRules) (messages : List PayloadMessage) :
    Except PyException (Option (List PayloadMessage)) :=
  if rules.maskPatterns = [] then return none
  else do
    rules.maskPatterns.forM (fun p => R.compile p.regex)
    maskLoop R rules messages 0 messages none

/-! ## The gates -/

/-- What the payload is scanned for. -/
def scanPayload (messages : List PayloadMessage) : ContentScanResult :=
  scanMessages R.search (messages.map Json.obj)

/-- The classification a payload is judged by. -/
def payloadClassification (messages : List PayloadMessage) (declared : DataClassification) :
    DataClassification :=
  highestClassification [some declared, some (scanPayload R messages).detectedClassification]

/-- The gates behind the ceiling: the approval, then the masks. -/
def evaluateAdmitted (rules : GovernanceRules) (messages : List PayloadMessage)
    (effective : DataClassification) : Except PyException GovernanceDecision :=
  if rules.requireApprovalAbove.any (fun above => above.rank < effective.rank) then
    return { decision := .NEEDS_APPROVAL
             effectiveClassification := effective
             reason := effective.value ++ " exceeds the approval-free ceiling" }
  else do
    match ← applyMasks R rules messages with
    | some masked =>
      return { decision := .MASK
               effectiveClassification := effective
               reason := "mask patterns applied"
               maskedMessages := some masked }
    | none =>
      return { decision := .ALLOW
               effectiveClassification := effective
               reason := "within policy" }

/-- **`evaluate_outbound`**: secrets deny, restricted data has its own gate, the
ceiling is for all other data. -/
def evaluateOutbound (rules : GovernanceRules) (messages : List PayloadMessage)
    (declared : DataClassification) (targetIsPrivateEndpoint : Bool) :
    Except PyException GovernanceDecision :=
  let scan := scanPayload R messages
  let effective := payloadClassification R messages declared
  if rules.secretDetectionEnabled && scan.blocked then
    return { decision := .DENY
             effectiveClassification := effective
             reason := "secret detected: " ++ ", ".intercalate scan.detectedSecrets }
  else if effective = .RESTRICTED then
    if !(rules.allowRestrictedToPrivateEndpoints && targetIsPrivateEndpoint) then
      return { decision := .DENY
               effectiveClassification := effective
               reason := "restricted data cannot enter external models" }
    else evaluateAdmitted R rules messages effective
  else if rules.maxOutboundClassification.rank < effective.rank then
    return { decision := .DENY
             effectiveClassification := effective
             reason := effective.value ++ " exceeds the policy ceiling "
               ++ rules.maxOutboundClassification.value }
  else evaluateAdmitted R rules messages effective

end Evaluate

/-! ## What a payload adds up to -/

section Scan

theorem rank_restricted {c : DataClassification} : c = .RESTRICTED ↔ c.rank = 3 := by
  cases c <;> simp [DataClassification.rank]

/-- The higher one of two. -/
theorem rank_highestClassification (a b : DataClassification) :
    (highestClassification [some a, some b]).rank = max a.rank b.rank := by
  cases a <;> cases b <;> rfl

variable (search : String → String → Bool)

/-- **Detection only raises**, and to what the rules name. -/
theorem rank_classifyContent (detected : DataClassification) (content : String) :
    detected.rank ≤ (classifyContent search detected content).rank
      ∧ (classifyContent search detected content).rank ≤ max detected.rank 2 := by
  have hrules : ∀ rules : List DetectionRule,
      (∀ rule ∈ rules, ∀ c, rule.classification = some c → c.rank ≤ 2) → ∀ d,
      d.rank ≤ (rules.foldl (fun detected rule =>
        if rule.classification.isSome && search rule.pattern content then
          highestClassification [some detected, rule.classification]
        else detected) d).rank
      ∧ (rules.foldl (fun detected rule =>
        if rule.classification.isSome && search rule.pattern content then
          highestClassification [some detected, rule.classification]
        else detected) d).rank ≤ max d.rank 2 := by
    intro rules
    induction rules with
    | nil => exact fun _ d => ⟨le_rfl, le_max_left _ _⟩
    | cons rule rules ih =>
      intro hbound d
      have hrest := ih (fun r hr => hbound r (List.mem_cons_of_mem _ hr))
      rw [List.foldl_cons]
      cases hc : rule.classification with
      | none => simpa [hc] using hrest d
      | some c =>
        have hc2 := hbound rule List.mem_cons_self c hc
        have hrank := rank_highestClassification d c
        split
        · obtain ⟨hlow, hhigh⟩ := hrest (highestClassification [some d, some c])
          omega
        · exact hrest d
  refine hrules dlpRules ?_ detected
  decide

theorem rank_scanMessages_append (messages more : List Json) :
    (scanMessages search messages).detectedClassification.rank
        ≤ (scanMessages search (messages ++ more)).detectedClassification.rank
      ∧ (scanMessages search messages).detectedClassification.rank ≤ 2 := by
  have hfold : ∀ (texts : List Json) (d : DataClassification),
      d.rank ≤ (texts.foldl (fun detected message =>
        classifyContent search detected message.text) d).rank
      ∧ (texts.foldl (fun detected message =>
        classifyContent search detected message.text) d).rank ≤ max d.rank 2 := by
    intro texts
    induction texts with
    | nil => exact fun d => ⟨le_rfl, le_max_left _ _⟩
    | cons message texts ih =>
      intro d
      obtain ⟨hlow, hhigh⟩ := ih (classifyContent search d message.text)
      obtain ⟨hlow', hhigh'⟩ := rank_classifyContent search d message.text
      rw [List.foldl_cons]
      omega
  refine ⟨?_, (hfold messages .PUBLIC).2⟩
  unfold scanMessages
  rw [List.foldl_append]
  exact (hfold more _).1

/-- More messages have no fewer secrets. -/
theorem blocked_scanMessages_append {messages more : List Json}
    (h : (scanMessages search messages).blocked = true) :
    (scanMessages search (messages ++ more)).blocked = true := by
  unfold ContentScanResult.blocked scanMessages at h ⊢
  rw [Bool.not_eq_true', List.isEmpty_eq_false_iff] at h ⊢
  rw [List.flatMap_append]
  exact List.append_ne_nil_of_left_ne_nil h _

end Scan

/-! ## The decisions compared -/

section Monotone

variable {R : GovernanceRuntime} {rules : GovernanceRules} {messages more : List PayloadMessage}
  {declared declared' effective : DataClassification} {targetIsPrivateEndpoint : Bool}
  {d d' : GovernanceDecision}

/-- How strictly a classification is judged behind the ceiling. -/
def admittedStrictness (rules : GovernanceRules) (effective : DataClassification) : ℕ :=
  if rules.requireApprovalAbove.any (fun above => above.rank < effective.rank) then 1 else 0

/-- **How strictly a payload is judged**: this is up to the secrets in it and its
classification. -/
def outboundStrictness (rules : GovernanceRules) (targetIsPrivateEndpoint blocked : Bool)
    (effective : DataClassification) : ℕ :=
  if rules.secretDetectionEnabled && blocked then 2
  else if effective = .RESTRICTED then
    if !(rules.allowRestrictedToPrivateEndpoints && targetIsPrivateEndpoint) then 2
    else admittedStrictness rules effective
  else if rules.maxOutboundClassification.rank < effective.rank then 2
  else admittedStrictness rules effective

theorem strictness_evaluateAdmitted (h : evaluateAdmitted R rules messages effective = .ok d) :
    d.decision.strictness = admittedStrictness rules effective := by
  unfold evaluateAdmitted at h
  unfold admittedStrictness
  split at h
  · rename_i habove
    obtain rfl := Except.ok.inj h
    rw [if_pos habove]
    rfl
  · rename_i habove
    rw [if_neg habove]
    cases hmasks : applyMasks R rules messages with
    | error e =>
      rw [hmasks] at h
      cases h
    | ok masked =>
      rw [hmasks] at h
      cases masked <;> (obtain rfl := Except.ok.inj h) <;> rfl

theorem strictness_evaluateOutbound
    (h : evaluateOutbound R rules messages declared targetIsPrivateEndpoint = .ok d) :
    d.decision.strictness = outboundStrictness rules targetIsPrivateEndpoint
      (scanPayload R messages).blocked (payloadClassification R messages declared) := by
  unfold evaluateOutbound at h
  unfold outboundStrictness
  dsimp only at h
  split_ifs at h ⊢
  · obtain rfl := Except.ok.inj h
    rfl
  · obtain rfl := Except.ok.inj h
    rfl
  · exact strictness_evaluateAdmitted h
  · obtain rfl := Except.ok.inj h
    rfl
  · exact strictness_evaluateAdmitted h

/-- **The ceiling is skipped**: it denies a classification, and restricted data
passes the gate that is meant for it. -/
def SkipsCeiling (rules : GovernanceRules) (targetIsPrivateEndpoint blocked' : Bool)
    (effective effective' : DataClassification) : Prop :=
  (rules.secretDetectionEnabled && blocked') = false
    ∧ (rules.allowRestrictedToPrivateEndpoints && targetIsPrivateEndpoint) = true
    ∧ effective' = .RESTRICTED ∧ effective ≠ .RESTRICTED
    ∧ rules.maxOutboundClassification.rank < effective.rank

theorem admittedStrictness_le (rules : GovernanceRules) (effective : DataClassification) :
    admittedStrictness rules effective ≤ 1 := by
  unfold admittedStrictness
  split <;> omega

theorem admittedStrictness_mono (rules : GovernanceRules)
    {effective effective' : DataClassification} (h : effective.rank ≤ effective'.rank) :
    admittedStrictness rules effective ≤ admittedStrictness rules effective' := by
  unfold admittedStrictness
  cases rules.requireApprovalAbove with
  | none => exact le_rfl
  | some above =>
    simp only [Option.any_some, decide_eq_true_eq]
    split_ifs <;> omega

/-- **The gates are monotone**, but where the ceiling is skipped. -/
theorem outboundStrictness_mono_iff {blocked blocked' : Bool}
    {effective effective' : DataClassification} (hblocked : blocked = true → blocked' = true)
    (hrank : effective.rank ≤ effective'.rank) :
    outboundStrictness rules targetIsPrivateEndpoint blocked effective
        ≤ outboundStrictness rules targetIsPrivateEndpoint blocked' effective'
      ↔ ¬ SkipsCeiling rules targetIsPrivateEndpoint blocked' effective effective' := by
  have hle := admittedStrictness_le rules effective
  have hle' := admittedStrictness_le rules effective'
  have hmono := admittedStrictness_mono rules hrank
  have hrestricted : effective = .RESTRICTED → effective' = .RESTRICTED := by
    intro h
    rw [rank_restricted] at h ⊢
    cases effective' <;> simp only [DataClassification.rank] at hrank h ⊢ <;> omega
  unfold outboundStrictness SkipsCeiling
  by_cases hsecret' : (rules.secretDetectionEnabled && blocked') = true
  · rw [if_pos hsecret']
    refine iff_of_true ?_ (fun h => by rw [hsecret'] at h; cases h.1)
    split_ifs <;> omega
  · have hsecret : ¬ (rules.secretDetectionEnabled && blocked) = true := by
      simp only [Bool.and_eq_true, not_and] at hsecret' ⊢
      exact fun hon hb => hsecret' hon (hblocked hb)
    rw [if_neg hsecret', if_neg hsecret]
    by_cases hopen : (rules.allowRestrictedToPrivateEndpoints && targetIsPrivateEndpoint) = true
    · simp only [hopen, Bool.not_true, Bool.false_eq_true, if_false, true_and,
        eq_false_of_ne_true hsecret']
      by_cases hr' : effective' = .RESTRICTED
      · by_cases hr : effective = .RESTRICTED
        · simp [hr, hr']
        · -- the one gate that a higher classification does not meet
          simp only [hr', hr, if_true, if_false, ne_eq, not_false_eq_true, true_and]
          rw [hr'] at hle' hmono
          split_ifs <;> omega
      · have hr : effective ≠ .RESTRICTED := fun h => hr' (hrestricted h)
        simp only [hr', hr, if_false, false_and, not_false_eq_true, iff_true]
        split_ifs <;> omega
    · simp only [eq_false_of_ne_true hopen, Bool.not_false, if_true, Bool.false_eq_true,
        false_and, and_false, not_false_eq_true, iff_true]
      split_ifs with h₁ h₂ h₃ h₄ h₅ <;> first | omega | exact absurd (hrestricted h₁) h₂

/-- **Outbound governance is monotone**: a payload that is declared higher, or
that says more, is judged at least as strictly, unless it is let through the
gate for restricted data where the ceiling denies the other one. Saying more is
never enough for that. -/
theorem outbound_monotone (hraised : declared.rank ≤ declared'.rank)
    (h : evaluateOutbound R rules messages declared targetIsPrivateEndpoint = .ok d)
    (h' : evaluateOutbound R rules (messages ++ more) declared' targetIsPrivateEndpoint
      = .ok d') :
    (d.decision.strictness ≤ d'.decision.strictness
        ↔ ¬ SkipsCeiling rules targetIsPrivateEndpoint (scanPayload R (messages ++ more)).blocked
          (payloadClassification R messages declared)
          (payloadClassification R (messages ++ more) declared'))
      ∧ (declared' = declared → d.decision.strictness ≤ d'.decision.strictness) := by
  have hblocked : (scanPayload R messages).blocked = true →
      (scanPayload R (messages ++ more)).blocked = true := by
    unfold scanPayload
    rw [List.map_append]
    exact blocked_scanMessages_append R.search
  have hdetected : (scanPayload R messages).detectedClassification.rank
      ≤ (scanPayload R (messages ++ more)).detectedClassification.rank := by
    unfold scanPayload
    rw [List.map_append]
    exact (rank_scanMessages_append R.search _ _).1
  have hdetected' : (scanPayload R (messages ++ more)).detectedClassification.rank ≤ 2 :=
    (rank_scanMessages_append R.search _ []).2
  have hrank : (payloadClassification R messages declared).rank
      ≤ (payloadClassification R (messages ++ more) declared').rank := by
    unfold payloadClassification
    rw [rank_highestClassification, rank_highestClassification]
    omega
  rw [strictness_evaluateOutbound h, strictness_evaluateOutbound h',
    outboundStrictness_mono_iff hblocked hrank]
  refine ⟨Iff.rfl, fun hsame hskips => ?_⟩
  obtain ⟨-, -, hr', hr, -⟩ := hskips
  refine hr ?_
  rw [rank_restricted] at hr' ⊢
  unfold payloadClassification at hr' ⊢
  rw [rank_highestClassification] at hr' ⊢
  subst hsame
  omega

/-- A runtime in which nothing is found. -/
def plainRuntime : GovernanceRuntime where
  search _ _ := false
  compile _ := .ok ()
  sub _ _ text := .ok text
  repr _ := ""

/-- A bundle with the ceiling at `INTERNAL`, and private endpoints for restricted
data. -/
def privateRules : GovernanceRules :=
  { maxOutboundClassification := .INTERNAL
    allowRestrictedToPrivateEndpoints := true }

/-- `outbound_monotone` speaks of a payload that is declared confidential instead of
internal: it is allowed first, and then denied. -/
theorem outbound_monotone_sample : ∃ d d',
    evaluateOutbound plainRuntime privateRules [[("content", .str "hi")]] .INTERNAL true = .ok d
      ∧ evaluateOutbound plainRuntime privateRules
        ([[("content", .str "hi")]] ++ [[("content", .str "ho")]]) .CONFIDENTIAL true = .ok d'
      ∧ (d.decision.strictness ≤ d'.decision.strictness
        ↔ ¬ SkipsCeiling privateRules true false .INTERNAL .CONFIDENTIAL) := by
  have hmono := @outbound_monotone plainRuntime privateRules [[("content", .str "hi")]]
    [[("content", .str "ho")]] .INTERNAL .CONFIDENTIAL true _ _ (by decide) rfl rfl
  exact ⟨_, _, rfl, rfl, hmono.1⟩

/-- **Declared higher, and let through**: the ceiling denies a confidential
payload, and the same payload goes to a private endpoint when it is declared
restricted. -/
theorem restricted_passes_ceiling : ∃ d d',
    evaluateOutbound plainRuntime privateRules [[("content", .str "hi")]] .CONFIDENTIAL true
        = .ok d
      ∧ evaluateOutbound plainRuntime privateRules [[("content", .str "hi")]] .RESTRICTED true
        = .ok d'
      ∧ d.decision = .DENY ∧ d'.decision = .ALLOW
      ∧ ¬ d.decision.strictness ≤ d'.decision.strictness :=
  ⟨_, _, rfl, rfl, rfl, rfl, by decide⟩

end Monotone
