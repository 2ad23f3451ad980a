import Mathlib.Data.List.Infix
import AgentPlatform.AdaptiveReply

/-!
# Streamed replies

`ReleasePinnedRunnerRuntime._run_stream` of `agent/runner.py`: the events of one run
of the SDK become text deltas and the final reply. A delta is what a partial text
adds to the text streamed so far, and a partial text that does not continue it is not
streamed. The reply is the last text of any event: a run has several rounds when tools
are called, and the last one answers.

`Text.chain` is the text that has been streamed, in terms of the partial texts alone.
-/

/-! ## Texts that continue one another -/

namespace Text

/-- Go on to a text if it continues the one before. -/
def advance (text next : Text) : Text := if text.isPrefixOf next then next else text

/-- **The text reached** from one text by going on to every next one that continues
it. -/
def chain (text : Text) (texts : List Text) : Text := texts.foldl advance text

/-- What is reached is where the chain started, or one of the texts. -/
theorem chain_mem (text : Text) (texts : List Text) :
    chain text texts = text ∨ chain text texts ∈ texts := by
  induction texts generalizing text with
  | nil => exact .inl rfl
  | cons next rest ih =>
    rcases ih (advance text next) with h | h
    · change chain (advance text next) rest = text ∨ chain (advance text next) rest ∈ next :: rest
      rw [h]
      unfold advance
      split_ifs
      · exact .inr List.mem_cons_self
      · exact .inl rfl
    · exact .inr (List.mem_cons_of_mem next h)

end Text

/-! ## The runner -/

/-- What the runner reads of an event of the SDK: the texts of the parts of its
content. -/
structure SdkEvent where
  invocationId : String
  content : Option (List (Option Text))
  isPartial : Bool

/-- `_event_text`. -/
def SdkEvent.text (event : SdkEvent) : Text :=
  match event.content with
  | none => []
  | some parts => (parts.map (fun part => part.getD [])).flatten

/-- `RunnerExecutionReply`. -/
structure RunnerExecutionReply where
  tenantId : String
  executionId : String
  sessionId : String
  releaseId : String
  modelAlias : String
  invocationId : String
  sdkVersion : String
  platformVersion : String
  content : Text
  deriving DecidableEq

/-- `RunnerStreamChunk`: a text delta or the final reply. -/
inductive RunnerStreamChunk where
  | delta (delta : Text)
  | final (reply : RunnerExecutionReply)
  deriving DecidableEq

namespace RunnerStreamChunk

/-- The text of a delta. -/
def text : RunnerStreamChunk → Text
  | .delta d => d
  | .final _ => []

/-- **The deltas**, one after the other. -/
def joined (chunks : List RunnerStreamChunk) : Text := chunks.flatMap text

end RunnerStreamChunk

/-- What a run is for: the versions of the runtime, and what the reply takes from the
route and the command. -/
structure RunnerRun where
  tenantId : String
  executionId : String
  sessionId : String
  releaseId : String
  modelAlias : String
  sdkVersion : String
  platformVersion : String

namespace RunnerRun

/-- The local variables of the loop. -/
structure Progress where
  emitted : Text := []
  lastText : Text := []
  invocationId : String := ""

/-- One turn of the loop. -/
def onEvent (p : Progress) (event : SdkEvent) : List RunnerStreamChunk × Progress :=
  let text := event.text
  let p := { p with
    invocationId := if event.invocationId ≠ "" then event.invocationId else p.invocationId
    lastText := if text ≠ [] then text else p.lastText }
  if event.isPartial then
    if p.emitted.isPrefixOf text then
      let delta := text.drop p.emitted.length
      if delta ≠ [] then ([.delta delta], { p with emitted := text }) else ([], p)
    else ([], p)
  else ([], p)

/-- `_reply`. -/
def reply (run : RunnerRun) (invocationId : String) (content : Text) : RunnerExecutionReply where
  tenantId := run.tenantId
  executionId := run.executionId
  sessionId := run.sessionId
  releaseId := run.releaseId
  modelAlias := run.modelAlias
  invocationId := if invocationId ≠ "" then invocationId else run.executionId
  sdkVersion := run.sdkVersion
  platformVersion := run.platformVersion
  content := content

/-- The loop over the events, and what follows it. -/
def loop (run : RunnerRun) (p : Progress) :
    List SdkEvent → List RunnerStreamChunk × Except String Unit
  | [] =>
    if p.lastText ≠ [] then ([.final (run.reply p.invocationId p.lastText)], .ok ())
    else ([], .error "RUNNER_EMPTY_REPLY")
  | event :: events =>
    let (chunks, p') := onEvent p event
    let (rest, result) := run.loop p' events
    (chunks ++ rest, result)

/-- **`_run_stream`**, for the events of the run: the chunks it yields, and whether it
raises in the end. -/
def runStream (run : RunnerRun) (events : List SdkEvent) :
    List RunnerStreamChunk × Except String Unit :=
  run.loop {} events

/-! ## Deltas and the reply -/

/-- The texts of the partial events. -/
def partialTexts (events : List SdkEvent) : List Text :=
  (events.filter (fun e => e.isPartial)).map SdkEvent.text

/-- The text a run streams. -/
def streamedText (events : List SdkEvent) : Text := Text.chain [] (partialTexts events)

/-- The last text of any event, from a text before them. -/
def lastFrom (text : Text) (events : List SdkEvent) : Text :=
  events.foldl (fun last e => if e.text ≠ [] then e.text else last) text

/-- The last text of any event. -/
def lastText (events : List SdkEvent) : Text := lastFrom [] events

/-- A text that continues another one is what is left of it, after that one. -/
theorem append_drop_of_prefix {text next : Text} (h : text <+: next) :
    text ++ next.drop text.length = next := by
  obtain ⟨rest, rfl⟩ := h
  rw [List.drop_left]

/-- **A turn streams what its text adds** to the text streamed before. -/
theorem onEvent_spec (p : Progress) (event : SdkEvent) :
    p.emitted ++ RunnerStreamChunk.joined (onEvent p event).1 = (onEvent p event).2.emitted
      ∧ (onEvent p event).2.emitted
          = (if event.isPartial then Text.advance p.emitted event.text else p.emitted)
      ∧ (onEvent p event).2.lastText = (if event.text ≠ [] then event.text else p.lastText)
      ∧ ∀ r, RunnerStreamChunk.final r ∉ (onEvent p event).1 := by
  unfold onEvent Text.advance
  by_cases hpart : event.isPartial = true
  · by_cases hcontinues : p.emitted.isPrefixOf event.text = true
    · have happend := append_drop_of_prefix (List.isPrefixOf_iff_prefix.mp hcontinues)
      by_cases hdelta : event.text.drop p.emitted.length = []
      · -- Nothing was added, so the text is the one streamed before.
        have hsame : event.text = p.emitted := by
          rw [hdelta, List.append_nil] at happend
          exact happend.symm
        simp [hpart, hsame, RunnerStreamChunk.joined]
      · simp [hpart, hcontinues, hdelta, RunnerStreamChunk.joined, RunnerStreamChunk.text,
          happend]
    · simp [hpart, hcontinues, RunnerStreamChunk.joined]
  · simp [hpart, RunnerStreamChunk.joined]

/-- **The rest of a run**, from any point: what it streams continues what was streamed,
and the reply is the last text. -/
theorem loop_spec (run : RunnerRun) (p : Progress) (events : List SdkEvent) :
    p.emitted ++ RunnerStreamChunk.joined (run.loop p events).1
        = Text.chain p.emitted (partialTexts events)
      ∧ ∀ r, RunnerStreamChunk.final r ∈ (run.loop p events).1 →
        r.content = lastFrom p.lastText events := by
  induction events generalizing p with
  | nil =>
    unfold loop
    split_ifs
    · simp [RunnerStreamChunk.joined, RunnerStreamChunk.text, partialTexts, Text.chain, lastFrom,
        reply]
    · simp [RunnerStreamChunk.joined, partialTexts, Text.chain]
  | cons event events ih =>
    obtain ⟨hjoined, hemitted, hlast, hnofinal⟩ := onEvent_spec p event
    obtain ⟨hrest, hreply⟩ := ih (onEvent p event).2
    constructor
    · have hchunks : RunnerStreamChunk.joined (run.loop p (event :: events)).1
          = RunnerStreamChunk.joined (onEvent p event).1
            ++ RunnerStreamChunk.joined (run.loop (onEvent p event).2 events).1 :=
        List.flatMap_append
      rw [hchunks, ← List.append_assoc, hjoined, hrest, hemitted]
      cases hpart : event.isPartial <;> simp [partialTexts, hpart, Text.chain]
    · intro r hr
      rcases List.mem_append.mp hr with h | h
      · exact absurd h (hnofinal r)
      · rw [hreply r h, hlast]
        rfl

/-- **Deltas and the reply.** The deltas concatenate to the text streamed, and the reply
is the last text; so the deltas are a prefix of the reply exactly in the runs whose last
text continues the streamed one, as it does when it continues every partial text. -/
theorem deltas_and_reply (run : RunnerRun) (events : List SdkEvent) (r : RunnerExecutionReply)
    (h : RunnerStreamChunk.final r ∈ (run.runStream events).1) :
    RunnerStreamChunk.joined (run.runStream events).1 = streamedText events
      ∧ r.content = lastText events
      ∧ (RunnerStreamChunk.joined (run.runStream events).1 <+: r.content
          ↔ streamedText events <+: lastText events)
      ∧ ((∀ e ∈ events, e.isPartial = true → e.text <+: lastText events) →
          RunnerStreamChunk.joined (run.runStream events).1 <+: r.content) := by
  obtain ⟨hjoined, hreply⟩ := run.loop_spec {} events
  have hcontent : r.content = lastText events := hreply r h
  rw [List.nil_append] at hjoined
  have hstreamed : RunnerStreamChunk.joined (run.runStream events).1 = streamedText events :=
    hjoined
  rw [hstreamed, hcontent]
  refine ⟨rfl, rfl, Iff.rfl, fun hall => ?_⟩
  rcases Text.chain_mem [] (partialTexts events) with hnone | hmem
  · rw [streamedText, hnone]
    exact List.nil_prefix
  · obtain ⟨e, he, heq⟩ := List.mem_map.mp hmem
    obtain ⟨hevent, hpart⟩ := List.mem_filter.mp he
    rw [streamedText, ← heq]
    exact hall e hevent hpart

end RunnerRun

/-! ## A round that calls a tool -/

/-- A run. -/
def sampleRunnerRun : RunnerRun := ⟨"t", "e", "s", "r", "m", "1", "1"⟩

/-- A text in one part. -/
def textEvent (text : String) (isPartial : Bool) : SdkEvent :=
  ⟨"i", some [some text.toList], isPartial⟩

/-- One round, streamed and repeated in full. -/
def oneRound : List SdkEvent :=
  [textEvent "Hel" true, textEvent "Hello" true, textEvent "Hello" false]

/-- The reply to it. -/
def oneRoundReply : RunnerExecutionReply := sampleRunnerRun.reply "i" "Hello".toList

theorem deltas_and_reply_oneRound :
    RunnerStreamChunk.joined (sampleRunnerRun.runStream oneRound).1 <+: oneRoundReply.content :=
  (sampleRunnerRun.deltas_and_reply oneRound oneRoundReply (by decide)).2.2.2 (by decide)

/-- A round that announces a tool call, and the round that answers. -/
def twoRounds : List SdkEvent :=
  [textEvent "One moment" true, textEvent "One moment" false, textEvent "42" true,
    textEvent "42" false]

/-- **The announcement has been streamed, the answer is the reply.** -/
theorem twoRounds_disagree : ∃ r,
    RunnerStreamChunk.final r ∈ (sampleRunnerRun.runStream twoRounds).1
    ∧ ¬ RunnerStreamChunk.joined (sampleRunnerRun.runStream twoRounds).1 <+: r.content :=
  ⟨sampleRunnerRun.reply "i" "42".toList, by decide, by decide⟩
