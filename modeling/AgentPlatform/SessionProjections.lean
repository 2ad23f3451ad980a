import AgentPlatform.AgentWorker
import AgentPlatform.AuditChain
import AgentPlatform.AdaptiveReply
import AgentPlatform.ChannelInbound
import AgentPlatform.RowLocks

/-!
# The summary of a session

The embedding of `_summary_projection` and `_event_content` of `job_worker.py`: the text
that stands for the committed events of a session. `str`, the text Python makes of a value
that is not a string, is a parameter.
-/

/-- An event of a session, as a projection reads it. -/
structure SourceEvent extends SessionEvent where
  sequence : ℕ

section Content

variable (str : Json → Text)

/-- `value.get(name, default)`, for what should be a dictionary. -/
def Json.getDefault (value : Json) (name : String) (default : Json) : Except PyException Json :=
  match value with
  | .obj fields => .ok ((Json.field name (.obj fields)).getD default)
  | _ => .error (.other "AttributeError")

/-- `choices[0]`, of a value that does not count as false. -/
def Json.head : Json → Except PyException Json
  | .arr (choice :: _) => .ok choice
  | .arr [] => .error (.other "IndexError")
  | .str s => .ok (.str (String.ofList (s.toList.take 1)))
  | .obj _ => .error (.other "KeyError")
  | _ => .error (.other "TypeError")

/-- The text of a value in a formatted string. -/
def formatted : Json → Text
  | .str s => s.toList
  | value => str value

/-- `choices[0].get("message", {}).get("content")`, if there is a first choice and it is a
dictionary. -/
def choiceContent (choices : Json) : Except PyException Json :=
  if choices.isFalsy then .ok .null
  else do
    let choice ← choices.head
    if Json.isObject (some choice) then
      let message ← choice.getDefault "message" (.obj [])
      message.getDefault "content" .null
    else .ok .null

/-- **`_event_content`.** -/
def eventContent (event : SessionEvent) : Except PyException (Option Text) := do
  let value ← event.payload.getDefault "content" .null
  let content ← match value with
    | .null => do
      let completion ← event.payload.getDefault "completion" (.obj [])
      let choices ← completion.getDefault "choices" (.arr [])
      choiceContent choices
    | content => pure content
  if content.isFalsy then return none
  else return some (event.kind.toList ++ ": ".toList ++ formatted str content)

/-- The events that have a text, with their texts. -/
def fragments : List SourceEvent → Except PyException (List (ℕ × Text))
  | [] => .ok []
  | event :: rest => do
    let content ← eventContent str event.toSessionEvent
    let others ← fragments rest
    match content with
    | none => return others
    | some content => return (event.sequence, content) :: others

/-- What stands for events without a text. -/
def noTextualContent : Text := "Session Event projection contained no textual content.".toList

/-- The loop of `_summary_projection`: from the newest on, as many texts as fit. -/
def newestFragments (remaining : ℕ) (selected : List (ℕ × Text)) :
    List (ℕ × Text) → List (ℕ × Text)
  | [] => selected
  | (sequence, content) :: older =>
    let separator := if selected.isEmpty then 0 else 1
    let available := remaining - separator
    if available = 0 then selected
    else if available < content.length then
      selected ++ [(sequence, content.drop (content.length - available))]
    else
      newestFragments (remaining - (content.length + separator))
        (selected ++ [(sequence, content)]) older

/-- **`_summary_projection`**: the newest events that fit, and where they begin. -/
def summaryProjection (events : List SourceEvent) : Except PyException (ℕ × Text) := do
  match ← fragments str events with
  | [] =>
    match events with
    | [] => throw (.other "IndexError")
    | first :: _ => return (first.sequence, noTextualContent)
  | found =>
    let selected := (newestFragments 16000 [] found.reverse).reverse
    match selected with
    | [] => throw (.other "IndexError")
    | (first, _) :: _ => return (first, ['\n'].intercalate (selected.map Prod.snd))

end Content
