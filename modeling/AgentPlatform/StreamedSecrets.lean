import AgentPlatform.ScanPatterns
import AgentPlatform.StreamedReplies

/-!
# Secrets in a streamed reply

`_stream_wecom_direct_reply` of `channel_gateway.py` with the batcher and the session of
`channels/wecom.py`: the deltas of a run are forwarded while they arrive. A suffix of fixed
length is held back, and before anything is released the text held is scanned; once a scan
finds a secret nothing more is released.

What has been posted is a prefix of the text. It ends before a secret if some text that is
scanned, up to the end of a delta, begins no later than the secret and is found to contain
one; and only then. `streamed_outside_secrets` says so of all deltas. A secret that is longer
than what is held back has been released in part before it can be found, and one at the
beginning of a line is not found at all, since the line break is escaped in the JSON text
that is scanned.
-/

/-! ## The session -/

/-- The settings of a stream. -/
structure StreamSettings where
  streamMinChars : ℤ := 256
  streamMinIntervalSeconds : ℚ := 2

/-- What happens around a stream: the clock at each of its readings, which posts fail, and
whether the run does. -/
structure StreamSurroundings where
  clock : ℕ → ℚ
  postRaises : ℕ → Option PyException
  runnerRaises : Option PyException

/-- **`WeComStreamSession`** with its `WeComStreamBatcher`: what is pending, when it was
flushed last, how often the clock was read, and what has been posted. -/
structure WeComStreamSession where
  pending : List Text := []
  pendingChars : ℕ := 0
  lastFlush : ℚ
  reads : ℕ := 1
  posts : List Text := []

namespace WeComStreamSession

variable (settings : StreamSettings) (around : StreamSurroundings)

/-- A new session. -/
def new : WeComStreamSession := { lastFlush := around.clock 0 }

/-- `add`. -/
def add (delta : Text) (s : WeComStreamSession) : WeComStreamSession :=
  { s with pending := s.pending ++ [delta], pendingChars := s.pendingChars + delta.length }

/-- `due`: the clock is read when there are characters enough. -/
def due (s : WeComStreamSession) : Bool × WeComStreamSession :=
  if s.pending.isEmpty ∨ (s.pendingChars : ℤ) < settings.streamMinChars then (false, s)
  else (settings.streamMinIntervalSeconds ≤ around.clock s.reads - s.lastFlush,
    { s with reads := s.reads + 1 })

/-- `take_pending`, and the post of what was taken. A post that raises may have arrived. -/
def postPending (s : WeComStreamSession) : Option PyException × WeComStreamSession :=
  (around.postRaises s.posts.length,
    { pending := []
      pendingChars := 0
      lastFlush := around.clock s.reads
      reads := s.reads + 1
      posts := s.posts ++ [s.pending.flatten] })

/-- **`append`.** -/
def append (delta : Text) (s : WeComStreamSession) : Option PyException × WeComStreamSession :=
  let (isDue, s) := due settings around (s.add delta)
  if isDue then s.postPending around else (none, s)

/-- **`flush`.** -/
def flush (s : WeComStreamSession) : Option PyException × WeComStreamSession :=
  if s.pending.isEmpty then (none, s) else s.postPending around

/-- What has been handed to the session. -/
def handed (s : WeComStreamSession) : Text := s.posts.flatten ++ s.pending.flatten

/-- What is appended is posted or pending, also when a post fails. -/
theorem handed_append (delta : Text) (s : WeComStreamSession) :
    (append settings around delta s).2.handed = s.handed ++ delta := by
  have hdue : (due settings around (s.add delta)).2.handed = s.handed ++ delta := by
    unfold due
    split_ifs <;> simp [handed, add]
  unfold append
  dsimp only
  split_ifs
  · rw [← hdue]
    simp [postPending, handed]
  · exact hdue

theorem handed_flush (s : WeComStreamSession) : (flush around s).2.handed = s.handed := by
  unfold flush
  split_ifs
  · rfl
  · simp [postPending, handed]

/-- A flush leaves nothing pending. -/
theorem pending_flush (s : WeComStreamSession) : (flush around s).2.pending = [] := by
  unfold flush
  split_ifs with hempty
  · exact List.isEmpty_iff.mp hempty
  · rfl

/-- Without failing posts nothing is raised. -/
theorem append_ok (hposts : ∀ n, around.postRaises n = none) (delta : Text)
    (s : WeComStreamSession) : (append settings around delta s).1 = none := by
  unfold append
  dsimp only
  split_ifs
  · exact hposts _
  · rfl

end WeComStreamSession

/-! ## The stream -/

section Stream

variable (search : String → String → Bool) (settings : StreamSettings)
  (around : StreamSurroundings)

/-- `scan_messages([{"content": text}]).blocked`. -/
def contentBlocked (text : Text) : Bool :=
  (scanMessages search [.obj [("content", .str (String.ofList text))]]).blocked

/-- `holdback_chars`. -/
def StreamSettings.holdbackChars (settings : StreamSettings) : ℕ :=
  (max settings.streamMinChars 512).toNat

/-- The local variables of the loop. -/
structure StreamProgress where
  session : WeComStreamSession
  held : Text := []
  blocked : Bool := false
  reply : Option RunnerExecutionReply := none

/-- A delta: what is too long to be held back is scanned and released. -/
def onDelta (delta : Text) (p : StreamProgress) : Option PyException × StreamProgress :=
  let held := p.held ++ delta
  if settings.holdbackChars < held.length then
    let releasable := held.take (held.length - settings.holdbackChars)
    let kept := held.drop (held.length - settings.holdbackChars)
    if contentBlocked search (releasable ++ kept) then
      (none, { p with held := kept, blocked := true })
    else if ¬ p.blocked then
      let (raised, session) := p.session.append settings around releasable
      (raised, { p with held := kept, session := session })
    else (none, { p with held := kept })
  else (none, { p with held := held })

/-- One turn of the loop. -/
def onStreamChunk (chunk : RunnerStreamChunk) (p : StreamProgress) :
    Option PyException × StreamProgress :=
  match chunk with
  | .delta delta => onDelta search settings around delta p
  | .final reply => (none, { p with reply := some reply })

/-- The loop. -/
def forwardChunks : List RunnerStreamChunk → StreamProgress → Option PyException × StreamProgress
  | [], p => (around.runnerRaises, p)
  | chunk :: rest, p =>
    match onStreamChunk search settings around chunk p with
    | (some e, p) => (some e, p)
    | (none, p) => forwardChunks rest p

/-- What follows the loop: the text that is left is scanned and released. -/
def releaseRest (p : StreamProgress) : Option PyException × WeComStreamSession :=
  let blocked := contentBlocked search p.held || p.blocked
  if ¬ p.held.isEmpty ∧ ¬ blocked then
    match p.session.append settings around p.held with
    | (some e, session) => (some e, session)
    | (none, session) => session.flush around
  else p.session.flush around

/-- **`_stream_wecom_direct_reply`**: the reply or the exception, and what was posted. -/
def streamWecomDirectReply (chattype responseUrl : String) (hasStream : Bool)
    (chunks : List RunnerStreamChunk) :
    Except PyException (Option RunnerExecutionReply) × List Text :=
  if chattype ≠ "single" ∨ responseUrl = "" ∨ ¬ hasStream then (.ok none, [])
  else
    match forwardChunks search settings around chunks ⟨.new around, [], false, none⟩ with
    | (some e, p) => (.error e, p.session.posts)
    | (none, p) =>
      match releaseRest search settings around p with
      | (some e, session) => (.error e, session.posts)
      | (none, session) => (.ok p.reply, session.posts)

end Stream

/-! ## What is released -/

section Released

open RunnerStreamChunk

variable {search : String → String → Bool} {settings : StreamSettings}
  {around : StreamSurroundings}

theorem joined_append (cs cs' : List RunnerStreamChunk) :
    joined (cs ++ cs') = joined cs ++ joined cs' := List.flatMap_append

theorem joined_concat (cs : List RunnerStreamChunk) (c : RunnerStreamChunk) :
    joined (cs ++ [c]) = joined cs ++ c.text := by
  rw [joined_append]
  exact congrArg _ (List.append_nil _)

/-- **A secret is found at the end of a delta**: in the text from `start` on, which is what
was held before it and the delta. -/
def FoundAtDelta (search : String → String → Bool) (holdback : ℕ) (cs : List RunnerStreamChunk)
    (start : ℕ) : Prop :=
  ∃ before c, before ++ [c] <+: cs ∧ start = (joined before).length - holdback
    ∧ holdback < (joined (before ++ [c])).length - start
    ∧ contentBlocked search ((joined (before ++ [c])).drop start) = true

/-- **A secret is found** at the end of a delta, or in what is held at the end. -/
def FoundFrom (search : String → String → Bool) (holdback : ℕ) (cs : List RunnerStreamChunk)
    (start : ℕ) : Prop :=
  FoundAtDelta search holdback cs start
    ∨ start = (joined cs).length - holdback
      ∧ contentBlocked search ((joined cs).drop start) = true

theorem foundAtDelta_concat {H : ℕ} {cs : List RunnerStreamChunk} {c : RunnerStreamChunk}
    {start : ℕ} : FoundAtDelta search H (cs ++ [c]) start ↔ FoundAtDelta search H cs start
      ∨ start = (joined cs).length - H ∧ H < (joined (cs ++ [c])).length - start
        ∧ contentBlocked search ((joined (cs ++ [c])).drop start) = true := by
  constructor
  · rintro ⟨before, d, hfront, hrest⟩
    rcases List.prefix_concat_iff.mp hfront with heq | hfront
    · obtain ⟨rfl, hd⟩ := List.append_inj' heq rfl
      obtain rfl := List.singleton_inj.mp hd
      exact .inr hrest
    · exact .inl ⟨before, d, hfront, hrest⟩
  · rintro (⟨before, d, hfront, hrest⟩ | hrest)
    · exact ⟨before, d, hfront.trans (List.prefix_append _ _), hrest⟩
    · exact ⟨cs, c, List.prefix_refl _, hrest⟩

/-- **What is posted is bounded**: it is a beginning of the text that ends before all that
was found, and before what is held. -/
structure Bounded (search : String → String → Bool) (settings : StreamSettings)
    (cs : List RunnerStreamChunk) (posted : Text) : Prop where
  isPrefix : posted <+: joined cs
  found : ∀ start, FoundAtDelta search settings.holdbackChars cs start → posted.length ≤ start
  held : posted.length ≤ (joined cs).length - settings.holdbackChars

/-- What comes later is found later. -/
theorem Bounded.append {cs : List RunnerStreamChunk} {posted : Text}
    (h : Bounded search settings cs posted) (cs' : List RunnerStreamChunk) :
    Bounded search settings (cs ++ cs') posted := by
  induction cs' using List.reverseRecOn with
  | nil => rwa [List.append_nil]
  | append_singleton cs' c ih =>
    rw [← List.append_assoc]
    have hlength := congrArg List.length (joined_concat (cs ++ cs') c)
    rw [List.length_append] at hlength
    refine ⟨?_, fun start hstart => ?_, ?_⟩
    · rw [joined_concat]
      exact ih.isPrefix.trans (List.prefix_append _ _)
    · rcases foundAtDelta_concat.mp hstart with hold | ⟨rfl, -⟩
      · exact ih.found start hold
      · exact ih.held
    · have := ih.held
      omega

/-- **What the loop keeps**: the last characters are held; `n` characters have been handed
to the session, all but the held ones, or – once a secret was found – those before the text
it was found in first. -/
structure HoldingBack (search : String → String → Bool) (settings : StreamSettings)
    (cs : List RunnerStreamChunk) (p : StreamProgress) (n : ℕ) : Prop where
  held : p.held = (joined cs).drop ((joined cs).length - settings.holdbackChars)
  handed : p.session.handed = (joined cs).take n
  le : n ≤ (joined cs).length - settings.holdbackChars
  unblocked : p.blocked = false → n = (joined cs).length - settings.holdbackChars
    ∧ ∀ start, ¬ FoundAtDelta search settings.holdbackChars cs start
  blocked : p.blocked = true → FoundAtDelta search settings.holdbackChars cs n
    ∧ ∀ start, FoundAtDelta search settings.holdbackChars cs start → n ≤ start

variable {cs : List RunnerStreamChunk} {p : StreamProgress} {n : ℕ}

theorem HoldingBack.posted_prefix (h : HoldingBack search settings cs p n) :
    p.session.posts.flatten <+: (joined cs).take n := by
  rw [← h.handed]
  exact List.prefix_append _ _

theorem HoldingBack.posted_le (h : HoldingBack search settings cs p n) :
    p.session.posts.flatten.length ≤ n :=
  h.posted_prefix.length_le.trans (List.length_take_le _ _)

theorem HoldingBack.bounded (h : HoldingBack search settings cs p n) :
    Bounded search settings cs p.session.posts.flatten := by
  refine ⟨h.posted_prefix.trans (List.take_prefix _ _), fun start hstart => ?_,
    h.posted_le.trans h.le⟩
  cases hblocked : p.blocked with
  | false => exact absurd hstart ((h.unblocked hblocked).2 start)
  | true => exact h.posted_le.trans ((h.blocked hblocked).2 start hstart)

/-- What a step leaves: the loop goes on, or it is over and what is posted is bounded. -/
def StepKeeps (search : String → String → Bool) (settings : StreamSettings)
    (cs : List RunnerStreamChunk) : Option PyException × StreamProgress → Prop
  | (none, p) => ∃ n, HoldingBack search settings cs p n
  | (some _, p) => Bounded search settings cs p.session.posts.flatten

/-- The held text and a delta are what follows the released text. -/
theorem HoldingBack.held_append (h : HoldingBack search settings cs p n) (c : RunnerStreamChunk) :
    p.held ++ c.text
      = (joined (cs ++ [c])).drop ((joined cs).length - settings.holdbackChars) := by
  rw [joined_concat, List.drop_append_of_le_length (Nat.sub_le _ _), ← h.held]

/-- A chunk without a scan: nothing is found at its end. -/
theorem HoldingBack.quiet (h : HoldingBack search settings cs p n) {c : RunnerStreamChunk}
    {p' : StreamProgress} (hlen : (p.held ++ c.text).length ≤ settings.holdbackChars)
    (hheld : p'.held = p.held ++ c.text) (hsession : p'.session = p.session)
    (hblocked : p'.blocked = p.blocked) : HoldingBack search settings (cs ++ [c]) p' n := by
  have hlength := congrArg List.length (joined_concat cs c)
  have hdropped := congrArg List.length (h.held_append c)
  rw [List.length_append] at hlength
  rw [List.length_drop] at hdropped
  -- The held text is all of it, or the delta is empty.
  have hsame : (joined (cs ++ [c])).length - settings.holdbackChars
      = (joined cs).length - settings.holdbackChars := by
    omega
  have hfound : ∀ start, FoundAtDelta search settings.holdbackChars (cs ++ [c]) start
      ↔ FoundAtDelta search settings.holdbackChars cs start := by
    intro start
    rw [foundAtDelta_concat]
    refine or_iff_left ?_
    rintro ⟨rfl, hlong, -⟩
    omega
  refine ⟨?_, ?_, ?_, ?_, ?_⟩
  · rw [hheld, hsame, h.held_append]
  · rw [hsession, h.handed, joined_concat,
      List.take_append_of_le_length (h.le.trans (Nat.sub_le _ _))]
  · rw [hsame]
    exact h.le
  · rw [hblocked, hsame]
    simpa only [hfound] using h.unblocked
  · rw [hblocked]
    simpa only [hfound] using h.blocked

/-- **A delta keeps what the loop keeps.** -/
theorem HoldingBack.step_delta (h : HoldingBack search settings cs p n) (delta : Text) :
    StepKeeps search settings (cs ++ [.delta delta])
      (onDelta search settings around delta p) := by
  have hlength := congrArg List.length (joined_concat cs (.delta delta))
  have happend := h.held_append (.delta delta)
  have hdropped := congrArg List.length happend
  rw [List.length_append] at hlength
  rw [List.length_drop] at hdropped
  change (joined (cs ++ [.delta delta])).length = (joined cs).length + delta.length at hlength
  change p.held ++ delta = _ at happend
  change (p.held ++ delta).length = _ at hdropped
  have hkept : (p.held ++ delta).drop ((p.held ++ delta).length - settings.holdbackChars)
      = (joined (cs ++ [.delta delta])).drop
        ((joined (cs ++ [.delta delta])).length - settings.holdbackChars) := by
    rw [hdropped, happend, List.drop_drop]
    congr 1
    omega
  have hle := h.le
  have hhanded : (joined (cs ++ [.delta delta])).take n = (joined cs).take n := by
    rw [joined_concat, List.take_append_of_le_length (hle.trans (Nat.sub_le _ _))]
  have hfound_iff : ¬ contentBlocked search
      ((p.held ++ delta).take ((p.held ++ delta).length - settings.holdbackChars)
        ++ (p.held ++ delta).drop ((p.held ++ delta).length - settings.holdbackChars)) = true →
      ∀ start, FoundAtDelta search settings.holdbackChars (cs ++ [.delta delta]) start
        ↔ FoundAtDelta search settings.holdbackChars cs start := by
    intro hclean start
    rw [List.take_append_drop, happend] at hclean
    rw [foundAtDelta_concat]
    refine or_iff_left ?_
    rintro ⟨rfl, -, hblocked⟩
    exact hclean hblocked
  unfold onDelta
  dsimp only
  split_ifs with hlong hfound hopen
  · -- A secret is found in the text held.
    rw [List.take_append_drop, happend] at hfound
    refine ⟨n, ?_, ?_, ?_, fun hblocked => (nomatch hblocked), fun _ => ?_⟩
    · exact hkept
    · exact h.handed.trans hhanded.symm
    · omega
    · have hnew : FoundAtDelta search settings.holdbackChars (cs ++ [.delta delta])
          ((joined cs).length - settings.holdbackChars) :=
        foundAtDelta_concat.mpr (.inr ⟨rfl, by omega, hfound⟩)
      cases hblocked : p.blocked with
      | false =>
        obtain ⟨rfl, hnone⟩ := h.unblocked hblocked
        refine ⟨hnew, fun start hstart => ?_⟩
        rcases foundAtDelta_concat.mp hstart with hold | ⟨rfl, -⟩
        · exact absurd hold (hnone start)
        · exact Nat.le_refl _
      | true =>
        obtain ⟨hfirst, hall⟩ := h.blocked hblocked
        refine ⟨foundAtDelta_concat.mpr (.inl hfirst), fun start hstart => ?_⟩
        rcases foundAtDelta_concat.mp hstart with hold | ⟨rfl, -⟩
        · exact hall start hold
        · exact h.le
  · -- Something was found before.
    obtain ⟨hfirst, hall⟩ := h.blocked hopen
    refine ⟨n, hkept, h.handed.trans hhanded.symm, by omega,
      fun hblocked => absurd hopen (Bool.eq_false_iff.mp hblocked), fun _ => ?_⟩
    exact ⟨(hfound_iff hfound n).mpr hfirst, fun start hstart => hall start
      ((hfound_iff hfound start).mp hstart)⟩
  · -- The text is released.
    obtain ⟨rfl, hnone⟩ := h.unblocked (Bool.eq_false_iff.mpr hopen)
    have hreleased := p.session.handed_append settings around
      ((p.held ++ delta).take ((p.held ++ delta).length - settings.holdbackChars))
    rw [h.handed, ← hhanded, happend, ← List.take_add, ← happend] at hreleased
    rcases happended : p.session.append settings around _ with ⟨raised, session⟩
    rw [happended] at hreleased
    have hkeeps : HoldingBack search settings (cs ++ [.delta delta])
        { p with
          held := (p.held ++ delta).drop ((p.held ++ delta).length - settings.holdbackChars)
          session := session }
        ((joined (cs ++ [.delta delta])).length - settings.holdbackChars) := by
      refine ⟨hkept, ?_, Nat.le_refl _, fun _ => ⟨rfl, fun start hstart => ?_⟩,
        fun hblocked => absurd hblocked hopen⟩
      · refine hreleased.trans (congrArg (fun k => (joined (cs ++ [.delta delta])).take k) ?_)
        omega
      · exact hnone start ((hfound_iff hfound start).mp hstart)
    cases raised with
    | none => exact ⟨_, hkeeps⟩
    | some e => exact hkeeps.bounded
  · -- All of it is held.
    exact ⟨n, h.quiet (Nat.not_lt.mp hlong) rfl rfl rfl⟩

theorem HoldingBack.step (h : HoldingBack search settings cs p n) (around : StreamSurroundings)
    (c : RunnerStreamChunk) :
    StepKeeps search settings (cs ++ [c]) (onStreamChunk search settings around c p) := by
  cases c with
  | delta delta => exact h.step_delta delta
  | final reply =>
    refine ⟨n, h.quiet ?_ (List.append_nil _).symm rfl rfl⟩
    show (p.held ++ []).length ≤ _
    rw [List.append_nil, h.held, List.length_drop]
    omega

/-- **The loop.** -/
theorem HoldingBack.run (h : HoldingBack search settings cs p n) (around : StreamSurroundings)
    (rest : List RunnerStreamChunk) :
    StepKeeps search settings (cs ++ rest) (forwardChunks search settings around rest p) := by
  induction rest generalizing cs p n with
  | nil =>
    rw [List.append_nil, forwardChunks]
    cases around.runnerRaises with
    | none => exact ⟨n, h⟩
    | some e => exact h.bounded
  | cons c rest ih =>
    have hstep := h.step around c
    rw [forwardChunks]
    rcases hc : onStreamChunk search settings around c p with ⟨raised, p'⟩
    rw [hc] at hstep
    have hassoc : cs ++ c :: rest = cs ++ [c] ++ rest := by simp
    rw [hassoc]
    cases raised with
    | none =>
      obtain ⟨n', hn'⟩ := hstep
      exact ih hn'
    | some e => exact Bounded.append hstep rest

/-- Without failures the loop ends. -/
theorem forwardChunks_ok (search : String → String → Bool) (settings : StreamSettings)
    (hposts : ∀ n, around.postRaises n = none)
    (hrunner : around.runnerRaises = none) (chunks : List RunnerStreamChunk) (p : StreamProgress) :
    (forwardChunks search settings around chunks p).1 = none := by
  have hstep : ∀ (c : RunnerStreamChunk) (p : StreamProgress),
      (onStreamChunk search settings around c p).1 = none := by
    intro c p
    cases c with
    | final reply => rfl
    | delta delta =>
      unfold onStreamChunk onDelta
      dsimp only
      split_ifs
      · rfl
      · rfl
      · exact p.session.append_ok settings around hposts _
      · rfl
  induction chunks generalizing p with
  | nil => exact hrunner
  | cons c rest ih =>
    rw [forwardChunks]
    rcases hc : onStreamChunk search settings around c p with ⟨raised, p'⟩
    have hraised := hstep c p
    rw [hc] at hraised
    subst hraised
    exact ih p'

/-- At least 512 characters are held back. -/
theorem StreamSettings.le_holdbackChars (settings : StreamSettings) :
    512 ≤ settings.holdbackChars := by
  unfold StreamSettings.holdbackChars
  omega

/-- **What may be posted in all**: a beginning of the text that ends before all that is
found. -/
def PostedWithin (search : String → String → Bool) (settings : StreamSettings)
    (cs : List RunnerStreamChunk) (posted : Text) : Prop :=
  posted <+: joined cs
    ∧ ∀ start, FoundFrom search settings.holdbackChars cs start → posted.length ≤ start

theorem Bounded.within {posted : Text} (h : Bounded search settings cs posted) :
    PostedWithin search settings cs posted := by
  refine ⟨h.isPrefix, fun start hstart => ?_⟩
  rcases hstart with hdelta | ⟨rfl, -⟩
  · exact h.found start hdelta
  · exact h.held

/-- **The end of the stream**: what is posted is within bounds; and without failures it is
the whole text, or what precedes the first text in which something was found. -/
theorem HoldingBack.release (h : HoldingBack search settings cs p n) (around : StreamSurroundings) :
    PostedWithin search settings cs (releaseRest search settings around p).2.posts.flatten
      ∧ ((∀ k, around.postRaises k = none) →
        FoundFrom search settings.holdbackChars cs
            (releaseRest search settings around p).2.posts.flatten.length
          ∨ (releaseRest search settings around p).2.posts.flatten = joined cs) := by
  -- What a flush posts is what was handed over.
  have hflush : ∀ s : WeComStreamSession,
      (s.flush around).2.posts.flatten = s.handed := by
    intro s
    have hhanded := s.handed_flush around
    rw [WeComStreamSession.handed, s.pending_flush around, List.flatten_nil,
      List.append_nil] at hhanded
    exact hhanded
  unfold releaseRest
  dsimp only
  split_ifs with hrelease
  · -- Nothing was found: the rest is released.
    obtain ⟨-, hclean⟩ := hrelease
    rw [Bool.or_eq_true, not_or] at hclean
    obtain ⟨rfl, hnone⟩ := h.unblocked (Bool.eq_false_iff.mpr hclean.2)
    have hall : ∀ start, ¬ FoundFrom search settings.holdbackChars cs start := by
      rintro start (hdelta | ⟨rfl, hfound⟩)
      · exact hnone start hdelta
      · rw [← h.held] at hfound
        exact hclean.1 hfound
    have hhanded := p.session.handed_append settings around p.held
    rw [h.handed, h.held, List.take_append_drop, ← h.held] at hhanded
    rcases happended : p.session.append settings around p.held with ⟨raised, session⟩
    rw [happended] at hhanded
    cases raised with
    | none =>
      refine ⟨⟨?_, fun start hstart => absurd hstart (hall start)⟩, fun _ => .inr ?_⟩
      · rw [hflush, hhanded]
      · rw [hflush, hhanded]
    | some e =>
      refine ⟨⟨?_, fun start hstart => absurd hstart (hall start)⟩, fun hposts => ?_⟩
      · rw [← hhanded]
        exact List.prefix_append _ _
      · have hraised := p.session.append_ok settings around hposts p.held
        rw [happended] at hraised
        cases hraised
  · -- Nothing more is released.
    rw [hflush, h.handed]
    have hlength : ((joined cs).take n).length = n :=
      List.length_take_of_le (h.le.trans (Nat.sub_le _ _))
    refine ⟨⟨List.take_prefix _ _, fun start hstart => ?_⟩, fun _ => ?_⟩
    · rw [hlength]
      rcases hstart with hdelta | ⟨rfl, -⟩
      · cases hblocked : p.blocked with
        | false => exact absurd hdelta ((h.unblocked hblocked).2 start)
        | true => exact (h.blocked hblocked).2 start hdelta
      · exact h.le
    · rw [hlength]
      cases hblocked : p.blocked with
      | true => exact .inl (.inl (h.blocked hblocked).1)
      | false =>
        obtain ⟨rfl, -⟩ := h.unblocked hblocked
        rw [hblocked, Bool.or_false, not_and_or, not_not, not_not] at hrelease
        rcases hrelease with hempty | hfound
        · -- Nothing is held, so there is no text at all.
          have hheld := congrArg List.length (h.held.symm.trans (List.isEmpty_iff.mp hempty))
          have hpos := settings.le_holdbackChars
          rw [List.length_drop, List.length_nil] at hheld
          have hnil : joined cs = [] := List.length_eq_zero_iff.mp (by omega)
          rw [hnil]
          exact .inr List.take_nil
        · rw [h.held] at hfound
          exact .inl (.inr ⟨rfl, hfound⟩)

theorem holding_start (search : String → String → Bool) (settings : StreamSettings)
    (around : StreamSurroundings) :
    HoldingBack search settings [] ⟨.new around, [], false, none⟩ 0 := by
  refine ⟨List.drop_nil.symm, List.take_nil.symm, Nat.zero_le _,
    fun _ => ⟨(Nat.zero_sub _).symm, ?_⟩,
    fun hblocked => (nomatch hblocked)⟩
  rintro start ⟨before, c, hfront, -⟩
  exact absurd (List.prefix_nil.mp hfront) (List.append_ne_nil_of_right_ne_nil _ (by simp))

/-- **The posts of a stream.** -/
theorem posts_of_stream (search : String → String → Bool) (settings : StreamSettings)
    (around : StreamSurroundings) {responseUrl : String} (hurl : responseUrl ≠ "")
    (chunks : List RunnerStreamChunk) :
    PostedWithin search settings chunks
        (streamWecomDirectReply search settings around "single" responseUrl true
          chunks).2.flatten
      ∧ ((∀ k, around.postRaises k = none) → around.runnerRaises = none →
        FoundFrom search settings.holdbackChars chunks
            (streamWecomDirectReply search settings around "single" responseUrl true
              chunks).2.flatten.length
          ∨ (streamWecomDirectReply search settings around "single" responseUrl true
              chunks).2.flatten = joined chunks) := by
  have hgate : ¬ ("single" ≠ "single" ∨ responseUrl = "" ∨ ¬ (true = true)) := by
    simp [hurl]
  unfold streamWecomDirectReply
  rw [if_neg hgate]
  have hrun := (holding_start search settings around).run around chunks
  rw [List.nil_append] at hrun
  rcases hforward : forwardChunks search settings around chunks ⟨.new around, [], false, none⟩
    with ⟨raised, p⟩
  rw [hforward] at hrun
  cases raised with
  | some e =>
    refine ⟨hrun.within, fun hposts hrunner => ?_⟩
    have hok := forwardChunks_ok search settings hposts hrunner chunks
      ⟨.new around, [], false, none⟩
    rw [hforward] at hok
    cases hok
  | none =>
    obtain ⟨n, hn⟩ := hrun
    obtain ⟨hwithin, hexact⟩ := hn.release around
    dsimp only
    rcases hrelease : releaseRest search settings around p with ⟨raised, session⟩
    rw [hrelease] at hwithin hexact
    cases raised with
    | none => exact ⟨hwithin, fun hposts _ => hexact hposts⟩
    | some e => exact ⟨hwithin, fun hposts _ => hexact hposts⟩

end Released

/-! ## Secrets -/

/-- Nothing fails, and the clock stands still. -/
def undisturbed : StreamSurroundings := ⟨fun _ => 0, fun _ => none, none⟩

/-- **What is posted lies outside the secrets of a text**: it is a beginning of the text, and
no character of it belongs to a match of a secret rule. -/
def OutsideSecrets (T : CharTables) (text posted : Text) : Prop :=
  posted <+: text ∧ ∀ rule ∈ secretDetectionRules, ∀ pre s post, text = pre ++ s ++ post →
    rule.MatchesAt T pre s post →
    ∀ i < posted.length, ¬ (pre.length ≤ i ∧ i < pre.length + s.length)

/-- **Streamed replies are outside the secrets exactly when every secret is found in time**:
for every match in the text, some text that is scanned begins no later than the match and is
found to contain a secret. -/
theorem streamed_outside_secrets (T : CharTables) (settings : StreamSettings)
    (chattype responseUrl : String) (hasStream : Bool) (chunks : List RunnerStreamChunk) :
    (∀ around, OutsideSecrets T (RunnerStreamChunk.joined chunks)
        (streamWecomDirectReply (reSearch T) settings around chattype responseUrl hasStream
          chunks).2.flatten)
      ↔ (chattype ≠ "single" ∨ responseUrl = "" ∨ ¬ hasStream)
        ∨ ∀ rule ∈ secretDetectionRules, ∀ pre s post,
          RunnerStreamChunk.joined chunks = pre ++ s ++ post → s ≠ [] →
          rule.MatchesAt T pre s post →
          ∃ start ≤ pre.length, FoundFrom (reSearch T) settings.holdbackChars chunks start := by
  by_cases hgate : chattype ≠ "single" ∨ responseUrl = "" ∨ ¬ hasStream
  · refine iff_of_true (fun around => ?_) (.inl hgate)
    unfold streamWecomDirectReply
    rw [if_pos hgate]
    exact ⟨List.nil_prefix, fun _ _ _ _ _ _ _ i hi => absurd hi (Nat.not_lt_zero i)⟩
  · rw [or_iff_right hgate]
    simp only [not_or, not_not] at hgate
    obtain ⟨rfl, hurl, rfl⟩ := hgate
    constructor
    · intro hall rule hrule pre s post htext hs hmatch
      obtain ⟨-, hout⟩ := hall undisturbed
      rcases (posts_of_stream (reSearch T) settings undisturbed hurl chunks).2 (fun _ => rfl) rfl
        with hfound | hwhole
      · refine ⟨_, Nat.le_of_not_lt (fun hlt => ?_), hfound⟩
        exact hout rule hrule pre s post htext hmatch pre.length hlt
          ⟨Nat.le_refl _, Nat.lt_add_of_pos_right (List.length_pos_iff.mpr hs)⟩
      · have hlt : pre.length < pre.length + s.length :=
          Nat.lt_add_of_pos_right (List.length_pos_iff.mpr hs)
        refine absurd ⟨Nat.le_refl _, hlt⟩ (hout rule hrule pre s post htext hmatch pre.length ?_)
        rw [hwhole, htext, List.length_append, List.length_append]
        omega
    · intro hall around
      obtain ⟨hfront, hbound⟩ := (posts_of_stream (reSearch T) settings around hurl chunks).1
      refine ⟨hfront, ?_⟩
      rintro rule hrule pre s post htext hmatch i hi ⟨hlow, hhigh⟩
      have hs : s ≠ [] := by
        rintro rfl
        simp only [List.length_nil] at hhigh
        omega
      obtain ⟨start, hstart, hfound⟩ := hall rule hrule pre s post htext hs hmatch
      have := hbound start hfound
      omega

/-! ### A key at the beginning of a line -/

/-- A key after a line break. -/
def keyAfterLineBreak : Text := "\nsk-AAAAAAAAAAAAAAAAAAAA".toList

/-- **The key is posted**: the line break before it is escaped where it is looked for. -/
theorem key_after_lineBreak_posted :
    ¬ OutsideSecrets asciiTables keyAfterLineBreak
      (streamWecomDirectReply (reSearch asciiTables) {} undisturbed "single" "u" true
        [.delta keyAfterLineBreak]).2.flatten := by
  have hposted : (streamWecomDirectReply (reSearch asciiTables) {} undisturbed "single" "u" true
      [.delta keyAfterLineBreak]).2.flatten = keyAfterLineBreak := by
    decide +kernel
  have hmatch : ScanPatterns.assignedApiKey.regex.MatchesAt asciiTables false ['\n']
      (keyAfterLineBreak.drop 1) [] := by
    decide +kernel
  have hcompiled : reCompile "\\b(?:sk|rk|pk)-[A-Za-z0-9_-]\x7b20,\x7d\\b"
      = some ScanPatterns.assignedApiKey := by
    decide +kernel
  rw [hposted]
  rintro ⟨-, hout⟩
  refine hout ⟨"assigned-api-key", "\\b(?:sk|rk|pk)-[A-Za-z0-9_-]\x7b20,\x7d\\b", none⟩ ?_
    ['\n'] (keyAfterLineBreak.drop 1) [] rfl ⟨_, hcompiled, hmatch⟩ 1 ?_ ?_
  · exact List.mem_cons_of_mem _ (List.mem_cons_of_mem _ List.mem_cons_self)
  · decide
  · decide
