import Mathlib.Data.List.Infix
import Mathlib.Logic.Function.Basic
import Cowork.AnswerText

/-!
The formatter of a turn's stream: it reads the harness's events, sends the frames of the
Responses API, and hands what is to be stored to the sink of the turn. The frames are
numbered 1, 2, 3, …, and the last one's text is what frames and stored events rebuild.
-/
namespace Cowork.StreamFormatter
open JsonText List AnswerText

structure Progress where
  phase : Text
  message : Text
  etaSeconds : Value
  id : Text
  ok : Value

structure AskRequest where
  prompt : Text
  select : Value
  allowCustom : Value
  timeoutS : Value
  options : Value

inductive HarnessEvent where
  | textDelta (text : Text)
  | toolUseStart (id name : Text)
  | toolUseDelta (id jsonDelta : Text)
  | toolUseEnd (id : Text)
  | toolResult (id name action content : Text)
  | taskProgress (progress : Progress)
  | reasoningDelta (text : Text)
  | contextCompacted (message : Text)
  | artifactCreated (artifact : Value)
  | askUser (id : Text) (request : AskRequest)
  | askUserAnswered (id : Text) (status : Text) (values : Value) (text : Value)
  | turnHistory (rows : Items) (read : Option Items)
  | turnContext
  | skillCreated (skill : Value)
  | memoryRead (read : Bool) (entries : Value)
  | complete (stopReason : Text) (toolCalls : Bool)
  | turnEnded (endedBy : Option Text)
  | unknown

/-- The connection form that a `request_credentials` call returned. -/
structure RequestedForm where
  block : Text
  formId : Text

/-- What the turn is formatted with; `formBlocks` is the side panel's, `stamp` the clock at each frame. -/
structure Setting where
  respId : Text
  msgId : Text
  model : Text
  formBlocks : Bool
  stamp : Nat → Int
  requestedForm : Items → Option RequestedForm
  missingFormText : Text → RequestedForm → Text
  findAnswerSources : List HarnessEvent → Text → List (Text × Value)
  classifyCellStatus : Text → Text

abbrev Frame := EventType × Payload

structure State where
  seq : Nat := 0
  lastProgress : Int := 0
  collectedText : List Text := []
  roundBreak : Bool := false
  roundHadText : Bool := false
  textTail : Text := []
  supersededPending : Bool := false
  supersededStash : Text := []
  endedBy : Option Text := none
  toolJsonParts : Text → Option (List Text) := fun _ => none
  toolNames : Text → Option Text := fun _ => none
  progressToolIds : List Text := []
  toolRows : Items := .nil
  failureReply : Bool := false
  frames : List Frame := []
  recorded : List Frame := []

/-- `data["at_ms"] = int(time.time() * 1000)`, if it has none. -/
def stamped (time : Int) (data : Payload) : Payload := { data with atMs := some (data.atMs.getD time) }

/-- `seq += 1` and `yield _event(type, data)`: the frame goes to the sink and out. -/
def send (setting : Setting) (state : State) (data : Payload) : State :=
  let frame := (data.type,stamped (setting.stamp (state.seq + 1)) data)
  { state with
    seq := state.seq + 1, recorded := state.recorded ++ [frame], frames := state.frames ++ [frame] }

def word (key value : String) : Text × Value := (key.toList,.str value.toList)

def said (key : String) (text : Text) : Text × Value := (key.toList,.str text)

def held (key : String) (value : Value) : Text × Value := (key.toList,value)

def inProgress (state : State) (others : List (Text × Value)) : Payload :=
  { type := .inProgress, sequenceNumber := some (state.seq + 1), others := others }

/-- The characters that `str.strip` takes off. -/
def isSpace (c : Char) : Bool :=
  (9 ≤ c.toNat && c.toNat ≤ 13) || (28 ≤ c.toNat && c.toNat ≤ 32) || c.toNat = 133 || c.toNat = 160 ||
    c.toNat = 5760 || (8192 ≤ c.toNat && c.toNat ≤ 8202) || c.toNat = 8232 || c.toNat = 8233 || c.toNat = 8239 ||
    c.toNat = 8287 || c.toNat = 12288

/-- `bool(text.strip())`. -/
def visible (text : Text) : Bool := text.any fun c => !isSpace c

def antonFailureReply : Text := "An unexpected error occurred: ".toList

/-- `"\n\n"`. -/
def blankLine : Text := ['\n','\n']

def resetAnswer (setting : Setting) (state : State) : State :=
  let spent := { state with
    supersededPending := false, supersededStash := state.collectedText.flatten, collectedText := [],
    roundBreak := false, roundHadText := false, textTail := [] }
  send setting spent
    { type := .answerReset, sequenceNumber := some (state.seq + 1), itemId := some setting.msgId }

def paragraph (state : State) (text : Text) : Text :=
  if state.roundBreak && (!state.textTail.isEmpty && !decide (blankLine <:+ state.textTail)) then blankLine ++ text
  else text

def deltaFrame (setting : Setting) (state : State) (text : Text) : Payload :=
  { type := .outputTextDelta, sequenceNumber := some (state.seq + 1), itemId := some setting.msgId,
    delta := some (.str text) }

def appendText (setting : Setting) (state : State) (text : Text) : State :=
  send setting { state with collectedText := state.collectedText ++ [text] } (deltaFrame setting state text)

/-- `(text_tail + text)[-2:]`. -/
def lastTwo (text : Text) : Text := text.drop (text.length - 2)

def onTextDelta (setting : Setting) (state : State) (delta : Text) : State :=
  let judged := if visible delta then { state with failureReply := decide (antonFailureReply <+: delta) } else state
  let opened := if judged.supersededPending && visible delta then resetAnswer setting judged else judged
  let text := paragraph opened delta
  appendText setting
    { opened with
      roundBreak := false, roundHadText := opened.roundHadText || !delta.isEmpty,
      textTail := lastTwo (opened.textTail ++ text) } text

def toolRole (name : Text) (scratchpad memorize remember : String) : Text :=
  if "scratchpad".toList <:+: name then scratchpad.toList
  else if "memorize".toList <:+: name then memorize.toList
  else if "recall".toList <:+: name then remember.toList
  else "thought.progress".toList

def onToolUseStart (setting : Setting) (state : State) (id name : Text) : State :=
  let role := toolRole name "thought.scratchpad.start" "thought.memorize.start" "thought.recall.start"
  send setting
    { state with
      toolNames := Function.update state.toolNames id (some name),
      toolJsonParts := Function.update state.toolJsonParts id (some []) }
    (inProgress state [said "thought_role" role,said "content" name,said "tool_use_id" id])

def onToolUseDelta (state : State) (id jsonDelta : Text) : State :=
  match state.toolJsonParts id with
  | some parts => { state with toolJsonParts := Function.update state.toolJsonParts id (some (parts ++ [jsonDelta])) }
  | none => state

def onToolUseEnd (setting : Setting) (state : State) (id : Text) : State :=
  let name := (state.toolNames id).getD []
  let accumulated := ((state.toolJsonParts id).getD []).flatten
  let role := toolRole name "thought.scratchpad.end" "thought.memorize.end" "thought.recall.end"
  let content := if name = "scratchpad".toList then accumulated else accumulated.take 65536
  send setting { state with toolJsonParts := Function.update state.toolJsonParts id none }
    (inProgress state [said "thought_role" role,said "content" content,said "tool_use_id" id])

def onToolResult (setting : Setting) (state : State) (id name action content : Text) : State :=
  if action = "message".toList ∧ name ≠ "scratchpad".toList then
    send setting state (inProgress state
      [word "thought_role" "thought.tool_call.message",said "content" (content.take 65536),said "tool_name" name,
        said "tool_use_id" id])
  else
    send setting state (inProgress state
      [word "thought_role" "thought.scratchpad.result",said "content" (content.take 65536),said "tool_name" name,
        said "tool_action" action,said "tool_use_id" id,
        said "cell_status" (setting.classifyCellStatus content)])

def phaseLabels : List (Text × Text) :=
  [("planning".toList,"Planning".toList),("analyzing".toList,"Analyzing".toList),
    ("executing".toList,"Executing".toList),("scratchpad".toList,"Running code".toList),
    ("scratchpad_start".toList,"Running code".toList),("scratchpad_done".toList,"Code complete".toList),
    ("connect_datasource".toList,"Connecting".toList),("interactive".toList,"Interactive".toList),
    ("context".toList,"Context".toList),("rate_limited".toList,"Rate limited".toList),
    ("skill_draft_dropped".toList,"Skill draft".toList),("continuation".toList,"Continuing".toList),
    ("handback".toList,"Wrapping up".toList)]

/-- `PROGRESS_THROTTLE`, in milliseconds. -/
def progressThrottle : Int := 250

/-- `label: message`, or the label alone. -/
def labelled (label message : Text) : Text := if message.isEmpty then label else label ++ [':',' '] ++ message

/-- `model_wait_sse`: a frame with a number that does not go to the sink. -/
def sendModelWait (setting : Setting) (state : State) (progress : Progress) : State :=
  let data := stamped (setting.stamp (state.seq + 1)) (inProgress state
    [word "thought_role" "thought.progress",said "content" (labelled "Still working".toList progress.message),
      word "phase" "model_wait",said "message" progress.message,held "eta_seconds" progress.etaSeconds,
      word "tool_use_id" ""])
  { state with seq := state.seq + 1, frames := state.frames ++ [(.inProgress,data)] }

def restoreFrame (setting : Setting) (state : State) : Payload :=
  { type := .answerRestore, sequenceNumber := some (state.seq + 1), itemId := some setting.msgId,
    text := some (.str state.supersededStash) }

def handBack (setting : Setting) (state : State) : State :=
  let kept := { state with supersededPending := false }
  if state.supersededStash.isEmpty then kept
  else
    let restored := send setting { kept with collectedText := state.supersededStash :: state.collectedText }
      (restoreFrame setting state)
    { restored with supersededStash := [] }

/-- What the phases `continuation` and `handback` mean for the answer. -/
def latchBoundary (setting : Setting) (state : State) (phase : Text) : State :=
  if phase = "continuation".toList then { state with supersededPending := true }
  else if phase = "handback".toList then handBack setting state
  else state

def neverThrottle (state : State) (progress : Progress) : Bool :=
  progress.phase = "scratchpad_start".toList || progress.phase = "scratchpad_done".toList ||
    (progress.phase = "tool_done".toList && decide (progress.id ∈ state.progressToolIds)) ||
    progress.phase = "tool_progress".toList || progress.phase = "rate_limited".toList ||
    progress.phase = "skill_draft_dropped".toList

def sendProgress (setting : Setting) (state : State) (progress : Progress) : State :=
  if progress.phase = "tool_progress".toList then
    send setting state (inProgress state
      [word "thought_role" "thought.tool_call.progress",said "content" progress.message,
        said "tool_name" ((state.toolNames progress.id).getD []),said "tool_use_id" progress.id])
  else if progress.phase = "tool_done".toList ∧ progress.id ∈ state.progressToolIds then
    let ended := send setting state (inProgress state
      [word "thought_role" "thought.tool_call.end",said "tool_use_id" progress.id,
        held "eta_seconds" progress.etaSeconds,held "ok" progress.ok])
    { ended with
      progressToolIds := ended.progressToolIds.filter fun id => !decide (id = progress.id),
      toolNames := Function.update ended.toolNames progress.id none }
  else
    let label := (phaseLabels.lookup progress.phase).getD progress.phase
    send setting state (inProgress state
      [word "thought_role" "thought.progress",said "content" (labelled label progress.message),
        said "phase" progress.phase,said "message" progress.message,held "eta_seconds" progress.etaSeconds,
        said "tool_use_id" progress.id])

def relayProgress (setting : Setting) (state : State) (progress : Progress) (now : Int) : State :=
  if progress.phase = "tool_progress".toList ∧ progress.id.isEmpty then state
  else
    let known :=
      if progress.phase = "tool_progress".toList then
        { state with progressToolIds := progress.id :: state.progressToolIds }
      else state
    if neverThrottle known progress then sendProgress setting known progress
    else if progressThrottle ≤ now - known.lastProgress then
      sendProgress setting { known with lastProgress := now } progress
    else known

def onTaskProgress (setting : Setting) (state : State) (progress : Progress) (now : Int) : State :=
  if progress.phase = "model_wait".toList then sendModelWait setting state progress
  else relayProgress setting (latchBoundary setting state progress.phase) progress now

def onTurnHistory (state : State) (rows : Items) (read : Option Items) : State :=
  { state with
    toolRows := read.getD rows,
    recorded := state.recorded ++
      [(.turnHistory,{ type := .turnHistory, sequenceNumber := none, others := [held "rows" (.arr rows)] })] }

def onComplete (state : State) (stopReason : Text) (toolCalls : Bool) : State :=
  let truncated := decide (stopReason ∈ ["max_tokens".toList,"length".toList]) && !toolCalls
  { state with
    roundBreak := if !truncated then true else if state.roundHadText then false else state.roundBreak,
    roundHadText := false }

def onEvent (setting : Setting) (state : State) (arrival : HarnessEvent × Int) : State :=
  match arrival.1 with
  | .textDelta text => onTextDelta setting state text
  | .toolUseStart id name => onToolUseStart setting state id name
  | .toolUseDelta id jsonDelta => onToolUseDelta state id jsonDelta
  | .toolUseEnd id => onToolUseEnd setting state id
  | .toolResult id name action content => onToolResult setting state id name action content
  | .taskProgress progress => onTaskProgress setting state progress arrival.2
  | .reasoningDelta text => send setting state (inProgress state
      [word "thought_role" "thought.progress",said "content" text,word "subtype" "reasoning"])
  | .contextCompacted message => send setting state (inProgress state
      [word "thought_role" "thought.context_compacted",said "content" message])
  | .artifactCreated artifact => send setting state
      { type := .artifactCreated, sequenceNumber := some (state.seq + 1), others := [held "artifact" artifact] }
  | .askUser id request => send setting state
      { type := .askUser, sequenceNumber := some (state.seq + 1),
        others := [said "question_id" id,said "prompt" request.prompt,held "select" request.select,
          held "allow_custom" request.allowCustom,held "timeout_s" request.timeoutS,held "options" request.options] }
  | .askUserAnswered id status values text => send setting state
      { type := .askUserAnswered, sequenceNumber := some (state.seq + 1), text := some text,
        others := [said "question_id" id,said "status" status,held "values" values] }
  | .turnHistory rows read => onTurnHistory state rows read
  | .turnContext => state
  | .skillCreated skill => send setting state
      { type := .skillCreated, sequenceNumber := some (state.seq + 1), others := [held "skill" skill] }
  | .memoryRead read entries => send setting state
      { type := .memoryRead, sequenceNumber := some (state.seq + 1),
        others := [held "read" (.bool read),held "entries" entries] }
  | .complete stopReason toolCalls => onComplete state stopReason toolCalls
  | .turnEnded endedBy => { state with endedBy := endedBy }
  | .unknown => state

/-- The stream starts with `response.created`. -/
def start (setting : Setting) : State :=
  send setting {}
    { type := .created, sequenceNumber := some 1, response := some ⟨setting.respId,setting.model,.created,none,[]⟩ }

def addForm (setting : Setting) (state : State) : State :=
  let form := if setting.formBlocks && !state.failureReply then setting.requestedForm state.toolRows else none
  let added := match form with
    | some form => setting.missingFormText state.collectedText.flatten form
    | none => []
  if added.isEmpty then state else appendText setting state added

def addSources (setting : Setting) (events : List HarnessEvent) (state : State) : State :=
  let sources :=
    if state.failureReply then [] else setting.findAnswerSources events state.collectedText.flatten
  if sources.isEmpty then state
  else send setting state
    { type := .figureSources, sequenceNumber := some (state.seq + 1), itemId := some setting.msgId, others := sources }

/-- The stream ends with `response.completed`. -/
def complete (setting : Setting) (state : State) : State :=
  -- an empty reason counts as none
  let reason := state.endedBy.filter fun reason => !reason.isEmpty
  send setting state
    { type := .completed, sequenceNumber := some (state.seq + 1),
      response := some
        ⟨setting.respId,setting.model,if reason.isSome then .incomplete else .completed,reason,
          [⟨setting.msgId,.completed,[state.collectedText.flatten]⟩]⟩ }

def runEvents (setting : Setting) (events : List (HarnessEvent × Int)) : State :=
  events.foldl (onEvent setting) (start setting)

def formatResponsesStream (setting : Setting) (events : List (HarnessEvent × Int)) : State :=
  complete setting (addSources setting (events.map Prod.fst) (addForm setting (runEvents setting events)))

def collectedEvents (recorded : List Frame) : List Payload :=
  (recorded.filter fun frame => frame.1 ≠ .turnHistory).map Prod.snd

/-- The events of a turn as `save_assistant_turn` stores them. -/
def storedEvents (state : State) : List Payload := coalesceTextDeltas (collectedEvents state.recorded)

/-- The text that a `response.completed` carries. -/
def completedText (frame : Frame) : Option Text :=
  (frame.2.response.bind fun response => response.output.head?).map fun output => output.content.flatten

def silent : EventType → Bool
  | .outputTextDelta | .answerReset | .answerRestore | .turnHistory | .completed => false
  | _ => true

def Moves (data : Payload) (before after : Text) : Prop :=
  ∀ collected, joined collected = some before → joined (accumulateAnswerText collected data.type data) = some after

variable {data : Payload} {before after : Text} {state : State}

theorem moves_silent (quiet : silent data.type = true ∨ data.type = .completed) (text : Text) : Moves data text text := by
  intro collected same
  cases known : data.type <;> simp_all [silent,accumulateAnswerText]

theorem answer_sent {events : List Frame} (time : Int) (rebuilt : answer events = some before)
    (moves : Moves data before after) : answer (events ++ [(data.type,stamped time data)]) = some after := by
  rw [answer,collect_append,collect_cons]
  exact moves _ rebuilt

@[simp] theorem collectedEvents_append (front rest : List Frame) :
    collectedEvents (front ++ rest) = collectedEvents front ++ collectedEvents rest := by simp [collectedEvents]

/-- Both consumers have rebuilt the answer's text so far, the frames are numbered from 1 on, and none completes the
    response. -/
structure Rebuilds (state : State) (text : Text) : Prop where
  live : answer state.frames = some text
  kept : answer (announced (collectedEvents state.recorded)) = some text
  numbered : state.frames.map (fun frame => frame.2.sequenceNumber) = (List.range' 1 state.seq).map some
  unfinished : ∀ frame ∈ state.frames, frame.1 ≠ .completed

def Sound (state : State) : Prop := Rebuilds state state.collectedText.flatten

structure Alike (next state : State) : Prop where
  seq : next.seq = state.seq := by rfl
  frames : next.frames = state.frames := by rfl
  recorded : next.recorded = state.recorded := by rfl

theorem Rebuilds.alike {text : Text} (sound : Rebuilds state text) {next : State} (same : Alike next state) :
    Rebuilds next text := by
  constructor
  · rw [same.frames]; exact sound.live
  · rw [same.recorded]; exact sound.kept
  · rw [same.frames,same.seq]; exact sound.numbered
  · rw [same.frames]; exact sound.unfinished

theorem numbered_sent {frames : List Frame} {seq : Nat} {frame : Frame}
    (numbered : frames.map (fun frame => frame.2.sequenceNumber) = (List.range' 1 seq).map some)
    (next : frame.2.sequenceNumber = some (seq + 1)) :
    (frames ++ [frame]).map (fun frame => frame.2.sequenceNumber) = (List.range' 1 (seq + 1)).map some := by
  rw [map_append,numbered,List.range'_concat]
  simp [next,Nat.add_comm]

theorem kept_sent {recorded : List Frame} (time : Int)
    (kept : answer (announced (collectedEvents recorded)) = some before) (stored : data.type ≠ .turnHistory)
    (moves : Moves data before after) :
    answer (announced (collectedEvents (recorded ++ [(data.type,stamped time data)]))) = some after := by
  have alone : collectedEvents [(data.type,stamped time data)] = [stamped time data] := by
    simp [collectedEvents,stored]
  rw [collectedEvents_append,alone,announced_append]
  exact answer_sent time kept moves

theorem Rebuilds.send (sound : Rebuilds state before) (setting : Setting) (data : Payload)
    (number : data.sequenceNumber = some (state.seq + 1)) (going : data.type ≠ .turnHistory ∧ data.type ≠ .completed)
    (moves : Moves data before after) : Rebuilds (send setting state data) after := by
  constructor
  · exact answer_sent _ sound.live moves
  · exact kept_sent _ sound.kept going.1 moves
  · exact numbered_sent sound.numbered number
  · exact forall_mem_append.mpr ⟨sound.unfinished,forall_mem_singleton.mpr going.2⟩

theorem Rebuilds.silent {text : Text} (sound : Rebuilds state text) (setting : Setting) (data : Payload)
    (number : data.sequenceNumber = some (state.seq + 1)) (quiet : silent data.type = true) :
    Rebuilds (StreamFormatter.send setting state data) text := by
  refine sound.send setting data number ⟨?_,?_⟩ (moves_silent (.inl quiet) text)
  all_goals intro same; simp [StreamFormatter.silent,same] at quiet

section
variable (setting : Setting)
include setting

theorem moves_delta (state : State) (text added : Text) :
    Moves (deltaFrame setting state added) text (text ++ added) := by
  intro collected same
  simp only [deltaFrame,accumulateAnswerText,joined_append,same]
  simp [orEmpty,joined]

section
variable (sound : Sound state)
include sound

theorem appendText_sound (text : Text) : Sound (appendText setting state text) := by
  have alike : Alike { state with collectedText := state.collectedText ++ [text] } state := ⟨rfl,rfl,rfl⟩
  have shown := (sound.alike alike).send setting (deltaFrame setting state text) rfl (by simp [deltaFrame])
    (moves_delta setting state _ text)
  simpa [Sound,appendText,StreamFormatter.send] using shown

theorem resetAnswer_sound : Sound (resetAnswer setting state) := by
  refine Rebuilds.send (sound.alike (by exact ⟨rfl,rfl,rfl⟩)) setting _ rfl ⟨nofun,nofun⟩ ?_
  intro collected _
  rfl

theorem onTextDelta_sound (delta : Text) : Sound (onTextDelta setting state delta) := by
  unfold onTextDelta
  extract_lets judged opened text
  have judgedSound : Sound judged := by
    unfold judged
    split
    · exact sound.alike (by exact ⟨rfl,rfl,rfl⟩)
    · exact sound
  have openedSound : Sound opened := by
    unfold opened
    split
    · exact resetAnswer_sound setting judgedSound
    · exact judgedSound
  apply appendText_sound
  exact openedSound.alike (by exact ⟨rfl,rfl,rfl⟩)

theorem handBack_sound : Sound (handBack setting state) := by
  unfold handBack
  split
  · exact sound.alike (by exact ⟨rfl,rfl,rfl⟩)
  · have alike : Alike { state with
      supersededPending := false, collectedText := state.supersededStash :: state.collectedText } state := ⟨rfl,rfl,rfl⟩
    refine Rebuilds.alike (Rebuilds.send (sound.alike alike) setting (restoreFrame setting state) rfl ⟨?_,?_⟩ ?_)
      (by exact ⟨rfl,rfl,rfl⟩)
    · simp [restoreFrame]
    · simp [restoreFrame]
    · intro collected same
      simp [restoreFrame,accumulateAnswerText,orEmpty,same,send]

theorem latchBoundary_sound (phase : Text) : Sound (latchBoundary setting state phase) := by
  unfold latchBoundary
  split
  · exact sound.alike (by exact ⟨rfl,rfl,rfl⟩)
  · split
    · exact handBack_sound setting sound
    · exact sound

theorem sendProgress_sound (progress : Progress) :
    Sound (sendProgress setting state progress) := by
  unfold sendProgress
  split
  · exact sound.silent setting _ rfl rfl
  · split
    · exact (sound.silent setting _ rfl rfl).alike (by exact ⟨rfl,rfl,rfl⟩)
    · exact sound.silent setting _ rfl rfl

theorem relayProgress_sound (progress : Progress) (now : Int) :
    Sound (relayProgress setting state progress now) := by
  unfold relayProgress
  split
  · exact sound
  · extract_lets known
    have knownSound : Sound known := by
      unfold known
      split
      · exact sound.alike (by exact ⟨rfl,rfl,rfl⟩)
      · exact sound
    split
    · exact sendProgress_sound setting knownSound progress
    · split
      · apply sendProgress_sound
        exact knownSound.alike (by exact ⟨rfl,rfl,rfl⟩)
      · exact knownSound

theorem sendModelWait_sound (progress : Progress) :
    Sound (sendModelWait setting state progress) where
  live := by
    have shown (others : List (Text × Value)) := answer_sent (setting.stamp (state.seq + 1)) sound.live
      (moves_silent (.inl rfl : silent (inProgress state others).type = true ∨ _) _)
    exact shown _
  kept := sound.kept
  numbered := numbered_sent sound.numbered rfl
  unfinished := forall_mem_append.mpr ⟨sound.unfinished,forall_mem_singleton.mpr nofun⟩

theorem onTaskProgress_sound (progress : Progress) (now : Int) :
    Sound (onTaskProgress setting state progress now) := by
  unfold onTaskProgress
  split
  · exact sendModelWait_sound setting sound progress
  · exact relayProgress_sound setting (latchBoundary_sound setting sound progress.phase) progress now

end

end

theorem onTurnHistory_sound (sound : Sound state) (rows : Items) (read : Option Items) :
    Sound (onTurnHistory state rows read) where
  live := sound.live
  kept := by simpa [onTurnHistory,collectedEvents] using sound.kept
  numbered := sound.numbered
  unfinished := sound.unfinished

theorem onToolUseDelta_sound (sound : Sound state) (id jsonDelta : Text) : Sound (onToolUseDelta state id jsonDelta) := by
  unfold onToolUseDelta
  split
  · exact sound.alike (by exact ⟨rfl,rfl,rfl⟩)
  · exact sound

section
variable (setting : Setting)
include setting

theorem onToolResult_sound (sound : Sound state) (id name action content : Text) :
    Sound (onToolResult setting state id name action content) := by
  unfold onToolResult
  split
  all_goals exact sound.silent setting _ rfl rfl

theorem onEvent_sound (sound : Sound state) (arrival : HarnessEvent × Int) : Sound (onEvent setting state arrival) := by
  obtain ⟨event,now⟩ := arrival
  cases event with
  | textDelta text => exact onTextDelta_sound setting sound text
  | toolUseStart id name => exact Rebuilds.silent (sound.alike (by exact ⟨rfl,rfl,rfl⟩)) setting _ rfl rfl
  | toolUseDelta id jsonDelta => exact onToolUseDelta_sound sound id jsonDelta
  | toolUseEnd id => exact Rebuilds.silent (sound.alike (by exact ⟨rfl,rfl,rfl⟩)) setting _ rfl rfl
  | toolResult id name action content => exact onToolResult_sound setting sound id name action content
  | taskProgress progress => exact onTaskProgress_sound setting sound progress now
  | turnHistory rows read => exact onTurnHistory_sound sound rows read
  | turnContext => exact sound
  | complete stopReason toolCalls | turnEnded endedBy => exact sound.alike (by exact ⟨rfl,rfl,rfl⟩)
  | unknown => exact sound
  | reasoningDelta _ | contextCompacted _ | artifactCreated _ | askUser _ _ | askUserAnswered _ _ _ _ | skillCreated _
  | memoryRead _ _ => exact sound.silent setting _ rfl rfl

theorem start_sound : Sound (start setting) where
  live := rfl
  kept := rfl
  numbered := rfl
  unfinished := by simp [start,StreamFormatter.send]

theorem runEvents_sound (events : List (HarnessEvent × Int)) : Sound (runEvents setting events) := by
  unfold runEvents
  have sound := start_sound setting
  generalize start setting = state at sound
  induction events generalizing state with
  | nil => exact sound
  | cons arrival rest tail => exact tail (onEvent setting state arrival) (onEvent_sound setting sound arrival)

theorem addForm_sound (sound : Sound state) : Sound (addForm setting state) := by
  unfold addForm
  extract_lets form added
  split
  · exact sound
  · exact appendText_sound setting sound added

theorem addSources_sound (events : List HarnessEvent) (sound : Sound state) :
    Sound (addSources setting events state) := by
  unfold addSources
  extract_lets sources
  split
  · exact sound
  · exact sound.silent setting _ rfl rfl

end

/-- The frames end with the one `response.completed`, are numbered 1, 2, 3, …, and give, as stored too, the text that
    the last frame carries. -/
theorem consumers_rebuild_the_answer (setting : Setting) (events : List (HarnessEvent × Int)) :
    ∃ front last text, (formatResponsesStream setting events).frames = front ++ [last] ∧
      last.1 = .completed ∧ (∀ frame ∈ front, frame.1 ≠ .completed) ∧
      completedText last = some text ∧
      answer (formatResponsesStream setting events).frames = some text ∧
      answer (announced (storedEvents (formatResponsesStream setting events))) = some text ∧
      (formatResponsesStream setting events).frames.map (fun frame => frame.2.sequenceNumber) =
        (List.range' 1 (formatResponsesStream setting events).frames.length).map some := by
  have sound := addSources_sound setting (events.map Prod.fst) (addForm_sound setting (runEvents_sound setting events))
  unfold formatResponsesStream
  generalize addSources setting (events.map Prod.fst) (addForm setting (runEvents setting events)) = state at sound
  have numbered : (complete setting state).frames.map (fun frame => frame.2.sequenceNumber) =
      (List.range' 1 (state.seq + 1)).map some := numbered_sent sound.numbered rfl
  have count : (complete setting state).frames.length = state.seq + 1 := by simpa using congrArg List.length numbered
  refine ⟨state.frames,_,state.collectedText.flatten,rfl,rfl,sound.unfinished,?_,?_,?_,?_⟩
  · simp [completedText,stamped]
  · exact answer_sent _ sound.live (moves_silent (.inr rfl) _)
  · rw [storedEvents,answer_coalesced]
    exact kept_sent _ sound.kept (by nofun) (moves_silent (.inr rfl) _)
  · rw [count,numbered]

end Cowork.StreamFormatter
