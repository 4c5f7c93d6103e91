import Cowork.Coroutines
import Cowork.StreamRecords

/-!
The producers of a turn: `_run_turn` in the process, `_run_remote_turn` over a pod's
replies, and `_produce_direct` for an answer that exists up front. Each saves the turn
in units of database work and writes its frames and its end to the buffer, the end under
`run_to_completion`. Beside it the ticker of `liveness.py` and the pump of
`first_take.py` append frames. A delete of the turn goes on meanwhile: it commits the
cut of the history, discards the turn's handle, and deletes the buffers it found.
-/
namespace Cowork.TurnProducers
open Coroutines
open StreamRecords (TerminalReason)

/-- A record of the buffer: a frame of the answer, a `response.completed` or `response.failed` frame with the saved
    row's id, or the terminal record. -/
inductive Record where
  | frame
  | completed (messageId : Option Nat)
  | failed (messageId : Option Nat)
  | terminal (reason : TerminalReason)
deriving DecidableEq

inductive Save where
  | question
  | answer
deriving DecidableEq

inductive Row where
  | question
  | answer (messageId : Nat)
deriving DecidableEq

/-- How far `delete_turn` has come. -/
inductive Stage where
  | idle
  | cut
  | discarded
  | scanned (found : Bool)
  | removed
deriving DecidableEq

/-- A save that outlived its wait in `_saved_by`. -/
inductive Background where
  | none
  | waiting
  | running
deriving DecidableEq

/-- The turn. `loose` are commands of cancelled writes and of the other writers that have not reached the stream. From `answers` on, what
    happened: a save left behind at its deadline, a completed frame held, a cancellation in an ending's writes, a unit
    or a write at work, a delete that met it. -/
structure Turn where
  redis : Bool
  stalled : Bool
  timedOut : Bool
  shuttingDown : Bool
  frameDeadline : Bool
  stage : Stage
  stream : List Record
  loose : List Record
  closed : Bool
  saved : Bool
  persisted : Bool
  rows : List Row
  background : Background
  answers : List Nat
  failed : List Save
  leftBehind : Bool
  held : Bool
  endingCut : Bool
  unitOpen : Bool
  busy : Bool
  raced : Bool

def begin (redis : Bool) : Turn where
  redis := redis
  stalled := false
  timedOut := false
  shuttingDown := false
  frameDeadline := false
  stage := .idle
  stream := []
  loose := []
  closed := false
  saved := false
  persisted := false
  rows := []
  background := .none
  answers := []
  failed := []
  leftBehind := false
  held := false
  endingCut := false
  unitOpen := false
  busy := false
  raced := false

namespace Turn

/-- `lifecycle.discarded` -/
def discarded (turn : Turn) : Bool :=
  match turn.stage with
  | .idle | .cut => false
  | .discarded | .scanned _ | .removed => true

def write (turn : Turn) (record : Record) : Turn := { turn with stream := turn.stream ++ [record] }

def saveQuestion (turn : Turn) : Turn := { turn with saved := true, rows := turn.rows ++ [.question] }

/-- `_save_answer` has committed; an empty turn saves no row. -/
def saveAnswer (turn : Turn) (messageId : Option Nat) : Turn :=
  { turn with rows := turn.rows ++ messageId.toList.map .answer, answers := turn.answers ++ messageId.toList }

def failSave (turn : Turn) (save : Save) : Turn := { turn with failed := turn.failed ++ [save] }

/-- A unit has a connection and finds the turn alive. It meets the delete that has committed its cut and not yet set
    the flag. -/
def openUnit (turn : Turn) : Turn := { turn with unitOpen := true, raced := turn.raced || turn.stage = .cut }

/-- The next step of `delete_turn`: its commit, `registry.discard`, and the two commands of `_remove_redis_buffers`.
    The commit meets a running unit, the discard a write. -/
def delete (turn : Turn) : Turn :=
  match turn.stage with
  | .idle =>
    { turn with stage := .cut, rows := [], raced := turn.raced || turn.unitOpen || turn.background = .running }
  | .cut => { turn with stage := .discarded, raced := turn.raced || turn.busy || !turn.loose.isEmpty }
  | .discarded => { turn with stage := .scanned !turn.stream.isEmpty }
  | .scanned found => { turn with stage := .removed, stream := if found then [] else turn.stream }
  | .removed => turn

end Turn

/-- What a producer waits for: the steps of a unit, an executed write, its source's frames, a pod's report of a Stop,
    the workspace's staging, the sources of figures, or the deadline of `_saved_by`. -/
inductive Answer where
  | begins
  | commits (messageId : Option Nat)
  | fails
  | written
  | frame (completed : Bool)
  | exhausted
  | raises
  | stopped (stalled : Bool)
  | staged
  | sources (found : Bool)
  | deadline
deriving DecidableEq

inductive Late where
  | begins
  | commits (messageId : Option Nat)
  | fails

/-- What changes the turn from outside, with the other writers, the fate of commands on their way and the saves in the
    background. -/
inductive Event where
  | stall (stalled : Bool)
  | timeOut
  | shutDown (deadline : Bool)
  | delete
  | land (i : Nat)
  | lose (i : Nat)
  | late (late : Late)
  | beside

/-- A frame of the ticker or of the pump, which look only at `buffer.is_closed`. -/
def Turn.writeBeside (turn : Turn) : Turn :=
  if turn.closed then turn
  else if turn.redis then { turn with loose := turn.loose ++ [.frame], raced := turn.raced || turn.discarded }
  else { turn.write .frame with raced := turn.raced || turn.discarded }

def Turn.late (turn : Turn) : Late → Turn
  | .begins =>
    if turn.background = .waiting then
      if turn.discarded then { turn with background := .none }
      else { turn with background := .running, raced := turn.raced || turn.stage = .cut }
    else turn
  | .commits messageId =>
    if turn.background = .running then { turn.saveAnswer messageId with background := .none } else turn
  | .fails => if turn.background = .none then turn else { turn.failSave .answer with background := .none }

def outside : Event → Turn → Turn
  | .stall stalled,turn => { turn with stalled := stalled }
  | .timeOut,turn => { turn with timedOut := true }
  | .shutDown deadline,turn => { turn with shuttingDown := true, frameDeadline := turn.frameDeadline || deadline }
  | .delete,turn => turn.delete
  | .land i,turn =>
    match turn.loose[i]? with
    | some record => { turn.write record with loose := turn.loose.eraseIdx i }
    | none => turn
  | .lose i,turn => { turn with loose := turn.loose.eraseIdx i }
  | .late late,turn => turn.late late
  | .beside,turn => turn.writeBeside

abbrev Work (α : Type) : Type := Coro Turn Answer Event α

/-- What `persist` returns: the saved row's id, and whether the save failed. -/
structure Saved where
  messageId : Option Nat
  failed : Bool

/-- The wait of `run_db` for a connection. The unit looks at the flag first; a `bounded` wait goes on in the
    background past its deadline. -/
def beginUnit (bounded : Bool) (save : Save) : Work Bool :=
  wait outside
    (fun turn answer =>
      match answer with
      | .begins => if turn.discarded then some (.returned false,turn) else some (.returned true,turn.openUnit)
      | .fails => some (.raised,turn.failSave save)
      | .deadline =>
        if bounded then some (.returned false,{ turn with background := .waiting, leftBehind := true }) else none
      | _ => none)
    id

def commitUnit (bounded : Bool) (save : Save) (write : Option Nat → Turn → Turn) : Work (Option (Option Nat)) :=
  wait outside
    (fun turn answer =>
      match answer with
      | .commits messageId => some (.returned (some messageId),write messageId { turn with unitOpen := false })
      | .fails => some (.raised,{ turn.failSave save with unitOpen := false })
      | .deadline =>
        if bounded then
          some (.returned none,{ turn with background := .running, leftBehind := true, unitOpen := false })
        else none
      | _ => none)
    id

def unit (bounded : Bool) (save : Save) (write : Option Nat → Turn → Turn) : Work (Option (Option Nat)) := do
  let runs ← beginUnit bounded save
  if runs then commitUnit bounded save write else ret none

def Record.ends : Record → Bool
  | .frame => false
  | .completed _ | .failed _ | .terminal _ => true

/-- `buffer.append`. The file buffer does not wait; a Redis command may be executed after its caller was cancelled. -/
def append (record : Record) : Work Unit := do
  let redis ← look (·.redis)
  if redis then
    wait outside
      (fun turn answer => if answer = .written then some (.returned (),turn.write record) else none)
      (fun turn => { turn with
        loose := turn.loose ++ [record], endingCut := turn.endingCut || record.ends, busy := false })
  else change fun turn => if turn.closed then turn else turn.write record

def writeTerminal (reason : TerminalReason) : Work Unit := do
  append (.terminal reason)
  change fun turn => { turn with closed := true }

/-- `buffer.close`. -/
def close (reason : TerminalReason) : Work Unit := do
  let closed ← look (·.closed)
  if closed then ret ()
  else writeTerminal reason

def writing (body : Work Unit) : Work Unit := do
  change fun turn => { turn with busy := true }
  body
  change fun turn => { turn with busy := false }

def writingUnchecked (body : Work Unit) : Work Unit := do
  change fun turn => { turn with raced := turn.raced || turn.discarded }
  writing body

/-- `start`: the unit that saves the question. -/
def start : Work Bool := do
  let committed ← unit false .question fun _ turn => turn.saveQuestion
  ret committed.isSome

/-- `persist`: save the answer as it stands, once per turn. -/
def persist (bounded : Bool) : Work Saved := do
  let skip ← look fun turn => turn.persisted || !turn.saved
  if skip then ret ⟨none,false⟩
  else do
    change fun turn => { turn with persisted := true }
    handle
      (do
        let committed ← unit bounded .answer fun messageId turn => turn.saveAnswer messageId
        ret ⟨committed.getD none,false⟩)
      (ret ⟨none,true⟩)
      stop

/-- `finish`: save the answer, then write the frame that reports it and the end. -/
def finish (held : Bool) : Work Unit := do
  let saved ← persist false
  let discarded ← look (·.discarded)
  if discarded then ret ()
  else if saved.failed then
    writing do
      append (.failed none)
      close .error
  else if held then
    writing do
      append (.completed saved.messageId)
      close .completed
  else writing (close .completed)

/-- `end_turn`: save the answer as it stands, then write the failure frame, if any, and the end. At a shutdown a
    remote turn waits for its save until a deadline. -/
def endTurn (remote : Bool) (reason : TerminalReason) (framed : Bool) : Work Unit := do
  let bounded ← look fun turn => remote && turn.frameDeadline
  let saved ← persist bounded
  let discarded ← look (·.discarded)
  if discarded then ret ()
  else if framed then
    writing do
      append (.failed saved.messageId)
      close reason
  else if saved.failed then
    writing do
      append (.failed none)
      close .error
  else writing (close reason)

def nextFrame (remote : Bool) : Work (Option Bool) :=
  wait outside
    (fun turn answer =>
      match answer with
      | .frame completed => some (.returned (some completed),turn)
      | .exhausted => some (.returned none,turn)
      | .raises => some (.raised,turn)
      | .stopped stalled =>
        if remote then some (.cancelled,{ turn with stalled := turn.stalled || stalled }) else none
      | _ => none)
    id

/-- One round of the frame loop of `_run_turn`; `held` says that a completed frame is kept back. -/
def frameRound (held : Bool) : Work (Bool ⊕ Bool) := do
  let next ← nextFrame false
  match next with
  | none => ret (.inr held)
  | some completed => do
    let discarded ← look (·.discarded)
    if discarded then ret (.inl held)
    else if completed then ret (.inl true)
    else do
      writing (append .frame)
      ret (.inl held)

/-- One round of the frame loop of `_run_remote_turn`, which does not look at the flag. The formatter's first frame is
    `response.created`; its type is not looked at. -/
def replyRound : Bool × Bool → Work ((Bool × Bool) ⊕ Bool)
  | (first,held) => do
    let next ← nextFrame true
    match next with
    | none => ret (.inr held)
    | some completed =>
      if !first && completed then ret (.inl (false,true))
      else do
        writingUnchecked (append .frame)
        ret (.inl (false,held))

theorem proceeds_append (record : Record) : Proceeds (append record) := by
  refine proceeds_andThen (proceeds_act _) fun redis => ?_
  cases redis with
  | true => exact (reads_wait _ _ _).proceeds
  | false => exact proceeds_act _

theorem proceeds_writeFrame : Proceeds (writing (append .frame)) :=
  proceeds_andThen (proceeds_act _) fun _ => proceeds_andThen (proceeds_append _) fun _ => proceeds_act _

theorem proceeds_writeReply : Proceeds (writingUnchecked (append .frame)) :=
  proceeds_andThen (proceeds_act _) fun _ => proceeds_writeFrame

theorem reads_frameRound (held : Bool) : Reads (frameRound held) := by
  refine reads_andThen (reads_wait _ _ _) fun next => ?_
  cases next <;> grind only [proceeds_andThen,proceeds_act,proceeds_writeFrame,Proceeds,ret,look]

theorem reads_replyRound (state : Bool × Bool) : Reads (replyRound state) := by
  refine reads_andThen (reads_wait _ _ _) fun next => ?_
  grind only [proceeds_ret,proceeds_andThen,proceeds_writeReply]

theorem frames_eq (held : Bool) : loop frameRound held = frameRound held >>= Sum.elim (loop frameRound) ret :=
  loop_eq reads_frameRound held

theorem replies_eq (state : Bool × Bool) :
    loop replyRound state = replyRound state >>= Sum.elim (loop replyRound) ret :=
  loop_eq reads_replyRound state

def onRaised (remote : Bool) : Work Unit := runToCompletion (endTurn remote .error true)

def onCancelled (remote : Bool) : Work Unit := do
  let turn ← look id
  if turn.discarded || turn.closed then ret ()
  else if turn.shuttingDown || turn.timedOut || turn.stalled then runToCompletion (endTurn remote .interrupted true)
  else runToCompletion (endTurn remote .cancelled false)

def sealUnterminatedBuffer : Work Unit := do
  let finished ← look fun turn => turn.discarded || turn.closed
  if finished then ret ()
  else writing do
    append (.failed none)
    close .error

/-- The end of a turn whose source is exhausted; `held` is recorded. -/
def finishHolding (held : Bool) : Work Unit := do
  change fun turn => { turn with held := held }
  runToCompletion (finish held)

def runTurn : Work Unit :=
  afterwards
    (handle
      (do
        let started ← runToCompletion start
        if started then do
          let held ← loop frameRound false
          finishHolding held
        else ret ())
      (onRaised false)
      (onCancelled false))
    sealUnterminatedBuffer

/-- `_stage_remote_workspace_files` in a unit; only a busy pool ends the turn. -/
def stageFiles : Work Unit :=
  wait outside
    (fun turn answer =>
      match answer with
      | .staged => some (.returned (),turn)
      | .raises => some (.raised,turn)
      | _ => none)
    id

def runRemoteTurn : Work Unit :=
  afterwards
    (handle
      (do
        stageFiles
        let _ ← runToCompletion start
        let held ← loop replyRound (true,false)
        finishHolding held)
      (onRaised true)
      (onCancelled true))
    sealUnterminatedBuffer

/-- `_direct_figure_sources` -/
def figureSources : Work Bool :=
  wait outside
    (fun turn answer =>
      match answer with
      | .sources found => some (.returned found,turn)
      | .raises => some (.raised,turn)
      | _ => none)
    id

def appendSources (found : Bool) : Work Unit := if found then append .frame else ret ()

/-- `answer` of `_produce_direct`: both rows in one unit, then the frames and the end. -/
def answerDirect : Work Unit := do
  let sources ← figureSources
  let committed ← unit false .answer fun messageId turn => turn.saveQuestion.saveAnswer messageId
  let discarded ← look (·.discarded)
  match committed with
  | none => ret ()
  | some messageId =>
    if discarded then ret ()
    else writing do
      append .frame
      append .frame
      append .frame
      appendSources sources
      append (.completed messageId)
      close .completed

def produceDirect : Work Unit :=
  afterwards
    (handle
      (runToCompletion answerDirect)
      (writingUnchecked do
        append (.failed none)
        close .error)
      (do
        let discarded ← look (·.discarded)
        if discarded then ret () else writing (close .cancelled)))
    sealUnterminatedBuffer

inductive Producer where
  | inProcess
  | remote
  | direct
deriving DecidableEq

def Producer.task : Producer → Work Unit
  | .inProcess => runTurn
  | .remote => runRemoteTurn
  | .direct => produceDirect

def Producer.run (producer : Producer) (redis : Bool) (script : List (Signal Answer Event)) : Option Turn :=
  (producer.task false false (begin redis) script).map (·.state)

end Cowork.TurnProducers
