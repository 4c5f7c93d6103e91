import Cowork.CodingTurns
import Cowork.Transitions

/-!
The end of local coding turns at a shutdown. `prepare_shutdown` asks every active turn
to stop under one lock, marks it as interrupted under another, and then stores the
interruption, while each turn's thread settles its session on one of several ways out,
which read the two flags in their own order, and its engine may still ask the user.
-/
namespace Cowork.ShutdownInterrupts
open Contracts CodingTurns Transitions

/-- What a turn's thread is at. It has read the cancel flag when `collected` and the interruption flag when `judged`,
    with whether its terminal event's title is "Task interrupted"; an error is stored after `unprepared` and
    `failing`. -/
inductive Thread where
  | idle
  | preparing
  | unprepared (message : String)
  | running
  | collected (status : SessionStatus) (terminal : Option Bool)
  | judged (status : SessionStatus) (terminal : Option Bool)
  | failing (message : String)
deriving DecidableEq

/-- How far `prepare_shutdown` is with a task: not active; asked to stop; marked, with the interruption still to be
    stored; stored. -/
inductive Notice where
  | none | listed | queued | told
deriving DecidableEq

/-- A local task, whether its turn was active and not stopped when `prepare_shutdown` ran, and its 'Task interrupted'
    events since. -/
structure Task where
  session : CodingSession
  running : Option (RunningTurn Unit)
  thread : Thread
  notice : Notice
  caught : Bool
  marks : Nat

inductive Moment where
  /-- `interrupt` stores the interruption. -/
  | tell
  /-- The workspace is prepared; the first prompt starts a turn, or runs at once, or raises. -/
  | prepared (starts : Except String Bool)
  /-- The preparation raised, and the reservation is released. -/
  | unprepared (message : String)
  | report
  /-- The engine's events have ended, and the cancel flag is read. -/
  | collect (reported : Reported) (terminal : Option Bool)
  | judge
  | finish (message : String)
  | fail (message : String)
  /-- The failure is recorded, and the reservation released. -/
  | record
  | openApproval
  | openQuestion
  /-- An approval or a question is closed. -/
  | closeInput
  | stop
  /-- `_continue_completed_task` links the session to a new run. -/
  | followUp (runId : String) (epoch : Nat)
  | begin

/-- The lock of `_prepare_and_start` after the preparation. -/
def Task.prepared (task : Task) (starts : Except String Bool) : Task :=
  match task.thread with
  | .preparing =>
    if task.running.all fun reserved => reserved.cancelRequested then
      { task with session := failTurn true "" task.session, running := none, thread := .idle }
    else
      match starts with
      | .ok true =>
        { task with
          session := markRunning (awaitFirstTurn task.session),
          running := some (.new false),
          thread := .running }
      | .ok false => { task with session := awaitFirstTurn task.session, running := none, thread := .idle }
      | .error message =>
        { task with
          session := failTurn false message (awaitFirstTurn task.session),
          running := none,
          thread := .idle }
  | _ => task

/-- The end of `execute` without an exception. -/
def Task.finish (task : Task) (message : String) : Task :=
  match task.thread with
  | .judged status terminal =>
    { task with
      session :=
        if status = .failed ∧ terminal.isSome = true then failTurn false message task.session
        else finishTurn status task.session,
      marks := if terminal = some true then task.marks + 1 else task.marks,
      running := none,
      thread := .idle }
  | _ => task

/-- The lock of `execute` after an exception, with `_record_failure`. -/
def Task.record (task : Task) : Task :=
  match task.thread with
  | .failing message =>
    let cancelled := task.running.any fun reserved => reserved.cancelRequested
    let interrupted := task.running.any fun reserved => reserved.interruptionRequested
    { task with
      session :=
        if interrupted && !cancelled then interruptTurn task.session else failTurn cancelled message task.session,
      running := none,
      thread := .idle }
  | _ => task

/-- `_open_approval`. -/
def openApproval (session : CodingSession) : CodingSession := { session with status := .awaitingApproval }

/-- `_close_approval`, and the update of `_question_closed`. -/
def closeInput (session : CodingSession) : CodingSession :=
  if session.status = .awaitingApproval then { session with status := .running } else session

/-- `running.cancel_requested = True`. -/
def askToStop (reserved : RunningTurn Unit) : RunningTurn Unit := { reserved with cancelRequested := true }

def Task.act (task : Task) : Moment → Task
  | .tell =>
    if task.notice = .queued then
      { task with session := interruptTurn task.session, marks := task.marks + 1, notice := .told }
    else task
  | .prepared starts => task.prepared starts
  | .unprepared message =>
    if task.thread = .preparing then { task with running := none, thread := .unprepared message } else task
  | .report =>
    match task.thread with
    | .unprepared message => { task with session := failTurn false message task.session, thread := .idle }
    | _ => task
  | .collect reported terminal =>
    if task.thread = .running then
      { task with
        thread := .collected
          (terminalStatus reported (task.running.any fun reserved => reserved.cancelRequested)) terminal }
    else task
  | .judge =>
    match task.thread with
    | .collected status terminal =>
      if task.running.any fun reserved => reserved.interruptionRequested then
        { task with thread := .judged .interrupted none }
      else { task with thread := .judged status terminal }
    | _ => task
  | .finish message => task.finish message
  | .fail message =>
    match task.thread with
    | .running | .collected _ _ | .judged _ _ => { task with thread := .failing message }
    | _ => task
  | .record => task.record
  | .openApproval => { task with session := openApproval task.session }
  -- `_question_opened` refuses where the turn was asked to stop; an approval is opened regardless.
  | .openQuestion =>
    if task.running.all fun reserved => reserved.cancelRequested then task
    else { task with session := openApproval task.session }
  | .closeInput => { task with session := closeInput task.session }
  | .stop => { task with running := task.running.map askToStop }
  | .followUp runId epoch =>
    { task with
      session := { task.session with runId := some runId, runtimeEpoch := epoch, status := .ready, lastError := none } }
  | .begin =>
    match task.running,task.thread with
    | none,.idle =>
      { task with
        session := markRunning task.session,
        running := some (.new false),
        thread := .running,
        notice := .none }
    | _,_ => task

/-- The first lock of `prepare_shutdown`. -/
def Task.list (task : Task) : Task :=
  match task.running with
  | none => task
  | some reserved =>
    { task with
      running := some (askToStop reserved),
      notice := if task.notice = .none then .listed else task.notice,
      caught := task.caught || !reserved.cancelRequested,
      marks := if task.caught || reserved.cancelRequested then task.marks else 0 }

/-- The lock of `interrupt`. -/
def Task.mark (task : Task) : Task :=
  if task.notice = .listed then
    match task.running with
    | none => { task with notice := .none }
    | some reserved =>
      if reserved.interruptionRequested then { task with notice := .none }
      else { task with running := some { reserved with interruptionRequested := true }, notice := .queued }
  else task

/-- What happens. `prepare_shutdown` may run any number of times. -/
inductive Action where
  | shutdown
  | interrupt
  | act (k : Nat) (moment : Moment)

def step (tasks : List Task) : Action → List Task
  | .shutdown => tasks.map Task.list
  | .interrupt => tasks.map Task.mark
  | .act k moment =>
    match tasks[k]? with
    | none => tasks
    | some task => tasks.set k (task.act moment)

/-- A task before the shutdown: it has no turn, or one being prepared or run that was not asked to stop. -/
structure Fresh (task : Task) : Prop where
  uncaught : task.caught = false
  unlisted : task.notice = .none
  unmarked : ∀ reserved, task.running = some reserved → reserved.interruptionRequested = false

def Thread.ready : Thread → Bool
  | .running | .collected _ _ => true
  | _ => false

/-- A turn active at the shutdown does not settle between the two locks, its failure is recorded and its approvals are
    opened only before the interruption is stored, and no new turn starts. -/
def Task.allows (task : Task) : Moment → Bool
  | .judge => decide (task.notice ≠ .listed)
  | .record => decide (task.notice = .queued)
  | .openApproval => decide (task.notice ≠ .told)
  | .followUp _ _ | .begin => false
  | _ => true

/-- The shutdown finds no task that is being prepared, and no turn that has read its
    interruption flag or failed; then the turns take only the steps above. -/
def Undisturbed (tasks : List Task) : Action → Prop
  | .shutdown => ∀ task ∈ tasks, task.running.isSome = true → task.caught = false → task.thread.ready = true
  | .interrupt => True
  | .act k moment => ∀ task ∈ tasks[k]?, task.caught = true → task.allows moment = true

instance (tasks : List Task) (action : Action) : Decidable (Undisturbed tasks action) := by
  cases action <;> unfold Undisturbed <;> infer_instance

/-- The flags of a turn that was asked to stop. -/
def Flagged (interrupted : Bool) (reserved : RunningTurn Unit) : Prop :=
  reserved.cancelRequested = true ∧ reserved.interruptionRequested = interrupted

inductive Marked : Option (RunningTurn Unit) → Thread → Prop
  | gone : Marked none .idle
  | running (reserved : RunningTurn Unit) (flag : Flagged true reserved) : Marked (some reserved) .running
  | collected (reserved : RunningTurn Unit) (flag : Flagged true reserved) (status : SessionStatus)
    (terminal : Option Bool) : Marked (some reserved) (.collected status terminal)
  | judged (reserved : RunningTurn Unit) (flag : Flagged true reserved) :
    Marked (some reserved) (.judged .interrupted none)
  | failing (reserved : RunningTurn Unit) (flag : Flagged true reserved) (message : String) :
    Marked (some reserved) (.failing message)

inductive Listed : Option (RunningTurn Unit) → Thread → Prop
  | running (reserved : RunningTurn Unit) (flag : Flagged false reserved) : Listed (some reserved) .running
  | collected (reserved : RunningTurn Unit) (flag : Flagged false reserved) (status : SessionStatus)
    (terminal : Option Bool) : Listed (some reserved) (.collected status terminal)
  | failing (reserved : RunningTurn Unit) (flag : Flagged false reserved) (message : String) :
    Listed (some reserved) (.failing message)

variable {running : Option (RunningTurn Unit)}

theorem listed_asked {thread : Thread} (place : Listed running thread) :
    Listed (running.map askToStop) thread := by
  cases place with
  | running _ flag => exact .running (askToStop _) ⟨rfl,flag.2⟩
  | collected _ flag status terminal => exact .collected (askToStop _) ⟨rfl,flag.2⟩ status terminal
  | failing _ flag message => exact .failing (askToStop _) ⟨rfl,flag.2⟩ message

theorem marked_refuses {thread : Thread} (place : Marked running thread) :
    (running.all fun reserved => reserved.cancelRequested) = true := by
  cases place with
  | gone => rfl
  | running _ flag | collected _ flag | judged _ flag | failing _ flag => exact flag.1

theorem listed_refuses {thread : Thread} (place : Listed running thread) :
    (running.all fun reserved => reserved.cancelRequested) = true := by
  cases place with
  | running _ flag | collected _ flag | failing _ flag => exact flag.1

theorem marked_asked {thread : Thread} (place : Marked running thread) :
    Marked (running.map askToStop) thread := by
  cases place with
  | gone => exact .gone
  | running _ flag => exact .running (askToStop _) ⟨rfl,flag.2⟩
  | collected _ flag status terminal => exact .collected (askToStop _) ⟨rfl,flag.2⟩ status terminal
  | judged _ flag => exact .judged (askToStop _) ⟨rfl,flag.2⟩
  | failing _ flag message => exact .failing (askToStop _) ⟨rfl,flag.2⟩ message

inductive Interrupted (task : Task) : Prop
  | listed (notice : task.notice = .listed) (place : Listed task.running task.thread) (marks : task.marks = 0)
  | queued (notice : task.notice = .queued) (place : Marked task.running task.thread) (marks : task.marks = 0)
  | told (notice : task.notice = .told) (place : Marked task.running task.thread) (marks : task.marks = 1)
    (status : task.session.status = .interrupted)

structure Sound (task : Task) : Prop where
  caught : task.caught = true → Interrupted task
  free : task.caught = false → ∀ reserved, task.running = some reserved → reserved.cancelRequested = false →
    task.notice = .none ∧ reserved.interruptionRequested = false

variable {task : Task} {moment : Moment}

theorem sound_fresh (fresh : Fresh task) : Sound task := by
  refine ⟨?_,fun _ reserved found _ => ⟨fresh.unlisted,fresh.unmarked reserved found⟩⟩
  intro caught
  rw [fresh.uncaught] at caught
  cases caught

theorem sound_list (sound : Sound task) (ready : task.running.isSome = true → task.caught = false →
    task.thread.ready = true) : Sound task.list := by
  obtain ⟨session,running,thread,notice,caught,marks⟩ := task
  cases running with
  | none => exact sound
  | some reserved =>
    obtain ⟨engine,turnId,cancelled,interrupted,preparing,steers⟩ := reserved
    refine ⟨?_,fun _ other found later => ?_⟩
    · intro known
      cases caught with
      | true =>
        -- A turn that was caught before keeps its notice, and its place.
        cases sound.caught rfl with
        | listed same place none => cases same; exact .listed rfl (listed_asked place) none
        | queued same place none => cases same; exact .queued rfl (marked_asked place) none
        | told same place one status => cases same; exact .told rfl (marked_asked place) one status
      | false =>
        cases cancelled with
        | true => cases known
        | false =>
          obtain ⟨unlisted,flag⟩ := sound.free rfl _ rfl rfl
          cases unlisted
          refine .listed rfl ?_ rfl
          cases thread with
          | running => exact .running _ ⟨rfl,flag⟩
          | collected status terminal => exact .collected _ (by exact ⟨rfl,flag⟩) status terminal
          | idle | preparing | unprepared | judged | failing => cases ready rfl rfl
    · cases found
      cases later

theorem sound_mark (sound : Sound task) : Sound task.mark := by
  obtain ⟨session,running,thread,notice,caught,marks⟩ := task
  cases notice with
  | none | queued | told => exact sound
  | listed =>
    cases running with
    | none =>
      refine ⟨?_,nofun⟩
      intro known
      cases sound.caught known with
      | listed _ place => cases place
      | queued same | told same => cases same
    | some reserved =>
      obtain ⟨engine,turnId,cancelled,interrupted,preparing,steers⟩ := reserved
      cases interrupted with
      | true =>
        refine ⟨?_,?_⟩
        · intro known
          cases sound.caught known with
          | listed _ place =>
            cases place with
            | running _ flag | collected _ flag | failing _ flag => cases flag.2
          | queued same | told same => cases same
        · intro free other found later
          cases found
          cases (sound.free free _ rfl later).1
      | false =>
        refine ⟨?_,?_⟩
        · intro known
          cases sound.caught known with
          | listed _ place none =>
            refine .queued rfl ?_ none
            cases place with
            | running _ flag => exact .running _ ⟨flag.1,rfl⟩
            | collected _ flag status terminal => exact .collected _ (by exact ⟨flag.1,rfl⟩) status terminal
            | failing _ flag message => exact .failing _ (by exact ⟨flag.1,rfl⟩) message
          | queued same | told same => cases same
        · intro free other found later
          cases found
          cases (sound.free free _ rfl later).1

theorem sound_uncaught (sound : Sound task) (uncaught : task.caught = false) (moment : Moment) :
    Sound (task.act moment) := by
  obtain ⟨session,running,thread,notice,caught,marks⟩ := task
  cases uncaught
  have free := sound.free rfl
  cases moment with
  | tell =>
    cases notice with
    | queued =>
      refine ⟨nofun,fun _ reserved found later => ?_⟩
      cases (free reserved found later).1
    | none | listed | told => exact sound
  | prepared starts =>
    cases thread with
    | preparing =>
      simp only [Task.act,Task.prepared]
      split
      · exact ⟨nofun,fun _ => nofun⟩
      · rename_i going
        rcases starts with message | (_ | _)
        · exact ⟨nofun,fun _ => nofun⟩
        · exact ⟨nofun,fun _ => nofun⟩
        · refine ⟨nofun,fun _ other found _ => ?_⟩
          cases found
          cases running with
          | none => exact absurd rfl going
          | some reserved => exact ⟨(free reserved rfl (by simpa using going)).1,rfl⟩
    | _ => exact sound
  | unprepared message =>
    cases thread with
    | preparing => exact ⟨nofun,fun _ => nofun⟩
    | _ => exact sound
  | report =>
    cases thread with
    | unprepared message => exact ⟨nofun,fun _ => free⟩
    | _ => exact sound
  | collect reported terminal =>
    cases thread with
    | running => exact ⟨nofun,fun _ => free⟩
    | _ => exact sound
  | judge =>
    cases thread with
    | collected status terminal =>
      simp only [Task.act]
      split
      all_goals exact ⟨nofun,fun _ => free⟩
    | _ => exact sound
  | finish message =>
    cases thread with
    | judged status terminal => exact ⟨nofun,fun _ => nofun⟩
    | _ => exact sound
  | fail message =>
    cases thread with
    | running | collected | judged => exact ⟨nofun,fun _ => free⟩
    | _ => exact sound
  | record =>
    cases thread with
    | failing message => exact ⟨nofun,fun _ => nofun⟩
    | _ => exact sound
  | openApproval | closeInput | followUp runId epoch => exact ⟨nofun,fun _ => free⟩
  | openQuestion =>
    simp only [Task.act]
    split
    · exact sound
    · exact ⟨nofun,fun _ => free⟩
  | stop =>
    refine ⟨nofun,fun _ reserved found later => ?_⟩
    obtain ⟨old,_,rfl⟩ := Option.map_eq_some_iff.mp found
    cases later
  | begin =>
    cases running with
    | none =>
      cases thread with
      | idle =>
        refine ⟨nofun,fun _ other found _ => ?_⟩
        cases found; exact ⟨rfl,rfl⟩
      | _ => exact sound
    | some reserved => exact sound

theorem refused_question (asked : (task.running.all fun reserved => reserved.cancelRequested) = true) :
    task.act .openQuestion = task := if_pos asked

theorem marked_act (caught : task.caught = true) (place : Marked task.running task.thread)
    (allowed : task.allows moment = true) (told : moment ≠ .tell) :
    Marked (task.act moment).running (task.act moment).thread ∧ (task.act moment).notice = task.notice ∧
      (task.act moment).marks = task.marks ∧ (task.act moment).caught = true ∧
      (task.notice = .told → task.session.status = .interrupted →
        (task.act moment).session.status = .interrupted) := by
  obtain ⟨session,running,thread,notice,known,marks⟩ := task
  have same : Marked running thread ∧ notice = notice ∧ marks = marks ∧ known = true ∧
      (notice = .told → session.status = .interrupted → session.status = .interrupted) :=
    ⟨place,rfl,rfl,caught,fun _ => id⟩
  cases moment with
  | tell => exact absurd rfl told
  | prepared starts | unprepared message | report => cases place <;> exact same
  | collect reported terminal =>
    cases place with
    | running reserved flag => exact ⟨.collected reserved flag _ terminal,rfl,rfl,caught,fun _ => id⟩
    | _ => exact same
  | judge =>
    cases place with
    | collected reserved flag status terminal =>
      have next : (Task.mk session (some reserved) (.collected status terminal) notice known marks).act .judge =
          ⟨session,some reserved,.judged .interrupted none,notice,known,marks⟩ := if_pos flag.2
      rw [next]; exact ⟨.judged reserved flag,rfl,rfl,caught,fun _ => id⟩
    | _ => exact same
  | finish message =>
    cases place with
    | judged reserved flag => exact ⟨.gone,rfl,rfl,caught,fun _ _ => rfl⟩
    | _ => exact same
  | fail message =>
    cases place with
    | running reserved flag | collected reserved flag | judged reserved flag =>
      exact ⟨.failing reserved flag message,rfl,rfl,caught,fun _ => id⟩
    | _ => exact same
  | record =>
    have queued : notice = .queued := by simpa [Task.allows] using allowed
    cases place with
    | failing reserved flag message =>
      refine ⟨.gone,rfl,rfl,caught,fun never => ?_⟩
      cases queued.symm.trans never
    | _ => exact same
  | openApproval =>
    refine ⟨place,rfl,rfl,caught,fun late => ?_⟩
    exact absurd late (by simpa [Task.allows] using allowed)
  | openQuestion =>
    rw [refused_question (marked_refuses place)]
    exact same
  | closeInput =>
    refine ⟨place,rfl,rfl,caught,fun _ status => ?_⟩
    have waits : session.status ≠ .awaitingApproval := by
      rw [show session.status = .interrupted from status]
      nofun
    exact (congrArg CodingSession.status (if_neg waits)).trans status
  | stop => exact ⟨marked_asked place,rfl,rfl,caught,fun _ => id⟩
  | followUp | begin => cases allowed

theorem listed_act (caught : task.caught = true) (place : Listed task.running task.thread)
    (listed : task.notice = .listed) (allowed : task.allows moment = true) :
    Listed (task.act moment).running (task.act moment).thread ∧ (task.act moment).notice = .listed ∧
      (task.act moment).marks = task.marks ∧ (task.act moment).caught = true := by
  obtain ⟨session,running,thread,notice,known,marks⟩ := task
  cases listed
  have same : Listed running thread ∧ Notice.listed = .listed ∧ marks = marks ∧ known = true :=
    ⟨place,rfl,rfl,caught⟩
  cases moment with
  | tell => exact same
  | prepared starts | unprepared message | report | finish message => cases place <;> exact same
  | collect reported terminal =>
    cases place with
    | running reserved flag => exact ⟨.collected reserved flag _ terminal,rfl,rfl,caught⟩
    | _ => exact same
  | judge => cases allowed
  | fail message =>
    cases place with
    | running reserved flag | collected reserved flag => exact ⟨.failing reserved flag message,rfl,rfl,caught⟩
    | failing => exact same
  | openApproval | closeInput => exact same
  | openQuestion =>
    rw [refused_question (listed_refuses place)]
    exact same
  | stop => exact ⟨listed_asked place,rfl,rfl,caught⟩
  | record | followUp | begin => cases allowed

theorem sound_act (sound : Sound task) (allowed : task.caught = true → task.allows moment = true) :
    Sound (task.act moment) := by
  cases caught : task.caught with
  | false => exact sound_uncaught sound caught moment
  | true =>
    cases sound.caught caught with
    | listed notice place none =>
      obtain ⟨next,same,marks,still⟩ := listed_act caught place notice (allowed caught)
      refine ⟨fun _ => .listed same next (marks.trans none),?_⟩
      intro never
      rw [still] at never; cases never
    | queued notice place none =>
      by_cases tell : moment = .tell
      · subst tell
        have next : task.act .tell =
            { task with session := interruptTurn task.session, marks := task.marks + 1, notice := .told } :=
          if_pos notice
        rw [next]
        refine ⟨fun _ => .told rfl place (congrArg (· + 1) none) rfl,?_⟩
        intro never
        cases caught.symm.trans never
      · obtain ⟨next,same,marks,still,_⟩ := marked_act caught place (allowed caught) tell
        refine ⟨fun _ => .queued (same.trans notice) next (marks.trans none),?_⟩
        intro never
        rw [still] at never; cases never
    | told notice place one status =>
      by_cases tell : moment = .tell
      · subst tell
        have next : task.act .tell = task := if_neg (by rw [notice]; nofun)
        rw [next]; exact sound
      · obtain ⟨next,same,marks,still,kept⟩ := marked_act caught place (allowed caught) tell
        refine ⟨fun _ => .told (same.trans notice) next (marks.trans one) (kept notice status),?_⟩
        intro never
        rw [still] at never; cases never

theorem sound_step (tasks : List Task) (action : Action) (sound : ∀ task ∈ tasks, Sound task)
    (undisturbed : Undisturbed tasks action) : ∀ task ∈ step tasks action, Sound task := by
  cases action <;> grind [sound_list,sound_mark,step,sound_act,Undisturbed]

/-- If the shutdown finds nothing being prepared, settled or failed, and afterwards no failure is recorded and no
    approval opened: a turn that was active is interrupted, with exactly one 'Task interrupted' event, and stays so. -/
theorem shutdown_is_an_interruption (tasks : List Task) (fresh : ∀ task ∈ tasks, Fresh task) (actions : List Action)
    (undisturbed : Permitted step Undisturbed tasks actions) :
    ∀ task ∈ reach step tasks actions, task.caught = true → task.notice ≠ .listed → task.notice ≠ .queued →
      task.session.status = .interrupted ∧ task.marks = 1 := by
  intro task member caught notListed notQueued
  have sound := invariant_reach sound_step (fun task member => sound_fresh (fresh task member)) undisturbed task member
  cases sound.caught caught with
  | listed notice => exact absurd notice notListed
  | queued notice => exact absurd notice notQueued
  | told _ _ marks status => exact ⟨status,marks⟩

def sampleRunning : Task :=
  { session := { id := "task", status := .running }, running := some (.new false), thread := .running, notice := .none,
    caught := false, marks := 0 }

def samplePreparing : Task := { sampleRunning with running := some (.new true), thread := .preparing }

/-- A whole `prepare_shutdown` for one task. -/
def sampleShutdown : List Action := [.shutdown,.interrupt,.act 0 .tell]

theorem sampleShutdown_interrupts :
    Permitted step Undisturbed [sampleRunning]
        (sampleShutdown ++ [.act 0 (.collect .completed none),.act 0 .judge,.act 0 (.finish "")]) ∧
      ∀ task ∈ reach step [sampleRunning]
          (sampleShutdown ++ [.act 0 (.collect .completed none),.act 0 .judge,.act 0 (.finish "")]),
        task.caught = true → task.notice ≠ .listed → task.notice ≠ .queued →
          task.session.status = .interrupted ∧ task.marks = 1 := by
  have undisturbed : Permitted step Undisturbed [sampleRunning]
      (sampleShutdown ++ [.act 0 (.collect .completed none),.act 0 .judge,.act 0 (.finish "")]) := by decide +kernel
  refine ⟨undisturbed,shutdown_is_an_interruption _ ?_ _ undisturbed⟩
  intro task member
  rw [List.mem_singleton.mp member]
  refine ⟨rfl,rfl,?_⟩
  intro reserved found
  cases found
  rfl

/-- A late engine failure, preparation or approval changes the interrupted session; a turn that ends between the two
    locks, or has read its flag, is not interrupted. -/
theorem shutdown_is_recorded_otherwise :
    (reach step [sampleRunning] (sampleShutdown ++ [.act 0 (.fail "closed"),.act 0 .record])).map
      (fun task => (task.caught,task.notice,task.session.status)) = [(true,.told,.cancelled)] ∧
    (reach step [samplePreparing] (sampleShutdown ++ [.act 0 (.prepared (.ok true))])).map
      (fun task => (task.caught,task.notice,task.session.status)) = [(true,.told,.cancelled)] ∧
    (reach step [samplePreparing] (sampleShutdown ++ [.act 0 (.unprepared "failed"),.act 0 .report])).map
      (fun task => (task.caught,task.notice,task.session.status)) = [(true,.told,.failed)] ∧
    (reach step [sampleRunning] [.shutdown,.act 0 (.collect .completed none),.act 0 .judge,.act 0 (.finish ""),
      .interrupt]).map (fun task => (task.caught,task.notice,task.session.status,task.marks)) =
        [(true,.none,.cancelled,0)] ∧
    (reach step [sampleRunning] ([.act 0 (.collect .completed none),.act 0 .judge] ++ sampleShutdown ++
      [.act 0 (.finish "")])).map (fun task => (task.caught,task.notice,task.session.status)) =
        [(true,.told,.completed)] ∧
    (reach step [sampleRunning] (sampleShutdown ++ [.act 0 .openApproval])).map
      (fun task => (task.caught,task.notice,task.session.status)) = [(true,.told,.awaitingApproval)] := by
  decide +kernel

end Cowork.ShutdownInterrupts
