import Mathlib.Data.List.Basic
import Mathlib.Algebra.Order.Ring.Int

/-!
Scheduled tasks: the rows of schedules and of their runs. A run claims a slot by the row
it inserts, and consumes it when its outcome is recorded: the schedule moves on to its
next occurrence, or a one-off is disabled. Only the unit that reaps lapsed runs compares
the schedule with the run's slot, so recording may undo what the user did meanwhile.
-/
namespace Cowork.Schedules

inductive Cadence where
  | once
  | hourly
  | daily
  | weekdays
  | weekly
  | other (text : String)
deriving DecidableEq

def Cadence.recurring : Cadence → Bool
  | .hourly | .daily | .weekdays | .weekly => true
  | .once | .other _ => false

def seconds (n : Nat) : Int := n * 1000000

structure Schedule where
  cadence : Cadence
  timezone : String
  nextRunAt : Int
  enabled : Bool
deriving DecidableEq

inductive RunStatus where
  | running
  | success
  | failed
  | cancelled
deriving DecidableEq

/-- `claimed` is the slot that the row was inserted with, `linked` that a conversation was linked to it; both only
    record that. -/
structure Run where
  schedule : Nat
  isManual : Bool
  slotAt : Option Int
  status : RunStatus
  leaseExpiresAt : Option Int
  conversationId : Option Nat
  finishedAt : Option Int
  claimed : Option Int
  linked : Bool

def Run.lapsed (run : Run) (now : Int) : Bool := run.status = .running && run.leaseExpiresAt.any (· < now)

structure Db where
  schedules : List Schedule
  runs : List Run
  conversations : List Nat

/-- `advance_occurrence`: the next instant of a cadence in a timezone, strictly after the given one. -/
structure Calendar where
  advance : Cadence → Int → String → Int
  later : ∀ cadence at_ timezone, at_ < advance cadence at_ timezone

namespace Calendar

def walk (calendar : Calendar) (cadence : Cadence) (timezone : String) (reference : Int) : Nat → Int → Nat × Int
  | 0,cursor => (0,cursor)
  | n + 1,cursor =>
    if cursor ≤ reference then
      let (missed,future) := calendar.walk cadence timezone reference n (calendar.advance cadence cursor timezone)
      (missed + 1,future)
    else (0,cursor)

def countMissedOccurrences (calendar : Calendar) (cadence : Cadence) (nextRunAt : Int) (timezone : String)
    (now : Int) : Nat × Int :=
  calendar.walk cadence timezone now (now - nextRunAt + 1).toNat nextRunAt

def nextFutureOccurrence (calendar : Calendar) (cadence : Cadence) (nextRunAt : Int) (timezone : String)
    (now : Int) : Int :=
  (calendar.countMissedOccurrences cadence nextRunAt timezone now).2

variable {calendar : Calendar}

theorem walk_future {cadence : Cadence} {timezone : String} {reference : Int} (n : Nat) (cursor : Int)
    (enough : reference - cursor < n) : reference < (calendar.walk cadence timezone reference n cursor).2 := by
  induction n generalizing cursor with
  | zero =>
    simp only [walk]
    omega
  | succ n ih =>
    simp only [walk]
    by_cases due : cursor ≤ reference
    · rw [if_pos due]
      have later := calendar.later cadence cursor timezone
      exact ih _ (by omega)
    · rw [if_neg due]; omega

theorem nextFutureOccurrence_future (cadence : Cadence) (nextRunAt : Int) (timezone : String) (now : Int) :
    now < calendar.nextFutureOccurrence cadence nextRunAt timezone now :=
  walk_future _ _ (by omega)

theorem nextFutureOccurrence_of_future {cadence : Cadence} {nextRunAt : Int} {timezone : String} {now : Int}
    (future : now < nextRunAt) : calendar.nextFutureOccurrence cadence nextRunAt timezone now = nextRunAt := by
  unfold nextFutureOccurrence countMissedOccurrences
  cases rounds : (now - nextRunAt + 1).toNat with
  | zero => rfl
  | succ n =>
    simp only [walk]
    rw [if_neg (by omega)]

end Calendar

namespace Db

def slotTaken (db : Db) (schedule : Nat) (slot : Int) : Bool :=
  db.runs.any fun run => run.schedule = schedule ∧ run.slotAt = some slot

/-- `create_run`; nothing is `SlotAlreadyClaimed`. -/
def createRun (db : Db) (schedule : Nat) (isManual : Bool) (slot : Option Int) (lease : Int) : Option Db :=
  if slot.any fun slot => db.slotTaken schedule slot then none
  else some { db with runs := db.runs ++ [⟨schedule,isManual,slot,.running,some lease,none,none,slot,false⟩] }

def renewLease (db : Db) (k : Nat) (lease : Int) : Db :=
  match db.runs[k]? with
  | some run =>
    if run.status = .running then { db with runs := db.runs.set k { run with leaseExpiresAt := some lease } } else db
  | none => db

def stillExists (db : Db) (conversation : Nat) : Option Nat :=
  if conversation ∈ db.conversations then some conversation else none

/-- `set_run_conversation`: whether the turn may start. A delete of the conversation before the commit leaves the run
    without one. -/
def setRunConversation (db : Db) (k : Nat) (conversation : Nat) : Bool × Db :=
  match db.runs[k]? with
  | some run =>
    if run.status = .running then
      (true,{ db with runs := db.runs.set k { run with conversationId := db.stillExists conversation, linked := true } })
    else (false,db)
  | none => (false,db)

def finishRun (db : Db) (k : Nat) (conversation : Option Nat) (status : RunStatus) (releaseSlot : Bool) (now : Int) :
    Db :=
  match db.runs[k]? with
  | some run =>
    { db with runs := db.runs.set k { run with
      finishedAt := some now
      status := status
      leaseExpiresAt := none
      slotAt := if releaseSlot then none else run.slotAt
      conversationId := match conversation with
        | some conversation => db.stillExists conversation
        | none => run.conversationId } }
  | none => db

/-- What `reap_lapsed_runs` makes of a lapsed run: it failed, and without a conversation it gives its slot back. -/
def reaped (run : Run) (now : Int) : Run :=
  { run with
    finishedAt := some now
    status := .failed
    leaseExpiresAt := none
    slotAt := if run.conversationId = none then none else run.slotAt }

/-- `reap_lapsed_runs`; `locked` are the rows that it skips because another transaction holds them. -/
def reapLapsedRuns (db : Db) (now : Int) (locked : List Nat) : Db :=
  { db with runs := db.runs.mapIdx fun k run => if run.lapsed now ∧ k ∉ locked then reaped run now else run }

/-- The runs that `reap_lapsed_runs` returns: they keep the slot that they hold. -/
def keptRuns (db : Db) (now : Int) (locked : List Nat) : List Run :=
  (db.runs.zipIdx.filter fun (run,k) =>
    run.lapsed now ∧ k ∉ locked ∧ run.conversationId ≠ none ∧ run.slotAt ≠ none).map Prod.fst

/-- `release_conversation`, with the delete of the conversation that it belongs to. -/
def releaseConversation (db : Db) (conversation : Nat) : Db :=
  { db with
    runs := db.runs.map fun run =>
      if run.conversationId = some conversation then { run with conversationId := none } else run
    conversations := db.conversations.filter (· ≠ conversation) }

def hasActiveRun (db : Db) (schedule : Nat) : Bool :=
  db.runs.any fun run => run.schedule = schedule ∧ run.status = .running

def lastSuccessfulFinish (db : Db) (schedule : Nat) : Option Int :=
  (db.runs.filterMap fun run =>
    if run.schedule = schedule ∧ run.status = .success then run.finishedAt else none).max?

end Db

/-- What a user sets with `update_schedule`, `pause_schedule` or `resume_schedule`; a field
    that is not given stays. -/
structure Edit where
  cadence : Option Cadence
  timezone : Option String
  nextRunAt : Option Int
  enabled : Option Bool

/-- `update_schedule` -/
def Edit.apply (edit : Edit) (schedule : Schedule) : Schedule where
  cadence := edit.cadence.getD schedule.cadence
  timezone := edit.timezone.getD schedule.timezone
  nextRunAt := edit.nextRunAt.getD schedule.nextRunAt
  enabled := edit.enabled.getD schedule.enabled

section
variable (calendar : Calendar)

def advanceNextRunAt (now : Int) (schedule : Schedule) : Schedule :=
  if schedule.cadence = .once then { schedule with enabled := false }
  else if schedule.cadence.recurring then
    { schedule with
      nextRunAt := calendar.nextFutureOccurrence schedule.cadence schedule.nextRunAt schedule.timezone now }
  else schedule

/-- `_handle_missed_runs` on one schedule. -/
def handleMissedRuns (now : Int) (schedule : Schedule) : Schedule :=
  if !schedule.enabled || now ≤ schedule.nextRunAt then schedule
  else if schedule.cadence = .once then
    if seconds 3600 < now - schedule.nextRunAt then { schedule with enabled := false } else schedule
  else if schedule.cadence.recurring then
    let (missed,future) :=
      calendar.countMissedOccurrences schedule.cadence schedule.nextRunAt schedule.timezone now
    if 1 < missed then { schedule with nextRunAt := future } else schedule
  else schedule

/-- `_FRESHNESS_WINDOW_SECONDS` -/
def freshnessWindow : Cadence → Option Nat
  | .once | .daily | .weekdays | .weekly => some 3600
  | .hourly => some 1800
  | .other _ => none

def ranRecently (db : Db) (k : Nat) (schedule : Schedule) (now : Int) : Bool :=
  match freshnessWindow schedule.cadence,db.lastSuccessfulFinish k with
  | some window,some last => now - last < seconds window
  | _,_ => false

/-- What `_due_schedules` does with a schedule: its slot is due or is skipped after a recent success, or it is left. -/
inductive Due where
  | due (slot : Int)
  | skipped
  | left

def dueSchedule (db : Db) (k : Nat) (schedule : Schedule) (now : Int) : Due :=
  if !schedule.enabled || now < schedule.nextRunAt || db.hasActiveRun k then .left
  else if ranRecently db k schedule now then .skipped
  else .due schedule.nextRunAt

/-- How the end of a cron run reaches its schedule: `_record_turn_outcome` whatever the outcome,
    `_record_schedule_error` for a run that raised, `_reap_lapsed_runs` for one that kept its slot. -/
inductive Recording where
  | outcome
  | error (consumeSlot : Bool)
  | lapse

def Recording.advances (recording : Recording) (slot : Int) (schedule : Schedule) : Bool :=
  match recording with
  | .outcome => true
  | .error consumeSlot => consumeSlot && schedule.enabled
  | .lapse => schedule.nextRunAt = slot

/-- Whether the unit assigns `next_run_at`. -/
def Recording.assigns (recording : Recording) (slot : Int) (schedule : Schedule) : Bool :=
  recording.advances slot schedule && schedule.cadence.recurring

def Recording.record (recording : Recording) (slot now : Int) (schedule : Schedule) : Schedule :=
  if recording.advances slot schedule then advanceNextRunAt calendar now schedule else schedule

end

def written {α : Type} [DecidableEq α] (read changed stored : α) : α := if changed = read then stored else changed

/-- SQLite returns an instant without its zone, so the instant that a unit assigns, with a zone, is never the one it
    read. -/
inductive Backend where
  | sqlite
  | postgres
deriving DecidableEq

/-- A unit's commit: the columns that it changed in the row it read, over the row as it is by then. -/
def commit (backend : Backend) (assigned : Bool) (read changed stored : Schedule) : Schedule where
  cadence := written read.cadence changed.cadence stored.cadence
  timezone := written read.timezone changed.timezone stored.timezone
  nextRunAt :=
    if assigned && backend = .sqlite then changed.nextRunAt
    else written read.nextRunAt changed.nextRunAt stored.nextRunAt
  enabled := written read.enabled changed.enabled stored.enabled

def edited (schedule : Schedule) (edits : List Edit) : Schedule := edits.foldl (fun row edit => edit.apply row) schedule

section
variable {calendar : Calendar} {now : Int}

theorem written_eq_stored_iff {α : Type} [DecidableEq α] {read changed stored : α} :
    written read changed stored = stored ↔ changed = read ∨ changed = stored := by
  unfold written
  split_ifs with same
  · simp [same]
  · simp [same]

theorem advance_nextRunAt_of_recurring {schedule : Schedule} (recurring : schedule.cadence.recurring = true) :
    (advanceNextRunAt calendar now schedule).nextRunAt =
        calendar.nextFutureOccurrence schedule.cadence schedule.nextRunAt schedule.timezone now ∧
      (advanceNextRunAt calendar now schedule).enabled = schedule.enabled := by
  grind only [advanceNextRunAt,Cadence.recurring]

theorem advance_nextRunAt_of_not_recurring {schedule : Schedule} (single : schedule.cadence.recurring = false) :
    (advanceNextRunAt calendar now schedule).nextRunAt = schedule.nextRunAt ∧
      (advanceNextRunAt calendar now schedule).enabled =
        if schedule.cadence = .once then false else schedule.enabled := by grind only [advanceNextRunAt]

theorem nextFutureOccurrence_eq_iff {cadence : Cadence} {nextRunAt : Int} {timezone : String} :
    calendar.nextFutureOccurrence cadence nextRunAt timezone now = nextRunAt ↔ now < nextRunAt := by
  grind only [Calendar.nextFutureOccurrence_future,Calendar.nextFutureOccurrence_of_future]

end

/-- Recording a run's end leaves a schedule that was moved from the run's slot as the user left it exactly if the unit
    does not consume the slot, or what it would change is so already. -/
theorem recording_keeps_edits_iff (calendar : Calendar) (backend : Backend) (recording : Recording) (slot now : Int)
    (schedule : Schedule) (before during : List Edit) :
    let read := edited schedule before
    let stored := edited read during
    let recorded := commit backend (recording.assigns slot read) read (recording.record calendar slot now read) stored
    (stored.nextRunAt ≠ slot → recorded.nextRunAt = stored.nextRunAt ∧ recorded.enabled = stored.enabled) ↔
      stored.nextRunAt = slot ∨ recording.advances slot read = false ∨
        (read.cadence = .once → read.enabled = false ∨ stored.enabled = false) ∧
        (read.cadence.recurring = true → backend = .postgres ∧ now < read.nextRunAt ∨
          calendar.nextFutureOccurrence read.cadence read.nextRunAt read.timezone now = stored.nextRunAt) := by
  intro read stored recorded
  have next : recorded.nextRunAt = if recording.assigns slot read && backend = .sqlite then
      (recording.record calendar slot now read).nextRunAt
      else written read.nextRunAt (recording.record calendar slot now read).nextRunAt stored.nextRunAt := rfl
  have enabled : recorded.enabled =
      written read.enabled (recording.record calendar slot now read).enabled stored.enabled := rfl
  rw [next,enabled,written_eq_stored_iff]
  by_cases still : stored.nextRunAt = slot
  · simp [still]
  simp only [still,ne_eq]
  by_cases consumes : recording.advances slot read = true
  · have work : recording.record calendar slot now read = advanceNextRunAt calendar now read := if_pos consumes
    simp only [work,consumes,Recording.assigns,Bool.true_and]
    by_cases recurring : read.cadence.recurring = true
    · have different : read.cadence ≠ .once := by
        intro once
        rw [once] at recurring; cases recurring
      rw [(advance_nextRunAt_of_recurring recurring).1,(advance_nextRunAt_of_recurring recurring).2]
      cases backend with
      | sqlite => simp [recurring,different]
      | postgres => simp [recurring,different,written_eq_stored_iff,nextFutureOccurrence_eq_iff]
    · rw [Bool.not_eq_true] at recurring
      rw [(advance_nextRunAt_of_not_recurring recurring).1,(advance_nextRunAt_of_not_recurring recurring).2]
      by_cases once : read.cadence = .once
      · simp [once,Cadence.recurring,written]
      · simp [recurring,once,written]
  · have work : recording.record calendar slot now read = read := if_neg consumes
    rw [work]; simp [consumes,Recording.assigns,written]

def everyDay : Calendar := ⟨fun _ at_ _ => at_ + seconds 86400,by intro _ at_ _; simp [seconds]⟩

def oneOff : Schedule := ⟨.once,"UTC",0,true⟩

def postpone : Edit := ⟨none,none,some (seconds 86400),none⟩

def postponed : Schedule := edited oneOff [postpone]

def recordedLater (backend : Backend) (recording : Recording) : Schedule :=
  commit backend (recording.assigns 0 postponed) postponed (recording.record everyDay 0 (seconds 60) postponed) postponed

/-- Recording the success of the run that was in progress disables the one-off, and so does recording a failure. -/
theorem postponed_one_off_disabled :
    [Backend.postgres,.sqlite].flatMap (fun backend => [.outcome,.error true].map (recordedLater backend)) =
      List.replicate 4 ⟨.once,"UTC",seconds 86400,false⟩ := by decide

end Cowork.Schedules
