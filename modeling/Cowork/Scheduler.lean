import Cowork.Schedules

/-!
The replicas that run scheduled tasks. Each poll reaps the runs whose lease ran out and
starts a process for every slot that is due; a process claims its slot with the row it
inserts, links a conversation to it, starts the turn and records how it went, and may
die at any step (`step_moves`).
-/
namespace Cowork.Scheduler
open Schedules List

inductive Outcome where
  | success
  | failed
  | cancelled

def Outcome.status : Outcome → RunStatus
  | .success => .success
  | .failed => .failed
  | .cancelled => .cancelled

/-- The outcome that `_record_turn_outcome` reads off the reason of the turn's last record. -/
def outcomeOf (reason : Option String) : Outcome :=
  if reason = some "cancelled" then .cancelled
  else if reason.any (· ≠ "completed") then .failed
  else .success

/-- Where `execute_schedule` is; `finished`: it is over, or dead. -/
inductive Phase where
  | due
  | claimed (run : Nat)
  | made (run conversation : Nat)
  | linked (run conversation : Nat)
  | turning (run conversation : Nat)
  | ending (run : Nat) (conversation : Option Nat) (outcome : Outcome) (consumed : Bool)
  | finished

def Phase.run : Phase → Option Nat
  | .due | .finished => none
  | .claimed k | .made k _ | .linked k _ | .turning k _ | .ending k _ _ _ => some k

def Phase.past : Phase → Bool
  | .linked _ _ | .turning _ _ => true
  | .due | .claimed _ | .made _ _ | .ending _ _ _ _ | .finished => false

def Phase.early : Phase → Bool
  | .due | .claimed _ | .made _ _ | .linked _ _ => true
  | .turning _ _ | .ending _ _ _ _ | .finished => false

/-- A call of `execute_schedule`, for a slot or by hand with a given conversation. -/
structure Process where
  schedule : Nat
  slot : Option Int
  given : Option Nat
  started : Bool
  phase : Phase

structure World where
  db : Db
  now : Int
  processes : List Process
  starts : List Nat

/-- `release` is the delete of a conversation, by its user or because its turn did not start. A reap skips `locked`
    rows; a boot takes the runs `old` enough for `reap_orphaned_runs`. A process that is cut has recorded its outcome
    if that `landed`. -/
inductive Action where
  | tick (d : Nat)
  | edit (schedule : Nat) (edit : Edit)
  | reap (locked : List Nat)
  | boot (old : List Nat)
  | missed
  | poll
  | byHand (schedule conversation : Nat)
  | release (conversation : Nat)
  | insert (p : Nat)
  | make (p conversation : Nat)
  | link (p : Nat)
  | start (p : Nat)
  | record (p : Nat) (reason : Option String)
  | fail (p : Nat) (transient recorded : Bool)
  | cut (p : Nat) (landed : Bool)
  | refuse (p : Nat) (deleted : Bool)
  | finish (p : Nat)
  | renew (p : Nat)
  | crash (p : Nat)

/-- `_RUN_LEASE_SECONDS` -/
def runLease : Int := seconds 120

/-- `reap_orphaned_runs` on the runs that began before its cutoff. -/
def reapOrphanedRuns (db : Db) (now : Int) (old : List Nat) : Db :=
  { db with
    runs := db.runs.mapIdx fun k run =>
      if run.status = .running ∧ k ∈ old then
        { run with finishedAt := some now, status := .failed, slotAt := none, leaseExpiresAt := none }
      else run }

namespace World

def setPhase (world : World) (p : Nat) (process : Process) (phase : Phase) : World :=
  { world with processes := world.processes.set p { process with phase := phase } }

def setSchedule (world : World) (k : Nat) (f : Schedule → Schedule) : World :=
  { world with db := { world.db with schedules := world.db.schedules.modify k f } }

def settle (calendar : Calendar) (world : World) (kept : List Run) : World :=
  kept.foldl (fun world run =>
    if run.isManual then world
    else world.setSchedule run.schedule (Recording.lapse.record calendar (run.slotAt.getD 0) world.now)) world

def spawned (world : World) : List Process :=
  world.db.schedules.zipIdx.filterMap fun (schedule,k) =>
    match dueSchedule world.db k schedule world.now with
    | .due slot => some ⟨k,some slot,none,false,.due⟩
    | .skipped | .left => none

def polled (calendar : Calendar) (world : World) : List Schedule :=
  world.db.schedules.mapIdx fun k schedule =>
    match dueSchedule world.db k schedule world.now with
    | .skipped => advanceNextRunAt calendar world.now schedule
    | .due _ | .left => schedule

def recorded (calendar : Calendar) (world : World) (process : Process) (recording : Recording) : World :=
  match process.slot with
  | some slot => world.setSchedule process.schedule (recording.record calendar slot world.now)
  | none => world

/-- Whether `_record_schedule_error` consumes the slot. -/
def consumes (world : World) (process : Process) (consumeSlot : Bool) : Bool :=
  process.slot.any fun slot =>
    (world.db.schedules[process.schedule]?).any fun schedule => (Recording.error consumeSlot).advances slot schedule

end World

/-- What the process `p` does next. -/
def advance (calendar : Calendar) (world : World) (p : Nat) (process : Process) (action : Action) : World :=
  match action,process.phase with
  | .insert _,.due =>
    match world.db.createRun process.schedule process.slot.isNone process.slot (world.now + runLease) with
    | some db => { world with db := db }.setPhase p process (.claimed world.db.runs.length)
    | none => world.setPhase p process .finished
  | .make _ conversation,.claimed k =>
    if (world.db.runs[k]?).any (·.status = .running) then
      match process.given with
      | some given => world.setPhase p process (.made k given)
      | none =>
        { world with db := { world.db with conversations := world.db.conversations ++ [conversation] } }.setPhase p
          process (.made k conversation)
    else world.setPhase p process (.ending k process.given .failed false)
  | .link _,.made k conversation =>
    match world.db.setRunConversation k conversation with
    | (true,db) => { world with db := db }.setPhase p process (.linked k conversation)
    | (false,_) => world.setPhase p process (.ending k process.given .failed false)
  | .start _,.linked k conversation =>
    { world with starts := world.starts ++ [k] }.setPhase p { process with started := true } (.turning k conversation)
  | .record _ reason,.turning k conversation =>
    (world.recorded calendar process .outcome).setPhase p process
      (.ending k (some conversation) (outcomeOf reason) process.slot.isSome)
  -- A failure that passes leaves the slot due, but only before the turn is tried.
  | .fail _ transient recorded,.claimed k | .fail _ transient recorded,.made k _ =>
    if recorded then
      (world.recorded calendar process (.error (!transient))).setPhase p process
        (.ending k process.given .failed (world.consumes process (!transient)))
    else world.setPhase p process (.ending k process.given .failed false)
  | .fail _ _ recorded,.linked k conversation | .fail _ _ recorded,.turning k conversation =>
    if recorded then
      (world.recorded calendar process (.error true)).setPhase p process
        (.ending k (some conversation) .failed (world.consumes process true))
    else world.setPhase p process (.ending k (some conversation) .failed false)
  | .cut _ _,.claimed k | .cut _ _,.made k _ => world.setPhase p process (.ending k process.given .failed false)
  | .cut _ _,.linked k conversation => world.setPhase p process (.ending k (some conversation) .failed false)
  | .cut _ landed,.turning k conversation =>
    (if landed then world.recorded calendar process .outcome else world).setPhase p process
      (.ending k (some conversation) .failed false)
  | .refuse _ deleted,.linked k conversation =>
    world.setPhase p process
      (.ending k (if deleted ∧ process.given = none then none else some conversation) .failed false)
  | .finish _,.ending k conversation outcome consumed =>
    { world with
      db := world.db.finishRun k conversation outcome.status (process.slot.isSome && !consumed) world.now }.setPhase p
      process .finished
  | .renew _,.claimed k | .renew _,.made k _ | .renew _,.linked k _ | .renew _,.turning k _ =>
    { world with db := world.db.renewLease k (world.now + runLease) }
  | .crash _,_ => world.setPhase p process .finished
  | _,_ => world

def Action.process : Action → Option Nat
  | .insert p | .make p _ | .link p | .start p | .record p _ | .fail p _ _ | .cut p _ | .refuse p _ | .finish p
  | .renew p | .crash p => some p
  | .tick _ | .edit _ _ | .reap _ | .boot _ | .missed | .poll | .byHand _ _ | .release _ => none

def step (calendar : Calendar) (world : World) (action : Action) : World :=
  match action with
  | .tick d => { world with now := world.now + d }
  | .edit k edit => world.setSchedule k edit.apply
  | .reap locked =>
    { world with db := world.db.reapLapsedRuns world.now locked }.settle calendar (world.db.keptRuns world.now locked)
  | .boot old => { world with db := reapOrphanedRuns world.db world.now old }
  | .missed =>
    { world with db := { world.db with schedules := world.db.schedules.map (handleMissedRuns calendar world.now) } }
  | .poll =>
    { world with
      db := { world.db with schedules := world.polled calendar }
      processes := world.processes ++ world.spawned }
  | .byHand schedule conversation =>
    { world with
      db := { world.db with conversations := world.db.conversations ++ [conversation] }
      processes := world.processes ++ [⟨schedule,none,some conversation,false,.due⟩] }
  | .release conversation => { world with db := world.db.releaseConversation conversation }
  | action =>
    match action.process with
    | some p =>
      match world.processes[p]? with
      | some process => advance calendar world p process action
      | none => world
    | none => world

def fresh (schedules : List Schedule) (conversations : List Nat) (now : Int) : World :=
  ⟨⟨schedules,[],conversations⟩,now,[],[]⟩

def World.turns (world : World) (schedule : Nat) (slot : Int) : List Nat :=
  world.starts.filter fun k =>
    (world.db.runs[k]?).any fun run => run.schedule = schedule ∧ run.claimed = some slot

def Process.linkable (process : Process) (db : Db) : Bool :=
  match process.phase with
  | .made _ conversation => conversation ∈ db.conversations
  | _ => true

def Process.keepsSlot (process : Process) : Bool :=
  match process.phase with
  | .ending _ _ _ consumed => !process.started || !process.slot.isSome || consumed
  | _ => true

/-- A conversation is there when it is linked and while its run is in progress; a boot takes no linked run; and a
    process whose turn was started keeps its slot. -/
def Careful (world : World) : Action → Prop
  | .link p => ∀ process ∈ world.processes[p]?, process.linkable world.db = true
  | .release conversation => ∀ run ∈ world.db.runs, run.conversationId = some conversation → run.status ≠ .running
  | .boot old => ∀ k ∈ old, ∀ run ∈ world.db.runs[k]?, run.linked = true → run.status ≠ .running
  | .finish p => ∀ process ∈ world.processes[p]?, process.keepsSlot = true
  | _ => True

instance (world : World) (action : Action) : Decidable (Careful world action) := by
  cases action <;> unfold Careful <;> infer_instance

def Rows (R : Run → Run → Prop) (before after : List Run) : Prop :=
  ∀ k : Nat, before[k]? = none ∧ after[k]? = none ∨
    ∃ run run', before[k]? = some run ∧ after[k]? = some run' ∧ R run run'

structure Slots (run run' : Run) : Prop where
  schedule : run'.schedule = run.schedule
  claimed : run'.claimed = run.claimed
  slotAt : run'.slotAt = run.slotAt ∨ run'.slotAt = none
  running : run'.status = .running → run.status = .running ∧ run'.slotAt = run.slotAt

structure Aged (run run' : Run) : Prop extends Slots run run' where
  linked : run'.linked = run.linked

structure Kept (run run' : Run) : Prop where
  slotAt : run.linked = true → run'.slotAt = run.slotAt
  held : run.linked = true → run'.status = .running → run'.conversationId ≠ none

def Held (runs : List Run) : Prop :=
  ∀ run ∈ runs, run.linked = true → run.status = .running → run.conversationId ≠ none

inductive Moves (world : World) (action : Action) (world' : World) : Prop where
  | spawns (started : List Process) (runs : world'.db.runs = world.db.runs) (starts : world'.starts = world.starts)
      (processes : world'.processes = world.processes ++ started)
      (due : ∀ process ∈ started, process.phase = .due ∧ process.started = false)
  | ages (starts : world'.starts = world.starts) (processes : world'.processes = world.processes)
      (aged : Rows Aged world.db.runs world'.db.runs)
      (kept : Careful world action → Held world.db.runs → Rows Kept world.db.runs world'.db.runs)
  | leaves (p : Nat) (process : Process) (phase : Phase) (there : world.processes[p]? = some process)
      (runs : world'.db.runs = world.db.runs) (starts : world'.starts = world.starts)
      (processes : world'.processes = world.processes.set p { process with phase := phase })
      (same : phase.run = none ∨ phase.run = process.phase.run) (notPast : phase.past = false)
      (early : phase.early = true → process.phase.early = true)
  | inserts (p : Nat) (process : Process) (there : world.processes[p]? = some process)
      (due : process.phase = .due) (free : ∀ slot ∈ process.slot, world.db.slotTaken process.schedule slot = false)
      (run : Run) (runs : world'.db.runs = world.db.runs ++ [run]) (starts : world'.starts = world.starts)
      (processes : world'.processes = world.processes.set p { process with phase := .claimed world.db.runs.length })
      (row : run.schedule = process.schedule ∧ run.slotAt = process.slot ∧ run.claimed = process.slot ∧
        run.linked = false)
  | links (p k conversation : Nat) (process : Process) (run run' : Run) (there : world.processes[p]? = some process)
      (made : process.phase = .made k conversation) (found : world.db.runs[k]? = some run)
      (running : run.status = .running) (runs : world'.db.runs = world.db.runs.set k run')
      (starts : world'.starts = world.starts)
      (processes : world'.processes = world.processes.set p { process with phase := .linked k conversation })
      (slots : Slots run run') (same : run'.slotAt = run.slotAt) (now : run'.linked = true)
      (held : Careful world action → run'.conversationId ≠ none)
  | begins (p k conversation : Nat) (process : Process) (there : world.processes[p]? = some process)
      (linked : process.phase = .linked k conversation) (runs : world'.db.runs = world.db.runs)
      (starts : world'.starts = world.starts ++ [k])
      (processes : world'.processes =
        world.processes.set p { process with started := true, phase := .turning k conversation })
  | finishes (p k : Nat) (process : Process) (there : world.processes[p]? = some process)
      (own : process.phase.run = some k) (starts : world'.starts = world.starts)
      (processes : world'.processes = world.processes.set p { process with phase := .finished })
      (gone : world.db.runs[k]? = none → world'.db.runs = world.db.runs)
      (row : ∀ run ∈ world.db.runs[k]?, ∃ run', world'.db.runs = world.db.runs.set k run' ∧ Aged run run' ∧
        run'.status ≠ .running ∧ (Careful world action → process.started = true → process.slot ≠ none →
          run'.slotAt = run.slotAt))

section
variable {calendar : Calendar} {world : World} {process : Process} {p : Nat} {action : Action}

theorem outcome_not_running (outcome : Outcome) : outcome.status ≠ .running := by
  cases outcome <;> exact RunStatus.noConfusion

theorem Aged.refl (run : Run) : Aged run run := ⟨⟨rfl,rfl,.inl rfl,fun running => ⟨running,rfl⟩⟩,rfl⟩

variable {runs : List Run} {k : Nat} {run : Run}

theorem rows_mapIdx {R : Run → Run → Prop} {f : Nat → Run → Run}
    (each : ∀ k run, runs[k]? = some run → R run (f k run)) : Rows R runs (runs.mapIdx f) := by grind [Rows]

theorem rows_set {R : Run → Run → Prop} {run' : Run} (found : runs[k]? = some run) (related : R run run')
    (others : ∀ run ∈ runs, R run run) : Rows R runs (runs.set k run') := by grind [Rows]

theorem kept_self (held : Held runs) : ∀ run ∈ runs, Kept run run :=
  fun run member => ⟨fun _ => rfl,held run member⟩

theorem moves_none {world' : World} (runs : world'.db.runs = world.db.runs) (starts : world'.starts = world.starts)
    (processes : world'.processes = world.processes) : Moves world action world' :=
  .spawns [] runs starts (by simp [processes]) (fun _ never => absurd never not_mem_nil)

theorem settle_frame (kept : List Run) (world : World) :
    (world.settle calendar kept).db.runs = world.db.runs ∧ (world.settle calendar kept).starts = world.starts ∧
      (world.settle calendar kept).processes = world.processes := by
  induction kept generalizing world with
  | nil => exact ⟨rfl,rfl,rfl⟩
  | cons run rest ih =>
    rw [World.settle,foldl_cons]
    split
    · exact ih world
    · exact ih _

theorem recorded_frame (recording : Recording) :
    (world.recorded calendar process recording).db.runs = world.db.runs ∧
      (world.recorded calendar process recording).starts = world.starts ∧
      (world.recorded calendar process recording).processes = world.processes := by
  unfold World.recorded
  cases process.slot with
  | none | some slot => exact ⟨rfl,rfl,rfl⟩

theorem moves_leaves {between : World} {phase : Phase} (there : world.processes[p]? = some process)
    (frame : between.db.runs = world.db.runs ∧ between.starts = world.starts ∧ between.processes = world.processes)
    (same : phase.run = none ∨ phase.run = process.phase.run) (notPast : phase.past = false)
    (early : phase.early = true → process.phase.early = true) :
    Moves world action (between.setPhase p process phase) :=
  .leaves p process phase there frame.1 frame.2.1 (by rw [World.setPhase,frame.2.2]) same notPast early

theorem reaped_aged (run : Run) (now : Int) : Aged run (Db.reaped run now) := by
  refine ⟨⟨rfl,rfl,?_,fun never => RunStatus.noConfusion never⟩,rfl⟩
  simp only [Db.reaped]
  split
  · exact .inr rfl
  · exact .inl rfl

theorem reaped_slotAt {now : Int} (conversation : run.conversationId ≠ none) : (Db.reaped run now).slotAt = run.slotAt :=
  if_neg conversation

theorem reap_kept (held : Held runs) (now : Int) (locked : List Nat) (k : Nat) (run : Run)
    (found : runs[k]? = some run) : Kept run (if run.lapsed now ∧ k ∉ locked then Db.reaped run now else run) := by
  have own := held run (mem_of_getElem? found)
  split
  · rename_i lapsed
    have running : run.status = .running := by
      have both := lapsed.1
      simp only [Run.lapsed,Bool.and_eq_true,decide_eq_true_eq] at both
      exact both.1
    exact ⟨fun linked => reaped_slotAt (own linked running),fun _ never => RunStatus.noConfusion never⟩
  · exact ⟨fun _ => rfl,own⟩

theorem moves_reap (locked : List Nat) : Moves world (.reap locked) (step calendar world (.reap locked)) := by
  obtain ⟨runs,starts,processes⟩ := @settle_frame calendar (world.db.keptRuns world.now locked)
    { world with db := world.db.reapLapsedRuns world.now locked }
  refine .ages starts processes ?_ ?_
  · refine runs.symm ▸ rows_mapIdx fun k run _ => ?_
    split
    · exact reaped_aged run world.now
    · exact Aged.refl run
  · intro _ held; exact runs.symm ▸ rows_mapIdx (reap_kept held world.now locked)

theorem moves_boot (old : List Nat) : Moves world (.boot old) (step calendar world (.boot old)) := by
  refine .ages rfl rfl (rows_mapIdx fun k run _ => ?_) fun careful held => rows_mapIdx fun k run found => ?_
  · split
    · exact ⟨⟨rfl,rfl,.inr rfl,fun never => RunStatus.noConfusion never⟩,rfl⟩
    · exact Aged.refl run
  · split
    · rename_i taken
      -- a boot that takes a linked run is not careful
      have unlinked : run.linked ≠ true := fun linked => careful k taken.2 run found linked taken.1
      exact ⟨fun linked => absurd linked unlinked,fun linked => absurd linked unlinked⟩
    · exact ⟨fun _ => rfl,held run (mem_of_getElem? found)⟩

theorem moves_release (conversation : Nat) :
    Moves world (.release conversation) (step calendar world (.release conversation)) := by
  have indexed : (world.db.releaseConversation conversation).runs = world.db.runs.mapIdx fun _ run =>
      if run.conversationId = some conversation then { run with conversationId := none } else run := by
    refine ext_getElem? fun k => ?_
    simp [Db.releaseConversation]
  refine .ages rfl rfl ?_ fun careful held => ?_
  · refine indexed.symm ▸ rows_mapIdx fun k run _ => ?_
    split
    · exact ⟨⟨rfl,rfl,.inl rfl,fun running => ⟨running,rfl⟩⟩,rfl⟩
    · exact Aged.refl run
  · refine indexed.symm ▸ rows_mapIdx fun k run found => ?_
    split
    · rename_i pointed
      have ended := careful run (mem_of_getElem? found) pointed
      exact ⟨fun _ => rfl,fun _ running => absurd running ended⟩
    · exact ⟨fun _ => rfl,held run (mem_of_getElem? found)⟩

theorem moves_renew (k : Nat) (lease : Int) : Moves world action { world with db := world.db.renewLease k lease } := by
  cases found : world.db.runs[k]? with
  | none => exact moves_none (by simp [Db.renewLease,found]) rfl rfl
  | some run =>
    by_cases running : run.status = .running
    · have renewed : (world.db.renewLease k lease).runs =
          world.db.runs.set k { run with leaseExpiresAt := some lease } := by simp [Db.renewLease,found,running]
      refine .ages rfl rfl ?_ fun _ held => ?_
      · exact renewed.symm ▸ rows_set found ⟨⟨rfl,rfl,.inl rfl,fun running => ⟨running,rfl⟩⟩,rfl⟩
          fun run _ => Aged.refl run
      · exact renewed.symm ▸ rows_set found ⟨fun _ => rfl,held run (mem_of_getElem? found)⟩ (kept_self held)
    · exact moves_none (by simp [Db.renewLease,found,running]) rfl rfl

attribute [local simp] advance

theorem moves_insert (there : world.processes[p]? = some process) (due : process.phase = .due) :
    Moves world action (advance calendar world p process (.insert p)) := by
  simp only [advance,due]
  by_cases taken : process.slot.any fun slot => world.db.slotTaken process.schedule slot
  · rw [Db.createRun,if_pos taken]
    exact moves_leaves there ⟨rfl,rfl,rfl⟩ (.inl rfl) rfl (fun never => Bool.noConfusion never)
  · rw [Db.createRun,if_neg taken]
    refine .inserts p process there due ?_ _ rfl rfl rfl ⟨rfl,rfl,rfl,rfl⟩
    intro slot claims
    rw [Option.mem_def] at claims
    simpa [claims] using taken

theorem moves_link {conversation : Nat} (there : world.processes[p]? = some process)
    (made : process.phase = .made k conversation) : Moves world (.link p) (advance calendar world p process (.link p)) := by
  have lost : Moves world (.link p) (world.setPhase p process (.ending k process.given .failed false)) :=
    moves_leaves there ⟨rfl,rfl,rfl⟩ (.inr (by rw [made]; rfl)) rfl (fun never => Bool.noConfusion never)
  simp only [advance,made]
  cases found : world.db.runs[k]? with
  | none => simpa only [Db.setRunConversation,found] using lost
  | some run =>
    by_cases running : run.status = .running
    · simp only [Db.setRunConversation,found,if_pos running]
      refine .links p k conversation process run _ there made found running rfl rfl rfl
        ⟨rfl,rfl,.inl rfl,fun _ => ⟨running,rfl⟩⟩ rfl rfl ?_
      intro careful
      have present : conversation ∈ world.db.conversations := by
        have linkable := careful process there
        simpa only [Process.linkable,made,decide_eq_true_eq] using linkable
      simp [Db.stillExists,present]
    · simpa only [Db.setRunConversation,found,if_neg running] using lost

theorem finishRun_row {db : Db} (conversation : Option Nat) (outcome : Outcome) (releaseSlot : Bool) (now : Int)
    (found : db.runs[k]? = some run) : ∃ run', (db.finishRun k conversation outcome.status releaseSlot now).runs =
    db.runs.set k run' ∧ Aged run run' ∧ run'.status ≠ .running ∧ (releaseSlot = false → run'.slotAt = run.slotAt) := by
  simp only [Db.finishRun,found]
  refine ⟨_,rfl,?_,outcome_not_running outcome,?_⟩
  · refine ⟨⟨rfl,rfl,?_,fun running => absurd running (outcome_not_running outcome)⟩,rfl⟩
    cases releaseSlot with
    | true => exact .inr rfl
    | false => exact .inl rfl
  · intro keeps
    rw [keeps]; rfl

section
variable (there : world.processes[p]? = some process)
include there

theorem moves_finish {conversation : Option Nat} {outcome : Outcome} {consumed : Bool}
    (ending : process.phase = .ending k conversation outcome consumed) :
    Moves world (.finish p) (advance calendar world p process (.finish p)) := by
  simp only [advance,ending]
  refine .finishes p k process there (by rw [ending]; rfl) rfl rfl ?_ ?_
  · intro gone
    simp [World.setPhase,Db.finishRun,gone]
  · intro run found
    obtain ⟨run',runs,aged,ended,keeps⟩ := finishRun_row conversation outcome (process.slot.isSome && !consumed)
      world.now found
    refine ⟨run',runs,aged,ended,?_⟩
    intro careful started cron
    have isCron : process.slot.isSome = true := Option.isSome_iff_ne_none.mpr cron
    have used : consumed = true := by simpa [Process.keepsSlot,ending,started,isCron] using careful process there
    exact keeps (by simp [used])

theorem moves_ending {between : World} {conversation : Option Nat} {outcome : Outcome} {consumed : Bool}
    (own : process.phase.run = some k)
    (frame : between.db.runs = world.db.runs ∧ between.starts = world.starts ∧ between.processes = world.processes) :
    Moves world action (between.setPhase p process (.ending k conversation outcome consumed)) :=
  moves_leaves there frame (.inr own.symm) rfl (fun never => Bool.noConfusion never)

theorem moves_make {conversation : Nat} (claimed : process.phase = .claimed k) :
    Moves world action (advance calendar world p process (.make p conversation)) := by
  have own : process.phase.run = some k := by rw [claimed]; rfl
  have early : process.phase.early = true := by rw [claimed]; rfl
  simp only [advance,claimed]
  split
  · cases process.given with
    | none | some given => exact moves_leaves there ⟨rfl,rfl,rfl⟩ (.inr own.symm) rfl (fun _ => early)
  · exact moves_ending there own ⟨rfl,rfl,rfl⟩

theorem moves_fail {transient recorded : Bool} :
    Moves world action (advance calendar world p process (.fail p transient recorded)) := by
  cases phase : process.phase with
  | due | finished | ending => simpa only [advance,phase] using moves_none rfl rfl rfl
  | claimed | made | linked | turning =>
    simp only [advance,phase]
    split
    · exact moves_ending there (by rw [phase]; rfl) (recorded_frame _)
    · exact moves_ending there (by rw [phase]; rfl) ⟨rfl,rfl,rfl⟩

theorem moves_cut {landed : Bool} :
    Moves world action (advance calendar world p process (.cut p landed)) := by
  cases phase : process.phase with
  | due | finished | ending => simpa only [advance,phase] using moves_none rfl rfl rfl
  | claimed | made | linked => simpa only [advance,phase] using moves_ending there (by rw [phase]; rfl) ⟨rfl,rfl,rfl⟩
  | turning k conversation =>
    simp only [advance,phase]
    refine moves_ending there (by rw [phase]; rfl) ?_
    split
    · exact recorded_frame _
    · exact ⟨rfl,rfl,rfl⟩

theorem moves_advance (about : action.process = some p) :
    Moves world action (advance calendar world p process action) := by
  cases action with
  | tick | edit | reap | boot | missed | poll | byHand | release => cases about
  | insert q =>
    cases about
    cases phase : process.phase with
    | due => exact moves_insert there phase
    | _ => simpa only [advance,phase] using moves_none rfl rfl rfl
  | make q conversation =>
    cases about
    cases phase : process.phase with
    | claimed k => exact moves_make there phase
    | _ => simpa only [advance,phase] using moves_none rfl rfl rfl
  | link q =>
    cases about
    cases phase : process.phase with
    | made k conversation => exact moves_link there phase
    | _ => simpa only [advance,phase] using moves_none rfl rfl rfl
  | start q =>
    cases phase : process.phase with
    | linked k conversation =>
      simp only [advance,phase]
      exact .begins p k conversation process there phase rfl rfl rfl
    | _ => simpa only [advance,phase] using moves_none rfl rfl rfl
  | record q reason =>
    cases phase : process.phase with
    | turning k conversation =>
      simp only [advance,phase]
      exact moves_ending there (by rw [phase]; rfl) (recorded_frame _)
    | _ => simpa only [advance,phase] using moves_none rfl rfl rfl
  | fail q transient recorded => cases about; exact moves_fail there
  | cut q landed => cases about; exact moves_cut there
  | refuse q deleted =>
    cases phase : process.phase with
    | linked k conversation =>
      simp only [advance,phase]
      exact moves_ending there (by rw [phase]; rfl) ⟨rfl,rfl,rfl⟩
    | _ => simpa only [advance,phase] using moves_none rfl rfl rfl
  | finish q =>
    cases about
    cases phase : process.phase with
    | ending k conversation outcome consumed => exact moves_finish there phase
    | _ => simpa only [advance,phase] using moves_none rfl rfl rfl
  | renew q =>
    cases phase : process.phase with
    | claimed k | made k _ | linked k _ | turning k _ =>
      simp only [advance,phase]
      exact moves_renew k _
    | _ => simpa only [advance,phase] using moves_none rfl rfl rfl
  | crash q => exact moves_leaves there ⟨rfl,rfl,rfl⟩ (.inl rfl) rfl (fun never => Bool.noConfusion never)

end

theorem spawned_due : ∀ process ∈ world.spawned, process.phase = .due ∧ process.started = false := by
  grind only [mem_filterMap,World.spawned]

theorem step_moves (calendar : Calendar) (world : World) (action : Action) :
    Moves world action (step calendar world action) := by
  cases about : action.process with
  | some p =>
    have takes : step calendar world action = match world.processes[p]? with
        | some process => advance calendar world p process action
        | none => world := by
      cases action <;> cases about <;> rfl
    grind only [moves_none,moves_advance]
  | none =>
    cases action with
    | tick | edit | missed => exact moves_none rfl rfl rfl
    | reap locked => exact moves_reap locked
    | boot old => exact moves_boot old
    | release conversation => exact moves_release conversation
    | poll => exact .spawns world.spawned rfl rfl rfl spawned_due
    | byHand schedule conversation =>
      refine .spawns [⟨schedule,none,some conversation,false,.due⟩] rfl rfl rfl ?_
      intro process member
      rw [mem_singleton.mp member]; exact ⟨rfl,rfl⟩
    | insert | make | link | start | record | fail | cut | refuse | finish | renew | crash => cases about

end

end Cowork.Scheduler
