import Cowork.ServiceSteps

/-!
Fencing: a superseded execution cannot act on its Task Run any more. The epoch of a run
never goes down, and a call with another epoch or computer than the run's is refused and
changes nothing, if the run loads; loading checks the length of `last_error`, which
`set_run_status` and `sync_session` assign uncut.
-/
namespace Cowork.Fencing
open ControlModels RunState Effects ControlStore Tables ControlService Transitions
open RunChanges ServiceSteps

def ErrorFits : Op → Prop
  | .setRunStatus _ _ _ error => fits 4000 error = true
  | .syncSession _ session => fits 4000 session.lastError = true
  | _ => True

def Stale (run : TaskRun) (computerId : String) (epoch : Nat) : Prop := epoch ≠ run.epoch ∨ computerId ≠ run.computerId

/-- The call raises `StaleRuntimeEvent` and leaves everything as it was. -/
def Refused {α : Type} (p : Prog Docs Err α) (s : Docs) : Prop := ∃ text, p s = (.error (.staleRuntimeEvent text),s)

variable {run : TaskRun}

theorem run_valid_iff : run.valid = true ↔ wellFormedId run.id = true ∧ named 128 run.id = true ∧
    named 128 run.taskId = true ∧ named 128 run.computerId = true ∧ 1 ≤ run.epoch ∧ fits 128 run.leaseId = true ∧
    fits 128 run.lastEventId = true ∧ fits 4000 run.lastError = true := by
  simp only [TaskRun.valid,Bool.and_eq_true,decide_eq_true_eq]
  tauto

theorem superseded_valid {mode : ResumeMode} (before : run.valid = true) : (superseded mode run).valid = true := by
  obtain ⟨wellFormed,id,task,computer,_,_,_,error⟩ := run_valid_iff.mp before
  exact run_valid_iff.mpr ⟨wellFormed,id,task,computer,Nat.le_add_left 1 run.epoch,rfl,rfl,error⟩

theorem moved_to_valid {target : String} (before : run.valid = true) (name : named 128 target = true) :
    TaskRun.valid { run with computerId := target } = true := by grind only [run_valid_iff]

theorem change_valid {env : Env} {label : Label} {after : TaskRun} (change : Change env label run after)
    (text : ∀ status error, label = .set status error → fits 4000 error = true) (before : run.valid = true) :
    after.valid = true := by
  cases change with
  | @claim now expires leaseId run after waiting ok =>
    have held : (leased leaseId.text expires run).valid = true := by grind [run_valid_iff,leased,fits,leaseId.short]
    exact (transitionRun_valid ok held rfl :)
  | @event now event run after fence newer ok =>
    have kept : after.valid = true := by grind only [applyEvent_ok,transitionRun_valid,TaskRun.valid,renewed]
    obtain ⟨wellFormed,id,task,computer,epoch,lease,_,error⟩ := run_valid_iff.mp kept
    have name : fits 128 (recorded event after).lastEventId = true := by simpa [recorded,fits] using event.idFits
    exact run_valid_iff.mpr ⟨wellFormed,id,task,computer,epoch,lease,name,error⟩
  | expire ok =>
    rcases expireLease_ok ok with rfl | ⟨_,moved⟩
    · exact before
    · exact (transitionRun_valid moved (superseded_valid before) (by decide) :)
  | fence name ok => exact (transitionRun_valid ok (moved_to_valid (superseded_valid before) name) rfl :)
  | reassign name _ => exact (moved_to_valid before name :)
  | set ok => exact (transitionRun_valid ok before (text _ _ rfl) :)

theorem step_loadable (env : Env) (backend : Backend) {s : Docs} (filed : RunsFiled s) {op : Op} (short : ErrorFits op)
    {id : String} (found : s.find .runs id = some run) (before : run.valid = true) :
    ∃ after, (step env backend s op).find .runs id = some after ∧ after.valid = true := by
  refine (step_kept env backend s op filed).2.keeps ?_ found before
  rintro run after ⟨label,may,change⟩ loadable
  refine change_valid change ?_ loadable
  rintro status error rfl
  cases op <;> grind only [ErrorFits,May]

theorem requireEventOwner_stale {computerId : String} {epoch : Nat} (stale : Stale run computerId epoch) :
    requireEventOwner run computerId epoch = .error (.staleRuntimeEvent "Task Run ownership changed") := by
  grind only [requireEventOwner,Stale]

theorem requireFence_stale {now : Time} {computerId leaseId : String} {epoch : Nat}
    (stale : Stale run computerId epoch) :
    requireFence now run computerId leaseId epoch = .error (.staleRuntimeEvent "Task Run ownership changed") := by
  simp [requireFence,requireEventOwner_stale stale]

section
variable (env : Env) (backend : Backend) {s : Docs} {id : String} {run : TaskRun}

section
variable (loading : get backend .runs id s = (.ok run,s)) (now : Time)
include loading now

theorem acceptEvent_refused {event : RuntimeEvent}
    (here : event.runId = id) (apply : Option (TaskRun → Prog Docs Err TaskRun))
    (stale : Stale run event.computerId event.epoch) : Refused (acceptEvent env backend now event apply) s := by
  unfold Refused acceptEvent
  split
  · exact ⟨_,rfl⟩
  · refine ⟨"Task Run ownership changed",?_⟩
    subst here
    apply updateRun_raises loading
    unfold acceptOperation
    split
    · exact andThen_error (by rw [attempt_run,requireEventOwner_stale stale])
    · exact andThen_error (by rw [attempt_run,requireFence_stale stale])

theorem claimCommands_refused (leaseId : String)
    {computerId : String} {epoch : Nat} (stale : Stale run computerId epoch) :
    Refused (claimCommands backend now id computerId leaseId epoch) s := by
  refine ⟨"Task Run ownership changed",andThen_error (updateRunWith_raises loading ?_)⟩
  exact andThen_error (by rw [attempt_run,requireFence_stale stale])

theorem acknowledgeCommand_refused (commandId leaseId : String) (result error : Option String) {computerId : String}
    {epoch : Nat} (stale : Stale run computerId epoch) :
    Refused (acknowledgeCommand backend now id commandId computerId leaseId epoch result error) s := by
  refine ⟨"Task Run ownership changed",(andThen_ok loading).trans ?_⟩
  exact andThen_error (by rw [attempt_run,requireFence_stale stale])

end

theorem acceptEvent_unloadable (filed : wellFormedId id = true) (found : s.find .runs id = some run)
    (broken : run.valid = false) (now : Time) {event : RuntimeEvent} (here : event.runId = id)
    (spoken : event.protocolVersion = runtimeProtocolVersion) (apply : Option (TaskRun → Prog Docs Err TaskRun)) :
    (acceptEvent env backend now event apply s).1 = .error (.validationError "TaskRun") := by
  have loading : get backend .runs id s = (.error (.validationError "TaskRun"),s) := by
    simp [ControlStore.get,filed,found,valid,broken,modelName]
  subst here
  cases backend <;>
    simp [acceptEvent,spoken,updateRun,updateRunWith,transaction,atomically,andThen,loading]

theorem reach_filed (filed : RunsFiled s) (ops : List Op) : RunsFiled (reach (step env backend) s ops) :=
  always_reach (fun s op before => (step_kept env backend s op before).1) filed ops

theorem reach_epoch (filed : RunsFiled s) (found : s.find .runs id = some run) (ops : List Op) :
    ∃ later, (reach (step env backend) s ops).find .runs id = some later ∧ run.epoch ≤ later.epoch := by
  induction ops generalizing s run with
  | nil => exact ⟨run,found,Nat.le_refl _⟩
  | cons op rest ih =>
    have kept := step_kept env backend s op filed
    obtain ⟨middle,foundMiddle,first⟩ := kept.2.keeps (P := fun after => run.epoch ≤ after.epoch)
      (fun _ _ ⟨_,_,change⟩ before => before.trans (change_epoch change)) found (Nat.le_refl _)
    obtain ⟨later,foundLater,more⟩ := ih kept.1 foundMiddle
    exact ⟨later,foundLater,first.trans more⟩

theorem reach_loadable (filed : RunsFiled s) (found : s.find .runs id = some run) (loadable : run.valid = true)
    {ops : List Op} (short : ∀ op ∈ ops, ErrorFits op) :
    ∃ later, (reach (step env backend) s ops).find .runs id = some later ∧ later.valid = true := by
  induction ops generalizing s run with
  | nil => exact ⟨run,found,loadable⟩
  | cons op rest ih =>
    obtain ⟨middle,foundMiddle,loads⟩ := step_loadable env backend filed (short op (by simp)) found loadable
    exact ih (step_kept env backend s op filed).1 foundMiddle loads (fun other member => short other (by simp [member]))

/-- The epoch of a stored run does not go down, and without overlong error texts every call with another epoch or
    computer than the run's is refused and changes nothing. -/
theorem superseded_execution_refused (filed : RunsFiled s) (found : s.find .runs id = some run)
    (loadable : run.valid = true) (ops more : List Op) :
    ∃ before current,(reach (step env backend) s ops).find .runs id = some before ∧
      (reach (step env backend) s (ops ++ more)).find .runs id = some current ∧ before.epoch ≤ current.epoch ∧
      ((∀ op ∈ ops ++ more, ErrorFits op) →
        (∀ now event apply, event.runId = id → Stale current event.computerId event.epoch →
          Refused (acceptEvent env backend now event apply) (reach (step env backend) s (ops ++ more))) ∧
        (∀ now computerId leaseId epoch, Stale current computerId epoch →
          Refused (claimCommands backend now id computerId leaseId epoch) (reach (step env backend) s (ops ++ more))) ∧
        (∀ now commandId computerId leaseId epoch result error, Stale current computerId epoch →
          Refused (acknowledgeCommand backend now id commandId computerId leaseId epoch result error)
            (reach (step env backend) s (ops ++ more)))) := by
  obtain ⟨before,foundBefore,_⟩ := reach_epoch env backend filed found ops
  obtain ⟨current,foundCurrent,older⟩ := reach_epoch env backend (reach_filed env backend filed ops) foundBefore more
  rw [← reach_append] at foundCurrent
  refine ⟨before,current,foundBefore,foundCurrent,older,fun short => ?_⟩
  obtain ⟨later,foundLater,loads⟩ := reach_loadable env backend filed found loadable short
  rw [foundCurrent] at foundLater
  cases foundLater
  have loading := get_stored backend (reach_filed env backend filed (ops ++ more)) foundCurrent loads
  refine ⟨?_,?_,?_⟩
  · exact fun now event apply here stale => acceptEvent_refused env backend loading now here apply stale
  · exact fun now computerId leaseId epoch stale => claimCommands_refused backend loading now leaseId stale
  · exact fun now commandId computerId leaseId epoch result error stale =>
      acknowledgeCommand_refused backend loading now commandId leaseId result error stale

end

def plainEnv : Env :=
  { redactText := fun text => text,sanitize := fun value => value,str := fun _ => "",localComputerId := "desktop" }
def queuedRun : TaskRun := { id := "run",taskId := "task",computerId := "laptop",createdAt := 0,updatedAt := 0 }
def queuedTask : CodeTask := { id := "task",title := "Task",createdAt := 0,updatedAt := 0 }
def laptop : Computer := { id := "laptop",name := "Laptop",lastSeenAt := 0,createdAt := 0,updatedAt := 0 }
def freshStore : Docs :=
  ((Table.empty.put .computers "laptop" laptop).put .tasks "task" queuedTask).put .runs "run" queuedRun
def firstLease : Token := ⟨"lease",by decide,by decide⟩
def lapse : List Op := [.acquireLease oldestDocument 0 "laptop" firstLease,.expireLeases (seconds 31)]
def lapsedRun : TaskRun :=
  { queuedRun with
    status := .recovering
    epoch := 2
    recoveryCount := 1
    updatedAt := seconds 31
    lastError := some "The computer stopped responding. The task can be resumed safely." }
def lateEvent : RuntimeEvent :=
  { id := "event",runId := "run",computerId := "laptop",leaseId := "lease",epoch := 1,seq := 1,kind := .checkpoint }

theorem freshStore_filed : RunsFiled freshStore := by
  have filed : freshStore.Filed := by
    refine filed_put (filed_put (filed_put filed_empty .computers ?_) .tasks ?_) .runs ?_
    · rfl
    · rfl
    · rfl
  exact filed .runs

theorem lapse_reaches : (reach (step plainEnv .files) freshStore lapse).find .runs "run" = some lapsedRun := by decide

theorem lapsed_execution_refused :
    Refused (acceptEvent plainEnv .files (seconds 32) lateEvent none) (reach (step plainEnv .files) freshStore lapse) := by
  have stored : freshStore.find .runs "run" = some queuedRun := by decide
  obtain ⟨_,current,_,found,_,refused⟩ :=
    superseded_execution_refused plainEnv .files freshStore_filed stored (by decide) lapse []
  rw [List.append_nil] at found refused
  cases found
  exact (refused (by simp [lapse,ErrorFits])).1 (seconds 32) lateEvent none rfl (.inl (by decide))

@[irreducible] def overlong : String := String.ofList (List.replicate 4001 'x')

theorem overlong_length : overlong.length = 4001 := by
  unfold overlong
  rw [String.length_ofList,List.length_replicate]

theorem overlong_unfit : fits 4000 (some overlong) = false := by
  rw [fits,Option.all_some,overlong_length]
  rfl

def spoil : List Op := lapse ++ [.setRunStatus (seconds 32) "run" .failed (some overlong)]

/-- The event of the superseded execution meets a run that does not load, and is not refused as stale. -/
theorem overlong_error_hides_the_fence :
    (∃ current,(reach (step plainEnv .files) freshStore spoil).find .runs "run" = some current ∧
        lateEvent.epoch < current.epoch) ∧
      ¬Refused (acceptEvent plainEnv .files (seconds 33) lateEvent none)
        (reach (step plainEnv .files) freshStore spoil) := by
  have failing : transitionRun (seconds 32) .failed (some overlong) lapsedRun =
      .ok (moved (seconds 32) .failed (some overlong) lapsedRun) := rfl
  have wrote := updateRun_attempt_writes .files (seconds 32) (reach_filed plainEnv .files freshStore_filed lapse)
    lapse_reaches (by decide) failing rfl (fun same => by cases congrArg TaskRun.status same)
  have found : (reach (step plainEnv .files) freshStore spoil).find .runs "run" =
      some (touch (seconds 32) .runs (moved (seconds 32) .failed (some overlong) lapsedRun)) := by
    exact (congrArg (fun t => Table.find t .runs "run") wrote).trans (find_put_self ..)
  have broken : (touch (seconds 32) .runs (moved (seconds 32) .failed (some overlong) lapsedRun)).valid = false := by
    simp only [TaskRun.valid,touch,moved,overlong_unfit,Bool.and_false]
  refine ⟨⟨_,found,by decide⟩,?_⟩
  rintro ⟨text,refused⟩
  have raised := acceptEvent_unloadable plainEnv .files (by decide) found broken (seconds 33)
    (show lateEvent.runId = "run" from rfl) rfl none
  rw [refused] at raised
  cases raised

end Cowork.Fencing
