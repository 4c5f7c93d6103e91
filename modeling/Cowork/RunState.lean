import Cowork.ControlModels

/-!
The transition table of Task Runs (`run_state.py`). `transitionRun` is the only
operation that writes a run's status; what it can do is said once, in
`transitionRun_ok`.
-/
namespace Cowork.RunState
open ControlModels

def allowedTransitions : RunStatus → List RunStatus
  | .queued => [.preparing,.cancelled,.failed]
  | .preparing => [.ready,.cancelled,.failed,.interrupted,.recovering]
  | .ready => [.running,.completed,.cancelled,.failed,.recovering]
  | .running => [.awaitingApproval,.completed,.ready,.cancelled,.interrupted,.failed,.recovering]
  | .awaitingApproval => [.running,.ready,.completed,.cancelled,.interrupted,.failed,.recovering]
  | .interrupted => [.recovering,.cancelled,.failed]
  | .recovering => [.preparing,.ready,.running,.cancelled,.failed]
  | .completed => []
  | .cancelled => []
  | .failed => [.recovering]

def moved (now : Time) (target : RunStatus) (error : Option String) (run : TaskRun) : TaskRun :=
  { run with
    status := target
    updatedAt := now
    lastError := error
    startedAt := if target = .running ∧ run.startedAt = none then some now else run.startedAt
    finishedAt := if target.terminal then some now else run.finishedAt
    leaseId := if target.terminal then none else run.leaseId
    leaseExpiresAt := if target.terminal then none else run.leaseExpiresAt }

def transitionRun (now : Time) (target : RunStatus) (error : Option String) (run : TaskRun) : Except Err TaskRun :=
  if target = run.status then .ok run
  else if target ∉ allowedTransitions run.status then
    .error (.invalidRunTransition ("Task Run cannot move from " ++ run.status.value ++ " to " ++ target.value))
  else .ok (moved now target error run)

variable {now : Time} {target : RunStatus} {error : Option String} {run after : TaskRun}

theorem transitionRun_ok (ok : transitionRun now target error run = .ok after) : target = run.status ∧ after = run ∨
    target ≠ run.status ∧ target ∈ allowedTransitions run.status ∧ after = moved now target error run := by
  grind only [transitionRun]

theorem transitionRun_status (ok : transitionRun now target error run = .ok after) : after.status = target := by
  rcases transitionRun_ok ok with ⟨same,rfl⟩ | ⟨_,_,rfl⟩
  · exact same.symm
  · rfl

structure SameExecution (a b : TaskRun) : Prop where
  id : b.id = a.id
  taskId : b.taskId = a.taskId
  computerId : b.computerId = a.computerId
  epoch : b.epoch = a.epoch
  lastEventSeq : b.lastEventSeq = a.lastEventSeq
  lastEventId : b.lastEventId = a.lastEventId

theorem SameExecution.refl (a : TaskRun) : SameExecution a a := ⟨rfl,rfl,rfl,rfl,rfl,rfl⟩

theorem moved_same (now : Time) (target : RunStatus) (error : Option String) (run : TaskRun) :
    SameExecution run (moved now target error run) := ⟨rfl,rfl,rfl,rfl,rfl,rfl⟩

theorem transitionRun_same (ok : transitionRun now target error run = .ok after) : SameExecution run after := by
  rcases transitionRun_ok ok with ⟨_,rfl⟩ | ⟨_,_,rfl⟩
  · exact .refl _
  · exact moved_same now target error run

theorem transitionRun_valid (ok : transitionRun now target error run = .ok after) (before : run.valid = true)
    (text : fits 4000 error = true) : after.valid = true := by
  rcases transitionRun_ok ok with ⟨_,rfl⟩ | ⟨_,_,rfl⟩
  all_goals grind [fits,moved,TaskRun.valid]

theorem not_queued_again (status : RunStatus) : RunStatus.queued ∉ allowedTransitions status := by
  cases status <;> decide

theorem leaves_terminal {status : RunStatus} (ended : status.terminal = true)
    (permitted : target ∈ allowedTransitions status) : status = .failed ∧ target = .recovering := by
  cases status <;> simp_all [RunStatus.terminal,allowedTransitions]

end Cowork.RunState
