import Cowork.Contracts
import Cowork.ControlStore

/-!
`ControlPlaneService` (`control_service.py`) and the recovery of runs
(`run_recovery.py`), over either store. A call reads the clock once (`now`); identifiers
drawn with `uuid4` or `secrets` are arguments. What `redaction.py` does to texts is the
functions of an `Env`, whatever they are.
-/
namespace Cowork.ControlService
open Json ControlModels Contracts RunState Effects ControlStore

/-- The redaction of texts and payloads, Python's `str` of a JSON value, and the computer the service runs on. -/
structure Env where
  redactText : String → String
  sanitize : Value → Value
  str : Value → String
  localComputerId : String

def offlineAfter : Nat := seconds 35
def leaseDuration : Nat := seconds 30
def commandClaimDuration : Nat := seconds 20

def sessionStatus : SessionStatus → RunStatus
  | .ready => .ready
  | .running => .running
  | .awaitingApproval => .awaitingApproval
  | .completed => .completed
  | .cancelled => .cancelled
  | .interrupted => .interrupted
  | .failed => .failed

/-- `hmac.compare_digest` on texts: it refuses characters outside ASCII. -/
def compareDigest (a b : String) : Except Err Bool :=
  if a.toList.all (fun c => decide (c.toNat < 128)) && b.toList.all (fun c => decide (c.toNat < 128)) then .ok (a == b)
  else .error (.typeError "comparing strings with non-ASCII characters is not supported")

def requireEventOwner (run : TaskRun) (computerId : String) (epoch : Nat) : Except Err Unit :=
  if run.computerId ≠ computerId ∨ run.epoch ≠ epoch then .error (.staleRuntimeEvent "Task Run ownership changed")
  else .ok ()

/-- The lease part of `_require_fence`. -/
def requireLease (now : Time) (run : TaskRun) (leaseId : String) : Except Err Unit :=
  match run.leaseId with
  | none => .error (.staleRuntimeEvent "Task Run ownership changed")
  | some held =>
    if held = "" then .error (.staleRuntimeEvent "Task Run ownership changed")
    else match compareDigest held leaseId with
      | .error e => .error e
      | .ok false => .error (.staleRuntimeEvent "Task Run lease is stale")
      | .ok true =>
        match run.leaseExpiresAt with
        | none => .error (.staleRuntimeEvent "Task Run lease expired")
        | some expires => if expires < now then .error (.staleRuntimeEvent "Task Run lease expired") else .ok ()

def requireFence (now : Time) (run : TaskRun) (computerId leaseId : String) (epoch : Nat) : Except Err Unit :=
  match requireEventOwner run computerId epoch with
  | .error e => .error e
  | .ok () => requireLease now run leaseId

/-- The error text of an `error` event. -/
def eventError (env : Env) (payload : Fields) : String :=
  cut 4000 (env.redactText (env.str
    (payload.orElse "message" (payload.orElse "detail" (.str "Runtime failed")))))

def applyEvent (env : Env) (now : Time) (event : RuntimeEvent) (run : TaskRun) : Except Err TaskRun :=
  match event.kind with
  | .checkpoint =>
    match env.sanitize (.obj event.payload) with
    | .obj fields => .ok { run with checkpoint := fields }
    | _ => .ok { run with checkpoint := .nil }
  | .status =>
    match event.payload.get "status" with
    | some (.str text) =>
      match RunStatus.ofValue text with
      | some status => transitionRun now status none run
      | none => .error (.valueError (text ++ " is not a valid RunStatus"))
    | _ => .ok run
  | .turnCompleted => transitionRun now .ready none run
  | .error => transitionRun now .failed (some (eventError env event.payload)) run
  | .event | .approval | .workspace => .ok run

/-- The run with its lease renewed, before `accept_event` applies the event. -/
def renewed (now : Time) (run : TaskRun) : TaskRun := { run with leaseExpiresAt := some (now + leaseDuration) }

def recorded (event : RuntimeEvent) (run : TaskRun) : TaskRun :=
  { run with lastEventSeq := event.seq,lastEventId := some event.id }

def redelivered (event : RuntimeEvent) (run : TaskRun) : Prop :=
  event.seq = run.lastEventSeq ∧ run.lastEventId = some event.id

instance (event : RuntimeEvent) (run : TaskRun) : Decidable (redelivered event run) :=
  inferInstanceAs (Decidable (_ ∧ _))

def observe {σ : Type} (apply : Option (TaskRun → Prog σ Err TaskRun)) (run : TaskRun) : Prog σ Err TaskRun :=
  match apply with
  | none => ret run
  | some callback => callback run

/-- The operation that `accept_event` hands to `update_run`. -/
def acceptOperation {σ : Type} (env : Env) (now : Time) (event : RuntimeEvent)
    (apply : Option (TaskRun → Prog σ Err TaskRun)) (run : TaskRun) : Prog σ Err TaskRun :=
  if redelivered event run then do
    -- The lease is not asked for: a terminal event has removed it.
    attempt (requireEventOwner run event.computerId event.epoch)
    ret run
  else do
    attempt (requireFence now run event.computerId event.leaseId event.epoch)
    if event.seq ≤ run.lastEventSeq then raise (.staleRuntimeEvent "Runtime event sequence is stale")
    else do
      let applied ← attempt (applyEvent env now event (renewed now run))
      let after ← observe apply applied
      ret (recorded event after)

section
variable (env : Env) (backend : Backend)

def acceptEvent (now : Time) (event : RuntimeEvent) (apply : Option (TaskRun → Prog Docs Err TaskRun)) :
    Prog Docs Err TaskRun :=
  if event.protocolVersion ≠ runtimeProtocolVersion then
    raise (.staleRuntimeEvent "Runtime protocol version is not supported")
  else updateRun backend now event.runId (acceptOperation env now event apply)

/-- `"restore"` when every workspace of the run stands ready somewhere. -/
def restorable (workspaces : List ExecutionWorkspace) : Bool :=
  !workspaces.isEmpty && workspaces.all (fun item => item.status = .ready && item.path ≠ "")

def lapsed (now : Time) (run : TaskRun) : Bool := run.leaseExpiresAt.any (fun expires => decide (expires < now))

def active (status : RunStatus) : Bool :=
  status = .preparing || status = .ready || status = .running || status = .awaitingApproval

def superseded (mode : ResumeMode) (run : TaskRun) : TaskRun :=
  { run with
    epoch := run.epoch + 1
    leaseId := none
    leaseExpiresAt := none
    lastEventSeq := 0
    lastEventId := none
    checkpoint := .nil
    workspaceResumeMode := mode
    recoveryCount := run.recoveryCount + 1 }

def expireLease (now : Time) (mode : ResumeMode) (run : TaskRun) : Except Err TaskRun :=
  if !lapsed now run then .ok run
  else if !active run.status then .ok run
  else transitionRun now .recovering
    (some "The computer stopped responding. The task can be resumed safely.") (superseded mode run)

def expireLeases (now : Time) : Prog Docs Err Unit := do
  let runs ← list backend .runs
  forEach (fun candidate =>
    if !lapsed now candidate then ret ()
    else do
      let workspaces ← listFor .workspaces candidate.id
      let mode : ResumeMode := if restorable workspaces then .restore else .prepare
      let _ ← updateRun backend now candidate.id (fun run => attempt (expireLease now mode run))
      ret ()) runs

def acquireLease (choose : Chooser) (now : Time) (computerId leaseId : String) :
    Prog Docs Err (Option (TaskRun × String)) := do
  let computer ← get backend .computers computerId
  if computer.revokedAt ≠ none then raise (.runtimeAuthenticationError "This computer has been revoked")
  else do
    expireLeases backend now
    let claimed ← claimRun backend choose now computerId leaseId (now + leaseDuration)
    ret (claimed.map (fun run => (run,leaseId)))

/-- What the functions on commands use of a `ControlPlaneStore`. -/
structure CommandStore (σ : Type) where
  getRun : String → Prog σ Err TaskRun
  listCommands : String → Prog σ Err (List RuntimeCommand)
  getCommand : String → Prog σ Err RuntimeCommand
  saveCommand : Time → RuntimeCommand → Prog σ Err RuntimeCommand
  updateRun : Time → String → (TaskRun → Prog σ Err (TaskRun × List RuntimeCommand)) →
    Prog σ Err (TaskRun × List RuntimeCommand)

/-- What `claim_commands` hands out: not acknowledged, of this epoch, and not under a claim that still stands. -/
def claimable (now : Time) (epoch : Nat) (command : RuntimeCommand) : Bool :=
  command.ackedAt = none && command.epoch = epoch && !command.claimExpiresAt.any (fun expires => decide (now < expires))

def claimedCommand (now : Time) (command : RuntimeCommand) : RuntimeCommand :=
  { command with
    claimedAt := some now
    claimExpiresAt := some (now + commandClaimDuration)
    deliveryCount := command.deliveryCount + 1 }

def ackedCommand (now : Time) (result error : Option String) (command : RuntimeCommand) : RuntimeCommand :=
  { command with ackedAt := some now,claimExpiresAt := none,result,error }

section
variable {σ : Type} (store : CommandStore σ)

def CommandStore.queueCommand (now saved : Time) (commandId runId : String) (kind : CommandKind) (payload : Fields)
    (idempotencyKey : String) : Prog σ Err RuntimeCommand := do
  let run ← store.getRun runId
  let known ← (if idempotencyKey = "" then ret []
    else store.listCommands runId : Prog σ Err (List RuntimeCommand))
  match known.find? (fun command => command.epoch = run.epoch && command.idempotencyKey = idempotencyKey) with
  | some existing => ret existing
  | none => do
    let command ← construct .commands
      { id := commandId,runId := run.id,epoch := run.epoch,kind,payload,idempotencyKey,createdAt := now }
    store.saveCommand saved command

def CommandStore.claimCommands (now : Time) (saved : String → Time) (runId computerId leaseId : String) (epoch : Nat) :
    Prog σ Err (List RuntimeCommand) := do
  let (_,claimed) ← store.updateRun now runId (fun run => do
    attempt (requireFence now run computerId leaseId epoch)
    let commands ← store.listCommands runId
    let claimed ← collect (fun command => store.saveCommand (saved command.id) (claimedCommand now command))
      (commands.filter (claimable now run.epoch))
    ret (run,claimed))
  ret claimed

def CommandStore.acknowledgeCommand (now saved : Time) (runId commandId computerId leaseId : String) (epoch : Nat)
    (result error : Option String) : Prog σ Err (RuntimeCommand × Bool) := do
  let run ← store.getRun runId
  attempt (requireFence now run computerId leaseId epoch)
  let command ← orMissing (store.getCommand commandId) (raise (.keyError "Runtime command not found"))
  if command.runId ≠ runId then raise (.keyError "Runtime command not found")
  else if command.epoch ≠ run.epoch then raise (.staleRuntimeEvent "Runtime command belongs to a stale epoch")
  else if command.ackedAt ≠ none then ret (command,false)
  else do
    let saved ← store.saveCommand saved (ackedCommand now result error command)
    ret (saved,true)

end

/-- The documents of `ControlStore`, as a store of commands. -/
def documents : CommandStore Docs where
  getRun := get backend .runs
  listCommands := listFor .commands
  getCommand := get backend .commands
  saveCommand now := save backend now .commands
  updateRun := updateRunWith backend

def queueCommand (now : Time) (commandId runId : String) (kind : CommandKind) (payload : Fields)
    (idempotencyKey : String) : Prog Docs Err RuntimeCommand :=
  (documents backend).queueCommand now now commandId runId kind payload idempotencyKey

def claimCommands (now : Time) (runId computerId leaseId : String) (epoch : Nat) : Prog Docs Err (List RuntimeCommand) :=
  (documents backend).claimCommands now (fun _ => now) runId computerId leaseId epoch

def acknowledgeCommand (now : Time) (runId commandId computerId leaseId : String) (epoch : Nat)
    (result error : Option String) : Prog Docs Err (RuntimeCommand × Bool) :=
  (documents backend).acknowledgeCommand now now runId commandId computerId leaseId epoch result error

def setRunStatus (now : Time) (runId : String) (status : RunStatus) (error : Option String) : Prog Docs Err TaskRun :=
  updateRun backend now runId (fun run => attempt (transitionRun now status error run))

/-- The operation `reconcile` of `sync_session`: only the computer that runs the session projects its status back. -/
def reconcile (now : Time) (session : CodingSession) (run : TaskRun) : Except Err TaskRun :=
  if run.computerId ≠ env.localComputerId then .ok run
  else if run.status = .preparing ∧ session.status = .running then .ok run
  else transitionRun now (sessionStatus session.status) session.lastError run

def syncSession (now : Time) (session : CodingSession) : Prog Docs Err TaskRun :=
  match session.runId.bind truthyText with
  | none => raise (.stateConflict "Coding session has not been linked to a Task Run")
  | some runId => updateRun backend now runId (fun run => attempt (reconcile env now session run))

end

end Cowork.ControlService
