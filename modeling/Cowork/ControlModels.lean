import Cowork.Json

/-!
The documents of the control plane (`control_models.py`), with the fields that modelled
operations use, and the errors these raise. Pydantic checks a document when it is built
and when it is loaded, never when a field is assigned: what an assignment broke is
stored as it is and refused by the next load (`valid`).
-/
namespace Cowork.ControlModels
open Json

abbrev Time := Nat
/-- `timedelta(seconds=n)`. -/
def seconds (n : Nat) : Nat := n * 1000000
/-- `timedelta(minutes=n)`. -/
def minutes (n : Nat) : Nat := n * seconds 60

def runtimeProtocolVersion : String := "1.0"

inductive Err where
  | keyError (text : String)
  | valueError (text : String)
  | stateConflict (text : String)
  | invalidRunTransition (text : String)
  | staleRuntimeEvent (text : String)
  | runtimeAuthenticationError (text : String)
  | noEligibleComputer (text : String)
  | runtimeError (text : String)
  /-- Pydantic's `ValidationError`, a `ValueError`. -/
  | validationError (model : String)
  | osError (text : String)
  | typeError (text : String)
  deriving DecidableEq

inductive ComputerStatus where
  | online | offline | draining
  deriving DecidableEq

inductive RunStatus where
  | queued | preparing | ready | running | awaitingApproval | completed | cancelled | interrupted | failed | recovering
  deriving DecidableEq

namespace RunStatus
def value : RunStatus → String
  | queued => "queued"
  | preparing => "preparing"
  | ready => "ready"
  | running => "running"
  | awaitingApproval => "awaiting_approval"
  | completed => "completed"
  | cancelled => "cancelled"
  | interrupted => "interrupted"
  | failed => "failed"
  | recovering => "recovering"
def all : List RunStatus :=
  [queued,preparing,ready,running,awaitingApproval,completed,cancelled,interrupted,failed,recovering]
/-- `RunStatus(text)`: the status of this value, if there is one. -/
def ofValue (text : String) : Option RunStatus := all.find? (fun status => status.value = text)
/-- Membership in `TERMINAL_RUN_STATUSES`. -/
def terminal : RunStatus → Bool
  | completed | cancelled | failed => true
  | _ => false
end RunStatus

inductive WorkspaceStatus where
  | pending | preparing | ready | unavailable | released
  deriving DecidableEq

inductive WorkspaceKind where
  | gitWorktree | localCopy | directFolder
  deriving DecidableEq

inductive ResumeMode where
  | prepare | restore | recreate
  deriving DecidableEq

/-- `^[A-Za-z0-9_-]+$`, the pattern of every document id. -/
def wellFormedId (id : String) : Bool :=
  !id.isEmpty && id.toList.all (fun c => c.isAlphanum || c = '-' || c = '_')

/-- `min_length=1, max_length=n`. -/
def named (n : Nat) (text : String) : Bool := decide (1 ≤ text.length ∧ text.length ≤ n)
/-- `max_length=n` of an optional text. -/
def fits (n : Nat) (text : Option String) : Bool := text.all (fun t => decide (t.length ≤ n))
/-- `text[:n]`. -/
def cut (n : Nat) (text : String) : String := String.ofList (text.toList.take n)

theorem length_cut (n : Nat) (text : String) : (cut n text).length ≤ n := by
  simp only [cut,String.length_ofList,List.length_take]
  omega

structure ComputerCapabilities where
  agentEngines : List String := []
  hasGit : Bool := true
  supportsLocalFolders : Bool := true
  maxConcurrentRuns : Nat := 4
  deriving DecidableEq

structure Computer where
  id : String
  name : String
  isLocal : Bool := false
  status : ComputerStatus := .online
  capabilities : ComputerCapabilities := {}
  registrationEpoch : Nat := 1
  activeRunCount : Nat := 0
  lastSeenAt : Time
  createdAt : Time
  updatedAt : Time
  revokedAt : Option Time := none
  deriving DecidableEq

def Computer.valid (d : Computer) : Bool :=
  wellFormedId d.id && named 128 d.id && named 120 d.name && decide (1 ≤ d.registrationEpoch) &&
    decide (1 ≤ d.capabilities.maxConcurrentRuns ∧ d.capabilities.maxConcurrentRuns ≤ 64)

structure RuntimeCredential where
  id : String
  computerId : String
  tokenHash : String
  registrationEpoch : Nat
  createdAt : Time
  deriving DecidableEq

def RuntimeCredential.valid (d : RuntimeCredential) : Bool :=
  wellFormedId d.id && named 128 d.id && named 128 d.computerId && decide (d.tokenHash.length = 64) &&
    decide (1 ≤ d.registrationEpoch)

structure RuntimeRegistrationCredential where
  id : String
  tokenHash : String
  expiresAt : Time
  consumedAt : Option Time := none
  createdAt : Time
  deriving DecidableEq

def RuntimeRegistrationCredential.valid (d : RuntimeRegistrationCredential) : Bool :=
  decide (d.id.length = 64) && d.id.toList.all (fun c => c.isDigit || ('a' ≤ c && c ≤ 'f')) &&
    decide (d.tokenHash.length = 64)

structure TaskRunCredential where
  id : String
  runId : String
  computerId : String
  epoch : Nat
  tokenHash : String
  createdAt : Time
  deriving DecidableEq

def TaskRunCredential.valid (d : TaskRunCredential) : Bool :=
  wellFormedId d.id && named 128 d.id && named 128 d.runId && named 128 d.computerId && decide (1 ≤ d.epoch) &&
    decide (d.tokenHash.length = 64)

inductive ProjectResource where
  | repository (id : String) (sourceUrl : Option String) (computerId : Option String)
  | localFolder (id : String) (computerId : String)
  deriving DecidableEq

def ProjectResource.id : ProjectResource → String
  | repository id _ _ => id
  | localFolder id _ => id

structure CodeProject where
  id : String
  resources : List ProjectResource
  deriving DecidableEq

structure TaskResourceScope where
  allProjectResources : Bool := true
  resourceIds : List String := []
  deriving DecidableEq

/-- `validate_scope` and the bound of the list: all resources, or a non-empty choice of them. -/
def TaskResourceScope.valid (scope : TaskResourceScope) : Bool :=
  scope.allProjectResources == scope.resourceIds.isEmpty && decide (scope.resourceIds.length ≤ 64)

/-- Build a scope. The bound is checked before `unique_resource_ids` drops repeated ids. -/
def TaskResourceScope.build (allProjectResources : Bool) (resourceIds : List String) : Except Err TaskResourceScope :=
  if resourceIds.length ≤ 64 ∧ (allProjectResources == resourceIds.isEmpty) = true then
    .ok { allProjectResources,resourceIds := resourceIds.eraseDups }
  else .error (.validationError "TaskResourceScope")

structure CodeTask where
  id : String
  title : String
  prompt : String := ""
  engineId : String := "codex"
  projectId : Option String := none
  resourceScope : TaskResourceScope := {}
  executionProject : Option CodeProject := none
  repositorySetup : Option Value := none
  createdAt : Time
  updatedAt : Time
  deriving DecidableEq

def CodeTask.valid (d : CodeTask) : Bool :=
  wellFormedId d.id && named 128 d.id && named 200 d.title && decide (d.prompt.length ≤ 200000) &&
    named 128 d.engineId && fits 128 d.projectId && d.resourceScope.valid

structure TaskRun where
  id : String
  taskId : String
  computerId : String
  status : RunStatus := .queued
  epoch : Nat := 1
  leaseId : Option String := none
  leaseExpiresAt : Option Time := none
  lastEventSeq : Nat := 0
  lastEventId : Option String := none
  checkpoint : Fields := .nil
  workspaceResumeMode : ResumeMode := .prepare
  recoveryCount : Nat := 0
  lastError : Option String := none
  createdAt : Time
  updatedAt : Time
  startedAt : Option Time := none
  finishedAt : Option Time := none
  deriving DecidableEq

def TaskRun.valid (d : TaskRun) : Bool :=
  wellFormedId d.id && named 128 d.id && named 128 d.taskId && named 128 d.computerId && decide (1 ≤ d.epoch) &&
    fits 128 d.leaseId && fits 128 d.lastEventId && fits 4000 d.lastError

structure ExecutionWorkspace where
  id : String
  runId : String
  resourceId : String
  computerId : String
  status : WorkspaceStatus := .pending
  path : String := ""
  workspaceKind : Option WorkspaceKind := none
  baseRevision : Option String := none
  taskBranch : Option String := none
  detail : String := ""
  createdAt : Time
  updatedAt : Time
  deriving DecidableEq

def ExecutionWorkspace.valid (d : ExecutionWorkspace) : Bool :=
  wellFormedId d.id && named 160 d.id && named 128 d.runId && named 128 d.resourceId && named 128 d.computerId &&
    decide (d.path.length ≤ 32768) && fits 512 d.baseRevision && fits 512 d.taskBranch &&
    decide (d.detail.length ≤ 4000)

inductive Provider where
  | github | linear
  deriving DecidableEq

def Provider.value : Provider → String
  | github => "github"
  | linear => "linear"

structure ConnectorGrant where
  id : String
  runId : String
  computerId : String := "legacy-unbound"
  epoch : Nat := 1
  provider : Provider
  connectionName : String
  actions : List String
  resourceConstraints : List (String × String) := []
  tokenHash : String
  expiresAt : Time
  maxUses : Nat := 100
  useCount : Nat := 0
  lastUsedAt : Option Time := none
  revokedAt : Option Time := none
  createdAt : Time
  deriving DecidableEq

def ConnectorGrant.valid (d : ConnectorGrant) : Bool :=
  wellFormedId d.id && named 128 d.id && named 128 d.runId && named 128 d.computerId && decide (1 ≤ d.epoch) &&
    named 512 d.connectionName && decide (1 ≤ d.actions.length ∧ d.actions.length ≤ 32) &&
    decide (d.resourceConstraints.length ≤ 32) && decide (d.tokenHash.length = 64) &&
    decide (1 ≤ d.maxUses ∧ d.maxUses ≤ 10000)

inductive AuditOutcome where
  | allowed | denied | completed
  deriving DecidableEq

inductive ActorType where
  | user | runtime | agent | system
  deriving DecidableEq

structure SecurityAuditEvent where
  id : String
  action : String
  outcome : AuditOutcome
  actorType : ActorType
  targetId : String := ""
  runId : Option String := none
  computerId : Option String := none
  detail : String := ""
  createdAt : Time
  deriving DecidableEq

def SecurityAuditEvent.valid (d : SecurityAuditEvent) : Bool :=
  wellFormedId d.id && named 160 d.id && named 120 d.action && decide (d.targetId.length ≤ 160) &&
    fits 128 d.runId && fits 128 d.computerId && decide (d.detail.length ≤ 1000)

inductive CommandKind where
  | prepare | start | steer | agentCommand | approve | cancel | checkpoint | operation | release
  deriving DecidableEq

structure RuntimeCommand where
  id : String
  runId : String
  epoch : Nat
  kind : CommandKind
  payload : Fields := .nil
  idempotencyKey : String := ""
  createdAt : Time
  claimedAt : Option Time := none
  claimExpiresAt : Option Time := none
  deliveryCount : Nat := 0
  ackedAt : Option Time := none
  /-- The result as its JSON text; nothing in the control plane looks into it. -/
  result : Option String := none
  error : Option String := none
  deriving DecidableEq

/-- The field checks of a command, `bound_result` (2 MiB of JSON text) among them. -/
def RuntimeCommand.valid (d : RuntimeCommand) : Bool :=
  wellFormedId d.id && named 128 d.id && named 128 d.runId && decide (1 ≤ d.epoch) &&
    decide (d.idempotencyKey.length ≤ 256) && fits (2 * 1024 * 1024) d.result && fits 4000 d.error

inductive EventKind where
  | status | event | approval | checkpoint | workspace | turnCompleted | error
  deriving DecidableEq

structure RuntimeEvent where
  protocolVersion : String := runtimeProtocolVersion
  id : String
  runId : String
  computerId : String
  leaseId : String
  epoch : Nat
  seq : Nat
  kind : EventKind
  payload : Fields := .nil
  idFits : id.length ≤ 128 := by decide
  seqPositive : 1 ≤ seq := by decide
  deriving DecidableEq

end Cowork.ControlModels
