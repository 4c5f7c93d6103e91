import Cowork.ControlService

/-!
Where Task Runs are placed: the computers that can take a run, the recovery of a
run (`run_recovery.py`), the reassignment of a queued one, and the operations of
`control_service.py` that make new runs.
-/
namespace Cowork.Placement
open Json ControlModels Contracts RunState Effects ControlStore ControlService

section
variable (env : Env) (backend : Backend)

def heartbeat (now : Time) (computerId : String) (activeRunCount : Nat) : Prog Docs Err Computer := do
  let computer ← get backend .computers computerId
  if computer.revokedAt ≠ none then raise (.runtimeAuthenticationError "This computer has been revoked")
  else save backend now .computers { computer with
    lastSeenAt := now
    updatedAt := now
    activeRunCount
    status := if computer.status ≠ .draining then .online else computer.status }

/-- `_active_count`: the runs that take a place on the computer. -/
def activeCount (computerId : String) : Prog Docs Err Nat := do
  let runs ← list backend .runs
  ret (runs.countP (fun run => run.computerId = computerId &&
    (run.status = .preparing || run.status = .running || run.status = .awaitingApproval || run.status = .recovering)))

def expireStaleComputers (now : Time) : Prog Docs Err Unit := do
  let computers ← list backend .computers
  forEach (fun computer =>
    if computer.id = env.localComputerId ∨ computer.status = .draining then ret ()
    else if computer.lastSeenAt < now - offlineAfter ∧ computer.status ≠ .offline then do
      let _ ← save backend now .computers { computer with status := .offline }
      ret ()
    else ret ()) computers

def listComputers (now : Time) : Prog Docs Err (List Computer) := do
  let count ← activeCount backend env.localComputerId
  let _ ← heartbeat backend now env.localComputerId count
  expireStaleComputers env backend now
  let computers ← list backend .computers
  ret (computers.filter (fun computer => computer.revokedAt = none))

def resourceEligible (resource : ProjectResource) (computer : Computer) : Bool :=
  match resource with
  | .localFolder _ owner => computer.capabilities.supportsLocalFolders && owner = computer.id
  | .repository _ sourceUrl owner =>
    computer.capabilities.hasGit && (sourceUrl.any (fun url => url ≠ "") || owner = some computer.id)

/-- `by_id[resource_id]`: of two resources with one id the dictionary keeps the later. -/
def byId (project : CodeProject) (id : String) : Option ProjectResource :=
  project.resources.reverse.find? (fun resource => resource.id = id)

def scopedResources (project : Option CodeProject) (scope : TaskResourceScope) : Except Err (List ProjectResource) :=
  match project with
  | none => .ok []
  | some project =>
    if scope.allProjectResources then .ok project.resources
    else
      let missing := scope.resourceIds.filter (fun id => (byId project id).isNone)
      if missing ≠ [] then .error (.valueError ("Unknown project resources: " ++ ", ".intercalate missing))
      else .ok (scope.resourceIds.filterMap (byId project))

def eligibleComputers (now : Time) (project : Option CodeProject) (scope : TaskResourceScope) (engineId : String) :
    Prog Docs Err (List Computer) := do
  let resources ← attempt (scopedResources project scope)
  let computers ← listComputers env backend now
  let runs ← collect (fun computer : Computer => do
    let count ← activeCount backend computer.id
    ret (computer,count)) (computers.filter (fun computer => computer.status = .online))
  ret ((runs.filter (fun entry =>
    decide (max entry.1.activeRunCount entry.2 < entry.1.capabilities.maxConcurrentRuns) &&
      (engineId = "" || entry.1.capabilities.agentEngines.contains engineId) &&
      resources.all (fun resource => resourceEligible resource entry.1))).map (fun entry => entry.1))

/-- `record_security_event`: the event is checked when it is built. -/
def recordSecurityEvent (event : SecurityAuditEvent) : Prog Docs Err Unit := do
  let event ← construct .audit event
  let _ ← saveAuditEvent backend event
  ret ()

def portable : ProjectResource → Bool
  | .repository _ sourceUrl _ => sourceUrl.any (fun url => url ≠ "")
  | .localFolder _ _ => false

/-- The operation `fence` of `run_recovery.recover_run`. -/
def fence (now : Time) (target : Computer) (allowRecreate : Bool) (run : TaskRun) : Prog Docs Err TaskRun :=
  if target.id ≠ run.computerId then do
    let task ← get backend .tasks run.taskId
    if !task.executionProject.any (fun project => project.resources.all portable) then
      raise (.noEligibleComputer "This task includes resources that only exist on its original computer")
    else if !allowRecreate then
      raise (.noEligibleComputer "Moving this task starts a fresh working copy and requires confirmation")
    else attempt (transitionRun now .recovering none { superseded .recreate run with computerId := target.id })
  else attempt (transitionRun now .recovering none { superseded .restore run with computerId := target.id })

def recreated (target : Computer) (workspace : ExecutionWorkspace) : ExecutionWorkspace :=
  { workspace with
    computerId := target.id
    status := .pending
    path := ""
    workspaceKind := none
    baseRevision := none
    taskBranch := none
    detail := "Recreating an isolated working copy from the task snapshot" }

/-- `run_recovery.recover_run`. -/
def applyRecovery (now : Time) (runId : String) (target : Computer) (allowRecreate : Bool) : Prog Docs Err TaskRun :=
  if target.status ≠ .online then raise (.noEligibleComputer "Choose an online computer to resume this task")
  else do
    let saved ← updateRun backend now runId (fence backend now target allowRecreate)
    if saved.workspaceResumeMode = .recreate then do
      let workspaces ← listFor .workspaces saved.id
      forEach (fun workspace => do
        let _ ← save backend now .workspaces (recreated target workspace)
        ret ()) workspaces
      ret saved
    else ret saved

def recoverRun (now : Time) (runId : String) (computerId : Option String) (allowRecreate : Bool) :
    Prog Docs Err TaskRun := do
  let run ← get backend .runs runId
  let computer ← get backend .computers (orDefault computerId run.computerId)
  let task ← get backend .tasks run.taskId
  if task.repositorySetup ≠ none ∧ computer.id ≠ run.computerId then
    raise (.stateConflict "This task uses repository choices from its original computer. Resume it there")
  else applyRecovery backend now run.id computer allowRecreate

def notQueued : Err :=
  .stateConflict "Only queued Task Runs can be reassigned; recover a leased run instead"

def reassignQueuedRun (now : Time) (auditId runId computerId : String) : Prog Docs Err TaskRun := do
  let run ← get backend .runs runId
  if run.status ≠ .queued then raise notQueued
  else do
    let task ← get backend .tasks run.taskId
    if task.repositorySetup ≠ none ∧ computerId ≠ run.computerId then
      raise (.stateConflict "This task uses repository choices from its original computer. Run it there")
    else match task.executionProject with
      | none => raise (.noEligibleComputer "This task includes resources that only exist on its original computer")
      | some project => do
        let eligible ← eligibleComputers env backend now (some project) {} task.engineId
        if !eligible.any (fun computer => computer.id = computerId) then
          raise (.noEligibleComputer "That computer cannot access every resource selected for this task")
        else do
          let saved ← updateRun backend now run.id (fun current =>
            if current.status ≠ .queued then raise notQueued else ret { current with computerId })
          let workspaces ← listFor .workspaces run.id
          forEach (fun workspace : ExecutionWorkspace => do
            let _ ← save backend now .workspaces { workspace with computerId }
            ret ()) workspaces
          recordSecurityEvent backend
            { id := auditId,action := "run.reassign",outcome := .completed,actorType := .user,targetId := run.id
              runId := some run.id,computerId := some computerId,detail := "from=" ++ run.computerId,createdAt := now }
          ret saved

def executionProjectSnapshot (project : Option CodeProject) (resources : List ProjectResource) : Option CodeProject :=
  project.map (fun project => { project with resources })

/-- The computer `_create_task_run` selects. -/
def selected (eligible : List Computer) (computerId : Option String) : Except Err Computer :=
  match computerId.bind truthyText with
  | some wanted =>
    match eligible.find? (fun item => item.id = wanted) with
    | some computer => .ok computer
    | none => .error (.noEligibleComputer "That computer cannot access every resource selected for this task")
  | none =>
    match eligible with
    | computer :: _ => .ok computer
    | [] => .error (.noEligibleComputer "No online computer can access every resource selected for this task")

/-- `create_task_run`: `runId` and `fresh` name the run and its workspaces. -/
def createTaskRun (now : Time) (taskId title prompt : String) (project : Option CodeProject)
    (requestedResourceIds : Option (List String)) (computerId : Option String) (engineId : String)
    (standaloneComputerId : Option String) (repositorySetup : Option Value) (runId : String) (fresh : Nat → String) :
    Prog Docs Err TaskRun := do
  let scope ← attempt (TaskResourceScope.build requestedResourceIds.isNone (requestedResourceIds.getD []))
  let resources ← attempt (scopedResources project scope)
  let found ← eligibleComputers env backend now project scope engineId
  let eligible := match project,standaloneComputerId.bind truthyText with
    | none,some only => found.filter (fun item : Computer => item.id = only)
    | _,_ => found
  let computer ← attempt (selected eligible computerId)
  let task ← construct .tasks
    { id := taskId,title,prompt,engineId,projectId := project.map CodeProject.id,resourceScope := scope
      executionProject := executionProjectSnapshot project resources,repositorySetup,createdAt := now,updatedAt := now }
  let run ← construct .runs
    { id := runId,taskId := task.id,computerId := computer.id,createdAt := now,updatedAt := now }
  let workspaces ← collect (fun (entry : ProjectResource × Nat) => construct .workspaces
    { id := fresh entry.2,runId := run.id,resourceId := entry.1.id,computerId := computer.id
      createdAt := now,updatedAt := now }) resources.zipIdx
  let (_,run,_) ← ControlStore.createTaskRun backend task run workspaces
  ret run

/-- The run in which `continue_task` goes on. -/
def continued (now : Time) (runId : String) (computer : Computer) (workspaces : List ExecutionWorkspace)
    (previous : TaskRun) : TaskRun :=
  { id := runId,taskId := previous.taskId,computerId := computer.id
    status := if computer.id = env.localComputerId then .ready else .queued
    epoch := previous.epoch + 1
    workspaceResumeMode := if restorable workspaces then .restore else .prepare
    recoveryCount := previous.recoveryCount,createdAt := now,updatedAt := now }

/-- `continue_task`: a task goes on in a new run. -/
def continueTask (now : Time) (taskId previousRunId runId : String) (fresh : Nat → String) : Prog Docs Err TaskRun := do
  let previous ← get backend .runs previousRunId
  if previous.taskId ≠ taskId then raise (.valueError "Task Run belongs to another task")
  else do
    let computer ← get backend .computers previous.computerId
    if computer.status ≠ .online then raise (.noEligibleComputer "The task's computer is offline")
    else do
      let workspaces ← listFor .workspaces previous.id
      let run ← construct .runs (continued env now runId computer workspaces previous)
      let saved ← save backend now .runs run
      forEach (fun (entry : ExecutionWorkspace × Nat) => do
        let record ← (if restorable workspaces then ret { entry.1 with id := fresh entry.2,runId := saved.id }
          else construct .workspaces
            { id := fresh entry.2,runId := saved.id,resourceId := entry.1.resourceId,computerId := computer.id
              createdAt := now,updatedAt := now } : Prog Docs Err ExecutionWorkspace)
        let _ ← save backend now .workspaces record
        ret ()) workspaces.zipIdx
      ret saved

def fallbackWorkspace (session : CodingSession) : TaskWorkspace :=
  { folderId := "folder",workspacePath := session.workspacePath,workspaceKind := session.workspaceKind
    baseRevision := session.baseRevision }

def executionWorkspace (now : Time) (id : String) (run : TaskRun) (workspace : TaskWorkspace) : ExecutionWorkspace :=
  { id,runId := run.id,resourceId := workspace.folderId,computerId := run.computerId,status := .ready
    path := workspace.workspacePath,workspaceKind := some workspace.workspaceKind
    baseRevision := workspace.baseRevision,taskBranch := workspace.taskBranch,createdAt := now,updatedAt := now }

/-- The run `migrate_session` makes for a session that has none. -/
def migrated (now : Time) (session : CodingSession) (taskId : String) : TaskRun :=
  { id := orDefault session.runId ("run-" ++ session.id),taskId
    computerId := orDefault session.computerId env.localComputerId,status := sessionStatus session.status
    epoch := session.runtimeEpoch,createdAt := now,updatedAt := now }

/-- `migrate_session`: give a session of an earlier version its task, run and workspaces. -/
def migrateSession (now : Time) (session : CodingSession) (project : Option CodeProject) (fresh : Nat → String) :
    Prog Docs Err TaskRun := do
  let named := if session.resourceIds = [] then session.workspaces.map TaskWorkspace.folderId else session.resourceIds
  let resourceIds := match project with
    | some project => if named = [] then project.resources.map ProjectResource.id else named
    | none => named
  let scope ← attempt (TaskResourceScope.build session.scopeAllProjectResources
    (if session.scopeAllProjectResources then [] else resourceIds))
  let task ← orMissing (get backend .tasks (orDefault session.taskId session.id)) (do
    let resources ← attempt (scopedResources project scope)
    let task ← construct .tasks
      { id := orDefault session.taskId session.id,title := session.title,engineId := session.engineId
        projectId := session.projectId,resourceScope := scope
        executionProject := executionProjectSnapshot project resources,createdAt := now,updatedAt := now }
    save backend now .tasks task)
  let run ← orMissing (get backend .runs (orDefault session.runId ("run-" ++ session.id))) (do
    let run ← construct .runs (migrated env now session task.id)
    save backend now .runs run)
  let workspaces ← listFor .workspaces run.id
  let source := if session.workspaces = [] then [fallbackWorkspace session] else session.workspaces
  forEach (fun (entry : TaskWorkspace × Nat) => do
    let record ← construct .workspaces (executionWorkspace now (fresh entry.2) run entry.1)
    let _ ← save backend now .workspaces record
    ret ()) (if workspaces = [] then source.zipIdx else [])
  let _ ← get backend .computers (orDefault session.computerId env.localComputerId)
  ret run

end

end Cowork.Placement
