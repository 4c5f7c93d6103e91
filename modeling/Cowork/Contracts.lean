import Cowork.ControlModels

/-!
The coding session (`contracts.py`): the read model of a task that the desktop
shows, which the control plane reads when it migrates or synchronizes a run.
-/
namespace Cowork.Contracts
open ControlModels

inductive SessionStatus where
  | ready | running | awaitingApproval | completed | cancelled | interrupted | failed
  deriving DecidableEq

structure TaskWorkspace where
  folderId : String
  workspacePath : String
  workspaceKind : WorkspaceKind
  baseRevision : Option String := none
  taskBranch : Option String := none

structure CodingSession where
  id : String
  title : String := ""
  engineId : String := "codex"
  status : SessionStatus := .ready
  taskId : Option String := none
  runId : Option String := none
  computerId : Option String := none
  resourceIds : List String := []
  scopeAllProjectResources : Bool := true
  runtimeEpoch : Nat := 1
  projectId : Option String := none
  workspacePath : String := ""
  workspaceKind : WorkspaceKind := .directFolder
  workspaces : List TaskWorkspace := []
  baseRevision : Option String := none
  workspaceWarning : Option String := none
  activeTurnId : Option String := none
  lastError : Option String := none

/-- `value or default` for an optional text: an empty text counts as missing. -/
def orDefault (value : Option String) (otherwise : String) : String :=
  match value with
  | none => otherwise
  | some text => if text = "" then otherwise else text

end Cowork.Contracts
