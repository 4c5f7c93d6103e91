import Mathlib.Algebra.GroupWithZero.Nat
import Mathlib.Data.List.MinMax
import Mathlib.Data.List.Sort
import Cowork.Effects
import Cowork.RunState
import Cowork.Tables

/-!
What a control-plane store is for (`ControlPlaneStore` of `control_store.py`): one table
of documents for each collection, and the operations over them, each one step. Where the
stores in files and in database rows answer differently, an operation asks which it is
(`Backend`).
-/
namespace Cowork.ControlStore
open ControlModels RunState Effects Tables List

/-- The collections of `_MODELS`. -/
inductive Collection where
  | computers | tasks | runs | workspaces | grants | commands
  | runtimeCredentials | registrationCredentials | runCredentials | audit
  deriving DecidableEq

/-- The document type of each collection, as `_MODELS` lists them. -/
@[reducible] def Model : Collection → Type
  | .computers => Computer
  | .tasks => CodeTask
  | .runs => TaskRun
  | .workspaces => ExecutionWorkspace
  | .grants => ConnectorGrant
  | .commands => RuntimeCommand
  | .runtimeCredentials => RuntimeCredential
  | .registrationCredentials => RuntimeRegistrationCredential
  | .runCredentials => TaskRunCredential
  | .audit => SecurityAuditEvent

instance modelDecidableEq : (c : Collection) → DecidableEq (Model c)
  | .computers => inferInstanceAs (DecidableEq Computer)
  | .tasks => inferInstanceAs (DecidableEq CodeTask)
  | .runs => inferInstanceAs (DecidableEq TaskRun)
  | .workspaces => inferInstanceAs (DecidableEq ExecutionWorkspace)
  | .grants => inferInstanceAs (DecidableEq ConnectorGrant)
  | .commands => inferInstanceAs (DecidableEq RuntimeCommand)
  | .runtimeCredentials => inferInstanceAs (DecidableEq RuntimeCredential)
  | .registrationCredentials => inferInstanceAs (DecidableEq RuntimeRegistrationCredential)
  | .runCredentials => inferInstanceAs (DecidableEq TaskRunCredential)
  | .audit => inferInstanceAs (DecidableEq SecurityAuditEvent)

def modelName : Collection → String
  | .computers => "Computer"
  | .tasks => "CodeTask"
  | .runs => "TaskRun"
  | .workspaces => "ExecutionWorkspace"
  | .grants => "ConnectorGrant"
  | .commands => "RuntimeCommand"
  | .runtimeCredentials => "RuntimeCredential"
  | .registrationCredentials => "RuntimeRegistrationCredential"
  | .runCredentials => "TaskRunCredential"
  | .audit => "SecurityAuditEvent"

/-- `document.id`. -/
def docId : (c : Collection) → Model c → String
  | .computers,d => d.id
  | .tasks,d => d.id
  | .runs,d => d.id
  | .workspaces,d => d.id
  | .grants,d => d.id
  | .commands,d => d.id
  | .runtimeCredentials,d => d.id
  | .registrationCredentials,d => d.id
  | .runCredentials,d => d.id
  | .audit,d => d.id

/-- What `model_validate` checks when a document is loaded. -/
def valid : (c : Collection) → Model c → Bool
  | .computers,d => d.valid
  | .tasks,d => d.valid
  | .runs,d => d.valid
  | .workspaces,d => d.valid
  | .grants,d => d.valid
  | .commands,d => d.valid
  | .runtimeCredentials,d => d.valid
  | .registrationCredentials,d => d.valid
  | .runCredentials,d => d.valid
  | .audit,d => d.valid

/-- `str(value) if value else None`. -/
def truthyText (text : String) : Option String := if text = "" then none else some text

theorem truthyText_some {text value : String} (truthy : truthyText text = some value) : text = value := by
  unfold truthyText at truthy
  split at truthy
  · cases truthy
  · exact Option.some.inj truthy

/-- `_parent_id`: the task of a run, the run of an execution record. -/
def parentId : (c : Collection) → Model c → Option String
  | .runs,d => truthyText d.taskId
  | .workspaces,d => truthyText d.runId
  | .grants,d => truthyText d.runId
  | .commands,d => truthyText d.runId
  | .runCredentials,d => truthyText d.runId
  | .audit,d => d.runId.bind truthyText
  | .computers,_ => none
  | .tasks,_ => none
  | .runtimeCredentials,_ => none
  | .registrationCredentials,_ => none

/-- `document.updated_at = utc_now()`, which four of the `save_` methods do first. -/
def touch (now : Time) : (c : Collection) → Model c → Model c
  | .computers,d => { d with updatedAt := now }
  | .tasks,d => { d with updatedAt := now }
  | .runs,d => { d with updatedAt := now }
  | .workspaces,d => { d with updatedAt := now }
  | .grants,d => d
  | .commands,d => d
  | .runtimeCredentials,d => d
  | .registrationCredentials,d => d
  | .runCredentials,d => d
  | .audit,d => d

/-- The sort key of the lists of the local store: `updated_at`, else `created_at`. -/
def listKey : (c : Collection) → Model c → Time
  | .computers,d => d.updatedAt
  | .tasks,d => d.updatedAt
  | .runs,d => d.updatedAt
  | .workspaces,d => d.updatedAt
  | .grants,d => d.createdAt
  | .commands,d => d.createdAt
  | .runtimeCredentials,d => d.createdAt
  | .registrationCredentials,d => d.createdAt
  | .runCredentials,d => d.createdAt
  | .audit,d => d.createdAt

/-- `sorted(items, key=..., reverse=True)`, which keeps the order of equal keys. -/
def newestFirst (c : Collection) (items : List (Model c)) : List (Model c) :=
  items.insertionSort (fun a b => listKey c b ≤ listKey c a)

@[simp] theorem mem_newestFirst {c : Collection} {items : List (Model c)} {d : Model c} :
    d ∈ newestFirst c items ↔ d ∈ items := mem_insertionSort _

@[simp] theorem docId_touch (now : Time) (c : Collection) (d : Model c) : docId c (touch now c d) = docId c d := by
  cases c <;> rfl
@[simp] theorem valid_touch (now : Time) (c : Collection) (d : Model c) : valid c (touch now c d) = valid c d := by
  cases c <;> rfl

theorem wellFormed_of_valid {c : Collection} {d : Model c} (ok : valid c d = true) : wellFormedId (docId c d) = true := by
  cases c
  case registrationCredentials =>
    -- The pattern of these ids is another one: 64 hexadecimal digits.
    simp only [valid,docId,RuntimeRegistrationCredential.valid,Bool.and_eq_true] at ok ⊢
    obtain ⟨⟨long,hex⟩,_⟩ := ok
    have some : d.id.isEmpty = false := by
      rcases empty : d.id.isEmpty with _ | _
      · rfl
      · rw [String.isEmpty_iff] at empty
        simp [empty] at long
    simp only [wellFormedId,some,Bool.not_false,Bool.true_and]
    rw [all_eq_true] at hex ⊢
    intro c member
    have digit := hex c member
    simp only [Bool.or_eq_true,Bool.and_eq_true,decide_eq_true_eq] at digit
    rcases digit with digit | ⟨low,high⟩
    · simp [Char.isAlphanum,digit]
    · have letter : c.isLower = true := by
        have small : c.val ≤ 'f'.val := high
        have large : 'a'.val ≤ c.val := low
        show (decide (c.val ≥ 'a'.val) && decide (c.val ≤ 'z'.val)) = true
        simp only [Bool.and_eq_true,decide_eq_true_eq]
        exact ⟨large,UInt32.le_trans small (by decide)⟩
      have known : c.isAlphanum = true := by
        show (c.isUpper || c.isLower || c.isDigit) = true
        simp [letter]
      simp [known]
  all_goals
    simp only [valid,Computer.valid,CodeTask.valid,TaskRun.valid,ExecutionWorkspace.valid,ConnectorGrant.valid,
      RuntimeCommand.valid,RuntimeCredential.valid,TaskRunCredential.valid,SecurityAuditEvent.valid,
      Bool.and_eq_true] at ok ⊢
    tauto

abbrev Docs := Table String Model

def Docs.Filed (s : Docs) : Prop := ∀ c id d, s.find c id = some d → docId c d = id

theorem filed_empty : Docs.Filed Table.empty := by
  intro c id d found
  simp at found

theorem filed_put {s : Docs} (filed : s.Filed) (c : Collection) {id : String} {d : Model c} (own : docId c d = id) :
    Docs.Filed (s.put c id d) := by grind only [find_put,Docs.Filed]

inductive Backend where
  | files | rows
  deriving DecidableEq

def construct {σ : Type} (c : Collection) (d : Model c) : Prog σ Err (Model c) :=
  if valid c d then ret d else raise (.validationError (modelName c))

/-- `try: wanted ... except KeyError: missing`. -/
def orMissing {σ α : Type} (wanted missing : Prog σ Err α) : Prog σ Err α := fun s =>
  match wanted s with
  | (.error (.keyError _),s') => missing s'
  | other => other

section
variable (backend : Backend)

def transaction {α : Type} (p : Prog Docs Err α) : Prog Docs Err α :=
  match backend with
  | .files => p
  | .rows => atomically p

/-- `_get`. Only the local store looks at the id, which becomes a file name. -/
def get (c : Collection) (id : String) : Prog Docs Err (Model c) := fun s =>
  if backend = .files ∧ wellFormedId id = false then (.error (.valueError "invalid control-plane document id"),s)
  else match s.find c id with
    | none => (.error (.keyError (modelName c ++ " not found")),s)
    | some d => if valid c d then (.ok d,s) else (.error (.validationError (modelName c)),s)

/-- `_list` over a whole collection. The local store skips a document that does
    not load; the database store raises. -/
def list (c : Collection) : Prog Docs Err (List (Model c)) := fun s =>
  if backend = .rows ∧ (s.all c).all (valid c) = false then (.error (.validationError (modelName c)),s)
  else (.ok (newestFirst c ((s.all c).filter (valid c))),s)

/-- The documents of one parent: `_list_for_parent`, or `_list` with a `parent_id`, in the documents' order; a
    database has its own (`SqlStore.newestRows`). -/
def listFor (c : Collection) (parent : String) : Prog Docs Err (List (Model c)) := fun s =>
  let items := (s.all c).filter (fun d => parentId c d = some parent)
  if items.all (valid c) then (.ok (newestFirst c items),s) else (.error (.validationError (modelName c)),s)

/-- `_save`, after the `save_` method of the collection. -/
def save (now : Time) (c : Collection) (d : Model c) : Prog Docs Err (Model c) := fun s =>
  if backend = .files ∧ wellFormedId (docId c d) = false then
    (.error (.valueError "invalid control-plane document id"),s)
  else (.ok (touch now c d),s.put c (docId c d) (touch now c d))

/-- `update_run`: the operation changes the run, which is written back if it changed; it may use the store and keep a
    value. -/
def updateRunWith {α : Type} (now : Time) (id : String) (operation : TaskRun → Prog Docs Err (TaskRun × α)) :
    Prog Docs Err (TaskRun × α) :=
  transaction backend (do
    let run ← get backend .runs id
    let (after,kept) ← operation run
    if after = run then ret (run,kept)
    else match backend with
      | .files => do
        let saved ← save .files now .runs after
        ret (saved,kept)
      | .rows => do
        write (fun s => s.put .runs id (touch now .runs after))
        ret (touch now .runs after,kept))

/-- `update_run` with an operation that keeps nothing. -/
def updateRun (now : Time) (id : String) (operation : TaskRun → Prog Docs Err TaskRun) : Prog Docs Err TaskRun := do
  let (run,_) ← updateRunWith backend now id (fun run => do
    let after ← operation run
    ret (after,()))
  ret run

/-- `update_grant`: the operation changes the grant, given its run, and may keep a value. -/
def updateGrantWith {α : Type} (id : String) (operation : ConnectorGrant → TaskRun → Except Err (ConnectorGrant × α)) :
    Prog Docs Err (ConnectorGrant × α) := do
  let grant ← get backend .grants id
  let run ← get backend .runs grant.runId
  let (after,kept) ← attempt (operation grant run)
  match backend with
  | .files => do
    let saved ← save .files 0 .grants after
    ret (saved,kept)
  | .rows => do
    write (fun s => s.put .grants id after)
    ret (after,kept)

structure Chooser where
  pick : List TaskRun → Option TaskRun
  member : ∀ {runs run}, pick runs = some run → run ∈ runs
  total : ∀ {runs}, runs ≠ [] → pick runs ≠ none

/-- `min(candidates, key=lambda item: item.created_at)` over the sorted list of the local store. -/
def oldestDocument : Chooser where
  pick runs := (newestFirst .runs runs).argmin TaskRun.createdAt
  member := by
    intro runs run found; exact (mem_newestFirst (c := .runs)).mp (argmin_mem found)
  total := by
    intro runs some none
    have sorted : newestFirst .runs runs = [] := argmin_eq_none.mp none
    have same : (newestFirst .runs runs).Perm runs := perm_insertionSort _ _
    rw [sorted] at same
    exact some same.symm.eq_nil

/-- The runs `claim_run` chooses from. The database selects rows before it loads one. -/
def candidates (computerId : String) (s : Docs) : List TaskRun :=
  (s.all .runs).filter (fun run =>
    (backend = .rows || run.valid) && run.computerId = computerId && (run.status = .queued || run.status = .recovering))

/-- A run taken under a lease, on its way to `preparing`. -/
def leased (leaseId : String) (leaseExpiresAt : Time) (run : TaskRun) : TaskRun :=
  { run with leaseId := some leaseId,leaseExpiresAt := some leaseExpiresAt }

theorem leased_valid {run : TaskRun} (ok : run.valid = true) {leaseId : String} (short : leaseId.length ≤ 128) (expires : Time) :
    (leased leaseId expires run).valid = true := by
  simp only [TaskRun.valid,Bool.and_eq_true] at ok ⊢
  have fit : fits 128 (some leaseId) = true := by simpa [fits] using short
  exact ⟨⟨⟨ok.1.1.1,fit⟩,ok.1.2⟩,ok.2⟩

def claimRun (choose : Chooser) (now : Time) (computerId leaseId : String) (leaseExpiresAt : Time) :
    Prog Docs Err (Option TaskRun) := do
  let runs ← look (candidates backend computerId)
  match choose.pick runs with
  | none => ret none
  | some run =>
    if run.valid then
      let after ← attempt (transitionRun now .preparing none (leased leaseId leaseExpiresAt run))
      let saved ← save backend now .runs after
      ret (some saved)
    else raise (.validationError "TaskRun")

/-- `save_audit_event`: the trail is append-only. The local store looks the event up by loading it, the database by
    its key. -/
def saveAuditEvent (event : SecurityAuditEvent) : Prog Docs Err SecurityAuditEvent := fun s =>
  match backend with
  | .files =>
    match get .files .audit event.id s with
    | (.ok _,s') => (.error (.valueError "security audit events are append-only"),s')
    | (.error (.keyError _),s') => save .files 0 .audit event s'
    | (.error e,s') => (.error e,s')
  | .rows =>
    if (s.find .audit event.id).isSome then (.error (.valueError "security audit events are append-only"),s)
    else save .rows 0 .audit event s

abbrev Entry := (c : Collection) × Model c

/-- `collection.rstrip("s")`. -/
def singular : Collection → String
  | .tasks => "task"
  | .runs => "run"
  | .workspaces => "workspace"
  | .computers => "computer"
  | .grants => "grant"
  | .commands => "command"
  | .runtimeCredentials => "runtime_credential"
  | .registrationCredentials => "registration_credential"
  | .runCredentials => "run_credential"
  | .audit => "audit"

/-- The documents of `create_task_run`, in order. -/
def bundle (task : CodeTask) (run : TaskRun) (workspaces : List ExecutionWorkspace) : List Entry :=
  ⟨.tasks,task⟩ :: ⟨.runs,run⟩ :: workspaces.map (fun workspace => ⟨.workspaces,workspace⟩)

def taken (s : Docs) (entries : List Entry) : Option Entry :=
  entries.find? (fun entry => (s.find entry.1 (docId entry.1 entry.2)).isSome)

def putAll (s : Docs) (entries : List Entry) : Docs :=
  entries.foldl (fun s entry => s.put entry.1 (docId entry.1 entry.2) entry.2) s

def places (entries : List Entry) : List (Collection × String) :=
  entries.map (fun entry => (entry.1,docId entry.1 entry.2))

/-- `create_task_run`: all documents or none. Two with one place fail in the local store when the second rename misses
    its staged file. -/
def createTaskRun (task : CodeTask) (run : TaskRun) (workspaces : List ExecutionWorkspace) :
    Prog Docs Err (CodeTask × TaskRun × List ExecutionWorkspace) := fun s =>
  let entries := bundle task run workspaces
  match taken s entries with
  | some entry => (.error (.stateConflict (singular entry.1 ++ " already exists")),s)
  | none =>
    if (places entries).Nodup then (.ok (task,run,workspaces),putAll s entries)
    else match backend with
      | .files => (.error (.osError "No such file or directory"),s)
      | .rows => (.error (.stateConflict "task run already exists"),s)

end

def spent (moment : Time) (credential : RuntimeRegistrationCredential) : RuntimeRegistrationCredential :=
  { credential with consumedAt := some moment }

/-- The collections that `prune` looks at. -/
def auxiliary : List Collection := [.commands,.grants,.registrationCredentials,.audit]

/-- What `prune` removes: old acknowledged commands, ended grants and registration credentials, and audit events. -/
def prunable (auxiliaryOlderThan auditOlderThan : Time) : (c : Collection) → Model c → Bool
  | .commands,d => d.ackedAt.any (fun acked => decide (acked < auxiliaryOlderThan))
  | .grants,d => decide (d.revokedAt.getD d.expiresAt < auxiliaryOlderThan)
  | .registrationCredentials,d => decide (d.consumedAt.getD d.expiresAt < auxiliaryOlderThan)
  | .audit,d => decide (d.createdAt < auditOlderThan)
  | _,_ => false

end Cowork.ControlStore
