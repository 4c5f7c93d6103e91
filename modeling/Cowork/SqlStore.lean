import Cowork.StoreFrames

/-!
`SqlControlPlaneStore` (`sql_control_store.py`): one row for each document, with the
document as its payload and a few columns projected out of it, by which rows are
selected. Every operation is one transaction. Rows of other namespaces are left out:
every statement names its own.
-/
namespace Cowork.SqlStore
open ControlModels RunState Effects Tables ControlStore List

/-- `CodeControlRecord`, without its key. -/
structure Row (c : Collection) where
  payload : Model c
  assignedComputerId : Option String := none
  lifecycleStatus : Option RunStatus := none
  parentId : Option String := none
  revision : Nat := 1
  createdAt : Time
  updatedAt : Time

abbrev Store := Table String Row

def applyProjection : (c : Collection) → Model c → Row c → Row c
  | .runs,d,row =>
    { row with assignedComputerId := some d.computerId,lifecycleStatus := some d.status,parentId := some d.taskId }
  | .workspaces,d,row =>
    { row with assignedComputerId := none,lifecycleStatus := none,parentId := truthyText d.runId }
  | .grants,d,row =>
    { row with assignedComputerId := none,lifecycleStatus := none,parentId := truthyText d.runId }
  | .commands,d,row =>
    { row with assignedComputerId := none,lifecycleStatus := none,parentId := truthyText d.runId }
  | .runCredentials,d,row =>
    { row with assignedComputerId := none,lifecycleStatus := none,parentId := truthyText d.runId }
  | .audit,d,row =>
    { row with assignedComputerId := none,lifecycleStatus := none,parentId := d.runId.bind truthyText }
  | .computers,_,row => { row with assignedComputerId := none,lifecycleStatus := none,parentId := none }
  | .tasks,_,row => { row with assignedComputerId := none,lifecycleStatus := none,parentId := none }
  | .runtimeCredentials,_,row => { row with assignedComputerId := none,lifecycleStatus := none,parentId := none }
  | .registrationCredentials,_,row => { row with assignedComputerId := none,lifecycleStatus := none,parentId := none }

/-- `_record`: a new row. -/
def record (now : Time) (c : Collection) (d : Model c) : Row c :=
  applyProjection c d { payload := d,createdAt := now,updatedAt := now }

def rewritten {c : Collection} (now : Time) (d : Model c) (row : Row c) : Row c :=
  { row with payload := d,revision := row.revision + 1,updatedAt := now }

/-- `_save`, after the `save_` method of the collection. -/
def save (now : Time) (c : Collection) (d : Model c) : Prog Store Err (Model c) := fun s =>
  let d := touch now c d
  match s.find c (docId c d) with
  | none => (.ok d,s.put c (docId c d) (record now c d))
  | some row => (.ok d,s.put c (docId c d) (applyProjection c d (rewritten now d row)))

/-- `model.model_validate(row.payload)`. -/
def load (c : Collection) (row : Row c) : Except Err (Model c) :=
  if valid c row.payload then .ok row.payload else .error (.validationError (modelName c))

/-- The row under a key: `session.get`, or `_locked_row`. -/
def lockedRow (c : Collection) (id : String) : Prog Store Err (Row c) := fun s =>
  match s.find c id with
  | none => (.error (.keyError (modelName c ++ " not found")),s)
  | some row => (.ok row,s)

/-- `_get`. -/
def get (c : Collection) (id : String) : Prog Store Err (Model c) := do
  let row ← lockedRow c id
  attempt (load c row)

/-- `order_by(updated_at.desc())`. -/
def newestRows {c : Collection} (rows : List (Row c)) : List (Row c) :=
  rows.insertionSort (fun a b => b.updatedAt ≤ a.updatedAt)

/-- `_list`. -/
def select (c : Collection) (test : Row c → Bool) : Prog Store Err (List (Model c)) := do
  let rows ← look (fun s => newestRows ((s.all c).filter test))
  collect (fun row => attempt (load c row)) rows

/-- `_list` over a whole collection. -/
def list (c : Collection) : Prog Store Err (List (Model c)) := select c (fun _ => true)

/-- `_list` with a `parent_id`. -/
def listFor (c : Collection) (parent : String) : Prog Store Err (List (Model c)) :=
  select c (fun row => row.parentId = some parent)

/-- `update_run`. The operation may use the store inside the same transaction. -/
def updateRunWith {α : Type} (now : Time) (id : String) (operation : TaskRun → Prog Store Err (TaskRun × α)) :
    Prog Store Err (TaskRun × α) :=
  atomically (do
    let row ← lockedRow .runs id
    let run ← attempt (load .runs row)
    let (after,kept) ← operation run
    if after = row.payload then ret (after,kept)
    else do
      let after : TaskRun := { after with updatedAt := now }
      write (fun s => s.put .runs id (applyProjection .runs after (rewritten now after row)))
      ret (after,kept))

/-- `update_grant`, which leaves the projected columns as they are. -/
def updateGrant (now : Time) (id : String) (operation : ConnectorGrant → TaskRun → Except Err ConnectorGrant) :
    Prog Store Err ConnectorGrant := do
  let row ← lockedRow .grants id
  let grant ← attempt (load .grants row)
  let runRow ← lockedRow .runs grant.runId
  let run ← attempt (load .runs runRow)
  let after ← attempt (operation grant run)
  write (fun s => s.put .grants id (rewritten now after row))
  ret after

def consumeRegistrationCredential (tokenHash : String) (now : Time) : Prog Store Err Bool := fun s =>
  match s.find .registrationCredentials tokenHash with
  | none => (.ok false,s)
  | some row =>
    match load .registrationCredentials row with
    | .error e => (.error e,s)
    | .ok credential =>
      if credential.consumedAt ≠ none ∨ credential.expiresAt ≤ now then (.ok false,s)
      else (.ok true,s.put .registrationCredentials tokenHash (rewritten now (spent now credential) row))

def saveAuditEvent (now : Time) (event : SecurityAuditEvent) : Prog Store Err SecurityAuditEvent := fun s =>
  if (s.find .audit event.id).isSome then (.error (.valueError "security audit events are append-only"),s)
  else (.ok event,s.put .audit event.id (record now .audit event))

/-- The rows of `create_task_run`, added one after the other. -/
def addRows (now : Time) (entries : List Entry) (s : Store) : Store :=
  entries.foldl (fun s entry => s.put entry.1 (docId entry.1 entry.2) (record now entry.1 entry.2)) s

/-- `create_task_run`. Two documents with one key fail when the session is flushed. -/
def createTaskRun (now : Time) (task : CodeTask) (run : TaskRun) (workspaces : List ExecutionWorkspace) :
    Prog Store Err (CodeTask × TaskRun × List ExecutionWorkspace) := fun s =>
  match (bundle task run workspaces).find? (fun entry => (s.find entry.1 (docId entry.1 entry.2)).isSome) with
  | some entry => (.error (.stateConflict (singular entry.1 ++ " already exists")),s)
  | none =>
    if (places (bundle task run workspaces)).Nodup then
      (.ok (task,run,workspaces),addRows now (bundle task run workspaces) s)
    else (.error (.stateConflict "task run already exists"),s)

/-- The ids of the runs that `delete_task` selects. -/
def runIds (taskId : String) (s : Store) : List String :=
  ((s .runs).entries.filter (fun entry => decide (entry.2.parentId = some taskId))).map (fun entry => entry.1)

/-- `delete_task`. The second statement names no collection. -/
def deleteTask (taskId : String) : Prog Store Err Unit := do
  let ids ← look (runIds taskId)
  write (fun s => s.keep (fun _ row => !row.parentId.any (fun parent => ids.contains parent)))
  forEach (fun id => write (fun s => s.drop .runs id)) ids
  write (fun s => s.drop .tasks taskId)

/-- `prune`. A row that does not load ends the transaction. -/
def prune (auxiliaryOlderThan auditOlderThan : Time) : Prog Store Err Nat := fun s =>
  match auxiliary.find? (fun c => (s.all c).any (fun row => !valid c row.payload)) with
  | some c => (.error (.validationError (modelName c)),s)
  | none =>
    (.ok (auxiliary.map (fun c =>
        ((s.all c).filter (fun row => prunable auxiliaryOlderThan auditOlderThan c row.payload)).length)).sum,
      s.keep (fun c row => !prunable auxiliaryOlderThan auditOlderThan c row.payload))

/-- The rows that `claim_run` selects from. -/
def claimable (computerId : String) (row : Row .runs) : Bool :=
  row.assignedComputerId = some computerId &&
    (row.lifecycleStatus = some .queued || row.lifecycleStatus = some .recovering)

/-- The row of `claim_run`, with its key: `order_by(created_at.asc())`, `limit(1)`. -/
def oldestRow (computerId : String) (s : Store) : Option ((_ : String) × Row .runs) :=
  ((s .runs).entries.filter (fun entry => claimable computerId entry.2)).argmin (fun entry => entry.2.createdAt)

def claimRun (now : Time) (computerId leaseId : String) (leaseExpiresAt : Time) : Prog Store Err (Option TaskRun) := do
  let oldest ← look (oldestRow computerId)
  match oldest with
  | none => ret none
  | some ⟨id,row⟩ => do
    let run ← attempt (load .runs row)
    let after ← attempt (transitionRun now .preparing none (leased leaseId leaseExpiresAt run))
    let after : TaskRun := { after with updatedAt := now }
    write (fun s => s.put .runs id (applyProjection .runs after (rewritten now after row)))
    ret (some after)

def Projected {c : Collection} (row : Row c) : Prop := applyProjection c row.payload row = row

variable {c : Collection}

@[simp] theorem payload_applyProjection (c : Collection) (d : Model c) (row : Row c) :
    (applyProjection c d row).payload = row.payload := by
  cases c <;> rfl

theorem projected_applyProjection {d : Model c} {row : Row c} (own : row.payload = d) :
    Projected (applyProjection c d row) := by
  subst own
  unfold Projected
  cases c <;> rfl

theorem projected_record (now : Time) (c : Collection) (d : Model c) : Projected (record now c d) :=
  projected_applyProjection rfl

theorem projected_saved (now : Time) (d : Model c) (row : Row c) :
    Projected (applyProjection c d (rewritten now d row)) := projected_applyProjection rfl

theorem projected_grant {row : Row .grants} (projected : Projected row) (now : Time) {grant : ConnectorGrant}
    (same : grant.runId = row.payload.runId) : Projected (rewritten now grant row) := by
  grind only [applyProjection,Projected,rewritten]

theorem projected_credential {row : Row .registrationCredentials} (projected : Projected row) (now : Time)
    (credential : RuntimeRegistrationCredential) : Projected (rewritten now credential row) := by
  grind only [applyProjection,Projected,rewritten]

theorem parentId_projected {row : Row c} (projected : Projected row) (ok : valid c row.payload = true) :
    row.parentId = ControlStore.parentId c row.payload := by
  have column : row.parentId = (applyProjection c row.payload row).parentId := (congrArg Row.parentId projected).symm
  rw [column]
  cases c with
  | runs =>
    have task : row.payload.taskId ≠ "" := by
      intro empty
      simp [valid,TaskRun.valid,named,empty] at ok
    simp [applyProjection,ControlStore.parentId,truthyText,task]
  | _ => rfl

theorem load_ok {row : Row c} (ok : valid c row.payload = true) : load c row = .ok row.payload := by simp [load,ok]

theorem get_found {s : Store} {id : String} {row : Row c} (found : s.find c id = some row)
    (ok : valid c row.payload = true) : get c id s = (.ok row.payload,s) := by
  simp [get,andThen,lockedRow,found,load_ok ok]

theorem get_missing {s : Store} {id : String} (missing : s.find c id = none) :
    get c id s = (.error (.keyError (modelName c ++ " not found")),s) := by simp [get,andThen,lockedRow,missing]

theorem save_saves (now : Time) (d : Model c) (s : Store) : ∃ row : Row c, row.payload = touch now c d ∧ Projected row ∧
    save now c d s = (.ok (touch now c d),s.put c (docId c (touch now c d)) row) := by
  unfold save
  rcases found : s.find c (docId c (touch now c d)) with _ | row
  · exact ⟨record now c (touch now c d),payload_applyProjection ..,projected_record now c _,by simp only [found]⟩
  · exact ⟨applyProjection c (touch now c d) (rewritten now (touch now c d) row),payload_applyProjection ..,
      projected_saved now _ row,by simp only [found]⟩

section
variable {α : Type} {s t : Store} {id : String} {row : Row .runs} {after : TaskRun}
  {operation : TaskRun → Prog Store Err (TaskRun × α)} (now : Time)

theorem lockedRow_found {c : Collection} {row : Row c} (found : s.find c id = some row) :
    lockedRow c id s = (.ok row,s) := by simp [lockedRow,found]

theorem lockedRow_missing {c : Collection} (missing : s.find c id = none) :
    lockedRow c id s = (.error (.keyError (modelName c ++ " not found")),s) := by simp [lockedRow,missing]

theorem load_run {c : Collection} {row : Row c} (ok : valid c row.payload = true) (s : Store) :
    (attempt (load c row) : Prog Store Err (Model c)) s = (.ok row.payload,s) := attempt_ok (load_ok ok) s

theorem updateRunWith_missing (missing : s.find .runs id = none) :
    updateRunWith now id operation s = (.error (.keyError (modelName .runs ++ " not found")),s) := by
  simp only [updateRunWith,atomically,bind_run,andThen_error (lockedRow_missing missing)]

section
variable (found : s.find .runs id = some row)
include found

theorem updateRunWith_unloadable {e : Err}
    (raised : (attempt (load .runs row) : Prog Store Err TaskRun) s = (.error e,s)) :
    updateRunWith now id operation s = (.error e,s) := by
  simp only [updateRunWith,atomically,bind_run,andThen_ok (lockedRow_found found),andThen_error raised]

section
variable (loads : valid .runs row.payload = true)
include loads

theorem updateRunWith_error {e : Err}
    (ran : operation row.payload s = (.error e,t)) : updateRunWith now id operation s = (.error e,s) := by
  simp only [updateRunWith,atomically,bind_run,andThen_ok (lockedRow_found found),andThen_ok (load_run loads s),
    andThen_error ran]

theorem updateRunWith_same {kept : α}
    (ran : operation row.payload s = (.ok (row.payload,kept),t)) :
    updateRunWith now id operation s = (.ok (row.payload,kept),t) := by
  simp only [updateRunWith,atomically,bind_run,andThen_ok (lockedRow_found found),andThen_ok (load_run loads s),
    andThen_ok ran,if_pos,ret_run]

theorem updateRunWith_saves {kept : α}
    (ran : operation row.payload s = (.ok (after,kept),t)) (differs : after ≠ row.payload) :
    updateRunWith now id operation s = (.ok (touch now .runs after,kept),
      t.put .runs id (applyProjection .runs (touch now .runs after) (rewritten now (touch now .runs after) row))) := by
  simp only [updateRunWith,atomically,bind_run,andThen_ok (lockedRow_found found),andThen_ok (load_run loads s),
    andThen_ok ran,if_neg differs]
  rfl

end

end

end

variable {c : Collection} {s : Store}

theorem collect_load {rows : List (Row c)} (ok : ∀ row ∈ rows, valid c row.payload = true) (s : Store) :
    collect (fun row => attempt (load c row)) rows s = (.ok (rows.map Row.payload),s) := by
  induction rows with
  | nil => rfl
  | cons row rest ih =>
    have more := ih (fun other member => ok other (by simp [member]))
    exact (andThen_ok (load_run (ok row (by simp)) s)).trans (andThen_ok more)

theorem select_selects (ok : ∀ id row, s.find c id = some row → valid c row.payload = true)
    (test : Row c → Bool) : select c test s = (.ok ((newestRows ((s.all c).filter test)).map Row.payload),s) := by
  have all : ∀ row ∈ newestRows ((s.all c).filter test), valid c row.payload = true := by
    intro row member
    have stored : row ∈ s.all c := mem_of_mem_filter ((mem_insertionSort _).mp member)
    obtain ⟨id,found⟩ := mem_all.mp stored
    exact ok id row found
  exact collect_load all s

theorem mem_selected (test : Row c → Bool) {d : Model c} :
    d ∈ (newestRows ((s.all c).filter test)).map Row.payload ↔
      ∃ id row, s.find c id = some row ∧ row.payload = d ∧ test row = true := by
  simp only [mem_map,newestRows,mem_insertionSort,mem_filter,mem_all]
  constructor
  · rintro ⟨row,⟨⟨id,found⟩,passes⟩,rfl⟩; exact ⟨id,row,found,rfl,passes⟩
  · rintro ⟨id,row,found,rfl,passes⟩; exact ⟨row,⟨⟨id,found⟩,passes⟩,rfl⟩

theorem mem_runIds {taskId id : String} :
    id ∈ runIds taskId s ↔ ∃ row, s.find .runs id = some row ∧ row.parentId = some taskId := by
  unfold runIds
  simp only [mem_map,mem_filter,decide_eq_true_eq]
  constructor
  · rintro ⟨⟨key,row⟩,⟨member,child⟩,rfl⟩; exact ⟨row,AList.mem_lookup_iff.mpr member,child⟩
  · rintro ⟨row,found,child⟩; exact ⟨⟨id,row⟩,⟨AList.mem_lookup_iff.mp found,child⟩,rfl⟩

theorem forEach_drop (ids : List String) (s : Store) :
    ∃ t, forEach (fun id => (write (fun s : Store => s.drop .runs id) : Prog Store Err Unit)) ids s = (.ok (),t) ∧
      ∀ c id, t.find c id = if c = .runs ∧ id ∈ ids then none else s.find c id := by
  induction ids generalizing s with
  | nil => exact ⟨s,rfl,fun c id => by simp⟩
  | cons first rest ih =>
    obtain ⟨t,ran,found⟩ := ih (s.drop .runs first)
    refine ⟨t,ran,fun c id => ?_⟩
    grind [find_drop]

/-- What the statements of `delete_task` pass over. -/
structure Spared (ids : List String) (taskId : String) (c : Collection) (id : String) (row : Row c) : Prop where
  parent : ∀ parent ∈ ids, row.parentId ≠ some parent
  run : c = .runs → id ∉ ids
  task : c = .tasks → id ≠ taskId

theorem deleteTask_deletes (taskId : String) (s : Store) :
    ∃ t, deleteTask taskId s = (.ok (),t) ∧ ∀ c id row, t.find c id = some row ↔
      s.find c id = some row ∧ Spared (runIds taskId s) taskId c id row := by
  obtain ⟨t,ran,found⟩ := forEach_drop (runIds taskId s)
    (s.keep (fun _ row => !row.parentId.any (fun parent => (runIds taskId s).contains parent)))
  refine ⟨t.drop .tasks taskId,?_,fun c id row => ?_⟩
  · simp only [deleteTask,bind_run,andThen_ok (look_run _ s),andThen_ok (write_run _ s),andThen_ok ran,write_run]
  · rw [find_drop,found,find_keep]
    constructor
    · intro stored
      split at stored
      · cases stored
      · rename_i notTask
        split at stored
        · cases stored
        · rename_i notRun
          obtain ⟨here,spared⟩ := Option.filter_eq_some_iff.mp stored
          refine ⟨here,fun parent member same => ?_,fun isRun member => notRun ⟨isRun,member⟩,fun isTask same =>
            notTask ⟨isTask.symm,same⟩⟩
          simp [same,member] at spared
    · rintro ⟨stored,spared⟩
      rw [if_neg (fun both => spared.task both.1.symm both.2),if_neg (fun both => spared.run both.1 both.2),
        Option.filter_eq_some_iff]
      refine ⟨stored,?_⟩
      rcases parent : row.parentId with _ | value
      · rfl
      · have absent : value ∉ runIds taskId s := fun member => spared.parent value member parent
        simp [absent]

end Cowork.SqlStore
