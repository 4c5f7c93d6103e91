import Cowork.StoreFrames

/-!
`LocalControlPlaneStore` (`control_store.py`): one JSON file for each document, and an
index in memory from a parent to the ids of its documents. The lists of one parent go
through the index, so it has to follow every save, bundle, deletion and pruning
(`Sound`).
-/
namespace Cowork.LocalStore
open ControlModels RunState Effects Tables ControlStore StoreFrames List

/-- The files by collection and id, and `_parent_index`; a missing parent has no documents. -/
structure Store where
  docs : Docs
  index : Collection → String → List String

def Store.empty : Store := ⟨Table.empty,fun _ _ => []⟩

def onDocs {α : Type} (p : Prog Docs Err α) : Prog Store Err α := fun s => ((p s.docs).1,{ s with docs := (p s.docs).2 })

/-- `ids.discard(document_id)` for every parent. -/
def discard (c : Collection) (id : String) (index : Collection → String → List String) : Collection → String → List String :=
  Function.update index c (fun parent => (index c parent).filter (fun other => other ≠ id))

def indexDocument (c : Collection) (d : Model c) (index : Collection → String → List String) :
    Collection → String → List String :=
  Function.update index c (fun parent =>
    if parentId c d = some parent then docId c d :: discard c (docId c d) index c parent
    else discard c (docId c d) index c parent)

/-- The ids of files: a name of `longest` characters is 255 bytes with what is written around it. -/
def nameable (longest : Nat) (id : String) : Bool := wellFormedId id && decide (id.length ≤ longest)

/-- `_path`, and the file system's answer to the name. -/
def path (longest : Nat) (id : String) : Prog Store Err Unit :=
  if wellFormedId id = false then raise (.valueError "invalid control-plane document id")
  else if longest < id.length then raise (.osError "File name too long")
  else ret ()

/-- `_save`, after the `save_` method of the collection. The file is written as `.{id}.json.{uuid}.tmp`. -/
def save (now : Time) (c : Collection) (d : Model c) : Prog Store Err (Model c) := do
  path 212 (docId c d)
  let saved ← onDocs (ControlStore.save .files now c d)
  write (fun s => { s with index := indexDocument c saved s.index })
  ret saved

/-- `_delete`. -/
def delete (c : Collection) (id : String) : Prog Store Err Unit := do
  path 250 id
  write (fun s => ⟨s.docs.drop c id,discard c id s.index⟩)

/-- `_get`. -/
def get (c : Collection) (id : String) : Prog Store Err (Model c) := do
  path 250 id
  onDocs (ControlStore.get .files c id)

/-- `_list`. -/
def list (c : Collection) : Prog Store Err (List (Model c)) := onDocs (ControlStore.list .files c)

/-- The loop of `_list_for_parent`: an id without a file is passed over. -/
def loadAll (c : Collection) : List String → Prog Store Err (List (Model c))
  | [] => ret []
  | id :: rest => do
    let head ← orMissing (do
      let d ← get c id
      ret [d]) (ret [])
    let tail ← loadAll c rest
    ret (head ++ tail)

/-- `_list_for_parent`. -/
def listFor (c : Collection) (parent : String) : Prog Store Err (List (Model c)) := do
  let ids ← look (fun s => s.index c parent)
  let items ← loadAll c ids
  ret (newestFirst c items)

def updateRunWith {α : Type} (now : Time) (id : String) (operation : TaskRun → Prog Store Err (TaskRun × α)) :
    Prog Store Err (TaskRun × α) := do
  let run ← get .runs id
  let (after,kept) ← operation run
  if after = run then ret (run,kept)
  else do
    let saved ← save now .runs after
    ret (saved,kept)

def updateGrant (id : String) (operation : ConnectorGrant → TaskRun → Except Err ConnectorGrant) :
    Prog Store Err ConnectorGrant := do
  let grant ← get .grants id
  let run ← get .runs grant.runId
  let after ← attempt (operation grant run)
  save 0 .grants after

def consumeRegistrationCredential (tokenHash : String) (now : Time) : Prog Store Err Bool := do
  let found ← orMissing (do
    let credential ← get .registrationCredentials tokenHash
    ret (some credential)) (ret none)
  match found with
  | none => ret false
  | some credential =>
    if credential.consumedAt ≠ none ∨ credential.expiresAt ≤ now then ret false
    else do
      let _ ← save 0 .registrationCredentials (spent now credential)
      ret true

def saveAuditEvent (event : SecurityAuditEvent) : Prog Store Err SecurityAuditEvent := fun s =>
  match get .audit event.id s with
  | (.ok _,s') => (.error (.valueError "security audit events are append-only"),s')
  | (.error (.keyError _),s') => save 0 .audit event s'
  | (.error e,s') => (.error e,s')

/-- `create_task_run`. Each document up to one that is there already is staged as `.{id}.{uuid}.tmp`; the files of the
    bundle appear together or not at all; then each document is indexed. -/
def createTaskRun (task : CodeTask) (run : TaskRun) (workspaces : List ExecutionWorkspace) :
    Prog Store Err (CodeTask × TaskRun × List ExecutionWorkspace) := do
  let staged ← look (fun s => (bundle task run workspaces).takeWhile
    (fun entry => (s.docs.find entry.1 (docId entry.1 entry.2)).isNone))
  forEach (fun entry => path 217 (docId entry.1 entry.2)) staged
  let created ← onDocs (ControlStore.createTaskRun .files task run workspaces)
  write (fun s => { s with
    index := (bundle task run workspaces).foldl (fun index entry => indexDocument entry.1 entry.2 index) s.index })
  ret created

/-- The execution records that `delete_task` removes with a run. -/
def owned : List Collection := [.workspaces,.grants,.commands,.runCredentials,.audit]

def deleteOwned (parent : String) (c : Collection) : Prog Store Err Unit := do
  let items ← listFor c parent
  forEach (fun d => delete c (docId c d)) items

def deleteTask (taskId : String) : Prog Store Err Unit := do
  let runs ← listFor .runs taskId
  forEach (fun run => do
    forEach (deleteOwned run.id) owned
    delete .runs run.id) runs
  delete .tasks taskId

def pruneCollection (auxiliaryOlderThan auditOlderThan : Time) (c : Collection) : Prog Store Err Nat := do
  let items ← list c
  forEach (fun d => delete c (docId c d)) (items.filter (prunable auxiliaryOlderThan auditOlderThan c))
  ret (items.filter (prunable auxiliaryOlderThan auditOlderThan c)).length

def prune (auxiliaryOlderThan auditOlderThan : Time) : Prog Store Err Nat := do
  let removed ← collect (pruneCollection auxiliaryOlderThan auditOlderThan) auxiliary
  ret removed.sum

/-- A run that `claim_run` may take. -/
def claimable (computerId : String) (run : TaskRun) : Bool :=
  run.computerId = computerId && (run.status = .queued || run.status = .recovering)

def claimRun (now : Time) (computerId leaseId : String) (leaseExpiresAt : Time) : Prog Store Err (Option TaskRun) := do
  let runs ← list .runs
  match (runs.filter (claimable computerId)).argmin TaskRun.createdAt with
  | none => ret none
  | some run => do
    let after ← attempt (transitionRun now .preparing none (leased leaseId leaseExpiresAt run))
    let saved ← save now .runs after
    ret (some saved)

structure Sound (s : Store) : Prop where
  filed : s.docs.Filed
  valid : ∀ c id d, s.docs.find c id = some d → valid c d = true
  indexed : ∀ c parent id, id ∈ s.index c parent ↔ ∃ d, s.docs.find c id = some d ∧ parentId c d = some parent

variable {c : Collection} {id : String} {s : Store}

theorem mem_discard {c' : Collection} {other parent : String} {index : Collection → String → List String} :
    other ∈ discard c id index c' parent ↔ other ∈ index c' parent ∧ ¬(c = c' ∧ other = id) := by
  unfold discard
  by_cases here : c = c'
  · subst here; simp
  · simp [Function.update_of_ne (Ne.symm here),here]

theorem mem_indexDocument {c' : Collection} {d : Model c} {parent : String}
    {index : Collection → String → List String} : id ∈ indexDocument c d index c' parent ↔
    (c = c' ∧ id = docId c d ∧ parentId c d = some parent) ∨ id ∈ index c' parent ∧ ¬(c = c' ∧ id = docId c d) := by
  unfold indexDocument
  by_cases here : c = c'
  · grind [mem_discard]
  · simp [Function.update_of_ne (Ne.symm here),here]

theorem sound_empty : Sound Store.empty := by
  refine ⟨filed_empty,?_,?_⟩
  · intro c id d found
    simp [Store.empty] at found
  · intro c parent id
    simp [Store.empty]

theorem sound_put (sound : Sound s) {c : Collection} {d : Model c} (ok : ControlStore.valid c d = true) :
    Sound ⟨s.docs.put c (docId c d) d,indexDocument c d s.index⟩ := by
  refine ⟨filed_put sound.filed c rfl,?_,?_⟩
  · intro c' id d' found
    rw [find_put] at found
    split at found
    · rename_i here
      subst here
      split at found
      · cases found; exact ok
      · exact sound.valid _ _ _ found
    · exact sound.valid _ _ _ found
  · intro c' parent id
    rw [mem_indexDocument,sound.indexed,find_put]
    by_cases here : c = c'
    · subst here
      by_cases own : id = docId c d
      · simp [own]
      · simp [own]
    · simp [here]

theorem sound_drop (sound : Sound s) (c : Collection) (id : String) : Sound ⟨s.docs.drop c id,discard c id s.index⟩ := by
  have kept : ∀ c' id' d, (s.docs.drop c id).find c' id' = some d → s.docs.find c' id' = some d := by
    intro c' id' d found
    rw [find_drop] at found
    split at found
    · cases found
    · exact found
  refine ⟨fun c' id' d found => sound.filed _ _ _ (kept _ _ _ found),fun c' id' d found =>
    sound.valid _ _ _ (kept _ _ _ found),fun c' parent other => ?_⟩
  rw [mem_discard,sound.indexed,find_drop]
  split
  · rename_i here
    simp [here]
  · rename_i elsewhere
    simp [elsewhere]

theorem nameable_mono {m n : Nat} (le : m ≤ n) (short : nameable m id = true) : nameable n id = true := by
  simp only [nameable,Bool.and_eq_true,decide_eq_true_eq] at short ⊢
  exact ⟨short.1,short.2.trans le⟩

/-- The models bound their ids, so a document that loads has a name for its file and for the staging of it. -/
theorem nameable_of_valid {d : Model c} (ok : ControlStore.valid c d = true) : nameable 160 (docId c d) = true := by
  simp only [nameable,wellFormed_of_valid ok,Bool.true_and,decide_eq_true_eq]
  cases c <;> grind only [ControlStore.valid,docId,Computer.valid,CodeTask.valid,TaskRun.valid,ExecutionWorkspace.valid,
    ConnectorGrant.valid,RuntimeCommand.valid,RuntimeCredential.valid,RuntimeRegistrationCredential.valid,
    TaskRunCredential.valid,SecurityAuditEvent.valid,named]

theorem path_names {longest : Nat} (short : nameable longest id = true) (s : Store) : path longest id s = (.ok (),s) := by
  simp only [nameable,Bool.and_eq_true,decide_eq_true_eq] at short
  simp [path,short.1,Nat.not_lt.mpr short.2]

theorem path_refuses {longest : Nat} (unnamed : nameable longest id = false) (s : Store) :
    ∃ e, path longest id s = (.error e,s) := by
  simp only [nameable,Bool.and_eq_false_iff,decide_eq_false_iff_not,Nat.not_le] at unnamed
  rcases formed : wellFormedId id with _ | _
  · exact ⟨.valueError "invalid control-plane document id",by simp [path,formed]⟩
  · have long : longest < id.length := unnamed.resolve_left (by simp [formed])
    exact ⟨.osError "File name too long",by simp [path,formed,long]⟩

theorem stage_names {entries : List Entry} (ok : ∀ entry ∈ entries, ControlStore.valid entry.1 entry.2 = true) :
    forEach (fun entry => path 217 (docId entry.1 entry.2)) entries s = (.ok (),s) := by
  induction entries with
  | nil => rfl
  | cons entry rest ih =>
    have short := nameable_mono (n := 217) (by decide) (nameable_of_valid (ok entry (by simp)))
    exact (andThen_ok (path_names short s)).trans (ih (fun other member => ok other (by simp [member])))

theorem get_named (short : nameable 250 id = true) (c : Collection) (s : Store) : get c id s =
    (match s.docs.find c id with
    | none => .error (.keyError (modelName c ++ " not found"))
    | some d => if ControlStore.valid c d then .ok d else .error (.validationError (modelName c)),s) := by
  refine (andThen_ok (path_names short s)).trans ?_
  have good := (Bool.and_eq_true_iff.mp short).1
  rcases found : s.docs.find c id with _ | d
  · simp [onDocs,ControlStore.get,good,found]
  · by_cases ok : ControlStore.valid c d = true <;> simp [onDocs,ControlStore.get,good,found,ok]

theorem get_found (sound : Sound s) {d : Model c} (found : s.docs.find c id = some d) : get c id s = (.ok d,s) := by
  have ok := sound.valid c id d found
  have short : nameable 160 id = true := sound.filed c id d found ▸ nameable_of_valid ok
  simp [get_named (nameable_mono (by decide) short),found,ok]

theorem get_missing (short : nameable 250 id = true)
    (missing : s.docs.find c id = none) : get c id s = (.error (.keyError (modelName c ++ " not found")),s) := by
  simp [get_named short,missing]

theorem save_saves {d : Model c} (ok : ControlStore.valid c d = true) (now : Time) : save now c d s =
    (.ok (touch now c d),
    ⟨s.docs.put c (docId c (touch now c d)) (touch now c d),indexDocument c (touch now c d) s.index⟩) := by
  refine (andThen_ok (path_names (nameable_mono (by decide) (nameable_of_valid ok)) s)).trans ?_
  simp [andThen,onDocs,save_stores _ now (wellFormed_of_valid ok)]

theorem delete_deletes (short : nameable 250 id = true) (c : Collection) (s : Store) : delete c id s =
    (.ok (),⟨s.docs.drop c id,discard c id s.index⟩) := andThen_ok (path_names short s)

theorem list_lists (sound : Sound s) (c : Collection) : list c s = (.ok (newestFirst c (s.docs.all c)),s) := by
  have all : (s.docs.all c).filter (ControlStore.valid c) = s.docs.all c := by
    rw [filter_eq_self]
    intro d member
    obtain ⟨id,found⟩ := mem_all.mp member
    exact sound.valid c id d found
  simp [list,onDocs,ControlStore.list,all]

theorem loadAll_loads (sound : Sound s) {ids : List String} (stored : ∀ id ∈ ids, ∃ d, s.docs.find c id = some d) :
    loadAll c ids s = (.ok (ids.filterMap (s.docs.find c)),s) := by
  induction ids with
  | nil => rfl
  | cons id rest ih =>
    obtain ⟨d,found⟩ := stored id (by simp)
    have more := ih (fun other member => stored other (by simp [member]))
    have head : orMissing (do
        let d ← get c id
        ret [d]) (ret []) s = (.ok [d],s) := by simp [orMissing,andThen,get_found sound found]
    show andThen _ _ s = _
    rw [andThen_ok head]
    show andThen _ _ s = _
    rw [andThen_ok more]; simp [found]

theorem listFor_lists (sound : Sound s) (c : Collection) (parent : String) : ∃ items, listFor c parent s =
    (.ok items,s) ∧ ∀ d, d ∈ items ↔ d ∈ s.docs.all c ∧ parentId c d = some parent := by
  have stored : ∀ id ∈ s.index c parent, ∃ d, s.docs.find c id = some d := by
    intro id member
    obtain ⟨d,found,_⟩ := (sound.indexed c parent id).mp member
    exact ⟨d,found⟩
  refine ⟨newestFirst c ((s.index c parent).filterMap (s.docs.find c)),?_,fun d => ?_⟩
  · show andThen (loadAll c (s.index c parent)) _ s = _
    rw [andThen_ok (loadAll_loads sound stored)]; rfl
  · rw [mem_newestFirst,mem_filterMap,mem_all]
    constructor
    · rintro ⟨id,member,found⟩
      obtain ⟨other,same,child⟩ := (sound.indexed c parent id).mp member
      rw [found] at same
      cases same; exact ⟨⟨id,found⟩,child⟩
    · rintro ⟨⟨id,found⟩,child⟩; exact ⟨id,(sound.indexed c parent id).mpr ⟨d,found,child⟩,found⟩

section
variable {α : Type} {s t : Store} {id : String} {run after : TaskRun} {operation : TaskRun → Prog Store Err (TaskRun × α)}
  (now : Time)

section
variable (loaded : get .runs id s = (.ok run,s))
include loaded

theorem updateRunWith_error {e : Err} (ran : operation run s = (.error e,t)) :
    updateRunWith now id operation s = (.error e,t) := by
  simp only [updateRunWith,bind_run,andThen_ok loaded,andThen_error ran]

theorem updateRunWith_same {kept : α}
    (ran : operation run s = (.ok (run,kept),t)) : updateRunWith now id operation s = (.ok (run,kept),t) := by
  simp only [updateRunWith,bind_run,andThen_ok loaded,andThen_ok ran,if_pos,ret_run]

theorem updateRunWith_saves {kept : α}
    (ran : operation run s = (.ok (after,kept),t)) (differs : after ≠ run) (ok : after.valid = true) :
    updateRunWith now id operation s = (.ok (touch now .runs after,kept),
      ⟨t.docs.put .runs (docId .runs (touch now .runs after)) (touch now .runs after),
        indexDocument .runs (touch now .runs after) t.index⟩) := by
  have saved := save_saves (s := t) (c := .runs) ok now
  simp only [updateRunWith,bind_run,andThen_ok loaded,andThen_ok ran,if_neg differs,andThen_ok saved,ret_run]

end

end

def Leaves (test : (c : Collection) → Model c → Bool) (p : Prog Store Err Unit) : Prop :=
  ∀ s, Sound s → ∃ t, p s = (.ok (),t) ∧ Sound t ∧ Filtered test s.docs t.docs

theorem leaves_andThen {test test' : (c : Collection) → Model c → Bool} {p q : Prog Store Err Unit} (first : Leaves test p)
    (rest : Leaves test' q) : Leaves (fun c d => test c d && test' c d) (andThen p (fun _ => q)) := by
  intro s sound
  obtain ⟨t,ran,kept,filtered⟩ := first s sound
  obtain ⟨u,ran',kept',filtered'⟩ := rest t kept
  exact ⟨u,(andThen_ok ran).trans ran',kept',filtered.trans filtered'⟩

theorem leaves_forEach {β : Type} {test : β → (c : Collection) → Model c → Bool} {body : β → Prog Store Err Unit}
    {items : List β} (each : ∀ item ∈ items, Leaves (test item) (body item)) :
    Leaves (fun c d => items.all (fun item => test item c d)) (forEach body items) := by
  induction items with
  | nil => exact fun s sound => ⟨s,rfl,sound,filtered_refl (fun _ _ _ _ => rfl)⟩
  | cons item rest ih =>
    have later := ih (fun other member => each other (by simp [member]))
    exact leaves_andThen (each item (by simp)) later

theorem leaves_delete (c : Collection) {id : String} (short : nameable 250 id = true) :
    Leaves (fun c' d => !decide (c = c' ∧ docId c' d = id)) (delete c id) := by
  intro s sound
  refine ⟨_,delete_deletes short c s,sound_drop sound c id,fun c' id' => ?_⟩
  rw [find_drop]
  rcases found : s.docs.find c' id' with _ | d
  · simp
  · have own : docId c' d = id' := sound.filed c' id' d found
    rw [Option.filter_some]
    simp only [own]
    by_cases here : c = c' ∧ id' = id
    · simp [here]
    · simp [here]

theorem Sound.stored (sound : Sound s) {c : Collection} {d : Model c} (member : d ∈ s.docs.all c) :
    s.docs.find c (docId c d) = some d ∧ nameable 250 (docId c d) = true := by
  obtain ⟨id,found⟩ := mem_all.mp member
  refine ⟨?_,nameable_mono (by decide) (nameable_of_valid (sound.valid c id d found))⟩
  rw [sound.filed c id d found]
  exact found

theorem delete_items (sound : Sound s) {c : Collection} (chosen : Model c → Bool) (items : List (Model c))
    (picked : ∀ d, d ∈ items ↔ d ∈ s.docs.all c ∧ chosen d = true) :
    ∃ t, forEach (fun d => delete c (docId c d)) items s = (.ok (),t) ∧ Sound t ∧
      Filtered (fun c' d => !decide (∃ same : c' = c, chosen (same ▸ d) = true)) s.docs t.docs := by
  have each : ∀ d ∈ items, Leaves (fun c' d' => !decide (c = c' ∧ docId c' d' = docId c d)) (delete c (docId c d)) :=
    fun d member => leaves_delete c (sound.stored ((picked d).mp member).1).2
  obtain ⟨t,ran,kept,filtered⟩ := leaves_forEach each s sound
  refine ⟨t,ran,kept,filtered.congr (fun c' id d found => ?_)⟩
  by_cases here : c' = c
  · have own : docId c' d = id := sound.filed c' id d found
    grind only [all_eq_true,mem_all,sound.stored]
  · simp [here,Ne.symm here]

theorem leaves_deleteOwned (parent : String) (c : Collection) :
    Leaves (fun c' d => !decide (c = c' ∧ parentId c' d = some parent)) (deleteOwned parent c) := by
  intro s sound
  obtain ⟨items,listed,picked⟩ := listFor_lists sound c parent
  obtain ⟨t,ran,kept,filtered⟩ := delete_items sound (fun d => decide (parentId c d = some parent)) items
    (fun d => by rw [picked,decide_eq_true_eq])
  refine ⟨t,(andThen_ok listed).trans ran,kept,filtered.congr (fun c' id d _ => ?_)⟩
  by_cases here : c' = c
  · subst here; simp
  · simp [here,Ne.symm here]

/-- What `delete_task` leaves: all but the task, its runs and their execution records. -/
def survives (ids : List String) (taskId : String) (c : Collection) (d : Model c) : Bool :=
  decide ((c ∈ owned → ∀ id ∈ ids, parentId c d ≠ some id) ∧ (c = .runs → docId c d ∉ ids) ∧
    (c = .tasks → docId c d ≠ taskId))

theorem deleteTask_deletes (sound : Sound s) {taskId : String} (short : nameable 250 taskId = true) :
    ∃ (runs : List TaskRun) (t : Store), (∀ run, run ∈ runs ↔ run ∈ s.docs.all .runs ∧ parentId .runs run = some taskId) ∧
      deleteTask taskId s = (.ok (),t) ∧ Sound t ∧
      Filtered (survives (runs.map TaskRun.id) taskId) s.docs t.docs := by
  obtain ⟨runs,listed,picked⟩ := listFor_lists sound .runs taskId
  have each : ∀ run ∈ runs, Leaves (fun c' d => owned.all (fun c => !decide (c = c' ∧ parentId c' d = some run.id)) &&
      !decide (Collection.runs = c' ∧ docId c' d = run.id))
      (andThen (forEach (deleteOwned run.id) owned) (fun _ => delete .runs run.id)) := by
    intro run member
    exact leaves_andThen (leaves_forEach (fun c _ => leaves_deleteOwned run.id c))
      (leaves_delete .runs (sound.stored ((picked run).mp member).1).2)
  obtain ⟨t,ran,kept,filtered⟩ := leaves_andThen (leaves_forEach each) (leaves_delete .tasks short) s sound
  refine ⟨runs,t,picked,(andThen_ok listed).trans ran,kept,filtered.congr (fun c id d _ => ?_)⟩
  rw [Bool.eq_iff_iff]
  simp only [survives,Bool.and_eq_true,all_eq_true,Bool.not_eq_true',decide_eq_false_iff_not,decide_eq_true_eq]
  constructor
  · rintro ⟨spared,other⟩
    refine ⟨fun inside id listedId child => ?_,fun isRun listedId => ?_,fun isTask same => other ⟨isTask.symm,same⟩⟩
    · obtain ⟨run,member,rfl⟩ := mem_map.mp listedId
      exact (spared run member).1 c inside ⟨rfl,child⟩
    · obtain ⟨run,member,same⟩ := mem_map.mp listedId
      exact (spared run member).2 ⟨isRun.symm,same.symm⟩
  · rintro ⟨unowned,otherRun,otherTask⟩
    refine ⟨fun run member => ⟨?_,?_⟩,fun same => otherTask same.1.symm same.2⟩
    · rintro c' inside ⟨rfl,child⟩; exact unowned inside run.id (mem_map_of_mem member) child
    · rintro ⟨isRun,same⟩; exact otherRun isRun.symm (same ▸ mem_map_of_mem member)

section
variable (aux audit : Time)

/-- How many documents of a collection `prune` removes. -/
def prunableCount (s : Docs) (c : Collection) : Nat :=
  ((s.all c).filter (prunable aux audit c)).length

theorem prunableCount_same {s t : Docs} {c : Collection} (same : ∀ id, t.find c id = s.find c id) :
    prunableCount aux audit t c = prunableCount aux audit s c := by
  have perm := all_perm (r := t) (s := s) (c := c) (fun d => d) (fun id => by simp [same id])
  rw [map_id'] at perm
  exact (perm.filter _).length_eq

theorem pruneCollection_prunes (sound : Sound s) (c : Collection) :
    ∃ t, pruneCollection aux audit c s = (.ok (prunableCount aux audit s.docs c),t) ∧ Sound t ∧
      Filtered (fun c' d => !decide (c' = c ∧ prunable aux audit c' d = true)) s.docs t.docs := by
  obtain ⟨t,ran,kept,filtered⟩ := delete_items sound (prunable aux audit c)
    ((newestFirst c (s.docs.all c)).filter (prunable aux audit c)) (fun d => by simp)
  have count : ((newestFirst c (s.docs.all c)).filter (prunable aux audit c)).length =
      prunableCount aux audit s.docs c :=
    ((perm_insertionSort _ (s.docs.all c)).filter _).length_eq
  refine ⟨t,?_,kept,filtered.congr (fun c' id d _ => ?_)⟩
  · simp only [pruneCollection,bind_run,andThen_ok (list_lists sound c),andThen_ok ran,ret_run,count]
  · by_cases here : c' = c
    · subst here; simp
    · simp [here]

theorem prune_collections (sound : Sound s) {cs : List Collection} (distinct : cs.Nodup) :
    ∃ counts t, collect (pruneCollection aux audit) cs s = (.ok counts,t) ∧
      counts.sum = (cs.map (prunableCount aux audit s.docs)).sum ∧ Sound t ∧
      Filtered (fun c d => !decide (c ∈ cs ∧ prunable aux audit c d = true)) s.docs t.docs := by
  induction cs generalizing s with
  | nil => exact ⟨[],s,rfl,rfl,sound,filtered_refl (fun _ _ _ _ => by simp)⟩
  | cons c rest ih =>
    obtain ⟨t,ran,kept,filtered⟩ := pruneCollection_prunes aux audit sound c
    obtain ⟨fresh,others⟩ := nodup_cons.mp distinct
    obtain ⟨counts,u,more,sum,kept',filtered'⟩ := ih kept others
    have same : ∀ c' ∈ rest, prunableCount aux audit t.docs c' = prunableCount aux audit s.docs c' := by
      intro c' member
      refine prunableCount_same aux audit (fun id => ?_)
      have differs : c' ≠ c := fun equal => fresh (equal ▸ member)
      rw [filtered c' id]
      rcases s.docs.find c' id with _ | d
      · rfl
      · simp [differs]
    refine ⟨prunableCount aux audit s.docs c :: counts,u,?_,?_,kept',(filtered.trans filtered').congr (fun c' id d _ => ?_)⟩
    · show andThen (pruneCollection aux audit c) _ s = _
      rw [andThen_ok ran,andThen_ok more]; rfl
    · rw [sum_cons,sum,map_cons,sum_cons,map_congr_left same]
    · by_cases here : c' = c
      · subst here
        simp [fresh]
      · simp [here]

theorem prune_prunes (sound : Sound s) :
    ∃ t, prune aux audit s = (.ok (auxiliary.map (prunableCount aux audit s.docs)).sum,t) ∧ Sound t ∧
      Filtered (fun c d => !prunable aux audit c d) s.docs t.docs := by
  obtain ⟨counts,t,ran,sum,kept,filtered⟩ := prune_collections aux audit sound
    (show auxiliary.Nodup by decide)
  refine ⟨t,?_,kept,filtered.congr (fun c id d _ => ?_)⟩
  · show andThen (collect _ _) _ s = _
    rw [andThen_ok ran,← sum]; rfl
  · cases c <;> simp [auxiliary,prunable]

end

end Cowork.LocalStore
