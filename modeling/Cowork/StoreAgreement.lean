import Cowork.LocalStore
import Cowork.SqlStore
import Cowork.Transitions

/-!
The two control-plane stores side by side. The same calls, at the same clock times, run
against the files and against the rows; `Agree` relates the two states, and each call
that meets its condition (`meets`) keeps it and answers alike.
-/
namespace Cowork.StoreAgreement
open ControlModels RunState Effects Tables ControlStore List Transitions
open LocalStore (nameable)

/-! ## Calls -/

/-- The operations of `ControlPlaneStore`. -/
inductive Op where
  | save (c : Collection) (d : Model c)
  | get (c : Collection) (id : String)
  | list (c : Collection)
  | listFor (c : Collection) (parent : String)
  | createTaskRun (task : CodeTask) (run : TaskRun) (workspaces : List ExecutionWorkspace)
  | claimRun (computerId leaseId : String) (leaseExpiresAt : Time)
  | updateRun (id : String) (operation : TaskRun → Except Err TaskRun)
  | updateGrant (id : String) (operation : ConnectorGrant → TaskRun → Except Err ConnectorGrant)
  | consumeRegistrationCredential (tokenHash : String) (moment : Time)
  | saveAuditEvent (event : SecurityAuditEvent)
  | deleteTask (taskId : String)
  | prune (aux audit : Time)

structure Call where
  now : Time
  op : Op

inductive Answer where
  | document (c : Collection) (d : Model c)
  | documents (c : Collection) (items : List (Model c))
  | created (task : CodeTask) (run : TaskRun) (workspaces : List ExecutionWorkspace)
  | claimed (run : Option TaskRun)
  | consumed (taken : Bool)
  | deleted
  | pruned (count : Nat)

def answering {σ α : Type} (p : Prog σ Err α) (wrap : α → Answer) : Prog σ Err Answer := do
  let a ← p
  ret (wrap a)

/-- An operation of `update_run` that only changes the run or raises. -/
def pureRun {σ : Type} (operation : TaskRun → Except Err TaskRun) (run : TaskRun) : Prog σ Err (TaskRun × Unit) := do
  let after ← attempt (operation run)
  ret (after,())

def onFiles (call : Call) : Prog LocalStore.Store Err Answer :=
  match call.op with
  | .save c d => answering (LocalStore.save call.now c d) (.document c)
  | .get c id => answering (LocalStore.get c id) (.document c)
  | .list c => answering (LocalStore.list c) (.documents c)
  | .listFor c parent => answering (LocalStore.listFor c parent) (.documents c)
  | .createTaskRun task run workspaces =>
    answering (LocalStore.createTaskRun task run workspaces) (fun made => .created made.1 made.2.1 made.2.2)
  | .claimRun computerId leaseId leaseExpiresAt =>
    answering (LocalStore.claimRun call.now computerId leaseId leaseExpiresAt) .claimed
  | .updateRun id operation =>
    answering (LocalStore.updateRunWith call.now id (pureRun operation)) (fun made => .document .runs made.1)
  | .updateGrant id operation => answering (LocalStore.updateGrant id operation) (.document .grants)
  | .consumeRegistrationCredential tokenHash moment =>
    answering (LocalStore.consumeRegistrationCredential tokenHash moment) .consumed
  | .saveAuditEvent event => answering (LocalStore.saveAuditEvent event) (.document .audit)
  | .deleteTask taskId => answering (LocalStore.deleteTask taskId) (fun _ => .deleted)
  | .prune auxiliaryOlderThan auditOlderThan =>
    answering (LocalStore.prune auxiliaryOlderThan auditOlderThan) .pruned

def onRows (call : Call) : Prog SqlStore.Store Err Answer :=
  match call.op with
  | .save c d => answering (SqlStore.save call.now c d) (.document c)
  | .get c id => answering (SqlStore.get c id) (.document c)
  | .list c => answering (SqlStore.list c) (.documents c)
  | .listFor c parent => answering (SqlStore.listFor c parent) (.documents c)
  | .createTaskRun task run workspaces =>
    answering (SqlStore.createTaskRun call.now task run workspaces) (fun made => .created made.1 made.2.1 made.2.2)
  | .claimRun computerId leaseId leaseExpiresAt =>
    answering (SqlStore.claimRun call.now computerId leaseId leaseExpiresAt) .claimed
  | .updateRun id operation =>
    answering (SqlStore.updateRunWith call.now id (pureRun operation)) (fun made => .document .runs made.1)
  | .updateGrant id operation => answering (SqlStore.updateGrant call.now id operation) (.document .grants)
  | .consumeRegistrationCredential tokenHash moment =>
    answering (SqlStore.consumeRegistrationCredential tokenHash moment) .consumed
  | .saveAuditEvent event => answering (SqlStore.saveAuditEvent call.now event) (.document .audit)
  | .deleteTask taskId => answering (SqlStore.deleteTask taskId) (fun _ => .deleted)
  | .prune auxiliaryOlderThan auditOlderThan =>
    answering (SqlStore.prune auxiliaryOlderThan auditOlderThan) .pruned

/-! ## What it means to agree -/

/-- The kinds of errors that a caller tells apart. `ValidationError` is a `ValueError`. -/
inductive Kind where
  | key | conflict | value | other (e : Err)

def kind : Err → Kind
  | .keyError _ => .key
  | .stateConflict _ => .conflict
  | .valueError _ => .value
  | .validationError _ => .value
  | e => .other e

inductive SameAnswer : Answer → Answer → Prop where
  | same (answer : Answer) : SameAnswer answer answer
  | lists {c : Collection} {items others : List (Model c)} (members : ∀ d, d ∈ items ↔ d ∈ others) :
    SameAnswer (.documents c items) (.documents c others)

inductive SameResult : Except Err Answer → Except Err Answer → Prop where
  | returned {answer other : Answer} (same : SameAnswer answer other) : SameResult (.ok answer) (.ok other)
  | raised {e e' : Err} (same : kind e = kind e') : SameResult (.error e) (.error e')

structure Pair where
  files : LocalStore.Store
  rows : SqlStore.Store

def both (pair : Pair) (call : Call) : Pair := ⟨(onFiles call pair.files).2,(onRows call pair.rows).2⟩

def answers : Pair → List Call → List (Except Err Answer × Except Err Answer)
  | _,[] => []
  | pair,call :: rest => ((onFiles call pair.files).1,(onRows call pair.rows).1) :: answers (both pair call) rest

/-! ## Conditions -/

/-- The id by which a store follows a document to another: only `update_grant` does, to the grant's run. -/
def linkWellFormed : (c : Collection) → Model c → Bool
  | .grants,d => nameable 250 d.runId
  | _,_ => true

/-- The ids of a call are `^[A-Za-z0-9_-]{1,250}$`, which with `.json` a file can be named by. -/
def idsWellFormed : Op → Bool
  | .save c d => nameable 250 (docId c d) && linkWellFormed c d
  | .get _ id => nameable 250 id
  | .list _ => true
  | .listFor _ parent => nameable 250 parent
  | .createTaskRun task run workspaces =>
    nameable 250 task.id && nameable 250 run.id && workspaces.all (fun workspace => nameable 250 workspace.id)
  | .claimRun _ _ _ => true
  | .updateRun id _ => nameable 250 id
  | .updateGrant id _ => nameable 250 id
  | .consumeRegistrationCredential tokenHash _ => nameable 250 tokenHash
  | .saveAuditEvent event => nameable 250 event.id
  | .deleteTask taskId => nameable 250 taskId
  | .prune _ _ => true

def oldestDocumentOf (computerId : String) (s : LocalStore.Store) : Option TaskRun :=
  ((newestFirst .runs (s.docs.all .runs)).filter (LocalStore.claimable computerId)).argmin TaskRun.createdAt

/-- What is written loads, a bundle has no document twice, the oldest document is in the oldest row, operations keep
    ids, and no run takes the id of a deleted run for its task. -/
def meets (pair : Pair) : Op → Bool
  | .save c d => valid c d
  | .createTaskRun task run workspaces =>
    task.valid && run.valid && workspaces.all ExecutionWorkspace.valid && decide (workspaces.map ExecutionWorkspace.id).Nodup
  | .claimRun computerId leaseId _ =>
    decide (leaseId.length ≤ 128) && decide (oldestDocumentOf computerId pair.files =
      (SqlStore.oldestRow computerId pair.rows).map (fun entry => entry.2.payload))
  | .updateRun id operation =>
    (pair.files.docs.find .runs id).all (fun run =>
      match operation run with
      | .ok after => decide (after.id = run.id) && after.valid
      | .error _ => true)
  | .updateGrant id operation =>
    (pair.files.docs.find .grants id).all (fun grant => (pair.files.docs.find .runs grant.runId).all (fun run =>
      match operation grant run with
      | .ok after => decide (after.id = grant.id) && decide (after.runId = grant.runId) && after.valid
      | .error _ => true))
  | .saveAuditEvent event => event.valid
  | .deleteTask taskId =>
    (pair.files.docs.all .runs).all (fun run => decide (run.taskId ≠ taskId) ||
      (pair.files.docs.all .runs).all (fun other => decide (other.taskId = run.id → other.taskId = taskId)))
  | .get _ _ => true
  | .list _ => true
  | .listFor _ _ => true
  | .consumeRegistrationCredential _ _ => true
  | .prune _ _ => true

def Meets (pair : Pair) (call : Call) : Prop := idsWellFormed call.op = true ∧ meets pair call.op = true

instance (pair : Pair) (call : Call) : Decidable (Meets pair call) := inferInstanceAs (Decidable (_ ∧ _))

/-! ## The relation between the two states -/

structure Agree (pair : Pair) : Prop where
  sound : LocalStore.Sound pair.files
  payload : ∀ c id, (pair.rows.find c id).map SqlStore.Row.payload = pair.files.docs.find c id
  projected : ∀ c id row, pair.rows.find c id = some row → SqlStore.Projected row
  linked : ∀ c id d, pair.files.docs.find c id = some d → linkWellFormed c d = true

theorem agree_empty : Agree ⟨LocalStore.Store.empty,Table.empty⟩ := by
  refine ⟨LocalStore.sound_empty,fun _ _ => rfl,?_,?_⟩
  · intro c id row found
    simp at found
  · intro c id d found
    simp [LocalStore.Store.empty] at found

section
variable {pair : Pair} (agree : Agree pair)
variable {c : Collection} {id : String}

include agree

theorem Agree.row {d : Model c} (found : pair.files.docs.find c id = some d) : ∃ row, pair.rows.find c id = some row ∧
    row.payload = d := by
  rw [← agree.payload] at found
  exact Option.map_eq_some_iff.mp found

theorem Agree.missing (missing : pair.files.docs.find c id = none) : pair.rows.find c id = none := by
  rw [← agree.payload] at missing
  exact Option.map_eq_none_iff.mp missing

variable {row : SqlStore.Row c}

section
variable (found : pair.rows.find c id = some row)
include found

theorem Agree.document : pair.files.docs.find c id = some row.payload := by
  rw [← agree.payload,found]
  rfl

theorem Agree.loads : valid c row.payload = true :=
  agree.sound.valid c id _ (agree.document found)

theorem Agree.parent : row.parentId = parentId c row.payload :=
  SqlStore.parentId_projected (agree.projected c id row found) (agree.loads found)

end

theorem Agree.put {d : Model c} (ok : valid c d = true) (link : linkWellFormed c d = true)
    (own : row.payload = d) (projected : SqlStore.Projected row) :
    Agree ⟨⟨pair.files.docs.put c (docId c d) d,LocalStore.indexDocument c d pair.files.index⟩,
    pair.rows.put c (docId c d) row⟩ := by
  refine ⟨LocalStore.sound_put agree.sound ok,?_,?_,?_⟩
  all_goals grind [find_put,cases Agree]

theorem Agree.filtered {files : LocalStore.Store} {rows : SqlStore.Store} {test : (c : Collection) → Model c → Bool}
    (sound : LocalStore.Sound files) (left : Filtered test pair.files.docs files.docs)
    (right : Filtered (fun c row => test c row.payload) pair.rows rows) : Agree ⟨files,rows⟩ := by
  refine ⟨sound,?_,?_,?_⟩
  · intro c id
    show (rows.find c id).map SqlStore.Row.payload = files.docs.find c id
    rw [left c id,right c id,← agree.payload]
    rcases pair.rows.find c id with _ | row
    all_goals grind
  all_goals grind only [agree.projected,right.found,agree.linked,left.found]

end

/-! ## Calls that are answered alike -/

structure Answered (files : Except Err Answer × LocalStore.Store) (rows : Except Err Answer × SqlStore.Store) : Prop where
  result : SameResult files.1 rows.1
  agree : Agree ⟨files.2,rows.2⟩

theorem answering_ok {σ α : Type} {p : Prog σ Err α} {wrap : α → Answer} {s t : σ} {a : α} (ran : p s = (.ok a,t)) :
    answering p wrap s = (.ok (wrap a),t) := andThen_ok ran

theorem answering_error {σ α : Type} {p : Prog σ Err α} {wrap : α → Answer} {s t : σ} {e : Err} (ran : p s = (.error e,t)) :
    answering p wrap s = (.error e,t) := andThen_error ran

variable {operation : TaskRun → Except Err TaskRun}

theorem pureRun_ok {σ : Type} {run after : TaskRun} (ok : operation run = .ok after)
    (s : σ) : pureRun operation run s = (.ok (after,()),s) := by simp [pureRun,andThen,ok]

theorem pureRun_error {σ : Type} {run : TaskRun} {e : Err}
    (raised : operation run = .error e) (s : σ) : pureRun operation run s = (.error e,s) := by
  simp [pureRun,andThen,raised]

section
variable {α β : Type} {p : Prog LocalStore.Store Err α} {q : Prog SqlStore.Store Err β} {wrap : α → Answer}
  {wrap' : β → Answer} {s s' : LocalStore.Store} {t t' : SqlStore.Store}

theorem answered_ok {a : α} {b : β} (left : p s = (.ok a,s')) (right : q t = (.ok b,t')) (same : SameAnswer (wrap a) (wrap' b))
    (agree : Agree ⟨s',t'⟩) : Answered (answering p wrap s) (answering q wrap' t) := by
  rw [answering_ok left,answering_ok right]
  exact ⟨.returned same,agree⟩

theorem answered_error {e e' : Err} (left : p s = (.error e,s')) (right : q t = (.error e',t')) (same : kind e = kind e')
    (agree : Agree ⟨s',t'⟩) : Answered (answering p wrap s) (answering q wrap' t) := by
  rw [answering_error left,answering_error right]
  exact ⟨.raised same,agree⟩

end

section
variable {pair : Pair} (agree : Agree pair) (now : Time)
variable {c : Collection} {id taskId : String}

include agree

theorem save_answered {d : Model c} (ids : linkWellFormed c d = true) (ok : valid c d = true) : Answered
    (answering (LocalStore.save now c d) (.document c) pair.files)
    (answering (SqlStore.save now c d) (.document c) pair.rows) := by
  obtain ⟨row,own,projected,right⟩ := SqlStore.save_saves now d pair.rows
  have link : linkWellFormed c (touch now c d) = true := by
    cases c <;> exact ids
  exact answered_ok (LocalStore.save_saves ok now) right (.same _)
    (agree.put ((valid_touch now c d).trans ok) link own projected)

theorem get_answered (good : nameable 250 id = true) : Answered
    (answering (LocalStore.get c id) (.document c) pair.files) (answering (SqlStore.get c id) (.document c) pair.rows) := by
  rcases found : pair.files.docs.find c id with _ | d
  · exact answered_error (LocalStore.get_missing good found) (SqlStore.get_missing (agree.missing found)) rfl agree
  · obtain ⟨row,stored,rfl⟩ := agree.row found
    exact answered_ok (LocalStore.get_found agree.sound found) (SqlStore.get_found stored (agree.loads stored)) (.same _) agree

theorem list_answered (c : Collection) :
    Answered (answering (LocalStore.list c) (.documents c) pair.files)
      (answering (SqlStore.list c) (.documents c) pair.rows) := by
  refine answered_ok (LocalStore.list_lists agree.sound c)
    (SqlStore.select_selects (fun id row found => agree.loads found) _) (.lists (fun d => ?_)) agree
  rw [SqlStore.mem_selected,mem_newestFirst,mem_all]
  constructor
  · rintro ⟨id,found⟩
    obtain ⟨row,stored,own⟩ := agree.row found
    exact ⟨id,row,stored,own,rfl⟩
  · rintro ⟨id,row,stored,rfl,_⟩; exact ⟨id,agree.document stored⟩

theorem listFor_answered (c : Collection) (parent : String) :
    Answered (answering (LocalStore.listFor c parent) (.documents c) pair.files)
      (answering (SqlStore.listFor c parent) (.documents c) pair.rows) := by
  obtain ⟨items,left,picked⟩ := LocalStore.listFor_lists agree.sound c parent
  refine answered_ok left (SqlStore.select_selects (fun id row found => agree.loads found) _) (.lists (fun d => ?_)) agree
  rw [SqlStore.mem_selected,picked,mem_all]
  constructor
  · rintro ⟨⟨id,found⟩,child⟩
    obtain ⟨row,stored,rfl⟩ := agree.row found
    exact ⟨id,row,stored,rfl,decide_eq_true ((agree.parent stored).trans child)⟩
  · rintro ⟨id,row,stored,rfl,child⟩
    exact ⟨⟨id,agree.document stored⟩,(agree.parent stored).symm.trans (of_decide_eq_true child)⟩

theorem Agree.putAll {entries : List Entry} (ok : ∀ entry ∈ entries, valid entry.1 entry.2 = true)
    (link : ∀ entry ∈ entries, linkWellFormed entry.1 entry.2 = true) :
    Agree ⟨⟨ControlStore.putAll pair.files.docs entries,
        entries.foldl (fun index entry => LocalStore.indexDocument entry.1 entry.2 index) pair.files.index⟩,
      SqlStore.addRows now entries pair.rows⟩ := by
  induction entries generalizing pair with
  | nil => exact agree
  | cons entry rest ih =>
    have first := agree.put (ok entry (by simp)) (link entry (by simp)) (SqlStore.payload_applyProjection ..)
      (SqlStore.projected_record now entry.1 entry.2)
    exact ih first (fun other member => ok other (by simp [member])) (fun other member => link other (by simp [member]))

theorem createTaskRun_answered {task : CodeTask} {run : TaskRun} {workspaces : List ExecutionWorkspace}
    (task_ok : task.valid = true) (run_ok : run.valid = true) (all_ok : ∀ workspace ∈ workspaces, workspace.valid = true)
    (distinct : (workspaces.map ExecutionWorkspace.id).Nodup) (wrap : CodeTask × TaskRun × List ExecutionWorkspace → Answer) :
    Answered (answering (LocalStore.createTaskRun task run workspaces) wrap pair.files)
      (answering (SqlStore.createTaskRun now task run workspaces) wrap pair.rows) := by
  have same : ∀ entry : Entry, (pair.rows.find entry.1 (docId entry.1 entry.2)).isSome =
      (pair.files.docs.find entry.1 (docId entry.1 entry.2)).isSome := by
    intro entry
    rw [← agree.payload,Option.isSome_map]
  have places : (places (bundle task run workspaces)).Nodup := by
    have inner : (workspaces.map (fun workspace => ((Collection.workspaces,workspace.id) : Collection × String))).Nodup := by
      rw [show (fun workspace : ExecutionWorkspace => ((Collection.workspaces,workspace.id) : Collection × String)) =
        Prod.mk Collection.workspaces ∘ ExecutionWorkspace.id from rfl,← map_map]
      exact distinct.map (fun _ _ equal => (Prod.mk.inj equal).2)
    simpa [ControlStore.places,bundle,docId,Function.comp_def] using inner
  have looked : (bundle task run workspaces).find? (fun entry => (pair.rows.find entry.1 (docId entry.1 entry.2)).isSome) =
      taken pair.files.docs (bundle task run workspaces) := by simp only [same,taken]
  have all : ∀ entry ∈ bundle task run workspaces, valid entry.1 entry.2 = true := by
    simpa [bundle,valid,task_ok,run_ok] using all_ok
  have staged := LocalStore.stage_names (s := pair.files) (fun entry member => all entry ((takeWhile_sublist (fun entry =>
    (pair.files.docs.find entry.1 (docId entry.1 entry.2)).isNone)).subset member))
  rcases clash : taken pair.files.docs (bundle task run workspaces) with _ | entry
  · have left : LocalStore.createTaskRun task run workspaces pair.files = (.ok (task,run,workspaces),
        ⟨ControlStore.putAll pair.files.docs (bundle task run workspaces),(bundle task run workspaces).foldl
          (fun index entry => LocalStore.indexDocument entry.1 entry.2 index) pair.files.index⟩) := by
      refine (andThen_ok staged).trans ?_
      simp [andThen,LocalStore.onDocs,ControlStore.createTaskRun,clash,places]
    have right : SqlStore.createTaskRun now task run workspaces pair.rows =
        (.ok (task,run,workspaces),SqlStore.addRows now (bundle task run workspaces) pair.rows) := by
      simp only [SqlStore.createTaskRun,looked,clash,if_pos places]
    exact answered_ok left right (.same _) (agree.putAll now all (by simp [bundle,linkWellFormed]))
  · refine answered_error (e := (.stateConflict (singular entry.1 ++ " already exists"))) ?_ ?_ rfl agree
    · refine (andThen_ok staged).trans ?_
      simp [andThen,LocalStore.onDocs,ControlStore.createTaskRun,clash]
    · simp only [SqlStore.createTaskRun,looked,clash]

theorem Agree.rewriteRun {row : SqlStore.Row .runs} (found : pair.rows.find .runs id = some row) {after : TaskRun}
    (same : after.id = row.payload.id) (ok : after.valid = true) :
    Agree ⟨⟨pair.files.docs.put .runs (docId .runs (touch now .runs after)) (touch now .runs after),
    LocalStore.indexDocument .runs (touch now .runs after) pair.files.index⟩,
    pair.rows.put .runs id (SqlStore.applyProjection .runs (touch now .runs after)
    (SqlStore.rewritten now (touch now .runs after) row))⟩ := by
  have own : docId .runs (touch now .runs after) = id :=
    same.trans (agree.sound.filed .runs id row.payload (agree.document found))
  have put := agree.put (d := touch now .runs after) ok rfl (SqlStore.payload_applyProjection ..)
    (SqlStore.projected_saved now (touch now .runs after) row)
  rw [own] at put ⊢
  exact put

theorem updateRun_answered (good : nameable 250 id = true)
    (kept : ∀ run after, pair.files.docs.find .runs id = some run → operation run = .ok after → after.id = run.id ∧
    after.valid = true) (wrap : TaskRun × Unit → Answer) : Answered
    (answering (LocalStore.updateRunWith now id (pureRun operation)) wrap pair.files)
    (answering (SqlStore.updateRunWith now id (pureRun operation)) wrap pair.rows) := by
  rcases found : pair.files.docs.find .runs id with _ | run
  · exact answered_error (andThen_error (LocalStore.get_missing good found))
      (SqlStore.updateRunWith_missing now (agree.missing found)) rfl agree
  · obtain ⟨row,stored,rfl⟩ := agree.row found
    have loads := agree.loads stored
    have loaded := LocalStore.get_found agree.sound found
    rcases changing : operation row.payload with e | after
    · exact answered_error (LocalStore.updateRunWith_error now loaded (pureRun_error changing _))
        (SqlStore.updateRunWith_error now stored loads (pureRun_error changing _)) rfl agree
    · have left := pureRun_ok changing pair.files
      have right := pureRun_ok changing pair.rows
      obtain ⟨same,ok⟩ := kept row.payload after found changing
      by_cases unchanged : after = row.payload
      · subst unchanged
        exact answered_ok (LocalStore.updateRunWith_same now loaded left)
          (SqlStore.updateRunWith_same now stored loads right) (.same _) agree
      · exact answered_ok (LocalStore.updateRunWith_saves now loaded left unchanged ok)
          (SqlStore.updateRunWith_saves now stored loads right unchanged) (.same _) (agree.rewriteRun now stored same ok)

theorem updateGrant_answered {operation : ConnectorGrant → TaskRun → Except Err ConnectorGrant}
    (good : nameable 250 id = true) (kept : ∀ grant run after, pair.files.docs.find .grants id = some grant →
    pair.files.docs.find .runs grant.runId = some run → operation grant run = .ok after → after.id = grant.id ∧
    after.runId = grant.runId ∧ after.valid = true) : Answered
    (answering (LocalStore.updateGrant id operation) (.document .grants) pair.files)
    (answering (SqlStore.updateGrant now id operation) (.document .grants) pair.rows) := by
  rcases found : pair.files.docs.find .grants id with _ | grant
  · exact answered_error (andThen_error (LocalStore.get_missing good found))
      (andThen_error (SqlStore.lockedRow_missing (agree.missing found))) rfl agree
  · obtain ⟨row,stored,rfl⟩ := agree.row found
    have loads := agree.loads stored
    have link : nameable 250 row.payload.runId = true := agree.linked .grants id _ found
    have left := LocalStore.get_found agree.sound found
    have right := SqlStore.lockedRow_found stored
    have loaded := SqlStore.load_run loads pair.rows
    rcases run_found : pair.files.docs.find .runs row.payload.runId with _ | run
    · exact answered_error ((andThen_ok left).trans (andThen_error (LocalStore.get_missing link run_found)))
        ((andThen_ok right).trans ((andThen_ok loaded).trans
          (andThen_error (SqlStore.lockedRow_missing (agree.missing run_found))))) rfl agree
    · obtain ⟨runRow,run_stored,rfl⟩ := agree.row run_found
      have runLeft := LocalStore.get_found agree.sound run_found
      have runRight := SqlStore.lockedRow_found run_stored
      have runLoaded := SqlStore.load_run (agree.loads run_stored) pair.rows
      rcases changing : operation row.payload runRow.payload with e | after
      · exact answered_error
          ((andThen_ok left).trans ((andThen_ok runLeft).trans (andThen_error (attempt_error changing _))))
          ((andThen_ok right).trans ((andThen_ok loaded).trans ((andThen_ok runRight).trans ((andThen_ok runLoaded).trans
            (andThen_error (attempt_error changing _)))))) rfl agree
      · obtain ⟨same,sameRun,ok⟩ := kept _ _ after found run_found changing
        have own : docId .grants after = id := same.trans (agree.sound.filed .grants id _ found)
        have linked : nameable 250 after.runId = true := by
          rw [sameRun]; exact link
        have put := agree.put (c := .grants) ok linked rfl
          (SqlStore.projected_grant (agree.projected .grants id row stored) now sameRun)
        have saved := LocalStore.save_saves (s := pair.files) (c := .grants) ok 0
        refine answered_ok
          ((andThen_ok left).trans ((andThen_ok runLeft).trans ((andThen_ok (attempt_ok changing _)).trans saved)))
          ((andThen_ok right).trans ((andThen_ok loaded).trans ((andThen_ok runRight).trans ((andThen_ok runLoaded).trans
            ((andThen_ok (attempt_ok changing _)).trans (andThen_ok (write_run _ _))))))) (.same _) ?_
        exact own ▸ put

theorem claimRun_answered {computerId leaseId : String} {expires : Time} (short : leaseId.length ≤ 128)
    (oldest : oldestDocumentOf computerId pair.files =
      (SqlStore.oldestRow computerId pair.rows).map (fun entry => entry.2.payload)) :
    Answered (answering (LocalStore.claimRun now computerId leaseId expires) .claimed pair.files)
      (answering (SqlStore.claimRun now computerId leaseId expires) .claimed pair.rows) := by
  have listed := LocalStore.list_lists agree.sound .runs
  have looked : (look (SqlStore.oldestRow computerId) : Prog SqlStore.Store Err _) pair.rows =
    (.ok (SqlStore.oldestRow computerId pair.rows),pair.rows) := rfl
  rcases first : SqlStore.oldestRow computerId pair.rows with _ | ⟨id,row⟩
  · rw [first] at oldest
    refine answered_ok (a := none) ?_ ?_ (.same _) agree
    · have none : ((newestFirst .runs (pair.files.docs.all .runs)).filter (LocalStore.claimable computerId)).argmin
          TaskRun.createdAt = none := oldest
      simp only [LocalStore.claimRun,bind_run,andThen_ok listed,none,ret_run]
    · simp only [SqlStore.claimRun,bind_run,andThen_ok looked,first,ret_run]
  · rw [first] at oldest
    have picked : ((newestFirst .runs (pair.files.docs.all .runs)).filter (LocalStore.claimable computerId)).argmin
        TaskRun.createdAt = some row.payload := oldest
    have stored : pair.rows.find .runs id = some row := by
      have member : (⟨id,row⟩ : (_ : String) × SqlStore.Row .runs) ∈ (pair.rows .runs).entries :=
        mem_of_mem_filter (argmin_mem first)
      exact AList.mem_lookup_iff.mpr member
    have loads := agree.loads stored
    have loaded := SqlStore.load_run loads pair.rows
    rcases moving : transitionRun now .preparing none (leased leaseId expires row.payload) with e | after
    · refine answered_error (e := e) ?_ ?_ rfl agree
      · simp only [LocalStore.claimRun,bind_run,andThen_ok listed,picked,andThen_error (attempt_error moving pair.files)]
      · simp only [SqlStore.claimRun,bind_run,andThen_ok looked,first,andThen_ok loaded,
          andThen_error (attempt_error moving pair.rows)]
    · have ok : after.valid = true := transitionRun_valid moving (leased_valid loads short expires) rfl
      have same : after.id = row.payload.id := (transitionRun_same moving).id
      have saved := LocalStore.save_saves (s := pair.files) (c := .runs) ok now
      have left : LocalStore.claimRun now computerId leaseId expires pair.files = (.ok (some (touch now .runs after)),
          ⟨pair.files.docs.put .runs (docId .runs (touch now .runs after)) (touch now .runs after),
            LocalStore.indexDocument .runs (touch now .runs after) pair.files.index⟩) := by
        simp only [LocalStore.claimRun,bind_run,andThen_ok listed,picked,andThen_ok (attempt_ok moving pair.files),
          andThen_ok saved,ret_run]
      have right : SqlStore.claimRun now computerId leaseId expires pair.rows = (.ok (some (touch now .runs after)),
          pair.rows.put .runs id (SqlStore.applyProjection .runs (touch now .runs after)
            (SqlStore.rewritten now (touch now .runs after) row))) := by
        simp only [SqlStore.claimRun,bind_run,andThen_ok looked,first,andThen_ok loaded,
          andThen_ok (attempt_ok moving pair.rows)]
        rfl
      exact answered_ok left right (.same _) (agree.rewriteRun now stored same ok)

theorem consume_answered {tokenHash : String} (good : nameable 250 tokenHash = true) (moment : Time) :
    Answered (answering (LocalStore.consumeRegistrationCredential tokenHash moment) .consumed pair.files)
      (answering (SqlStore.consumeRegistrationCredential tokenHash moment) .consumed pair.rows) := by
  rcases found : pair.files.docs.find .registrationCredentials tokenHash with _ | credential
  · refine answered_ok (a := false) ?_ ?_ (.same _) agree
    · simp [LocalStore.consumeRegistrationCredential,andThen,orMissing,LocalStore.get_missing good found]
    · simp [SqlStore.consumeRegistrationCredential,agree.missing found]
  · obtain ⟨row,stored,rfl⟩ := agree.row found
    have loads := agree.loads stored
    have looked : orMissing (do
        let credential ← LocalStore.get .registrationCredentials tokenHash
        ret (some credential)) (ret none) pair.files = (.ok (some row.payload),pair.files) := by
      simp [orMissing,andThen,LocalStore.get_found agree.sound found]
    by_cases refused : row.payload.consumedAt ≠ none ∨ row.payload.expiresAt ≤ moment
    · refine answered_ok (a := false) ?_ ?_ (.same _) agree
      · simp only [LocalStore.consumeRegistrationCredential,bind_run,andThen_ok looked,if_pos refused,ret_run]
      · simp only [SqlStore.consumeRegistrationCredential,stored,SqlStore.load_ok loads,if_pos refused]
    · have ok : valid .registrationCredentials (spent moment row.payload) = true := loads
      have own : docId .registrationCredentials (spent moment row.payload) = tokenHash :=
        show row.payload.id = tokenHash from agree.sound.filed .registrationCredentials tokenHash row.payload found
      have saved := LocalStore.save_saves (s := pair.files) ok 0
      have left : LocalStore.consumeRegistrationCredential tokenHash moment pair.files = (.ok true,
          ⟨pair.files.docs.put .registrationCredentials tokenHash (spent moment row.payload),
            LocalStore.indexDocument .registrationCredentials (spent moment row.payload) pair.files.index⟩) := by
        simp only [LocalStore.consumeRegistrationCredential,bind_run,andThen_ok looked,if_neg refused,andThen_ok saved]
        rw [← own]; rfl
      have right : SqlStore.consumeRegistrationCredential tokenHash moment pair.rows = (.ok true,
          pair.rows.put .registrationCredentials tokenHash (SqlStore.rewritten moment (spent moment row.payload) row)) := by
        simp only [SqlStore.consumeRegistrationCredential,stored,SqlStore.load_ok loads,if_neg refused]
      have put := agree.put ok rfl rfl (SqlStore.projected_credential (agree.projected _ _ row stored) moment _)
      rw [own] at put
      exact answered_ok left right (.same _) put

theorem saveAuditEvent_answered {event : SecurityAuditEvent} (ok : event.valid = true) :
    Answered (answering (LocalStore.saveAuditEvent event) (.document .audit) pair.files)
      (answering (SqlStore.saveAuditEvent now event) (.document .audit) pair.rows) := by
  have good : nameable 250 event.id = true :=
    LocalStore.nameable_mono (by decide) (LocalStore.nameable_of_valid (c := .audit) ok)
  rcases found : pair.files.docs.find .audit event.id with _ | stored
  · have saved := LocalStore.save_saves (s := pair.files) (c := .audit) ok 0
    have left : LocalStore.saveAuditEvent event pair.files = LocalStore.save 0 .audit event pair.files := by
      simp only [LocalStore.saveAuditEvent,LocalStore.get_missing good found]
    have right : SqlStore.saveAuditEvent now event pair.rows =
        (.ok event,pair.rows.put .audit event.id (SqlStore.record now .audit event)) := by
      simp [SqlStore.saveAuditEvent,agree.missing found]
    exact answered_ok (left.trans saved) right (.same _)
      (agree.put (c := .audit) ok rfl (SqlStore.payload_applyProjection ..) (SqlStore.projected_record now .audit event))
  · obtain ⟨row,row_found,rfl⟩ := agree.row found
    refine answered_error (e := (.valueError "security audit events are append-only")) ?_ ?_ rfl agree
    · simp only [LocalStore.saveAuditEvent,LocalStore.get_found agree.sound found]
    · simp [SqlStore.saveAuditEvent,row_found]

theorem Agree.runIds {runs : List TaskRun} (picked : ∀ run, run ∈ runs ↔ run ∈ pair.files.docs.all .runs ∧
    parentId .runs run = some taskId) (id : String) : id ∈ SqlStore.runIds taskId pair.rows ↔ id ∈ runs.map TaskRun.id := by
  rw [SqlStore.mem_runIds,mem_map]
  constructor
  · rintro ⟨row,stored,child⟩
    have found := agree.document stored
    refine ⟨row.payload,(picked _).mpr ⟨mem_all.mpr ⟨id,found⟩,(agree.parent stored).symm.trans child⟩,?_⟩
    exact agree.sound.filed .runs id _ found
  · rintro ⟨run,member,rfl⟩
    obtain ⟨listed,child⟩ := (picked run).mp member
    obtain ⟨row,stored,rfl⟩ := agree.row (agree.sound.stored listed).1
    exact ⟨row,stored,(agree.parent stored).trans child⟩

theorem Agree.spared {runs : List TaskRun} {row : SqlStore.Row c}
    (picked : ∀ run, run ∈ runs ↔ run ∈ pair.files.docs.all .runs ∧ parentId .runs run = some taskId)
    (apart : ∀ run other, run ∈ pair.files.docs.all .runs → other ∈ pair.files.docs.all .runs → run.taskId = taskId →
    other.taskId = run.id → other.taskId = taskId) (stored : pair.rows.find c id = some row) :
    SqlStore.Spared (SqlStore.runIds taskId pair.rows) taskId c id row ↔
      LocalStore.survives (runs.map TaskRun.id) taskId c row.payload = true := by
  have found := agree.document stored
  have own : docId c row.payload = id := agree.sound.filed c id _ found
  have ids := agree.runIds picked
  unfold LocalStore.survives
  rw [decide_eq_true_eq,own]
  constructor
  · grind only [agree.parent,cases SqlStore.Spared]
  · rintro ⟨unowned,run,task⟩
    refine ⟨fun parent member child => ?_,fun isRun member => run isRun ((ids id).mp member),task⟩
    rw [agree.parent stored] at child
    have listed := (ids parent).mp member
    cases c with
    | workspaces | grants | commands | runCredentials | audit => exact unowned (by decide) parent listed child
    | runs => grind only [mem_map,mem_all,truthyText_some,parentId,docId]
    | computers | tasks | runtimeCredentials | registrationCredentials => cases child

theorem deleteTask_answered (good : nameable 250 taskId = true)
    (apart : ∀ run other, run ∈ pair.files.docs.all .runs → other ∈ pair.files.docs.all .runs → run.taskId = taskId →
    other.taskId = run.id → other.taskId = taskId) (wrap : Unit → Answer) : Answered
    (answering (LocalStore.deleteTask taskId) wrap pair.files) (answering (SqlStore.deleteTask taskId) wrap pair.rows) := by
  obtain ⟨runs,files,picked,left,sound,filtered⟩ := LocalStore.deleteTask_deletes agree.sound good
  obtain ⟨rows,right,found⟩ := SqlStore.deleteTask_deletes taskId pair.rows
  refine answered_ok left right (.same _) (agree.filtered sound filtered (fun c id => Option.ext (fun row => ?_)))
  rw [found,Option.filter_eq_some_iff]
  exact and_congr_right (fun stored => agree.spared picked apart stored)

theorem prune_answered (aux audit : Time) :
    Answered (answering (LocalStore.prune aux audit) .pruned pair.files)
      (answering (SqlStore.prune aux audit) .pruned pair.rows) := by
  obtain ⟨files,left,sound,filtered⟩ := LocalStore.prune_prunes aux audit agree.sound
  have counts : ∀ c, ((pair.rows.all c).filter (fun row => prunable aux audit c row.payload)).length =
      LocalStore.prunableCount aux audit pair.files.docs c := by
    intro c
    have same := ((all_perm SqlStore.Row.payload (agree.payload c)).filter
      (prunable aux audit c)).length_eq
    rw [filter_map,length_map] at same
    exact same
  have loads : auxiliary.find? (fun c => (pair.rows.all c).any (fun row => !valid c row.payload)) = none := by
    grind only [find?_eq_none,any_eq_true,mem_all,agree.loads]
  have right : SqlStore.prune aux audit pair.rows =
      (.ok (auxiliary.map (LocalStore.prunableCount aux audit pair.files.docs)).sum,
        pair.rows.keep (fun c row => !prunable aux audit c row.payload)) := by simp only [SqlStore.prune,loads,counts]
  exact answered_ok left right (.same _) (agree.filtered sound filtered (find_keep pair.rows _))

theorem call_answered {op : Op} (meets : Meets pair ⟨now,op⟩) :
    Answered (onFiles ⟨now,op⟩ pair.files) (onRows ⟨now,op⟩ pair.rows) := by
  obtain ⟨ids,good⟩ := meets
  cases op with
  | save c d => exact save_answered agree now (Bool.and_eq_true_iff.mp ids).2 good
  | get c id => exact get_answered agree ids
  | list c => exact list_answered agree c
  | listFor c parent => exact listFor_answered agree c parent
  | createTaskRun task run workspaces =>
    simp only [StoreAgreement.meets,Bool.and_eq_true,all_eq_true,decide_eq_true_eq] at good
    obtain ⟨⟨⟨task_ok,run_ok⟩,all_ok⟩,distinct⟩ := good
    exact createTaskRun_answered agree now task_ok run_ok all_ok distinct _
  | claimRun computerId leaseId expires =>
    simp only [StoreAgreement.meets,Bool.and_eq_true,decide_eq_true_eq] at good
    exact claimRun_answered agree now good.1 good.2
  | updateRun id operation =>
    refine updateRun_answered agree now ids (fun run after found changed => ?_) _
    simp only [StoreAgreement.meets,found,Option.all_some,changed,Bool.and_eq_true,decide_eq_true_eq] at good
    exact good
  | updateGrant id operation =>
    refine updateGrant_answered agree now ids (fun grant run after found run_found changed => ?_)
    grind only [StoreAgreement.meets,Option.all_some]
  | consumeRegistrationCredential tokenHash moment => exact consume_answered agree ids moment
  | saveAuditEvent event => exact saveAuditEvent_answered agree now good
  | deleteTask taskId =>
    refine deleteTask_answered agree ids (fun run other run_in other_in here child => ?_) _
    grind only [StoreAgreement.meets,all_eq_true]
  | prune aux audit => exact prune_answered agree aux audit

end

theorem calls_answered {pair : Pair} (agree : Agree pair) {calls : List Call} (meets : Permitted both Meets pair calls) :
    (∀ answer ∈ answers pair calls, SameResult answer.1 answer.2) ∧ Agree (reach both pair calls) := by
  induction calls generalizing pair with
  | nil => exact ⟨by simp [answers],agree⟩
  | cons call rest ih =>
    have first := call_answered agree call.now meets.1
    obtain ⟨alike,after⟩ := ih first.agree meets.2
    exact ⟨forall_mem_cons.mpr ⟨first.result,alike⟩,after⟩

def Pair.empty : Pair := ⟨LocalStore.Store.empty,Table.empty⟩

/-- From empty, in every run of calls that each meet the condition, every call is
    answered alike, and afterwards every get and every list of a parent is. -/
theorem stores_agree {calls : List Call} (meets : Permitted both Meets Pair.empty calls) :
    (∀ answer ∈ answers Pair.empty calls, SameResult answer.1 answer.2) ∧
      (∀ now c id, nameable 250 id = true → SameResult (onFiles ⟨now,.get c id⟩ (reach both Pair.empty calls).files).1
        (onRows ⟨now,.get c id⟩ (reach both Pair.empty calls).rows).1) ∧
      ∀ now c parent, SameResult (onFiles ⟨now,.listFor c parent⟩ (reach both Pair.empty calls).files).1
        (onRows ⟨now,.listFor c parent⟩ (reach both Pair.empty calls).rows).1 := by
  obtain ⟨alike,agree⟩ := calls_answered agree_empty meets
  exact ⟨alike,fun now c id good => (get_answered agree good).result,
    fun now c parent => (listFor_answered agree c parent).result⟩

/-! ## A run of the condition, and one outside it -/

def queuedRun (id : String) (createdAt : Time) : TaskRun :=
  { id := id,taskId := "task",computerId := "computer",createdAt := createdAt,updatedAt := createdAt }

/-- Two runs are saved in the order of their creation, one is claimed, and the task goes with both. -/
def orderly : List Call :=
  [⟨10,.save .runs (queuedRun "first" 3)⟩,⟨11,.save .runs (queuedRun "second" 5)⟩,
    ⟨12,.claimRun "computer" "lease" 40⟩,⟨13,.listFor .runs "task"⟩,⟨14,.deleteTask "task"⟩]

theorem stores_agree_orderly : Permitted both Meets Pair.empty orderly ∧
    ∀ answer ∈ answers Pair.empty orderly, SameResult answer.1 answer.2 := by
  have meets : Permitted both Meets Pair.empty orderly := by decide
  exact ⟨meets,(stores_agree meets).1⟩

def crossed : List Call :=
  [⟨10,.save .runs (queuedRun "first" 5)⟩,⟨11,.save .runs (queuedRun "second" 3)⟩,⟨12,.claimRun "computer" "lease" 40⟩]

def takenBy : Except Err Answer → Option String
  | .ok (.claimed run) => run.map TaskRun.id
  | _ => none

theorem takenBy_same {left right : Except Err Answer} (same : SameResult left right) : takenBy left = takenBy right := by
  cases same with
  | returned alike =>
    cases alike with
    | same answer | lists members => rfl
  | raised alike => rfl

/-- The files give out the run whose document is oldest, the rows the run that was saved first. -/
theorem stores_claim_differently : (∀ call ∈ crossed, idsWellFormed call.op = true) ∧
    ∃ answer ∈ answers Pair.empty crossed, takenBy answer.1 = some "second" ∧ takenBy answer.2 = some "first" ∧
      ¬SameResult answer.1 answer.2 := by
  have taken : ∃ answer ∈ answers Pair.empty crossed, takenBy answer.1 = some "second" ∧ takenBy answer.2 = some "first" := by
    decide
  obtain ⟨answer,member,left,right⟩ := taken
  refine ⟨by decide,answer,member,left,right,fun same => ?_⟩
  have equal := takenBy_same same
  rw [left,right] at equal
  exact absurd equal (by decide)

end Cowork.StoreAgreement
