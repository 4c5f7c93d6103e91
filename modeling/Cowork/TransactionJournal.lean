import Cowork.ControlStore

/-!
The files behind `LocalControlPlaneStore.create_task_run` (`_save_many` and
`_recover_transaction` of `control_store.py`). A bundle of documents is staged, named in
a journal and renamed into place; a restart that finds a journal takes the bundle back.
The programs keep every state the disk went through: a crash leaves one of them behind.
-/
namespace Cowork.TransactionJournal
open Json ControlModels Effects ControlStore

/-- `self.root`, or the directory of a collection. -/
inductive Dir where
  | root | collection (c : Collection)
  deriving DecidableEq

structure Path where
  dir : Dir
  name : String
  deriving DecidableEq

inductive Content where
  | empty
  | document (entry : Entry)
  | json (value : Value)

abbrev Fs := Path → Option Content

structure Work where
  fs : Fs
  seen : List Fs
  staged : List Entry

abbrev Files := Prog Work Err

def change (f : Fs → Fs) : Files Unit := write (fun w => { w with fs := f w.fs,seen := w.seen ++ [f w.fs] })

theorem change_run (f : Fs → Fs) (w : Work) :
    change f w = (.ok (),{ w with fs := f w.fs,seen := w.seen ++ [f w.fs] }) := rfl

theorem triple_change {P Q : Work → Prop} {E : Work → Prop} (f : Fs → Fs)
    (kept : ∀ w, P w → Q { w with fs := f w.fs,seen := w.seen ++ [f w.fs] }) :
    Triple P (change f) (fun _ => Q) E := by
  intro w start
  exact returned_with (change_run f w) (kept w start)

/-- `path.write_text(text)`: the file is made, then filled. -/
def writeText (path : Path) (content : Content) : Files Unit := do
  change (fun fs => Function.update fs path (some .empty))
  change (fun fs => Function.update fs path (some content))

/-- `os.replace(source, target)`. -/
def replace (source target : Path) : Files Unit := fun w =>
  match w.fs source with
  | none => (.error (.osError "No such file or directory"),w)
  | some content => change (fun fs => Function.update (Function.update fs source none) target (some content)) w

/-- `path.unlink(missing_ok=True)`. -/
def unlink (path : Path) : Files Unit := change (fun fs => Function.update fs path none)

/-- `path.unlink()`. -/
def remove (path : Path) : Files Unit := fun w =>
  match w.fs path with
  | none => (.error (.osError "No such file or directory"),w)
  | some _ => unlink path w

/-- `path.exists()`. -/
def present (path : Path) : Files Bool := look (fun w => (w.fs path).isSome)

def directory : Collection → String
  | .computers => "computers"
  | .tasks => "tasks"
  | .runs => "runs"
  | .workspaces => "workspaces"
  | .grants => "grants"
  | .commands => "commands"
  | .runtimeCredentials => "runtime_credentials"
  | .registrationCredentials => "registration_credentials"
  | .runCredentials => "run_credentials"
  | .audit => "audit"

/-- The keys of `_MODELS`. -/
def collections : List Collection :=
  [.computers,.tasks,.runs,.workspaces,.grants,.commands,.runtimeCredentials,.registrationCredentials,.runCredentials,
    .audit]

def collectionOf (name : String) : Option Collection := collections.find? (fun c => directory c = name)

def journal : Path := ⟨.root,".transaction.json"⟩
def journalTemp : Path := ⟨.root,".transaction.tmp"⟩
/-- `{document_id}.json`. -/
def target (c : Collection) (id : String) : Path := ⟨.collection c,id ++ ".json"⟩
/-- `.{document.id}.{transaction_id}.tmp`. -/
def stageName (transaction id : String) : String := "." ++ id ++ "." ++ transaction ++ ".tmp"
def stage (transaction : String) (c : Collection) (id : String) : Path := ⟨.collection c,stageName transaction id⟩

def Entry.id (entry : Entry) : String := docId entry.1 entry.2
def Entry.target (entry : Entry) : Path := TransactionJournal.target entry.1 (Entry.id entry)
def Entry.stage (transaction : String) (entry : Entry) : Path := TransactionJournal.stage transaction entry.1 (Entry.id entry)

/-- `_path`: the file of a document, if its id can be a file name. -/
def pathOf (c : Collection) (id : String) : Except Err Path :=
  if wellFormedId id then .ok (target c id) else .error (.valueError "invalid control-plane document id")

/-- A file that `glob("*.json")` matches in the directory of a collection. -/
def visible (path : Path) : Bool := path.dir ≠ .root && ".json".toList.isSuffixOf path.name.toList

def entryRecord (transaction : String) (entry : Entry) : Value :=
  .obj (fieldsOf [("collection",.str (directory entry.1)),("document_id",.str (Entry.id entry)),
    ("stage",.str (stageName transaction (Entry.id entry)))])

/-- `{"schema_version": 1, "entries": entries}`. -/
def journalText (transaction : String) (entries : List Entry) : Value :=
  .obj (fieldsOf [("schema_version",.num 1),("entries",.arr (itemsOf (entries.map (entryRecord transaction))))])

/-- `Path(stage).name == stage`. -/
def plainName (name : String) : Bool := name ≠ "." && !name.toList.contains '/'

def invalidJournal : Err := .valueError "invalid control-plane transaction journal"
def unsupportedJournal : Err := .valueError "unsupported control-plane transaction journal"

def recoverEntry (raw : Value) : Files Unit :=
  match raw with
  | .obj fields =>
    match fields.get "collection",fields.get "document_id",fields.get "stage" with
    | some (.str collection),some (.str documentId),some (.str staged) =>
      match collectionOf collection with
      | some c =>
        if plainName staged then do
          let path ← attempt (pathOf c documentId)
          unlink path
          unlink ⟨.collection c,staged⟩
        else raise invalidJournal
      | none => raise invalidJournal
    | _,_,_ => raise invalidJournal
  | _ => raise invalidJournal

/-- `payload.get("schema_version") == 1`, where Python's `True` counts as well. -/
def versionOne (payload : Fields) : Bool :=
  payload.get "schema_version" = some (.num 1) || payload.get "schema_version" = some (.bool true)

def recoverTransaction : Files Unit := do
  let text ← look (fun w => w.fs journal)
  match text with
  | none => ret ()
  | some .empty => raise (.valueError "Expecting value")
  | some (.document _) => raise unsupportedJournal
  | some (.json (.obj payload)) =>
    match payload.get "entries" with
    | some (.arr entries) =>
      if versionOne payload then do
        forEach recoverEntry entries.toList
        remove journal
      else raise unsupportedJournal
    | _ => raise unsupportedJournal
  | some (.json _) => raise (.typeError "journal is not an object")

def stageDocument (transaction : String) (entry : Entry) : Files Unit := do
  let path ← attempt (pathOf entry.1 (Entry.id entry))
  let taken ← present path
  if taken then raise (.stateConflict (singular entry.1 ++ " already exists"))
  else do
    writeText (Entry.stage transaction entry) (.document entry)
    write (fun w => { w with staged := w.staged ++ [entry] })

def commit (transaction : String) : Files Unit := do
  let staged ← look Work.staged
  writeText journalTemp (.json (journalText transaction staged))
  replace journalTemp journal
  forEach (fun entry => replace (Entry.stage transaction entry) (Entry.target entry)) staged
  remove journal

def clear (transaction : String) : Files Unit := do
  unlink journalTemp
  let staged ← look Work.staged
  forEach (fun entry => unlink (Entry.stage transaction entry)) staged

/-- `_save_many`. -/
def saveMany (transaction : String) (documents : List Entry) : Files Unit :=
  ensure (handle
    (do
      forEach (stageDocument transaction) documents
      commit transaction)
    (fun e => do
      let left ← present journal
      if left then do
        recoverTransaction
        raise e
      else raise e))
    (clear transaction)

def start (fs : Fs) : Work := ⟨fs,[fs],[]⟩

def crashes (p : Files Unit) (fs : Fs) : List Fs := (p (start fs)).2.seen

/-- A store that is started on `fs`, dies in its recovery any number of times, and
    in the end completes it with `fs'`. -/
inductive Restarted : Fs → Fs → Prop
  | completes {fs : Fs} {w : Work} (ran : recoverTransaction (start fs) = (.ok (),w)) : Restarted fs w.fs
  | dies {fs mid fs' : Fs} (crash : mid ∈ crashes recoverTransaction fs) (again : Restarted mid fs') : Restarted fs fs'

end Cowork.TransactionJournal
