import Cowork.Coroutines
import Cowork.TextFiles
import Cowork.Transitions

/-!
The revisions of an artifact (`artifact_revisions.py`): the source files, and beside
them a journal with the manifest, one blob for each content, the record of a source
write under way, and the repairs handed to the agent. An operation holds the artifact's
lock and awaits its file operations as a coroutine: an answer says whether one
succeeded, an event is a write from outside, a cancellation is the death of the process.
-/
namespace Cowork.ArtifactRevisions
open Coroutines
open TextFiles (encode decode)

abbrev Content := List UInt8

/-- `_sha`, with the assumption that no two contents share a digest. -/
structure Digest where
  sha : Content → String
  injective : Function.Injective sha

def plainSha (bytes : Content) : String := String.ofList (bytes.map fun byte => Char.ofNat byte.toNat)

theorem toNat_ofNat_byte (byte : UInt8) : (Char.ofNat byte.toNat).toNat = byte.toNat := by
  have small := byte.toNat_lt
  have valid : Nat.isValidChar byte.toNat := .inl (by omega)
  rw [Char.ofNat,dif_pos valid]
  rfl

def plain : Digest where
  sha := plainSha
  injective := by
    intro bytes bytes' same
    refine List.map_injective_iff.2 (fun byte byte' equal => ?_) (String.ofList_injective same)
    have numbers := congrArg Char.toNat equal
    rw [toNat_ofNat_byte,toNat_ofNat_byte] at numbers
    exact UInt8.toNat_inj.1 numbers

structure Revision where
  id : Nat
  number : Nat
  path : String
  summary : List Char
  baseRevisionId : Option Nat
  contentHash : String
  commentThreadIds : List String
deriving DecidableEq

/-- `pending-source-write.json` -/
structure Pending where
  path : String
  beforeContentHash : String
  revision : Revision

inductive Status where
  | queued
  | ready
  | noChange
  | conflict
  | cancelled
  | accepted
  | rejected
  | discarded
deriving DecidableEq

/-- A record of the `repairs` folder. -/
structure Repair where
  id : Nat
  path : String
  baseRevisionId : Nat
  commentThreadId : String
  conversationId : Option String
  status : Status
  revisionId : Option Nat
  createdAt : Int
deriving DecidableEq

/-- An artifact folder. `minted` is the next id, as ids never come twice. The last fields record what happened: every
    revision recorded, what the server's source writes replaced, the contents that calls and editors gave for a path,
    and the writes over a repair's record. -/
structure Folder where
  sources : String → Option Content
  manifest : List Revision
  pending : Option Pending
  blobs : String → Option Content
  repairs : List Repair
  minted : Nat
  recorded : List Revision
  replaced : List (String × Option Content)
  given : List (String × Content)
  changes : List (Repair × Repair)

def maxSourceBytes : Nat := 2000000
def maxRevisions : Nat := 80
/-- `QUEUED_REPAIR_TTL_SECONDS`, in microseconds as all instants are. -/
def queuedRepairTtl : Int := 3600 * 1000000

def putRepair (repairs : List Repair) (repair : Repair) : List Repair :=
  if repairs.any fun other => other.id = repair.id then
    repairs.map fun other => if other.id = repair.id then repair else other
  else repairs ++ [repair]

namespace Folder

def fresh (sources : String → Option Content) : Folder where
  sources := sources
  manifest := []
  pending := none
  blobs := fun _ => none
  repairs := []
  minted := 0
  recorded := []
  replaced := []
  given := []
  changes := []

/-- What `_read_source` finds: a file that is not too large. -/
def source (folder : Folder) (path : String) : Option Content :=
  (folder.sources path).filter fun bytes => decide (bytes.length ≤ maxSourceBytes)

/-- What `_blob_bytes` trusts: a blob that is not too large and has the digest it is named by. -/
def blob (digest : Digest) (folder : Folder) (hash : String) : Option Content :=
  (folder.blobs hash).filter fun bytes => decide (bytes.length ≤ maxSourceBytes) && decide (digest.sha bytes = hash)

def storeBlob (folder : Folder) (hash : String) (bytes : Content) : Folder :=
  { folder with blobs := Function.update folder.blobs hash (some bytes) }

/-- Remove blobs, except those that are named in `keep`. -/
def removeBlobs (folder : Folder) (keep : List String) (gone : String → Bool) : Folder :=
  { folder with blobs := fun hash => if hash ∈ keep ∨ gone hash = false then folder.blobs hash else none }

/-- The record of a write of `bytes` to a source, which a call gave. -/
def writePending (folder : Folder) (pending : Pending) (bytes : Content) : Folder :=
  { folder with pending := some pending, given := folder.given ++ [(pending.path,bytes)] }

def clearPending (folder : Folder) : Folder := { folder with pending := none }

/-- The replacement of a source file by `_atomic_bytes`. -/
def replaceSource (folder : Folder) (path : String) (bytes : Content) : Folder :=
  { folder with
    sources := Function.update folder.sources path (some bytes)
    replaced := folder.replaced ++ [(path,folder.sources path)] }

def writeManifest (folder : Folder) (revisions : List Revision) (entry : Revision) : Folder :=
  { folder with manifest := revisions, recorded := folder.recorded ++ [entry] }

def writeRepair (folder : Folder) (repair : Repair) : Folder :=
  { folder with
    repairs := putRepair folder.repairs repair
    changes := folder.changes ++ (folder.repairs.filter fun other => other.id = repair.id).map (·,repair) }

def mint (folder : Folder) : Folder := { folder with minted := folder.minted + 1 }

end Folder

/-- A write from outside to a source file; without `bytes` it removes the file. -/
structure Edit where
  path : String
  bytes : Option Content

def Edit.apply (edit : Edit) (folder : Folder) : Folder :=
  { folder with
    sources := Function.update folder.sources edit.path edit.bytes
    given := folder.given ++ edit.bytes.toList.map (edit.path,·) }

inductive Answer where
  | done
  | fails
  | partly (names : List String)

/-- What the server works in: how its file operations can go, and the writes from outside meanwhile. -/
structure Setting (ι ε : Type) where
  answer : ι → Answer
  outside : ε → Folder → Folder

def undisturbed : Setting Answer Empty := ⟨id,fun event => event.elim⟩

def shared : Setting Answer Edit := ⟨id,Edit.apply⟩

abbrev Work (ι ε α : Type) : Type := Coro Folder ι ε α

section
variable {ι ε α : Type} (setting : Setting ι ε)

def fileOperation (f : Folder → α × Folder) : Work ι ε α :=
  wait setting.outside (fun folder i =>
    match setting.answer i with
    | .done => some (.returned (f folder).1,(f folder).2)
    | .fails => some (.raised,folder)
    | .partly _ => none) id

def read (f : Folder → α) : Work ι ε α := fileOperation setting fun folder => (f folder,folder)

def write (f : Folder → Folder) : Work ι ε Unit := fileOperation setting fun folder => ((),f folder)

/-- `except OSError: pass` -/
def swallow (body : Work ι ε Unit) : Work ι ε Unit := handle body (ret ()) stop

/-- `if condition: body` -/
def onlyIf (condition : Prop) [Decidable condition] (body : Work ι ε Unit) : Work ι ε Unit :=
  if condition then body else ret ()

/-- `uuid.uuid4()` -/
def mint : Work ι ε Nat := act fun folder => (folder.minted,folder.mint)

def clearPending : Work ι ε Unit := swallow (write setting Folder.clearPending)

/-- `prune_journal_folder`, which an error stops half way. -/
def pruneJournalFolder (keep : List String) : Work ι ε Unit :=
  wait setting.outside (fun folder i =>
    match setting.answer i with
    | .done => some (.returned (),folder.removeBlobs keep fun _ => true)
    | .fails => some (.raised,folder)
    | .partly names => some (.raised,folder.removeBlobs keep fun hash => decide (hash ∈ names))) id

/-- `resolve_source` with `_read_source`, for a path that it resolves to. -/
def readSource (path : String) : Work ι ε Content := do
  let found ← read setting fun folder => folder.source path
  match found with
  | some bytes => ret bytes
  | none => raise

/-- `_atomic_bytes(target, content, mode=target.stat().st_mode & 0o777)` -/
def replaceSource (path : String) (bytes : Content) : Work ι ε Unit := do
  let there ← read setting fun folder => (folder.sources path).isSome
  if there then write setting fun folder => folder.replaceSource path bytes else raise

variable (digest : Digest)

def storeBlob (bytes : Content) : Work ι ε Unit := do
  let found ← read setting fun folder => folder.blob digest (digest.sha bytes)
  match found with
  | some _ => ret ()
  | none => write setting fun folder => folder.storeBlob (digest.sha bytes) bytes

end

/-- What `str.strip` takes off a text. -/
def blank (c : Char) : Bool :=
  let n := c.toNat
  decide (9 ≤ n ∧ n ≤ 13 ∨ 28 ≤ n ∧ n ≤ 32 ∨ n = 0x85 ∨ n = 0xa0 ∨ n = 0x1680 ∨ 0x2000 ≤ n ∧ n ≤ 0x200a ∨ n = 0x2028 ∨
    n = 0x2029 ∨ n = 0x202f ∨ n = 0x205f ∨ n = 0x3000)

/-- `(summary or "Updated artifact").strip()[:240]` -/
def summaryText (summary : List Char) : List Char :=
  let text := if summary = [] then "Updated artifact".toList else summary
  ((text.dropWhile blank).reverse.dropWhile blank).reverse.take 240

def latest (revisions : List Revision) (path : String) : Option Revision :=
  revisions.reverse.find? fun revision => revision.path = path

def headRevisionId (revisions : List Revision) (path : String) : Option Nat := (latest revisions path).map (·.id)

def lastNumber (revisions : List Revision) : Nat := (revisions.getLast?.map (·.number)).getD 0

def newRevision (digest : Digest) (revisions : List Revision) (id : Nat) (path : String) (bytes : Content)
    (summary : List Char) (base : Option Nat) (threads : List String) : Revision where
  id := id
  number := lastNumber revisions + 1
  path := path
  summary := summaryText summary
  baseRevisionId := base
  contentHash := digest.sha bytes
  commentThreadIds := threads.eraseDups

def numbered (revisions : List Revision) (entry : Revision) : Revision :=
  if revisions ≠ [] ∧ entry.number ≤ lastNumber revisions then { entry with number := lastNumber revisions + 1 }
  else entry

/-- `del revisions[:-MAX_REVISIONS]` -/
def newest (revisions : List Revision) : List Revision := revisions.drop (revisions.length - maxRevisions)

section
variable {ι ε : Type} (setting : Setting ι ε) (digest : Digest)

/-- `_persist_revision` on the manifest read as `revisions`; it returns that manifest as the call leaves it. -/
def persistRevision (revisions : List Revision) (entry : Revision) (bytes : Content) :
    Work ι ε (Revision × List Revision) :=
  if entry.contentHash ≠ digest.sha bytes then raise else do
    storeBlob setting digest bytes
    match revisions.find? fun item => item.id = entry.id with
    | some existing => ret (existing,revisions)
    | none => do
      let entry := numbered revisions entry
      let kept := newest (revisions ++ [entry])
      write setting fun folder => folder.writeManifest kept entry
      onlyIf (maxRevisions < revisions.length + 1) (swallow (pruneJournalFolder setting (kept.map (·.contentHash))))
      ret (entry,kept)

def appendRevision (revisions : List Revision) (path : String) (bytes : Content) (summary : List Char)
    (base : Option Nat) (threads : List String) : Work ι ε (Revision × List Revision) := do
  let id ← mint
  persistRevision setting digest revisions (newRevision digest revisions id path bytes summary base threads) bytes

def captured (revisions : List Revision) (path : String) (bytes : Content) (summary : List Char) :
    Work ι ε (Revision × List Revision) :=
  match latest revisions path with
  | none => appendRevision setting digest revisions path bytes summary none []
  | some head =>
    if head.contentHash = digest.sha bytes then ret (head,revisions)
    else appendRevision setting digest revisions path bytes summary (some head.id) []

/-- What is left of `_recover_pending_source_write` for a record that can be completed. -/
def completePending (pending : Pending) (bytes current : Content) (revisions : List Revision) : Work ι ε Unit := do
  onlyIf (digest.sha current = pending.beforeContentHash) (replaceSource setting pending.path bytes)
  let _ ← persistRevision setting digest revisions pending.revision bytes
  clearPending setting

def recoverPendingSourceWrite : Work ι ε Unit := do
  let found ← read setting fun folder => folder.pending
  match found with
  | none => ret ()
  | some pending =>
    if pending.revision.path ≠ pending.path then clearPending setting else do
      let blob ← read setting fun folder => folder.blob digest pending.revision.contentHash
      match blob with
      | none => clearPending setting
      | some bytes => do
        let source ← read setting fun folder => folder.source pending.path
        match source with
        | none => clearPending setting
        | some current => do
          let revisions ← read setting fun folder => folder.manifest
          -- Either the commit had reached the manifest, or the artifact has moved on.
          if (revisions.any fun item => item.id = pending.revision.id)
              ∨ headRevisionId revisions pending.path ≠ pending.revision.baseRevisionId
              ∨ digest.sha current ≠ pending.beforeContentHash ∧ digest.sha current ≠ pending.revision.contentHash then
            clearPending setting
          else completePending setting digest pending bytes current revisions

/-- The arguments of `_commit_source_revision`. -/
structure Commit where
  revisions : List Revision
  path : String
  before : Content
  bytes : Content
  summary : List Char
  base : Nat
  threads : List String

def Commit.entry (digest : Digest) (commit : Commit) (id : Nat) : Revision :=
  newRevision digest commit.revisions id commit.path commit.bytes commit.summary (some commit.base) commit.threads

def Commit.pending (digest : Digest) (commit : Commit) (id : Nat) : Pending where
  path := commit.path
  beforeContentHash := digest.sha commit.before
  revision := commit.entry digest id

def commitSourceRevision (commit : Commit) : Work ι ε Revision := do
  let id ← mint
  storeBlob setting digest commit.bytes
  write setting fun folder => folder.writePending (commit.pending digest id) commit.bytes
  replaceSource setting commit.path commit.bytes
  let _ ← persistRevision setting digest commit.revisions (commit.entry digest id) commit.bytes
  clearPending setting
  ret (commit.entry digest id)

/-- `_current_source_locked`, for a path that `resolve_source` gives -/
def currentSource (path : String) : Work ι ε (List Char × Revision) := do
  recoverPendingSourceWrite setting digest
  let bytes ← readSource setting path
  match decode bytes with
  | none => raise
  | some text => do
    let revisions ← read setting fun folder => folder.manifest
    let (head,_) ← captured setting digest revisions path bytes "Captured current draft".toList
    ret (text,head)

/-- A call of `save_source` -/
structure Save where
  path : String
  content : List Char
  expected : Nat
  summary : List Char
  threads : List String

/-- `save_source` up to its commit, if it comes to one. -/
def beginSave (save : Save) : Work ι ε (Revision ⊕ Commit) :=
  if maxSourceBytes < (encode save.content).length then raise else do
    recoverPendingSourceWrite setting digest
    let existing ← readSource setting save.path
    let revisions ← read setting fun folder => folder.manifest
    let (head,revisions) ←
      captured setting digest revisions save.path existing "Captured concurrent draft change".toList
    if head.id ≠ save.expected then raise
    else if head.contentHash = digest.sha (encode save.content) then ret (.inl head)
    else ret (.inr
      { revisions := revisions, path := save.path, before := existing, bytes := encode save.content,
        summary := save.summary, base := head.id, threads := save.threads })

def saveSource (save : Save) : Work ι ε Revision := do
  let begun ← beginSave setting digest save
  match begun with
  | .inl head => ret head
  | .inr commit => commitSourceRevision setting digest commit

def contentForRevision (revision : Revision) : Work ι ε (List Char) := do
  let blob ← read setting fun folder => folder.blob digest revision.contentHash
  match blob.bind decode with
  | some text => ret text
  | none => raise

/-- `_revision_with_content_locked` -/
def revisionWithContent (id : Nat) : Work ι ε (Revision × List Char) := do
  let revisions ← read setting fun folder => folder.manifest
  match revisions.find? fun revision => revision.id = id with
  | none => raise
  | some revision => do
    let text ← contentForRevision setting digest revision
    ret (revision,text)

end

/-- `_is_superseded` -/
def superseded (revisions : List Revision) (repair : Repair) : Bool :=
  match repair.revisionId with
  | none => false
  | some id => (headRevisionId revisions repair.path).any fun head => head ≠ id

/-- Where `_partition_actionable_repairs` puts a repair of the path. -/
inductive Place where
  | neither
  | blocking
  | dead (finished : Status)
deriving DecidableEq

def place (revisions : List Revision) (path : String) (now : Int) (repair : Repair) : Place :=
  if repair.path ≠ path ∨ repair.status ≠ .queued ∧ repair.status ≠ .ready then .neither
  else if superseded revisions repair then .neither
  else if repair.status = .queued then
    if (headRevisionId revisions path).any fun head => repair.baseRevisionId ≠ head then .dead .conflict
    else if queuedRepairTtl < now - repair.createdAt then .dead .noChange
    else .blocking
  else .blocking

def Place.isDead : Place → Bool
  | .dead _ => true
  | .neither | .blocking => false

def finishDead (revisions : List Revision) (path : String) (now : Int) (repair : Repair) : Repair :=
  match place revisions path now repair with
  | .dead finished => { repair with status := finished }
  | .neither | .blocking => repair

/-- The repairs that `create_agent_repair` finishes. -/
def deadRepairs (revisions : List Revision) (path : String) (now : Int) (repairs : List Repair) : List Repair :=
  repairs.filter fun repair => (place revisions path now repair).isDead

/-- `_finish_queued_repairs`, for one of them. -/
def finishQueued (matchingBase revisionId : Option Nat) (repair : Repair) : Repair :=
  { repair with
    status :=
      if some repair.baseRevisionId ≠ matchingBase then .conflict
      else if revisionId.isSome then .ready
      else .noChange
    revisionId := revisionId }

inductive Decision where
  | accepted
  | rejected
deriving DecidableEq

def Decision.status : Decision → Status
  | .accepted => .accepted
  | .rejected => .rejected

def rejectedSummary : List Char := "Rejected agent suggestion".toList

section
variable {ι ε : Type} (setting : Setting ι ε) (digest : Digest)

def writeRepair (repair : Repair) : Work ι ε Unit := write setting fun folder => folder.writeRepair repair

def writeRepairs : List Repair → Work ι ε Unit
  | [] => ret ()
  | repair :: rest => do
    writeRepair setting repair
    writeRepairs rest

def readRepair (id : Nat) : Work ι ε Repair := do
  let repairs ← read setting fun folder => folder.repairs
  match repairs.find? fun repair => repair.id = id with
  | some repair => ret repair
  | none => raise

def turnRepairs (conversation : Option String) (repairs : List Repair) : List Repair :=
  repairs.filter fun repair => decide (repair.status = .queued ∧ repair.conversationId = conversation)

def answeredThreads (headId : Option Nat) (queued : List Repair) : List String :=
  ((queued.filter fun repair => decide (some repair.baseRevisionId = headId)).map (·.commentThreadId)).filter
    fun thread => decide (thread ≠ "")

/-- The end of `capture_agent_revision`: new bytes are recorded, and the turn's repairs of the path are finished. -/
def finishTurn (revisions : List Revision) (path : String) (bytes : Content) (queued : List Repair) :
    Work ι ε (Option Revision) :=
  match (latest revisions path).filter fun head => decide (head.contentHash = digest.sha bytes) with
  | some head => do
    writeRepairs setting (queued.map (finishQueued (some head.id) none))
    ret (some head)
  | none => do
    let (entry,_) ← appendRevision setting digest revisions path bytes "Agent updated artifact".toList
      (headRevisionId revisions path) (answeredThreads (headRevisionId revisions path) queued)
    writeRepairs setting (queued.map (finishQueued (headRevisionId revisions path) (some entry.id)))
    ret (some entry)

/-- `capture_agent_revision` with its lock held, for the path that `resolve_source` gives. -/
def captureLocked (conversation : Option String) (path : String) : Work ι ε (Option Revision) := do
  recoverPendingSourceWrite setting digest
  let bytes ← readSource setting path
  if (decode bytes).isNone then raise else do
    let revisions ← read setting fun folder => folder.manifest
    let repairs ← read setting fun folder => folder.repairs
    let turn := turnRepairs conversation repairs
    let queued := turn.filter fun repair => decide (repair.path = path)
    let astray := turn.filter fun repair => decide (repair.path ≠ path)
    writeRepairs setting (astray.map fun repair => { repair with status := .conflict })
    finishTurn setting digest revisions path bytes queued

def captureAgentRevision (conversation : Option String) (path : String) : Work ι ε (Option Revision) :=
  handle (captureLocked setting digest conversation path) (ret none) stop

/-- A call of `create_agent_repair`, for the path that `resolve_source` gives. -/
structure Create where
  path : String
  expected : Nat
  commentThreadId : String
  conversationId : String
  now : Int

/-- The record that `create_agent_repair` saves. -/
def Create.repair (create : Create) (id base : Nat) : Repair where
  id := id
  path := create.path
  baseRevisionId := base
  commentThreadId := create.commentThreadId
  conversationId := some create.conversationId
  status := .queued
  revisionId := none
  createdAt := create.now - create.now % 1000000

def createAgentRepair (create : Create) : Work ι ε Repair := do
  let (_,current) ← currentSource setting digest create.path
  if current.id ≠ create.expected then raise else do
    let revisions ← read setting fun folder => folder.manifest
    let repairs ← read setting fun folder => folder.repairs
    if repairs.any fun repair => place revisions create.path create.now repair = .blocking then raise else do
      writeRepairs setting ((deadRepairs revisions create.path create.now repairs).map
        (finishDead revisions create.path create.now))
      fileOperation setting fun folder =>
        (create.repair folder.minted current.id,(folder.writeRepair (create.repair folder.minted current.id)).mint)

def cancelAgentRepair (id : Nat) (discardReady : Bool) : Work ι ε Repair := do
  let repair ← readRepair setting id
  if repair.status = .cancelled ∨ repair.status = .discarded then ret repair
  else if repair.status = .queued then do
    writeRepair setting { repair with status := .cancelled }
    ret { repair with status := .cancelled }
  else if discardReady ∧ repair.status = .ready then do
    writeRepair setting { repair with status := .discarded }
    ret { repair with status := .discarded }
  else raise

def releaseRepairsForComment (commentThreadId : String) : Work ι ε (List Repair) := do
  let repairs ← read setting fun folder => folder.repairs
  let waiting := repairs.filter fun repair =>
    decide (repair.commentThreadId = commentThreadId ∧ repair.status = .ready)
  let released := waiting.map fun repair => { repair with status := .discarded }
  writeRepairs setting released
  ret released

/-- A call of `finalize_agent_repair` -/
structure Finalize where
  id : Nat
  decision : Decision
  expectedHead : Option Nat

def alreadyRestored (current : Revision) (repair : Repair) : Bool :=
  decide (current.baseRevisionId = repair.revisionId ∧ current.summary = rejectedSummary ∧
    repair.commentThreadId ∈ current.commentThreadIds)

/-- What a decision asks for: nothing, as it has landed; the new status; or a commit and then the new status. -/
inductive Verdict where
  | landed (repair : Repair)
  | settle (repair : Repair)
  | restore (repair : Repair) (commit : Commit)

def acceptRepair (revisions : List Revision) (current : Revision) (repair : Repair) (expectedHead : Option Nat) :
    Work ι ε Verdict :=
  if ¬ revisions.any fun entry => some entry.id = repair.revisionId ∧ entry.path = repair.path then raise
  else if superseded revisions repair ∧ expectedHead ≠ some current.id then raise
  else ret (.settle repair)

def rejectRepair (revisions : List Revision) (text : List Char) (current : Revision) (repair : Repair)
    (expectedHead : Option Nat) : Work ι ε Verdict :=
  if some current.id ≠ expectedHead.or repair.revisionId then raise else do
    let (before,restored) ← revisionWithContent setting digest repair.baseRevisionId
    if before.path ≠ repair.path then raise else do
      let there ← read setting fun folder => (folder.sources repair.path).isSome
      if there then
        ret (.restore repair
          { revisions := revisions, path := repair.path, before := encode text, bytes := encode restored,
            summary := rejectedSummary, base := current.id, threads := [repair.commentThreadId] })
      else raise

/-- `finalize_agent_repair` up to its writes. -/
def beginFinalize (finalize : Finalize) : Work ι ε Verdict := do
  let repair ← readRepair setting finalize.id
  if repair.status = finalize.decision.status then ret (.landed repair)
  else if repair.status ≠ .ready then raise
  else do
    let (text,current) ← currentSource setting digest repair.path
    if finalize.decision = .rejected ∧ alreadyRestored current repair then ret (.settle repair)
    else do
      let revisions ← read setting fun folder => folder.manifest
      match finalize.decision with
      | .accepted => acceptRepair revisions current repair finalize.expectedHead
      | .rejected => rejectRepair setting digest revisions text current repair finalize.expectedHead

/-- The writes of `finalize_agent_repair`. -/
def settleVerdict (finalize : Finalize) : Verdict → Work ι ε Repair
  | .landed repair => ret repair
  | .settle repair => do
    writeRepair setting { repair with status := finalize.decision.status }
    ret { repair with status := finalize.decision.status }
  | .restore repair commit => do
    let _ ← commitSourceRevision setting digest commit
    writeRepair setting { repair with status := finalize.decision.status }
    ret { repair with status := finalize.decision.status }

def finalizeAgentRepair (finalize : Finalize) : Work ι ε Repair := do
  let verdict ← beginFinalize setting digest finalize
  settleVerdict setting digest finalize verdict

/-- The operations on an artifact. `list_revisions`, `revision_with_content` and
    `agent_repair_detail` change the folder by their recovery only. -/
inductive Operation where
  | inspect
  | current (path : String)
  | save (save : Save)
  | capture (conversation : Option String) (path : String)
  | create (create : Create)
  | cancel (id : Nat) (discardReady : Bool)
  | release (commentThreadId : String)
  | finalize (finalize : Finalize)

def perform : Operation → Work ι ε Unit
  | .inspect => recoverPendingSourceWrite setting digest
  | .current path => do
    let _ ← currentSource setting digest path
    ret ()
  | .save save => do
    let _ ← saveSource setting digest save
    ret ()
  | .capture conversation path => do
    let _ ← captureAgentRevision setting digest conversation path
    ret ()
  | .create create => do
    let _ ← createAgentRepair setting digest create
    ret ()
  | .cancel id discardReady => do
    let _ ← cancelAgentRepair setting id discardReady
    ret ()
  | .release commentThreadId => do
    let _ ← releaseRepairsForComment setting commentThreadId
    ret ()
  | .finalize finalize => do
    let _ ← finalizeAgentRepair setting digest finalize
    ret ()

inductive Action (ι ε : Type) where
  | call (operation : Operation) (script : List (Signal ι ε))
  | edit (edit : Edit)

def step (folder : Folder) : Action ι ε → Folder
  | .call operation script =>
    match perform setting digest operation false false folder script with
    | some ended => ended.state
    | none => folder
  | .edit edit => edit.apply folder

end

def allDone {ε : Type} (n : Nat) : List (Signal Answer ε) := List.replicate n (.answer .done)

def draft : Folder := Folder.fresh fun path => if path = "report.md" then some (encode "old".toList) else none

def overwrite (text : String) : Edit := ⟨"report.md",some (encode text.toList)⟩

def saveOf (text : String) (expected : Nat) : Save := ⟨"report.md",text.toList,expected,"Edited artifact".toList,[]⟩

end Cowork.ArtifactRevisions
