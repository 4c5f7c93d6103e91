import Cowork.ArtifactRepairs

/-!
The history of an artifact, over any run of calls and writes from outside
(`history_is_kept`). An editor does not take the lock, so a save may replace what it has
not seen.
-/
namespace Cowork.ArtifactRevisions
open Coroutines
open TextFiles (encode decode)

section
variable {ι ε : Type}

/-- What `_content_for_revision` answers for a blob with these bytes. -/
def readBack (bytes : Content) : Exit (List Char) :=
  match decode bytes with
  | some text => .returned text
  | none => .raised

def Retained (setting : Setting ι ε) (digest : Digest) (folder : Folder) (revision : Revision) : Prop :=
  ∃ bytes, digest.sha bytes = revision.contentHash ∧ folder.blob digest revision.contentHash = some bytes ∧
    ∀ i asked rest, setting.answer i = .done →
      contentForRevision setting digest revision false asked folder (.answer i :: rest) =
        some ⟨readBack bytes,folder,asked,rest⟩

theorem contentForRevision_found {setting : Setting ι ε} {digest : Digest} {folder : Folder} {revision : Revision}
    {bytes : Content} (blob : folder.blob digest revision.contentHash = some bytes) {i : ι}
    (done : setting.answer i = .done) (asked : Bool) (rest : List (Signal ι ε)) :
    contentForRevision setting digest revision false asked folder (.answer i :: rest) =
      some ⟨readBack bytes,folder,asked,rest⟩ := by
  show andThen (read setting fun folder => folder.blob digest revision.contentHash) _ false asked folder _ = _
  simp only [andThen,read,fileOperation,wait,done,blob,Option.bind_some,readBack]
  cases decode bytes <;> rfl

theorem Sound.retained {digest : Digest} {folder : Folder} (sound : Sound digest folder) (setting : Setting ι ε)
    {revision : Revision} (there : revision ∈ folder.manifest) : Retained setting digest folder revision := by
  grind only [blob_hash,contentForRevision_found,Retained,cases Sound]

end

theorem edits_shared : Edits shared fun _ => False := fun edit => ⟨edit,rfl,id⟩

def sharedBut (path : String) : Setting Answer { edit : Edit // edit.path ≠ path } := ⟨id,fun edit => edit.1.apply⟩

theorem edits_sharedBut (path : String) : Edits (sharedBut path) (· = path) :=
  fun edit => ⟨edit.1,rfl,edit.2⟩

/-- After any calls and writes from outside the manifest has the newest revisions, numbered and retained; a save that
    returns has replaced the newest revision of its path, if no editor wrote the path meanwhile. -/
theorem history_is_kept {digest : Digest} {start : Folder} (sound : Sound digest start)
    (actions : List (Action Answer Edit)) {ι ε : Type} {setting : Setting ι ε} {still : String → Prop}
    (edits : Edits setting still) :
    let folder := Transitions.reach (step shared digest) start actions
    (folder.manifest.Pairwise (·.number < ·.number) ∧ folder.manifest.Pairwise (·.id ≠ ·.id)) ∧
    (folder.manifest.length ≤ maxRevisions ∧
      ∃ older, folder.recorded = older ++ folder.manifest ∧ (older = [] ∨ folder.manifest.length = maxRevisions)) ∧
    (∀ revision ∈ folder.manifest, Retained setting digest folder revision) ∧
    ∀ save script ended entry, saveSource setting digest save false false folder script = some ended →
      ended.exit = .returned entry → Saved digest still save entry ended.state := by
  have sound' := sound_reach edits_shared sound actions
  refine ⟨⟨sound'.numbers,sound'.distinct⟩,⟨sound'.capped,sound'.history⟩,fun revision => sound'.retained setting,?_⟩
  intro save script ended entry ran exit
  exact ((does_saveSource (K := fun _ => True) edits).returned sound' trivial ran exit).2

/-- An editor writes, and a client that saw the first revision is refused. -/
def editedDraft : List (Action Answer Edit) :=
  [.call (.current "report.md") (allDone 9),.edit (overwrite "typed"),.call (.save (saveOf "new" 0)) (allDone 20)]

theorem editedDraft_save_replaces_recorded :
    Saved plain (· = "report.md") (saveOf "new" 1)
      ⟨2,3,"report.md","Edited artifact".toList,some 1,"new",[]⟩
      ((saveSource (sharedBut "report.md") plain (saveOf "new" 1) false false
        (Transitions.reach (step shared plain) draft editedDraft) (allDone 20)).get (by decide +kernel)).state :=
  (history_is_kept (sound_fresh plain _) editedDraft (edits_sharedBut "report.md")).2.2.2 _ _ _ _
    (Option.some_get _).symm (by decide +kernel)

/-- An editor writes "typed" when a save over the first revision has read the source. -/
def disturbedSave : Option (Ended Folder Answer Edit Revision) :=
  saveSource shared plain (saveOf "new" 0) false false
    (Transitions.reach (step shared plain) draft [.call (.current "report.md") (allDone 9)])
    (allDone 3 ++ .event (overwrite "typed") :: allDone 20)

/-- The disturbed save succeeds, and nothing has recorded what it replaced. And a save
    that is refused records bytes that are no text, which cannot be read back. -/
theorem save_replaces_unrecorded_text :
    (disturbedSave.map (·.exit) = some (.returned ⟨1,2,"report.md","Edited artifact".toList,some 0,"new",[]⟩) ∧
      disturbedSave.map (·.state.replaced) = some [("report.md",some (encode "typed".toList))] ∧
      disturbedSave.map (·.state.recorded.map (·.contentHash)) = some ["old","new"]) ∧
    let folder := Transitions.reach (step shared plain) draft
      [.edit ⟨"report.md",some [255]⟩,.call (.save (saveOf "new" 9)) (allDone 6)]
    folder.manifest.map (fun revision => (contentForRevision shared plain revision false false folder (allDone 1)).map
      (·.exit)) = [some .raised] := by decide +kernel

end Cowork.ArtifactRevisions
