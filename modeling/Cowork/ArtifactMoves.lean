import Cowork.ArtifactRevisions
import Mathlib.Data.List.Induction
import Mathlib.Data.List.Nodup
import Mathlib.Logic.Relation

/-!
What the operations on an artifact can do to its folder. However their file operations
go, they change it by a few kinds of moves only (`Move`), each under a guard that the
code has checked; an invariant of the artifact is then a fact about the moves. The first
is `Sound`.
-/
namespace Cowork.ArtifactRevisions
open List Function
open TextFiles (encode decode encode_decode)

def Status.next : Status → List Status
  | .queued => [.ready,.noChange,.conflict,.cancelled]
  | .ready => [.accepted,.rejected,.discarded]
  | .noChange | .conflict | .cancelled | .accepted | .rejected | .discarded => []

structure Advances (old new : Repair) : Prop where
  same : new = { old with status := new.status, revisionId := new.revisionId }
  follows : new.status ∈ old.status.next

variable {old new : Repair} {revisions : List Revision} {path hash : String} {digest : Digest} {bytes : Content}

theorem Advances.id_eq (advances : Advances old new) : new.id = old.id := by rw [advances.same]

theorem Advances.not_queued (advances : Advances old new) : new.status ≠ .queued := by
  intro queued
  have follows := advances.follows
  rw [queued] at follows
  cases status : old.status <;> simp [status,Status.next] at follows

/-- One change of the folder while an operation runs. `still` are the paths that no editor writes meanwhile. -/
inductive Move (digest : Digest) (still : String → Prop) (folder : Folder) : Folder → Prop where
  | edited (edit : Edit) (loose : ¬ still edit.path) : Move digest still folder (edit.apply folder)
  | minted : Move digest still folder folder.mint
  | stored (bytes : Content) (small : bytes.length ≤ maxSourceBytes) :
      Move digest still folder (folder.storeBlob (digest.sha bytes) bytes)
  | pruned (gone : String → Bool) :
      Move digest still folder (folder.removeBlobs (folder.manifest.map (·.contentHash)) gone)
  | began (pending : Pending) (bytes : Content) (hash : pending.revision.contentHash = digest.sha bytes)
      (own : pending.revision.id < folder.minted) : Move digest still folder (folder.writePending pending bytes)
  | cleared : Move digest still folder folder.clearPending
  | replaced (pending : Pending) (bytes : Content) (under : folder.pending = some pending)
      (hash : pending.revision.contentHash = digest.sha bytes) :
      Move digest still folder (folder.replaceSource pending.path bytes)
  | recorded (entry : Revision) (bytes : Content) (hash : entry.contentHash = digest.sha bytes)
      (blob : folder.blob digest (digest.sha bytes) = some bytes)
      (new : ∀ revision ∈ folder.manifest, revision.id ≠ entry.id)
      (number : ∀ revision ∈ folder.manifest, revision.number < entry.number)
      (own : entry.id < folder.minted ∨ ∃ pending, folder.pending = some pending ∧ pending.revision.id = entry.id)
      (source : still entry.path → folder.sources entry.path = some bytes) :
      Move digest still folder (folder.writeManifest (newest (folder.manifest ++ [entry])) entry)
  | advanced (old new : Repair) (there : old ∈ folder.repairs) (advances : Advances old new) :
      Move digest still folder (folder.writeRepair new)
  | opened (repair : Repair) (own : repair.id = folder.minted) (queued : repair.status = .queued)
      (unfinished : repair.revisionId = none) : Move digest still folder (folder.writeRepair repair).mint

/-- What an operation that began in `start` has done up to `folder`. -/
def From (digest : Digest) (still : String → Prop) (start folder : Folder) : Prop :=
  Relation.ReflTransGen (Move digest still) start folder

theorem latest_append (revisions : List Revision) (entry : Revision) :
    latest (revisions ++ [entry]) entry.path = some entry := by simp [latest]

theorem latest_mem {head : Revision} (found : latest revisions path = some head) : head ∈ revisions :=
  mem_reverse.1 (mem_of_find?_eq_some found)

theorem newest_append (revisions : List Revision) (entry : Revision) :
    ∃ older kept, revisions = older ++ kept ∧ newest (revisions ++ [entry]) = kept ++ [entry]
      ∧ (older = [] ∨ (kept ++ [entry]).length = maxRevisions) := by
  have size : (revisions ++ [entry]).length - maxRevisions ≤ revisions.length := by
    simp only [length_append,length_singleton,maxRevisions]
    omega
  refine ⟨_,_,(take_append_drop ((revisions ++ [entry]).length - maxRevisions) revisions).symm,?_,?_⟩
  · rw [newest,drop_append_of_le_length size]
  · by_cases room : (revisions ++ [entry]).length ≤ maxRevisions
    all_goals grind only [Nat.sub_eq_zero_of_le,take_zero,length_append,length_drop]

theorem length_newest (revisions : List Revision) : (newest revisions).length ≤ maxRevisions := by
  rw [newest,length_drop]
  omega

theorem number_le_last (numbers : revisions.Pairwise (·.number < ·.number)) :
    ∀ revision ∈ revisions, revision.number ≤ lastNumber revisions := by
  induction revisions using List.reverseRecOn with
  | nil => simp
  | append_singleton front last _ =>
    intro revision there
    have end' : lastNumber (front ++ [last]) = last.number := by simp [lastNumber]
    rw [end']
    rcases mem_append.1 there with earlier | here
    · exact Nat.le_of_lt ((pairwise_append.1 numbers).2.2 revision earlier last (mem_singleton_self last))
    · exact Nat.le_of_eq (congrArg Revision.number (mem_singleton.1 here))

theorem numbered_above (numbers : revisions.Pairwise (·.number < ·.number)) (entry : Revision) :
    ∀ revision ∈ revisions, revision.number < (numbered revisions entry).number := by
  intro revision there
  have low := number_le_last numbers revision there
  grind only [numbered,ne_nil_of_mem]

theorem numbered_same (revisions : List Revision) (entry : Revision) :
    ∃ number, numbered revisions entry = { entry with number := number } := by
  unfold numbered
  split
  · exact ⟨_,rfl⟩
  · exact ⟨entry.number,rfl⟩

@[simp] theorem sources_edit_self (edit : Edit) (folder : Folder) :
    (edit.apply folder).sources edit.path = edit.bytes := update_self _ _ _

theorem sources_edit_of_ne {edit : Edit} (apart : path ≠ edit.path) (folder : Folder) :
    (edit.apply folder).sources path = folder.sources path := update_of_ne apart _ _

@[simp] theorem sources_replaceSource_self (folder : Folder) (path : String) (bytes : Content) :
    (folder.replaceSource path bytes).sources path = some bytes := update_self _ _ _

theorem sources_replaceSource_of_ne {other : String} (apart : other ≠ path) (folder : Folder) (bytes : Content) :
    (folder.replaceSource path bytes).sources other = folder.sources other := update_of_ne apart _ _

theorem blob_hash {folder : Folder} (found : folder.blob digest hash = some bytes) : digest.sha bytes = hash ∧
    bytes.length ≤ maxSourceBytes := by grind only [Option.filter_eq_some_iff,Folder.blob]

theorem blob_stored (folder : Folder) (small : bytes.length ≤ maxSourceBytes) :
    (folder.storeBlob (digest.sha bytes) bytes).blob digest (digest.sha bytes) = some bytes := by
  simp [Folder.blob,Folder.storeBlob,small]

theorem blob_after_stored (folder : Folder) {found : Content} (small : bytes.length ≤ maxSourceBytes)
    (there : folder.blob digest hash = some found) :
    ∃ found', (folder.storeBlob (digest.sha bytes) bytes).blob digest hash = some found' := by
  by_cases same : hash = digest.sha bytes
  · subst same
    exact ⟨bytes,blob_stored folder small⟩
  · refine ⟨found,?_⟩
    simpa [Folder.blob,Folder.storeBlob,update_of_ne same] using there

theorem blob_kept (folder : Folder) {keep : List String} (kept : hash ∈ keep) (gone : String → Bool) :
    (folder.removeBlobs keep gone).blob digest hash = folder.blob digest hash := by
  simp [Folder.blob,Folder.removeBlobs,kept]

theorem mem_putRepair {repairs : List Repair} {old new other : Repair} (there : old ∈ repairs)
    (same : new.id = old.id) : other ∈ putRepair repairs new ↔ other = new ∨ other ∈ repairs ∧ other.id ≠ new.id := by
  grind only [any_eq_true,putRepair,mem_map]

theorem ids_putRepair {repairs : List Repair} (there : old ∈ repairs) (same : new.id = old.id) :
    (putRepair repairs new).map (·.id) = repairs.map (·.id) := by
  grind only [any_eq_true,putRepair,map_map,map_congr_left]

theorem putRepair_new {repairs : List Repair} {repair : Repair} (own : ∀ other ∈ repairs, other.id ≠ repair.id) :
    putRepair repairs repair = repairs ++ [repair] := by grind [putRepair]

/-- The manifest has distinct ids and ascending numbers, is the end of all that was recorded and cut only when full,
    and its revisions' bytes are there. Repair records have distinct ids, and a queued one has no revision yet; every
    write over one followed the order of the statuses. -/
structure Sound (digest : Digest) (folder : Folder) : Prop where
  ids : ∀ revision ∈ folder.manifest, revision.id < folder.minted
  distinct : folder.manifest.Pairwise (·.id ≠ ·.id)
  numbers : folder.manifest.Pairwise (·.number < ·.number)
  capped : folder.manifest.length ≤ maxRevisions
  history : ∃ older, folder.recorded = older ++ folder.manifest ∧ (older = [] ∨ folder.manifest.length = maxRevisions)
  contents : ∀ revision ∈ folder.manifest, ∃ bytes, folder.blob digest revision.contentHash = some bytes
  pending : ∀ pending, folder.pending = some pending → pending.revision.id < folder.minted
  repairIds : ∀ repair ∈ folder.repairs, repair.id < folder.minted
  repairsDistinct : (folder.repairs.map (·.id)).Nodup
  unfinished : ∀ repair ∈ folder.repairs, repair.status = .queued → repair.revisionId = none
  changes : ∀ change ∈ folder.changes, Advances change.1 change.2

theorem sound_fresh (digest : Digest) (sources : String → Option Content) : Sound digest (Folder.fresh sources) where
  ids := by simp [Folder.fresh]
  distinct := List.Pairwise.nil
  numbers := List.Pairwise.nil
  capped := Nat.zero_le _
  history := ⟨[],rfl,.inl rfl⟩
  contents := by simp [Folder.fresh]
  pending := by simp [Folder.fresh]
  repairIds := by simp [Folder.fresh]
  repairsDistinct := nodup_nil
  unfinished := by simp [Folder.fresh]
  changes := by simp [Folder.fresh]

section
variable {digest : Digest} {still : String → Prop} {folder folder' start : Folder}

section
variable (sound : Sound digest folder)
include sound

theorem Sound.mem_recorded {revision : Revision} (there : revision ∈ folder.manifest) : revision ∈ folder.recorded := by
  obtain ⟨older,whole,_⟩ := sound.history
  rw [whole]
  exact mem_append_right older there

theorem sound_recorded {entry : Revision} {bytes : Content}
    (hash : entry.contentHash = digest.sha bytes) (blob : folder.blob digest (digest.sha bytes) = some bytes)
    (new : ∀ revision ∈ folder.manifest, revision.id ≠ entry.id)
    (number : ∀ revision ∈ folder.manifest, revision.number < entry.number) (own : entry.id < folder.minted) :
    Sound digest (folder.writeManifest (newest (folder.manifest ++ [entry])) entry) := by
  obtain ⟨older,kept,whole,cut,full⟩ := newest_append folder.manifest entry
  have old : ∀ revision ∈ kept, revision ∈ folder.manifest := fun revision there => by
    rw [whole]; exact mem_append_right older there
  rw [cut]
  refine { sound with ids := ?_, distinct := ?_, numbers := ?_, capped := ?_, history := ?_, contents := ?_ }
  · grind only [mem_append,mem_singleton,cases Sound,Folder.writeManifest]
  · grind only [pairwise_append,pairwise_singleton,mem_singleton,cases Sound,Folder.writeManifest]
  · grind only [pairwise_append,pairwise_singleton,mem_singleton,cases Sound,Folder.writeManifest]
  · exact cut ▸ length_newest (folder.manifest ++ [entry])
  · obtain ⟨earlier,recorded,before⟩ := sound.history
    refine ⟨earlier ++ older,?_,?_⟩
    · grind only [append_assoc,Folder.writeManifest]
    · rcases full with none' | full
      · subst none'
        rcases before with nothing | before
        · exact .inl (by rw [nothing,append_nil])
        · -- A manifest that was full before has to lose an entry for the new one.
          grind only [length_newest,length_append,length_singleton]
      · exact .inr full
  · intro revision there
    rcases mem_append.1 there with earlier | here
    · exact sound.contents revision (old revision earlier)
    · rw [mem_singleton.1 here,hash]; exact ⟨bytes,blob⟩

theorem sound_advanced {old new : Repair} (there : old ∈ folder.repairs)
    (advances : Advances old new) : Sound digest (folder.writeRepair new) := by
  have members := fun other => @mem_putRepair folder.repairs old new other there advances.id_eq
  refine { sound with repairIds := ?_, repairsDistinct := ?_, unfinished := ?_, changes := ?_ }
  · grind only [ids_putRepair,cases Sound,cases Advances,Folder.writeRepair]
  · grind only [ids_putRepair,cases Sound,cases Advances,Folder.writeRepair]
  · grind only [advances.not_queued,cases Sound,Folder.writeRepair]
  · intro change among
    rcases mem_append.1 among with earlier | last
    · exact sound.changes change earlier
    · obtain ⟨other,found,rfl⟩ := mem_map.1 last
      obtain ⟨among,same⟩ := mem_filter.1 found
      have one : other = old := inj_on_of_nodup_map sound.repairsDistinct among there
        ((of_decide_eq_true same).trans advances.id_eq)
      exact one ▸ advances

theorem sound_opened {repair : Repair} (own : repair.id = folder.minted)
    (unfinished : repair.revisionId = none) : Sound digest (folder.writeRepair repair).mint := by
  have apart : ∀ other ∈ folder.repairs, other.id ≠ repair.id := fun other there => by
    have earlier := sound.repairIds other there
    omega
  have records : (folder.writeRepair repair).mint.repairs = folder.repairs ++ [repair] := putRepair_new apart
  have unwritten : folder.repairs.filter (fun other => other.id = repair.id) = [] := by simpa using apart
  refine { sound with ids := ?_, pending := ?_, repairIds := ?_, repairsDistinct := ?_, unfinished := ?_, changes := ?_ }
  · exact fun revision there => Nat.lt_succ_of_lt (sound.ids revision there)
  · exact fun pending there => Nat.lt_succ_of_lt (sound.pending pending there)
  · grind only [mem_append,mem_singleton,cases Sound,Folder.mint,Folder.writeRepair]
  · grind [cases Sound]
  · grind [cases Sound]
  · simpa [Folder.mint,Folder.writeRepair,unwritten] using sound.changes

theorem sound_move (move : Move digest still folder folder') : Sound digest folder' := by
  cases move with
  | edited edit loose => exact { sound with }
  | minted =>
    exact { sound with
      ids := fun revision there => Nat.lt_succ_of_lt (sound.ids revision there)
      pending := fun pending there => Nat.lt_succ_of_lt (sound.pending pending there)
      repairIds := fun repair there => Nat.lt_succ_of_lt (sound.repairIds repair there) }
  | stored bytes small =>
    refine { sound with contents := fun revision there => ?_ }
    obtain ⟨found,blob⟩ := sound.contents revision there
    exact blob_after_stored folder small blob
  | pruned gone =>
    refine { sound with contents := fun revision there => ?_ }
    obtain ⟨found,blob⟩ := sound.contents revision there
    exact ⟨found,(blob_kept folder (mem_map_of_mem there) gone).trans blob⟩
  | began pending bytes hash own =>
    refine { sound with pending := fun other there => ?_ }
    cases there; exact own
  | cleared => exact { sound with pending := fun pending there => by cases there }
  | replaced pending bytes under hash => exact { sound with }
  | recorded entry bytes hash blob new number own source => grind only [sound_recorded,sound.pending]
  | advanced old new there advances => exact sound_advanced sound there advances
  | opened repair own queued unfinished => exact sound_opened sound own unfinished

end

theorem sound_from (sound : Sound digest start) (moves : From digest still start folder) : Sound digest folder := by
  induction moves with
  | refl => exact sound
  | tail _ move ih => exact sound_move ih move

end

end Cowork.ArtifactRevisions
