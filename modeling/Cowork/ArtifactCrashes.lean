import Cowork.ArtifactRepairs

/-!
Crashes during an artifact's save. The process may die before any file operation of the
commit, and then of the recoveries, while an editor writes the source between them. The
commit got to one of three stages (`Stage`).
-/
namespace Cowork.ArtifactRevisions
open Coroutines List
open TextFiles (encode decode)

/-- File operations succeed until the process dies; no editor writes while an operation runs. -/
def mortal : Setting Unit Empty := ⟨fun _ => .done,fun event => event.elim⟩

theorem reliable_mortal : Reliable mortal := fun _ => rfl

theorem edits_mortal : Edits mortal fun _ => True := fun event => event.elim

/-- From `start`, a save or a rejection has come to its commit. -/
inductive Begins (digest : Digest) (start : Folder) : Commit → Folder → Prop where
  | save {save : Save} {script : List (Signal Unit Empty)} {ended : Ended Folder Unit Empty (Revision ⊕ Commit)}
      {commit : Commit} (ran : beginSave mortal digest save false false start script = some ended)
      (exit : ended.exit = .returned (.inr commit)) : Begins digest start commit ended.state
  | finalize {finalize : Finalize} {script : List (Signal Unit Empty)} {ended : Ended Folder Unit Empty Verdict}
      {repair : Repair} {commit : Commit}
      (ran : beginFinalize mortal digest finalize false false start script = some ended)
      (exit : ended.exit = .returned (.restore repair commit)) : Begins digest start commit ended.state

theorem Begins.ready {digest : Digest} {start folder : Folder} {commit : Commit} (sound : Sound digest start)
    (begins : Begins digest start commit folder) :
    Ready mortal digest (fun _ => True) commit folder ∧ Sound digest folder := by
  cases begins with
  | save ran exit =>
    have known := does_beginSave (K := fun _ => True) edits_mortal false start _ _ ⟨.refl,sound,trivial⟩ ran
    rw [exit] at known
    exact ⟨known.fact.2.1,known.sound⟩
  | finalize ran exit =>
    have known := does_beginFinalize edits_mortal false start _ _ ⟨.refl,sound,rfl⟩ ran
    rw [exit] at known
    exact ⟨known.fact.2.2.1,known.sound⟩

structure Transaction where
  digest : Digest
  commit : Commit
  id : Nat
  past : List Revision

namespace Transaction

def entry (tx : Transaction) : Revision := tx.commit.entry tx.digest tx.id

def pending (tx : Transaction) : Pending := tx.commit.pending tx.digest tx.id

def outcome (tx : Transaction) : Revision × List Revision :=
  persisted tx.commit.revisions tx.entry

structure Valid (tx : Transaction) : Prop where
  head : ∃ head, Heads tx.digest tx.commit.path tx.commit.before head
    tx.commit.revisions ∧ head.id = tx.commit.base
  new : ∀ revision ∈ tx.commit.revisions, revision.id ≠ tx.id
  distinct : tx.commit.revisions.Pairwise (·.id ≠ ·.id)
  smallBefore : tx.commit.before.length ≤ maxSourceBytes
  small : tx.commit.bytes.length ≤ maxSourceBytes

/-- The source has one of these contents, or what the last editor `left` there, which is
    not the content from before. -/
def Source (tx : Transaction) (left : Option (Option Content)) (contents : List Content) (folder : Folder) : Prop :=
  match left with
  | none => ∃ bytes ∈ contents, folder.sources tx.commit.path = some bytes
  | some found => folder.sources tx.commit.path = found ∧ found ≠ some tx.commit.before

inductive Stage (tx : Transaction) (left : Option (Option Content)) (folder : Folder) : Prop where
  | before (manifest : folder.manifest = tx.commit.revisions) (recorded : folder.recorded = tx.past)
      (idle : folder.pending = none) (source : tx.Source left [tx.commit.before] folder)
  | under (manifest : folder.manifest = tx.commit.revisions) (recorded : folder.recorded = tx.past)
      (pending : folder.pending = some tx.pending)
      (blob : folder.blob tx.digest tx.entry.contentHash = some tx.commit.bytes)
      (source : tx.Source left [tx.commit.before,tx.commit.bytes] folder)
  | after (manifest : folder.manifest = tx.outcome.2)
      (recorded : folder.recorded = tx.past ++ [tx.outcome.1])
      (pending : folder.pending = none ∨ folder.pending = some tx.pending)
      (source : tx.Source left [tx.commit.bytes] folder)

end Transaction

section
variable {α β : Type} {tx : Transaction} {left : Option (Option Content)} {P Q : Folder → Prop}

def Endures (tx : Transaction) (left : Option (Option Content)) (P : Folder → Prop) (body : Work Unit Empty α)
    (R : α → Folder → Prop) : Prop :=
  Ensures false P body R (fun _ => False) (tx.Stage left)

variable {R : α → Folder → Prop} {body : Work Unit Empty α} {folder : Folder}

section
variable (dies : ∀ folder, P folder → tx.Stage left folder)
include dies

theorem endures_fileOperation {f : Folder → α × Folder}
    (after : ∀ folder, P folder → R (f folder).1 (f folder).2) : Endures tx left P (fileOperation mortal f) R := by
  refine ensures_wait (fun e => e.elim) ?_ ?_ ?_ fun _ folder known => dies folder known
  all_goals grind only [mortal]

theorem endures_read {f : Folder → α} :
    Endures tx left P (read mortal f) fun a folder => P folder ∧ f folder = a :=
  endures_fileOperation dies fun _ known => ⟨known,rfl⟩

theorem endures_write {f : Folder → Folder}
    (after : ∀ folder, P folder → Q (f folder)) : Endures tx left P (write mortal f) fun _ => Q :=
  endures_fileOperation dies after

theorem endures_clearPending (after : ∀ folder, P folder → Q folder.clearPending) :
    Endures tx left P (clearPending mortal) fun _ => Q :=
  ensures_handle (endures_write dies after) (ensures_ret fun _ never => never.elim) ensures_stop

theorem endures_prune {keep : List String} (after : ∀ folder gone, P folder → P (folder.removeBlobs keep gone)) :
    Endures tx left P (swallow (pruneJournalFolder mortal keep)) fun _ => P := by
  have pruned : Endures tx left P (pruneJournalFolder mortal keep) fun _ => P := by
    refine ensures_wait (fun e => e.elim) ?_ ?_ ?_ fun _ folder known => dies folder known
    all_goals grind only [mortal]
  exact ensures_handle pruned (ensures_ret fun _ never => never.elim) ensures_stop

end

theorem endures_known {p : Prop} (known : ∀ folder, P folder → p) (endures : p → Endures tx left P body R) :
    Endures tx left P body R :=
  fun asked folder script ended here ran => endures (known folder here) asked folder script ended here ran

theorem endures_if {c : Prop} [Decidable c] {other : Work Unit Empty α} (yes : c → Endures tx left P body R)
    (no : ¬ c → Endures tx left P other R) : Endures tx left P (if c then body else other) R := by
  by_cases condition : c
  · rw [if_pos condition]; exact yes condition
  · rw [if_neg condition]; exact no condition

theorem endures_andThen {next : α → Work Unit Empty β} {S : β → Folder → Prop}
    (first : Endures tx left P body R) (then' : ∀ a, Endures tx left (R a) (next a) S) :
    Endures tx left P (body >>= next) S :=
  ensures_andThen first then'

def Transaction.Replaced (tx : Transaction) (left : Option (Option Content)) (folder : Folder) : Prop :=
  folder.manifest = tx.commit.revisions ∧ folder.recorded = tx.past ∧ folder.pending = some tx.pending ∧
    folder.blob tx.digest tx.entry.contentHash = some tx.commit.bytes ∧
    tx.Source left [tx.commit.bytes] folder

theorem Transaction.Source.mono {contents more : List Content} (source : tx.Source left contents folder)
    (among : ∀ bytes ∈ contents, bytes ∈ more) : tx.Source left more folder := by
  cases left <;> grind only [Source]

theorem Transaction.Replaced.stage (replaced : tx.Replaced left folder) : tx.Stage left folder :=
  .under replaced.1 replaced.2.1 replaced.2.2.1 replaced.2.2.2.1
    (replaced.2.2.2.2.mono fun _ there => mem_cons_of_mem _ there)

def Transaction.Recorded (tx : Transaction) (left : Option (Option Content)) (folder : Folder) : Prop :=
  folder.manifest = tx.outcome.2 ∧ folder.recorded = tx.past ++ [tx.outcome.1] ∧
    folder.pending = some tx.pending ∧ tx.Source left [tx.commit.bytes] folder

theorem Transaction.Recorded.stage (recorded : tx.Recorded left folder) : tx.Stage left folder :=
  .after recorded.1 recorded.2.1 (.inr recorded.2.2.1) recorded.2.2.2

theorem endures_persist (valid : tx.Valid) :
    Endures tx left (tx.Replaced left)
      (persistRevision mortal tx.digest tx.commit.revisions tx.entry tx.commit.bytes) fun _ => tx.Recorded left := by
  have new : tx.commit.revisions.find? (fun item => item.id = tx.entry.id) = none :=
    find?_eq_none.2 fun revision there => by
      have apart : revision.id ≠ tx.entry.id := valid.new revision there
      simpa using apart
  have hash : ¬ tx.entry.contentHash ≠ tx.digest.sha tx.commit.bytes := not_not.2 rfl
  unfold persistRevision
  rw [if_neg hash,new]
  have stored : Endures tx left (tx.Replaced left)
      (storeBlob mortal tx.digest tx.commit.bytes) fun _ => tx.Replaced left := by
    refine endures_andThen (endures_read fun _ known => known.stage) fun found => ?_
    cases found with
    | some bytes => exact ensures_ret fun _ known => known.1
    | none =>
      refine ensures_before (P := fun _ => False) (fun folder known => ?_) fun _ _ _ _ never => never.elim
      grind only [Transaction.Replaced]
  refine endures_andThen stored fun _ => ?_
  refine endures_andThen (endures_write (Q := tx.Recorded left) (fun _ known => known.stage)
    fun folder known => ⟨rfl,congrArg (· ++ _) known.2.1,known.2.2.1,known.2.2.2.2⟩) fun _ => ?_
  refine endures_andThen ?_ fun _ => ensures_ret fun _ => id
  exact endures_if (fun _ => endures_prune (fun _ known => known.stage) fun folder gone known => known) fun _ =>
    ensures_ret fun _ => id

theorem endures_cleared : Endures tx left (tx.Recorded left) (clearPending mortal)
    fun _ folder => tx.Stage left folder ∧ folder.pending = none :=
  endures_clearPending (fun _ known => known.stage) fun _ known => ⟨.after known.1 known.2.1 (.inl rfl) known.2.2.2,rfl⟩

def Transaction.Begun (tx : Transaction) (folder : Folder) : Prop :=
  folder.manifest = tx.commit.revisions ∧ folder.recorded = tx.past ∧ folder.pending = none ∧
    folder.sources tx.commit.path = some tx.commit.before

theorem Transaction.Begun.stage (begun : tx.Begun folder) : tx.Stage none folder :=
  .before begun.1 begun.2.1 begun.2.2.1 ⟨_,mem_singleton_self _,begun.2.2.2⟩

def Transaction.Pended (tx : Transaction) (folder : Folder) : Prop :=
  folder.manifest = tx.commit.revisions ∧ folder.recorded = tx.past ∧ folder.pending = some tx.pending ∧
    folder.blob tx.digest tx.entry.contentHash = some tx.commit.bytes ∧
    folder.sources tx.commit.path = some tx.commit.before

theorem Transaction.Pended.stage (pended : tx.Pended folder) : tx.Stage none folder :=
  .under pended.1 pended.2.1 pended.2.2.1 pended.2.2.2.1 ⟨_,mem_cons_self,pended.2.2.2.2⟩

theorem endures_replaceSource :
    Endures tx none tx.Pended
      (replaceSource mortal tx.commit.path tx.commit.bytes) fun _ => tx.Replaced none := by
  refine endures_andThen (endures_read fun _ known => known.stage) fun there => ?_
  refine endures_known (fun folder known => ?_) fun (found : there = true) => ?_
  · rw [← known.2,known.1.2.2.2.2]; rfl
  · rw [if_pos found]
    refine endures_write (fun _ known => known.1.stage) fun folder known => ?_
    obtain ⟨⟨manifest,recorded,pending,blob,_⟩,_⟩ := known
    exact ⟨manifest,recorded,pending,blob,_,mem_singleton_self _,sources_replaceSource_self folder _ _⟩

theorem endures_commit (valid : tx.Valid) :
    Endures tx none (fun folder => tx.Begun folder ∧ folder.minted = tx.id)
      (commitSourceRevision mortal tx.digest tx.commit)
      fun _ folder => tx.Stage none folder ∧ folder.pending = none := by
  refine endures_andThen (R := fun id folder => tx.Begun folder ∧ id = tx.id)
    (ensures_act _ fun folder known => known) fun id => ?_
  refine endures_known (fun _ known => known.2) fun same => ?_
  subst same
  have stored : Endures tx none (fun folder => tx.Begun folder ∧ tx.id = tx.id)
      (storeBlob mortal tx.digest tx.commit.bytes) fun _ folder => tx.Begun folder ∧
        folder.blob tx.digest tx.entry.contentHash = some tx.commit.bytes := by
    refine endures_andThen (endures_read fun _ known => known.1.stage) fun found => ?_
    cases found with
    | some other =>
      refine ensures_ret fun folder known => ⟨known.1.1,?_⟩
      have same : other = tx.commit.bytes := tx.digest.injective (blob_hash known.2).1
      exact same ▸ known.2
    | none =>
      exact endures_write (fun _ known => known.1.1.stage) fun folder known =>
        ⟨known.1.1,blob_stored folder valid.small⟩
  refine endures_andThen stored fun _ => ?_
  refine endures_andThen (endures_write (Q := tx.Pended) (fun _ known => known.1.stage) fun folder known =>
    ⟨known.1.1,known.1.2.1,rfl,known.2,known.1.2.2.2⟩) fun _ => ?_
  refine endures_andThen endures_replaceSource fun _ => ?_
  refine endures_andThen (endures_persist valid) fun _ => ?_
  exact endures_andThen endures_cleared fun _ => ensures_ret fun _ => id

inductive Transaction.Spent (tx : Transaction) (left : Option (Option Content)) (folder : Folder) : Prop where
  | recorded (recorded : tx.Recorded left folder)
  | edited (manifest : folder.manifest = tx.commit.revisions) (recorded : folder.recorded = tx.past)
      (pending : folder.pending = some tx.pending)
      (blob : folder.blob tx.digest tx.entry.contentHash = some tx.commit.bytes)
      (edited : left ≠ none)
      (source : tx.Source left [tx.commit.before,tx.commit.bytes] folder)

theorem Transaction.Spent.stage (spent : tx.Spent left folder) : tx.Stage left folder := by
  cases spent with
  | recorded recorded => exact recorded.stage
  | edited manifest recorded pending blob edited source => exact .under manifest recorded pending blob source

theorem Transaction.Spent.clear (spent : tx.Spent left folder) : tx.Stage left folder.clearPending := by
  cases spent with
  | recorded recorded => exact .after recorded.1 recorded.2.1 (.inl rfl) recorded.2.2.2
  | edited manifest recorded pending blob edited source =>
    cases left with
    | none => exact absurd rfl edited
    | some found => exact .before manifest recorded rfl source

theorem endures_drop (spent : ∀ folder, P folder → tx.Spent left folder) :
    Endures tx left P (clearPending mortal)
      fun _ folder => tx.Stage left folder ∧ folder.pending = none :=
  endures_clearPending (fun folder known => (spent folder known).stage) fun folder known =>
    ⟨(spent folder known).clear,rfl⟩

theorem Transaction.Stage.pended (stage : tx.Stage left folder)
    (there : folder.pending = some tx.pending) : tx.Recorded left folder ∨
    folder.manifest = tx.commit.revisions ∧ folder.recorded = tx.past ∧
    folder.blob tx.digest tx.entry.contentHash = some tx.commit.bytes ∧
    tx.Source left [tx.commit.before,tx.commit.bytes] folder := by grind only [Recorded,cases Stage]

theorem source_untouched (valid : tx.Valid) (source : tx.Source none [tx.commit.before,tx.commit.bytes] folder) :
    folder.source tx.commit.path = some tx.commit.before ∨
    folder.source tx.commit.path = some tx.commit.bytes := by
  grind [Folder.source,cases Transaction.Valid,Transaction.Source]

theorem headRevisionId_before (valid : tx.Valid) :
    headRevisionId tx.commit.revisions tx.commit.path = some tx.commit.base := by
  obtain ⟨head,heads,id⟩ := valid.head
  rw [headRevisionId,heads.latest,← id]
  rfl

theorem headRevisionId_after : headRevisionId tx.outcome.2 tx.commit.path = some tx.id := by
  have heads : Heads tx.digest tx.commit.path tx.commit.bytes tx.outcome.1
    tx.outcome.2 := @heads_persisted _ _ tx.commit.revisions tx.entry rfl
  obtain ⟨number,same⟩ := numbered_same tx.commit.revisions tx.entry
  have id : tx.outcome.1.id = tx.id := by
    show (numbered tx.commit.revisions tx.entry).id = tx.id
    rw [same]; rfl
  rw [headRevisionId,heads.latest,← id]
  rfl

theorem outcome_mem : tx.outcome.1 ∈ tx.outcome.2 := by
  obtain ⟨older,kept,_,cut,_⟩ :=
    newest_append tx.commit.revisions (numbered tx.commit.revisions tx.entry)
  show numbered tx.commit.revisions tx.entry ∈ newest _
  rw [cut]
  exact mem_append_right kept (mem_singleton_self _)

theorem outcome_any : (tx.outcome.2.any fun item => item.id = tx.pending.revision.id) = true := by
  obtain ⟨number,same⟩ := numbered_same tx.commit.revisions tx.entry
  refine any_eq_true.2 ⟨tx.outcome.1,outcome_mem,decide_eq_true ?_⟩
  show (numbered tx.commit.revisions tx.entry).id = tx.entry.id
  rw [same]

def Transaction.Open (tx : Transaction) (left : Option (Option Content)) (current : Content) (folder : Folder) : Prop :=
  folder.manifest = tx.commit.revisions ∧ folder.recorded = tx.past ∧ folder.pending = some tx.pending ∧
    folder.blob tx.digest tx.entry.contentHash = some tx.commit.bytes ∧
    tx.Source left [tx.commit.before,tx.commit.bytes] folder ∧
    folder.sources tx.commit.path = some current

theorem endures_completePending (valid : tx.Valid) {current : Content}
    (possible : current = tx.commit.before ∨ current = tx.commit.bytes) :
    Endures tx left (tx.Open left current)
      (completePending mortal tx.digest tx.pending tx.commit.bytes current tx.commit.revisions)
      fun _ folder => tx.Stage left folder ∧ folder.pending = none := by
  have replaced : Endures tx left (tx.Open left current)
      (onlyIf (tx.digest.sha current = tx.pending.beforeContentHash)
        (replaceSource mortal tx.pending.path tx.commit.bytes))
      fun _ => tx.Replaced left := by
    refine endures_if (fun same => ?_) fun differs => ?_
    · have same : current = tx.commit.before := tx.digest.injective same
      refine endures_known (p := left = none) (fun folder known => ?_) fun untouched => ?_
      · -- An editor left other bytes than these.
        cases left with
        | none => rfl
        | some found =>
          obtain ⟨_,_,_,_,⟨is,apart⟩,here⟩ := known
          exact absurd (is.symm.trans (here.trans (congrArg some same))) apart
      · subst untouched
        refine ensures_before (fun folder known => ?_) endures_replaceSource
        grind only [Transaction.Pended,Transaction.Open]
    · have same : current = tx.commit.bytes :=
        possible.resolve_left fun is => differs (congrArg tx.digest.sha is)
      refine ensures_ret fun folder known => ?_
      obtain ⟨manifest,recorded,pending,blob,source,here⟩ := known
      refine ⟨manifest,recorded,pending,blob,?_⟩
      cases left with
      | none => exact ⟨current,by simp [same],here⟩
      | some found => exact source
  refine endures_andThen replaced fun _ => ?_
  exact endures_andThen (endures_persist valid) fun _ => endures_cleared

theorem endures_recover (valid : tx.Valid) :
    Endures tx left (tx.Stage left) (recoverPendingSourceWrite mortal tx.digest)
      fun _ folder => tx.Stage left folder ∧ folder.pending = none := by
  refine endures_andThen (endures_read fun _ known => known) fun found => ?_
  cases found with
  | none => exact ensures_ret fun _ known => known
  | some pending =>
    refine endures_known (p := pending = tx.pending) (fun folder known => ?_) fun same => ?_
    · grind only [cases Transaction.Stage]
    subst same
    refine endures_if (fun invalid => absurd rfl invalid) fun _ => ?_
    refine endures_andThen (endures_read fun _ known => known.1) fun blob => ?_
    cases blob with
    | none =>
      refine endures_drop fun folder known => ?_
      rcases known.1.1.pended known.1.2 with recorded | ⟨_,_,blob,_⟩
      · exact .recorded recorded
      · exact absurd (blob.symm.trans known.2) (Option.some_ne_none _)
    | some bytes =>
      refine endures_known
        (fun folder known => tx.digest.injective (blob_hash known.2).1) fun same => ?_
      subst same
      refine endures_andThen (endures_read fun _ known => known.1.1) fun source => ?_
      cases source with
      | none =>
        refine endures_drop fun folder known => ?_
        obtain ⟨⟨⟨stage,pending⟩,_⟩,gone⟩ := known
        rcases stage.pended pending with recorded | ⟨manifest,past,blob,source⟩
        · exact .recorded recorded
        · refine .edited manifest past pending blob (fun untouched => ?_) source
          subst untouched
          rcases source_untouched valid source with is | is
          all_goals exact Option.some_ne_none _ (is.symm.trans gone)
      | some current =>
        refine endures_andThen (endures_read fun _ known => known.1.1.1) fun revisions => ?_
        have facts : ∀ folder, (((tx.Stage left folder ∧ folder.pending = some tx.pending) ∧
            folder.blob tx.digest tx.pending.revision.contentHash = some tx.commit.bytes) ∧
            folder.source tx.pending.path = some current) ∧ folder.manifest = revisions →
            tx.Recorded left folder ∧ revisions = tx.outcome.2 ∨
            tx.Open left current folder ∧ revisions = tx.commit.revisions ∧
              (left = none → current = tx.commit.before ∨ current = tx.commit.bytes) := by
          intro folder known
          obtain ⟨⟨⟨⟨stage,pending⟩,_⟩,read⟩,rfl⟩ := known
          rcases stage.pended pending with recorded | ⟨manifest,past,blob,source⟩
          · exact .inl ⟨recorded,recorded.1⟩
          · refine .inr ⟨⟨manifest,past,pending,blob,source,(source_known read).1⟩,manifest,fun untouched => ?_⟩
            have read : folder.source tx.commit.path = some current := read
            grind only [source_untouched]
        refine ensures_before facts ?_
        refine endures_if (fun closed => ?_) fun open' => ?_
        · -- The record is dropped: its entry is there, or the source is an editor's.
          refine endures_drop fun folder known => ?_
          rcases known with ⟨recorded,_⟩ | ⟨⟨manifest,past,pending,blob,source,_⟩,rfl,untouched⟩
          · exact .recorded recorded
          · refine .edited manifest past pending blob (fun none' => ?_) source
            rcases closed with there | moved | ⟨notBefore,notAfter⟩
            · obtain ⟨revision,among,same⟩ := any_eq_true.1 there
              exact valid.new revision among (of_decide_eq_true same)
            · exact moved (headRevisionId_before valid)
            · rcases untouched none' with is | is
              · exact notBefore (congrArg tx.digest.sha is)
              · exact notAfter (congrArg tx.digest.sha is)
        · have open' := not_or.1 open'
          refine endures_known (p := revisions = tx.commit.revisions) (fun folder known => ?_) fun same => ?_
          · rcases known with ⟨_,rfl⟩ | ⟨_,same,_⟩
            · exact absurd outcome_any open'.1
            · exact same
          subst same
          refine ensures_before (fun folder known => ?_) (endures_completePending valid ?_)
          · grind only [outcome_any]
          · by_contra neither
            refine open'.2 (.inr ⟨fun is => neither (.inl ?_),fun is => neither (.inr ?_)⟩)
            all_goals exact tx.digest.injective is

structure Scene where
  folder : Folder
  left : Option (Option Content)

/-- Editors write, and operations begin with a recovery and may die in it. -/
inductive Happening where
  | edit (edit : Edit)
  | recovery (script : List (Signal Unit Empty))

def Transaction.happen (tx : Transaction) (scene : Scene) : Happening → Scene
  | .edit edit => ⟨edit.apply scene.folder,if edit.path = tx.commit.path then some edit.bytes else scene.left⟩
  | .recovery script =>
    match recoverPendingSourceWrite mortal tx.digest false false scene.folder script with
    | some ended => ⟨ended.state,scene.left⟩
    | none => scene

def Transaction.Careful (tx : Transaction) (_ : Scene) : Happening → Prop
  | .edit edit => edit.path = tx.commit.path → edit.bytes ≠ some tx.commit.before
  | .recovery _ => True

instance (scene : Scene) (happening : Happening) : Decidable (tx.Careful scene happening) :=
  match happening with
  | .edit edit =>
    inferInstanceAs (Decidable (edit.path = tx.commit.path → edit.bytes ≠ some tx.commit.before))
  | .recovery _ => inferInstanceAs (Decidable True)

theorem Transaction.Source.edit {contents : List Content} {edit : Edit}
    (source : tx.Source left contents folder)
    (careful : edit.path = tx.commit.path → edit.bytes ≠ some tx.commit.before) :
    tx.Source (if edit.path = tx.commit.path then some edit.bytes else left) contents (edit.apply folder) := by
  by_cases here : edit.path = tx.commit.path
  · rw [if_pos here]
    refine ⟨?_,careful here⟩
    rw [← here]; exact sources_edit_self edit folder
  · have same := sources_edit_of_ne (Ne.symm here) folder
    cases left <;> grind only [Source]

theorem stage_happen (valid : tx.Valid) (scene : Scene) (happening : Happening)
    (stage : tx.Stage scene.left scene.folder) (careful : tx.Careful scene happening) :
    tx.Stage (tx.happen scene happening).left (tx.happen scene happening).folder := by
  cases happening with
  | edit edit =>
    cases stage with
    | before manifest recorded idle source => exact .before manifest recorded idle (source.edit careful)
    | under manifest recorded pending blob source => exact .under manifest recorded pending blob (source.edit careful)
    | after manifest recorded pending source => exact .after manifest recorded pending (source.edit careful)
  | recovery script =>
    simp only [Transaction.happen]
    cases ran : recoverPendingSourceWrite mortal tx.digest false false scene.folder script with
    | none => exact stage
    | some ended =>
      have known := endures_recover valid false scene.folder script ended stage ran
      grind only

structure Settled (tx : Transaction) (left : Option (Option Content)) (folder : Folder) : Prop where
  idle : folder.pending = none
  distinct : folder.manifest.Pairwise (·.id ≠ ·.id)
  once : folder.recorded = tx.past ∨ folder.recorded = tx.past ++ [tx.outcome.1]
  untouched : left = none →
    (headRevisionId folder.manifest tx.commit.path = some tx.commit.base ∧
      folder.sources tx.commit.path = some tx.commit.before) ∨
    headRevisionId folder.manifest tx.commit.path = some tx.id ∧ folder.sources tx.commit.path = some tx.commit.bytes
  edited : ∀ found, left = some found → folder.sources tx.commit.path = found

theorem distinct_outcome (valid : tx.Valid) : tx.outcome.2.Pairwise (·.id ≠ ·.id) := by
  obtain ⟨number,same⟩ := numbered_same tx.commit.revisions tx.entry
  obtain ⟨older,kept,whole,cut,_⟩ :=
    newest_append tx.commit.revisions (numbered tx.commit.revisions tx.entry)
  show (newest _).Pairwise _
  rw [cut]
  have among : kept.Sublist tx.commit.revisions := whole ▸ sublist_append_right older kept
  refine pairwise_append.2 ⟨valid.distinct.sublist among,pairwise_singleton _ _,?_⟩
  intro revision there last here
  rw [mem_singleton.1 here,same]
  exact valid.new revision (among.mem there)

theorem Transaction.Stage.settled (valid : tx.Valid) (stage : tx.Stage left folder)
    (idle : folder.pending = none) : Settled tx left folder := by
  have edited : ∀ {contents : List Content}, tx.Source left contents folder → ∀ found, left = some found →
      folder.sources tx.commit.path = found := by
    intro contents source found is
    subst is
    exact source.1
  cases stage with
  | before manifest recorded _ source =>
    refine ⟨idle,manifest ▸ valid.distinct,.inl recorded,fun none' => .inl ?_,edited source⟩
    grind only [mem_singleton,headRevisionId_before,Source]
  | under manifest recorded pending blob source => rw [idle] at pending; cases pending
  | after manifest recorded _ source =>
    refine ⟨idle,manifest ▸ distinct_outcome valid,.inr recorded,fun none' => .inr ?_,edited source⟩
    grind only [mem_singleton,headRevisionId_after,Source]

end

def Transaction.of (digest : Digest) (commit : Commit) (folder : Folder) : Transaction :=
  ⟨digest,commit,folder.minted,folder.recorded⟩

theorem valid_of {digest : Digest} {commit : Commit} {folder : Folder} (sound : Sound digest folder)
    (ready : Ready mortal digest (fun _ => True) commit folder) : (Transaction.of digest commit folder).Valid where
  head := ready.head
  new := fun revision there => Nat.ne_of_lt (sound.ids revision (ready.manifest ▸ there))
  distinct := ready.manifest ▸ sound.distinct
  smallBefore := ready.smallBefore
  small := ready.small

/-- However a commit and the recoveries after it die, the source is as the last editor left it; once a recovery
    completes, the revision was recorded once at most, and head and source are both old or both new unless an editor
    wrote. -/
theorem commit_is_atomic {digest : Digest} {start folder : Folder} {commit : Commit} (sound : Sound digest start)
    (begins : Begins digest start commit folder) {script : List (Signal Unit Empty)}
    {ended : Ended Folder Unit Empty Revision}
    (ran : commitSourceRevision mortal digest commit false false folder script = some ended)
    {happenings : List Happening}
    (careful : Transitions.Permitted (Transaction.of digest commit folder).happen
      (Transaction.of digest commit folder).Careful ⟨ended.state,none⟩ happenings) :
    let tx := Transaction.of digest commit folder
    let scene := Transitions.reach tx.happen ⟨ended.state,none⟩ happenings
    (∀ found, scene.left = some found → scene.folder.sources commit.path = found) ∧
    ∀ script' ended', recoverPendingSourceWrite mortal digest false false scene.folder script' = some ended' →
      ended'.exit = .returned () → Settled tx scene.left ended'.state := by
  intro tx scene
  obtain ⟨ready,sound'⟩ := begins.ready sound
  have valid : tx.Valid := valid_of sound' ready
  have begun : tx.Begun folder := ⟨ready.manifest,rfl,ready.idle reliable_mortal,ready.source trivial⟩
  have crashed := endures_commit valid false folder script ended ⟨begun,rfl⟩ ran
  have crashed : tx.Stage none ended.state := by
    cases exit : ended.exit with
    | returned _ => rw [exit] at crashed; exact crashed.1
    | raised => rw [exit] at crashed; exact crashed.elim
    | cancelled => rw [exit] at crashed; exact crashed
  have stage : tx.Stage scene.left scene.folder :=
    @Transitions.invariant_reach _ _ tx.happen (fun scene => tx.Stage scene.left scene.folder)
      tx.Careful (stage_happen valid) _ crashed _ careful
  refine ⟨fun found is => ?_,fun script' ended' ran' exit => ?_⟩
  · have kept : ∀ {contents : List Content}, tx.Source scene.left contents scene.folder →
        scene.folder.sources commit.path = found := by
      intro contents source
      rw [is] at source
      exact source.1
    cases stage with
    | before manifest recorded idle source | under manifest recorded pending blob source => exact kept source
    | after manifest recorded pending source => exact kept source
  · have known := endures_recover valid false scene.folder script' ended' stage ran'
    rw [exit] at known
    exact known.1.settled valid known.2

def lives (n : Nat) : List (Signal Unit Empty) := List.replicate n (.answer ()) ++ [.cancel]

def taken : Folder := Transitions.reach (step undisturbed plain) draft [.call (.current "report.md") (allDone 9)]

theorem sound_taken : Sound plain taken := sound_reach (edits_undisturbed fun _ => True) (sound_fresh plain _) _

def newCommit : Commit where
  revisions := [⟨0,1,"report.md","Captured current draft".toList,none,"old",[]⟩]
  path := "report.md"
  before := encode "old".toList
  bytes := encode "new".toList
  summary := "Edited artifact".toList
  base := 0
  threads := []

def crashed : Ended Folder Unit Empty Revision :=
  (commitSourceRevision mortal plain newCommit false false taken (lives 3)).get (by decide +kernel)

theorem begins_taken : Begins plain taken newCommit taken :=
  @Begins.save plain taken (saveOf "new" 0) (List.replicate 3 (.answer ())) ⟨_,taken,false,[]⟩ newCommit rfl rfl

/-- A recovery that dies, a write from outside, and a recovery that completes. -/
theorem crashed_commit_settles :
    let happenings : List Happening := [.recovery (lives 2),.edit (overwrite "typed")]
    let scene := Transitions.reach (Transaction.of plain newCommit taken).happen ⟨crashed.state,none⟩ happenings
    Settled (Transaction.of plain newCommit taken) scene.left
      ((recoverPendingSourceWrite mortal plain false false scene.folder (lives 9)).get (by decide +kernel)).state :=
  (commit_is_atomic sound_taken begins_taken (Option.some_get _).symm (by decide +kernel)).2 _ _
    (Option.some_get _).symm (by decide +kernel)

/-- After the crash an editor puts "old" back, and the recovery makes "new" of it. And an
    operation that begins without a recovery completes with the record still pending. -/
theorem restored_bytes_are_overwritten :
    (recoverPendingSourceWrite mortal plain false false ((overwrite "old").apply crashed.state) (lives 20)).map
      (fun ended => (ended.exit,ended.state.sources "report.md")) = some (.returned (),some (encode "new".toList)) ∧
    (releaseRepairsForComment mortal "thread" false false crashed.state (lives 1)).map
      (fun ended => (ended.exit,ended.state.pending.isSome)) = some (.returned [],true) := by decide +kernel

end Cowork.ArtifactRevisions
