import Cowork.TransactionJournal

/-!
Crash atomicity of a bundle of documents. At every moment of `_save_many` the disk shows
the documents from before and no journal, or a journal that names the whole bundle, or
the documents with the bundle and no journal. Recovery turns the second into the first.
-/
namespace Cowork.CrashAtomicity
open Json ControlModels Effects ControlStore Tables TransactionJournal Function
open List hiding replace

theorem target_visible (c : Collection) (id : String) : visible (target c id) = true := by
  simp only [visible,target,String.toList_append,Bool.and_eq_true,isSuffixOf_iff_suffix]
  exact ⟨by simp,suffix_append _ _⟩

theorem stage_hidden (tx : String) (c : Collection) (id : String) : visible (stage tx c id) = false := by
  rw [Bool.eq_false_iff]
  intro seen
  simp only [visible,stage,stageName,Bool.and_eq_true,isSuffixOf_iff_suffix] at seen
  obtain ⟨start,same⟩ := seen.2
  have last := congrArg (fun name => name.reverse.head?) same
  simp at last

theorem target_injective {c c' : Collection} {id id' : String} (same : target c id = target c' id') : c = c' ∧ id = id' := by
  simp only [target,TransactionJournal.Path.mk.injEq,Dir.collection.injEq] at same
  refine ⟨same.1,String.toList_inj.mp ?_⟩
  have names := congrArg String.toList same.2
  simpa using names

theorem stage_injective {tx : String} {c c' : Collection} {id id' : String}
    (same : stage tx c id = stage tx c' id') : c = c' ∧ id = id' := by
  simp only [stage,stageName,TransactionJournal.Path.mk.injEq,Dir.collection.injEq] at same
  refine ⟨same.1,String.toList_inj.mp ?_⟩
  have names := congrArg String.toList same.2
  simpa using names

theorem stage_ne_target (tx : String) (c c' : Collection) (id id' : String) : stage tx c id ≠ target c' id' := by
  intro same
  have hidden := stage_hidden tx c id
  rw [same,target_visible] at hidden
  cases hidden

theorem stageName_plain {tx id : String} (hex : '/' ∉ tx.toList) (good : wellFormedId id = true) :
    plainName (stageName tx id) = true := by
  have letters : '/' ∉ id.toList := by grind only [wellFormedId,all_eq_true]
  have long : stageName tx id ≠ "." := by
    intro same
    have names := congrArg (fun name => name.toList.length) same
    simp [stageName] at names
  have inside : (stageName tx id).toList.contains '/' = false := by simp [stageName,letters,hex]
  simp only [plainName,inside,decide_eq_true long,Bool.not_false,Bool.and_self]

theorem collectionOf_directory (c : Collection) : collectionOf (directory c) = some c := by
  cases c <;> decide

def SameVisible (a b : Fs) : Prop := ∀ path, visible path = true → a path = b path

def withDocuments (documents : List Entry) (fs : Fs) : Fs :=
  documents.foldl (fun fs entry => Function.update fs (Entry.target entry) (some (.document entry))) fs

section
variable (base : Fs) (tx : String) (documents : List Entry)

structure Before (fs : Fs) : Prop where
  noJournal : fs journal = none
  same : SameVisible fs base

structure During (fs : Fs) : Prop where
  named : fs journal = some (.json (journalText tx documents))
  others : ∀ path, visible path = true → path ∉ documents.map Entry.target → fs path = base path

structure After (fs : Fs) : Prop where
  noJournal : fs journal = none
  same : SameVisible fs (withDocuments documents base)

def Ready : Prop := ∀ entry ∈ documents, wellFormedId (Entry.id entry) = true ∧ base (Entry.target entry) = none

def Good (fs : Fs) : Prop :=
  Before base fs ∨ (Ready base documents ∧ During base tx documents fs) ∨ After base documents fs

variable {base tx documents}

theorem Before.hidden {fs : Fs} (before : Before base fs) {path : Path} (hidden : visible path = false)
    (other : path ≠ journal) (content : Option Content) : Before base (update fs path content) := by
  refine ⟨by rw [update_of_ne (Ne.symm other),before.noJournal],fun shown seen => ?_⟩
  have differs : shown ≠ path := fun same => by rw [same,hidden] at seen; cases seen
  rw [update_of_ne differs]
  exact before.same shown seen

theorem After.hidden {fs : Fs} (after : After base documents fs) {path : Path} (hidden : visible path = false)
    (other : path ≠ journal) (content : Option Content) : After base documents (update fs path content) := by
  have hides := Before.hidden ⟨after.noJournal,after.same⟩ hidden other content
  exact ⟨hides.noJournal,hides.same⟩

variable {fs fs' : Fs} {path : Path} {entry : Entry} {s : Docs}

theorem During.update (during : During base tx documents fs) (other : path ≠ journal)
    (own : visible path = true → path ∈ documents.map Entry.target) (content : Option Content) :
    During base tx documents (update fs path content) := by
  refine ⟨by rw [update_of_ne (Ne.symm other),during.named],fun shown seen outside => ?_⟩
  grind only [update_of_ne,during.others]

theorem withDocuments_other (outside : path ∉ documents.map Entry.target) :
    withDocuments documents base path = base path := by
  induction documents generalizing base with
  | nil => rfl
  | cons entry rest ih =>
    rw [map_cons,mem_cons,not_or] at outside
    show withDocuments rest (update base _ _) path = _
    rw [ih outside.2,update_of_ne outside.1]

theorem withDocuments_target (distinct : (documents.map Entry.target).Nodup) (member : entry ∈ documents) :
    withDocuments documents base (Entry.target entry) = some (.document entry) := by
  induction documents generalizing base with
  | nil => cases member
  | cons first rest ih =>
    rw [map_cons,nodup_cons] at distinct
    show withDocuments rest (update base _ _) _ = _
    rcases mem_cons.mp member with rfl | later
    · rw [withDocuments_other distinct.1,update_self]
    · exact ih distinct.2 later

theorem targets_distinct (distinct : (places documents).Nodup) : (documents.map Entry.target).Nodup := by
  unfold places at distinct
  rw [List.Nodup,pairwise_map] at distinct ⊢
  refine distinct.imp (fun differs same => differs ?_)
  obtain ⟨collection,id⟩ := target_injective same
  exact Prod.ext collection id

theorem target_ne_journal (entry : Entry) : Entry.target entry ≠ journal := by
  intro same
  cases congrArg Path.dir same
theorem stage_ne_journal (entry : Entry) : Entry.stage tx entry ≠ journal := by
  intro same
  cases congrArg Path.dir same

theorem recoverEntry_record (hex : '/' ∉ tx.toList) (good : wellFormedId (Entry.id entry) = true) :
    recoverEntry (entryRecord tx entry) = andThen (unlink (Entry.target entry))
    (fun _ => unlink (Entry.stage tx entry)) := by
  have collection : (fieldsOf [("collection",.str (directory entry.1)),("document_id",.str (Entry.id entry)),
      ("stage",.str (stageName tx (Entry.id entry)))]).get "collection" = some (.str (directory entry.1)) := rfl
  have documentId : (fieldsOf [("collection",.str (directory entry.1)),("document_id",.str (Entry.id entry)),
      ("stage",.str (stageName tx (Entry.id entry)))]).get "document_id" = some (.str (Entry.id entry)) := by
    simp [fieldsOf,Fields.get]
  have staged : (fieldsOf [("collection",.str (directory entry.1)),("document_id",.str (Entry.id entry)),
      ("stage",.str (stageName tx (Entry.id entry)))]).get "stage" = some (.str (stageName tx (Entry.id entry))) := by
    simp [fieldsOf,Fields.get]
  unfold recoverEntry entryRecord
  simp only [collection,documentId,staged,collectionOf_directory,stageName_plain hex good,pathOf,good]
  rfl

def Undone (base : Fs) (tx : String) (documents : List Entry) (fs : Fs) : Prop :=
  Before base fs ∨ During base tx documents fs

structure Undoing (base : Fs) (tx : String) (documents rest : List Entry) (w : Work) : Prop where
  during : During base tx documents w.fs
  seen : ∀ fs ∈ w.seen, Undone base tx documents fs
  gone : ∀ entry ∈ documents, entry ∈ rest ∨ w.fs (Entry.target entry) = none

theorem Undoing.unlink {rest : List Entry} {w : Work} (undoing : Undoing base tx documents rest w)
    (other : path ≠ journal) (own : visible path = true → path ∈ documents.map Entry.target) :
    Undoing base tx documents rest
      { w with fs := update w.fs path none,seen := w.seen ++ [update w.fs path none] } := by
  have during := undoing.during.update other own none
  refine ⟨during,?_,fun entry member => ?_⟩
  all_goals grind only [mem_append,mem_singleton,update_self,update_of_ne,Undone,cases Undoing]

theorem recoverEntry_undoes (hex : '/' ∉ tx.toList) (good : wellFormedId (Entry.id entry) = true)
    (member : entry ∈ documents) (rest : List Entry) : Triple (Undoing base tx documents (entry :: rest))
    (recoverEntry (entryRecord tx entry)) (fun _ => Undoing base tx documents rest) (fun _ => False) := by
  rw [recoverEntry_record hex good]
  refine triple_andThen (triple_change _ ?_) (fun _ => triple_change (P := Undoing base tx documents rest) _ ?_)
  · intro w undoing
    have next := undoing.unlink (target_ne_journal entry) (fun _ => mem_map_of_mem member)
    refine ⟨next.during,next.seen,fun other inside => ?_⟩
    grind only [update_self,mem_cons,cases Undoing]
  · intro w undoing
    grind only [stage_hidden,undoing.unlink,stage_ne_journal,Entry.stage]

theorem recoverEntries_undo (hex : '/' ∉ tx.toList) (ready : Ready base documents) (rest : List Entry)
    (part : ∀ entry ∈ rest, entry ∈ documents) :
    Triple (Undoing base tx documents rest)
      (forEach (fun entry => recoverEntry (entryRecord tx entry)) rest)
      (fun _ => Undoing base tx documents []) (fun _ => False) := by
  induction rest with
  | nil => exact fun w start => returned_with rfl start
  | cons entry rest ih =>
    have member := part entry (by simp)
    exact triple_andThen (recoverEntry_undoes hex (ready entry member).1 member rest)
      (fun _ => ih (fun other inside => part other (by simp [inside])))

theorem removeJournal_undone (ready : Ready base documents) :
    Triple (Undoing base tx documents []) (remove journal)
      (fun _ w => Before base w.fs ∧ ∀ fs ∈ w.seen, Undone base tx documents fs) (fun _ => False) := by
  intro w undoing
  have removes : remove journal w = change (fun fs => update fs journal none) w := by
    simp [remove,TransactionJournal.unlink,undoing.during.named]
  have before : Before base (update w.fs journal none) := by
    refine ⟨update_self ..,fun path seen => ?_⟩
    have other : path ≠ journal := fun same => by rw [same] at seen; exact absurd seen (by decide)
    grind [undoing.during.others,Ready,cases Undoing]
  grind only [change_run,mem_append,mem_singleton,Undone,cases Undoing]

theorem recover_nothing (noJournal : fs journal = none) : recoverTransaction (start fs) = (.ok (),start fs) := by
  simp [recoverTransaction,andThen,start,noJournal]

theorem recover_during (hex : '/' ∉ tx.toList) (ready : Ready base documents)
    (during : During base tx documents fs) : ∃ w, recoverTransaction (start fs) = (.ok (),w) ∧
    Before base w.fs ∧ ∀ mid ∈ w.seen, Undone base tx documents mid := by
  have reads : recoverTransaction (start fs) =
      andThen (forEach (fun entry => recoverEntry (entryRecord tx entry)) documents)
        (fun _ => remove journal) (start fs) := by
    have entries : (fieldsOf [("schema_version",.num 1),
        ("entries",.arr (itemsOf (documents.map (entryRecord tx))))]).get "entries" =
        some (.arr (itemsOf (documents.map (entryRecord tx)))) := by simp [fieldsOf,Fields.get]
    have text : (start fs).fs journal = some (.json (.obj (fieldsOf [("schema_version",.num 1),
        ("entries",.arr (itemsOf (documents.map (entryRecord tx))))]))) := during.named
    rw [← forEach_map (entryRecord tx) recoverEntry documents]
    unfold recoverTransaction
    rw [bind_run,andThen_ok (look_run _ _),text]
    simp only [entries,toList_itemsOf]
    rfl
  have undoes : Triple (Undoing base tx documents documents)
      (andThen (forEach (fun entry => recoverEntry (entryRecord tx entry)) documents) (fun _ => remove journal))
      (fun _ w => Before base w.fs ∧ ∀ fs ∈ w.seen, Undone base tx documents fs) (fun _ => False) :=
    triple_andThen (recoverEntries_undo hex ready documents (fun _ member => member)) (fun _ => removeJournal_undone ready)
  have begins : Undoing base tx documents documents (start fs) := by
    refine ⟨during,fun mid member => ?_,fun entry member => .inl member⟩
    rw [mem_singleton.mp member]; exact .inr during
  obtain ⟨_,w,ran,before,seen⟩ := triple_returns undoes begins
  exact ⟨w,reads.trans ran,before,seen⟩

theorem restart_undone (hex : '/' ∉ tx.toList) (ready : Ready base documents) (restarted : Restarted fs fs')
    (undone : Undone base tx documents fs) : SameVisible fs' base := by
  induction restarted with
  | completes ran =>
    rcases undone with before | during
    · rw [recover_nothing before.noJournal] at ran
      cases ran; exact before.same
    · obtain ⟨w,ran',before,_⟩ := recover_during hex ready during
      rw [ran'] at ran
      cases ran; exact before.same
  | dies crash _ ih =>
    rcases undone with before | during
    · rw [crashes,recover_nothing before.noJournal] at crash
      rw [mem_singleton.mp crash] at ih
      exact ih (.inl before)
    · obtain ⟨w,ran,_,seen⟩ := recover_during hex ready during
      rw [crashes,ran] at crash
      exact ih (seen _ crash)

theorem restart_settled (restarted : Restarted fs fs') (noJournal : fs journal = none) : fs' = fs := by
  induction restarted with
  | completes ran =>
    rw [recover_nothing noJournal] at ran
    cases ran; rfl
  | dies crash _ ih =>
    rw [crashes,recover_nothing noJournal] at crash
    have same := mem_singleton.mp crash
    subst same
    exact ih noJournal

theorem restart_good (hex : '/' ∉ tx.toList) (good : Good base tx documents fs)
    (restarted : Restarted fs fs') : SameVisible fs' base ∨ SameVisible fs' (withDocuments documents base) := by
  rcases good with before | ⟨ready,during⟩ | after
  · rw [restart_settled restarted before.noJournal]
    exact .inl before.same
  · exact .inl (restart_undone hex ready restarted (.inr during))
  · rw [restart_settled restarted after.noJournal]
    exact .inr after.same

theorem restart_completes (hex : '/' ∉ tx.toList) (good : Good base tx documents fs) : ∃ fs', Restarted fs fs' := by
  rcases good with before | ⟨ready,during⟩ | after
  · exact ⟨_,.completes (recover_nothing before.noJournal)⟩
  · obtain ⟨w,ran,_⟩ := recover_during hex ready during
    exact ⟨_,.completes ran⟩
  · exact ⟨_,.completes (recover_nothing after.noJournal)⟩

structure Staging (base : Fs) (tx : String) (documents rest : List Entry) (w : Work) : Prop where
  split : w.staged ++ rest = documents
  before : Before base w.fs
  seen : ∀ fs ∈ w.seen, Good base tx documents fs
  ready : Ready base w.staged
  files : ∀ entry ∈ w.staged, w.fs (Entry.stage tx entry) = some (.document entry)

structure GivenUp (base : Fs) (tx : String) (documents : List Entry) (w : Work) : Prop where
  refused : ¬Ready base documents
  before : Before base w.fs
  seen : ∀ fs ∈ w.seen, Good base tx documents fs

theorem stages_distinct (distinct : (places documents).Nodup) : (documents.map (Entry.stage tx)).Nodup := by
  unfold places at distinct
  rw [List.Nodup,pairwise_map] at distinct ⊢
  refine distinct.imp (fun differs same => differs ?_)
  obtain ⟨collection,id⟩ := stage_injective same
  exact Prod.ext collection id

theorem good_more {seen : List Fs} (goods : ∀ fs ∈ seen, Good base tx documents fs)
    (good : Good base tx documents fs) : ∀ other ∈ seen ++ [fs], Good base tx documents other := by
  grind only [mem_append,mem_singleton]

theorem writeText_run (path : Path) (content : Content) (w : Work) :
    writeText path content w = (.ok (),{ w with
      fs := update w.fs path (some content)
      seen := w.seen ++ [update w.fs path (some .empty)] ++ [update w.fs path (some content)] }) := by
  simp [writeText,andThen,change_run]

theorem stageDocument_stages (distinct : (places documents).Nodup) (entry : Entry) (rest : List Entry) :
    Triple (Staging base tx documents (entry :: rest)) (stageDocument tx entry)
      (fun _ => Staging base tx documents rest) (GivenUp base tx documents) := by
  intro w staging
  have member : entry ∈ documents := by rw [← staging.split]; simp
  by_cases good : wellFormedId (Entry.id entry) = true
  · have path : pathOf entry.1 (Entry.id entry) = .ok (Entry.target entry) := by simp [pathOf,good,Entry.target]
    rcases taken : w.fs (Entry.target entry) with _ | content
    · have hidden : visible (Entry.stage tx entry) = false := stage_hidden tx entry.1 (Entry.id entry)
      have runs : stageDocument tx entry w = (.ok (),{
          fs := update w.fs (Entry.stage tx entry) (some (.document entry))
          seen := w.seen ++ [update w.fs (Entry.stage tx entry) (some .empty)] ++
            [update w.fs (Entry.stage tx entry) (some (.document entry))]
          staged := w.staged ++ [entry] }) := by simp [stageDocument,andThen,path,present,taken,writeText_run]
      have empty := staging.before.hidden hidden (stage_ne_journal entry) (some .empty)
      have filled := staging.before.hidden hidden (stage_ne_journal entry) (some (.document entry))
      have fresh : ∀ other ∈ w.staged, Entry.stage tx other ≠ Entry.stage tx entry := by
        intro other member same
        have apart := @stages_distinct tx documents distinct
        rw [← staging.split,map_append,nodup_append] at apart
        exact apart.2.2 _ (mem_map_of_mem member) _ (mem_map_of_mem (mem_cons_self ..)) same
      refine returned_with runs ⟨?_,filled,good_more (good_more staging.seen (.inl empty)) (.inl filled),?_,?_⟩
      · simpa using staging.split
      · exact forall_mem_append.mpr ⟨staging.ready,
          forall_mem_singleton.mpr ⟨good,(staging.before.same _ (target_visible ..)).symm.trans taken⟩⟩
      grind only [mem_append,update_of_ne,staging.files,mem_singleton,update_self]
    · have runs : stageDocument tx entry w = (.error (.stateConflict (singular entry.1 ++ " already exists")),w) := by
        simp [stageDocument,andThen,path,present,taken]
      have old : base (Entry.target entry) = some content := (staging.before.same _ (target_visible ..)).symm.trans taken
      refine raised_with runs ⟨fun ready => ?_,staging.before,staging.seen⟩
      rw [(ready entry member).2] at old; cases old
  · have runs : stageDocument tx entry w = (.error (.valueError "invalid control-plane document id"),w) := by
      simp [stageDocument,andThen,pathOf,good]
    exact raised_with runs ⟨fun ready => good (ready entry member).1,staging.before,staging.seen⟩

structure Renaming (base : Fs) (tx : String) (documents rest : List Entry) (w : Work) : Prop where
  ready : Ready base documents
  during : During base tx documents w.fs
  seen : ∀ fs ∈ w.seen, Good base tx documents fs
  placed : ∀ entry ∈ documents, entry ∈ rest ∨ w.fs (Entry.target entry) = some (.document entry)
  files : ∀ entry ∈ rest, w.fs (Entry.stage tx entry) = some (.document entry)

theorem rename_places (distinct : (places documents).Nodup) {rest : List Entry}
    (part : ∃ done, done ++ entry :: rest = documents) : Triple (Renaming base tx documents (entry :: rest))
    (replace (Entry.stage tx entry) (Entry.target entry)) (fun _ => Renaming base tx documents rest)
    (fun _ => False) := by
  intro w moving
  obtain ⟨done,split⟩ := part
  have member : entry ∈ documents := by rw [← split]; simp
  have hidden : visible (Entry.stage tx entry) = false := stage_hidden tx entry.1 (Entry.id entry)
  have runs : replace (Entry.stage tx entry) (Entry.target entry) w = change (fun fs => update
      (update fs (Entry.stage tx entry) none) (Entry.target entry) (some (.document entry))) w := by
    simp [replace,moving.files entry (by simp)]
  have staged := moving.during.update (@stage_ne_journal tx entry)
    (fun shown => by rw [hidden] at shown; cases shown) none
  have during := staged.update (target_ne_journal entry) (fun _ => mem_map_of_mem member) (some (.document entry))
  have laterStages : ∀ other ∈ rest, Entry.stage tx other ≠ Entry.stage tx entry := by
    intro other later same
    have apart := @stages_distinct tx documents distinct
    rw [← split,map_append,nodup_append] at apart
    exact (nodup_cons.mp apart.2.1).1 (same ▸ mem_map_of_mem later)
  refine returned_with (runs.trans (change_run ..))
    ⟨moving.ready,during,good_more moving.seen (.inr (.inl ⟨moving.ready,during⟩)),?_,?_⟩
  all_goals grind only [Entry.target,inj_on_of_nodup_map,targets_distinct,update_self,
    mem_cons,Entry.stage,stage_ne_target,update_of_ne,cases Renaming,cases During]

theorem renames_place (distinct : (places documents).Nodup) (rest : List Entry) (part : ∃ done, done ++ rest = documents) :
    Triple (Renaming base tx documents rest)
      (forEach (fun entry => replace (Entry.stage tx entry) (Entry.target entry)) rest)
      (fun _ => Renaming base tx documents []) (fun _ => False) := by
  induction rest with
  | nil => exact fun w start => returned_with rfl start
  | cons entry rest ih =>
    obtain ⟨done,split⟩ := part
    exact triple_andThen (rename_places distinct ⟨done,split⟩) (fun _ => ih ⟨done ++ [entry],by simpa using split⟩)

structure Saved (base : Fs) (tx : String) (documents : List Entry) (w : Work) : Prop where
  ready : Ready base documents
  after : After base documents w.fs
  seen : ∀ fs ∈ w.seen, Good base tx documents fs

theorem removeJournal_saved (distinct : (places documents).Nodup) :
    Triple (Renaming base tx documents []) (remove journal)
      (fun _ => Saved base tx documents) (fun _ => False) := by
  intro w moving
  have removes : remove journal w = change (fun fs => update fs journal none) w := by
    simp [remove,TransactionJournal.unlink,moving.during.named]
  have after : After base documents (update w.fs journal none) := by
    refine ⟨update_self ..,fun path seen => ?_⟩
    have other : path ≠ journal := fun same => by rw [same] at seen; exact absurd seen (by decide)
    rw [update_of_ne other]
    by_cases own : path ∈ documents.map Entry.target
    · obtain ⟨entry,member,rfl⟩ := mem_map.mp own
      rcases moving.placed entry member with none | there
      · cases none
      · rw [there,withDocuments_target (targets_distinct distinct) member]
    · rw [withDocuments_other own]; exact moving.during.others path seen own
  exact returned_with (removes.trans (change_run ..)) ⟨moving.ready,after,good_more moving.seen (.inr (.inr after))⟩

theorem writeJournal_names {w : Work} (staging : Staging base tx documents [] w) :
    ∃ w', andThen (writeText journalTemp (.json (journalText tx documents)))
        (fun _ => replace journalTemp journal) w = (.ok (),w') ∧ Renaming base tx documents documents w' := by
  let text : Option Content := some (.json (journalText tx documents))
  let named := update (update (update w.fs journalTemp text) journalTemp none) journal text
  have staged : w.staged = documents := by simpa using staging.split
  have apart : journalTemp ≠ journal := by decide
  have ready : Ready base documents := staged ▸ staging.ready
  have empty := @Before.hidden base _ staging.before journalTemp (by decide) apart (some .empty)
  have filled := @Before.hidden base _ staging.before journalTemp (by decide) apart text
  have moved := @Before.hidden base _ filled journalTemp (by decide) apart none
  have during : During base tx documents named := by
    refine ⟨update_self ..,fun path seen _ => ?_⟩
    have other : path ≠ journal := fun same => by rw [same] at seen; exact absurd seen (by decide)
    exact (update_of_ne other ..).trans (moved.same path seen)
  have runs : andThen (writeText journalTemp (.json (journalText tx documents)))
      (fun _ => replace journalTemp journal) w = (.ok (),{
        fs := named
        seen := w.seen ++ [update w.fs journalTemp (some .empty)] ++ [update w.fs journalTemp text] ++
          [named]
        staged := w.staged }) := by
    rw [andThen_ok (writeText_run ..)]
    simp only [replace,update_self,change_run]
    rfl
  refine ⟨_,runs,ready,during,?_,fun entry member => .inl member,?_⟩
  · exact good_more (good_more (good_more staging.seen (.inl empty)) (.inl filled)) (.inr (.inl ⟨ready,during⟩))
  · intro entry member
    have outside : ∀ path : Path, path.dir = .root → Entry.stage tx entry ≠ path := by
      intro path atRoot same
      rw [← same] at atRoot; cases atRoot
    grind [journalTemp,cases Staging,cases Before]

theorem commit_saves (distinct : (places documents).Nodup) :
    Triple (Staging base tx documents []) (commit tx) (fun _ => Saved base tx documents)
      (GivenUp base tx documents) := by
  intro w staging
  have staged : w.staged = documents := by simpa using staging.split
  obtain ⟨w',named,begun⟩ := writeJournal_names staging
  obtain ⟨_,last,ran,saved⟩ := triple_returns
    (triple_andThen (renames_place distinct documents ⟨[],rfl⟩) (fun _ => removeJournal_saved distinct)) begun
  have runs : commit tx w = (.ok (),last) := by
    unfold commit
    rw [bind_run,andThen_ok (look_run _ _),staged]
    obtain ⟨_,mid,filling,renamed⟩ := andThen_returns named
    exact (andThen_ok filling).trans ((andThen_ok renamed).trans ran)
  exact returned_with runs saved

theorem clear_hidden {K : Fs → Prop}
    (keep : ∀ fs path, visible path = false → path ≠ journal → K fs → K (update fs path none))
    (good : ∀ fs, K fs → Good base tx documents fs) :
    Triple (fun w => K w.fs ∧ ∀ fs ∈ w.seen, Good base tx documents fs) (clear tx)
      (fun _ w => K w.fs ∧ ∀ fs ∈ w.seen, Good base tx documents fs) (fun _ => False) := by
  have removes : ∀ path, visible path = false → path ≠ journal →
      Triple (fun w => K w.fs ∧ ∀ fs ∈ w.seen, Good base tx documents fs) (TransactionJournal.unlink path)
        (fun _ w => K w.fs ∧ ∀ fs ∈ w.seen, Good base tx documents fs) (fun _ => False) := by
    intro path hidden other
    refine triple_change _ (fun w before => ?_)
    have kept := keep w.fs path hidden other before.1
    exact ⟨kept,good_more before.2 (good _ kept)⟩
  unfold clear
  refine triple_andThen (removes journalTemp (by decide) (by decide)) (fun _ => ?_)
  refine triple_andThen (triple_look Work.staged) (fun staged => ?_)
  refine triple_forEach (I := fun _ (w : Work) => K w.fs ∧ ∀ fs ∈ w.seen, Good base tx documents fs)
    (fun entry rest => ?_) staged
  exact removes _ (stage_hidden tx entry.1 (Entry.id entry)) (stage_ne_journal entry)

theorem saveMany_saves (distinct : (places documents).Nodup) :
    Triple (Staging base tx documents documents) (saveMany tx documents)
      (fun _ => Saved base tx documents) (GivenUp base tx documents) := by
  have commits := triple_andThen (triple_forEach (@stageDocument_stages base tx documents distinct) documents)
    (fun _ => commit_saves distinct)
  refine triple_ensure (triple_handle commits ?_) (fun _ => ?_) ?_
  · -- an error leaves no journal behind, so it is raised again without a recovery
    intro e w givenUp
    have left : present journal w = (.ok false,w) := by simp [present,givenUp.before.noJournal]
    exact raised_with (andThen_ok left) givenUp
  · intro w saved
    have cleared := @clear_hidden base tx documents (After base documents)
      (fun fs path hidden other after => after.hidden hidden other none) (fun fs after => .inr (.inr after))
    exact triple_weaken cleared (fun w' (same : w' = w) => same ▸ ⟨saved.after,saved.seen⟩)
      (fun _ w' kept => ⟨saved.ready,kept.1,kept.2⟩) (fun _ => id) w rfl
  · intro w givenUp
    have cleared := @clear_hidden base tx documents (Before base)
      (fun fs path hidden other before => before.hidden hidden other none) (fun fs before => .inl before)
    exact triple_weaken cleared (fun w' (same : w' = w) => same ▸ ⟨givenUp.before,givenUp.seen⟩)
      (fun _ w' kept => ⟨givenUp.refused,kept.1,kept.2⟩) (fun _ => id) w rfl

theorem staging_start (clean : base journal = none) : Staging base tx documents documents (start base) := by
  have before : Before base base := ⟨clean,fun _ _ => rfl⟩
  refine ⟨rfl,before,fun fs member => ?_,fun _ member => (by cases member),fun _ member => (by cases member)⟩
  rw [mem_singleton.mp member]
  exact .inl before

theorem crash_good (clean : base journal = none) (distinct : (places documents).Nodup) {crash : Fs}
    (crashed : crash ∈ crashes (saveMany tx documents) base) : Good base tx documents crash := by
  have saves := @saveMany_saves base tx documents distinct (start base) (staging_start clean)
  rcases ran : saveMany tx documents (start base) with ⟨r,w⟩
  rw [crashes,ran] at crashed
  cases r with
  | ok _ => exact (saves.1 () w ran).seen crash crashed
  | error e => exact (saves.2 e w ran).seen crash crashed

/-- However a process dies in `_save_many` and its successors in the recovery, a completed restart shows none of the
    bundle or all of it; all of it when the call had returned. -/
theorem bundle_all_or_nothing (clean : base journal = none) (hex : '/' ∉ tx.toList)
    (distinct : (places documents).Nodup) :
    (∀ crash ∈ crashes (saveMany tx documents) base, (∃ fs, Restarted crash fs) ∧
      ∀ fs, Restarted crash fs → SameVisible fs base ∨ SameVisible fs (withDocuments documents base)) ∧
    (∀ w, saveMany tx documents (start base) = (.ok (),w) →
      ∀ fs, Restarted w.fs fs → SameVisible fs (withDocuments documents base)) ∧
    (Ready base documents → ∃ w, saveMany tx documents (start base) = (.ok (),w)) := by
  have saves := @saveMany_saves base tx documents distinct (start base) (staging_start clean)
  refine ⟨fun crash crashed => ?_,fun w ran fs restarted => ?_,fun ready => ?_⟩
  · have good := crash_good clean distinct crashed
    exact ⟨restart_completes hex good,fun fs restarted => restart_good hex good restarted⟩
  · have saved := saves.1 () w ran
    rw [restart_settled restarted saved.after.noJournal]
    exact saved.after.same
  · rcases ran : saveMany tx documents (start base) with ⟨r,w⟩
    cases r with
    | ok _ => exact ⟨w,rfl⟩
    | error e => exact absurd ready (saves.2 e w ran).refused

def firstBundle : List Entry :=
  bundle { id := "task",title := "Task",createdAt := 0,updatedAt := 0 }
    { id := "run",taskId := "task",computerId := "laptop",createdAt := 0,updatedAt := 0 } []
def emptyDisk : Fs := fun _ => none

theorem firstBundle_all_or_nothing : ∃ w, saveMany "0f" firstBundle (start emptyDisk) = (.ok (),w) ∧
    ∀ fs, Restarted w.fs fs → SameVisible fs (withDocuments firstBundle emptyDisk) := by
  have atomic := @bundle_all_or_nothing emptyDisk "0f" firstBundle rfl (by decide) (by decide)
  have ready : Ready emptyDisk firstBundle := by
    intro entry member
    have names : ∀ entry ∈ firstBundle, wellFormedId (Entry.id entry) = true := by decide
    exact ⟨names entry member,rfl⟩
  obtain ⟨w,ran⟩ := atomic.2.2 ready
  exact ⟨w,ran,atomic.2.1 w ran⟩

def Shows (fs : Fs) (s : Docs) : Prop :=
  ∀ c id, fs (target c id) = (s.find c id).map (fun d => Content.document ⟨c,d⟩)

theorem Shows.same (shows : Shows fs s) (same : SameVisible fs' fs) : Shows fs' s :=
  fun c id => (same _ (target_visible c id)).trans (shows c id)

theorem Shows.put (shows : Shows fs s) (entry : Entry) :
    Shows (update fs (Entry.target entry) (some (.document entry)))
      (s.put entry.1 (Entry.id entry) entry.2) := by
  intro c id
  by_cases here : target c id = Entry.target entry
  · obtain ⟨rfl,rfl⟩ := target_injective here
    rw [here,update_self,find_put_self]; rfl
  · rw [update_of_ne here,shows c id]
    by_cases same : entry.1 = c
    · subst same
      have other : id ≠ Entry.id entry := fun equal => here (by rw [equal]; rfl)
      rw [find_put_id _ _ _ _ _ other]
    · rw [find_put_collection _ _ _ _ same]

theorem shows_putAll (shows : Shows fs s) (entries : List Entry) : Shows (withDocuments entries fs) (putAll s entries) := by
  induction entries generalizing fs s with
  | nil => exact shows
  | cons entry rest ih => exact ih (shows.put entry)

theorem ready_iff_untaken (shows : Shows base s) (named : ∀ entry ∈ documents, wellFormedId (Entry.id entry) = true) :
    Ready base documents ↔ taken s documents = none := by
  simp only [taken,find?_eq_none,Bool.not_eq_true,Option.isSome_eq_false_iff,Option.isNone_iff_eq_none]
  refine forall₂_congr (fun entry member => ?_)
  rw [Entry.target,shows,Option.map_eq_none_iff]
  exact ⟨fun ready => ready.2,fun untaken => ⟨named entry member,untaken⟩⟩

/-- Undisturbed, `_save_many` does what the abstract `create_task_run` does. -/
theorem saveMany_refines {task : CodeTask} {run : TaskRun} {workspaces : List ExecutionWorkspace} (shows : Shows base s)
    (clean : base journal = none) (named : ∀ entry ∈ bundle task run workspaces, wellFormedId (Entry.id entry) = true)
    (distinct : (places (bundle task run workspaces)).Nodup) :
    Shows (saveMany tx (bundle task run workspaces) (start base)).2.fs (createTaskRun .files task run workspaces s).2 ∧
      ((saveMany tx (bundle task run workspaces) (start base)).1 = .ok () ↔
        (createTaskRun .files task run workspaces s).1 = .ok (task,run,workspaces)) := by
  have saves := @saveMany_saves base tx _ distinct (start base) (staging_start clean)
  have ready := ready_iff_untaken shows named
  rcases ran : saveMany tx (bundle task run workspaces) (start base) with ⟨r,w⟩
  rcases free : taken s (bundle task run workspaces) with _ | entry
  · have made : createTaskRun .files task run workspaces s =
        (.ok (task,run,workspaces),putAll s (bundle task run workspaces)) := by simp [createTaskRun,free,distinct]
    rw [made]
    cases r with
    | ok _ => exact ⟨(shows_putAll shows _).same (saves.1 () w ran).after.same,by simp⟩
    | error e => exact absurd (ready.mpr free) (saves.2 e w ran).refused
  · have refused : createTaskRun .files task run workspaces s =
        (.error (.stateConflict (singular entry.1 ++ " already exists")),s) := by simp [createTaskRun,free]
    rw [refused]
    cases r with
    | ok _ =>
      have untaken := ready.mp (saves.1 () w ran).ready
      rw [free] at untaken; cases untaken
    | error e => exact ⟨shows.same (saves.2 e w ran).before.same,by simp⟩

theorem firstBundle_is_saved : (saveMany "0f" firstBundle (start emptyDisk)).1 = .ok () :=
  (saveMany_refines (s := Table.empty) (fun _ _ => rfl) rfl (by decide) (by decide)).2.mpr rfl

end

end Cowork.CrashAtomicity
