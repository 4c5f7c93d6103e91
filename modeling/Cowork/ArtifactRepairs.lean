import Cowork.ArtifactOperations

/-!
The life cycle of the repairs that are handed to the agent. A repair waits as `queued`
for the end of its turn and as `ready` for a decision; all other statuses are final. It
blocks a new repair of its path while it is queued on the newest revision, or ready with
its own as the newest (`Blocks`).
-/
namespace Cowork.ArtifactRevisions
open Coroutines List
open TextFiles (encode decode encode_decode)

theorem mem_putAll {change : Repair → Repair} {olds repairs : List Repair}
    (advances : ∀ old ∈ olds, Advances old (change old)) (distinct : (olds.map (·.id)).Nodup)
    (among : ∀ old ∈ olds, old ∈ repairs) (other : Repair) :
    other ∈ (olds.map change).foldl putRepair repairs ↔
      (∃ old ∈ olds, other = change old) ∨ other ∈ repairs ∧ ∀ old ∈ olds, other.id ≠ old.id := by
  induction olds generalizing repairs with
  | nil => simp
  | cons old rest ih =>
    obtain ⟨apart,distinct'⟩ := nodup_cons.1 distinct
    have id_eq := (advances old mem_cons_self).id_eq
    have members := fun other => @mem_putRepair repairs old (change old) other (among old mem_cons_self) id_eq
    have later : ∀ next ∈ rest, next.id ≠ old.id := fun next there same =>
      apart (mem_map.2 ⟨next,there,same⟩)
    have among' : ∀ next ∈ rest, next ∈ putRepair repairs (change old) := fun next there =>
      (members next).2 (.inr ⟨among next (mem_cons_of_mem old there),id_eq ▸ later next there⟩)
    rw [map_cons,foldl_cons,
      ih (fun next there => advances next (mem_cons_of_mem old there)) distinct' among',members other]
    grind only [mem_cons]

theorem eq_of_id {repairs : List Repair} (distinct : (repairs.map (·.id)).Nodup) {repair other : Repair}
    (there : repair ∈ repairs) (there' : other ∈ repairs) (same : repair.id = other.id) : repair = other :=
  inj_on_of_nodup_map distinct there there' same

section
variable {ι ε : Type} {setting : Setting ι ε} {digest : Digest} {still : String → Prop} {start : Folder}
  {F E : Folder → Prop} {path : String} {repairs : List Repair} (edits : Edits setting still)

include edits in
theorem does_writeRepair {old new : Repair} (lasts : Lasts still F) (there : ∀ folder, F folder → old ∈ folder.repairs)
    (advances : Advances old new) (after : ∀ folder, F folder → E (folder.writeRepair new)) :
    Does digest still start F (writeRepair setting new) fun _ => E :=
  does_write edits lasts (fun folder _ known => .advanced old new (there folder known) advances) after

include edits in
theorem does_writeRepairs {change : Repair → Repair} {olds : List Repair} (lasts : Lasts still F)
    (apart : ∀ folder repairs changes, F folder → F { folder with repairs := repairs, changes := changes })
    (advances : ∀ old ∈ olds, Advances old (change old)) (distinct : (olds.map (·.id)).Nodup)
    (among : ∀ old ∈ olds, old ∈ repairs) :
    Does digest still start (fun folder => F folder ∧ folder.repairs = repairs) (writeRepairs setting (olds.map change))
      fun _ folder => F folder ∧ folder.repairs = (olds.map change).foldl putRepair repairs := by
  induction olds generalizing repairs with
  | nil => exact does_ret fun _ _ => id
  | cons old rest ih =>
    obtain ⟨others,distinct'⟩ := nodup_cons.1 distinct
    have first := advances old mem_cons_self
    refine does_andThen (does_writeRepair
      (E := fun folder => F folder ∧ folder.repairs = putRepair repairs (change old)) edits
      (lasts.and fun _ _ _ known => known) (fun folder known => known.2 ▸ among old mem_cons_self) first
      fun folder known => ⟨apart folder _ _ known.1,congrArg (putRepair · (change old)) known.2⟩) fun _ => ?_
    refine ih (fun next there => advances next (mem_cons_of_mem old there)) distinct' fun next there => ?_
    grind only [mem_putRepair,mem_cons_self,first.id_eq,mem_cons_of_mem,mem_map]

theorem advances_conflict {repair : Repair} (queued : repair.status = .queued) :
    Advances repair { repair with status := .conflict } := by
  refine ⟨rfl,?_⟩
  show Status.conflict ∈ repair.status.next
  rw [queued]
  decide

theorem advances_finishQueued (matchingBase revisionId : Option Nat) {repair : Repair}
    (queued : repair.status = .queued) : Advances repair (finishQueued matchingBase revisionId repair) := by
  refine ⟨rfl,?_⟩
  show (if some repair.baseRevisionId ≠ matchingBase then Status.conflict
    else if revisionId.isSome then .ready else .noChange) ∈ repair.status.next
  rw [queued]
  split
  · decide
  · split <;> decide

theorem turnRepairs_queued {conversation : Option String} {repair : Repair}
    (there : repair ∈ turnRepairs conversation repairs) : repair.status = .queued := by
  have known := (mem_filter.1 there).2
  simp only [decide_eq_true_eq] at known
  exact known.1

theorem distinct_filter (distinct : (repairs.map (·.id)).Nodup) (p q : Repair → Bool) :
    (((repairs.filter p).filter q).map (·.id)).Nodup :=
  distinct.sublist ((filter_sublist.trans filter_sublist).map _)

include edits in
theorem does_finishTurn {revisions : List Revision} {bytes : Content} {queued : List Repair}
    (small : bytes.length ≤ maxSourceBytes) (waiting : ∀ repair ∈ queued, repair.status = .queued)
    (distinct : (queued.map (·.id)).Nodup) (among : ∀ repair ∈ queued, repair ∈ repairs) :
    Does digest still start
      (fun folder => (Holds still path bytes folder ∧ folder.manifest = revisions) ∧ folder.repairs = repairs)
      (finishTurn setting digest revisions path bytes queued) fun _ _ => True := by
  unfold finishTurn
  cases (latest revisions path).filter fun head => decide (head.contentHash = digest.sha bytes) with
  | some head =>
    refine does_andThen (does_writeRepairs edits (lasts_holds.and fun _ _ _ known => known) (fun _ _ _ known => known)
      (fun repair there => advances_finishQueued _ _ (waiting repair there)) distinct among) fun _ => ?_
    exact does_ret fun _ _ _ => trivial
  | none =>
    have appended : Does digest still start
        (fun folder => (Holds still path bytes folder ∧ folder.manifest = revisions) ∧ folder.repairs = repairs)
        (appendRevision setting digest revisions path bytes "Agent updated artifact".toList
          (headRevisionId revisions path) (answeredThreads (headRevisionId revisions path) queued))
        fun _ folder => Holds still path bytes folder ∧ folder.repairs = repairs :=
      does_weaken
        (does_appendRevision (F := fun folder => Holds still path bytes folder ∧ folder.repairs = repairs) edits
          (lasts_holds.and fun _ _ _ known => known) (fun _ _ _ _ _ known => known) (fun _ known => known) small
          fun folder known => known.1)
        (fun folder _ known => ⟨⟨known.1.1,known.2⟩,known.1.2⟩) fun result folder _ known => known.1
    refine does_andThen appended fun result => ?_
    refine does_andThen (does_writeRepairs edits lasts_holds (fun _ _ _ known => known)
      (fun repair there => advances_finishQueued _ _ (waiting repair there)) distinct among) fun _ => ?_
    exact does_ret fun _ _ _ => trivial

include edits in
theorem does_captureLocked {conversation : Option String} :
    Does digest still start (fun _ => True) (captureLocked setting digest conversation path) fun _ _ => True := by
  refine does_andThen (does_recover (K := fun _ => True) edits) fun _ => ?_
  refine does_andThen (does_readSource edits fun _ _ _ known => known) fun bytes => ?_
  refine does_known (fun folder _ known => known.2) fun small => ?_
  refine does_if (fun _ => does_raise) fun _ => ?_
  refine does_before (fun folder _ known => known.1.2) ?_
  refine does_andThen (does_read edits lasts_holds) fun revisions => ?_
  have lasts : Lasts still fun folder => Holds still path bytes folder ∧ folder.manifest = revisions :=
    lasts_holds.and fun _ _ _ known => known
  refine does_andThen (does_read edits lasts) fun repairs => ?_
  refine does_known (fun folder sound known => known.2 ▸ sound.repairsDistinct) fun distinct => ?_
  -- The records of other paths are written first, so the path's own are as they were read.
  have queued : ∀ {q : Repair → Bool}, ∀ repair ∈ (turnRepairs conversation repairs).filter q,
      repair.status = .queued := fun repair there => turnRepairs_queued (mem_filter.1 there).1
  have among : ∀ {q : Repair → Bool}, ∀ repair ∈ (turnRepairs conversation repairs).filter q, repair ∈ repairs :=
    fun repair there => (mem_filter.1 (mem_filter.1 there).1).1
  refine does_andThen (does_writeRepairs edits lasts (fun _ _ _ known => known)
    (fun repair there => advances_conflict (queued repair there)) (distinct_filter distinct _ _) among) fun _ => ?_
  have unwritten : ∀ repair ∈ (turnRepairs conversation repairs).filter fun repair => decide (repair.path = path),
      repair ∈ (((turnRepairs conversation repairs).filter fun repair => decide (repair.path ≠ path)).map
        fun repair => { repair with status := .conflict }).foldl putRepair repairs := by
    intro repair there
    refine (mem_putAll (fun repair there => advances_conflict (queued repair there)) (distinct_filter distinct _ _)
      among repair).2 (.inr ⟨among repair there,fun other astray same => ?_⟩)
    have one := eq_of_id distinct (among repair there) (among other astray) same
    subst one
    have here := (mem_filter.1 there).2
    have elsewhere := (mem_filter.1 astray).2
    simp only [decide_eq_true_eq] at here elsewhere
    exact elsewhere here
  exact does_finishTurn edits small queued (distinct_filter distinct _ _) unwritten

include edits in
theorem does_captureAgentRevision {conversation : Option String} (sound : Sound digest start) :
    Does digest still start (fun _ => True) (captureAgentRevision setting digest conversation path) fun _ _ => True :=
  ensures_handle (does_captureLocked edits) (ensures_ret fun _ moves => ⟨moves,sound_from sound moves,trivial⟩)
    ensures_stop

def Blocks (revisions : List Revision) (path : String) (repair : Repair) : Prop :=
  repair.path = path ∧ (repair.status = .queued ∧ headRevisionId revisions path = some repair.baseRevisionId ∨
    repair.status = .ready ∧ superseded revisions repair = false)

instance (revisions : List Revision) (path : String) (repair : Repair) : Decidable (Blocks revisions path repair) :=
  inferInstanceAs (Decidable (_ ∧ _))

def Expired (now : Int) (repair : Repair) : Prop :=
  repair.status = .queued ∧ queuedRepairTtl < now - repair.createdAt

theorem blocks_place {revisions : List Revision} (now : Int) {repair : Repair}
    (unfinished : repair.status = .queued → repair.revisionId = none) (blocks : Blocks revisions path repair) :
    place revisions path now repair = .blocking ∨
      place revisions path now repair = .dead .noChange ∧ Expired now repair := by
  grind [superseded,place,Expired,Blocks]

section
variable {revisions : List Revision}
  {now : Int}
  {repair : Repair}
  (dead : (place revisions path now repair).isDead = true)
include dead

theorem place_dead : repair.status = .queued ∧
      ((finishDead revisions path now repair).status = .conflict ∨
        (finishDead revisions path now repair).status = .noChange) := by grind only [finishDead,place,Place.isDead]

theorem advances_finishDead : Advances repair (finishDead revisions path now repair) := by
  obtain ⟨queued,finished⟩ := place_dead dead
  refine ⟨?_,?_⟩
  · unfold finishDead
    cases place revisions path now repair <;> rfl
  · rw [queued]
    rcases finished with is | is
    · rw [is]; decide
    · rw [is]; decide

end

theorem none_blocks {revisions : List Revision} {now : Int} (distinct : (repairs.map (·.id)).Nodup)
    (unfinished : ∀ repair ∈ repairs, repair.status = .queued → repair.revisionId = none)
    (free : ∀ repair ∈ repairs, place revisions path now repair ≠ .blocking) {other : Repair}
    (there : other ∈ ((deadRepairs revisions path now repairs).map (finishDead revisions path now)).foldl putRepair
      repairs) : ¬ Blocks revisions path other := by
  have dead : ∀ repair ∈ deadRepairs revisions path now repairs, (place revisions path now repair).isDead = true :=
    fun repair there => (mem_filter.1 there).2
  rcases (mem_putAll (fun repair there => advances_finishDead (dead repair there))
    (distinct.sublist (filter_sublist.map _)) (fun repair there => (mem_filter.1 there).1) other).1 there with
    ⟨old,among,rfl⟩ | ⟨among,apart⟩
  all_goals grind only [blocks_place,mem_filter,Blocks,finishDead,place,deadRepairs,Place.isDead]

/-- A created repair alone holds the path, and before it only expired repairs did. -/
structure Created (create : Create) (before : List Repair) (repair : Repair) (folder : Folder) : Prop where
  there : repair ∈ folder.repairs
  sole : ∀ other ∈ folder.repairs, Blocks folder.manifest create.path other ↔ other = repair
  expired : ∀ other ∈ before, Blocks folder.manifest create.path other → Expired create.now other

include edits in
theorem does_createAgentRepair {create : Create} {before : List Repair} :
    Does digest still start (OnRepairs (· = before)) (createAgentRepair setting digest create)
      fun repair folder => Created create before repair folder := by
  refine does_andThen (does_currentSource edits) fun result => ?_
  refine does_if (fun _ => does_raise) fun _ => ?_
  have lasts : Lasts still fun folder => OnRepairs (· = before) folder ∧
      Current setting digest still create.path result folder := lasts_onRepairs.and lasts_current
  refine does_andThen (does_read edits lasts) fun revisions => ?_
  refine does_andThen (does_read edits (lasts.and fun _ _ _ known => known)) fun repairs => ?_
  refine does_known (p := repairs = before ∧ (repairs.map (·.id)).Nodup ∧
    (∀ repair ∈ repairs, repair.status = .queued → repair.revisionId = none) ∧
      headRevisionId revisions create.path = some result.2.id) (fun folder sound known => ?_) fun facts => ?_
  · obtain ⟨⟨⟨same,current⟩,rfl⟩,rfl⟩ := known
    refine ⟨same,sound.repairsDistinct,sound.unfinished,?_⟩
    rw [headRevisionId,current.heads.latest]; rfl
  obtain ⟨rfl,distinct,unfinished,head⟩ := facts
  refine does_if (fun _ => does_raise) fun free => ?_
  have free : ∀ repair ∈ repairs, place revisions create.path create.now repair ≠ .blocking := by simpa using free
  refine does_before (fun folder _ known => ⟨known.1.2,known.2⟩) (does_andThen
    (does_writeRepairs (F := fun folder => folder.manifest = revisions) edits (fun _ _ _ known => known)
      (fun _ _ _ known => known) (fun repair there => advances_finishDead (mem_filter.1 there).2)
      (distinct.sublist (filter_sublist.map _)) fun repair there => (mem_filter.1 there).1) fun _ => ?_)
  refine does_fileOperation edits (fun _ _ _ known => known) (fun _ _ _ => .opened _ rfl rfl rfl)
    fun folder sound known => ?_
  have records := @putRepair_new folder.repairs (create.repair folder.minted result.2.id) fun other there =>
    Nat.ne_of_lt (sound.repairIds other there)
  have none := fun other there =>
    @none_blocks create.path repairs revisions create.now distinct unfinished free other there
  refine ⟨?_,?_,?_⟩
  · show _ ∈ putRepair folder.repairs _
    rw [records]; exact mem_append_right _ (mem_singleton_self _)
  · grind only [Blocks,mem_append,mem_singleton,Create.repair,Folder.mint,Folder.writeRepair]
  grind only [blocks_place,Folder.mint,Folder.writeRepair]

include edits in
theorem does_readRepair {id : Nat} : Does digest still start (OnRepairs (· = repairs)) (readRepair setting id)
    fun repair folder => OnRepairs (· = repairs) folder ∧ repair ∈ repairs ∧ repair.id = id := by
  refine does_andThen (does_read edits lasts_onRepairs) fun found => ?_
  grind only [does_raise,does_ret,find?_some,mem_of_find?_eq_some,OnRepairs]

include edits in
theorem does_cancelAgentRepair {id : Nat} {discardReady : Bool} :
    Does digest still start (OnRepairs (· = repairs)) (cancelAgentRepair setting id discardReady) fun _ _ => True := by
  refine does_andThen (does_readRepair edits) fun repair => ?_
  refine does_known (fun folder _ known => known.2.1) fun there => does_before (fun folder _ known => known.1) ?_
  have settles : ∀ status ∈ repair.status.next, Does digest still start (OnRepairs (· = repairs))
      (do
        writeRepair setting { repair with status := status }
        ret { repair with status := status } : Work ι ε Repair) fun _ _ => True := by
    intro status follows
    refine does_andThen (does_writeRepair (E := fun _ => True) edits lasts_onRepairs (fun folder known => ?_)
      ⟨rfl,follows⟩ fun _ _ => trivial) fun _ => does_ret fun _ _ _ => trivial
    have known : folder.repairs = repairs := known
    exact known ▸ there
  refine does_if (fun _ => does_ret fun _ _ _ => trivial) fun _ => ?_
  refine does_if (fun queued => settles .cancelled (by rw [queued]; decide)) fun _ => ?_
  refine does_if (fun ready => settles .discarded (by rw [ready.2]; decide)) fun _ => does_raise

include edits in
theorem does_releaseRepairsForComment {commentThreadId : String} :
    Does digest still start (fun _ => True) (releaseRepairsForComment setting commentThreadId) fun _ _ => True := by
  refine does_andThen (does_read edits fun _ _ _ known => known) fun repairs => ?_
  refine does_known (fun folder sound known => known.2 ▸ sound.repairsDistinct) fun distinct => ?_
  refine does_andThen (does_writeRepairs edits (fun _ _ _ known => known) (fun _ _ _ known => known)
    (fun repair there => ⟨rfl,?_⟩) (distinct.sublist (filter_sublist.map _))
    fun repair there => (mem_filter.1 there).1) fun _ => ?_
  · have waiting := (mem_filter.1 there).2
    simp only [decide_eq_true_eq] at waiting
    show Status.discarded ∈ repair.status.next
    rw [waiting.2]
    decide
  · exact does_ret fun _ _ _ => trivial

include edits in
theorem does_contentForRevision {revision : Revision} (lasts : Lasts still F) :
    Does digest still start F (contentForRevision setting digest revision) fun text folder =>
      F folder ∧ revision.contentHash = digest.sha (encode text) ∧ (encode text).length ≤ maxSourceBytes := by
  refine does_andThen (does_read edits lasts) fun blob => ?_
  cases decoded : blob.bind decode with
  | none => exact does_raise
  | some text =>
    obtain ⟨bytes,rfl,is⟩ := Option.bind_eq_some_iff.1 decoded
    refine does_ret fun folder _ known => ?_
    obtain ⟨hash,small⟩ := blob_hash known.2
    rw [encode_decode is]; exact ⟨known.1,hash.symm,small⟩

include edits in
theorem does_revisionWithContent {id : Nat} (lasts : Lasts still F) :
    Does digest still start F (revisionWithContent setting digest id) fun result folder =>
      F folder ∧ (result.1 ∈ folder.manifest ∧ result.1.id = id) ∧
        result.1.contentHash = digest.sha (encode result.2) ∧ (encode result.2).length ≤ maxSourceBytes := by
  refine does_andThen (does_read edits lasts) fun revisions => ?_
  cases named : revisions.find? fun revision => revision.id = id with
  | none => exact does_raise
  | some revision =>
    refine does_andThen (does_contentForRevision edits (lasts.and fun _ _ _ known => known)) fun text => ?_
    grind only [does_ret,find?_some,mem_of_find?_eq_some]

/-- The head of the path passes for the outcome of the repair's rejection. -/
def Restored (revisions : List Revision) (repair : Repair) : Prop :=
  ∃ current, latest revisions repair.path = some current ∧ alreadyRestored current repair = true

def VerdictFound {ι ε : Type} (setting : Setting ι ε) (digest : Digest) (still : String → Prop) (finalize : Finalize) :
    Verdict → Folder → Prop
  | .landed repair,_ => repair.status = finalize.decision.status
  | .settle repair,folder => repair.status = .ready ∧
      (finalize.decision = .rejected → Restored folder.manifest repair)
  | .restore repair commit,folder => repair.status = .ready ∧ Ready setting digest still commit folder ∧
      commit.path = repair.path ∧ ¬Restored folder.manifest repair ∧ ∃ base ∈ folder.manifest, base.id = repair.baseRevisionId ∧
        base.path = repair.path ∧ base.contentHash = digest.sha commit.bytes

def Verdict.repair : Verdict → Repair
  | .landed repair => repair
  | .settle repair => repair
  | .restore repair _ => repair

include edits in
theorem does_rejectRepair {finalize : Finalize} {revisions : List Revision} {text : List Char} {current : Revision}
    {repair : Repair} (ready : repair.status = .ready) (unrestored : ¬alreadyRestored current repair = true) :
    Does digest still start
      (fun folder => (OnRepairs (· = repairs) folder ∧ Current setting digest still repair.path (text,current) folder) ∧
        folder.manifest = revisions)
      (rejectRepair setting digest revisions text current repair finalize.expectedHead) fun verdict folder =>
        OnRepairs (· = repairs) folder ∧ verdict.repair = repair ∧
          VerdictFound setting digest still finalize verdict folder := by
  have lasts : Lasts still fun folder => (OnRepairs (· = repairs) folder ∧
      Current setting digest still repair.path (text,current) folder) ∧ folder.manifest = revisions :=
    (lasts_onRepairs.and lasts_current).and fun _ _ _ known => known
  refine does_if (fun _ => does_raise) fun _ => ?_
  refine does_andThen (does_revisionWithContent edits lasts) fun result => ?_
  refine does_if (fun _ => does_raise) fun consistent => ?_
  refine does_andThen (does_read edits (lasts.and fun _ _ _ known => known)) fun there => ?_
  refine does_if (fun _ => does_ret fun folder _ known => ?_) fun _ => does_raise
  obtain ⟨⟨⟨⟨same,found⟩,manifest⟩,⟨among,id⟩,hash,small⟩,_⟩ := known
  refine ⟨same,rfl,ready,⟨found.idle,manifest,⟨current,?_,rfl⟩,found.source,found.small,small⟩,rfl,?_,result.1,among,id,
    ?_,hash⟩
  · exact manifest ▸ found.heads
  · rintro ⟨head,newest,restored⟩
    rw [found.heads.latest] at newest
    cases newest; exact unrestored restored
  · exact not_not.1 consistent

include edits in
theorem does_beginFinalize {finalize : Finalize} :
    Does digest still start (OnRepairs (· = repairs)) (beginFinalize setting digest finalize) fun verdict folder =>
      (OnRepairs (· = repairs) folder ∧ verdict.repair ∈ repairs ∧ verdict.repair.id = finalize.id) ∧
        VerdictFound setting digest still finalize verdict folder := by
  refine does_andThen (does_readRepair edits) fun repair => ?_
  refine does_known (fun folder _ known => known.2) fun named => does_before (fun folder _ known => known.1) ?_
  refine does_if (fun landed => does_ret fun folder _ known => ⟨⟨known,named⟩,landed⟩) fun _ => ?_
  refine does_if (fun _ => does_raise) fun ready => ?_
  have ready : repair.status = .ready := not_not.1 ready
  refine does_andThen (does_currentSource edits) fun result => ?_
  refine does_if (fun restored => does_ret fun folder _ known => ?_) fun other => ?_
  · exact ⟨⟨known.1,named⟩,ready,fun _ => ⟨result.2,known.2.heads.latest,restored.2⟩⟩
  refine does_andThen (does_read edits (lasts_onRepairs.and lasts_current)) fun revisions => ?_
  cases decided : finalize.decision with
  | accepted => grind only [does_raise,does_ret,VerdictFound,acceptRepair,Verdict.repair]
  | rejected =>
    refine does_after (does_rejectRepair edits ready fun restored => other ⟨decided,restored⟩) fun verdict folder _ known => ?_
    exact ⟨⟨known.1,known.2.1 ▸ named⟩,known.2.2⟩

/-- From the folder `found` in which the call came to its verdict: a new rejection restored the revision that the repair
    was based on, or the head passed for its restoration, and the call left manifest and content as they were. -/
def Finalized (digest : Digest) (still : String → Prop) (finalize : Finalize) (before : List Repair) (repair : Repair)
    (found folder : Folder) : Prop :=
  ∃ old ∈ before, old.id = finalize.id ∧ repair = { old with status := finalize.decision.status } ∧
    (old.status = finalize.decision.status ∨ old.status = .ready ∧ (finalize.decision = .rejected →
      (Restored found.manifest old ∧ folder.manifest = found.manifest ∧
        (still old.path → folder.sources old.path = found.sources old.path)) ∨
      ¬Restored found.manifest old ∧ ∃ base ∈ folder.recorded, base.id = old.baseRevisionId ∧ base.path = old.path ∧
        ∃ bytes, base.contentHash = digest.sha bytes ∧ Holds still old.path bytes folder))

include edits in
theorem does_settleVerdict {finalize : Finalize} {verdict : Verdict} {found : Folder}
    (named : verdict.repair ∈ repairs ∧ verdict.repair.id = finalize.id)
    (reached : VerdictFound setting digest still finalize verdict found) :
    Does digest still start (fun folder => OnRepairs (· = repairs) folder ∧ folder = found)
      (settleVerdict setting digest finalize verdict)
      fun repair folder => Finalized digest still finalize repairs repair found folder := by
  have follows : verdict.repair.status = .ready → finalize.decision.status ∈ verdict.repair.status.next := by
    intro ready
    rw [ready]
    cases finalize.decision <;> decide
  cases verdict with
  | landed repair =>
    refine does_ret fun folder _ known => ⟨repair,named.1,named.2,?_,.inl reached⟩
    rw [← show repair.status = finalize.decision.status from reached]
  | settle repair =>
    have unmoved : Lasts still fun folder => OnRepairs (· = repairs) folder ∧ folder.manifest = found.manifest ∧
        (still repair.path → folder.sources repair.path = found.sources repair.path) := by
      intro edit folder loose known
      refine ⟨known.1,known.2.1,fun kept => ?_⟩
      rw [sources_edit_of_ne (fun same => loose (same ▸ kept))]
      exact known.2.2 kept
    refine does_before (fun folder _ known => ⟨known.1,known.2 ▸ rfl,fun _ => known.2 ▸ rfl⟩)
      (does_andThen (does_writeRepair (E := fun folder => folder.manifest = found.manifest ∧
          (still repair.path → folder.sources repair.path = found.sources repair.path)) edits unmoved
        (fun folder known => ?_) ⟨rfl,follows reached.1⟩ fun folder known => known.2) fun _ =>
        does_ret fun folder _ known => ?_)
    · have same : folder.repairs = repairs := known.1
      exact same ▸ named.1
    · exact ⟨repair,named.1,named.2,rfl,.inr ⟨reached.1,fun rejected => .inl ⟨reached.2 rejected,known⟩⟩⟩
  | restore repair commit =>
    obtain ⟨ready,begun,path,unrestored,base,among,id,own,hash⟩ := reached
    have committed : Does digest still start (fun folder => OnRepairs (· = repairs) folder ∧ folder = found)
        (commitSourceRevision setting digest commit) fun _ folder => (OnRepairs (· = repairs) folder ∧
          Noted [base] folder) ∧ Holds still commit.path commit.bytes folder := by
      refine does_weaken (does_commit edits [base])
        (fun folder sound known => ⟨⟨known.1,fun revision noted => ?_⟩,known.2 ▸ begun⟩)
        fun entry folder _ known => ⟨known.1,known.2.1⟩
      rw [mem_singleton.1 noted]; exact sound.mem_recorded (known.2 ▸ among)
    refine does_andThen committed fun entry => ?_
    have settled : Advances repair { repair with status := finalize.decision.status } := ⟨rfl,follows ready⟩
    refine does_andThen (does_writeRepair (E := fun folder => base ∈ folder.recorded ∧
        Holds still repair.path commit.bytes folder) edits
      ((lasts_onRepairs.and fun _ _ _ known => known).and lasts_holds) (fun folder known => ?_) settled
      fun folder known => ?_) fun _ => does_ret fun folder _ known => ?_
    · have same : folder.repairs = repairs := known.1.1
      exact same ▸ named.1
    · exact ⟨known.1.2 base (mem_singleton_self base),path ▸ known.2⟩
    · exact ⟨repair,named.1,named.2,rfl,.inr ⟨ready,fun _ => .inr ⟨unrestored,base,known.1,id,own,_,hash,known.2⟩⟩⟩

include edits in
theorem does_finalizeAgentRepair {finalize : Finalize} :
    Does digest still start (OnRepairs (· = repairs)) (finalizeAgentRepair setting digest finalize) fun _ _ => True := by
  refine does_andThen (does_beginFinalize edits) fun verdict => ?_
  intro asked folder script ended known
  exact does_after (does_settleVerdict edits known.fact.1.2 known.fact.2) (fun _ _ _ _ => trivial) asked folder script
    ended ⟨known.moves,known.sound,known.fact.1.1,rfl⟩

/-- How a decision came to its verdict, and what it did. -/
theorem finalize_returned (edits : Edits setting still) (sound : Sound digest start) {finalize : Finalize} {asked : Bool}
    {script : List (Signal ι ε)} {ended : Ended Folder ι ε Repair} {repair : Repair}
    (ran : finalizeAgentRepair setting digest finalize false asked start script = some ended)
    (exit : ended.exit = .returned repair) :
    ∃ verdict found asked' rest, beginFinalize setting digest finalize false asked start script =
        some ⟨.returned verdict,found,asked',rest⟩ ∧
      Finalized digest still finalize start.repairs repair found ended.state := by
  obtain ⟨verdict,found,asked',rest,begun,settled⟩ := andThen_returned ran exit
  have begins : Does digest still start (OnRepairs (· = start.repairs)) (beginFinalize setting digest finalize) _ :=
    does_beginFinalize edits
  have known := begins asked start script _ ⟨.refl,sound,rfl⟩ begun
  obtain ⟨⟨same,named⟩,reached⟩ := known.fact
  exact ⟨verdict,found,asked',rest,begun,
    (does_settleVerdict edits named reached).returned known.sound ⟨same,rfl⟩ settled exit⟩

include edits in
theorem perform_moves (sound : Sound digest start) (operation : Operation) {asked : Bool}
    {script : List (Signal ι ε)} {ended : Ended Folder ι ε Unit}
    (ran : perform setting digest operation false asked start script = some ended) :
    From digest still start ended.state := by
  have all : Does digest still start (OnRepairs (· = start.repairs)) (perform setting digest operation)
      fun _ _ => True := by
    cases operation with
    | inspect => exact does_after (does_recover edits) fun _ _ _ _ => trivial
    | current path => exact does_andThen (does_currentSource edits) fun _ => does_ret fun _ _ _ => trivial
    | save save => exact does_andThen (does_saveSource edits) fun _ => does_ret fun _ _ _ => trivial
    | capture conversation path =>
      exact does_before (fun _ _ _ => trivial)
        (does_andThen (does_captureAgentRevision edits sound) fun _ => does_ret fun _ _ _ => trivial)
    | create create => exact does_andThen (does_createAgentRepair edits) fun _ => does_ret fun _ _ _ => trivial
    | cancel id discardReady =>
      exact does_andThen (does_cancelAgentRepair edits) fun _ => does_ret fun _ _ _ => trivial
    | release commentThreadId =>
      exact does_before (fun _ _ _ => trivial)
        (does_andThen (does_releaseRepairsForComment edits) fun _ => does_ret fun _ _ _ => trivial)
    | finalize finalize => exact does_andThen (does_finalizeAgentRepair edits) fun _ => does_ret fun _ _ _ => trivial
  have known := all asked start script ended ⟨.refl,sound,rfl⟩ ran
  grind only [cases At]

include edits in
theorem step_moves {folder : Folder} (sound : Sound digest folder) (action : Action ι ε) :
    (∃ edit, action = .edit edit ∧ step setting digest folder action = edit.apply folder) ∨
      From digest still folder (step setting digest folder action) := by
  cases action <;> grind [step,perform_moves,From]

include edits in
theorem sound_step {folder : Folder} (sound : Sound digest folder) (action : Action ι ε) :
    Sound digest (step setting digest folder action) := by
  rcases step_moves edits sound action with ⟨edit,_,is⟩ | moves
  · rw [is]; exact { sound with }
  · exact sound_from sound moves

include edits in
theorem sound_reach {folder : Folder} (sound : Sound digest folder) (actions : List (Action ι ε)) :
    Sound digest (Transitions.reach (step setting digest) folder actions) :=
  @Transitions.always_reach _ _ (step setting digest) (Sound digest)
    (fun _ action sound => sound_step edits sound action) folder sound actions

def Status.Leads : Status → Status → Prop := Relation.ReflTransGen fun status next => next ∈ status.next

def Progress (folder later : Folder) : Prop :=
  ∀ repair ∈ folder.repairs, ∃ status revisionId,
    { repair with status := status, revisionId := revisionId } ∈ later.repairs ∧ repair.status.Leads status

theorem progress_refl (folder : Folder) : Progress folder folder :=
  fun repair there => ⟨repair.status,repair.revisionId,there,.refl⟩

theorem Progress.trans {folder later last : Folder} (first : Progress folder later) (second : Progress later last) :
    Progress folder last := by
  intro repair there
  obtain ⟨status,revisionId,among,leads⟩ := first repair there
  obtain ⟨status',revisionId',among',leads'⟩ := second _ among
  exact ⟨status',revisionId',among',leads.trans leads'⟩

theorem progress_move {folder folder' : Folder} (sound : Sound digest folder)
    (move : Move digest still folder folder') : Progress folder folder' := by
  cases move with
  | advanced old new there advances =>
    intro repair among
    by_cases same : repair.id = old.id
    · have one := eq_of_id sound.repairsDistinct among there same
      subst one
      refine ⟨new.status,new.revisionId,?_,.single advances.follows⟩
      rw [← advances.same]; exact (mem_putRepair there advances.id_eq).2 (.inl rfl)
    · refine ⟨repair.status,repair.revisionId,?_,.refl⟩
      exact (mem_putRepair there advances.id_eq).2 (.inr ⟨among,fun is => same (is.trans advances.id_eq)⟩)
  | opened repair own queued unfinished =>
    have records := @putRepair_new folder.repairs repair fun other there =>
      own ▸ Nat.ne_of_lt (sound.repairIds other there)
    intro other among
    refine ⟨other.status,other.revisionId,?_,.refl⟩
    show other ∈ putRepair folder.repairs repair
    rw [records]; exact mem_append_left _ among
  | edited | minted | stored | pruned | began | cleared | replaced | recorded => exact progress_refl folder

theorem progress_from {folder : Folder} (sound : Sound digest start) (moves : From digest still start folder) :
    Progress start folder := by
  induction moves with
  | refl => exact progress_refl start
  | tail before move ih => exact ih.trans (progress_move (sound_from sound before) move)

include edits in
theorem progress_step {folder : Folder} (sound : Sound digest folder) (action : Action ι ε) :
    Progress folder (step setting digest folder action) := by
  rcases step_moves edits sound action with ⟨edit,_,is⟩ | moves
  · rw [is]; exact progress_refl folder
  · exact progress_from sound moves

include edits in
theorem progress_reach {folder : Folder} (sound : Sound digest folder) (actions : List (Action ι ε)) :
    Progress folder (Transitions.reach (step setting digest) folder actions) := by
  induction actions generalizing folder with
  | nil => exact progress_refl folder
  | cons action rest ih => exact (progress_step edits sound action).trans (ih (sound_step edits sound action))

/-- Every write over a repair's record follows the order of the statuses, and records stay; a repair that is created
    holds its path alone but for expired ones; a newly rejected one has its base content restored, unless the head
    passed for such a restoration already. -/
theorem repairs_keep_their_order (edits : Edits setting still) (sound : Sound digest start)
    (actions : List (Action ι ε)) :
    (∀ change ∈ (Transitions.reach (step setting digest) start actions).changes, Advances change.1 change.2) ∧
    (∀ later, Progress (Transitions.reach (step setting digest) start actions)
      (Transitions.reach (step setting digest) start (actions ++ later))) ∧
    (∀ create script ended repair,
      createAgentRepair setting digest create false false (Transitions.reach (step setting digest) start actions)
        script = some ended → ended.exit = .returned repair →
      Created create (Transitions.reach (step setting digest) start actions).repairs repair ended.state) ∧
    ∀ finalize script ended repair,
      finalizeAgentRepair setting digest finalize false false (Transitions.reach (step setting digest) start actions)
        script = some ended → ended.exit = .returned repair →
      ∃ verdict found asked rest,
        beginFinalize setting digest finalize false false (Transitions.reach (step setting digest) start actions) script =
          some ⟨.returned verdict,found,asked,rest⟩ ∧
        Finalized digest still finalize (Transitions.reach (step setting digest) start actions).repairs repair found
          ended.state := by
  have sound' := sound_reach edits sound actions
  refine ⟨sound'.changes,fun later => ?_,?_,?_⟩
  · rw [Transitions.reach_append]; exact progress_reach edits sound' later
  · intro create script ended repair ran exit
    exact (does_createAgentRepair edits).returned sound' rfl ran exit
  · intro finalize script ended repair ran exit; exact finalize_returned edits sound' ran exit

end

/-- Two repairs for one comment: the first one's revision 2 is left undecided and saved over, the second is made on
    that save and ready with revision 5. The owner rejects the first, with the head they see. -/
def twoRepairs : List (Action Answer Empty) :=
  let create (expected : Nat) : Operation := .create ⟨"report.md",expected,"thread","conversation",0⟩
  let capture : Operation := .capture (some "conversation") "report.md"
  [.call (.current "report.md") (allDone 9),.call (create 0) (allDone 9),.edit (overwrite "first"),
    .call capture (allDone 15),.call (.save (saveOf "mine" 2)) (allDone 20),.call (create 3) (allDone 9),
    .edit (overwrite "second"),.call capture (allDone 15),.call (.finalize ⟨1,.rejected,some 5⟩) (allDone 25)]

theorem twoRepairs_keep_order :
    Created ⟨"report.md",6,"other","conversation",1⟩
      (Transitions.reach (step undisturbed plain) draft twoRepairs).repairs
      ⟨7,"report.md",6,"other",some "conversation",.queued,none,0⟩
      ((createAgentRepair undisturbed plain ⟨"report.md",6,"other","conversation",1⟩ false false
        (Transitions.reach (step undisturbed plain) draft twoRepairs) (allDone 9)).get (by decide +kernel)).state :=
  (repairs_keep_their_order (edits_undisturbed fun _ => True) (sound_fresh plain _) twoRepairs).2.2.1 _ _ _ _
    (Option.some_get _).symm (by decide +kernel)

/-- Rejecting the second repair, based on "mine", leaves the "old" that the first rejection restored. And a repair is
    created while another, an hour old, is queued on the head. -/
theorem second_rejection_restores_nothing :
    ((finalizeAgentRepair undisturbed plain ⟨4,.rejected,none⟩ false false
      (Transitions.reach (step undisturbed plain) draft twoRepairs) (allDone 9)).map fun ended =>
        (ended.exit,(ended.state.manifest.filter fun revision => revision.id = 3).map (·.contentHash),
          ended.state.sources "report.md")) =
      some (.returned ⟨4,"report.md",3,"thread",some "conversation",.rejected,some 5,0⟩,["mine"],
        some (encode "old".toList)) ∧
    let folder := Transitions.reach (step undisturbed plain) draft
      [.call (.current "report.md") (allDone 9),.call (.create ⟨"report.md",0,"thread","conversation",0⟩) (allDone 9)]
    (∃ repair ∈ folder.repairs, Blocks folder.manifest "report.md" repair) ∧
      ((createAgentRepair undisturbed plain ⟨"report.md",0,"thread","conversation",3600000001⟩ false false folder
        (allDone 9)).map (·.exit)) =
        some (.returned ⟨2,"report.md",0,"thread",some "conversation",.queued,none,3600000000⟩) := by decide +kernel

end Cowork.ArtifactRevisions
