import Cowork.ArtifactMoves

/-!
What each operation on an artifact does, function by function. A specification (`Does`)
says which facts on the folder a function needs and which it leaves when it returns;
whichever way it ends, it has made moves only.
-/
namespace Cowork.ArtifactRevisions
open Coroutines List
open TextFiles (encode decode encode_decode)

def Edits {ι ε : Type} (setting : Setting ι ε) (still : String → Prop) : Prop :=
  ∀ e, ∃ edit : Edit, setting.outside e = edit.apply ∧ ¬ still edit.path

def Lasts (still : String → Prop) (F : Folder → Prop) : Prop :=
  ∀ (edit : Edit) (folder : Folder), ¬ still edit.path → F folder → F (edit.apply folder)

def Holds (still : String → Prop) (path : String) (bytes : Content) (folder : Folder) : Prop :=
  still path → folder.sources path = some bytes

def Reliable {ι ε : Type} (setting : Setting ι ε) : Prop := ∀ i, setting.answer i = .done

def Idle {ι ε : Type} (setting : Setting ι ε) (folder : Folder) : Prop := Reliable setting → folder.pending = none

abbrev Listed (F : Folder → Prop) (revisions : List Revision) (folder : Folder) : Prop :=
  F folder ∧ folder.manifest = revisions

/-- An operation that began in `start` has come to `folder`, where a fact holds. -/
structure At (digest : Digest) (still : String → Prop) (start : Folder) (F : Folder → Prop) (folder : Folder) :
    Prop where
  moves : From digest still start folder
  sound : Sound digest folder
  fact : F folder

/-- Part of an operation that began in `start`: it begins with `F`, leaves `G` when it returns, and has only made
    moves. -/
def Does {ι ε α : Type} (digest : Digest) (still : String → Prop) (start : Folder) (F : Folder → Prop)
    (body : Work ι ε α) (G : α → Folder → Prop) : Prop :=
  Ensures false (At digest still start F) body (fun a => At digest still start (G a)) (From digest still start)
    (From digest still start)

section
variable {ι ε α β : Type} {setting : Setting ι ε} {digest : Digest} {still : String → Prop} {start : Folder}
  {F E : Folder → Prop} {G G' : α → Folder → Prop} {H : β → Folder → Prop} {body : Work ι ε α} {path : String}
  {bytes : Content} {revisions : List Revision}

theorem lasts_holds : Lasts still (Holds still path bytes) := by grind only [sources_edit_of_ne,Lasts,Holds]

theorem Lasts.and (first : Lasts still F) (second : Lasts still E) : Lasts still fun folder => F folder ∧ E folder :=
  fun edit folder loose known => ⟨first edit folder loose known.1,second edit folder loose known.2⟩

theorem At.move {folder folder' : Folder} (known : At digest still start F folder)
    (move : Move digest still folder folder') (fact : E folder') : At digest still start E folder' :=
  ⟨known.moves.tail move,sound_move known.sound move,fact⟩

theorem does_weaken (does : Does digest still start F body G)
    (before : ∀ folder, Sound digest folder → E folder → F folder)
    (after : ∀ a folder, Sound digest folder → G a folder → G' a folder) : Does digest still start E body G' :=
  ensures_weaken does (fun folder known => ⟨known.moves,known.sound,before folder known.sound known.fact⟩)
    (fun a folder known => ⟨known.moves,known.sound,after a folder known.sound known.fact⟩) (fun _ => id) fun _ => id

theorem does_before (before : ∀ folder, Sound digest folder → E folder → F folder)
    (does : Does digest still start F body G) : Does digest still start E body G :=
  does_weaken does before fun _ _ _ => id

theorem does_after (does : Does digest still start F body G)
    (after : ∀ a folder, Sound digest folder → G a folder → G' a folder) : Does digest still start F body G' :=
  does_weaken does (fun _ _ => id) after

theorem does_ret {a : α} (after : ∀ folder, Sound digest folder → F folder → G a folder) :
    Does digest still start F (ret a : Work ι ε α) G :=
  ensures_ret fun folder known => ⟨known.moves,known.sound,after folder known.sound known.fact⟩

theorem does_raise : Does digest still start F (raise : Work ι ε α) G :=
  ensures_raise fun _ known => known.moves

theorem does_andThen {next : α → Work ι ε β} (first : Does digest still start F body G)
    (then' : ∀ a, Does digest still start (G a) (next a) H) : Does digest still start F (body >>= next) H :=
  ensures_andThen first then'

theorem does_known {p : Prop} (known : ∀ folder, Sound digest folder → F folder → p)
    (does : p → Does digest still start F body G) : Does digest still start F body G :=
  fun asked folder script ended here ran =>
    does (known folder here.sound here.fact) asked folder script ended here ran

theorem does_if {c : Prop} [Decidable c] {other : Work ι ε α} (yes : c → Does digest still start F body G)
    (no : ¬ c → Does digest still start F other G) : Does digest still start F (if c then body else other) G := by
  by_cases condition : c
  · rw [if_pos condition]; exact yes condition
  · rw [if_neg condition]; exact no condition

theorem does_onlyIf {c : Prop} [Decidable c] {body : Work ι ε Unit}
    (yes : c → Does digest still start F body fun _ => E)
    (no : ¬ c → ∀ folder, F folder → E folder) : Does digest still start F (onlyIf c body) fun _ => E :=
  does_if yes fun skipped => does_ret fun folder _ known => no skipped folder known

theorem does_mint {G : Nat → Folder → Prop}
    (after : ∀ folder, Sound digest folder → F folder → G folder.minted folder.mint) :
    Does digest still start F (mint : Work ι ε Nat) G :=
  ensures_act _ fun folder known => known.move .minted (after folder known.sound known.fact)

theorem Does.returned (does : Does digest still start F body G) (sound : Sound digest start) (fact : F start)
    {asked : Bool} {script : List (Signal ι ε)} {ended : Ended Folder ι ε α} {a : α}
    (ran : body false asked start script = some ended) (exit : ended.exit = .returned a) : G a ended.state := by
  have known := does asked start script ended ⟨.refl,sound,fact⟩ ran
  rw [exit] at known
  exact known.fact

theorem edits_undisturbed (still : String → Prop) : Edits undisturbed still := fun event => event.elim

variable (edits : Edits setting still)

include edits in
theorem ensures_fileOperation {f : Folder → α × Folder} {R : α → Folder → Prop} (lasts : Lasts still F)
    (after : ∀ folder, At digest still start F folder → R (f folder).1 (f folder).2) :
    Ensures false (At digest still start F) (fileOperation setting f) R
      (At digest still start fun folder => F folder ∧ ¬ Reliable setting) (At digest still start F) := by
  refine ensures_wait ?_ ?_ ?_ ?_ ?_
  · intro e folder known
    obtain ⟨edit,is,loose⟩ := edits e
    rw [is]; exact known.move (.edited edit loose) (lasts edit folder loose known.fact)
  · grind only
  · intro folder i folder' known replied
    cases is : setting.answer i <;> rw [is] at replied <;> cases replied
    refine ⟨known.moves,known.sound,known.fact,fun reliable => ?_⟩
    rw [reliable i] at is; cases is
  all_goals grind

include edits in
theorem does_read {f : Folder → α} (lasts : Lasts still F) :
    Does digest still start F (read setting f) fun a folder => F folder ∧ f folder = a :=
  ensures_weaken
    (ensures_fileOperation edits lasts fun _ known => ⟨known.moves,known.sound,known.fact,rfl⟩)
    (fun _ => id) (fun _ _ => id) (fun _ known => known.moves) fun _ known => known.moves

include edits in
theorem does_fileOperation {f : Folder → α × Folder} (lasts : Lasts still F)
    (move : ∀ folder, Sound digest folder → F folder → Move digest still folder (f folder).2)
    (after : ∀ folder, Sound digest folder → F folder → G (f folder).1 (f folder).2) :
    Does digest still start F (fileOperation setting f) G :=
  ensures_weaken
    (ensures_fileOperation (R := fun a => At digest still start (G a)) edits lasts fun folder known =>
      known.move (move folder known.sound known.fact) (after folder known.sound known.fact))
    (fun _ => id) (fun _ _ => id) (fun _ known => known.moves) fun _ known => known.moves

include edits in
theorem does_write {f : Folder → Folder} (lasts : Lasts still F)
    (move : ∀ folder, Sound digest folder → F folder → Move digest still folder (f folder))
    (after : ∀ folder, F folder → E (f folder)) : Does digest still start F (write setting f) fun _ => E :=
  does_fileOperation edits lasts move fun folder _ known => after folder known

include edits in
theorem does_clearPending (lasts : Lasts still F) (after : ∀ folder, F folder → F folder.clearPending) :
    Does digest still start F (clearPending setting) fun _ folder => F folder ∧ Idle setting folder :=
  ensures_handle
    (ensures_fileOperation (R := fun _ => At digest still start fun folder => F folder ∧ Idle setting folder) edits
      lasts fun folder known => known.move .cleared ⟨after folder known.fact,fun _ => rfl⟩)
    (ensures_ret fun _ known => ⟨known.moves,known.sound,known.fact.1,fun reliable => absurd reliable known.fact.2⟩)
    (ensures_before (fun _ known => known.moves) ensures_stop)

include edits in
theorem does_pruneJournalFolder (lasts : Lasts still F)
    (after : ∀ folder keep gone, F folder → F (folder.removeBlobs keep gone)) :
    Does digest still start (Listed F revisions)
      (swallow (pruneJournalFolder setting (revisions.map (·.contentHash))))
      fun _ => Listed F revisions := by
  have removes : ∀ folder gone, At digest still start (Listed F revisions) folder →
      At digest still start (Listed F revisions)
        (folder.removeBlobs (revisions.map (·.contentHash)) gone) := by
    intro folder gone known
    refine known.move ?_ ⟨after folder _ gone known.fact.1,known.fact.2⟩
    rw [← known.fact.2]; exact .pruned gone
  have pruned : Ensures false (At digest still start (Listed F revisions))
      (pruneJournalFolder setting (revisions.map (·.contentHash)))
      (fun _ => At digest still start (Listed F revisions))
      (At digest still start (Listed F revisions))
      (At digest still start (Listed F revisions)) := by
    refine ensures_wait ?_ ?_ ?_ ?_ ?_
    · intro e folder known
      obtain ⟨edit,is,loose⟩ := edits e
      rw [is]
      exact known.move (.edited edit loose) ⟨lasts edit folder loose known.fact.1,known.fact.2⟩
    · grind only
    · grind only
    · intro folder i folder' known replied
      generalize setting.answer i = answer at replied
      cases answer <;> cases replied
    · exact fun _ folder known => known
  exact ensures_handle pruned (ensures_ret fun _ => id) (ensures_before (fun _ known => known.moves) ensures_stop)

theorem source_known {folder : Folder} (found : folder.source path = some bytes) :
    folder.sources path = some bytes ∧ bytes.length ≤ maxSourceBytes := by
  obtain ⟨there,small⟩ := Option.filter_eq_some_iff.1 found
  exact ⟨there,by simpa using small⟩

include edits in
theorem does_readSource (lasts : Lasts still F) :
    Does digest still start F (readSource setting path)
      fun bytes folder => (F folder ∧ Holds still path bytes folder) ∧ bytes.length ≤ maxSourceBytes := by
  refine does_andThen (does_read edits lasts) fun found => ?_
  grind only [does_raise,does_ret,source_known,Holds,Folder.source]

include edits in
theorem does_replaceSource (lasts : Lasts still F)
    (under : ∀ folder, F folder → ∃ pending, folder.pending = some pending ∧ pending.path = path ∧
      pending.revision.contentHash = digest.sha bytes)
    (after : ∀ folder, F folder → E (folder.replaceSource path bytes)) :
    Does digest still start F (replaceSource setting path bytes) fun _ => E := by
  refine does_andThen (does_read edits lasts) fun there => ?_
  refine does_before (fun folder _ known => known.1) (does_if (fun _ => ?_) fun _ => does_raise)
  refine does_write edits lasts (fun folder _ fact => ?_) after
  obtain ⟨pending,here,rfl,hash⟩ := under folder fact
  exact .replaced pending bytes here hash

include edits in
theorem does_storeBlob (lasts : Lasts still F) (small : bytes.length ≤ maxSourceBytes)
    (after : ∀ folder, F folder → F (folder.storeBlob (digest.sha bytes) bytes)) :
    Does digest still start F (storeBlob setting digest bytes)
      fun _ folder => F folder ∧ folder.blob digest (digest.sha bytes) = some bytes := by
  refine does_andThen (does_read edits lasts) fun found => ?_
  cases found with
  | some other =>
    refine does_ret fun folder _ known => ?_
    have same : other = bytes := digest.injective (blob_hash known.2).1
    exact ⟨known.1,same ▸ known.2⟩
  | none =>
    refine does_before (fun folder _ known => known.1) ?_
    exact does_write edits lasts (fun folder _ _ => .stored bytes small) fun folder fact =>
      ⟨after folder fact,blob_stored folder small⟩

def Apart (F : Folder → Prop) : Prop :=
  ∀ folder blobs manifest recorded, (∀ revision ∈ folder.recorded, revision ∈ recorded) → F folder →
    F { folder with blobs := blobs, manifest := manifest, recorded := recorded }

theorem Apart.blobs (apart : Apart F) {folder : Folder} (blobs : String → Option Content) (fact : F folder) :
    F { folder with blobs := blobs } :=
  apart folder blobs folder.manifest folder.recorded (fun _ => id) fact

/-- What `_persist_revision` returns for an entry with an id of its own. -/
def persisted (revisions : List Revision) (entry : Revision) : Revision × List Revision :=
  (numbered revisions entry,newest (revisions ++ [numbered revisions entry]))

include edits in
theorem does_persistRevision {entry : Revision} (lasts : Lasts still F) (apart : Apart F)
    (small : bytes.length ≤ maxSourceBytes)
    (own : ∀ folder, F folder →
      entry.id < folder.minted ∨ ∃ pending, folder.pending = some pending ∧ pending.revision.id = entry.id)
    (source : ∀ folder, F folder → Holds still entry.path bytes folder) :
    Does digest still start (Listed F revisions)
      (persistRevision setting digest revisions entry bytes) fun result folder =>
        F folder ∧ folder.manifest = result.2 ∧
          ((∃ revision ∈ revisions, revision.id = entry.id) ∨ result = persisted revisions entry) := by
  have lasts' : Lasts still (Listed F revisions) :=
    lasts.and fun _ _ _ known => known
  refine does_if (fun _ => does_raise) fun valid => ?_
  have hash : entry.contentHash = digest.sha bytes := not_not.1 valid
  refine does_andThen (does_storeBlob edits lasts' small fun _ known => ⟨apart.blobs _ known.1,known.2⟩) fun _ => ?_
  cases found : revisions.find? fun item => item.id = entry.id with
  | some existing => grind only [does_ret,mem_of_find?_eq_some,find?_some]
  | none =>
    have new : ∀ revision ∈ revisions, revision.id ≠ entry.id := by simpa using find?_eq_none.1 found
    obtain ⟨number,same⟩ := numbered_same revisions entry
    have written : Does digest still start
        (fun folder => (F folder ∧ folder.manifest = revisions) ∧ folder.blob digest (digest.sha bytes) = some bytes)
        (write setting fun folder => folder.writeManifest (persisted revisions entry).2 (persisted revisions entry).1)
        fun _ folder => F folder ∧ folder.manifest = (persisted revisions entry).2 := by
      refine does_write edits (lasts'.and fun _ _ _ known => known) (fun folder sound known => ?_) fun folder known =>
        ⟨apart folder _ _ _ (fun _ => mem_append_left _) known.1.1,rfl⟩
      obtain ⟨⟨fact,there⟩,blob⟩ := known
      subst there
      refine .recorded (numbered folder.manifest entry) bytes ?_ blob ?_ (numbered_above sound.numbers entry) ?_ ?_
      · rw [same]; exact hash
      · rw [same]; exact new
      · rw [same]; exact own folder fact
      · rw [same]; exact source folder fact
    refine does_andThen written fun _ => ?_
    refine does_andThen (does_onlyIf (fun _ => does_pruneJournalFolder edits lasts fun folder keep gone fact =>
      apart.blobs _ fact) fun _ _ => id) fun _ => ?_
    exact does_ret fun folder _ known => ⟨known.1,known.2,.inr rfl⟩

structure Heads (digest : Digest) (path : String) (bytes : Content) (head : Revision) (revisions : List Revision) :
    Prop where
  latest : latest revisions path = some head
  hash : head.contentHash = digest.sha bytes

theorem heads_persisted {entry : Revision} (hash : entry.contentHash = digest.sha bytes) :
    Heads digest entry.path bytes (persisted revisions entry).1 (persisted revisions entry).2 := by
  obtain ⟨number,same⟩ := numbered_same revisions entry
  obtain ⟨older,kept,_,cut,_⟩ := newest_append revisions (numbered revisions entry)
  refine ⟨?_,?_⟩
  all_goals grind only [latest_append,persisted]

include edits in
theorem does_appendRevision {summary : List Char} {base : Option Nat} {threads : List String} (lasts : Lasts still F)
    (apart : Apart F) (minted : ∀ folder, F folder → F folder.mint) (small : bytes.length ≤ maxSourceBytes)
    (source : ∀ folder, F folder → Holds still path bytes folder) :
    Does digest still start (Listed F revisions)
      (appendRevision setting digest revisions path bytes summary base threads) fun result folder =>
        F folder ∧ folder.manifest = result.2 ∧ Heads digest path bytes result.1 result.2 := by
  refine does_andThen
    (G := fun id folder => ((F folder ∧ id < folder.minted) ∧ folder.manifest = revisions) ∧
      ∀ revision ∈ revisions, revision.id ≠ id)
    (does_mint fun folder sound known => ⟨⟨⟨minted folder known.1,Nat.lt_succ_self _⟩,known.2⟩,?_⟩) fun id => ?_
  · intro revision there
    have earlier := sound.ids revision (known.2 ▸ there)
    omega
  · refine does_known (fun folder _ known => known.2) fun new => ?_
    refine does_weaken
      (does_persistRevision edits (F := fun folder => F folder ∧ id < folder.minted)
        (lasts.and fun _ _ _ known => known)
        (fun folder blobs manifest recorded grown known => ⟨apart folder blobs manifest recorded grown known.1,known.2⟩)
        small (fun folder known => .inl known.2) fun folder known => source folder known.1)
      (fun folder _ known => known.1) fun result folder _ known => ?_
    obtain ⟨⟨fact,_⟩,manifest,⟨revision,there,same⟩ | rfl⟩ := known
    · exact absurd same (new revision there)
    · have heads := @heads_persisted digest bytes revisions
        (newRevision digest revisions id path bytes summary base threads) rfl
      exact ⟨fact,manifest,heads⟩

include edits in
theorem does_captured {summary : List Char} (lasts : Lasts still F) (apart : Apart F)
    (minted : ∀ folder, F folder → F folder.mint) (small : bytes.length ≤ maxSourceBytes)
    (source : ∀ folder, F folder → Holds still path bytes folder) :
    Does digest still start (Listed F revisions)
      (captured setting digest revisions path bytes summary) fun result folder =>
        F folder ∧ folder.manifest = result.2 ∧ Heads digest path bytes result.1 result.2 := by
  unfold captured
  cases found : latest revisions path with
  | none => exact does_appendRevision edits lasts apart minted small source
  | some head =>
    refine does_if (fun same => ?_) fun _ => does_appendRevision edits lasts apart minted small source
    exact does_ret fun folder _ known => ⟨known.1,known.2,found,same⟩

def OnRepairs (K : List Repair → Prop) (folder : Folder) : Prop := K folder.repairs

variable {K : List Repair → Prop}

theorem lasts_onRepairs : Lasts still (OnRepairs K) := fun _ _ _ known => known

include edits in
theorem does_completePending {pending : Pending} {current : Content} (valid : pending.revision.path = pending.path)
    (small : bytes.length ≤ maxSourceBytes) (hash : digest.sha bytes = pending.revision.contentHash)
    (possible : digest.sha current = pending.beforeContentHash ∨ digest.sha current = pending.revision.contentHash) :
    Does digest still start
      (fun folder => ((OnRepairs K folder ∧ folder.pending = some pending) ∧ Holds still pending.path current folder) ∧
        folder.manifest = revisions)
      (completePending setting digest pending bytes current revisions)
      fun _ folder => OnRepairs K folder ∧ Idle setting folder := by
  have under : Does digest still start
      (fun folder => ((OnRepairs K folder ∧ folder.pending = some pending) ∧ Holds still pending.path current folder) ∧
        folder.manifest = revisions)
      (onlyIf (digest.sha current = pending.beforeContentHash) (replaceSource setting pending.path bytes))
      fun _ folder => ((OnRepairs K folder ∧ folder.pending = some pending) ∧ Holds still pending.path bytes folder) ∧
        folder.manifest = revisions := by
    refine does_onlyIf (fun _ => ?_) fun moved folder known => ?_
    · refine does_replaceSource edits
        (((lasts_onRepairs.and fun _ _ _ known => known).and lasts_holds).and fun _ _ _ known => known)
        (fun folder known => ⟨pending,known.1.1.2,rfl,hash.symm⟩) fun folder known => ⟨⟨known.1.1,fun _ => ?_⟩,known.2⟩
      exact sources_replaceSource_self folder pending.path bytes
    · have same : current = bytes := digest.injective ((possible.resolve_left moved).trans hash.symm)
      exact same ▸ known
  refine does_andThen under fun _ => ?_
  refine does_andThen
    (does_persistRevision edits ((lasts_onRepairs.and fun _ _ _ known => known).and lasts_holds)
      (fun _ _ _ _ _ known => known) small (fun folder known => .inr ⟨pending,known.1.2,rfl⟩) fun folder known => by
        rw [valid]; exact known.2) fun result => ?_
  refine does_before (fun folder _ known => known.1.1.1) ?_
  exact does_clearPending edits lasts_onRepairs fun _ known => known

include edits in
theorem does_recover : Does digest still start (OnRepairs K) (recoverPendingSourceWrite setting digest)
    fun _ folder => OnRepairs K folder ∧ Idle setting folder := by
  have clears : ∀ {F : Folder → Prop}, (∀ folder, F folder → OnRepairs K folder) →
      Does digest still start F (clearPending setting) fun _ folder => OnRepairs K folder ∧ Idle setting folder :=
    fun weaker =>
    does_before (fun folder _ known => weaker folder known)
      (does_clearPending edits lasts_onRepairs fun _ known => known)
  have here : ∀ pending, Lasts still fun folder => OnRepairs K folder ∧ folder.pending = some pending :=
    fun _ => lasts_onRepairs.and fun _ _ _ known => known
  refine does_andThen (does_read edits lasts_onRepairs) fun found => ?_
  cases found with
  | none => exact does_ret fun folder _ known => ⟨known.1,fun _ => known.2⟩
  | some pending =>
    refine does_if (fun _ => clears fun folder known => known.1) fun valid => ?_
    refine does_andThen (does_read edits (here pending)) fun blob => ?_
    cases blob with
    | none => exact clears fun folder known => known.1.1
    | some bytes =>
      refine does_known (fun folder _ known => blob_hash known.2) fun trusted => ?_
      refine does_before (fun folder _ known => known.1) ?_
      refine does_andThen (does_read edits (here pending)) fun source => ?_
      cases source with
      | none => exact clears fun folder known => known.1.1
      | some current =>
        have held : Lasts still fun folder => (OnRepairs K folder ∧ folder.pending = some pending) ∧
            Holds still pending.path current folder := (here pending).and lasts_holds
        refine does_before (fun folder _ known => ⟨known.1,fun _ => (source_known known.2).1⟩)
          (does_andThen (does_read edits held) fun revisions => ?_)
        refine does_if (fun _ => clears fun folder known => known.1.1.1) fun open' => ?_
        refine does_completePending edits (not_not.1 valid) trusted.2 trusted.1 ?_
        by_contra neither
        exact open' (.inr (.inr ⟨fun before => neither (.inl before),fun after => neither (.inr after)⟩))

structure Ready {ι ε : Type} (setting : Setting ι ε) (digest : Digest) (still : String → Prop) (commit : Commit)
    (folder : Folder) : Prop where
  idle : Idle setting folder
  manifest : folder.manifest = commit.revisions
  head : ∃ head, Heads digest commit.path commit.before head commit.revisions ∧ head.id = commit.base
  source : Holds still commit.path commit.before folder
  smallBefore : commit.before.length ≤ maxSourceBytes
  small : commit.bytes.length ≤ maxSourceBytes

def Replaced (still : String → Prop) (path : String) (before : Content) (folder : Folder) : Prop :=
  ∃ earlier old, folder.replaced = earlier ++ [(path,old)] ∧ (still path → old = some before)

def Noted (noted : List Revision) (folder : Folder) : Prop := ∀ revision ∈ noted, revision ∈ folder.recorded

include edits in
theorem does_commit {commit : Commit} (noted : List Revision) :
    Does digest still start
      (fun folder => (OnRepairs K folder ∧ Noted noted folder) ∧ Ready setting digest still commit folder)
      (commitSourceRevision setting digest commit) fun entry folder =>
        (OnRepairs K folder ∧ Noted noted folder) ∧ Holds still commit.path commit.bytes folder ∧
          Replaced still commit.path commit.before folder ∧ (∃ id, entry = commit.entry digest id) ∧
          folder.manifest = (persisted commit.revisions entry).2 := by
  refine does_known (fun folder _ known => known.2.small) fun small => ?_
  have begun : Lasts still fun folder => OnRepairs K folder ∧ Noted noted folder := fun _ _ _ known => known
  -- What holds until the source is replaced.
  have before : ∀ id : Nat, Lasts still fun folder => ((OnRepairs K folder ∧ Noted noted folder) ∧
      Holds still commit.path commit.before folder ∧ id < folder.minted) ∧ folder.manifest = commit.revisions :=
    fun id => (begun.and (lasts_holds.and fun _ _ _ known => known)).and fun _ _ _ known => known
  refine does_andThen (does_mint (G := fun id folder => (((OnRepairs K folder ∧ Noted noted folder) ∧
    Holds still commit.path commit.before folder ∧ id < folder.minted) ∧ folder.manifest = commit.revisions)
      ∧ ∀ revision ∈ commit.revisions, revision.id ≠ id)
    fun folder sound known => ⟨⟨⟨known.1,known.2.source,Nat.lt_succ_self _⟩,known.2.manifest⟩,fun revision there =>
      Nat.ne_of_lt (sound.ids revision (known.2.manifest ▸ there))⟩) fun id => ?_
  refine does_known (fun folder _ known => known.2) fun new => does_before (fun folder _ known => known.1) ?_
  refine does_andThen (does_storeBlob edits (before id) small fun _ known => known) fun _ => ?_
  refine does_andThen (does_write (E := fun folder => ((OnRepairs K folder ∧ Noted noted folder) ∧
      Holds still commit.path commit.before folder ∧ folder.pending = some (commit.pending digest id)) ∧
      folder.manifest = commit.revisions) edits ((before id).and fun _ _ _ known => known)
    (fun folder _ known => .began (commit.pending digest id) commit.bytes rfl known.1.1.2.2)
    fun folder known => ⟨⟨known.1.1.1,known.1.1.2.1,rfl⟩,known.1.2⟩) fun _ => ?_
  refine does_andThen (does_replaceSource (E := fun folder => (((OnRepairs K folder ∧ Noted noted folder) ∧
      Holds still commit.path commit.bytes folder ∧ Replaced still commit.path commit.before folder) ∧
      folder.pending = some (commit.pending digest id)) ∧ folder.manifest = commit.revisions) edits
    ((begun.and (lasts_holds.and fun _ _ _ known => known)).and fun _ _ _ known => known)
    (fun folder known => ⟨commit.pending digest id,known.1.2.2,rfl,rfl⟩) fun folder known =>
      ⟨⟨⟨known.1.1,fun _ => sources_replaceSource_self folder _ _,⟨folder.replaced,_,rfl,known.1.2.1⟩⟩,known.1.2.2⟩,
        known.2⟩)
    fun _ => ?_
  refine does_andThen (does_persistRevision edits ((begun.and (lasts_holds.and fun _ _ _ known => known)).and
      fun _ _ _ known => known) ?_ small (fun folder known => .inr ⟨commit.pending digest id,known.2,rfl⟩)
    fun folder known => known.1.2.1) fun result => ?_
  · grind only [Apart,OnRepairs,Noted,Holds,Replaced]
  have same : ∀ folder : Folder, folder.manifest = result.2 ∧ ((∃ revision ∈ commit.revisions, revision.id = id) ∨
      result = persisted commit.revisions (commit.entry digest id)) →
      folder.manifest = (persisted commit.revisions (commit.entry digest id)).2 := by
    rintro folder ⟨manifest,⟨revision,there,taken⟩ | rfl⟩
    · exact absurd taken (new revision there)
    · exact manifest
  refine does_before (fun folder _ known => ⟨known.1.1,same folder known.2⟩) (does_andThen (does_clearPending edits
    (F := fun folder => ((OnRepairs K folder ∧ Noted noted folder) ∧ Holds still commit.path commit.bytes folder ∧
      Replaced still commit.path commit.before folder) ∧
      folder.manifest = (persisted commit.revisions (commit.entry digest id)).2)
    ((begun.and (lasts_holds.and fun _ _ _ known => known)).and fun _ _ _ known => known) fun _ known => known)
    fun _ => ?_)
  exact does_ret fun folder _ known => ⟨known.1.1.1,known.1.1.2.1,known.1.1.2.2,⟨id,rfl⟩,known.1.2⟩

/-- What `_current_source_locked` returns is the source and the newest revision, which has its bytes. -/
structure Current {ι ε : Type} (setting : Setting ι ε) (digest : Digest) (still : String → Prop) (path : String)
    (result : List Char × Revision) (folder : Folder) : Prop where
  idle : Idle setting folder
  heads : Heads digest path (encode result.1) result.2 folder.manifest
  source : Holds still path (encode result.1) folder
  small : (encode result.1).length ≤ maxSourceBytes

theorem lasts_current {result : List Char × Revision} : Lasts still (Current setting digest still path result) :=
  fun edit folder loose known => ⟨known.idle,known.heads,lasts_holds edit folder loose known.source,known.small⟩

include edits in
theorem does_currentSource : Does digest still start (OnRepairs K) (currentSource setting digest path)
    fun result folder => OnRepairs K folder ∧ Current setting digest still path result folder := by
  refine does_andThen (does_recover edits) fun _ => ?_
  have idle : Lasts still fun folder => OnRepairs K folder ∧ Idle setting folder := fun _ _ _ known => known
  refine does_andThen (does_readSource edits idle) fun bytes => ?_
  cases decoded : decode bytes with
  | none => exact does_raise
  | some text =>
    have encoded : encode text = bytes := encode_decode decoded
    refine does_known (fun folder _ known => known.2) fun small => ?_
    have lasts : Lasts still fun folder => (OnRepairs K folder ∧ Idle setting folder) ∧ Holds still path bytes folder :=
      idle.and lasts_holds
    refine does_before (fun folder _ known => known.1) (does_andThen (does_read edits lasts) fun revisions => ?_)
    refine does_andThen (does_captured edits lasts (fun _ _ _ _ _ known => known) (fun _ known => known) small
      fun folder known => known.2) fun result => ?_
    refine does_ret fun folder _ known => ⟨known.1.1.1,known.1.1.2,?_,?_,?_⟩
    · rw [known.2.1]; exact encoded ▸ known.2.2
    · exact encoded ▸ known.1.2
    · exact encoded ▸ small

/-- What `save_source` has found when it does not commit, or begins to. -/
def SaveBegun {ι ε : Type} (setting : Setting ι ε) (digest : Digest) (still : String → Prop) (save : Save) :
    Revision ⊕ Commit → Folder → Prop
  | .inl head,folder => Heads digest save.path (encode save.content) head folder.manifest ∧ head.id = save.expected ∧
      Holds still save.path (encode save.content) folder
  | .inr commit,folder => Ready setting digest still commit folder ∧ commit.path = save.path ∧
      commit.bytes = encode save.content ∧ commit.base = save.expected

include edits in
theorem does_beginSave {save : Save} : Does digest still start (OnRepairs K) (beginSave setting digest save)
    fun begun folder => OnRepairs K folder ∧ SaveBegun setting digest still save begun folder := by
  refine does_if (fun _ => does_raise) fun fits => ?_
  have small : (encode save.content).length ≤ maxSourceBytes := Nat.le_of_not_lt fits
  refine does_andThen (does_recover edits) fun _ => ?_
  have idle : Lasts still fun folder => OnRepairs K folder ∧ Idle setting folder := fun _ _ _ known => known
  refine does_andThen (does_readSource edits idle) fun existing => ?_
  refine does_known (fun folder _ known => known.2) fun small' => ?_
  have lasts : Lasts still fun folder => (OnRepairs K folder ∧ Idle setting folder) ∧
      Holds still save.path existing folder := idle.and lasts_holds
  refine does_before (fun folder _ known => known.1) (does_andThen (does_read edits lasts) fun revisions => ?_)
  refine does_andThen (does_captured edits lasts (fun _ _ _ _ _ known => known) (fun _ known => known) small'
    fun folder known => known.2) fun result => ?_
  refine does_if (fun _ => does_raise) fun expected => ?_
  have expected : result.1.id = save.expected := not_not.1 expected
  refine does_if (fun unchanged => ?_) fun _ => ?_
  · grind only [does_ret,digest.injective,cases Heads,SaveBegun]
  · refine does_ret fun folder _ known => ⟨known.1.1.1,?_,rfl,rfl,expected⟩
    exact ⟨known.1.1.2,known.2.1,⟨result.1,known.2.2,rfl⟩,known.1.2,small',small⟩

/-- A save that returned found the expected revision as the head: it has the content already, or the save replaced its
    bytes and added a revision to the manifest in which it was the head. -/
def Saved (digest : Digest) (still : String → Prop) (save : Save) (entry : Revision) (folder : Folder) : Prop :=
  (entry.id = save.expected ∧ entry ∈ folder.recorded ∧
      Heads digest save.path (encode save.content) entry folder.manifest ∨
    entry.baseRevisionId = some save.expected ∧ entry.path = save.path ∧
      ∃ before head revisions, Heads digest save.path before head revisions ∧ head.id = save.expected ∧
        head ∈ folder.recorded ∧ folder.manifest = (persisted revisions entry).2 ∧
        Replaced still save.path before folder) ∧
  Holds still save.path (encode save.content) folder

include edits in
theorem does_saveSource {save : Save} : Does digest still start (OnRepairs K) (saveSource setting digest save)
    fun entry folder => OnRepairs K folder ∧ Saved digest still save entry folder := by
  refine does_andThen (does_beginSave edits) fun begun => ?_
  cases begun with
  | inl head =>
    refine does_ret fun folder sound known => ⟨known.1,.inl ⟨known.2.2.1,?_,known.2.1⟩,known.2.2.2⟩
    exact sound.mem_recorded (latest_mem known.2.1.latest)
  | inr commit =>
    refine does_known (fun folder _ known => known.2.1.head) fun found => ?_
    refine does_known (fun folder _ known => known.2.2) fun facts => ?_
    obtain ⟨head,heads,id⟩ := found
    refine does_weaken (does_commit edits [head]) (fun folder sound known => ⟨⟨known.1,?_⟩,known.2.1⟩)
      fun entry folder _ known => ?_
    · intro revision noted
      rw [mem_singleton.1 noted]
      refine sound.mem_recorded ?_
      rw [known.2.1.manifest]; exact latest_mem heads.latest
    obtain ⟨path,bytes,base⟩ := facts
    obtain ⟨⟨kept,noted⟩,holds,replaced,⟨id',rfl⟩,manifest⟩ := known
    rw [path] at heads holds replaced
    refine ⟨kept,.inr ⟨congrArg some base,path,_,head,_,heads,id.trans base,?_,manifest,replaced⟩,bytes ▸ holds⟩
    exact noted head (mem_singleton_self head)

end

end Cowork.ArtifactRevisions
