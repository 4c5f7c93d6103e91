import Cowork.ArtifactRepairs

/-!
A save that failed. An error up to and in the write of the pending record leaves none
for the content, and no later operation brings the content in until it is given again
(`refused_content_stays_out`). An error after it leaves that record, and the next
operation applies it.
-/
namespace Cowork.ArtifactRevisions
open Coroutines List
open TextFiles (encode decode)

section
variable {digest : Digest} {path : String} {bytes : Content} {refused folder folder' : Folder}

/-- The content is nowhere that would bring it into the path: not pending, in the source or recorded since. -/
structure KeptOut (digest : Digest) (path : String) (bytes : Content) (refused folder : Folder) : Prop where
  pending : ∀ pending, folder.pending = some pending → pending.path = path →
    pending.revision.contentHash ≠ digest.sha bytes
  source : folder.sources path ≠ some bytes
  recorded : ∀ revision ∈ folder.recorded, revision.path = path → revision.contentHash = digest.sha bytes →
    revision ∈ refused.recorded

def OutUntilGiven (digest : Digest) (path : String) (bytes : Content) (refused folder : Folder) : Prop :=
  ∃ since, folder.given = refused.given ++ since ∧ ((path,bytes) ∉ since → KeptOut digest path bytes refused folder)

section
variable (out : OutUntilGiven digest path bytes refused folder)
include out

theorem OutUntilGiven.keep (given : folder'.given = folder.given)
    (keeps : KeptOut digest path bytes refused folder → KeptOut digest path bytes refused folder') :
    OutUntilGiven digest path bytes refused folder' := by
  obtain ⟨since,whole,kept⟩ := out
  exact ⟨since,given.trans whole,fun ungiven => keeps (kept ungiven)⟩

theorem OutUntilGiven.give {more : List (String × Content)} (given : folder'.given = folder.given ++ more)
    (keeps : (path,bytes) ∉ more → KeptOut digest path bytes refused folder →
      KeptOut digest path bytes refused folder') :
    OutUntilGiven digest path bytes refused folder' := by grind [OutUntilGiven]

theorem out_edit (edit : Edit) : OutUntilGiven digest path bytes refused (edit.apply folder) := by
  refine out.give rfl fun ungiven kept => { kept with source := fun source => ?_ }
  grind [sources_edit_self,sources_edit_of_ne,cases KeptOut]

theorem out_move (move : Move digest (fun _ => True) folder folder') :
    OutUntilGiven digest path bytes refused folder' := by
  cases move with
  | edited edit loose => exact absurd trivial loose
  | began pending given hash own =>
    refine out.give rfl fun ungiven kept => { kept with pending := fun other there here same => ?_ }
    grind only [digest.injective,mem_singleton_self,Folder.writePending]
  | cleared => exact out.keep rfl fun kept => { kept with pending := fun pending there => by cases there }
  | replaced pending written under hash =>
    refine out.keep rfl fun kept => { kept with source := fun source => ?_ }
    grind only [sources_replaceSource_self,kept.pending,sources_replaceSource_of_ne,kept.source]
  | recorded entry written hash blob new number own source =>
    refine out.keep rfl fun kept => { kept with recorded := fun revision there here same => ?_ }
    rcases mem_append.1 there with earlier | last
    · exact kept.recorded revision earlier here same
    · -- What is recorded are the bytes of the source.
      grind only [mem_singleton,digest.injective,kept.source]
  | minted | stored | pruned | advanced | opened => exact out.keep rfl fun kept => { kept with }

theorem out_from (moves : From digest (fun _ => True) folder folder') :
    OutUntilGiven digest path bytes refused folder' := by
  induction moves with
  | refl => exact out
  | tail _ move ih => exact out_move ih move

end

theorem out_step (sound : Sound digest folder) (out : OutUntilGiven digest path bytes refused folder)
    (action : Action Answer Empty) :
    OutUntilGiven digest path bytes refused (step undisturbed digest folder action) := by
  grind only [step_moves,edits_undisturbed,out_edit,out_from]

theorem out_reach (sound : Sound digest folder) (out : OutUntilGiven digest path bytes refused folder)
    (actions : List (Action Answer Empty)) :
    OutUntilGiven digest path bytes refused (Transitions.reach (step undisturbed digest) folder actions) := by
  induction actions generalizing folder with
  | nil => exact out
  | cons action rest ih =>
    exact ih (sound_step (edits_undisturbed fun _ => True) sound action) (out_step sound out action)

end

/-- There is no pending record for the content of the save, and the source does not have it. -/
def Withdrawn (digest : Digest) (save : Save) (folder : Folder) : Prop :=
  (∀ pending ∈ folder.pending, pending.path = save.path →
    pending.revision.contentHash ≠ digest.sha (encode save.content)) ∧
  folder.sources save.path ≠ some (encode save.content)

instance (digest : Digest) (save : Save) (folder : Folder) : Decidable (Withdrawn digest save folder) :=
  inferInstanceAs (Decidable (_ ∧ _))

/-- The commit up to and with the write of its pending record. -/
def stagePending {ι ε : Type} (setting : Setting ι ε) (digest : Digest) (commit : Commit) : Work ι ε Unit := do
  let id ← mint
  storeBlob setting digest commit.bytes
  write setting fun folder => folder.writePending (commit.pending digest id) commit.bytes

/-- `save_source` up to and with the write of its pending record. -/
def saveToPending {ι ε : Type} (setting : Setting ι ε) (digest : Digest) (save : Save) : Work ι ε Unit := do
  let begun ← beginSave setting digest save
  match begun with
  | .inl _ => ret ()
  | .inr commit => stagePending setting digest commit

theorem save_raises_early {ι ε : Type} (setting : Setting ι ε) (digest : Digest) (save : Save) :
    RaisesEarly (saveToPending setting digest save) (saveSource setting digest save) := by
  refine raisesEarly_andThen _ fun begun => ?_
  cases begun with
  | inl head => exact raisesEarly_ret ()
  | inr commit => exact raisesEarly_andThen _ fun id => raisesEarly_andThen _ fun _ => raisesEarly_first _ _

section
variable {α β : Type} {digest : Digest}

/-- A part of an operation that takes no content from its caller. -/
def Silent (body : Work Answer Empty α) : Prop :=
  ∀ given, Ensures false (fun folder => folder.given = given) body (fun _ folder => folder.given = given)
    (fun folder => folder.given = given) fun folder => folder.given = given

theorem silent_ret (a : α) : Silent (ret a) := fun _ => ensures_ret fun _ => id

theorem silent_raise : Silent (raise : Work Answer Empty α) := fun _ => ensures_raise fun _ => id

theorem silent_andThen {body : Work Answer Empty α} {next : α → Work Answer Empty β} (first : Silent body)
    (then' : ∀ a, Silent (next a)) : Silent (body >>= next) :=
  fun given => ensures_andThen (first given) fun a => then' a given

theorem silent_if {c : Prop} [Decidable c] {body other : Work Answer Empty α} (yes : Silent body) (no : Silent other) :
    Silent (if c then body else other) := by
  split
  · exact yes
  · exact no

theorem silent_swallow {body : Work Answer Empty Unit} (silent : Silent body) : Silent (swallow body) :=
  fun given => ensures_handle (silent given) (ensures_ret fun _ => id) ensures_stop

theorem silent_fileOperation {f : Folder → α × Folder} (keeps : ∀ folder, (f folder).2.given = folder.given) :
    Silent (fileOperation undisturbed f) := by
  intro given
  refine ensures_wait (fun e => e.elim) ?_ ?_ ?_ fun _ _ => id
  all_goals grind only [undisturbed]

theorem silent_read (f : Folder → α) : Silent (read undisturbed f) := silent_fileOperation fun _ => rfl

theorem silent_write {f : Folder → Folder} (keeps : ∀ folder, (f folder).given = folder.given) :
    Silent (write undisturbed f) := silent_fileOperation keeps

theorem silent_clearPending : Silent (clearPending undisturbed) := silent_swallow (silent_write fun _ => rfl)

theorem silent_storeBlob (bytes : Content) : Silent (storeBlob undisturbed digest bytes) := by
  refine silent_andThen (silent_read _) fun found => ?_
  cases found with
  | some _ => exact silent_ret _
  | none => exact silent_write fun _ => rfl

theorem silent_persist (revisions : List Revision) (entry : Revision) (bytes : Content) :
    Silent (persistRevision undisturbed digest revisions entry bytes) := by
  refine silent_if silent_raise (silent_andThen (silent_storeBlob bytes) fun _ => ?_)
  split
  · exact silent_ret _
  refine silent_andThen (silent_write fun _ => rfl) fun _ => silent_andThen ?_ fun _ => silent_ret _
  refine silent_if (silent_swallow fun given => ensures_wait (fun e => e.elim) ?_ ?_ ?_ fun _ _ => id) (silent_ret _)
  all_goals grind only [undisturbed,Folder.removeBlobs]

theorem silent_captured (revisions : List Revision) (path : String) (bytes : Content) (summary : List Char) :
    Silent (captured undisturbed digest revisions path bytes summary) := by
  have appends : ∀ base, Silent (appendRevision undisturbed digest revisions path bytes summary base []) :=
    fun base => silent_andThen (fun _ => ensures_act _ fun _ => id) fun id => silent_persist _ _ _
  unfold captured
  split
  · exact appends _
  · exact silent_if (silent_ret _) (appends _)

theorem silent_recover : Silent (recoverPendingSourceWrite undisturbed digest) := by
  refine silent_andThen (silent_read _) fun found => ?_
  cases found with
  | none => exact silent_ret _
  | some pending =>
    refine silent_if silent_clearPending (silent_andThen (silent_read _) fun blob => ?_)
    cases blob with
    | none => exact silent_clearPending
    | some bytes =>
      refine silent_andThen (silent_read _) fun source => ?_
      cases source with
      | none => exact silent_clearPending
      | some current =>
        refine silent_andThen (silent_read _) fun revisions => silent_if silent_clearPending ?_
        refine silent_andThen (silent_if ?_ (silent_ret _)) fun _ =>
          silent_andThen (silent_persist _ _ _) fun _ => silent_clearPending
        exact silent_andThen (silent_read _) fun there => silent_if (silent_write fun _ => rfl) silent_raise

theorem silent_beginSave (save : Save) : Silent (beginSave undisturbed digest save) := by
  refine silent_if silent_raise (silent_andThen silent_recover fun _ => silent_andThen ?_ fun existing =>
    silent_andThen (silent_read _) fun revisions => silent_andThen (silent_captured _ _ _ _) fun result =>
    silent_if silent_raise (silent_if (silent_ret _) (silent_ret _)))
  refine silent_andThen (silent_read _) fun found => ?_
  cases found with
  | some _ => exact silent_ret _
  | none => exact silent_raise

/-- Up to the write of the pending record a save takes no content, so an error leaves none of it. -/
theorem ungiven_before_pending {save : Save} {start : Folder} {script : List (Signal Answer Empty)}
    {cut : Ended Folder Answer Empty Unit}
    (ran : saveToPending undisturbed digest save false false start script = some cut) (raised : cut.exit = .raised) :
    cut.state.given = start.given := by
  have saves : Ensures false (fun folder => folder.given = start.given) (saveToPending undisturbed digest save)
      (fun _ _ => True) (fun folder => folder.given = start.given) fun folder => folder.given = start.given := by
    refine ensures_andThen (silent_beginSave save _) fun begun => ?_
    cases begun with
    | inl head => exact ensures_ret fun _ _ => trivial
    | inr commit =>
      refine ensures_andThen (R := fun _ folder => folder.given = start.given) (ensures_act _ fun _ => id) fun minted =>
        ensures_andThen (silent_storeBlob _ _) fun _ => ?_
      refine ensures_wait (fun e => e.elim) (fun _ _ _ _ _ _ => trivial) ?_ ?_ fun _ _ => id
      all_goals grind only [undisturbed]
  have known := saves false start script cut rfl ran
  rw [raised] at known
  exact known

end

/-- A save that begins where its content is neither pending nor in the source, and raises before its pending record is
    written: over any later calls and writes from outside, the content is given again for the path, or it neither
    becomes the source's content nor is it recorded. -/
theorem refused_content_stays_out {digest : Digest} {start : Folder} (sound : Sound digest start) {save : Save}
    (absent : Withdrawn digest save start) {script : List (Signal Answer Empty)} {cut : Ended Folder Answer Empty Unit}
    (ran : saveToPending undisturbed digest save false false start script = some cut) (raised : cut.exit = .raised)
    (later : List (Action Answer Empty)) :
    ∃ ended, saveSource undisturbed digest save false false start script = some ended ∧ ended.exit = .raised ∧
      let folder := Transitions.reach (step undisturbed digest) ended.state later
      (save.path,encode save.content) ∈ folder.given.drop ended.state.given.length ∨
        folder.sources save.path ≠ some (encode save.content) ∧
        ∀ revision ∈ folder.recorded, revision.path = save.path →
          revision.contentHash = digest.sha (encode save.content) → revision ∈ start.recorded := by
  obtain ⟨exit,state,asked,rest⟩ := cut
  subst raised
  have ends := save_raises_early undisturbed digest save _ _ _ _ _ _ _ ran
  refine ⟨_,ends,rfl,?_⟩
  have moves : From digest (fun _ => True) start state := does_saveSource (K := fun _ => True)
    (edits_undisturbed fun _ => True) false start script _ ⟨.refl,sound,trivial⟩ ends
  have begins : OutUntilGiven digest save.path (encode save.content) start start :=
    ⟨[],by simp,fun _ => ⟨absent.1,absent.2,fun _ there _ _ => there⟩⟩
  have out : OutUntilGiven digest save.path (encode save.content) start state := out_from begins moves
  obtain ⟨since,whole,kept⟩ := out_reach (sound_from sound moves) out later
  have same : state.given = start.given := ungiven_before_pending ran rfl
  intro folder
  by_cases given : (save.path,encode save.content) ∈ since
  · refine .inl ?_
    show _ ∈ folder.given.drop state.given.length
    rw [same,whole,drop_left]; exact given
  · exact .inr ⟨(kept given).source,(kept given).recorded⟩

def firstRevision : Folder :=
  Transitions.reach (step undisturbed plain) draft [.call (.current "report.md") (allDone 9)]

/-- A save whose file operation number `n` fails, counted from zero. -/
def failingSave (n : Nat) : Option (Ended Folder Answer Empty Revision) :=
  saveSource undisturbed plain (saveOf "new" 0) false false firstRevision (allDone n ++ [.answer .fails])

theorem failedBlob_stays_out :
    ∃ ended, failingSave 4 = some ended ∧ ended.exit = .raised ∧
      let folder := Transitions.reach (step undisturbed plain) ended.state [.call (.current "report.md") (allDone 9)]
      ("report.md",encode "new".toList) ∈ folder.given.drop ended.state.given.length ∨
        folder.sources "report.md" ≠ some (encode "new".toList) ∧
        ∀ revision ∈ folder.recorded, revision.path = "report.md" →
          revision.contentHash = plain.sha (encode "new".toList) → revision ∈ firstRevision.recorded := by
  have sound : Sound plain firstRevision := sound_reach (edits_undisturbed fun _ => True) (sound_fresh plain _) _
  have raises : (saveToPending undisturbed plain (saveOf "new" 0) false false firstRevision
      (allDone 4 ++ [.answer .fails])).map (·.exit) = some .raised := by decide +kernel
  obtain ⟨cut,ran,raised⟩ := Option.map_eq_some_iff.mp raises
  exact refused_content_stays_out sound (by decide +kernel) ran raised _

/-- The save raises as the source cannot be replaced. A client that only lists the
    revisions then makes "new" the content of the source, and a revision. -/
theorem failed_save_is_applied :
    (failingSave 7).map (·.exit) = some .raised ∧
    (failingSave 7).map (fun ended => (ended.state.sources "report.md",ended.state.recorded.map (·.contentHash))) =
      some (some (encode "old".toList),["old"]) ∧
    (failingSave 7).map (fun ended =>
        let folder := step undisturbed plain ended.state (.call .inspect (allDone 20))
        (folder.sources "report.md",folder.recorded.map (·.contentHash))) =
      some (some (encode "new".toList),["old","new"]) := by decide +kernel

end Cowork.ArtifactRevisions
