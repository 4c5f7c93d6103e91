import Cowork.ControlService
import Cowork.LocalStore
import Cowork.SqlStore

/-!
The commands of a run (`queue_command`, `claim_commands`, `acknowledge_command` of
`control_service.py`), in the order the store lists them. `Laws` is what these functions
rely on of a `CommandStore`, proved for the files and for the rows. A row keeps the time
of its last save.
-/
namespace Cowork.CommandQueue
open Json ControlModels Effects Tables ControlStore ControlService List

/-- `LocalControlPlaneStore`. -/
def files : CommandStore LocalStore.Store where
  getRun := LocalStore.get .runs
  listCommands := LocalStore.listFor .commands
  getCommand := LocalStore.get .commands
  saveCommand now := LocalStore.save now .commands
  updateRun := LocalStore.updateRunWith

/-- `SqlControlPlaneStore`. -/
def rows : CommandStore SqlStore.Store where
  getRun := SqlStore.get .runs
  listCommands := SqlStore.listFor .commands
  getCommand := SqlStore.get .commands
  saveCommand now := SqlStore.save now .commands
  updateRun := SqlStore.updateRunWith

def Reads {σ α : Type} (ran : Except Err α × σ) (there : Option α) (s : σ) : Prop :=
  (∃ e, ran = (.error e,s)) ∨ ∃ a, there = some a ∧ ran = (.ok a,s)

structure Saves {σ : Type} (run : σ → String → Option TaskRun) (command : σ → String → Option RuntimeCommand) (s t : σ)
    (saved : RuntimeCommand) : Prop where
  runs : ∀ id, run t id = run s id
  commands : ∀ id, command t id = if id = saved.id then some saved else command s id

/-- What is found under an id, and the commands of a run in the store's order. A stored document that no longer passes
    its check raises when it is read. -/
structure Laws {σ : Type} (store : CommandStore σ) where
  good : σ → Prop
  run : σ → String → Option TaskRun
  command : σ → String → Option RuntimeCommand
  listing : σ → String → List RuntimeCommand
  filed : ∀ {s id c}, good s → command s id = some c → c.id = id ∧ LocalStore.nameable 212 id = true
  getRun : ∀ {s} (id), good s → Reads (store.getRun id s) (run s id) s
  getCommand : ∀ {s} (id), good s → Reads (store.getCommand id s) (command s id) s
  listCommands : ∀ {s} (runId), good s → Reads (store.listCommands runId s) (some (listing s runId)) s
  saveCommand : ∀ {s c} (now), good s → LocalStore.nameable 212 c.id = true →
    ∃ t, store.saveCommand now c s = (.ok c,t) ∧ good t ∧ Saves run command s t c
  updateRun : ∀ {s} (now id operation), good s → (∃ e, store.updateRun now id operation s = (.error e,s)) ∨
    ∃ r, run s id = some r ∧ (∀ e, operation r s = (.error e,s) → store.updateRun now id operation s = (.error e,s)) ∧
      ∀ kept t, operation r s = (.ok (r,kept),t) → store.updateRun now id operation s = (.ok (r,kept),t)
  mem_listing : ∀ {s runId c}, good s → (c ∈ listing s runId ↔ command s c.id = some c ∧ parentId .commands c = some runId)
  distinct : ∀ {s} (runId), good s → ((listing s runId).map RuntimeCommand.id).Nodup

def asQueued (c : RuntimeCommand) : RuntimeCommand :=
  { c with claimedAt := none,claimExpiresAt := none,deliveryCount := 0,ackedAt := none,result := none,error := none }

section
variable {σ : Type} {store : CommandStore σ} (laws : Laws store)

def handedOut (now : Time) (epoch : Nat) (runId : String) (s : σ) : List RuntimeCommand :=
  ((laws.listing s runId).filter (claimable now epoch)).map (claimedCommand now)

structure Delivered (s t : σ) : Prop where
  good : laws.good t
  runs : ∀ id, laws.run t id = laws.run s id
  queued : ∀ id, (laws.command t id).map asQueued = (laws.command s id).map asQueued
  acked : ∀ id, (laws.command t id).map RuntimeCommand.ackedAt = (laws.command s id).map RuntimeCommand.ackedAt

variable {laws} {s : σ} (good : laws.good s)
include good

theorem Delivered.refl : Delivered laws s s := ⟨good,fun _ => rfl,fun _ => rfl,fun _ => rfl⟩

omit good in
theorem Delivered.trans {t u : σ} (first : Delivered laws s t) (rest : Delivered laws t u) : Delivered laws s u :=
  ⟨rest.good,fun id => (rest.runs id).trans (first.runs id),fun id => (rest.queued id).trans (first.queued id),
    fun id => (rest.acked id).trans (first.acked id)⟩

omit good in
theorem Delivered.save {t : σ} {c saved : RuntimeCommand} (kept : laws.good t) (saves : Saves laws.run laws.command s t saved)
    (stored : laws.command s saved.id = some c) (same : asQueued saved = asQueued c) (acked : saved.ackedAt = c.ackedAt) :
    Delivered laws s t := by
  refine ⟨kept,saves.runs,fun id => ?_,fun id => ?_⟩
  all_goals grind only [saves.commands,Option.map_some]

theorem collect_claims (now : Time) (saved : String → Time) {items : List RuntimeCommand}
    (stored : ∀ c ∈ items, laws.command s c.id = some c) (distinct : (items.map RuntimeCommand.id).Nodup) :
    ∃ t, collect (fun c => store.saveCommand (saved c.id) (claimedCommand now c)) items s =
      (.ok (items.map (claimedCommand now)),t) ∧ Delivered laws s t ∧
      ∀ id, id ∉ items.map RuntimeCommand.id → laws.command t id = laws.command s id := by
  induction items generalizing s with
  | nil => exact ⟨s,rfl,.refl good,fun _ _ => rfl⟩
  | cons c rest ih =>
    have here := stored c (by simp)
    obtain ⟨fresh,others⟩ := nodup_cons.mp distinct
    obtain ⟨t,saving,kept,saves⟩ := laws.saveCommand (c := claimedCommand now c) (saved c.id) good (laws.filed good here).2
    have later : ∀ d ∈ rest, laws.command t d.id = some d := by
      intro d member
      have differs : d.id ≠ c.id := fun same => fresh (same ▸ mem_map_of_mem member)
      exact (saves.commands d.id).trans ((if_neg differs).trans (stored d (by simp [member])))
    obtain ⟨u,more,delivered,untouched⟩ := ih kept later others
    refine ⟨u,?_,(Delivered.save kept saves here rfl rfl).trans delivered,fun id absent => ?_⟩
    · show andThen (store.saveCommand (saved c.id) (claimedCommand now c)) _ s = _
      rw [andThen_ok saving,andThen_ok more]; rfl
    · obtain ⟨differs,elsewhere⟩ := not_or.mp (mem_cons.not.mp absent)
      exact (untouched id elsewhere).trans ((saves.commands id).trans (if_neg differs))

theorem claim_claims (now : Time) (saved : String → Time) (runId computerId leaseId : String) (epoch : Nat) :
    (∃ e, store.claimCommands now saved runId computerId leaseId epoch s = (.error e,s)) ∨
      ∃ run t, laws.run s runId = some run ∧ requireFence now run computerId leaseId epoch = .ok () ∧
        store.claimCommands now saved runId computerId leaseId epoch s = (.ok (handedOut laws now run.epoch runId s),t) ∧
        Delivered laws s t ∧
        ∀ id, id ∉ (handedOut laws now run.epoch runId s).map RuntimeCommand.id → laws.command t id = laws.command s id := by
  rcases laws.updateRun now runId (fun run => do
      attempt (requireFence now run computerId leaseId epoch)
      let commands ← store.listCommands runId
      let claimed ← collect (fun command => store.saveCommand (saved command.id) (claimedCommand now command))
        (commands.filter (claimable now run.epoch))
      ret (run,claimed)) good with ⟨e,raised⟩ | ⟨run,found,raises,returns⟩
  · exact .inl ⟨e,andThen_error raised⟩
  · rcases fence : requireFence now run computerId leaseId epoch with e | ⟨⟩
    · refine .inl ⟨e,andThen_error (raises e ?_)⟩
      exact andThen_error (attempt_error fence s)
    · rcases laws.listCommands runId good with ⟨e,raised⟩ | ⟨commands,there,listed⟩
      · refine .inl ⟨e,andThen_error (raises e ?_)⟩
        exact (andThen_ok (attempt_ok fence s)).trans (andThen_error raised)
      · obtain rfl := Option.some.inj there
        have stored : ∀ c ∈ (laws.listing s runId).filter (claimable now run.epoch), laws.command s c.id = some c :=
          fun c member => ((laws.mem_listing good).mp (mem_of_mem_filter member)).1
        have distinct : (((laws.listing s runId).filter (claimable now run.epoch)).map RuntimeCommand.id).Nodup :=
          (laws.distinct runId good).sublist (filter_sublist.map _)
        obtain ⟨t,ran,delivered,untouched⟩ := collect_claims good now saved stored distinct
        refine .inr ⟨run,t,found,fence,andThen_ok (returns _ t ?_),delivered,fun id absent => untouched id ?_⟩
        · exact (andThen_ok (attempt_ok fence s)).trans ((andThen_ok listed).trans (andThen_ok ran))
        · rw [handedOut,map_map] at absent
          exact absent

theorem queue_queues (now saved : Time) (commandId runId : String) (kind : CommandKind) (payload : Fields) (key : String) :
    (∃ e, store.queueCommand now saved commandId runId kind payload key s = (.error e,s)) ∨
      (∃ c, laws.command s c.id = some c ∧ store.queueCommand now saved commandId runId kind payload key s = (.ok c,s)) ∨
      ∃ (run : TaskRun) (t : σ) (c : RuntimeCommand), laws.run s runId = some run ∧
        c = { id := commandId,runId := run.id,epoch := run.epoch,kind,payload,idempotencyKey := key,createdAt := now } ∧
        store.queueCommand now saved commandId runId kind payload key s = (.ok c,t) ∧ laws.good t ∧
        Saves laws.run laws.command s t c := by
  rcases laws.getRun runId good with ⟨e,raised⟩ | ⟨run,found,loaded⟩
  · exact .inl ⟨e,andThen_error raised⟩
  have listing :
      (∃ e, (if key = "" then ret [] else store.listCommands runId : Prog σ Err (List RuntimeCommand)) s = (.error e,s)) ∨
      ∃ known, (if key = "" then ret [] else store.listCommands runId : Prog σ Err (List RuntimeCommand)) s = (.ok known,s) ∧
        ∀ c ∈ known, laws.command s c.id = some c := by
    by_cases keyless : key = ""
    · exact .inr ⟨[],by simp [keyless],by simp⟩
    · rcases laws.listCommands runId good with ⟨e,raised⟩ | ⟨commands,there,listed⟩
      all_goals grind only [laws.mem_listing]
  rcases listing with ⟨e,raised⟩ | ⟨known,listed,stored⟩
  · exact .inl ⟨e,(andThen_ok loaded).trans (andThen_error raised)⟩
  rcases same : known.find? (fun command => command.epoch = run.epoch && command.idempotencyKey = key) with _ | existing
  · by_cases ok : valid .commands
        { id := commandId,runId := run.id,epoch := run.epoch,kind,payload,idempotencyKey := key,createdAt := now } = true
    · obtain ⟨t,saving,kept,saves⟩ := laws.saveCommand saved good
        (LocalStore.nameable_mono (by decide) (LocalStore.nameable_of_valid ok))
      refine .inr (.inr ⟨run,t,_,found,rfl,?_,kept,saves⟩)
      simp only [CommandStore.queueCommand,bind_run,andThen_ok loaded,andThen_ok listed,same]
      simp only [construct,if_pos ok]
      exact (andThen_ok (ret_run _ s)).trans saving
    · refine .inl ⟨.validationError (modelName .commands),?_⟩
      simp only [CommandStore.queueCommand,bind_run,andThen_ok loaded,andThen_ok listed,same]
      simp only [construct,if_neg ok]
      exact andThen_error (raise_run _ s)
  · refine .inr (.inl ⟨existing,stored existing (mem_of_find?_eq_some same),?_⟩)
    simp only [CommandStore.queueCommand,bind_run,andThen_ok loaded,andThen_ok listed,same,ret_run]

theorem acknowledge_acknowledges (now saved : Time) (runId commandId computerId leaseId : String) (epoch : Nat)
    (result error : Option String) :
    (∃ e, store.acknowledgeCommand now saved runId commandId computerId leaseId epoch result error s = (.error e,s)) ∨
      (∃ c, laws.command s commandId = some c ∧ c.ackedAt ≠ none ∧
        store.acknowledgeCommand now saved runId commandId computerId leaseId epoch result error s = (.ok (c,false),s)) ∨
      ∃ c t, laws.command s commandId = some c ∧
        store.acknowledgeCommand now saved runId commandId computerId leaseId epoch result error s =
          (.ok (ackedCommand now result error c,true),t) ∧ laws.good t ∧
        Saves laws.run laws.command s t (ackedCommand now result error c) := by
  rcases laws.getRun runId good with ⟨e,raised⟩ | ⟨run,found,loaded⟩
  · exact .inl ⟨e,andThen_error raised⟩
  rcases fence : requireFence now run computerId leaseId epoch with e | ⟨⟩
  · exact .inl ⟨e,(andThen_ok loaded).trans (andThen_error (attempt_error fence s))⟩
  have fenced := attempt_ok fence s
  rcases laws.getCommand commandId good with ⟨e,raised⟩ | ⟨c,there,read⟩
  · have missing : ∃ e',
        orMissing (store.getCommand commandId) (raise (.keyError "Runtime command not found")) s = (.error e',s) := by
      unfold orMissing
      rw [raised]
      cases e <;> exact ⟨_,rfl⟩
    obtain ⟨e',gone⟩ := missing
    exact .inl ⟨e',(andThen_ok loaded).trans ((andThen_ok fenced).trans (andThen_error gone))⟩
  have got : orMissing (store.getCommand commandId) (raise (.keyError "Runtime command not found")) s = (.ok c,s) := by
    unfold orMissing
    rw [read]
  have opened : store.acknowledgeCommand now saved runId commandId computerId leaseId epoch result error s =
      (if c.runId ≠ runId then raise (.keyError "Runtime command not found")
        else if c.epoch ≠ run.epoch then raise (.staleRuntimeEvent "Runtime command belongs to a stale epoch")
        else if c.ackedAt ≠ none then ret (c,false)
        else andThen (store.saveCommand saved (ackedCommand now result error c)) (fun saved => ret (saved,true))) s :=
    (andThen_ok loaded).trans ((andThen_ok fenced).trans (andThen_ok got))
  rw [opened]
  split
  · exact .inl ⟨_,rfl⟩
  split
  · exact .inl ⟨_,rfl⟩
  split
  · rename_i earlier
    exact .inr (.inl ⟨c,there,earlier,rfl⟩)
  · obtain ⟨own,formed⟩ := laws.filed good there
    obtain ⟨t,saving,kept,saves⟩ := laws.saveCommand (c := ackedCommand now result error c) saved good
      (show LocalStore.nameable 212 c.id = true from own ▸ formed)
    exact .inr (.inr ⟨c,t,there,andThen_ok saving,kept,saves⟩)

end

structure FilesGood (s : LocalStore.Store) : Prop where
  filed : ∀ id c, s.docs.find .commands id = some c → c.id = id ∧ LocalStore.nameable 212 id = true
  indexed : ∀ parent id, id ∈ s.index .commands parent ↔
    ∃ c, s.docs.find .commands id = some c ∧ parentId .commands c = some parent
  once : ∀ parent, (s.index .commands parent).Nodup

/-- The commands of a run, as `_list_for_parent` returns them. -/
def filesListing (s : LocalStore.Store) (runId : String) : List RuntimeCommand :=
  newestFirst .commands ((s.index .commands runId).filterMap (s.docs.find .commands))

section
variable {s : LocalStore.Store} (good : FilesGood s)

theorem files_get (c : Collection) (id : String) : Reads (LocalStore.get c id s) (s.docs.find c id) s := by
  by_cases short : LocalStore.nameable 250 id = true
  · rw [LocalStore.get_named short]
    rcases s.docs.find c id with _ | d
    · exact .inl ⟨_,rfl⟩
    · by_cases loads : valid c d = true
      · exact .inr ⟨d,rfl,by simp [loads]⟩
      · exact .inl ⟨.validationError (modelName c),by simp [loads]⟩
  · obtain ⟨e,refused⟩ := LocalStore.path_refuses (Bool.eq_false_iff.mpr short) s
    exact .inl ⟨e,andThen_error refused⟩

include good

theorem files_loadAll {ids : List String} (stored : ∀ id ∈ ids, ∃ c, s.docs.find .commands id = some c) :
    Reads (LocalStore.loadAll .commands ids s) (some (ids.filterMap (s.docs.find .commands))) s := by
  induction ids with
  | nil => exact .inr ⟨[],rfl,rfl⟩
  | cons id rest ih =>
    obtain ⟨c,found⟩ := stored id (by simp)
    have read := LocalStore.get_named (LocalStore.nameable_mono (by decide) (good.filed id c found).2) .commands s
    have more := ih (fun other member => stored other (by simp [member]))
    by_cases loads : valid .commands c = true
    · have head : orMissing (do
          let d ← LocalStore.get .commands id
          ret [d]) (ret []) s = (.ok [c],s) := by simp [orMissing,andThen,read,found,loads]
      rcases more with ⟨e,raised⟩ | ⟨tail,there,ran⟩
      · exact .inl ⟨e,(andThen_ok head).trans (andThen_error raised)⟩
      · obtain rfl := Option.some.inj there
        exact .inr ⟨_,rfl,((andThen_ok head).trans (andThen_ok ran)).trans (by simp [found])⟩
    · -- A command that no longer passes its check ends the whole list.
      have head : orMissing (do
          let d ← LocalStore.get .commands id
          ret [d]) (ret []) s = (.error (.validationError (modelName .commands)),s) := by
        simp [orMissing,andThen,read,found,loads]
      exact .inl ⟨_,andThen_error head⟩

theorem files_listFor (runId : String) :
    Reads (LocalStore.listFor .commands runId s) (some (filesListing s runId)) s := by
  have stored : ∀ id ∈ s.index .commands runId, ∃ c, s.docs.find .commands id = some c := by
    intro id member
    obtain ⟨c,found,_⟩ := (good.indexed runId id).mp member
    exact ⟨c,found⟩
  rcases files_loadAll good stored with ⟨e,raised⟩ | ⟨items,there,ran⟩
  · exact .inl ⟨e,andThen_error raised⟩
  · obtain rfl := Option.some.inj there
    exact .inr ⟨_,rfl,andThen_ok ran⟩

theorem files_save {c : RuntimeCommand} (now : Time) (formed : LocalStore.nameable 212 c.id = true) :
    ∃ t, LocalStore.save now .commands c s = (.ok c,t) ∧ FilesGood t ∧
      Saves (fun s => s.docs.find .runs) (fun s => s.docs.find .commands) s t c := by
  refine ⟨⟨s.docs.put .commands c.id c,LocalStore.indexDocument .commands c s.index⟩,?_,⟨?_,?_,?_⟩,⟨?_,?_⟩⟩
  · have stored := StoreFrames.save_stores (c := .commands) .files now (Bool.and_eq_true_iff.mp formed).1 s.docs
    have saving : LocalStore.onDocs (ControlStore.save .files now .commands c) s =
        (.ok c,⟨s.docs.put .commands c.id c,s.index⟩) := by
      unfold LocalStore.onDocs
      rw [stored]; rfl
    exact (andThen_ok (LocalStore.path_names formed s)).trans ((andThen_ok saving).trans rfl)
  · grind only [find_put,good.filed]
  · grind only [LocalStore.mem_indexDocument,good.indexed,find_put,docId]
  · intro parent
    simp only [LocalStore.indexDocument,LocalStore.discard,Function.update_self]
    split
    · exact nodup_cons.mpr ⟨by simp,(good.once parent).filter _⟩
    · exact (good.once parent).filter _
  · intro id; exact find_put_collection _ _ _ _ (by decide)
  · intro id
    rw [find_put]; simp

theorem files_mem_listing {runId : String} {c : RuntimeCommand} :
    c ∈ filesListing s runId ↔ s.docs.find .commands c.id = some c ∧ parentId .commands c = some runId := by
  unfold filesListing
  rw [mem_newestFirst,mem_filterMap]
  constructor
  · rintro ⟨id,member,found⟩
    obtain ⟨other,same,child⟩ := (good.indexed runId id).mp member
    rw [found] at same
    cases same; exact ⟨(good.filed id c found).1 ▸ found,child⟩
  · rintro ⟨found,child⟩; exact ⟨c.id,(good.indexed runId c.id).mpr ⟨c,found,child⟩,found⟩

theorem files_distinct (runId : String) : ((filesListing s runId).map RuntimeCommand.id).Nodup := by
  have sorted : (filesListing s runId).Perm ((s.index .commands runId).filterMap (s.docs.find .commands)) :=
    perm_insertionSort _ _
  rw [(sorted.map RuntimeCommand.id).nodup_iff]
  rw [map_filterMap]
  refine (good.once runId).filterMap (fun id other shared here there => ?_)
  obtain ⟨c,found,rfl⟩ := Option.map_eq_some_iff.mp here
  obtain ⟨d,stored,same⟩ := Option.map_eq_some_iff.mp there
  rw [← (good.filed id c found).1,← (good.filed other d stored).1,same]

end

/-- `LocalControlPlaneStore` as a store of commands. -/
def filesLaws : Laws files where
  good := FilesGood
  run s := s.docs.find .runs
  command s := s.docs.find .commands
  listing := filesListing
  filed good found := good.filed _ _ found
  getRun id _ := files_get .runs id
  getCommand id _ := files_get .commands id
  listCommands runId good := files_listFor good runId
  saveCommand now good formed := files_save good now formed
  updateRun := by
    intro s now id operation _
    rcases files_get .runs id with ⟨e,raised⟩ | ⟨run,found,loaded⟩
    · exact .inl ⟨e,andThen_error raised⟩
    · exact .inr ⟨run,found,fun e ran => LocalStore.updateRunWith_error now loaded ran,
        fun kept t ran => LocalStore.updateRunWith_same now loaded ran⟩
  mem_listing good := files_mem_listing good
  distinct runId good := files_distinct good runId

structure RowsGood (s : SqlStore.Store) : Prop where
  filed : ∀ id row, s.find .commands id = some row → row.payload.id = id ∧ LocalStore.nameable 212 id = true
  projected : ∀ id row, s.find .commands id = some row → SqlStore.Projected row

/-- The rows of the commands of a run, as `_list` comes upon them. -/
def rowsOf (s : SqlStore.Store) (runId : String) : List (SqlStore.Row .commands) :=
  SqlStore.newestRows ((s.all .commands).filter (fun row => row.parentId = some runId))

/-- The commands of a run, as `_list` returns them. -/
def rowsListing (s : SqlStore.Store) (runId : String) : List RuntimeCommand := (rowsOf s runId).map SqlStore.Row.payload

theorem rows_get {s : SqlStore.Store} (c : Collection) (id : String) :
    Reads (SqlStore.get c id s) ((s.find c id).map SqlStore.Row.payload) s := by
  rcases found : s.find c id with _ | row
  · exact .inl ⟨_,SqlStore.get_missing found⟩
  · have looked : SqlStore.get c id s = attempt (SqlStore.load c row) s := andThen_ok (SqlStore.lockedRow_found found)
    grind [SqlStore.get_found,attempt_error,SqlStore.load,Reads]

theorem rows_collect {c : Collection} (rows : List (SqlStore.Row c)) (s : SqlStore.Store) :
    Reads (collect (fun row => attempt (SqlStore.load c row)) rows s) (some (rows.map SqlStore.Row.payload)) s := by
  by_cases loads : ∀ row ∈ rows, valid c row.payload = true
  · exact .inr ⟨_,rfl,SqlStore.collect_load loads s⟩
  · induction rows with
    | nil => simp at loads
    | cons row rest ih =>
      by_cases first : valid c row.payload = true
      · have others : ¬∀ other ∈ rest, valid c other.payload = true := by
          intro all; exact loads (by simpa [first] using all)
        rcases ih others with ⟨e,raised⟩ | ⟨items,there,ran⟩
        · exact .inl ⟨e,(andThen_ok (SqlStore.load_run first s)).trans (andThen_error raised)⟩
        · obtain rfl := Option.some.inj there
          exact .inr ⟨_,rfl,(andThen_ok (SqlStore.load_run first s)).trans (andThen_ok ran)⟩
      · refine .inl ⟨.validationError (modelName c),andThen_error (attempt_error ?_ s)⟩
        simp [SqlStore.load,first]

section
variable {s : SqlStore.Store} (good : RowsGood s)
include good

theorem rows_parent {id : String} {row : SqlStore.Row .commands} (found : s.find .commands id = some row) :
    row.parentId = parentId .commands row.payload :=
  (congrArg SqlStore.Row.parentId (show SqlStore.applyProjection .commands row.payload row = row from
    good.projected id row found)).symm

theorem rows_save {c : RuntimeCommand} (now : Time) (formed : LocalStore.nameable 212 c.id = true) :
    ∃ t, SqlStore.save now .commands c s = (.ok c,t) ∧ RowsGood t ∧
      Saves (fun s id => (s.find .runs id).map SqlStore.Row.payload) (fun s id => (s.find .commands id).map SqlStore.Row.payload)
        s t c := by
  obtain ⟨row,own,projected,saved⟩ := SqlStore.save_saves (c := .commands) now c s
  have payload : row.payload = c := own
  refine ⟨s.put .commands c.id row,saved,⟨?_,?_⟩,⟨?_,?_⟩⟩
  all_goals grind only [find_put,good.filed,good.projected,Option.map_some]

theorem rows_mem_listing {runId : String} {c : RuntimeCommand} : c ∈ rowsListing s runId ↔
    (s.find .commands c.id).map SqlStore.Row.payload = some c ∧ parentId .commands c = some runId := by
  grind only [rowsListing,rowsOf,SqlStore.mem_selected,Option.map_eq_some_iff,rows_parent,cases RowsGood]

theorem rows_distinct (runId : String) : ((rowsListing s runId).map RuntimeCommand.id).Nodup := by
  have keys : (s.all .commands).map (fun row => row.payload.id) = (s .commands).keys := by
    unfold Table.all AList.keys List.keys
    rw [map_map]
    refine map_congr_left (fun entry member => ?_)
    exact (good.filed entry.1 entry.2 (AList.mem_lookup_iff.mpr member)).1
  have all : ((s.all .commands).map (fun row => row.payload.id)).Nodup := by
    rw [keys]; exact (s .commands).keys_nodup
  have sorted : (rowsOf s runId).Perm ((s.all .commands).filter (fun row => row.parentId = some runId)) :=
    perm_insertionSort _ _
  unfold rowsListing
  rw [map_map,(sorted.map _).nodup_iff]
  exact all.sublist (filter_sublist.map _)

end

/-- `SqlControlPlaneStore` as a store of commands. -/
def rowsLaws : Laws rows where
  good := RowsGood
  run s id := (s.find .runs id).map (@SqlStore.Row.payload .runs)
  command s id := (s.find .commands id).map (@SqlStore.Row.payload .commands)
  listing := rowsListing
  filed := by
    intro s id c good found
    obtain ⟨row,stored,rfl⟩ := Option.map_eq_some_iff.mp found
    exact good.filed id row stored
  getRun id _ := rows_get .runs id
  getCommand id _ := rows_get .commands id
  listCommands runId _ := rows_collect (rowsOf _ runId) _
  saveCommand now good formed := rows_save good now formed
  updateRun := by
    intro s now id operation _
    rcases found : s.find .runs id with _ | row
    · exact .inl ⟨_,SqlStore.updateRunWith_missing now found⟩
    · by_cases loads : valid .runs row.payload = true
      · exact .inr ⟨row.payload,rfl,fun e ran => SqlStore.updateRunWith_error now found loads ran,
          fun kept t ran => SqlStore.updateRunWith_same now found loads ran⟩
      · refine .inl ⟨.validationError (modelName .runs),?_⟩
        have raised : (attempt (SqlStore.load .runs row) : Prog SqlStore.Store Err TaskRun) s =
            (.error (.validationError (modelName .runs)),s) := attempt_error (by simp [SqlStore.load,loads]) s
        exact SqlStore.updateRunWith_unloadable now found raised
  mem_listing good := rows_mem_listing good
  distinct runId good := rows_distinct good runId

abbrev State : Backend → Type
  | .files => LocalStore.Store
  | .rows => SqlStore.Store

def commandStore : (backend : Backend) → CommandStore (State backend)
  | .files => files
  | .rows => rows

def laws : (backend : Backend) → Laws (commandStore backend)
  | .files => filesLaws
  | .rows => rowsLaws

end Cowork.CommandQueue
