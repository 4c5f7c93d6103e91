import Cowork.CommandQueue
import Cowork.RunChanges

/-!
The order in which commands reach the runtime. Each store lists the commands of a
run newest first: the files by the time a command was created, the rows by the time
a row was last saved. A claim hands them out in the order of the list.
-/
namespace Cowork.CommandOrder
open Json ControlModels Tables ControlStore ControlService List Transitions RunChanges CommandQueue

inductive Call where
  | queue (now saved : Time) (commandId : String) (kind : CommandKind) (payload : Fields) (idempotencyKey : String)
  | claim (now : Time) (saved : String → Time) (computerId leaseId : String) (epoch : Nat)
  | acknowledge (now saved : Time) (commandId computerId leaseId : String) (epoch : Nat) (result error : Option String)

/-- A store, and the commands queued for the run so far, in order, each with its `created_at`. -/
structure History (backend : Backend) where
  store : State backend
  queued : List (String × Time)

/-- The history after `queue_command` returned: a command with a new id was added. -/
def noted (commandId : String) (result : Except Err RuntimeCommand) (queued : List (String × Time)) : List (String × Time) :=
  match result with
  | .ok command => if command.id = commandId then queued ++ [(command.id,command.createdAt)] else queued
  | .error _ => queued

def step (backend : Backend) (runId : String) (h : History backend) : Call → History backend
  | .queue now saved commandId kind payload key =>
    ⟨((commandStore backend).queueCommand now saved commandId runId kind payload key h.store).2,
      noted commandId ((commandStore backend).queueCommand now saved commandId runId kind payload key h.store).1 h.queued⟩
  | .claim now saved computerId leaseId epoch =>
    ⟨((commandStore backend).claimCommands now saved runId computerId leaseId epoch h.store).2,h.queued⟩
  | .acknowledge now saved commandId computerId leaseId epoch result error =>
    ⟨((commandStore backend).acknowledgeCommand now saved runId commandId computerId leaseId epoch result error h.store).2,
      h.queued⟩

def Increasing (backend : Backend) (h : History backend) : Call → Prop
  | .queue now _ commandId _ _ _ => (laws backend).command h.store commandId = none ∧ ∀ earlier ∈ h.queued, earlier.2 < now
  | _ => True

def InQueueOrder (queued : List (String × Time)) (commands : List RuntimeCommand) : Prop :=
  (commands.map (fun command => (command.id,command.createdAt))).Sublist queued

structure Recorded (backend : Backend) (runId : String) (h : History backend) : Prop where
  good : (laws backend).good h.store
  increasing : h.queued.Pairwise (fun earlier later => earlier.2 < later.2)
  recorded : ∀ id c, (laws backend).command h.store id = some c → parentId .commands c = some runId →
    (c.id,c.createdAt) ∈ h.queued

theorem createdAt_asQueued (c : RuntimeCommand) :
    ((asQueued c).id,(asQueued c).createdAt) = (c.id,c.createdAt) ∧ parentId .commands (asQueued c) = parentId .commands c :=
  ⟨rfl,rfl⟩

section
variable {backend : Backend} {runId : String} {h : History backend}

section
variable (kept : Recorded backend runId h)
include kept

theorem Recorded.delivered {t : State backend} (good : (laws backend).good t)
    (same : ∀ id, ((laws backend).command t id).map asQueued = ((laws backend).command h.store id).map asQueued) :
    Recorded backend runId ⟨t,h.queued⟩ := by
  refine ⟨good,kept.increasing,fun id c found child => ?_⟩
  have before := same id
  rw [found] at before
  obtain ⟨d,stored,equal⟩ := Option.map_eq_some_iff.mp before.symm
  have parent : parentId .commands d = some runId := by
    rw [← (createdAt_asQueued d).2,equal,(createdAt_asQueued c).2,child]
  rw [← (createdAt_asQueued c).1,← equal]
  exact kept.recorded id d stored parent

theorem recorded_claim (now : Time) (saved : String → Time) (computerId leaseId : String)
    (epoch : Nat) : Recorded backend runId (step backend runId h (.claim now saved computerId leaseId epoch)) := by
  simp only [step]
  rcases claim_claims kept.good now saved runId computerId leaseId epoch with ⟨e,raised⟩ | ⟨run,t,_,_,ran,delivered,_⟩
  · rw [raised]; exact kept
  · rw [ran]; exact kept.delivered delivered.good delivered.queued

theorem recorded_acknowledge (now saved : Time) (commandId computerId leaseId : String)
    (epoch : Nat) (result error : Option String) :
    Recorded backend runId (step backend runId h (.acknowledge now saved commandId computerId leaseId epoch result error)) := by
  simp only [step]
  rcases acknowledge_acknowledges kept.good now saved runId commandId computerId leaseId epoch result error with
    ⟨e,raised⟩ | ⟨c,_,_,ran⟩ | ⟨c,t,there,ran,good,saves⟩
  · rw [raised]; exact kept
  · rw [ran]; exact kept
  · rw [ran]
    refine kept.delivered good (fun id => ?_)
    rw [saves.commands]
    split
    · rename_i here
      have own : c.id = commandId := ((laws backend).filed kept.good there).1
      rw [here,show (ackedCommand now result error c).id = commandId from own,there]; rfl
    · rfl

theorem recorded_queue {now : Time} (saved : Time) {commandId : String} (kind : CommandKind)
    (payload : Fields) (key : String) (fresh : (laws backend).command h.store commandId = none)
    (later : ∀ earlier ∈ h.queued, earlier.2 < now) :
    Recorded backend runId (step backend runId h (.queue now saved commandId kind payload key)) := by
  simp only [step]
  rcases queue_queues kept.good now saved commandId runId kind payload key with
    ⟨e,raised⟩ | ⟨c,there,ran⟩ | ⟨run,t,c,_,made,ran,good,saves⟩
  · rw [raised]; exact kept
  · have other : c.id ≠ commandId := by
      intro same
      rw [same,fresh] at there; cases there
    rw [ran]
    simp only [noted,if_neg other]
    exact kept
  · have own : c.id = commandId := by rw [made]
    have created : c.createdAt = now := by rw [made]
    rw [ran]
    simp only [noted,if_pos own]
    refine ⟨good,?_,fun id d found child => ?_⟩
    · rw [pairwise_append]
      refine ⟨kept.increasing,pairwise_singleton _ _,fun earlier member new added => ?_⟩
      rw [mem_singleton.mp added,created]; exact later earlier member
    · rw [saves.commands] at found
      split at found
      · cases found; exact mem_append_right _ (mem_singleton.mpr rfl)
      · exact mem_append_left _ (kept.recorded id d found child)

theorem recorded_reach {calls : List Call} (increasing : Permitted (step backend runId) (Increasing backend) h calls) :
    Recorded backend runId (reach (step backend runId) h calls) := by
  refine invariant_reach (fun h call kept allowed => ?_) kept increasing
  cases call <;> grind only [recorded_queue,recorded_claim,recorded_acknowledge,Increasing]

end

end

theorem sublist_queue {queued entries : List (String × Time)}
    (increasing : queued.Pairwise (fun earlier later => earlier.2 < later.2)) (inside : ∀ entry ∈ entries, entry ∈ queued) :
    entries.Sublist queued ↔ entries.Pairwise (fun earlier later => earlier.2 < later.2) := by
  constructor
  · exact fun ordered => increasing.sublist ordered
  · intro ordered
    have distinct : entries.Nodup := ordered.imp (fun lower same => by
      rw [same] at lower
      exact lt_irrefl _ lower)
    exact sublist_of_subperm_of_pairwise (subperm_of_subset distinct inside) ordered increasing

def taken (backend : Backend) (now : Time) (epoch : Nat) (runId : String) (s : State backend) : List RuntimeCommand :=
  ((laws backend).listing s runId).filter (claimable now epoch)

variable {runId : String} {now : Time} {epoch : Nat}

theorem Recorded.taken {backend : Backend} {h : History backend} (kept : Recorded backend runId h) {c : RuntimeCommand}
    (member : c ∈ taken backend now epoch runId h.store) : (c.id,c.createdAt) ∈ h.queued := by
  obtain ⟨stored,child⟩ := ((laws backend).mem_listing kept.good).mp (mem_of_mem_filter member)
  exact kept.recorded c.id c stored child

theorem claim_order {backend : Backend} {runId : String} {h : History backend} (kept : Recorded backend runId h) {now : Time}
    {saved : String → Time} {computerId leaseId : String} {epoch : Nat} {claimed : List RuntimeCommand} {t : State backend}
    (ran : (commandStore backend).claimCommands now saved runId computerId leaseId epoch h.store = (.ok claimed,t)) :
    InQueueOrder h.queued claimed ↔
      (taken backend now epoch runId h.store).Pairwise (fun a b => a.createdAt < b.createdAt) := by
  rcases claim_claims kept.good now saved runId computerId leaseId epoch with ⟨e,raised⟩ | ⟨run,u,_,fence,returned,_,_⟩
  · rw [raised] at ran; cases ran
  · have own : run.epoch = epoch := (requireFence_ok fence).2.1
    rw [own,ran] at returned
    have handed : claimed = handedOut (laws backend) now epoch runId h.store := by cases returned; rfl
    rw [handed,InQueueOrder,handedOut,map_map,sublist_queue kept.increasing ?_,pairwise_map]
    · rfl
    · intro entry member
      obtain ⟨c,inside,rfl⟩ := mem_map.mp member
      exact (show (c.id,c.createdAt) ∈ h.queued from kept.taken inside)

theorem taken_distinct {backend : Backend} {h : History backend} (kept : Recorded backend runId h) (now : Time)
    (epoch : Nat) : (taken backend now epoch runId h.store).Pairwise (fun a b => a.createdAt ≠ b.createdAt) := by
  have ids : (taken backend now epoch runId h.store).Pairwise (fun a b => a.id ≠ b.id) :=
    pairwise_map.mp (((laws backend).distinct runId kept.good).sublist (filter_sublist.map _))
  let once := fun a b : String × Time => a.2 = b.2 → a = b
  have symm : Std.Symm once := ⟨fun _ _ one same => (one same.symm).symm⟩
  have all : h.queued.Pairwise once := kept.increasing.imp (fun lower same => absurd same (ne_of_lt lower))
  refine ids.imp_of_mem (fun {a b} first second differ same => ?_)
  exact differ (congrArg Prod.fst (all.forall_of_forall (fun _ _ _ => rfl) (kept.taken first) (kept.taken second) same))

theorem files_order {s : LocalStore.Store} (now : Time) (epoch : Nat) :
    (taken .files now epoch runId s).Pairwise (fun a b => a.createdAt < b.createdAt) ↔
      (taken .files now epoch runId s).length ≤ 1 := by
  have sorted : (taken .files now epoch runId s).Pairwise (fun a b => b.createdAt ≤ a.createdAt) := by
    have all : (filesListing s runId).Pairwise (fun a b => b.createdAt ≤ a.createdAt) :=
      pairwise_insertionSort (fun a b : RuntimeCommand => b.createdAt ≤ a.createdAt) _
    exact all.sublist filter_sublist
  constructor
  · intro ordered
    rcases listed : taken .files now epoch runId s with _ | ⟨first,_ | ⟨second,rest⟩⟩
    all_goals grind
  · intro short
    rcases listed : taken .files now epoch runId s with _ | ⟨first,_ | ⟨second,rest⟩⟩
    · exact List.Pairwise.nil
    · exact pairwise_singleton _ _
    · simp [listed] at short

/-- The earlier of two commands that can be claimed has the row that was saved later. -/
def Turned (later : Time → Time → Prop) (now : Time) (epoch : Nat) (runId : String) (s : SqlStore.Store) : Prop :=
  ∀ a ∈ rowsOf s runId, ∀ b ∈ rowsOf s runId, claimable now epoch a.payload = true → claimable now epoch b.payload = true →
    a.payload.createdAt < b.payload.createdAt → later b.updatedAt a.updatedAt

theorem rows_taken (now : Time) (epoch : Nat) (runId : String) (s : SqlStore.Store) :
    taken .rows now epoch runId s =
      ((rowsOf s runId).filter (fun row => claimable now epoch row.payload)).map SqlStore.Row.payload := by
  show ((rowsOf s runId).map SqlStore.Row.payload).filter _ = _
  rw [filter_map]
  rfl

theorem rows_sorted (now : Time) (epoch : Nat) (runId : String) (s : SqlStore.Store) :
    ((rowsOf s runId).filter (fun row => claimable now epoch row.payload)).Pairwise (fun a b => b.updatedAt ≤ a.updatedAt) := by
  have all : (rowsOf s runId).Pairwise (fun a b => b.updatedAt ≤ a.updatedAt) :=
    pairwise_insertionSort (fun a b : SqlStore.Row .commands => b.updatedAt ≤ a.updatedAt) _
  exact all.sublist filter_sublist

theorem rows_order {s : SqlStore.Store}
    (distinct : (taken .rows now epoch runId s).Pairwise (fun a b => a.createdAt ≠ b.createdAt))
    (turned : Turned (fun a b => a < b) now epoch runId s) :
    (taken .rows now epoch runId s).Pairwise (fun a b => a.createdAt < b.createdAt) := by
  rw [rows_taken,pairwise_map] at distinct ⊢
  refine ((rows_sorted now epoch runId s).and distinct).imp_of_mem (fun {a b} first second related => ?_)
  grind only [mem_filter,Turned]

theorem rows_turned {s : SqlStore.Store}
    (ordered : (taken .rows now epoch runId s).Pairwise (fun a b => a.createdAt < b.createdAt)) :
    Turned (fun a b => a ≤ b) now epoch runId s := by
  rw [rows_taken,pairwise_map] at ordered
  -- Of any two rows of the list one comes first, and then it is the earlier command and the later row.
  let related := fun a b : SqlStore.Row .commands => (b.updatedAt ≤ a.updatedAt ∧ a.payload.createdAt < b.payload.createdAt) ∨
    (a.updatedAt ≤ b.updatedAt ∧ b.payload.createdAt < a.payload.createdAt)
  have symm : Std.Symm related := ⟨fun _ _ either => either.symm⟩
  have all : ((rowsOf s runId).filter (fun row => claimable now epoch row.payload)).Pairwise related :=
    ((rows_sorted now epoch runId s).and ordered).imp (fun first => .inl first)
  grind only [all.forall,mem_filter,Turned]

def Bare (backend : Backend) (runId : String) (s : State backend) : Prop :=
  ∀ id c, (laws backend).command s id = some c → parentId .commands c ≠ some runId

theorem recorded_bare {backend : Backend} {runId : String} {s : State backend} (good : (laws backend).good s)
    (bare : Bare backend runId s) : Recorded backend runId ⟨s,[]⟩ :=
  ⟨good,List.Pairwise.nil,fun id c found child => absurd child (bare id c found)⟩

/-- A claimed list is in queue order: on files when at most one command can be claimed, on rows when the row of an
    earlier command was saved later than that of a later one. -/
theorem claims_in_queue_order (runId computerId leaseId : String) (epoch : Nat) (now : Time) (saved : String → Time)
    (calls : List Call) :
    (∀ s t claimed, FilesGood s → Bare .files runId s → Permitted (step .files runId) (Increasing .files) ⟨s,[]⟩ calls →
      files.claimCommands now saved runId computerId leaseId epoch (reach (step .files runId) ⟨s,[]⟩ calls).store =
        (.ok claimed,t) →
      (InQueueOrder (reach (step .files runId) ⟨s,[]⟩ calls).queued claimed ↔
        (taken .files now epoch runId (reach (step .files runId) ⟨s,[]⟩ calls).store).length ≤ 1)) ∧
    ∀ s t claimed, RowsGood s → Bare .rows runId s → Permitted (step .rows runId) (Increasing .rows) ⟨s,[]⟩ calls →
      rows.claimCommands now saved runId computerId leaseId epoch (reach (step .rows runId) ⟨s,[]⟩ calls).store =
        (.ok claimed,t) →
      (Turned (fun a b => a < b) now epoch runId (reach (step .rows runId) ⟨s,[]⟩ calls).store →
        InQueueOrder (reach (step .rows runId) ⟨s,[]⟩ calls).queued claimed) ∧
      (InQueueOrder (reach (step .rows runId) ⟨s,[]⟩ calls).queued claimed →
        Turned (fun a b => a ≤ b) now epoch runId (reach (step .rows runId) ⟨s,[]⟩ calls).store) := by
  constructor
  · intro s t claimed good bare increasing ran
    have kept := recorded_reach (@recorded_bare .files runId s good bare) increasing
    rw [@claim_order .files _ _ kept _ _ _ _ _ _ _ ran,files_order]
  · intro s t claimed good bare increasing ran
    have kept := recorded_reach (@recorded_bare .rows runId s good bare) increasing
    rw [@claim_order .rows _ _ kept _ _ _ _ _ _ _ ran]
    exact ⟨rows_order (taken_distinct kept now epoch),rows_turned⟩

instance (backend : Backend) (h : History backend) (call : Call) : Decidable (Increasing backend h call) := by
  cases call <;> unfold Increasing <;> infer_instance

instance (queued : List (String × Time)) (commands : List RuntimeCommand) : Decidable (InQueueOrder queued commands) :=
  inferInstanceAs (Decidable (List.Sublist _ _))

def leasedRun : TaskRun :=
  { id := "run",taskId := "task",computerId := "computer",status := .running,leaseId := some "lease"
    leaseExpiresAt := some (seconds 100),createdAt := 0,updatedAt := 0 }

def filesStart : LocalStore.Store := ⟨Table.empty.put .runs "run" leasedRun,fun _ _ => []⟩
def rowsStart : SqlStore.Store := Table.empty.put .runs "run" (SqlStore.record 0 .runs leasedRun)

theorem filesStart_commands (id : String) : filesStart.docs.find .commands id = none :=
  (find_put_collection _ _ _ _ (by decide)).trans rfl

theorem filesStart_good : FilesGood filesStart ∧ Bare .files "run" filesStart := by
  refine ⟨⟨fun id c found => ?_,fun parent id => ?_,fun _ => nodup_nil⟩,fun id c found => ?_⟩
  · cases found
  · rw [filesStart_commands]; simp [filesStart]
  · have none : filesStart.docs.find .commands id = some c := found
    cases none

theorem rowsStart_good : RowsGood rowsStart ∧ Bare .rows "run" rowsStart := by
  refine ⟨⟨fun id row found => ?_,fun id row found => ?_⟩,fun id c found => ?_⟩
  · cases found
  · cases found
  · have none : (rowsStart.find .commands id).map SqlStore.Row.payload = some c := found
    cases none

def twoQueued : List Call :=
  [.queue (seconds 1) (seconds 1) "first" .start .nil "",.queue (seconds 2) (seconds 2) "second" .start .nil ""]

/-- Both are claimed and nobody acknowledges them. The row of the second one is saved first. -/
def twoClaimed : List Call :=
  twoQueued ++ [.claim (seconds 3) (fun id => if id = "second" then seconds 3 else seconds 4) "computer" "lease" 1]

def claimAt {backend : Backend} (now : Time) (h : History backend) : Except Err (List RuntimeCommand) × State backend :=
  (commandStore backend).claimCommands now (fun _ => now) "run" "computer" "lease" 1 h.store

/-- A claim of one command from the files, and the second claim of two from the rows, are in queue order. -/
theorem claims_in_queue_order_holds :
    (∃ claimed t, claimAt (seconds 3) (reach (step .files "run") ⟨filesStart,[]⟩ (twoQueued.take 1)) = (.ok claimed,t) ∧
      InQueueOrder (reach (step .files "run") ⟨filesStart,[]⟩ (twoQueued.take 1)).queued claimed) ∧
    ∃ claimed t, claimAt (seconds 30) (reach (step .rows "run") ⟨rowsStart,[]⟩ twoClaimed) = (.ok claimed,t) ∧
      InQueueOrder (reach (step .rows "run") ⟨rowsStart,[]⟩ twoClaimed).queued claimed := by
  constructor
  · have ran : claimAt (seconds 3) (reach (step .files "run") ⟨filesStart,[]⟩ (twoQueued.take 1)) =
        (.ok [claimedCommand (seconds 3) { id := "first",runId := "run",epoch := 1,kind := .start,createdAt := seconds 1 }],
          (claimAt (seconds 3) (reach (step .files "run") ⟨filesStart,[]⟩ (twoQueued.take 1))).2) := by rfl
    exact ⟨_,_,ran,((claims_in_queue_order "run" "computer" "lease" 1 (seconds 3) (fun _ => seconds 3) (twoQueued.take 1)).1
      filesStart _ _ filesStart_good.1 filesStart_good.2 (by decide) ran).mpr (by decide)⟩
  · have ran : ∃ claimed, claimAt (seconds 30) (reach (step .rows "run") ⟨rowsStart,[]⟩ twoClaimed) =
        (.ok claimed,(claimAt (seconds 30) (reach (step .rows "run") ⟨rowsStart,[]⟩ twoClaimed)).2) := ⟨_,rfl⟩
    obtain ⟨claimed,ran⟩ := ran
    exact ⟨_,_,ran,((claims_in_queue_order "run" "computer" "lease" 1 (seconds 30) (fun _ => seconds 30) twoClaimed).2
      rowsStart _ _ rowsStart_good.1 rowsStart_good.2 (by decide) ran).1 (by unfold Turned; decide)⟩

/-- Two commands that are claimed together come in the wrong order, from either store. -/
theorem claims_reverse_the_queue :
    (Permitted (step .files "run") (Increasing .files) ⟨filesStart,[]⟩ twoQueued ∧
      ∃ claimed t, claimAt (seconds 3) (reach (step .files "run") ⟨filesStart,[]⟩ twoQueued) = (.ok claimed,t) ∧
        claimed.map RuntimeCommand.id = ["second","first"] ∧
        ¬InQueueOrder (reach (step .files "run") ⟨filesStart,[]⟩ twoQueued).queued claimed) ∧
    Permitted (step .rows "run") (Increasing .rows) ⟨rowsStart,[]⟩ twoQueued ∧
      ∃ claimed t, claimAt (seconds 3) (reach (step .rows "run") ⟨rowsStart,[]⟩ twoQueued) = (.ok claimed,t) ∧
        claimed.map RuntimeCommand.id = ["second","first"] ∧
        ¬InQueueOrder (reach (step .rows "run") ⟨rowsStart,[]⟩ twoQueued).queued claimed := by
  refine ⟨⟨by decide,_,_,rfl,by decide,by decide⟩,by decide,_,_,rfl,by decide,by decide⟩

end Cowork.CommandOrder
